import JdRelay.Base.Dict

namespace Query

variable {K : Type}

-- What SELECT key, COUNT(*) GROUP BY key may answer: one row for each class of equal keys, under some key of its class.
structure Groups (equal : K → K → Bool) (keys : List K) (answer : List (K × Nat)) : Prop where
  counted : ∀ r ∈ answer, r.1 ∈ keys ∧ r.2 = keys.countP (equal r.1)
  apart : answer.Pairwise fun r r' => equal r.1 r'.1 = false
  covered : ∀ k ∈ keys, ∃ r ∈ answer, equal r.1 k = true

def IsCollation (equal : K → K → Bool) : Prop := Equivalence fun a b => equal a b = true

variable {equal : K → K → Bool} {keys : List K} {answer : List (K × Nat)}

theorem Groups.countP_eq_one (hequal : IsCollation equal) (h : Groups equal keys answer) {k : K} (hk : k ∈ keys) :
    answer.countP (fun r => equal r.1 k) = 1 := by
  obtain ⟨r, hr, hrk⟩ := h.covered k hk
  obtain ⟨front, back, rfl⟩ := List.append_of_mem hr
  obtain ⟨-, hback, hfront⟩ := List.pairwise_append.mp h.apart
  have hno {r' : K × Nat} (hr' : equal r'.1 r.1 = false) : ¬ equal r'.1 k = true := by
    intro hk'
    have hsame : equal r'.1 r.1 = true := hequal.trans hk' (hequal.symm hrk)
    rw [hr'] at hsame
    cases hsame
  have hfree : front.countP (fun r => equal r.1 k) = 0 :=
    List.countP_eq_zero.mpr fun r' hr' => hno (hfront r' hr' r List.mem_cons_self)
  have hfree' : back.countP (fun r => equal r.1 k) = 0 := by
    refine List.countP_eq_zero.mpr fun r' hr' => hno ?_
    have hapart := (List.pairwise_cons.mp hback).1 r' hr'
    by_contra hsame
    rw [hequal.symm (Bool.not_eq_false _ ▸ hsame)] at hapart
    cases hapart
  rw [List.countP_append, List.countP_cons, hfree, hfree', if_pos hrk]

theorem countP_eq_sum {A : Type} (p : A → Bool) (l : List A) : l.countP p = (l.map fun a => if p a then 1 else 0).sum := by
  induction l with
  | nil => rfl
  | cons a l ih => rw [List.countP_cons, List.map_cons, List.sum_cons, ih, Nat.add_comm]

theorem sum_countP {A B : Type} (p : A → B → Bool) (as : List A) (bs : List B) :
    (as.map fun a => bs.countP (p a)).sum = (bs.map fun b => as.countP fun a => p a b).sum := by
  induction as with
  | nil => simp
  | cons a as ih =>
      rw [List.map_cons, List.sum_cons, ih, countP_eq_sum, ← List.sum_map_add]
      refine congrArg List.sum (List.map_congr_left fun b _ => ?_)
      rw [List.countP_cons, Nat.add_comm]

theorem Groups.sum_eq (hequal : IsCollation equal) (h : Groups equal keys answer) :
    (answer.map (·.2)).sum = keys.length := by
  have hcounts : answer.map (·.2) = answer.map fun r => keys.countP (equal r.1) :=
    List.map_congr_left fun r hr => (h.counted r hr).2
  have hones : keys.map (fun k => answer.countP fun r => equal r.1 k) = keys.map fun _ => 1 :=
    List.map_congr_left fun k hk => h.countP_eq_one hequal hk
  rw [hcounts, sum_countP (fun r : K × Nat => equal r.1), hones]
  simp

theorem Groups.nodup (hequal : IsCollation equal) (h : Groups equal keys answer) : (answer.map (·.1)).Nodup := by
  refine List.pairwise_map.mpr (h.apart.imp ?_)
  intro r r' hapart hsame
  rw [hsame, hequal.refl r'.1] at hapart
  cases hapart

end Query
