import Mathlib.Tactic

namespace Query

variable {A K : Type} [LinearOrder K]

-- What ORDER BY key DESC may answer: rows with one key come in any order.
structure Answers (key : A → K) (rows answer : List A) : Prop where
  perm : answer.Perm rows
  sorted : answer.Pairwise fun a b => key b ≤ key a

def page (limit offset : Nat) (answer : List A) : List A := (answer.drop offset).take limit

def pages (limit m : Nat) (answers : Nat → List A) : List A :=
  (List.range m).flatMap fun k => page limit (k * limit) (answers k)

def ranked (key : A → K) (rows : List A) : List K := (rows.map key).mergeSort fun a b => decide (b ≤ a)

def Tied (key : A → K) (rows : List A) (i : Nat) : Prop :=
  ∃ x, (ranked key rows)[i - 1]? = some x ∧ (ranked key rows)[i]? = some x

section Ranks

variable {key : A → K} {rows answer : List A}

theorem mergeSort_sorted (key : A → K) (rows : List A) :
    (rows.mergeSort fun a b => decide (key b ≤ key a)).Pairwise fun a b => key b ≤ key a := by
  have hsorted : (rows.mergeSort fun a b => decide (key b ≤ key a)).Pairwise fun a b => decide (key b ≤ key a) = true :=
    List.pairwise_mergeSort (fun a b c hab hbc => decide_eq_true ((of_decide_eq_true hbc).trans (of_decide_eq_true hab)))
      (fun a b => by simpa using le_total (key b) (key a)) rows
  exact hsorted.imp of_decide_eq_true

theorem exists_answers (key : A → K) (rows : List A) : ∃ answer, Answers key rows answer :=
  ⟨_, List.mergeSort_perm _ _, mergeSort_sorted key rows⟩

theorem ranked_sorted (key : A → K) (rows : List A) : (ranked key rows).Pairwise fun x y => y ≤ x :=
  mergeSort_sorted id (rows.map key)

theorem Answers.keys (h : Answers key rows answer) : answer.map key = ranked key rows :=
  List.Perm.eq_of_pairwise (fun _ _ _ _ hxy hyx => le_antisymm hyx hxy) (List.pairwise_map.mpr h.sorted)
    (ranked_sorted key rows) ((h.perm.map key).trans (List.mergeSort_perm _ _).symm)

theorem exists_split : ∀ {l : List A} {i : Nat}, i + 1 < l.length →
    ∃ front a b back, l = front ++ a :: b :: back ∧ front.length = i
  | a :: b :: back, 0, _ => ⟨[], a, b, back, rfl, rfl⟩
  | c :: l, i + 1, h => by
      obtain ⟨front, a, b, back, rfl, rfl⟩ := exists_split (l := l) (i := i) (by simpa using h)
      exact ⟨c :: front, a, b, back, rfl, rfl⟩

variable {front back : List A} {a b : A}

theorem Answers.ranked_split (h : Answers key rows (front ++ a :: b :: back)) :
    (ranked key rows)[front.length]? = some (key a) ∧ (ranked key rows)[front.length + 1]? = some (key b) := by
  rw [← h.keys]
  simp

theorem Answers.tied_iff (h : Answers key rows (front ++ a :: b :: back)) :
    Tied key rows (front.length + 1) ↔ key b = key a := by
  obtain ⟨ha, hb⟩ := h.ranked_split
  rw [Tied, Nat.add_sub_cancel, ha, hb]
  simp

theorem Answers.take_eq_filter (h : Answers key rows (front ++ a :: b :: back)) (hne : key b ≠ key a) :
    (front ++ a :: b :: back).take (front.length + 1) =
      (front ++ a :: b :: back).filter fun c => decide (key a ≤ key c) := by
  have hsorted := h.sorted
  obtain ⟨-, hrest, hfront⟩ := List.pairwise_append.mp hsorted
  obtain ⟨hle, hback⟩ := List.pairwise_cons.mp hrest
  have hlt : key b < key a := lt_of_le_of_ne (hle b List.mem_cons_self) hne
  have hcut : front ++ a :: b :: back = (front ++ [a]) ++ b :: back := List.append_cons _ _ _
  have hkept : (front ++ [a]).filter (fun c => decide (key a ≤ key c)) = front ++ [a] := by
    refine List.filter_eq_self.mpr fun c hc => decide_eq_true ?_
    rcases List.mem_append.mp hc with hc | hc
    · exact hfront c hc a List.mem_cons_self
    · rw [List.mem_singleton.mp hc]
  have hdropped : (b :: back).filter (fun c => decide (key a ≤ key c)) = [] := by
    refine List.filter_eq_nil_iff.mpr fun c hc => ?_
    have hcb : key c ≤ key b := by
      rcases List.mem_cons.mp hc with rfl | hc
      · exact le_rfl
      · exact (List.pairwise_cons.mp hback).1 c hc
    simpa using hcb.trans_lt hlt
  rw [hcut, List.take_left' (by rw [List.length_append, List.length_singleton]), List.filter_append, hkept, hdropped, List.append_nil]

theorem Answers.take_perm {x y : List A} (hx : Answers key rows x) (hy : Answers key rows y) {i : Nat}
    (hfree : 0 < i → ¬ Tied key rows i) : (x.take i).Perm (y.take i) := by
  have hperm : x.Perm y := hx.perm.trans hy.perm.symm
  cases i with
  | zero => rfl
  | succ i =>
      by_cases hi : i + 1 < x.length
      · obtain ⟨front, a, b, back, rfl, rfl⟩ := exists_split hi
        obtain ⟨front', a', b', back', rfl, hlength⟩ := exists_split (hperm.length_eq ▸ hi)
        have hne := mt hx.tied_iff.mpr (hfree (Nat.succ_pos _))
        have hkeys : key a' = key a := by
          have ha' := hy.ranked_split.1
          rw [hlength, hx.ranked_split.1] at ha'
          exact (Option.some.inj ha').symm
        have htied := hfree (Nat.succ_pos _)
        rw [← hlength] at htied ⊢
        rw [hy.take_eq_filter (mt hy.tied_iff.mpr htied), hlength, hx.take_eq_filter hne, hkeys]
        exact hperm.filter _
      · rw [List.take_of_length_le (not_lt.mp hi), List.take_of_length_le (hperm.length_eq ▸ not_lt.mp hi)]
        exact hperm

end Ranks

section Pages

variable {key : A → K} {rows : List A} {limit : Nat}

theorem take_page (limit k : Nat) (answer : List A) :
    answer.take (k * limit) ++ page limit (k * limit) answer = answer.take ((k + 1) * limit) := by
  rw [page, Nat.succ_mul, List.take_add]

theorem pages_succ (limit m : Nat) (answers : Nat → List A) :
    pages limit (m + 1) answers = pages limit m answers ++ page limit (m * limit) (answers m) := by
  rw [pages, List.range_succ, List.flatMap_append, List.flatMap_singleton]
  rfl

theorem pages_perm {answers : Nat → List A} (hanswers : ∀ k, Answers key rows (answers k))
    (hfree : ∀ k, 0 < k * limit → ¬ Tied key rows (k * limit)) (m : Nat) :
    (pages limit m answers).Perm ((answers m).take (m * limit)) := by
  induction m with
  | zero => simp [pages]
  | succ m ih =>
      have hpage := ih.append_right (page limit (m * limit) (answers m))
      rw [take_page, ← pages_succ] at hpage
      exact hpage.trans ((hanswers m).take_perm (hanswers (m + 1)) (hfree (m + 1)))

theorem mem_page {limit offset i : Nat} {answer : List A} {a : A} (h : answer[offset + i]? = some a) (hi : i < limit) :
    a ∈ page limit offset answer := by
  refine List.mem_of_getElem? (i := i) ?_
  rw [page, List.getElem?_take_of_lt hi, List.getElem?_drop, h]

theorem not_nodup_pages {answers : Nat → List A} {i j m : Nat} (hij : i ≠ j) (hi : i < m) (hj : j < m) {a : A}
    (hai : a ∈ page limit (i * limit) (answers i)) (haj : a ∈ page limit (j * limit) (answers j)) :
    ¬ (pages limit m answers).Nodup := by
  intro hnodup
  have hdisjoint := (List.nodup_flatMap.mp hnodup).2
  have hsymm : Std.Symm (Function.onFun (List.Disjoint (α := A)) fun k => page limit (k * limit) (answers k)) :=
    ⟨fun _ _ h => h.symm⟩
  exact hdisjoint.forall (List.mem_range.mpr hi) (List.mem_range.mpr hj) hij hai haj

theorem Answers.swap {front back : List A} {a b : A} (h : Answers key rows (front ++ a :: b :: back)) (hkeys : key b = key a) :
    Answers key rows (front ++ b :: a :: back) := by
  refine ⟨((List.Perm.swap a b back).append_left front).trans h.perm, ?_⟩
  have hmap : (front ++ b :: a :: back).map key = (front ++ a :: b :: back).map key := by simp [hkeys]
  have hsorted := h.keys ▸ ranked_sorted key rows
  rw [← hmap] at hsorted
  exact List.pairwise_map.mp hsorted

theorem exists_tied {i : Nat} (hpos : 0 < i) (h : Tied key rows i) :
    ∃ front a b back, Answers key rows (front ++ a :: b :: back) ∧ front.length + 1 = i ∧ key b = key a := by
  obtain ⟨answer, hanswer⟩ := exists_answers key rows
  have hlt : i - 1 + 1 < answer.length := by
    obtain ⟨x, -, hx⟩ := h
    rw [← hanswer.keys] at hx
    have hlength := (List.getElem?_eq_some_iff.mp hx).1
    rw [List.length_map] at hlength
    omega
  obtain ⟨front, a, b, back, rfl, hfront⟩ := exists_split hlt
  have hplace : front.length + 1 = i := by omega
  exact ⟨front, a, b, back, hanswer, hplace, hanswer.tied_iff.mp (hplace ▸ h)⟩

-- The row in front of a tied page end may come again as the first of the next page.
theorem exists_repeat {k : Nat} (hpos : 0 < k * limit) (htied : Tied key rows (k * limit)) :
    ∃ answers : Nat → List A, (∀ j, Answers key rows (answers j)) ∧
      ∀ m, rows.length ≤ m * limit → ¬ (pages limit m answers).Nodup := by
  obtain ⟨hk, hlimit⟩ := CanonicallyOrderedAdd.mul_pos.mp hpos
  obtain ⟨front, a, b, back, hanswer, hplace, hkeys⟩ := exists_tied hpos htied
  refine ⟨fun j => if j = k then front ++ b :: a :: back else front ++ a :: b :: back, fun j => ?_, fun m hm => ?_⟩
  · dsimp only
    split_ifs
    · exact hanswer.swap hkeys
    · exact hanswer
  have hkm : k < m := by
    rw [← hanswer.perm.length_eq, List.length_append, List.length_cons, List.length_cons] at hm
    exact lt_of_mul_lt_mul_right (by omega : k * limit < m * limit) (Nat.zero_le _)
  refine not_nodup_pages (i := k - 1) (j := k) (a := a) (by omega) (by omega) hkm ?_ ?_
  · have hlast : (k - 1) * limit + (limit - 1) = front.length := by
      have hle : limit ≤ k * limit := Nat.le_mul_of_pos_left _ hk
      rw [Nat.sub_one_mul]
      omega
    rw [if_neg (by omega : k - 1 ≠ k)]
    refine mem_page (i := limit - 1) ?_ (by omega)
    rw [hlast]
    simp
  · rw [if_pos rfl]
    refine mem_page (i := 0) ?_ hlimit
    rw [Nat.add_zero, ← hplace]
    simp

theorem pages_perm_rows {answers : Nat → List A} (hanswers : ∀ k, Answers key rows (answers k))
    (hfree : ∀ k, 0 < k * limit → ¬ Tied key rows (k * limit)) {m : Nat} (hm : rows.length ≤ m * limit) :
    (pages limit m answers).Perm rows := by
  have hperm := pages_perm hanswers hfree m
  rw [List.take_of_length_le (by rwa [(hanswers m).perm.length_eq])] at hperm
  exact hperm.trans (hanswers m).perm

end Pages

end Query
