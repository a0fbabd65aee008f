import Mathlib.Tactic

namespace Lines

variable {A : Type}

section Reads

variable [DecidableEq A]

-- What one read takes: up to limit elements, and none behind the end of a line.
def span (newline : A) (limit : Nat) (s : List A) : Nat := min limit ((s.takeWhile (· ≠ newline)).length + 1)

def reads (newline : A) (limit : Nat) : Nat → List A → List (List A)
  | 0, _ => []
  | _ + 1, [] => []
  | fuel + 1, a :: s =>
      (a :: s).take (span newline limit (a :: s)) :: reads newline limit fuel ((a :: s).drop (span newline limit (a :: s)))

variable {newline : A} {limit : Nat}

theorem span_pos (h : 0 < limit) (s : List A) : 0 < span newline limit s := by
  unfold span
  omega

theorem reads_flatten (h : 0 < limit) : ∀ {fuel : Nat} {s : List A}, s.length ≤ fuel →
    (reads newline limit fuel s).flatten = s := by
  intro fuel
  induction fuel with
  | zero =>
      intro s hs
      rw [List.length_eq_zero_iff.mp (Nat.le_zero.mp hs)]
      rfl
  | succ fuel ih =>
      intro s hs
      cases s with
      | nil => rfl
      | cons a s =>
          have hpos : 0 < span newline limit (a :: s) := span_pos h _
          have hrest : ((a :: s).drop (span newline limit (a :: s))).length ≤ fuel := by
            rw [List.length_drop]
            omega
          rw [reads, List.flatten_cons, ih hrest, List.take_append_drop]

end Reads

section Infix

variable {w : List A}

theorem infix_cons_of_notMem {c : A} {s : List A} (hc : c ∉ w) (hw : w ≠ []) : w <:+: c :: s ↔ w <:+: s := by
  rw [List.infix_cons_iff, or_iff_right]
  rintro ⟨t, ht⟩
  cases w with
  | nil => exact hw rfl
  | cons x w =>
      obtain ⟨rfl, -⟩ := List.cons.inj ht
      exact hc List.mem_cons_self

theorem prefix_of_notMem {c : A} {s t : List A} (hc : c ∉ w) (h : w <+: s ++ c :: t) : w <+: s := by
  rcases List.prefix_or_prefix_of_prefix h (List.prefix_append s (c :: t)) with hw | ⟨u, rfl⟩
  · exact hw
  · cases u with
    | nil => rw [List.append_nil]
    | cons x u =>
        obtain ⟨v, hv⟩ := (List.prefix_append_right_inj s).mp h
        obtain ⟨rfl, -⟩ := List.cons.inj hv
        exact absurd (List.mem_append_right s List.mem_cons_self) hc

theorem infix_line_iff {c : A} {s t : List A} (hc : c ∉ w) (hw : w ≠ []) :
    w <:+: s ++ c :: t ↔ w <:+: s ∨ w <:+: t := by
  induction s with
  | nil =>
      rw [List.nil_append, infix_cons_of_notMem hc hw, List.infix_nil, or_iff_right hw]
  | cons a s ih =>
      rw [List.cons_append, List.infix_cons_iff, List.infix_cons_iff, ih, or_assoc, ← List.cons_append]
      exact or_congr_left ⟨prefix_of_notMem hc, fun h => h.trans (List.prefix_append _ _)⟩

theorem infix_lines_iff {c : A} (hc : c ∉ w) (hw : w ≠ []) {B : Type} (line : B → List A) (bs : List B) :
    w <:+: bs.flatMap (fun b => line b ++ [c]) ↔ ∃ b ∈ bs, w <:+: line b := by
  induction bs with
  | nil => simp [hw]
  | cons b bs ih =>
      rw [List.flatMap_cons, List.append_assoc, List.singleton_append, infix_line_iff hc hw, ih, List.exists_mem_cons_iff]

theorem infix_of_head_notMem {a s : List A} (hhead : ∀ x ∈ w.head?, x ∉ a) (hw : w ≠ []) (h : w <:+: a ++ s) :
    w <:+: s := by
  induction a with
  | nil => exact h
  | cons y a ih =>
      rw [List.cons_append, List.infix_cons_iff] at h
      rcases h with ⟨t, ht⟩ | h
      · cases w with
        | nil => exact absurd rfl hw
        | cons x w =>
            obtain ⟨rfl, -⟩ := List.cons.inj ht
            exact absurd List.mem_cons_self (hhead x rfl)
      · exact ih (fun x hx hm => hhead x hx (List.mem_cons_of_mem _ hm)) h

structure Escapes (escape : A → List A) (mark : A) (w : List A) : Prop where
  unmarked : mark ∉ w
  plain : ∀ b, escape b = [b] ∨ (∃ code, escape b = mark :: code) ∧ ∀ x ∈ w.head?, x ∉ escape b

theorem prefix_escape {escape : A → List A} {mark : A} (hmark : mark ∉ w)
    (hplain : ∀ b, escape b = [b] ∨ ∃ code, escape b = mark :: code) {s : List A} (h : w <+: s.flatMap escape) :
    w <+: s := by
  induction s generalizing w with
  | nil => exact h
  | cons b s ih =>
      cases w with
      | nil => exact List.nil_prefix
      | cons x w =>
          rw [List.flatMap_cons] at h
          rcases hplain b with hb | ⟨code, hb⟩
          · rw [hb, List.singleton_append, List.cons_prefix_cons] at h
            obtain ⟨rfl, h⟩ := h
            exact List.cons_prefix_cons.mpr ⟨rfl, ih (fun hm => hmark (List.mem_cons_of_mem _ hm)) h⟩
          · rw [hb, List.cons_append, List.cons_prefix_cons] at h
            exact absurd (h.1 ▸ List.mem_cons_self) hmark

theorem escape_prefix {escape : A → List A} (hself : ∀ b ∈ w, escape b = [b]) {s : List A} (h : w <:+: s) :
    w <:+: s.flatMap escape := by
  obtain ⟨a, t, rfl⟩ := h
  have hw : w.flatMap escape = w := by
    induction w with
    | nil => rfl
    | cons x w ih =>
        obtain ⟨hx, hw⟩ := List.forall_mem_cons.mp hself
        rw [List.flatMap_cons, hx, ih hw]
        rfl
  rw [List.flatMap_append, List.flatMap_append, hw]
  exact ⟨_, _, rfl⟩

theorem infix_escape_iff {escape : A → List A} {mark : A} (hw : w ≠ []) (h : Escapes escape mark w)
    (hself : ∀ b ∈ w, escape b = [b]) {s : List A} : w <:+: s.flatMap escape ↔ w <:+: s := by
  refine ⟨fun hin => ?_, escape_prefix hself⟩
  induction s with
  | nil => exact hin
  | cons b s ih =>
      rw [List.flatMap_cons] at hin
      rcases h.plain b with hb | ⟨⟨code, hb⟩, hhead⟩
      · rw [hb, List.singleton_append, List.infix_cons_iff] at hin
        rcases hin with hprefix | hin
        · have hplain : ∀ b, escape b = [b] ∨ ∃ code, escape b = mark :: code := fun b => (h.plain b).imp_right And.left
          have hall : w <+: (b :: s).flatMap escape := by rwa [List.flatMap_cons, hb]
          exact (prefix_escape h.unmarked hplain hall).isInfix
        · exact List.infix_cons (ih hin)
      · exact List.infix_cons (ih (infix_of_head_notMem hhead hw hin))

end Infix

end Lines
