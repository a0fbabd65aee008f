import Mathlib.Tactic
import Mathlib.Data.List.DropRight

namespace Fields

variable {A : Type}

section Trim

variable (p : A → Bool)

def trim (s : List A) : List A := (s.dropWhile p).rdropWhile p

-- No p at either end.
def Trimmed (s : List A) : Prop := (∀ x ∈ s.head?, p x = false) ∧ ∀ x ∈ s.getLast?, p x = false

variable {p} {x : A} {a b s : List A}

theorem dropWhile_append_cons (hx : p x = false) (a s : List A) : (a ++ x :: s).dropWhile p = a.dropWhile p ++ x :: s := by
  induction a with
  | nil => simp [hx]
  | cons y a ih =>
      rw [List.cons_append, List.dropWhile_cons, List.dropWhile_cons]
      split
      · exact ih
      · rfl

theorem rdropWhile_append_cons (hx : p x = false) (a s : List A) :
    (a ++ x :: s).rdropWhile p = a ++ x :: s.rdropWhile p := by
  have hreverse : (a ++ x :: s).reverse = s.reverse ++ x :: a.reverse := by simp
  rw [List.rdropWhile, hreverse, dropWhile_append_cons hx, List.rdropWhile]
  simp

theorem rdropWhile_append_of_all (hb : ∀ y ∈ b, p y = true) (s : List A) : (s ++ b).rdropWhile p = s.rdropWhile p := by
  rw [List.rdropWhile, List.rdropWhile, List.reverse_append,
    List.dropWhile_append_of_pos fun y hy => hb y (List.mem_reverse.mp hy)]

theorem trim_append_left (ha : ∀ y ∈ a, p y = true) (s : List A) : trim p (a ++ s) = trim p s := by
  rw [trim, List.dropWhile_append_of_pos ha, trim]

theorem trim_append_right (hb : ∀ y ∈ b, p y = true) (s : List A) : trim p (s ++ b) = trim p s := by
  rw [trim, trim, List.dropWhile_append]
  split_ifs with hs
  · rw [List.isEmpty_iff.mp hs, List.dropWhile_eq_nil_iff.mpr hb]
  · exact rdropWhile_append_of_all hb _

theorem trim_cons (hx : p x = false) (s : List A) : trim p (x :: s) = x :: s.rdropWhile p := by
  rw [trim, List.dropWhile_cons, if_neg (by rw [hx]; exact Bool.false_ne_true)]
  exact rdropWhile_append_cons hx [] s

theorem trim_of_trimmed (h : Trimmed p s) : trim p s = s := by
  cases s with
  | nil => rfl
  | cons x s =>
      rw [trim, List.dropWhile_cons, if_neg (by rw [h.1 x rfl]; exact Bool.false_ne_true), List.rdropWhile_eq_self_iff]
      intro hne
      rw [h.2 _ (List.getLast?_eq_some_getLast hne)]
      exact Bool.false_ne_true

theorem trim_padded (ha : ∀ y ∈ a, p y = true) (hb : ∀ y ∈ b, p y = true) (hs : Trimmed p s) : trim p (a ++ s ++ b) = s := by
  rw [trim_append_right hb, trim_append_left ha, trim_of_trimmed hs]

theorem trim_of_all (ha : ∀ y ∈ a, p y = true) : trim p a = [] := by
  rw [trim, List.dropWhile_eq_nil_iff.mpr ha]
  rfl

theorem trim_rdropWhile (s : List A) : trim p (s.rdropWhile p) = trim p s := by
  have hsplit : s.rdropWhile p ++ s.rtakeWhile p = s := List.rdropWhile_append_rtakeWhile
  rw [← trim_append_right (fun y hy => List.mem_rtakeWhile_imp hy) (s.rdropWhile p), hsplit]

theorem mem_trim (hx : p x = false) (h : x ∈ s) : x ∈ trim p s := by
  have hdrop : x ∈ s.dropWhile p := by
    rw [← List.takeWhile_append_dropWhile (p := p) (l := s)] at h
    refine (List.mem_append.mp h).resolve_left fun htake => ?_
    rw [List.mem_takeWhile_imp htake] at hx
    cases hx
  have hsplit : (s.dropWhile p).rdropWhile p ++ (s.dropWhile p).rtakeWhile p = s.dropWhile p :=
    List.rdropWhile_append_rtakeWhile
  rw [← hsplit] at hdrop
  refine (List.mem_append.mp hdrop).resolve_right fun htake => ?_
  rw [List.mem_rtakeWhile_imp htake] at hx
  cases hx

end Trim

section Pieces

variable [DecidableEq A] {d : A} {a s : List A}

-- What successive calls of std::getline give: nothing behind a delimiter that ends the text.
def pieces (d : A) : List A → List (List A)
  | [] => []
  | c :: s =>
      if c = d then [] :: pieces d s
      else
        match pieces d s with
        | [] => [[c]]
        | l :: ls => (c :: l) :: ls

def cut (d : A) : List A → Option (List A × List A)
  | [] => none
  | c :: s => if c = d then some ([], s) else (cut d s).map fun r => (c :: r.1, r.2)

theorem pieces_append (ha : d ∉ a) (s : List A) : pieces d (a ++ d :: s) = a :: pieces d s := by
  induction a with
  | nil => rw [List.nil_append, pieces, if_pos rfl]
  | cons c a ih =>
      obtain ⟨hc, ha⟩ := not_or.mp (mt List.mem_cons.mpr ha)
      rw [List.cons_append, pieces, if_neg (Ne.symm hc), ih ha]

theorem pieces_of_notMem (ha : d ∉ a) : pieces d a = if a = [] then [] else [a] := by
  induction a with
  | nil => rfl
  | cons c a ih =>
      obtain ⟨hc, ha⟩ := not_or.mp (mt List.mem_cons.mpr ha)
      rw [pieces, if_neg (Ne.symm hc), ih ha, if_neg (List.cons_ne_nil _ _)]
      split_ifs with hnil
      · rw [hnil]
      · rfl

theorem splitOn_pieces (d : A) (s : List A) : s.splitOn d = pieces d s ∨ s.splitOn d = pieces d s ++ [[]] := by
  induction s with
  | nil => exact .inr rfl
  | cons c s ih =>
      rw [List.splitOn_cons_eq_if_modifyHead, pieces]
      by_cases hc : c = d
      · simpa [hc] using ih
      · rw [if_neg hc]
        rcases ih with ih | ih
        · rw [ih]
          cases hp : pieces d s with
          | nil => exact absurd (ih.trans hp) (List.splitOn_ne_nil d s)
          | cons l ls => exact .inl (by simp [hc])
        · rw [ih]
          cases hp : pieces d s with
          | nil => exact .inl (by simp [hc])
          | cons l ls => exact .inr (by simp [hc])

theorem mem_pieces {x : A} (hx : x ≠ d) (h : x ∈ s) : ∃ l ∈ pieces d s, x ∈ l := by
  induction s with
  | nil => cases h
  | cons c s ih =>
      rw [pieces]
      split_ifs with hc
      · obtain ⟨l, hl, hxl⟩ := ih ((List.mem_cons.mp h).resolve_left fun heq => hx (heq.trans hc))
        exact ⟨l, List.mem_cons_of_mem _ hl, hxl⟩
      · cases hp : pieces d s with
        | nil =>
            rcases List.mem_cons.mp h with rfl | h
            · exact ⟨[x], List.mem_cons_self, List.mem_cons_self⟩
            · obtain ⟨l, hl, -⟩ := ih h
              rw [hp] at hl
              cases hl
        | cons l ls =>
            rcases List.mem_cons.mp h with rfl | h
            · exact ⟨x :: l, List.mem_cons_self, List.mem_cons_self⟩
            · obtain ⟨m, hm, hxm⟩ := ih h
              rw [hp] at hm
              rcases List.mem_cons.mp hm with rfl | hm
              · exact ⟨c :: m, List.mem_cons_self, List.mem_cons_of_mem _ hxm⟩
              · exact ⟨m, List.mem_cons_of_mem _ hm, hxm⟩

theorem cut_append (ha : d ∉ a) (s : List A) : cut d (a ++ d :: s) = some (a, s) := by
  induction a with
  | nil => rw [List.nil_append, cut, if_pos rfl]
  | cons c a ih =>
      obtain ⟨hc, ha⟩ := not_or.mp (mt List.mem_cons.mpr ha)
      rw [List.cons_append, cut, if_neg (Ne.symm hc), ih ha]
      rfl

end Pieces

end Fields
