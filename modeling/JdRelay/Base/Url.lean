import Mathlib.Data.List.TakeWhile
import JdRelay.Base.Percent

namespace Url
open Text

def slash : UInt8 := 47

def question : UInt8 := 63

def hash : UInt8 := 35

def dot : Bytes := [46]

def dotdot : Bytes := [46, 46]

structure Target where
  path : List Bytes
  query : Bytes
  fragment : Bytes
  deriving DecidableEq

def before (c : UInt8) (s : Bytes) : Bytes := s.takeWhile (· ≠ c)

def behind (c : UInt8) (s : Bytes) : Bytes := (s.dropWhile (· ≠ c)).drop 1

def schemeByte (b : UInt8) : Bool :=
  65 ≤ b.toNat && b.toNat ≤ 90 || 97 ≤ b.toNat && b.toNat ≤ 122 || 48 ≤ b.toNat && b.toNat ≤ 57 ||
    b.toNat = 43 || b.toNat = 45 || b.toNat = 46

def authorityMark : Bytes := [58, slash, slash]

-- What stands behind the scheme and the authority. A text without a scheme starts with its authority.
def pathOf (s : Bytes) : Bytes :=
  let rest := s.dropWhile schemeByte
  if authorityMark <+: rest then (rest.drop 3).dropWhile (· ≠ slash) else s.dropWhile (· ≠ slash)

def segments (path : Bytes) : List Bytes := (path.splitOn slash).tail

def enter (dirs : List Bytes) (s : Bytes) : List Bytes :=
  if s = dot then dirs else if s = dotdot then dirs.dropLast else dirs ++ [s]

def walk (dirs segs : List Bytes) : List Bytes := segs.foldl enter dirs

def resolve (segs : List Bytes) : List Bytes :=
  if segs.getLast? = some dot ∨ segs.getLast? = some dotdot then walk [] segs ++ [[]] else walk [] segs

def hierarchy (s : Bytes) : Bytes := before question (before hash s)

def parse (s : Bytes) : Target where
  path := (resolve (segments (pathOf (hierarchy s)))).map Percent.decode
  query := behind question (before hash s)
  fragment := behind hash s

def dirs (s : Bytes) : List Bytes := (walk [] (segments (pathOf (hierarchy s)))).map Percent.decode

def stops (b : UInt8) : Bool := decide (b = question) || decide (b = hash)

theorem hierarchy_eq (s : Bytes) : hierarchy s = s.takeWhile fun b => !stops b := by
  rw [hierarchy, before, before, List.takeWhile_takeWhile]
  congr 1
  funext b
  by_cases hq : b = question <;> by_cases hh : b = hash <;> simp [stops, hq, hh]

theorem behind_eq_nil {c : UInt8} {s : Bytes} (h : c ∉ s) : behind c s = [] := by
  have hall : ∀ b ∈ s, decide (b ≠ c) = true := fun b hb => decide_eq_true (by rintro rfl; exact h hb)
  rw [behind, List.dropWhile_eq_nil_iff.mpr hall]
  rfl

theorem dropWhile_append_cons {p : UInt8 → Bool} {c : UInt8} (h : p c = false) (s t : Bytes) :
    (s ++ c :: t).dropWhile p = s.dropWhile p ++ c :: t := by
  induction s with
  | nil => rw [List.nil_append, List.dropWhile_cons, h, List.dropWhile_nil]; rfl
  | cons b s ih =>
      rw [List.cons_append, List.dropWhile_cons, List.dropWhile_cons]
      split
      · exact ih
      · rfl

theorem behind_append_cons_ne_nil (c b : UInt8) (h : b ≠ c) {s : Bytes} (hc : c ∈ s) (t : Bytes) :
    behind c (s ++ b :: t) ≠ [] := by
  obtain ⟨u, v, rfl, hu⟩ := List.eq_append_cons_of_mem hc
  have hall : ∀ x ∈ u, decide (x ≠ c) = true := fun x hx => decide_eq_true (by rintro rfl; exact hu hx)
  rw [behind, List.append_assoc, List.cons_append, List.dropWhile_append_of_pos hall]
  simp

section Path

variable {b t : Bytes}

theorem authorityMark_append (hb : b.getLast? ≠ some slash) (ht : t.head? ≠ some slash) :
    authorityMark <+: b ++ slash :: t ↔ authorityMark <+: b := by
  match b with
  | [] => simp [authorityMark, slash]
  | [_] =>
      have hnot : ¬[slash] <+: t := by
        rintro ⟨u, rfl⟩
        exact ht rfl
      simp [authorityMark, List.cons_prefix_cons, hnot]
  | [_, y] =>
      have hy : slash ≠ y := fun h => hb (by rw [← h]; rfl)
      simp [authorityMark, List.cons_prefix_cons, hy]
  | _ :: _ :: _ :: _ => simp [authorityMark]

theorem getLast?_dropWhile {p : UInt8 → Bool} (hb : b.getLast? ≠ some slash) :
    (b.dropWhile p).getLast? ≠ some slash := by
  intro h
  obtain ⟨u, hu⟩ := List.dropWhile_suffix (l := b) p
  rw [← hu, List.getLast?_append, h] at hb
  exact hb rfl

theorem pathOf_append (hb : b.getLast? ≠ some slash) (ht : t.head? ≠ some slash) :
    pathOf (b ++ slash :: t) = pathOf b ++ slash :: t := by
  have hscheme : schemeByte slash = false := by decide
  have hslash : decide (slash ≠ slash) = false := by decide
  simp only [pathOf, dropWhile_append_cons hscheme, authorityMark_append (getLast?_dropWhile hb) ht]
  split
  · rename_i hmark
    have hlong : 3 ≤ (b.dropWhile schemeByte).length := hmark.length_le
    rw [List.drop_append_of_le_length hlong]
    exact dropWhile_append_cons hslash _ _
  · exact dropWhile_append_cons hslash _ _

theorem segments_append (p t : Bytes) : segments (p ++ slash :: t) = segments p ++ t.splitOn slash := by
  rw [segments, segments, List.splitOn_append_cons_self, List.tail_append_of_ne_nil (List.splitOn_ne_nil _ _)]

end Path

theorem flatten_splitOn (c : UInt8) (s : Bytes) : (s.splitOn c).flatten = s.filter (· ≠ c) := by
  induction s with
  | nil => rfl
  | cons b s ih =>
      rw [List.splitOn_cons_eq_if_modifyHead]
      by_cases hb : b = c
      · simp [hb, ih]
      · obtain ⟨x, xs, hx⟩ := List.exists_cons_of_ne_nil (List.splitOn_ne_nil c s)
        rw [hx] at ih ⊢
        rw [List.filter_cons_of_pos (by exact decide_eq_true hb), ← ih, beq_eq_false_iff_ne.mpr hb]
        rfl

theorem length_le_of_mem_splitOn {c : UInt8} {s x : Bytes} (h : x ∈ s.splitOn c) : x.length ≤ s.length := by
  have hsub := (List.sublist_flatten_of_mem h).length_le
  rw [flatten_splitOn] at hsub
  exact hsub.trans (List.length_filter_le _ _)

theorem length_lt_of_mem_splitOn {c : UInt8} {s x : Bytes} (hc : c ∈ s) (h : x ∈ s.splitOn c) :
    x.length < s.length := by
  have hsub := (List.sublist_flatten_of_mem h).length_le
  rw [flatten_splitOn] at hsub
  exact hsub.trans_lt (List.length_filter_lt_length_iff_exists.mpr ⟨c, hc, by simp⟩)

section Walk

theorem walk_append (dirs segs more : List Bytes) : walk dirs (segs ++ more) = walk (walk dirs segs) more :=
  List.foldl_append

theorem walk_of_ne_dots {segs : List Bytes} (h : ∀ s ∈ segs, s ≠ dot ∧ s ≠ dotdot) (dirs : List Bytes) :
    walk dirs segs = dirs ++ segs := by
  induction segs generalizing dirs with
  | nil => exact (List.append_nil _).symm
  | cons s segs ih =>
      obtain ⟨hdot, hdotdot⟩ := h s List.mem_cons_self
      have henter : enter dirs s = dirs ++ [s] := by rw [enter, if_neg hdot, if_neg hdotdot]
      rw [walk, List.foldl_cons, henter]
      exact (ih (fun s hs => h s (List.mem_cons_of_mem _ hs)) _).trans (List.append_assoc ..)

variable {P : Bytes → Prop} {n : Nat}

theorem mem_drop_enter {dirs : List Bytes} {s : Bytes} (hd : ∀ x ∈ dirs.drop n, P x)
    (hs : s ≠ dot → s ≠ dotdot → P s) : ∀ x ∈ (enter dirs s).drop n, P x := by
  intro x hx
  rw [enter] at hx
  split at hx
  · exact hd x hx
  · split at hx
    · exact hd x ((List.Sublist.drop (List.dropLast_sublist dirs) n).subset hx)
    · rename_i hdot hdotdot
      rw [List.drop_append] at hx
      rcases List.mem_append.mp hx with hx | hx
      · exact hd x hx
      · rw [List.mem_singleton.mp (List.mem_of_mem_drop hx)]
        exact hs hdot hdotdot

theorem mem_drop_walk {dirs segs : List Bytes} (hd : ∀ x ∈ dirs.drop n, P x)
    (hs : ∀ s ∈ segs, s ≠ dot → s ≠ dotdot → P s) : ∀ x ∈ (walk dirs segs).drop n, P x := by
  induction segs generalizing dirs with
  | nil => exact hd
  | cons s segs ih =>
      exact ih (mem_drop_enter hd (hs s List.mem_cons_self)) fun s h => hs s (List.mem_cons_of_mem _ h)

theorem resolve_eq (segs : List Bytes) : resolve segs = walk [] segs ∨ resolve segs = walk [] segs ++ [[]] := by
  rw [resolve]
  split
  · exact .inr rfl
  · exact .inl rfl

theorem length_resolve_le (segs : List Bytes) : (resolve segs).length ≤ (walk [] segs).length + 1 := by
  rcases resolve_eq segs with h | h <;> rw [h] <;> simp

theorem mem_drop_resolve {segs more : List Bytes} (hnil : P []) (hd : ∀ x ∈ (walk [] segs).drop n, P x)
    (hs : ∀ s ∈ more, s ≠ dot → s ≠ dotdot → P s) : ∀ x ∈ (resolve (segs ++ more)).drop n, P x := by
  have hwalk : ∀ x ∈ (walk [] (segs ++ more)).drop n, P x := by
    rw [walk_append]
    exact mem_drop_walk hd hs
  rcases resolve_eq (segs ++ more) with h | h
  · rwa [h]
  · intro x hx
    rw [h, List.drop_append] at hx
    rcases List.mem_append.mp hx with hx | hx
    · exact hwalk x hx
    · rw [List.mem_singleton.mp (List.mem_of_mem_drop hx)]
      exact hnil

theorem resolve_append_of_ne_dots {segs more : List Bytes} (hmore : more ≠ [])
    (h : ∀ s ∈ more, s ≠ dot ∧ s ≠ dotdot) : resolve (segs ++ more) = walk [] segs ++ more := by
  have hlast : (segs ++ more).getLast? = some (more.getLast hmore) := by
    rw [List.getLast?_append_of_ne_nil _ hmore, List.getLast?_eq_getLast_of_ne_nil hmore]
  obtain ⟨hdot, hdotdot⟩ := h _ (List.getLast_mem hmore)
  rw [resolve, if_neg, walk_append, walk_of_ne_dots h]
  rw [hlast, Option.some.injEq, Option.some.injEq]
  exact not_or.mpr ⟨hdot, hdotdot⟩

end Walk

end Url
