import Mathlib.Data.List.Forall2

namespace ReadLoop

variable {C M A B : Type}

-- One pass of a loop: what it does for a message, and what it goes on with unless it ends.
abbrev Pass (C M A : Type) := C → M → Option C × List A

def run (pass : Pass C M A) : C → List M → List (List A) × Option C
  | c, [] => ([], some c)
  | c, m :: ms =>
      match pass c m with
      | (none, actions) => ([actions], none)
      | (some c, actions) => (actions :: (run pass c ms).1, (run pass c ms).2)

def Along (pass : Pass C M A) (P : C → M → Prop) : C → List M → Prop
  | _, [] => True
  | c, m :: ms => P c m ∧ ∀ c', (pass c m).1 = some c' → Along pass P c' ms

instance decidableAlong {pass : Pass C M A} {P : C → M → Prop} [∀ c m, Decidable (P c m)] :
    (c : C) → (ms : List M) → Decidable (Along pass P c ms)
  | _, [] => isTrue trivial
  | c, m :: ms =>
      have := fun c' => @decidableAlong pass P _ c' ms
      inferInstanceAs (Decidable (P c m ∧ ∀ c' ∈ (pass c m).1, Along pass P c' ms))

structure Alike (R : A → B → Prop) (x : List (List A) × Option C) (y : List (List B) × Option C) : Prop where
  actions : List.Forall₂ (List.Forall₂ R) x.1 y.1
  outcome : x.2 = y.2

def PassAlike (R : A → B → Prop) (p : Pass C M A) (q : Pass C M B) (c : C) (m : M) : Prop :=
  List.Forall₂ R (p c m).2 (q c m).2 ∧ (p c m).1 = (q c m).1

def InStep (p : Pass C M A) (q : Pass C M B) : Prop :=
  ∀ c m c₁ c₂, (p c m).1 = some c₁ → (q c m).1 = some c₂ → c₁ = c₂

section Run

variable {p : Pass C M A} {q : Pass C M B} {R : A → B → Prop} {c c' : C} {m : M} {ms : List M}

theorem run_left (h : (p c m).1 = none) : run p c (m :: ms) = ([(p c m).2], none) := by
  rw [run]
  generalize p c m = out at h ⊢
  obtain ⟨_, actions⟩ := out
  cases h
  rfl

theorem run_on (h : (p c m).1 = some c') : run p c (m :: ms) = ((p c m).2 :: (run p c' ms).1, (run p c' ms).2) := by
  rw [run]
  generalize p c m = out at h ⊢
  obtain ⟨_, actions⟩ := out
  cases h
  rfl

theorem taken_of_ended (h : (run p c ms).2 = none) : (run p c ms).1 ≠ [] := by
  cases ms with
  | nil => cases h
  | cons m ms =>
      cases hout : (p c m).1 with
      | none =>
          rw [run_left hout]
          exact List.cons_ne_nil _ _
      | some c' =>
          rw [run_on hout]
          exact List.cons_ne_nil _ _

theorem alike_cons {actions : List A} {actions' : List B} {xs : List (List A)} {ys : List (List B)} {x y : Option C} :
    Alike R (actions :: xs, x) (actions' :: ys, y) ↔ List.Forall₂ R actions actions' ∧ Alike R (xs, x) (ys, y) :=
  ⟨fun h => ⟨(List.forall₂_cons.mp h.actions).1, (List.forall₂_cons.mp h.actions).2, h.outcome⟩,
    fun h => ⟨.cons h.1 h.2.actions, h.2.outcome⟩⟩

theorem alike_ended {x : List (List A)} {y : List (List B)} : Alike R (x, (none : Option C)) (y, none) ↔
    List.Forall₂ (List.Forall₂ R) x y := ⟨Alike.actions, fun h => ⟨h, rfl⟩⟩

theorem run_alike_iff (hstep : InStep p q) : ∀ {c : C},
    Alike R (run p c ms) (run q c ms) ↔ Along p (PassAlike R p q) c ms := by
  induction ms with
  | nil => exact fun {c} => iff_of_true ⟨.nil, rfl⟩ trivial
  | cons m ms ih =>
      intro c
      rw [Along, PassAlike]
      cases hp : (p c m).1 with
      | none =>
          rw [run_left hp]
          cases hq : (q c m).1 with
          | none => simp [run_left hq, alike_ended]
          | some c₂ =>
              refine iff_of_false (fun h => ?_) (by simp)
              rw [run_on hq, alike_cons] at h
              obtain ⟨-, hnil, hended⟩ := h
              exact taken_of_ended hended.symm (List.forall₂_nil_left_iff.mp hnil)
      | some c₁ =>
          rw [run_on hp]
          cases hq : (q c m).1 with
          | none =>
              refine iff_of_false (fun h => ?_) (by simp)
              rw [run_left hq, alike_cons] at h
              obtain ⟨-, hnil, hended⟩ := h
              exact taken_of_ended hended (List.forall₂_nil_right_iff.mp hnil)
          | some c₂ =>
              obtain rfl := hstep c m c₁ c₂ hp hq
              rw [run_on hq, alike_cons, ih]
              simp

theorem along_congr {P Q : C → M → Prop} (h : ∀ c m, P c m ↔ Q c m) (c : C) (ms : List M) :
    Along p P c ms ↔ Along p Q c ms := by
  obtain rfl : P = Q := funext₂ fun c m => propext (h c m)
  rfl

end Run

end ReadLoop
