import Mathlib.Tactic

namespace Runs

-- Takes one input at a time: its result and the state it leaves behind.
structure Receiver (S I R : Type) where
  receive : S → I → R × S
  accepts : R → Bool

namespace Receiver

variable {S I R : Type} (r : Receiver S I R)

def after : S → List I → S
  | s, [] => s
  | s, i :: inputs => after (r.receive s i).2 inputs

def results : S → List I → List R
  | _, [] => []
  | s, i :: inputs => (r.receive s i).1 :: results (r.receive s i).2 inputs

def Rejects (s : S) (inputs : List I) : Prop := ∀ result ∈ r.results s inputs, r.accepts result = false

def Inert : Prop := ∀ s i, r.accepts (r.receive s i).1 = false → (r.receive s i).2 = s

instance (s : S) (inputs : List I) : Decidable (r.Rejects s inputs) :=
  inferInstanceAs (Decidable (∀ result ∈ _, _))

theorem results_append (s : S) (before later : List I) :
    r.results s (before ++ later) = r.results s before ++ r.results (r.after s before) later := by
  induction before generalizing s with
  | nil => rfl
  | cons i before ih => rw [List.cons_append, results, results, ih, after, List.cons_append]

variable {r}

theorem Inert.after_eq (hinert : r.Inert) {s : S} {inputs : List I} (h : r.Rejects s inputs) :
    r.after s inputs = s := by
  induction inputs with
  | nil => rfl
  | cons i inputs ih =>
      obtain ⟨hfirst, hrest⟩ := List.forall_mem_cons.mp h
      rw [hinert s i hfirst] at hrest
      rw [after, hinert s i hfirst]
      exact ih hrest

theorem Inert.results_eq (hinert : r.Inert) {s : S} {before : List I} (h : r.Rejects s before) (later : List I) :
    r.results s (before ++ later) = r.results s before ++ r.results s later := by
  rw [results_append, hinert.after_eq h]

structure Alongside {T : Type} (r : Receiver S I R) (q : Receiver T I R) (near : S → T → Prop) : Prop where
  result : ∀ {s t}, near s t → ∀ i, (r.receive s i).1 = (q.receive t i).1
  near : ∀ {s t}, near s t → ∀ i, near (r.receive s i).2 (q.receive t i).2

theorem Alongside.results_eq {T : Type} {q : Receiver T I R} {near : S → T → Prop} (h : Alongside r q near) {s : S} {t : T}
    (hst : near s t) (inputs : List I) : r.results s inputs = q.results t inputs := by
  induction inputs generalizing s t with
  | nil => rfl
  | cons i inputs ih => rw [results, results, h.result hst i, ih (h.near hst i)]

end Receiver
end Runs
