import Mathlib.Tactic

namespace Runs

-- Handles one message after the other: what it owes for a message is done before the next one is taken.
structure Worker (M O : Type) where
  taken : List M
  pending : List O
  done : List O

namespace Worker

variable {M O : Type}

def fresh : Worker M O := ⟨[], [], []⟩

def take (w : Worker M O) (m : M) (owed : List O) : Worker M O := { w with taken := w.taken ++ [m], pending := owed }

def finish (w : Worker M O) (o : O) (rest : List O) : Worker M O := { w with pending := rest, done := w.done ++ [o] }

def Keeps (react : M → List O) (w : Worker M O) : Prop := w.done ++ w.pending = w.taken.flatMap react

variable {react : M → List O} {w : Worker M O}

theorem keeps_fresh : (fresh : Worker M O).Keeps react := rfl

theorem Keeps.take (h : w.Keeps react) (hidle : w.pending = []) (m : M) : (w.take m (react m)).Keeps react := by
  have hdone : w.done = w.taken.flatMap react := by
    rw [← h, hidle, List.append_nil]
  change w.done ++ react m = (w.taken ++ [m]).flatMap react
  rw [hdone, List.flatMap_append, List.flatMap_singleton]

theorem Keeps.finish (h : w.Keeps react) {o : O} {rest : List O} (hpending : w.pending = o :: rest) :
    (w.finish o rest).Keeps react := by
  change w.done ++ [o] ++ rest = w.taken.flatMap react
  rw [← h, hpending, List.append_assoc, List.singleton_append]

theorem Keeps.filterMap_done {B : Type} {f : O → Option B} {g : M → Option B} (h : w.Keeps react)
    (hidle : w.pending = []) (hreact : ∀ m ∈ w.taken, (react m).filterMap f = (g m).toList) :
    w.done.filterMap f = w.taken.filterMap g := by
  have hdone : w.done = w.taken.flatMap react := by
    rw [← h, hidle, List.append_nil]
  rw [hdone, List.filterMap_flatMap, List.filterMap_eq_flatMap_toList]
  exact List.flatMap_congr hreact

end Worker
end Runs
