import Mathlib.Tactic

namespace Overrides

variable {S K V E : Type} [DecidableEq K] (key : S → K) (read : S → Except E (Option V))

-- One setting after the other: what it says about its key replaces what was said before.
def apply : List S → (K → V) → Except E (K → V)
  | [], c => .ok c
  | s :: settings, c => do
      let found ← read s
      apply settings (found.elim c (Function.update c (key s)))

def said (settings : List S) (k : K) : Option V :=
  (settings.find? (key · = k)).bind fun s => (read s).toOption.join

def Readable (settings : List S) : Prop := ∀ s ∈ settings, ∃ found, read s = .ok found

variable {key read} {s : S} {settings : List S} {k : K} {c c' : K → V} {found : Option V}

theorem said_self (hread : read s = .ok found) : said key read (s :: settings) (key s) = found := by
  simp [said, hread, Except.toOption]

theorem said_of_ne (hk : key s ≠ k) : said key read (s :: settings) k = said key read settings k := by
  simp [said, hk]

theorem said_eq_none (hk : k ∉ settings.map key) : said key read settings k = none := by
  have hnone : settings.find? (key · = k) = none := by
    refine List.find?_eq_none.mpr fun s hs heq => hk ?_
    exact of_decide_eq_true heq ▸ List.mem_map_of_mem hs
  rw [said, hnone, Option.bind_none]

theorem apply_cons (hread : read s = .ok found) : apply key read (s :: settings) c =
    apply key read settings (found.elim c (Function.update c (key s))) := by
  rw [apply, hread]
  rfl

theorem getD_cons (hkey : key s ∉ settings.map key) (hread : read s = .ok found) (k : K) :
    (said key read settings k).getD (found.elim c (Function.update c (key s)) k) =
      (said key read (s :: settings) k).getD (c k) := by
  by_cases hk : key s = k
  · subst hk
    rw [said_self hread, said_eq_none hkey, Option.getD_none]
    cases found with
    | none => rfl
    | some v => exact Function.update_self ..
  · rw [said_of_ne hk]
    cases found with
    | none => rfl
    | some v => rw [Option.elim_some, Function.update_of_ne (Ne.symm hk)]

theorem apply_ok_iff (hkeys : (settings.map key).Nodup) : apply key read settings c = .ok c' ↔
    Readable read settings ∧ ∀ k, c' k = (said key read settings k).getD (c k) := by
  induction settings generalizing c with
  | nil =>
      constructor
      · intro h
        cases h
        exact ⟨nofun, fun _ => rfl⟩
      · exact fun h => congrArg Except.ok (funext fun k => (h.2 k).symm)
  | cons s settings ih =>
      obtain ⟨hkey, hrest⟩ := List.nodup_cons.mp hkeys
      cases hread : read s with
      | error e =>
          refine iff_of_false ?_ fun h => ?_
          · rw [apply, hread]
            nofun
          · obtain ⟨found, hfound⟩ := h.1 s List.mem_cons_self
            rw [hread] at hfound
            cases hfound
      | ok found =>
          rw [apply_cons hread, ih hrest, Readable, Readable, List.forall_mem_cons]
          refine and_congr ⟨fun h => ⟨⟨found, hread⟩, h⟩, And.right⟩ (forall_congr' fun k => ?_)
          rw [getD_cons hkey hread]

end Overrides
