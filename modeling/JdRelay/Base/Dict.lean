import Mathlib.Tactic
import Mathlib.Data.Finmap

abbrev Dict (K V : Type) := AList (fun _ : K => V)

namespace Dict

variable {K V : Type}

def filter (p : K → V → Bool) (d : Dict K V) : Dict K V :=
  ⟨d.entries.filter fun e => p e.1 e.2, d.nodupKeys.sublist List.filter_sublist⟩

def size (d : Dict K V) : Nat := d.entries.length

variable [DecidableEq K]

theorem lookup_filter (p : K → V → Bool) (d : Dict K V) (k : K) :
    (d.filter p).lookup k = (d.lookup k).filter (p k) := by
  ext v
  rw [Option.filter_eq_some_iff, ← Option.mem_def, ← Option.mem_def, AList.mem_lookup_iff,
    AList.mem_lookup_iff, filter, List.mem_filter]

theorem lookup_insert_if (d : Dict K V) (k k' : K) (v : V) :
    (d.insert k v).lookup k' = if k' = k then some v else d.lookup k' := by
  split
  · subst k'; exact d.lookup_insert
  · exact AList.lookup_insert_ne ‹_›

theorem lookup_erase_if (d : Dict K V) (k k' : K) :
    (d.erase k).lookup k' = if k' = k then none else d.lookup k' := by
  split
  · subst k'; exact AList.lookup_erase k d
  · exact AList.lookup_erase_ne ‹_›

theorem size_insert {d : Dict K V} {k : K} (hk : k ∉ d) (v : V) : Dict.size (d.insert k v) = d.size + 1 := by
  rw [AList.insert_of_notMem hk]
  rfl

theorem size_congr {d d' : Dict K V} (h : ∀ k, d.lookup k = d'.lookup k) : d.size = d'.size := by
  have hsame : AList.toFinmap d = AList.toFinmap d' := Finmap.ext_lookup h
  exact (AList.toFinmap_eq.mp hsame).length_eq

end Dict
