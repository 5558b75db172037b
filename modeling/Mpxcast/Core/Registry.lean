import Mathlib.Data.List.AList
import Mathlib.Tactic

/-!
# Registries

Finite maps that keep their entries in order, for loops that visit every entry: a change of the
values under their keys, and the entries as lookups.
-/

namespace Registry

variable {κ α : Type*}

/-- Changes every value, under the same keys. -/
def mapVals (f : κ → α → α) (r : AList fun _ : κ => α) : AList fun _ : κ => α where
  entries := r.entries.map fun e => ⟨e.1, f e.1 e.2⟩
  nodupKeys := by
    have hkeys : (r.entries.map fun e => (⟨e.1, f e.1 e.2⟩ : Sigma fun _ : κ => α)).keys
        = r.entries.keys := by
      simp [List.keys]
    rw [List.NodupKeys, hkeys]
    exact r.nodupKeys

@[simp] lemma keys_mapVals (f : κ → α → α) (r : AList fun _ : κ => α) :
    (mapVals f r).keys = r.keys := by
  simp [AList.keys, List.keys, mapVals]

variable [DecidableEq κ]

@[simp] lemma lookup_mapVals (f : κ → α → α) (r : AList fun _ : κ => α) (k : κ) :
    (mapVals f r).lookup k = (r.lookup k).map (f k) := by
  cases hlookup : r.lookup k with
  | none =>
    have hnone : k ∉ mapVals f r := by
      rw [AList.mem_keys, keys_mapVals]
      exact AList.mem_keys.not.mp (AList.lookup_eq_none.mp hlookup)
    exact AList.lookup_eq_none.mpr hnone
  | some v =>
    have hmem := AList.mem_lookup_iff.mp hlookup
    exact AList.mem_lookup_iff.mpr (List.mem_map.mpr ⟨⟨k, v⟩, hmem, rfl⟩)

/-- Some entry meets a condition. -/
lemma any_entries_iff (r : AList fun _ : κ => α) (p : α → Bool) :
    (r.entries.any fun e => p e.2) = true ↔ ∃ k v, r.lookup k = some v ∧ p v = true := by
  rw [List.any_eq_true]
  constructor
  · rintro ⟨⟨k, v⟩, hmem, hp⟩
    exact ⟨k, v, AList.mem_lookup_iff.mpr hmem, hp⟩
  · rintro ⟨k, v, hlookup, hp⟩
    exact ⟨⟨k, v⟩, AList.mem_lookup_iff.mp hlookup, hp⟩

end Registry
