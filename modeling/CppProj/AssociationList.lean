import Mathlib.Data.List.AList
import Mathlib.Tactic.Common

/-!
# Maps kept as association lists

`AList` stands for the maps of the sources.  The lemmas here are about the
size of a map, and about loops over all of its entries.
-/

universe u v

namespace AList

variable {α : Type u} {β : α → Type v}

theorem length_keys (map : AList β) : map.keys.length = map.entries.length :=
  List.length_map ..

variable [DecidableEq α]

theorem length_insert_of_mem {map : AList β} {key : α} (hmem : key ∈ map)
    (value : β key) : (map.insert key value).entries.length = map.entries.length := by
  have hkey : key ∈ map.keys := mem_keys.mp hmem
  have hpositive : 0 < map.keys.length := List.length_pos_of_mem hkey
  rw [← length_keys, ← length_keys, keys_insert, List.length_cons,
    List.length_erase_of_mem hkey]
  omega

theorem length_insert_of_notMem {map : AList β} {key : α} (hnew : key ∉ map)
    (value : β key) :
    (map.insert key value).entries.length = map.entries.length + 1 := by
  rw [entries_insert_of_notMem hnew]
  rfl

theorem mem_of_lookup_eq_some {map : AList β} {key : α} {value : β key}
    (hlookup : map.lookup key = some value) : key ∈ map :=
  lookup_isSome.mp (by rw [hlookup]; rfl)

theorem lookup_erase_eq_some_iff {map : AList β} {key other : α} {value : β other} :
    (map.erase key).lookup other = some value ↔
      other ≠ key ∧ map.lookup other = some value := by
  by_cases heq : other = key
  · subst heq
    simp
  · simp [lookup_erase_ne heq, heq]

theorem erase_of_lookup_eq_none {map : AList β} {key : α}
    (hlookup : map.lookup key = none) : map.erase key = map :=
  AList.ext (List.kerase_of_notMem_keys (lookup_eq_none.mp hlookup))

theorem erase_insert_of_lookup_eq_none {map : AList β} {key : α}
    (hlookup : map.lookup key = none) (value : β key) :
    (map.insert key value).erase key = map := by
  refine Eq.trans (AList.ext ?_) (erase_of_lookup_eq_none hlookup)
  show List.kerase key (map.insert key value).entries = List.kerase key map.entries
  rw [entries_insert]
  exact List.kerase_cons_eq rfl

theorem perm_of_lookup_eq_some {map : AList β} {key : α} {value : β key}
    (hlookup : map.lookup key = some value) :
    map.entries.Perm (⟨key, value⟩ :: (map.erase key).entries) := by
  have hmem : key ∈ map.entries.keys := mem_of_lookup_eq_some hlookup
  obtain ⟨other, before, after, _, hsplit, herase⟩ := List.exists_of_kerase hmem
  have hother : map.lookup key = some other :=
    mem_lookup_iff.mpr (by rw [hsplit]; simp)
  rw [hlookup] at hother
  cases hother
  show map.entries.Perm (⟨key, value⟩ :: map.entries.kerase key)
  rw [herase, hsplit]
  exact List.perm_middle

/-- A property of all the entries is a property of all the successful
look-ups. -/
theorem forall_entries_iff {map : AList β} {property : ∀ key, β key → Prop} :
    (∀ entry ∈ map.entries, property entry.1 entry.2) ↔
      ∀ key value, map.lookup key = some value → property key value := by
  constructor
  · intro hentries key value hlookup
    exact hentries ⟨key, value⟩ (mem_lookup_iff.mp hlookup)
  · rintro hlookups ⟨key, value⟩ hmem
    exact hlookups key value (mem_lookup_iff.mpr hmem)

end AList
