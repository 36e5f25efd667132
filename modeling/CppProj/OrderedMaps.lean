import Mathlib.Order.Defs.Unbundled
import Mathlib.Data.List.Basic
import Mathlib.Tactic.Common

/-!
# Maps ordered by a comparison of their keys

`std::map` keeps its entries sorted by a comparison that the program supplies, and takes
two keys for the same when neither is less than the other.  The comparison has to be a
strict weak order.  Inserting leaves an entry alone that is already there.
-/

universe u v

namespace OrderedMaps

variable {Key : Type u} {Value : Type v}

/-- Keys that the comparison does not tell apart. -/
def Equivalent (less : Key → Key → Prop) (left right : Key) : Prop :=
  ¬ less left right ∧ ¬ less right left

instance (less : Key → Key → Prop) [DecidableRel less] (left right : Key) :
    Decidable (Equivalent less left right) :=
  inferInstanceAs (Decidable (_ ∧ _))

def insertEntry (less : Key → Key → Prop) [DecidableRel less] (key : Key) (value : Value) :
    List (Key × Value) → List (Key × Value)
  | [] => [(key, value)]
  | entry :: rest =>
      if less entry.1 key then entry :: insertEntry less key value rest
      else if less key entry.1 then (key, value) :: entry :: rest
      else entry :: rest

section Entries

variable {less : Key → Key → Prop} [DecidableRel less] {key : Key} {value : Value}
  {entries : List (Key × Value)}

theorem mem_or_eq_of_mem_insertEntry {entry : Key × Value}
    (hmem : entry ∈ insertEntry less key value entries) :
    entry = (key, value) ∨ entry ∈ entries := by
  induction entries with
  | nil => exact Or.inl (List.mem_singleton.mp hmem)
  | cons first rest ih =>
      rw [insertEntry] at hmem
      split_ifs at hmem with hless hgreater
      · rcases List.mem_cons.mp hmem with rfl | hrest
        · exact Or.inr List.mem_cons_self
        · exact (ih hrest).imp_right (List.mem_cons_of_mem first)
      · exact List.mem_cons.mp hmem
      · exact Or.inr hmem

theorem mem_insertEntry_of_mem {entry : Key × Value} (hmem : entry ∈ entries) :
    entry ∈ insertEntry less key value entries := by
  induction entries with
  | nil => exact absurd hmem List.not_mem_nil
  | cons first rest ih =>
      rw [insertEntry]
      split_ifs with hless hgreater
      · rcases List.mem_cons.mp hmem with rfl | hrest
        · exact List.mem_cons_self
        · exact List.mem_cons_of_mem first (ih hrest)
      · exact List.mem_cons_of_mem _ hmem
      · exact hmem

/-- The new entry is missing only where a key equivalent to its own was there before. -/
theorem mem_insertEntry_or_exists (less : Key → Key → Prop) [DecidableRel less] (key : Key)
    (value : Value) (entries : List (Key × Value)) :
    (key, value) ∈ insertEntry less key value entries ∨
      ∃ entry ∈ entries, Equivalent less entry.1 key := by
  induction entries with
  | nil => exact Or.inl List.mem_cons_self
  | cons first rest ih =>
      rw [insertEntry]
      split_ifs with hless hgreater
      · rcases ih with hmem | ⟨entry, hentry, hequivalent⟩
        · exact Or.inl (List.mem_cons_of_mem first hmem)
        · exact Or.inr ⟨entry, List.mem_cons_of_mem first hentry, hequivalent⟩
      · exact Or.inl List.mem_cons_self
      · exact Or.inr ⟨first, List.mem_cons_self, hless, hgreater⟩

variable [IsTrans Key less]

theorem insertEntry_sorted
    (hsorted : entries.Pairwise fun left right => less left.1 right.1) :
    (insertEntry less key value entries).Pairwise fun left right => less left.1 right.1 := by
  induction entries with
  | nil => exact List.pairwise_singleton _ _
  | cons first rest ih =>
      obtain ⟨hfirst, hrest⟩ := List.pairwise_cons.mp hsorted
      rw [insertEntry]
      split_ifs with hless hgreater
      · refine List.pairwise_cons.mpr ⟨?_, ih hrest⟩
        intro entry hentry
        rcases mem_or_eq_of_mem_insertEntry hentry with rfl | hmem
        · exact hless
        · exact hfirst entry hmem
      · refine List.pairwise_cons.mpr ⟨?_, hsorted⟩
        intro entry hentry
        rcases List.mem_cons.mp hentry with rfl | hmem
        · exact hgreater
        · exact IsTrans.trans _ _ _ hgreater (hfirst entry hmem)
      · exact hsorted

theorem insertEntry_of_equivalent
    (hsorted : entries.Pairwise fun left right => less left.1 right.1)
    {entry : Key × Value} (hentry : entry ∈ entries) (hequivalent : Equivalent less entry.1 key) :
    insertEntry less key value entries = entries := by
  induction entries with
  | nil => exact absurd hentry List.not_mem_nil
  | cons first rest ih =>
      obtain ⟨hfirst, hrest⟩ := List.pairwise_cons.mp hsorted
      rw [insertEntry]
      rcases List.mem_cons.mp hentry with rfl | hmem
      · rw [if_neg hequivalent.1, if_neg hequivalent.2]
      · split_ifs with hless hgreater
        · rw [ih hrest hmem]
        · exact absurd (IsTrans.trans _ _ _ hgreater (hfirst entry hmem)) hequivalent.2
        · rfl

end Entries

theorem eq_of_equivalent {less : Key → Key → Prop} [IsStrictWeakOrder Key less]
    {entries : List (Key × Value)}
    (hsorted : entries.Pairwise fun left right => less left.1 right.1)
    {entry other : Key × Value} {key : Key} (hentry : entry ∈ entries) (hother : other ∈ entries)
    (hleft : Equivalent less entry.1 key) (hright : Equivalent less other.1 key) :
    entry = other := by
  have hequivalent : Equivalent less entry.1 other.1 :=
    IsStrictWeakOrder.incomp_trans _ _ _ hleft hright.symm
  induction entries with
  | nil => exact absurd hentry List.not_mem_nil
  | cons first rest ih =>
      obtain ⟨hfirst, hrest⟩ := List.pairwise_cons.mp hsorted
      rcases List.mem_cons.mp hentry with rfl | hentryRest
      · rcases List.mem_cons.mp hother with rfl | hotherRest
        · rfl
        · exact absurd (hfirst other hotherRest) hequivalent.1
      · rcases List.mem_cons.mp hother with rfl | hotherRest
        · exact absurd (hfirst entry hentryRest) hequivalent.2
        · exact ih hrest hentryRest hotherRest

/-- The entries of a map, from the least key to the greatest. -/
structure OrderedMap (less : Key → Key → Prop) (Value : Type v) where
  entries : List (Key × Value)
  sorted : entries.Pairwise fun left right => less left.1 right.1

namespace OrderedMap

variable {less : Key → Key → Prop}

def empty : OrderedMap less Value := ⟨[], List.Pairwise.nil⟩

variable [DecidableRel less]

def find (map : OrderedMap less Value) (key : Key) : Option (Key × Value) :=
  map.entries.find? fun entry => Equivalent less entry.1 key

variable {map : OrderedMap less Value} {key : Key} {entry : Key × Value}

theorem of_find_eq_some (hfind : map.find key = some entry) :
    entry ∈ map.entries ∧ Equivalent less entry.1 key := by
  rw [find] at hfind
  have hequivalent := List.find?_some hfind
  exact ⟨List.mem_of_find?_eq_some hfind, of_decide_eq_true hequivalent⟩

variable [IsStrictWeakOrder Key less]

def insert (map : OrderedMap less Value) (key : Key) (value : Value) : OrderedMap less Value :=
  ⟨insertEntry less key value map.entries, insertEntry_sorted map.sorted⟩

variable {value : Value}

theorem find_eq_some_iff :
    map.find key = some entry ↔ entry ∈ map.entries ∧ Equivalent less entry.1 key := by
  refine ⟨of_find_eq_some, ?_⟩
  rintro ⟨hentry, hequivalent⟩
  cases hfind : map.find key with
  | none =>
      rw [find, List.find?_eq_none] at hfind
      exact absurd (decide_eq_true hequivalent) (hfind entry hentry)
  | some other =>
      obtain ⟨hother, hequivalentOther⟩ := of_find_eq_some hfind
      rw [eq_of_equivalent map.sorted hother hentry hequivalentOther hequivalent]

/-- An entry stays, whatever is inserted afterwards. -/
theorem mem_insert_of_mem (hentry : entry ∈ map.entries) :
    entry ∈ (map.insert key value).entries :=
  mem_insertEntry_of_mem hentry

theorem entries_insert : (map.insert key value).entries = insertEntry less key value map.entries :=
  rfl

theorem mem_insert_iff :
    entry ∈ (map.insert key value).entries ↔
      entry ∈ map.entries ∨
        (entry = (key, value) ∧ ∀ other ∈ map.entries, ¬ Equivalent less other.1 key) := by
  constructor
  · intro hentry
    by_cases hexists : ∃ other ∈ map.entries, Equivalent less other.1 key
    · obtain ⟨other, hother, hequivalent⟩ := hexists
      rw [entries_insert, insertEntry_of_equivalent map.sorted hother hequivalent] at hentry
      exact Or.inl hentry
    · push Not at hexists
      rcases mem_or_eq_of_mem_insertEntry hentry with heq | hmem
      · exact Or.inr ⟨heq, hexists⟩
      · exact Or.inl hmem
  · rintro (hmem | ⟨rfl, hnone⟩)
    · exact mem_insert_of_mem hmem
    · rcases mem_insertEntry_or_exists less key value map.entries with
        hmem | ⟨other, hother, hequivalent⟩
      · exact hmem
      · exact absurd hequivalent (hnone other hother)

end OrderedMap

end OrderedMaps
