import Mathlib.Data.List.Nodup
import Mathlib.Data.List.Perm.Basic
import Mathlib.Tactic.Common

/-!
# Lists that are changed at one position

The threads and messages of the models are lists, and a step changes, adds or
removes one element.  These lemmas say what the look-ups, the members and the
counts of the changed list are.
-/

universe u v

namespace ListUpdate

variable {α : Type u} {β : Type v}

theorem getElem?_append_of_eq_some {items : List α} {index : ℕ} {item : α}
    (hget : items[index]? = some item) (more : List α) :
    (items ++ more)[index]? = some item := by
  rw [List.getElem?_append_left (List.getElem?_eq_some_iff.mp hget |>.1)]
  exact hget

theorem getElem?_append_singleton_cases {items : List α} {position : ℕ} {item found : α}
    (hfound : (items ++ [item])[position]? = some found) :
    items[position]? = some found ∨ position = items.length ∧ found = item := by
  rw [List.getElem?_append] at hfound
  split_ifs at hfound with hlt
  · exact Or.inl hfound
  · rw [List.getElem?_singleton] at hfound
    split_ifs at hfound with hlast
    exact Or.inr ⟨by omega, (Option.some.inj hfound).symm⟩

theorem getElem?_set_self {items : List α} {position : ℕ} {old : α}
    (hget : items[position]? = some old) (item : α) :
    (items.set position item)[position]? = some item := by
  obtain ⟨hlt, _⟩ := List.getElem?_eq_some_iff.mp hget
  simp [hlt]

theorem getElem?_set_of_ne {items : List α} {position other : ℕ} (hne : position ≠ other)
    (item : α) : (items.set position item)[other]? = items[other]? := by
  rw [List.getElem?_set, if_neg hne]

theorem getElem?_set_cases {items : List α} {position other : ℕ} {item found : α}
    (hfound : (items.set position item)[other]? = some found) :
    position = other ∧ found = item ∨ position ≠ other ∧ items[other]? = some found := by
  rw [List.getElem?_set] at hfound
  split_ifs at hfound with heq hlt
  · cases hfound
    exact Or.inl ⟨heq, rfl⟩
  · exact Or.inr ⟨heq, hfound⟩

theorem getElem?_modify_cases {items : List α} {position other : ℕ} {change : α → α}
    {found : α} (hfound : (items.modify position change)[other]? = some found) :
    ∃ old, items[other]? = some old ∧
      (position = other ∧ found = change old ∨ position ≠ other ∧ found = old) := by
  by_cases heq : position = other
  · subst heq
    rw [List.getElem?_modify_eq] at hfound
    obtain ⟨old, hold, rfl⟩ := Option.map_eq_some_iff.mp hfound
    exact ⟨old, hold, .inl ⟨rfl, rfl⟩⟩
  · rw [List.getElem?_modify_ne _ _ heq] at hfound
    exact ⟨found, hfound, .inr ⟨heq, rfl⟩⟩

theorem modify_append_singleton (before : List α) (last : α) (change : α → α) :
    (before ++ [last]).modify before.length change = before ++ [change last] := by
  induction before with
  | nil => rfl
  | cons first rest ih =>
      rw [List.cons_append, List.length_cons, List.modify_succ_cons, ih, List.cons_append]

/-- A change that a view does not show. -/
theorem map_modify_of_eq {view : α → β} {change : α → α}
    (hview : ∀ item, view (change item) = view item) (items : List α) (position : ℕ) :
    (items.modify position change).map view = items.map view := by
  induction items generalizing position with
  | nil => cases position <;> rfl
  | cons first rest ih =>
      cases position with
      | zero => rw [List.modify_zero_cons, List.map_cons, List.map_cons, hview]
      | succ position => rw [List.modify_succ_cons, List.map_cons, List.map_cons, ih]

theorem getElem?_modify_of_eq_some {items : List α} {position other : ℕ} {item : α}
    (hget : items[other]? = some item) (change : α → α) :
    (items.modify position change)[other]? = some (if position = other then change item
      else item) := by
  by_cases heq : position = other
  · subst heq
    rw [List.getElem?_modify_eq, hget, if_pos rfl]
    rfl
  · rw [List.getElem?_modify_ne _ _ heq, hget, if_neg heq]

theorem map_set_of_eq {f : α → β} {items : List α} {position : ℕ} {old item : α}
    (hget : items[position]? = some old) (heq : f item = f old) :
    (items.set position item).map f = items.map f := by
  refine List.ext_getElem? fun other => ?_
  rw [List.getElem?_map, List.getElem?_map]
  by_cases hne : position = other
  · subst hne
    rw [getElem?_set_self hget, hget, Option.map_some, Option.map_some, heq]
  · rw [getElem?_set_of_ne hne]

theorem eq_or_mem_eraseIdx {items : List α} {position : ℕ} {taken item : α}
    (hget : items[position]? = some taken) (hmem : item ∈ items) :
    item = taken ∨ item ∈ items.eraseIdx position := by
  obtain ⟨other, hother⟩ := List.mem_iff_getElem?.mp hmem
  by_cases heq : other = position
  · subst heq
    rw [hget] at hother
    cases hother
    exact Or.inl rfl
  · exact Or.inr (List.mem_eraseIdx_iff_getElem?.mpr ⟨other, heq, hother⟩)

/-- Where a function tells the elements apart, it tells the element taken out
from those that stay. -/
theorem ne_of_mem_eraseIdx {f : α → β} {items : List α} {position : ℕ} {taken item : α}
    (hdistinct : (items.map f).Nodup) (hget : items[position]? = some taken)
    (hmem : item ∈ items.eraseIdx position) : f item ≠ f taken := by
  obtain ⟨hlt, rfl⟩ := List.getElem?_eq_some_iff.mp hget
  have hperm := (List.getElem_cons_eraseIdx_perm hlt).map f
  have hnodup := hperm.nodup_iff.mpr hdistinct
  rw [List.map_cons, List.nodup_cons] at hnodup
  intro heq
  exact hnodup.1 (heq ▸ List.mem_map_of_mem hmem)

theorem mem_set_of_ne {items : List α} {position : ℕ} {old other : α}
    (hget : items[position]? = some old) (hmem : other ∈ items) (hne : other ≠ old)
    (item : α) : other ∈ items.set position item := by
  obtain ⟨index, hindex⟩ := List.mem_iff_getElem?.mp hmem
  have hposition : position ≠ index := by
    rintro rfl
    rw [hget] at hindex
    cases hindex
    exact hne rfl
  exact List.mem_of_getElem? ((getElem?_set_of_ne hposition item).trans hindex)

/-- Where a function tells the elements apart, it tells the element changed
from those that stay. -/
theorem eq_or_ne_of_mem_set {f : α → β} {items : List α} {position : ℕ} {old item member : α}
    (hdistinct : (items.map f).Nodup) (hget : items[position]? = some old)
    (hmem : member ∈ items.set position item) :
    member = item ∨ member ∈ items ∧ f member ≠ f old := by
  obtain ⟨index, hindex⟩ := List.mem_iff_getElem?.mp hmem
  rcases getElem?_set_cases hindex with ⟨_, rfl⟩ | ⟨hne, hold⟩
  · exact Or.inl rfl
  · have hkept : member ∈ items.eraseIdx position :=
      List.mem_eraseIdx_iff_getElem?.mpr ⟨index, hne.symm, hold⟩
    exact Or.inr ⟨List.mem_of_getElem? hold, ne_of_mem_eraseIdx hdistinct hget hkept⟩

theorem countP_set_add (p : α → Bool) {items : List α} {position : ℕ} {old : α}
    (hget : items[position]? = some old) (item : α) :
    (items.set position item).countP p + (if p old then 1 else 0) =
      items.countP p + (if p item then 1 else 0) := by
  induction items generalizing position with
  | nil => cases hget
  | cons head tail ih =>
      cases position with
      | zero =>
          cases hget
          rw [List.set_cons_zero, List.countP_cons, List.countP_cons]
          omega
      | succ position =>
          have htail := ih hget
          rw [List.set_cons_succ, List.countP_cons, List.countP_cons]
          omega

/-! ## Lists with empty places -/

def slot (items : List (Option α)) (index : ℕ) : Option α := items[index]?.join

variable {items : List (Option α)} {index other : ℕ}

theorem lt_length_of_slot {item : α} (hslot : slot items index = some item) :
    index < items.length := by
  by_contra hge
  rw [slot, List.getElem?_eq_none (Nat.not_lt.mp hge)] at hslot
  cases hslot

theorem slot_set_self (hlt : index < items.length) (item : Option α) :
    slot (items.set index item) index = item := by
  simp [slot, hlt]

theorem slot_set_of_ne (hne : index ≠ other) (item : Option α) :
    slot (items.set index item) other = slot items other := by
  rw [slot, getElem?_set_of_ne hne]
  rfl

theorem slot_append_none (items : List (Option α)) (index : ℕ) :
    slot (items ++ [none]) index = slot items index := by
  unfold slot
  rcases Nat.lt_trichotomy index items.length with hlt | heq | hgt
  · rw [List.getElem?_append_left hlt]
  · subst heq
    simp
  · rw [List.getElem?_eq_none (by simp; omega), List.getElem?_eq_none (by omega)]

theorem set_slot (items : List (Option α)) (index : ℕ) :
    items.set index (slot items index) = items := by
  by_cases hlt : index < items.length
  · rw [slot, List.getElem?_eq_getElem hlt]
    exact List.set_getElem_self hlt
  · exact List.set_eq_of_length_le (Nat.not_lt.mp hlt)

/-- A new entry is a free one that is filled. -/
theorem append_eq_set (items : List (Option α)) (item : Option α) :
    items ++ [item] = (items ++ [none]).set items.length item := by
  simp

theorem slot_append_of_ne (item : Option α) (hne : other ≠ items.length) :
    slot (items ++ [item]) other = slot items other := by
  rw [append_eq_set, slot_set_of_ne hne.symm, slot_append_none]

variable [DecidableEq β]

theorem count_filterMap_cons (f : α → Option β) (head : α) (tail : List α) (value : β) :
    ((head :: tail).filterMap f).count value =
      (f head).toList.count value + (tail.filterMap f).count value := by
  cases hhead : f head with
  | none => simp [hhead]
  | some found => simp [hhead, List.count_cons, Nat.add_comm]

theorem count_filterMap_set (f : α → Option β) {items : List α} {position : ℕ} {old : α}
    (hget : items[position]? = some old) (item : α) (value : β) :
    ((items.set position item).filterMap f).count value + (f old).toList.count value =
      (items.filterMap f).count value + (f item).toList.count value := by
  induction items generalizing position with
  | nil => cases hget
  | cons head tail ih =>
      cases position with
      | zero =>
          cases hget
          rw [List.set_cons_zero, count_filterMap_cons, count_filterMap_cons]
          omega
      | succ position =>
          have htail := ih hget
          rw [List.set_cons_succ, count_filterMap_cons, count_filterMap_cons]
          omega

theorem count_toList_le_one (item : Option β) (value : β) :
    item.toList.count value ≤ 1 := by
  cases item with
  | none => simp
  | some found =>
      rw [Option.toList_some, List.count_singleton]
      split_ifs <;> omega

end ListUpdate
