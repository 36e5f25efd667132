import Mathlib.Data.List.Count
import Mathlib.Data.List.Perm.Basic
import Mathlib.Tactic.Common

/-!
# Histories whose entries carry a label

A shared history lists what several threads have done, each entry with the
position of its thread.  `entriesOf` is the history of one thread.
-/

universe u

variable {α : Type u}

/-- The entries with the given label, in order. -/
def entriesOf (label : ℕ) (history : List (ℕ × α)) : List α :=
  history.filterMap fun entry => if entry.1 = label then some entry.2 else none

namespace LabelledHistory

@[simp] theorem entriesOf_nil (label : ℕ) : entriesOf label ([] : List (ℕ × α)) = [] := rfl

theorem entriesOf_append (label : ℕ) (before after : List (ℕ × α)) :
    entriesOf label (before ++ after) = entriesOf label before ++ entriesOf label after :=
  List.filterMap_append ..

theorem mem_entriesOf {label : ℕ} {history : List (ℕ × α)} {value : α} :
    value ∈ entriesOf label history ↔ (label, value) ∈ history := by
  simp [entriesOf]

theorem entriesOf_append_self (label : ℕ) (history : List (ℕ × α)) (value : α) :
    entriesOf label (history ++ [(label, value)]) = entriesOf label history ++ [value] := by
  simp [entriesOf]

theorem entriesOf_append_of_ne {label other : ℕ} (hne : other ≠ label)
    (history : List (ℕ × α)) (value : α) :
    entriesOf label (history ++ [(other, value)]) = entriesOf label history := by
  simp [entriesOf, hne]

theorem entriesOf_eq_nil {label : ℕ} {history : List (ℕ × α)}
    (hlabels : ∀ entry ∈ history, entry.1 ≠ label) : entriesOf label history = [] := by
  rw [entriesOf, List.filterMap_eq_nil_iff]
  intro entry hmem
  exact if_neg (hlabels entry hmem)

theorem labels_lt_append {history : List (ℕ × α)} {bound label : ℕ}
    (hold : ∀ entry ∈ history, entry.1 < bound) (hlt : label < bound) (value : α) :
    ∀ entry ∈ history ++ [(label, value)], entry.1 < bound := by
  intro entry hmem
  rcases List.mem_append.mp hmem with hmem | hnew
  · exact hold entry hmem
  · rw [List.mem_singleton] at hnew
    exact hnew ▸ hlt

theorem entriesOf_filter (label : ℕ) (history : List (ℕ × α)) (p : α → Bool) :
    entriesOf label (history.filter fun entry => p entry.2) =
      (entriesOf label history).filter p := by
  induction history with
  | nil => rfl
  | cons entry rest ih =>
      simp only [entriesOf] at ih ⊢
      by_cases hp : p entry.2 = true <;> by_cases hlabel : entry.1 = label <;>
        simp [hp, hlabel, ih]

variable [DecidableEq α]

theorem count_eq_count_entriesOf (history : List (ℕ × α)) (label : ℕ) (value : α) :
    history.count (label, value) = (entriesOf label history).count value := by
  induction history with
  | nil => rfl
  | cons entry rest ih =>
      obtain ⟨other, found⟩ := entry
      by_cases hlabel : other = label
      · subst hlabel
        simp only [entriesOf, List.filterMap_cons, if_true, List.count_cons] at ih ⊢
        rw [ih]
        simp
      · simp only [entriesOf, List.filterMap_cons, if_neg hlabel, List.count_cons] at ih ⊢
        rw [ih]
        simp [hlabel]

/-- Histories that agree label by label have the same entries. -/
theorem perm_of_entriesOf {left right : List (ℕ × α)}
    (hentries : ∀ label, (entriesOf label left).Perm (entriesOf label right)) :
    left.Perm right := by
  rw [List.perm_iff_count]
  rintro ⟨label, value⟩
  rw [count_eq_count_entriesOf, count_eq_count_entriesOf]
  exact (hentries label).count_eq value

end LabelledHistory
