import Mathlib.Data.List.Perm.Basic

/-!
# Weights of lists

What waits in a list has a weight, and so has the list.  A step that takes an
element out, puts one in or replaces one changes the weight by that of the
element.
-/

universe u

namespace CppProj.WeightedLists

variable {α : Type u}

def weight (weightOf : α → ℕ) : List α → ℕ
  | [] => 0
  | item :: items => weightOf item + weight weightOf items

theorem weight_cons (weightOf : α → ℕ) (item : α) (items : List α) :
    weight weightOf (item :: items) = weightOf item + weight weightOf items := rfl

theorem weight_append (weightOf : α → ℕ) (items more : List α) :
    weight weightOf (items ++ more) = weight weightOf items + weight weightOf more := by
  induction items with
  | nil => exact (Nat.zero_add _).symm
  | cons item items ih => rw [List.cons_append, weight_cons, weight_cons, ih, Nat.add_assoc]

theorem weight_concat (weightOf : α → ℕ) (items : List α) (item : α) :
    weight weightOf (items ++ [item]) = weight weightOf items + weightOf item :=
  weight_append weightOf items [item]

theorem weight_perm (weightOf : α → ℕ) {items permuted : List α}
    (hperm : items.Perm permuted) : weight weightOf items = weight weightOf permuted := by
  induction hperm with
  | nil => rfl
  | cons item _ ih => rw [weight_cons, weight_cons, ih]
  | swap first second items =>
      rw [weight_cons, weight_cons, weight_cons, weight_cons, Nat.add_left_comm]
  | trans _ _ ihfirst ihsecond => exact ihfirst.trans ihsecond

theorem weight_eraseIdx (weightOf : α → ℕ) {items : List α} {index : ℕ} {taken : α}
    (hget : items[index]? = some taken) :
    weight weightOf (items.eraseIdx index) + weightOf taken = weight weightOf items := by
  obtain ⟨hlt, rfl⟩ := List.getElem?_eq_some_iff.mp hget
  rw [← weight_perm weightOf (List.getElem_cons_eraseIdx_perm hlt), weight_cons, Nat.add_comm]

theorem weight_set (weightOf : α → ℕ) {items : List α} {index : ℕ} {old : α}
    (hget : items[index]? = some old) (item : α) :
    weight weightOf (items.set index item) + weightOf old =
      weight weightOf items + weightOf item := by
  obtain ⟨hlt, hold⟩ := List.getElem?_eq_some_iff.mp hget
  have herase := weight_eraseIdx weightOf hget
  rw [weight_perm weightOf (List.set_perm_cons_eraseIdx hlt item), weight_cons]
  omega

theorem weight_mono {weightOf other : α → ℕ} (hle : ∀ item, weightOf item ≤ other item)
    (items : List α) : weight weightOf items ≤ weight other items := by
  induction items with
  | nil => exact Nat.le_refl 0
  | cons item items ih => exact Nat.add_le_add (hle item) ih

theorem weight_le_mul_length {weightOf : α → ℕ} {items : List α} {bound : ℕ}
    (hle : ∀ item ∈ items, weightOf item ≤ bound) :
    weight weightOf items ≤ bound * items.length := by
  induction items with
  | nil => exact Nat.zero_le _
  | cons item items ih =>
      rw [List.forall_mem_cons] at hle
      rw [weight_cons, List.length_cons, Nat.mul_succ, Nat.add_comm]
      exact Nat.add_le_add (ih hle.2) hle.1

theorem weight_le_mul_countP {weightOf : α → ℕ} {bound : ℕ} {counted : α → Bool}
    (hle : ∀ item, weightOf item ≤ if counted item then bound else 0) (items : List α) :
    weight weightOf items ≤ bound * items.countP counted := by
  induction items with
  | nil => exact Nat.zero_le _
  | cons item items ih =>
      have hitem := hle item
      rw [weight_cons, List.countP_cons, Nat.mul_add]
      split_ifs at hitem ⊢ <;> omega

end CppProj.WeightedLists
