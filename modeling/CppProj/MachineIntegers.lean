import Mathlib.Algebra.Ring.Int.Defs

/-!
# Signed machine integers with overflow left undefined

A result that the type has no value for is `none`.
-/

namespace MachineIntegers

/-- The values of a type of 32 bits. -/
def FitsInt (value : ℤ) : Prop := -2 ^ 31 ≤ value ∧ value < 2 ^ 31

/-- The values of a type of 64 bits. -/
def FitsLong (value : ℤ) : Prop := -2 ^ 63 ≤ value ∧ value < 2 ^ 63

instance (value : ℤ) : Decidable (FitsInt value) := inferInstanceAs (Decidable (_ ∧ _))

instance (value : ℤ) : Decidable (FitsLong value) := inferInstanceAs (Decidable (_ ∧ _))

def int (value : ℤ) : Option ℤ := if FitsInt value then some value else none

def long (value : ℤ) : Option ℤ := if FitsLong value then some value else none

@[simp] theorem int_eq_some_iff {value result : ℤ} :
    int value = some result ↔ FitsInt value ∧ value = result := by
  simp [int]

@[simp] theorem int_eq_none_iff {value : ℤ} : int value = none ↔ ¬ FitsInt value := by
  simp [int]

@[simp] theorem long_eq_some_iff {value result : ℤ} :
    long value = some result ↔ FitsLong value ∧ value = result := by
  simp [long]

@[simp] theorem long_eq_none_iff {value : ℤ} : long value = none ↔ ¬ FitsLong value := by
  simp [long]

theorem int_of_fits {value : ℤ} (hfits : FitsInt value) : int value = some value :=
  if_pos hfits

theorem long_of_fits {value : ℤ} (hfits : FitsLong value) : long value = some value :=
  if_pos hfits

end MachineIntegers
