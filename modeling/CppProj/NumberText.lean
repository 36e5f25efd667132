import CppProj.MachineIntegers
import Mathlib.Data.List.TakeWhile
import Mathlib.Tactic.Common

/-!
# Whole numbers in texts

`std::stoi` skips blanks, takes a sign and reads the digits up to the first
other character.  What comes after them is ignored.
-/

namespace CppProj.NumberText

open MachineIntegers

/-- The exceptions of `std::stoi`. -/
inductive Failure where
  | invalidArgument
  | outOfRange
  deriving DecidableEq

def isSpace (c : Char) : Bool :=
  [' ', '\t', '\n', '\x0b', '\x0c', '\r'].contains c

/-- Whether the text starts with a minus, and the text after the sign. -/
def takeSign : List Char → Bool × List Char
  | '-' :: rest => (true, rest)
  | '+' :: rest => (false, rest)
  | rest => (false, rest)

def stoi (text : List Char) : Except Failure ℤ :=
  let (negative, rest) := takeSign (text.dropWhile isSpace)
  let digits := rest.takeWhile Char.isDigit
  if digits = [] then .error .invalidArgument
  else
    let magnitude : ℤ := Nat.ofDigitChars 10 digits 0
    let value := if negative then -magnitude else magnitude
    if FitsInt value then .ok value else .error .outOfRange

/-- A number as it is written. -/
def format (value : ℤ) : List Char :=
  if value < 0 then '-' :: Nat.toDigits 10 value.natAbs else Nat.toDigits 10 value.natAbs

theorem isSpace_of_isDigit {c : Char} (hdigit : c.isDigit = true) : isSpace c = false := by
  by_contra hspace
  rw [Bool.not_eq_false, isSpace, List.contains_iff_mem] at hspace
  simp only [List.mem_cons, List.not_mem_nil, or_false] at hspace
  rcases hspace with rfl | rfl | rfl | rfl | rfl | rfl <;> exact absurd hdigit (by decide)

theorem takeWhile_toDigits (number : ℕ) :
    (Nat.toDigits 10 number).takeWhile Char.isDigit = Nat.toDigits 10 number :=
  List.takeWhile_eq_self_iff.mpr fun _ hmem =>
    Nat.isDigit_of_mem_toDigits (by decide) (by decide) hmem

/-- A written number starts with no blank, and without a minus with a digit. -/
theorem takeSign_format (value : ℤ) :
    takeSign ((format value).dropWhile isSpace) =
      (decide (value < 0), Nat.toDigits 10 value.natAbs) := by
  unfold format
  by_cases hnegative : value < 0
  · rw [if_pos hnegative, decide_eq_true hnegative, List.dropWhile_cons_of_neg (by decide)]
    rfl
  · rw [if_neg hnegative, decide_eq_false hnegative]
    cases hdigits : Nat.toDigits 10 value.natAbs with
    | nil => exact absurd hdigits Nat.toDigits_ne_nil
    | cons c rest =>
        have hmem : c ∈ Nat.toDigits 10 value.natAbs := by
          rw [hdigits]
          exact List.mem_cons_self
        have hdigit : c.isDigit = true :=
          Nat.isDigit_of_mem_toDigits (by decide) (by decide) hmem
        rw [List.dropWhile_cons_of_neg (ne_true_of_eq_false (isSpace_of_isDigit hdigit))]
        unfold takeSign
        split
        case h_1 hminus =>
          rw [(List.cons.inj hminus).1] at hdigit
          exact absurd hdigit (by decide)
        case h_2 hplus =>
          rw [(List.cons.inj hplus).1] at hdigit
          exact absurd hdigit (by decide)
        case h_3 => rfl

theorem stoi_format {value : ℤ} (hfits : FitsInt value) : stoi (format value) = .ok value := by
  have hvalue : (if decide (value < 0) = true then -((value.natAbs : ℕ) : ℤ)
      else ((value.natAbs : ℕ) : ℤ)) = value := by
    by_cases hnegative : value < 0
    · rw [decide_eq_true hnegative, if_pos rfl]
      omega
    · rw [decide_eq_false hnegative, if_neg Bool.false_ne_true]
      omega
  rw [stoi, takeSign_format]
  simp only [takeWhile_toDigits, Nat.toDigits_ne_nil, if_false, Nat.ofDigitChars_ten_toDigits,
    hvalue, if_pos hfits]

end CppProj.NumberText
