import Mathlib.Data.Nat.Digits.Defs

/-!
# Bit fields of little-endian byte strings

The bytes are the digits of a number, the first one the least significant, so
that a bit of the string is a bit of the number.  A field of some width is a
remainder of the shifted number, and its signed reading the balanced one.
-/

namespace BitFields

/-- The number with these bytes, the least significant first. -/
def littleEndian (bytes : List UInt8) : ℕ :=
  Nat.ofDigits 256 (bytes.map UInt8.toNat)

theorem littleEndian_cons (byte : UInt8) (bytes : List UInt8) :
    littleEndian (byte :: bytes) = 2 ^ 8 * littleEndian bytes + byte.toNat := by
  rw [littleEndian, List.map_cons, Nat.ofDigits_cons, Nat.add_comm]
  rfl

theorem testBit_littleEndian {bytes : List UInt8} {position : ℕ} {byte : UInt8}
    (hget : bytes[position / 8]? = some byte) :
    (littleEndian bytes).testBit position = byte.toNat.testBit (position % 8) := by
  induction bytes generalizing position with
  | nil => cases hget
  | cons first rest ih =>
      rw [littleEndian_cons, Nat.testBit_two_pow_mul_add _ first.toNat_lt]
      by_cases hfirst : position < 8
      · rw [Nat.div_eq_of_lt hfirst] at hget
        cases hget
        rw [if_pos hfirst, Nat.mod_eq_of_lt hfirst]
      · have hdiv : position / 8 = (position - 8) / 8 + 1 := by omega
        rw [hdiv, List.getElem?_cons_succ] at hget
        rw [if_neg hfirst, ih hget]
        congr 1
        omega

/-- The bits from `start` on, `width` of them. -/
def field (value start width : ℕ) : ℕ :=
  (value >>> start) % 2 ^ width

@[simp] theorem field_zero (value start : ℕ) : field value start 0 = 0 :=
  Nat.mod_one _

theorem field_lt (value start width : ℕ) : field value start width < 2 ^ width :=
  Nat.mod_lt _ (Nat.two_pow_pos width)

theorem testBit_field (value start width position : ℕ) :
    (field value start width).testBit position =
      (decide (position < width) && value.testBit (start + position)) := by
  rw [field, Nat.testBit_mod_two_pow, Nat.testBit_shiftRight]

theorem field_succ (value start width : ℕ) :
    field value start (width + 1) =
      field value start width ||| (value.testBit (start + width)).toNat <<< width := by
  apply Nat.eq_of_testBit_eq
  intro position
  rw [Nat.testBit_or, testBit_field, testBit_field, Nat.testBit_shiftLeft]
  rcases Nat.lt_trichotomy position width with hlt | rfl | hgt
  · simp [hlt, Nat.lt_succ_of_lt hlt, Nat.not_le.mpr hlt]
  · rw [Nat.sub_self]
    cases value.testBit (start + position) <;> simp
  · have hpos : (value.testBit (start + width)).toNat.testBit (position - width) = false := by
      apply Nat.testBit_lt_two_pow
      calc (value.testBit (start + width)).toNat < 2 := Bool.toNat_lt _
        _ ≤ 2 ^ (position - width) := by
          exact Nat.le_self_pow (by omega) 2
    simp [hpos, Nat.not_lt.mpr hgt.le, Nat.not_lt.mpr hgt]

/-- The field read in two's complement. -/
def signedField (value start width : ℕ) : ℤ :=
  (field value start width : ℤ).bmod (2 ^ width)

theorem signedField_eq (value start : ℕ) {width : ℕ} (hwidth : 0 < width) :
    signedField value start width =
      if (field value start width).testBit (width - 1) then
        (field value start width : ℤ) - 2 ^ width
      else (field value start width : ℤ) := by
  obtain ⟨below, rfl⟩ := Nat.exists_eq_add_of_lt hwidth
  rw [Nat.zero_add]
  have hlt := field_lt value start (below + 1)
  have hpos := Nat.two_pow_pos below
  rw [Nat.pow_succ] at hlt
  have hbit : (field value start (below + 1)).testBit below =
      decide (2 ^ below ≤ field value start (below + 1)) := by
    rw [Nat.testBit_eq_decide_div_mod_eq, decide_eq_decide]
    constructor
    · intro hodd
      by_contra hless
      rw [Nat.div_eq_of_lt (Nat.not_le.mp hless)] at hodd
      cases hodd
    · intro hle
      rw [Nat.div_eq_of_lt_le (k := 1) (by omega) (by omega)]
  have hcast : ((2 ^ (below + 1) : ℕ) : ℤ) = 2 * ((2 ^ below : ℕ) : ℤ) := by
    rw [Nat.pow_succ]
    omega
  have hpower : (2 : ℤ) ^ (below + 1) = ((2 ^ (below + 1) : ℕ) : ℤ) := by
    rw [Nat.cast_pow]
    rfl
  rw [signedField, Int.bmod_def, Nat.add_sub_cancel, hbit, hpower, hcast,
    Int.emod_eq_of_lt (by omega) (by omega)]
  by_cases hle : 2 ^ below ≤ field value start (below + 1)
  · rw [if_neg (by omega), if_pos (by simpa using hle)]
  · rw [if_pos (by omega), if_neg (by simpa using hle)]

theorem signedField_range (value start : ℕ) {width : ℕ} (hwidth : 0 < width) :
    -2 ^ (width - 1) ≤ signedField value start width ∧
      signedField value start width < 2 ^ (width - 1) := by
  obtain ⟨below, rfl⟩ := Nat.exists_eq_add_of_lt hwidth
  rw [Nat.zero_add]
  have hmodulus : 0 < 2 ^ (below + 1) := Nat.two_pow_pos _
  have hlower := Int.le_bmod (x := field value start (below + 1)) hmodulus
  have hupper := Int.bmod_lt (x := field value start (below + 1)) hmodulus
  have hpower : ((2 ^ (below + 1) : ℕ) : ℤ) = 2 * 2 ^ below := by
    rw [Nat.cast_pow, pow_succ, mul_comm]
    rfl
  rw [hpower] at hlower hupper
  rw [Nat.add_sub_cancel, signedField]
  constructor
  · omega
  · omega

end BitFields
