import CppProj.BitFields
import CppProj.CanSignalJumpDetector
import CppProj.MachineIntegers
import Mathlib.Data.Nat.Bitwise

/-!
# The signal field of a CAN frame

`parseRawValue` once more, with what the language leaves undefined: a shift by
a negative count or by 32 and more, and a difference that is no `int`.  A frame
may end within the signal, and the loop then breaks with the bits it has read.
-/

namespace CppProj.CanSignalJumpDetector

open BitFields MachineIntegers

/-! ## Parsing with undefined cases -/

/-- The shift as it has been since C++14: a bit may move into the sign. -/
def shiftWithin (value : Int32) (count : ℤ) : Option Int32 :=
  if 0 ≤ count ∧ count < 32 then some (value <<< Int32.ofInt count) else none

/-- The shift where its result is the exact product. -/
def shiftExact (value : Int32) (count : ℤ) : Option Int32 :=
  if (0 ≤ count ∧ count < 32) ∧ FitsInt (value.toInt * 2 ^ count.toNat) then
    some (value <<< Int32.ofInt count)
  else none

def subtract? (left right : Int32) : Option Int32 :=
  if FitsInt (left.toInt - right.toInt) then some (left - right) else none

section Parsing

variable {α : Type} (shift : Int32 → ℤ → Option Int32)

def parseLoop? (cfg : CanSignalConfig α) (message : CanMessage) : ℕ → UInt8 → Int32 → Option Int32
  | 0, _, rawVal => some rawVal
  | bits + 1, i, rawVal =>
      let bitPos := cfg.startBit + i
      let byteIdx := bitPos / 8
      let bitInByte := bitPos % 8
      if h : byteIdx < message.dataLen then do
        let bit := (message.byte byteIdx h >>> bitInByte) &&& 1
        let shifted ← shift (Int32.ofNat bit.toNat) i.toNat
        parseLoop? cfg message bits (i + 1) (rawVal ||| shifted)
      else some rawVal

def parseRawValue? (cfg : CanSignalConfig α) (message : CanMessage) : Option Int32 := do
  let rawVal ← parseLoop? shift cfg message cfg.signalLength.toNat 0 0
  if cfg.isSigned then
    let signBit ← shift 1 ((cfg.signalLength.toNat : ℤ) - 1)
    if (rawVal &&& signBit) != 0 then
      let modulus ← shift 1 cfg.signalLength.toNat
      subtract? rawVal modulus
    else some rawVal
  else some rawVal

end Parsing

theorem shiftLeft_eq_of_some {value shifted : Int32} {count : ℤ}
    (undefinedShift : Int32 → ℤ → Int32) (hshift : shiftWithin value count = some shifted) :
    shiftLeft undefinedShift value count = shifted := by
  simp only [shiftWithin, Option.ite_none_right_eq_some, Option.some.injEq] at hshift
  rw [shiftLeft, if_pos hshift.1, hshift.2]

theorem parseLoop_eq_of_some {α : Type} {cfg : CanSignalConfig α} {message : CanMessage}
    (undefinedShift : Int32 → ℤ → Int32) {bits : ℕ} {i : UInt8} {rawVal result : Int32}
    (hparse : parseLoop? shiftWithin cfg message bits i rawVal = some result) :
    parseLoop undefinedShift cfg message bits i rawVal = result := by
  induction bits generalizing i rawVal with
  | zero => exact Option.some.inj hparse
  | succ bits ih =>
      rw [parseLoop?] at hparse
      rw [parseLoop]
      split at hparse
      · rename_i hwithin
        obtain ⟨shifted, hshift, hrest⟩ := Option.bind_eq_some_iff.mp hparse
        simp only [dif_pos hwithin, shiftLeft_eq_of_some undefinedShift hshift]
        exact ih hrest
      · rename_i hbeyond
        simp only [dif_neg hbeyond]
        exact Option.some.inj hparse

/-- A defined result is the one computed whatever undefined shifts give. -/
theorem parseRawValue_eq_of_some {α : Type} {cfg : CanSignalConfig α} {message : CanMessage}
    {result : Int32}
    (undefinedShift : Int32 → ℤ → Int32)
    (hparse : parseRawValue? shiftWithin cfg message = some result) :
    parseRawValue undefinedShift cfg message = result := by
  obtain ⟨rawVal, hloop, hsign⟩ := Option.bind_eq_some_iff.mp hparse
  rw [parseRawValue, parseLoop_eq_of_some undefinedShift hloop]
  cases hsigned : cfg.isSigned with
  | false =>
      simp only [hsigned, Bool.false_eq_true, if_false, Option.some.injEq] at hsign
      simpa using hsign
  | true =>
      simp only [hsigned, if_true] at hsign
      obtain ⟨signBit, hshift, hsub⟩ := Option.bind_eq_some_iff.mp hsign
      rw [shiftLeft_eq_of_some undefinedShift hshift]
      cases hbit : (rawVal &&& signBit) != 0 with
      | false =>
          simp only [hbit, Bool.false_eq_true, if_false, Option.some.injEq] at hsub
          simpa [hbit] using hsub
      | true =>
          simp only [hbit, if_true] at hsub
          obtain ⟨modulus, hmodulus, hdifference⟩ := Option.bind_eq_some_iff.mp hsub
          simp only [subtract?, Option.ite_none_right_eq_some, Option.some.injEq] at hdifference
          rw [shiftLeft_eq_of_some undefinedShift hmodulus]
          simpa [hbit] using hdifference.2

theorem shiftWithin_of_shiftExact {value shifted : Int32} {count : ℤ}
    (hshift : shiftExact value count = some shifted) : shiftWithin value count = some shifted := by
  simp only [shiftExact, Option.ite_none_right_eq_some] at hshift
  rw [shiftWithin, if_pos hshift.1.1]
  exact hshift.2

/-! ## Words and numbers -/

theorem ofNat_or (left right : ℕ) :
    Int32.ofNat left ||| Int32.ofNat right = Int32.ofNat (left ||| right) := by
  rw [← Int32.toBitVec_inj]
  simp

theorem ofNat_and (left right : ℕ) :
    Int32.ofNat left &&& Int32.ofNat right = Int32.ofNat (left &&& right) := by
  rw [← Int32.toBitVec_inj]
  simp

theorem ofNat_shiftLeft (value : ℕ) {count : ℕ} (hcount : count < 32) :
    Int32.ofNat value <<< Int32.ofInt count = Int32.ofNat (value <<< count) := by
  rw [← Int32.toBitVec_inj, Int32.toBitVec_shiftLeft, Int32.toBitVec_ofInt, Int32.toBitVec_ofNat',
    Int32.toBitVec_ofNat']
  have hmod : (BitVec.ofInt 32 (count : ℤ)).smod 32 = BitVec.ofNat 32 count := by
    apply BitVec.eq_of_toInt_eq
    have hcast : (count : ℤ).bmod (2 ^ 32) = count := by
      apply Int.bmod_eq_of_le <;> omega
    rw [BitVec.toInt_smod, BitVec.toInt_ofInt, BitVec.toInt_ofNat', hcast]
    exact Int.fmod_eq_of_lt (by omega) (by change (count : ℤ) < 32; omega)
  rw [hmod, BitVec.shiftLeft_eq']
  apply BitVec.eq_of_toNat_eq
  simp [Nat.mod_eq_of_lt (show count < 4294967296 by omega), Nat.shiftLeft_eq]

theorem shiftWithin_ofNat (value : ℕ) {count : ℕ} (hcount : count < 32) :
    shiftWithin (Int32.ofNat value) count = some (Int32.ofNat (value <<< count)) := by
  rw [shiftWithin, if_pos ⟨by omega, by omega⟩, ofNat_shiftLeft value hcount]

theorem shiftExact_ofNat {value count : ℕ} (hvalue : value < 2) (hcount : count < 31) :
    shiftExact (Int32.ofNat value) count = some (Int32.ofNat (value <<< count)) := by
  have hpower : 2 ^ count ≤ 2 ^ 30 := Nat.pow_le_pow_right (by decide) (by omega)
  have hsmall : (Int32.ofNat value).toInt = value := Int32.toInt_ofNat_of_lt (by omega)
  have hfits : FitsInt ((Int32.ofNat value).toInt * 2 ^ (count : ℤ).toNat) := by
    rw [hsmall, Int.toNat_natCast]
    have hproduct : (value : ℤ) * 2 ^ count = ((value * 2 ^ count : ℕ) : ℤ) := by
      rw [Nat.cast_mul, Nat.cast_pow]
      rfl
    have hle : value * 2 ^ count ≤ 1 * 2 ^ 30 := Nat.mul_le_mul (by omega) hpower
    rw [hproduct, FitsInt]
    omega
  rw [shiftExact, if_pos ⟨⟨by omega, by omega⟩, hfits⟩, ofNat_shiftLeft value (by omega)]

theorem subtract?_eq_some {left right : Int32} (hfits : FitsInt (left.toInt - right.toInt)) :
    ∃ result, subtract? left right = some result ∧ result.toInt = left.toInt - right.toInt := by
  refine ⟨left - right, if_pos hfits, ?_⟩
  rw [Int32.toInt_sub]
  obtain ⟨hlower, hupper⟩ := hfits
  exact Int.bmod_eq_of_le (by omega) (by omega)

/-- Taking the modulus off a value with its sign bit set. -/
theorem subtract?_modulus {value width : ℕ} (hwidth : width ≤ 30) (hlt : value < 2 ^ width) :
    ∃ result,
      ((shiftExact 1 width).bind fun modulus => subtract? (Int32.ofNat value) modulus) =
        some result ∧ result.toInt = (value : ℤ) - 2 ^ width := by
  have hpower : 2 ^ width ≤ 2 ^ 30 := Nat.pow_le_pow_right (by decide) hwidth
  have hvalue : (Int32.ofNat value).toInt = value := Int32.toInt_ofNat_of_lt (by omega)
  have hcast : ((2 ^ width : ℕ) : ℤ) = 2 ^ width := by
    rw [Nat.cast_pow]
    rfl
  have hmodulus : (Int32.ofNat (1 <<< width)).toInt = 2 ^ width := by
    rw [Nat.one_shiftLeft, Int32.toInt_ofNat_of_lt (by omega), hcast]
  have hdifference :
      FitsInt ((Int32.ofNat value).toInt - (Int32.ofNat (1 <<< width)).toInt) := by
    rw [hvalue, hmodulus, ← hcast, FitsInt]
    omega
  have hshift : shiftExact 1 width = some (Int32.ofNat (1 <<< width)) :=
    shiftExact_ofNat Nat.one_lt_two (by omega)
  obtain ⟨result, hsubtract, hresult⟩ := subtract?_eq_some hdifference
  refine ⟨result, ?_, ?_⟩
  · rw [hshift, Option.bind_some]
    exact hsubtract
  · rw [hresult, hvalue, hmodulus]

/-! ## The bits of a frame -/

/-- The bits of the signal that the frame contains. -/
def presentBits {α : Type} (cfg : CanSignalConfig α) (message : CanMessage) : ℕ :=
  min cfg.signalLength.toNat (8 * message.dataLen.toNat - cfg.startBit.toNat)

/-- The number formed by the first bits of the signal. -/
def signalField {α : Type} (cfg : CanSignalConfig α) (message : CanMessage) (width : ℕ) : ℕ :=
  field (littleEndian message.data) cfg.startBit.toNat width

theorem byte_bit {message : CanMessage} {bitPos : UInt8} (h : bitPos / 8 < message.dataLen) :
    ((message.byte (bitPos / 8) h >>> (bitPos % 8)) &&& 1).toNat =
      ((littleEndian message.data).testBit bitPos.toNat).toNat := by
  have hget : message.data[bitPos.toNat / 8]? = some (message.byte (bitPos / 8) h) := by
    rw [CanMessage.byte]
    exact List.getElem?_eq_getElem _
  rw [testBit_littleEndian hget, Nat.toNat_testBit, UInt8.toNat_and, UInt8.toNat_shiftRight,
    UInt8.toNat_mod]
  have hinner : bitPos.toNat % 8 % 8 = bitPos.toNat % 8 := by omega
  change (_ >>> (bitPos.toNat % 8 % 8)) &&& 1 = _
  rw [hinner, Nat.and_one_is_mod, Nat.shiftRight_eq_div_pow]

section Loop

variable {shift : Int32 → ℤ → Option Int32} {α : Type} {cfg : CanSignalConfig α}
  {message : CanMessage}

theorem parseLoop?_succ {bits : ℕ} {i : UInt8} {rawVal : Int32}
    (hposition : cfg.startBit.toNat + i.toNat < 256) :
    parseLoop? shift cfg message (bits + 1) i rawVal =
      if cfg.startBit.toNat + i.toNat < 8 * message.dataLen.toNat then
        (shift (Int32.ofNat ((littleEndian message.data).testBit
          (cfg.startBit.toNat + i.toNat)).toNat) i.toNat).bind fun shifted =>
            parseLoop? shift cfg message bits (i + 1) (rawVal ||| shifted)
      else some rawVal := by
  have hsum : (cfg.startBit + i).toNat = cfg.startBit.toNat + i.toNat := by
    rw [UInt8.toNat_add, Nat.mod_eq_of_lt hposition]
  have hwithin : (cfg.startBit + i) / 8 < message.dataLen ↔
      cfg.startBit.toNat + i.toNat < 8 * message.dataLen.toNat := by
    rw [UInt8.lt_iff_toNat_lt, UInt8.toNat_div, hsum]
    change (cfg.startBit.toNat + i.toNat) / 8 < message.dataLen.toNat ↔ _
    omega
  rw [parseLoop?]
  by_cases h : (cfg.startBit + i) / 8 < message.dataLen
  · simp only [dif_pos h, if_pos (hwithin.mp h), byte_bit h, hsum]
    rfl
  · simp only [dif_neg h, if_neg (fun h' => h (hwithin.mpr h'))]

theorem toNat_succ {bits : ℕ} {i : UInt8}
    (hlength : i.toNat + (bits + 1) = cfg.signalLength.toNat) :
    (i + 1).toNat = i.toNat + 1 := by
  have hlt := cfg.signalLength.toNat_lt
  rw [UInt8.toNat_add]
  exact Nat.mod_eq_of_lt (show i.toNat + 1 < 256 by omega)

/-- While the shifts are defined, the loop reads the bits that are there. -/
theorem parseLoop?_eq_some {limit : ℕ}
    (hshift : ∀ value count : ℕ, value < 2 → count < limit →
      shift (Int32.ofNat value) count = some (Int32.ofNat (value <<< count)))
    (hfits : cfg.startBit.toNat + cfg.signalLength.toNat ≤ 256)
    (hlimit : presentBits cfg message ≤ limit) {bits : ℕ} {i : UInt8}
    (hlength : i.toNat + bits = cfg.signalLength.toNat)
    (hread : i.toNat ≤ presentBits cfg message) :
    parseLoop? shift cfg message bits i (Int32.ofNat (signalField cfg message i.toNat)) =
      some (Int32.ofNat (signalField cfg message (presentBits cfg message))) := by
  induction bits generalizing i with
  | zero =>
      have hall : i.toNat = presentBits cfg message := by
        rw [presentBits] at hread ⊢
        omega
      rw [parseLoop?, hall]
  | succ bits ih =>
      rw [parseLoop?_succ (by omega)]
      split
      · rename_i hpresent
        have hlt : i.toNat < presentBits cfg message := by
          rw [presentBits]
          omega
        rw [hshift _ _ (Bool.toNat_lt _) (Nat.lt_of_lt_of_le hlt hlimit), Option.bind_some,
          ofNat_or, signalField, ← field_succ, ← toNat_succ hlength]
        have hnext := toNat_succ hlength
        exact ih (by omega) (by omega)
      · rename_i habsent
        have hall : i.toNat = presentBits cfg message := by
          rw [presentBits] at hread ⊢
          omega
        rw [hall]

theorem parseLoop?_eq_none (hfits : cfg.startBit.toNat + cfg.signalLength.toNat ≤ 256)
    (hmany : 32 < presentBits cfg message) {bits : ℕ} {i : UInt8} {rawVal : Int32}
    (hlength : i.toNat + bits = cfg.signalLength.toNat) (hread : i.toNat ≤ 32) :
    parseLoop? shiftWithin cfg message bits i rawVal = none := by
  rw [presentBits] at hmany
  induction bits generalizing i rawVal with
  | zero => omega
  | succ bits ih =>
      rw [parseLoop?_succ (by omega), if_pos (by omega)]
      by_cases hlast : i.toNat = 32
      · rw [shiftWithin, if_neg (by omega)]
        rfl
      · have hnext := toNat_succ hlength
        rw [shiftWithin_ofNat _ (by omega), Option.bind_some]
        exact ih (by omega) (by omega)

end Loop

theorem parseLoop?_start {shift : Int32 → ℤ → Option Int32} {α : Type} {cfg : CanSignalConfig α}
    {message : CanMessage} {limit : ℕ}
    (hshift : ∀ value count : ℕ, value < 2 → count < limit →
      shift (Int32.ofNat value) count = some (Int32.ofNat (value <<< count)))
    (hfits : cfg.startBit.toNat + cfg.signalLength.toNat ≤ 256)
    (hlimit : presentBits cfg message ≤ limit) :
    parseLoop? shift cfg message cfg.signalLength.toNat 0 0 =
      some (Int32.ofNat (signalField cfg message (presentBits cfg message))) := by
  have hloop := parseLoop?_eq_some hshift hfits hlimit (i := 0) (Nat.zero_add _) (Nat.zero_le _)
  rw [signalField, UInt8.toNat_zero, field_zero] at hloop
  exact hloop

/-! ## Complete signals -/

section Complete

variable {α : Type} {cfg : CanSignalConfig α} {message : CanMessage}

theorem signalField_lt (width : ℕ) : signalField cfg message width < 2 ^ width :=
  field_lt _ _ width

theorem and_signBit_ne_zero {value below : ℕ} (hbelow : below < 32) :
    ((Int32.ofNat value &&& Int32.ofNat (1 <<< below)) != 0) = value.testBit below := by
  have hpower : 2 ^ below < 2 ^ 32 := Nat.pow_lt_pow_right (by decide) hbelow
  have hpos := Nat.two_pow_pos below
  rw [ofNat_and, Nat.one_shiftLeft, Nat.and_two_pow]
  cases value.testBit below with
  | false =>
      rw [Bool.toNat_false, Nat.zero_mul]
      rfl
  | true =>
      rw [Bool.toNat_true, Nat.one_mul, bne_iff_ne]
      intro hzero
      have hvalue := congrArg (fun word : Int32 => word.toBitVec.toNat) hzero
      simp only [Int32.toBitVec_ofNat', BitVec.toNat_ofNat] at hvalue
      rw [Nat.mod_eq_of_lt hpower] at hvalue
      exact hpos.ne' hvalue

theorem parseRawValue?_unsigned {shift : Int32 → ℤ → Option Int32} {rawVal : Int32}
    (hloop : parseLoop? shift cfg message cfg.signalLength.toNat 0 0 = some rawVal)
    (hsigned : cfg.isSigned = false) : parseRawValue? shift cfg message = some rawVal := by
  rw [parseRawValue?, hloop]
  simp [hsigned]

theorem parseRawValue?_signed {shift : Int32 → ℤ → Option Int32} {value : ℕ}
    (hloop : parseLoop? shift cfg message cfg.signalLength.toNat 0 0 = some (Int32.ofNat value))
    (hsigned : cfg.isSigned = true) (hlength : 0 < cfg.signalLength.toNat)
    (hshort : cfg.signalLength.toNat ≤ 32)
    (hshift : shift 1 (cfg.signalLength.toNat - 1 : ℕ) =
      some (Int32.ofNat (1 <<< (cfg.signalLength.toNat - 1)))) :
    parseRawValue? shift cfg message =
      if value.testBit (cfg.signalLength.toNat - 1) then
        (shift 1 cfg.signalLength.toNat).bind fun modulus => subtract? (Int32.ofNat value) modulus
      else some (Int32.ofNat value) := by
  have hcount : (cfg.signalLength.toNat : ℤ) - 1 = (cfg.signalLength.toNat - 1 : ℕ) := by omega
  rw [parseRawValue?, hloop, Option.bind_eq_bind, Option.bind_some, if_pos hsigned, hcount, hshift,
    Option.bind_some, and_signBit_ne_zero (by omega)]

/-- Bits `start_bit` to `start_bit + signal_length - 1` of the frame, as the configuration
says that they are to be read. -/
def fieldValue (cfg : CanSignalConfig α) (message : CanMessage) : ℤ :=
  if cfg.isSigned then
    signedField (littleEndian message.data) cfg.startBit.toNat cfg.signalLength.toNat
  else (signalField cfg message cfg.signalLength.toNat : ℤ)

/-- The whole field is read, and no result on the way leaves `int`. -/
theorem parseRawValue?_complete (hlength : 1 ≤ cfg.signalLength.toNat)
    (hshort : cfg.signalLength.toNat ≤ 30)
    (hfits : cfg.startBit.toNat + cfg.signalLength.toNat ≤ min (8 * message.dataLen.toNat) 256) :
    ∃ result, parseRawValue? shiftExact cfg message = some result ∧
      result.toInt = fieldValue cfg message := by
  have hall : presentBits cfg message = cfg.signalLength.toNat := by
    rw [presentBits]
    omega
  have hloop : parseLoop? shiftExact cfg message cfg.signalLength.toNat 0 0 =
      some (Int32.ofNat (signalField cfg message cfg.signalLength.toNat)) := by
    rw [parseLoop?_start (fun _ _ => shiftExact_ofNat) (by omega) (by omega), hall]
  have hlt : signalField cfg message cfg.signalLength.toNat < 2 ^ cfg.signalLength.toNat :=
    signalField_lt _
  have hpower : 2 ^ cfg.signalLength.toNat ≤ 2 ^ 30 := Nat.pow_le_pow_right (by decide) hshort
  have hfield : (Int32.ofNat (signalField cfg message cfg.signalLength.toNat)).toInt =
      signalField cfg message cfg.signalLength.toNat := Int32.toInt_ofNat_of_lt (by omega)
  cases hsigned : cfg.isSigned with
  | false =>
      refine ⟨_, parseRawValue?_unsigned hloop hsigned, ?_⟩
      rw [hfield, fieldValue, hsigned]
      rfl
  | true =>
      have hparse := parseRawValue?_signed hloop hsigned (by omega) (by omega)
        (shiftExact_ofNat Nat.one_lt_two (by omega))
      have hvalue : fieldValue cfg message =
          if (signalField cfg message cfg.signalLength.toNat).testBit
              (cfg.signalLength.toNat - 1) then
            (signalField cfg message cfg.signalLength.toNat : ℤ) - 2 ^ cfg.signalLength.toNat
          else (signalField cfg message cfg.signalLength.toNat : ℤ) := by
        rw [fieldValue, if_pos hsigned]
        exact signedField_eq _ _ (by omega)
      rw [hparse, hvalue]
      split
      · exact subtract?_modulus hshort hlt
      · exact ⟨_, rfl, hfield⟩

end Complete

section Mono

variable {α : Type} {cfg : CanSignalConfig α} {message : CanMessage}
  {shift weaker : Int32 → ℤ → Option Int32}

theorem parseLoop?_mono
    (hshift : ∀ value count shifted, shift value count = some shifted →
      weaker value count = some shifted)
    {bits : ℕ} {i : UInt8} {rawVal result : Int32}
    (hparse : parseLoop? shift cfg message bits i rawVal = some result) :
    parseLoop? weaker cfg message bits i rawVal = some result := by
  induction bits generalizing i rawVal with
  | zero => exact hparse
  | succ bits ih =>
      rw [parseLoop?] at hparse ⊢
      split at hparse
      · rename_i hwithin
        obtain ⟨shifted, hvalue, hrest⟩ := Option.bind_eq_some_iff.mp hparse
        simp only [dif_pos hwithin, hshift _ _ _ hvalue]
        exact ih hrest
      · rename_i hbeyond
        simp only [dif_neg hbeyond]
        exact hparse

theorem parseRawValue?_mono
    (hshift : ∀ value count shifted, shift value count = some shifted →
      weaker value count = some shifted)
    {result : Int32} (hparse : parseRawValue? shift cfg message = some result) :
    parseRawValue? weaker cfg message = some result := by
  obtain ⟨rawVal, hloop, hsign⟩ := Option.bind_eq_some_iff.mp hparse
  rw [parseRawValue?, parseLoop?_mono hshift hloop, Option.bind_eq_bind, Option.bind_some]
  cases hsigned : cfg.isSigned with
  | false => simpa [hsigned] using hsign
  | true =>
      simp only [hsigned, if_true] at hsign
      obtain ⟨signBit, hvalue, hsub⟩ := Option.bind_eq_some_iff.mp hsign
      rw [if_pos rfl, hshift _ _ _ hvalue, Option.bind_some]
      cases hbit : (rawVal &&& signBit) != 0 with
      | false =>
          simp only [hbit, Bool.false_eq_true, if_false] at hsub ⊢
          exact hsub
      | true =>
          simp only [hbit, if_true] at hsub ⊢
          obtain ⟨modulus, hmodulus, hdifference⟩ := Option.bind_eq_some_iff.mp hsub
          rw [hshift _ _ _ hmodulus, Option.bind_some]
          exact hdifference

end Mono

/-- `parseRawValue` extracts the bit field, whatever undefined shifts give, and no result on
the way leaves `int`. -/
theorem parseRawValue_extracts {α : Type} (cfg : CanSignalConfig α) (message : CanMessage)
    (hlength : 1 ≤ cfg.signalLength.toNat) (hshort : cfg.signalLength.toNat ≤ 30)
    (hfits : cfg.startBit.toNat + cfg.signalLength.toNat ≤ min (8 * message.dataLen.toNat) 256) :
    ∃ result, parseRawValue? shiftExact cfg message = some result ∧
      (∀ undefinedShift, parseRawValue undefinedShift cfg message = result) ∧
      result.toInt = fieldValue cfg message ∧
      (cfg.isSigned = true →
        -2 ^ (cfg.signalLength.toNat - 1) ≤ result.toInt ∧
          result.toInt < 2 ^ (cfg.signalLength.toNat - 1)) := by
  obtain ⟨result, hparse, hvalue⟩ := parseRawValue?_complete hlength hshort hfits
  refine ⟨result, hparse, ?_, hvalue, ?_⟩
  · intro undefinedShift
    refine parseRawValue_eq_of_some undefinedShift (parseRawValue?_mono ?_ hparse)
    exact fun _ _ _ => shiftWithin_of_shiftExact
  · intro hsigned
    rw [hvalue, fieldValue, if_pos hsigned]
    exact signedField_range _ _ hlength

/-- Twelve bits from bit 4 on, of the bytes `0x5A` and `0xF3`. -/
def twelveBits : CanSignalConfig ℚ where
  canId := 0x123
  startBit := 4
  signalLength := 12
  isSigned := true
  factor := 1
  offset := 0
  minVal := -2048
  maxVal := 2047

def twoBytes : CanMessage where
  canId := 0x123
  data := [0x5A, 0xF3]
  dataLen := 2
  complete := by decide

theorem parseRawValue_extracts_twelveBits :
    fieldValue twelveBits twoBytes = -203 ∧
      ∃ result, parseRawValue? shiftExact twelveBits twoBytes = some result ∧
        (∀ undefinedShift, parseRawValue undefinedShift twelveBits twoBytes = result) ∧
        result.toInt = fieldValue twelveBits twoBytes ∧
        (twelveBits.isSigned = true →
          -2 ^ (twelveBits.signalLength.toNat - 1) ≤ result.toInt ∧
            result.toInt < 2 ^ (twelveBits.signalLength.toNat - 1)) :=
  ⟨by rfl, parseRawValue_extracts twelveBits twoBytes (by decide) (by decide) (by decide)⟩

end CppProj.CanSignalJumpDetector
