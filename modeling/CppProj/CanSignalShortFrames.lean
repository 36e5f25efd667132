import CppProj.CanSignalFrames

/-!
# Frames without the whole signal

The class keeps its values in `float`.  What a short frame does to them is told for any
arithmetic, since the types of the numbers of the configuration are not in the repository.
-/

namespace CppProj.CanSignalJumpDetector

section Processing

variable {α φ : Type} (arithmetic : Arithmetic α φ)

/-- `processCanMessage`, which has no defined outcome where a shift has none. -/
def Detector.processCanMessage? (shift : Int32 → ℤ → Option Int32) (detector : Detector α φ)
    (message : CanMessage) : Option (Detector α φ × List (Jump φ)) :=
  if message.canId ≠ detector.signalCfg.canId then some (detector, [])
  else (parseRawValue? shift detector.signalCfg message).map (detector.accept arithmetic)

theorem processCanMessage_eq_of_some {detector : Detector α φ} {message : CanMessage}
    {outcome : Detector α φ × List (Jump φ)} (undefinedShift : Int32 → ℤ → Int32)
    (hprocess : detector.processCanMessage? arithmetic shiftWithin message = some outcome) :
    detector.processCanMessage arithmetic undefinedShift message = outcome := by
  rw [Detector.processCanMessage?] at hprocess
  rw [Detector.processCanMessage]
  split at hprocess
  · rename_i hid
    rw [if_pos hid]
    exact Option.some.inj hprocess
  · rename_i hid
    obtain ⟨rawVal, hparse, rfl⟩ := Option.map_eq_some_iff.mp hprocess
    rw [if_neg hid, parseRawValue_eq_of_some undefinedShift hparse]

end Processing

section Short

variable {α : Type} {cfg : CanSignalConfig α} {message : CanMessage}

/-- The bits that are there are as many as an `int` has, and the shifts of the sign test
are defined. -/
def ShiftsDefined (cfg : CanSignalConfig α) (message : CanMessage) : Prop :=
  presentBits cfg message ≤ 32 ∧
    (cfg.isSigned = true → 1 ≤ cfg.signalLength.toNat ∧ cfg.signalLength.toNat ≤ 32)

instance : Decidable (ShiftsDefined cfg message) := inferInstanceAs (Decidable (_ ∧ _))

/-- The sign bit is missing, so that the bits that are there are taken as they are. -/
theorem parseRawValue?_short (hfits : cfg.startBit.toNat + cfg.signalLength.toNat ≤ 256)
    (hshort : 8 * message.dataLen.toNat < cfg.startBit.toNat + cfg.signalLength.toNat) :
    parseRawValue? shiftWithin cfg message =
      if ShiftsDefined cfg message then
        some (Int32.ofNat (signalField cfg message (presentBits cfg message)))
      else none := by
  by_cases hmany : 32 < presentBits cfg message
  · rw [if_neg (fun h => Nat.not_le.mpr hmany h.1), parseRawValue?,
      parseLoop?_eq_none hfits hmany (i := 0) (Nat.zero_add _) (Nat.zero_le _)]
    rfl
  have hloop : parseLoop? shiftWithin cfg message cfg.signalLength.toNat 0 0 =
      some (Int32.ofNat (signalField cfg message (presentBits cfg message))) :=
    parseLoop?_start (fun value _ _ => shiftWithin_ofNat value) hfits (Nat.not_lt.mp hmany)
  cases hsigned : cfg.isSigned with
  | false =>
      rw [parseRawValue?_unsigned hloop hsigned, if_pos ⟨Nat.not_lt.mp hmany, by simp [hsigned]⟩]
  | true =>
      by_cases hlength : 1 ≤ cfg.signalLength.toNat ∧ cfg.signalLength.toNat ≤ 32
      · obtain ⟨hone, hword⟩ := hlength
        have hmissing : presentBits cfg message ≤ cfg.signalLength.toNat - 1 := by
          rw [presentBits]
          omega
        have hunset : (signalField cfg message (presentBits cfg message)).testBit
            (cfg.signalLength.toNat - 1) = false := by
          apply Nat.testBit_lt_two_pow
          exact Nat.lt_of_lt_of_le (signalField_lt _) (Nat.pow_le_pow_right (by decide) hmissing)
        rw [parseRawValue?_signed hloop hsigned hone hword (shiftWithin_ofNat 1 (by omega)), hunset,
          if_neg Bool.false_ne_true, if_pos ⟨Nat.not_lt.mp hmany, fun _ => ⟨hone, hword⟩⟩]
      · rw [if_neg (fun h => hlength (h.2 hsigned)), parseRawValue?, hloop]
        rw [Option.bind_eq_bind, Option.bind_some, if_pos hsigned, shiftWithin,
          if_neg (by omega)]
        rfl

end Short

/-! ## What goes unnoticed -/

section Unnoticed

variable {α φ : Type} (arithmetic : Arithmetic α φ)

/-- What the bits in the frame stand for, computed as the class computes it. -/
def presentValue (cfg : CanSignalConfig α) (message : CanMessage) : φ :=
  scaled arithmetic cfg (Int32.ofNat (signalField cfg message (presentBits cfg message)))

/-- There is a defined outcome, no callback, and both variables are as they were. -/
def Ignored (detector : Detector α φ) (outcome : Option (Detector α φ × List (Jump φ))) : Prop :=
  ∃ after, outcome = some (after, []) ∧ after.lastValidVal = detector.lastValidVal ∧
    after.isInitialized = detector.isInitialized

/-- A value that the range filter drops, or that is the remembered one and no jump from
itself to itself. -/
def Unnoticed (detector : Detector α φ) (value : φ) : Prop :=
  isValidValue arithmetic detector.signalCfg value = false ∨
    detector.isInitialized = true ∧ detector.lastValidVal = value ∧
      ¬ (detector.onJump = true ∧
        checkJumpCondition arithmetic detector.jumpCondition value value = true)

theorem ignored_accept_iff (detector : Detector α φ) (rawVal : Int32) :
    Ignored detector (some (detector.accept arithmetic rawVal)) ↔
      Unnoticed arithmetic detector (scaled arithmetic detector.signalCfg rawVal) := by
  set value := scaled arithmetic detector.signalCfg rawVal with hvalue
  rw [Unnoticed]
  cases hvalid : isValidValue arithmetic detector.signalCfg value with
  | false =>
      rw [accept_of_invalid hvalid]
      exact iff_of_true ⟨_, rfl, rfl, rfl⟩ (Or.inl rfl)
  | true =>
      rw [or_iff_right Bool.true_eq_false.mp]
      cases hinit : detector.isInitialized with
      | false =>
          rw [accept_of_first hvalid hinit]
          refine iff_of_false ?_ (fun h => Bool.false_ne_true h.1)
          rintro ⟨after, hsome, _, hsame⟩
          cases hsome
          rw [hinit] at hsame
          cases hsame
      | true =>
          rw [accept_of_next hvalid hinit, ← hvalue]
          constructor
          · rintro ⟨after, hsome, hlast, _⟩
            obtain ⟨rfl, hjumps⟩ := Prod.mk.inj (Option.some.inj hsome)
            have hsame : value = detector.lastValidVal := hlast
            refine ⟨rfl, hsame.symm, ?_⟩
            rintro ⟨hon, hcheck⟩
            rw [← hsame, hcheck, hon] at hjumps
            cases hjumps
          · rintro ⟨_, hlast, hquiet⟩
            refine ⟨_, congrArg some (Prod.ext rfl ?_), hlast.symm, rfl⟩
            rw [hlast]
            by_cases hcheck :
                checkJumpCondition arithmetic detector.jumpCondition value value = true
            · rw [if_pos hcheck, if_neg (fun hon => hquiet ⟨hon, hcheck⟩)]
            · rw [if_neg hcheck]

/-- A frame without the whole signal is ignored exactly when the bits in it happen to
stand for a value that goes unnoticed. -/
theorem shortFrame_ignored_iff (detector : Detector α φ) (message : CanMessage)
    (hfits : detector.signalCfg.startBit.toNat + detector.signalCfg.signalLength.toNat ≤ 256)
    (hid : message.canId = detector.signalCfg.canId)
    (hshort : 8 * message.dataLen.toNat <
      detector.signalCfg.startBit.toNat + detector.signalCfg.signalLength.toNat) :
    Ignored detector (detector.processCanMessage? arithmetic shiftWithin message) ↔
      ShiftsDefined detector.signalCfg message ∧
        Unnoticed arithmetic detector (presentValue arithmetic detector.signalCfg message) := by
  rw [Detector.processCanMessage?, if_neg (not_not.mpr hid), parseRawValue?_short hfits hshort]
  by_cases hdefined : ShiftsDefined detector.signalCfg message
  · rw [if_pos hdefined, Option.map_some, ignored_accept_iff]
    exact (and_iff_right hdefined).symm
  · rw [if_neg hdefined, Option.map_none]
    constructor
    · rintro ⟨after, hsome, _⟩
      cases hsome
    · exact fun h => (hdefined h.1).elim

end Unnoticed

/-! ## Short frames of floats -/

def anyJump : JumpCondition Float32 where
  type := .jumpAny
  fromVal := 0
  toVal := 0
  fromMin := 0
  fromMax := 0
  toMin := 0
  toMax := 0

/-- Twelve bits from bit 4 on, with the values up to a bound. -/
def twelveBitsUpTo (maxVal : Float32) : CanSignalConfig Float32 where
  canId := 0x123
  startBit := 4
  signalLength := 12
  isSigned := true
  factor := 1
  offset := 0
  minVal := -2048
  maxVal := maxVal

def oneByte : CanMessage where
  canId := 0x123
  data := [0x5A]
  dataLen := 1
  complete := by decide

/-- The value 5 of the four bits is above the range. -/
theorem shortFrame_ignored_outOfRange :
    Ignored (Detector.new Arithmetic.floats (twelveBitsUpTo 4) anyJump)
      ((Detector.new Arithmetic.floats (twelveBitsUpTo 4) anyJump).processCanMessage?
        Arithmetic.floats shiftWithin oneByte) :=
  (shortFrame_ignored_iff Arithmetic.floats _ _ (by decide) (by decide) (by decide)).mpr
    ⟨by decide, Or.inl (by decide +kernel)⟩

def remembering : Detector Float32 Float32 where
  signalCfg := twelveBitsUpTo 2047
  jumpCondition := anyJump
  lastValidVal := -203
  currentVal := -203
  isInitialized := true
  onJump := true

/-- After a complete frame, the four bits of a short one make a jump from -203 to 5. -/
theorem not_ignored_shortFrame :
    Detector.processCanMessage? Arithmetic.floats shiftWithin
        (Detector.new Arithmetic.floats (twelveBitsUpTo 2047) anyJump).setJumpCallback
        twoBytes = some (remembering, []) ∧
      8 * oneByte.dataLen.toNat <
        remembering.signalCfg.startBit.toNat + remembering.signalCfg.signalLength.toNat ∧
      (remembering.processCanMessage? Arithmetic.floats shiftWithin oneByte).map Prod.snd =
        some [⟨-203, 5⟩] ∧
      ¬ Ignored remembering
        (remembering.processCanMessage? Arithmetic.floats shiftWithin oneByte) := by
  have hjump : (remembering.processCanMessage? Arithmetic.floats shiftWithin oneByte).map
      Prod.snd = some [⟨-203, 5⟩] := by decide +kernel
  refine ⟨by decide +kernel, by decide, hjump, ?_⟩
  rintro ⟨after, hsome, _⟩
  rw [hsome] at hjump
  cases hjump

/-- The range filter sees the rounded value: 2 ^ 24 + 1 is within a range that ends at
2 ^ 24. -/
example : isValidValue Arithmetic.floats (twelveBitsUpTo 16777216)
    (scaled Arithmetic.floats (twelveBitsUpTo 16777216) (Int32.ofNat 16777217)) = true := by
  decide +kernel

end CppProj.CanSignalJumpDetector
