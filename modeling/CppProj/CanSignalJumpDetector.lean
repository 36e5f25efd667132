import Mathlib.Algebra.Order.Ring.Rat
import Mathlib.Data.List.Basic
import Mathlib.Order.Interval.Set.Defs

/-!
# The jump detector of `state.cpp`

The fields of the configuration and of the condition are those the class reads; their
definitions are not in the repository, and neither are the types of their numbers.  The
class is modelled for any arithmetic, with rationals and with floats as two of them.
-/

namespace CppProj.CanSignalJumpDetector

/-- What the class computes with: its own variables are of the type `φ`, the numbers of the
configuration and of the condition of the type `α`. -/
structure Arithmetic (α φ : Type) where
  /-- What the constructor sets `last_valid_val` and `current_val` to. -/
  zero : φ
  /-- `raw_val * factor + offset` as it is assigned to `current_val`. -/
  physical (rawVal : Int32) (factor offset : α) : φ
  ge : φ → α → Bool
  le : φ → α → Bool
  eq : φ → α → Bool
  ne : φ → φ → Bool

def Arithmetic.rationals : Arithmetic ℚ ℚ where
  zero := 0
  physical rawVal factor offset := rawVal.toInt * factor + offset
  ge val bound := decide (bound ≤ val)
  le val bound := decide (val ≤ bound)
  eq val other := val == other
  ne val other := val != other

/-- The arithmetic of `float`, with each result rounded. -/
def Arithmetic.floats : Arithmetic Float32 Float32 where
  zero := 0
  physical rawVal factor offset := Float32.ofInt rawVal.toInt * factor + offset
  ge val bound := decide (bound ≤ val)
  le val bound := decide (val ≤ bound)
  eq val other := val == other
  ne val other := val != other

structure CanSignalConfig (α : Type) where
  canId : UInt32
  startBit : UInt8
  signalLength : UInt8
  isSigned : Bool
  factor : α
  offset : α
  minVal : α
  maxVal : α
  deriving DecidableEq

/-- The three kinds of condition; any other value of the enumeration takes the default
branch. -/
inductive JumpType where
  | jumpAny
  | jumpFromTo
  | jumpRangeToRange
  | other (value : ℕ)
  deriving DecidableEq

structure JumpCondition (α : Type) where
  type : JumpType
  fromVal : α
  toVal : α
  fromMin : α
  fromMax : α
  toMin : α
  toMax : α
  deriving DecidableEq

/-- The arguments of `processCanMessage`.  The buffer holds the announced bytes. -/
structure CanMessage where
  canId : UInt32
  data : List UInt8
  dataLen : UInt8
  complete : dataLen.toNat ≤ data.length

def CanMessage.byte (message : CanMessage) (index : UInt8) (h : index < message.dataLen) : UInt8 :=
  message.data.get
    ⟨index.toNat, lt_of_lt_of_le (UInt8.lt_iff_toNat_lt.mp h) message.complete⟩

structure Detector (α φ : Type) where
  signalCfg : CanSignalConfig α
  jumpCondition : JumpCondition α
  lastValidVal : φ
  currentVal : φ
  isInitialized : Bool
  /-- Whether `on_jump` holds a function. -/
  onJump : Bool
  deriving DecidableEq

structure Jump (φ : Type) where
  prev : φ
  curr : φ
  deriving DecidableEq

section Parsing

-- what a shift by a negative count, or by 32 and more, gives; the language leaves it
-- undefined
variable {α : Type} (undefinedShift : Int32 → ℤ → Int32)

def shiftLeft (value : Int32) (count : ℤ) : Int32 :=
  if 0 ≤ count ∧ count < 32 then value <<< Int32.ofInt count else undefinedShift value count

/-- The loop of `parseRawValue`, with so many bits still to read. -/
def parseLoop (cfg : CanSignalConfig α) (message : CanMessage) : ℕ → UInt8 → Int32 → Int32
  | 0, _, rawVal => rawVal
  | bits + 1, i, rawVal =>
      let bitPos := cfg.startBit + i
      let byteIdx := bitPos / 8
      let bitInByte := bitPos % 8
      if h : byteIdx < message.dataLen then
        let bit := (message.byte byteIdx h >>> bitInByte) &&& 1
        parseLoop cfg message bits (i + 1)
          (rawVal ||| shiftLeft undefinedShift (Int32.ofNat bit.toNat) i.toNat)
      else rawVal

def parseRawValue (cfg : CanSignalConfig α) (message : CanMessage) : Int32 :=
  let rawVal := parseLoop undefinedShift cfg message cfg.signalLength.toNat 0 0
  let signBit := shiftLeft undefinedShift 1 ((cfg.signalLength.toNat : ℤ) - 1)
  if cfg.isSigned && (rawVal &&& signBit) != 0 then
    rawVal - shiftLeft undefinedShift 1 cfg.signalLength.toNat
  else rawVal

end Parsing

section Values

variable {α φ : Type} (arithmetic : Arithmetic α φ)

def isValidValue (cfg : CanSignalConfig α) (val : φ) : Bool :=
  arithmetic.ge val cfg.minVal && arithmetic.le val cfg.maxVal

def checkJumpCondition (condition : JumpCondition α) (prev curr : φ) : Bool :=
  match condition.type with
  | .jumpAny => arithmetic.ne prev curr
  | .jumpFromTo => arithmetic.eq prev condition.fromVal && arithmetic.eq curr condition.toVal
  | .jumpRangeToRange =>
      let fromInRange :=
        arithmetic.ge prev condition.fromMin && arithmetic.le prev condition.fromMax
      let toInRange := arithmetic.ge curr condition.toMin && arithmetic.le curr condition.toMax
      fromInRange && toInRange
  | .other _ => false

def Detector.new (cfg : CanSignalConfig α) (cond : JumpCondition α) : Detector α φ where
  signalCfg := cfg
  jumpCondition := cond
  lastValidVal := arithmetic.zero
  currentVal := arithmetic.zero
  isInitialized := false
  onJump := false

def Detector.setJumpCallback (detector : Detector α φ) : Detector α φ :=
  { detector with onJump := true }

/-- `processCanMessage` after the call of `parseRawValue`, with the callback it makes. -/
def Detector.accept (detector : Detector α φ) (rawVal : Int32) :
    Detector α φ × List (Jump φ) :=
  let currentVal :=
    arithmetic.physical rawVal detector.signalCfg.factor detector.signalCfg.offset
  let detector := { detector with currentVal := currentVal }
  if !isValidValue arithmetic detector.signalCfg detector.currentVal then (detector, [])
  else if !detector.isInitialized then
    ({ detector with lastValidVal := detector.currentVal, isInitialized := true }, [])
  else
    let jumps :=
      if checkJumpCondition arithmetic detector.jumpCondition detector.lastValidVal
          detector.currentVal then
        if detector.onJump then [⟨detector.lastValidVal, detector.currentVal⟩] else []
      else []
    ({ detector with lastValidVal := detector.currentVal }, jumps)

/-- The value that a raw one stands for in a configuration. -/
def scaled (cfg : CanSignalConfig α) (rawVal : Int32) : φ :=
  arithmetic.physical rawVal cfg.factor cfg.offset

variable {arithmetic} {detector : Detector α φ} {rawVal : Int32}

theorem accept_of_invalid
    (hinvalid : isValidValue arithmetic detector.signalCfg
      (scaled arithmetic detector.signalCfg rawVal) = false) :
    detector.accept arithmetic rawVal =
      ({ detector with currentVal := scaled arithmetic detector.signalCfg rawVal }, []) := by
  simp only [scaled] at hinvalid ⊢
  simp [Detector.accept, hinvalid]

theorem accept_of_first
    (hvalid : isValidValue arithmetic detector.signalCfg
      (scaled arithmetic detector.signalCfg rawVal) = true)
    (hinit : detector.isInitialized = false) :
    detector.accept arithmetic rawVal =
      ({ detector with
          currentVal := scaled arithmetic detector.signalCfg rawVal
          lastValidVal := scaled arithmetic detector.signalCfg rawVal
          isInitialized := true }, []) := by
  simp only [scaled] at hvalid ⊢
  simp [Detector.accept, hvalid, hinit]

theorem accept_of_next
    (hvalid : isValidValue arithmetic detector.signalCfg
      (scaled arithmetic detector.signalCfg rawVal) = true)
    (hinit : detector.isInitialized = true) :
    detector.accept arithmetic rawVal =
      ({ detector with
          currentVal := scaled arithmetic detector.signalCfg rawVal
          lastValidVal := scaled arithmetic detector.signalCfg rawVal },
        if checkJumpCondition arithmetic detector.jumpCondition detector.lastValidVal
            (scaled arithmetic detector.signalCfg rawVal) then
          if detector.onJump then
            [⟨detector.lastValidVal, scaled arithmetic detector.signalCfg rawVal⟩]
          else []
        else []) := by
  simp only [scaled] at hvalid ⊢
  simp [Detector.accept, hvalid, hinit]
  rfl

end Values

section Processing

variable {α φ : Type} (arithmetic : Arithmetic α φ) (undefinedShift : Int32 → ℤ → Int32)

/-- The detector after a message, and the callback made for it. -/
def Detector.processCanMessage (detector : Detector α φ) (message : CanMessage) :
    Detector α φ × List (Jump φ) :=
  if message.canId ≠ detector.signalCfg.canId then (detector, [])
  else detector.accept arithmetic (parseRawValue undefinedShift detector.signalCfg message)

def Detector.callbacks (detector : Detector α φ) : List CanMessage → List (Jump φ)
  | [] => []
  | message :: rest =>
      let result := detector.processCanMessage arithmetic undefinedShift message
      result.2 ++ result.1.callbacks rest

end Processing

/-! ## What the detector is for

Values and jumps are exact from here on. -/

open Arithmetic

def JumpCondition.Holds (condition : JumpCondition ℚ) (jump : Jump ℚ) : Prop :=
  match condition.type with
  | .jumpAny => jump.prev ≠ jump.curr
  | .jumpFromTo => jump.prev = condition.fromVal ∧ jump.curr = condition.toVal
  | .jumpRangeToRange =>
      jump.prev ∈ Set.Icc condition.fromMin condition.fromMax ∧
        jump.curr ∈ Set.Icc condition.toMin condition.toMax
  | .other _ => False

theorem checkJumpCondition_iff (condition : JumpCondition ℚ) (prev curr : ℚ) :
    checkJumpCondition rationals condition prev curr = true ↔ condition.Holds ⟨prev, curr⟩ := by
  unfold checkJumpCondition JumpCondition.Holds
  cases condition.type with
  | jumpAny => simp [rationals]
  | jumpFromTo => simp [rationals]
  | jumpRangeToRange => simp [rationals, and_assoc]
  | other value => simp

instance (condition : JumpCondition ℚ) : DecidablePred condition.Holds :=
  fun jump => decidable_of_iff _ (checkJumpCondition_iff condition jump.prev jump.curr)

theorem isValidValue_iff (cfg : CanSignalConfig ℚ) (val : ℚ) :
    isValidValue rationals cfg val = true ↔ val ∈ Set.Icc cfg.minVal cfg.maxVal := by
  simp [isValidValue, rationals]

/-- Each value of the list with the one after it. -/
def adjacentPairs : List ℚ → List (Jump ℚ)
  | prev :: curr :: rest => ⟨prev, curr⟩ :: adjacentPairs (curr :: rest)
  | _ => []

section Specification

variable (undefinedShift : Int32 → ℤ → Int32)

def physicalValue (cfg : CanSignalConfig ℚ) (message : CanMessage) : ℚ :=
  (parseRawValue undefinedShift cfg message).toInt * cfg.factor + cfg.offset

theorem scaled_parseRawValue (cfg : CanSignalConfig ℚ) (message : CanMessage) :
    scaled rationals cfg (parseRawValue undefinedShift cfg message) =
      physicalValue undefinedShift cfg message :=
  rfl

/-- The message has the target id and a value within the bounds. -/
def Counts (cfg : CanSignalConfig ℚ) (message : CanMessage) : Prop :=
  message.canId = cfg.canId ∧
    physicalValue undefinedShift cfg message ∈ Set.Icc cfg.minVal cfg.maxVal

instance (cfg : CanSignalConfig ℚ) : DecidablePred (Counts undefinedShift cfg) :=
  fun _ => decidable_of_iff _ (and_congr Iff.rfl (isValidValue_iff cfg _))

def validValues (cfg : CanSignalConfig ℚ) (messages : List CanMessage) : List ℚ :=
  (messages.filter (Counts undefinedShift cfg)).map (physicalValue undefinedShift cfg)

end Specification

/-! ## One message -/

/-- The value which the next valid one is compared with. -/
def Detector.remembered (detector : Detector ℚ ℚ) : List ℚ :=
  if detector.isInitialized then [detector.lastValidVal] else []

section OneMessage

variable {undefinedShift : Int32 → ℤ → Int32}

/-- A message that does not count leaves everything but `current_val`. -/
theorem processCanMessage_of_not_counts {detector : Detector ℚ ℚ} {message : CanMessage}
    (hignored : ¬ Counts undefinedShift detector.signalCfg message) :
    ∃ value, detector.processCanMessage rationals undefinedShift message =
      ({ detector with currentVal := value }, []) := by
  by_cases hid : message.canId = detector.signalCfg.canId
  · refine ⟨physicalValue undefinedShift detector.signalCfg message, ?_⟩
    have hinvalid : isValidValue rationals detector.signalCfg
        (physicalValue undefinedShift detector.signalCfg message) = false := by
      rw [Bool.eq_false_iff]
      intro hvalid
      exact hignored ⟨hid, (isValidValue_iff _ _).mp hvalid⟩
    rw [Detector.processCanMessage, if_neg (not_not.mpr hid)]
    exact accept_of_invalid hinvalid
  · exact ⟨detector.currentVal, by simp [Detector.processCanMessage, hid]⟩

theorem processCanMessage_of_other_id {detector : Detector ℚ ℚ} {message : CanMessage}
    (hid : message.canId ≠ detector.signalCfg.canId) :
    detector.processCanMessage rationals undefinedShift message = (detector, []) := by
  simp [Detector.processCanMessage, hid]

/-- A message that counts is remembered, and compared with the value remembered before. -/
theorem processCanMessage_of_counts {detector : Detector ℚ ℚ} {message : CanMessage}
    (hcounts : Counts undefinedShift detector.signalCfg message) (hon : detector.onJump = true) :
    let value := physicalValue undefinedShift detector.signalCfg message
    detector.processCanMessage rationals undefinedShift message =
      ({ detector with currentVal := value, lastValidVal := value, isInitialized := true },
        (adjacentPairs (detector.remembered ++ [value])).filter detector.jumpCondition.Holds) := by
  intro value
  obtain ⟨hid, hrange⟩ := hcounts
  have hvalid : isValidValue rationals detector.signalCfg value = true :=
    (isValidValue_iff _ _).mpr hrange
  rw [Detector.processCanMessage, if_neg (not_not.mpr hid)]
  cases hinit : detector.isInitialized with
  | false =>
      rw [accept_of_first hvalid hinit]
      simp [Detector.remembered, hinit, adjacentPairs, value, scaled_parseRawValue]
  | true =>
      rw [accept_of_next hvalid hinit, scaled_parseRawValue]
      by_cases hjump : detector.jumpCondition.Holds ⟨detector.lastValidVal, value⟩
      · have hcheck := (checkJumpCondition_iff _ _ _).mpr hjump
        simp [Detector.remembered, hinit, adjacentPairs, hcheck, hon, hjump, value]
      · have hcheck : checkJumpCondition rationals detector.jumpCondition detector.lastValidVal
            value = false := by
          rw [Bool.eq_false_iff]
          exact fun h => hjump ((checkJumpCondition_iff _ _ _).mp h)
        simp [Detector.remembered, hinit, adjacentPairs, hcheck, hjump, value]

end OneMessage

/-! ## Lists of messages -/

section Lists

variable {undefinedShift : Int32 → ℤ → Int32}

theorem callbacks_currentVal (detector : Detector ℚ ℚ) (value : ℚ) (messages : List CanMessage) :
    Detector.callbacks rationals undefinedShift { detector with currentVal := value } messages =
      detector.callbacks rationals undefinedShift messages := by
  induction messages generalizing detector value with
  | nil => rfl
  | cons message messages ih =>
      simp only [Detector.callbacks]
      by_cases hid : message.canId = detector.signalCfg.canId
      · have hsame : Detector.processCanMessage rationals undefinedShift
            { detector with currentVal := value } message =
              detector.processCanMessage rationals undefinedShift message := by
          simp [Detector.processCanMessage, Detector.accept, hid]
        rw [hsame]
      · have hupdated : Detector.processCanMessage rationals undefinedShift
            { detector with currentVal := value } message =
              ({ detector with currentVal := value }, []) :=
          processCanMessage_of_other_id hid
        rw [hupdated, processCanMessage_of_other_id hid, ih]

theorem callbacks_cons_of_not_counts {detector : Detector ℚ ℚ} {message : CanMessage}
    (hignored : ¬ Counts undefinedShift detector.signalCfg message) (rest : List CanMessage) :
    detector.callbacks rationals undefinedShift (message :: rest) =
      detector.callbacks rationals undefinedShift rest := by
  obtain ⟨value, hprocess⟩ := processCanMessage_of_not_counts hignored
  simp only [Detector.callbacks, hprocess, List.nil_append]
  exact callbacks_currentVal detector value rest

theorem adjacentPairs_append_cons (remembered : List ℚ) (value : ℚ) (rest : List ℚ)
    (hshort : remembered.length ≤ 1) :
    adjacentPairs (remembered ++ value :: rest) =
      adjacentPairs (remembered ++ [value]) ++ adjacentPairs (value :: rest) := by
  match remembered, hshort with
  | [], _ => simp [adjacentPairs]
  | [prev], _ => simp [adjacentPairs]

theorem remembered_length (detector : Detector ℚ ℚ) : detector.remembered.length ≤ 1 := by
  unfold Detector.remembered
  split
  · exact le_rfl
  · exact Nat.zero_le 1

theorem callbacks_eq (detector : Detector ℚ ℚ) (hon : detector.onJump = true)
    (messages : List CanMessage) :
    detector.callbacks rationals undefinedShift messages =
      (adjacentPairs (detector.remembered ++
        validValues undefinedShift detector.signalCfg messages)).filter
          detector.jumpCondition.Holds := by
  induction messages generalizing detector with
  | nil =>
      cases hinit : detector.isInitialized with
      | false => simp [Detector.callbacks, validValues, Detector.remembered, hinit, adjacentPairs]
      | true => simp [Detector.callbacks, validValues, Detector.remembered, hinit, adjacentPairs]
  | cons message messages ih =>
      by_cases hcounts : Counts undefinedShift detector.signalCfg message
      · simp only [Detector.callbacks, processCanMessage_of_counts hcounts hon]
        rw [ih _ (by exact hon)]
        have hvalues : validValues undefinedShift detector.signalCfg (message :: messages) =
            physicalValue undefinedShift detector.signalCfg message ::
              validValues undefinedShift detector.signalCfg messages := by
          simp [validValues, hcounts]
        rw [hvalues, adjacentPairs_append_cons detector.remembered _
          (validValues undefinedShift detector.signalCfg messages) (remembered_length detector),
          List.filter_append]
        rfl
      · rw [callbacks_cons_of_not_counts hcounts, ih detector hon]
        simp [validValues, hcounts]

end Lists

/-- The callbacks are the adjacent pairs of valid values that meet the condition.  A
message of another id leaves the detector as it is; one with a value out of range changes
`current_val` only, which nothing reads before the next message has set it. -/
theorem callbacks_eq_jumps (undefinedShift : Int32 → ℤ → Int32) (cfg : CanSignalConfig ℚ)
    (cond : JumpCondition ℚ) (messages : List CanMessage) :
    (Detector.new rationals cfg cond).setJumpCallback.callbacks rationals undefinedShift messages =
        (adjacentPairs (validValues undefinedShift cfg messages)).filter cond.Holds ∧
      (∀ (detector : Detector ℚ ℚ) (message : CanMessage),
        message.canId ≠ detector.signalCfg.canId →
          detector.processCanMessage rationals undefinedShift message = (detector, [])) ∧
      (∀ (detector : Detector ℚ ℚ) (message : CanMessage),
        ¬ Counts undefinedShift detector.signalCfg message →
          (∃ value, detector.processCanMessage rationals undefinedShift message =
            ({ detector with currentVal := value }, [])) ∧
          ∀ rest, detector.callbacks rationals undefinedShift (message :: rest) =
            detector.callbacks rationals undefinedShift rest) := by
  refine ⟨callbacks_eq (Detector.new rationals cfg cond).setJumpCallback rfl messages, ?_, ?_⟩
  · intro detector message hid
    exact processCanMessage_of_other_id hid
  · intro detector message hignored
    exact ⟨processCanMessage_of_not_counts hignored,
      callbacks_cons_of_not_counts hignored⟩

end CppProj.CanSignalJumpDetector
