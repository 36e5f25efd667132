import CppProj.FixedWidthRecords

/-!
# The types of the performance tests

`ThroughputTypes.hpp` and `LatencyTestTypes.hpp` define by hand the topics of
both tests: a command of fixed size and a sample whose size is known only at
run time.  All members are copied with `memcpy` on a little-endian machine, and
a copy outside the payload has no result.
-/

namespace CppProj.PerformanceTypes

open BitFields FixedWidthRecords

structure SerializedPayload where
  data : List UInt8
  length : ℕ
  pos : ℕ
  deriving DecidableEq

def representationHeaderSize : ℕ := 4

def word (value : UInt32) : Field := toBytes 4 value.toNat

def doubleWord (value : UInt64) : Field := toBytes 8 value.toNat

def readWord (field : Field) : UInt32 := UInt32.ofNat (littleEndian field)

def readDoubleWord (field : Field) : UInt64 := UInt64.ofNat (littleEndian field)

@[simp] theorem length_word (value : UInt32) : (word value).length = 4 :=
  length_toBytes 4 value.toNat

@[simp] theorem length_doubleWord (value : UInt64) : (doubleWord value).length = 8 :=
  length_toBytes 8 value.toNat

@[simp] theorem readWord_word (value : UInt32) : readWord (word value) = value := by
  have hfits : value.toNat < 256 ^ 4 := value.toNat_lt
  rw [readWord, word, littleEndian_toBytes hfits, UInt32.ofNat_toNat]

@[simp] theorem readDoubleWord_doubleWord (value : UInt64) :
    readDoubleWord (doubleWord value) = value := by
  have hfits : value.toNat < 256 ^ 8 := value.toNat_lt
  rw [readDoubleWord, doubleWord, littleEndian_toBytes hfits, UInt64.ofNat_toNat]

/-! ## Commands -/

/-- `e_Command` -/
inductive Command where
  | default
  | readyToStart
  | begin
  | testStarts
  | testEnds
  | typeNew
  | typeDispose
  | typeRemoved
  | allStops
  | testResults
  deriving DecidableEq

namespace Command

def code : Command → UInt32
  | default => 0
  | readyToStart => 1
  | begin => 2
  | testStarts => 3
  | testEnds => 4
  | typeNew => 5
  | typeDispose => 6
  | typeRemoved => 7
  | allStops => 8
  | testResults => 9

/-- The label that a `switch` takes.  Codes without a name go the way of `DEFAULT`. -/
def ofCode (code : UInt32) : Command :=
  match code.toNat with
  | 1 => readyToStart
  | 2 => begin
  | 3 => testStarts
  | 4 => testEnds
  | 5 => typeNew
  | 6 => typeDispose
  | 7 => typeRemoved
  | 8 => allStops
  | 9 => testResults
  | _ => default

@[simp] theorem ofCode_code (command : Command) : ofCode command.code = command := by
  cases command <;> rfl

end Command

/-- `m_command` may hold any code, the enumeration has a fixed underlying type. -/
structure ThroughputCommandType where
  m_command : UInt32
  m_size : UInt32
  m_demand : UInt32
  m_receivedsamples : UInt64
  m_lostsamples : UInt32
  m_lastrecsample : UInt64
  m_totaltime : UInt64
  deriving DecidableEq

/-- A command with the default values of its other members. -/
def ThroughputCommandType.ofCommand (command : Command) : ThroughputCommandType where
  m_command := command.code
  m_size := 0
  m_demand := 0
  m_receivedsamples := 0
  m_lostsamples := 0
  m_lastrecsample := 0
  m_totaltime := 0

def ThroughputCommandType.command (message : ThroughputCommandType) : Command :=
  Command.ofCode message.m_command

namespace ThroughputCommandDataType

def maxSerializedTypeSize : ℕ := 4 * 4 + 3 * 8 + 8

def calculateSerializedSize : ℕ := 4 + 4 + 4 + 4 + 8 + 8 + 8

/-- The members in the order in which they are copied. -/
def members (command : ThroughputCommandType) : List Field :=
  [word command.m_command, word command.m_size, word command.m_demand,
    word command.m_lostsamples, doubleWord command.m_receivedsamples,
    doubleWord command.m_lastrecsample, doubleWord command.m_totaltime]

def serialize (command : ThroughputCommandType) (payload : SerializedPayload) :
    Option SerializedPayload :=
  (putAll (members command) ⟨payload.data, 0⟩).map fun cursor =>
    { payload with data := cursor.data, length := cursor.position }

def deserialize (payload : SerializedPayload) : Option ThroughputCommandType :=
  match getAll [4, 4, 4, 4, 8, 8, 8] ⟨payload.data, 0⟩ with
  | some [command, size, demand, lostsamples, receivedsamples, lastrecsample, totaltime] =>
      some
        { m_command := readWord command
          m_size := readWord size
          m_demand := readWord demand
          m_lostsamples := readWord lostsamples
          m_receivedsamples := readDoubleWord receivedsamples
          m_lastrecsample := readDoubleWord lastrecsample
          m_totaltime := readDoubleWord totaltime }
  | _ => none

theorem size_members (command : ThroughputCommandType) :
    size (members command) = calculateSerializedSize := by
  simp only [members, size_cons, size_nil, length_word, length_doubleWord]
  rfl

/-- A command takes as many bytes as are calculated for it, and comes back from
every payload that has them. -/
theorem serialize_command (command : ThroughputCommandType) (payload : SerializedPayload) :
    (payload.data.length < calculateSerializedSize → serialize command payload = none) ∧
      (calculateSerializedSize ≤ payload.data.length →
        ∃ written, serialize command payload = some written ∧
          written.length = calculateSerializedSize ∧
          written.data.length = payload.data.length ∧
          deserialize written = some command) := by
  constructor
  · intro hshort
    have hnone : putAll (members command) ⟨payload.data, 0⟩ = none :=
      putAll_of_no_room (Nat.zero_le _) (by rw [size_members]; omega)
    rw [serialize, hnone, Option.map_none]
  · intro hroom
    have hsize : 0 + size (members command) ≤ payload.data.length := by
      rw [size_members]
      omega
    have hread := getAll_overwrite (members command) (Nat.zero_le payload.data.length)
    have hwidths : (members command).map List.length = [4, 4, 4, 4, 8, 8, 8] := by
      simp only [members, List.map_cons, List.map_nil, length_word, length_doubleWord]
    rw [hwidths] at hread
    refine ⟨_, by rw [serialize, putAll_of_room hsize, Option.map_some], ?_, ?_, ?_⟩
    · rw [size_members, Nat.zero_add]
    · exact length_overwrite (by rw [length_flatten]; exact hsize)
    · unfold deserialize
      dsimp only
      rw [hread]
      simp only [members, readWord_word, readDoubleWord_doubleWord]

end ThroughputCommandDataType

structure TestCommandType where
  m_command : UInt32
  deriving DecidableEq

namespace TestCommandDataType

def maxSerializedTypeSize : ℕ := 4

def calculateSerializedSize : ℕ := 4

def serialize (command : TestCommandType) (payload : SerializedPayload) :
    Option SerializedPayload :=
  (put (word command.m_command) ⟨payload.data, 0⟩).map fun cursor =>
    { payload with data := cursor.data, length := 4 }

def deserialize (payload : SerializedPayload) : Option TestCommandType :=
  (get 4 ⟨payload.data, 0⟩).map fun (command, _) => ⟨readWord command⟩

theorem serialize_command (command : TestCommandType) (payload : SerializedPayload) :
    (payload.data.length < calculateSerializedSize → serialize command payload = none) ∧
      (calculateSerializedSize ≤ payload.data.length →
        ∃ written, serialize command payload = some written ∧
          written.length = calculateSerializedSize ∧
          written.data.length = payload.data.length ∧
          deserialize written = some command) := by
  have hlength := length_word command.m_command
  constructor
  · intro hshort
    rw [calculateSerializedSize] at hshort
    rw [serialize, put_of_no_room (by omega), Option.map_none]
  · intro hroom
    rw [calculateSerializedSize] at hroom
    have hput : 0 + (word command.m_command).length ≤ payload.data.length := by omega
    have hread := getAll_overwrite [word command.m_command] (Nat.zero_le payload.data.length)
    have hwritten := length_overwrite hput
    refine ⟨_, by rw [serialize, put_of_room hput, Option.map_some], rfl, hwritten, ?_⟩
    rw [List.map_singleton, hlength, List.flatten_singleton, getAll,
      get_of_room (by omega)] at hread
    simp only [Option.bind_some, getAll, Option.map_some, Option.some.injEq,
      List.cons.injEq, and_true] at hread
    rw [deserialize, get_of_room (by dsimp only; omega), Option.map_some, hread]
    dsimp only
    rw [readWord_word]

end TestCommandDataType

/-! ## Samples -/

/-- What the two data types have in common: a number of 32-bit members before
the bytes of the sample, how many bytes there are, and the size that is
reserved for all of it. -/
structure DataType where
  headerWords : ℕ
  bufferSize : ℕ
  maxSerializedTypeSize : ℕ

def ThroughputDataType (size : UInt32) : DataType where
  headerWords := 1
  bufferSize := size.toNat
  maxSerializedTypeSize :=
    (4 + ((size + 3) &&& ~~~3).toUInt64 + UInt64.ofNat representationHeaderSize).toUInt32.toNat

def LatencyDataType (size : UInt64) : DataType where
  headerWords := 2
  bufferSize := size.toNat
  maxSerializedTypeSize :=
    (4 + 4 + ((size + 3) &&& ~~~3) + UInt64.ofNat representationHeaderSize).toUInt32.toNat

/-- `MAX_TYPE_SIZE` -/
def maxTypeSize : ℕ := 10 * 1024 * 1024

/-- The data type without a size.  Its overhead is the one of a `LatencyType`
and the header of the payload. -/
def LatencyDataType.default : DataType where
  headerWords := 2
  bufferSize := maxTypeSize - (8 + representationHeaderSize)
  maxSerializedTypeSize := maxTypeSize

/-- The members of a `ThroughputType` are `seqnum`, those of a `LatencyType`
`seqnum` and `bounce`. -/
structure DataSample where
  header : List UInt32
  data : List UInt8
  deriving DecidableEq

namespace DataType

structure Holds (type : DataType) (sample : DataSample) : Prop where
  header : sample.header.length = type.headerWords
  data : sample.data.length = type.bufferSize

def encapsulation : Field := [0x0, 0x1, 0x0, 0x0]

def members (sample : DataSample) : List Field :=
  sample.header.map word ++ [sample.data]

def serialize (type : DataType) (sample : DataSample) (payload : SerializedPayload) :
    Option SerializedPayload :=
  (putAll (encapsulation :: members sample) ⟨payload.data, 0⟩).map fun cursor =>
    { payload with data := cursor.data, length := type.maxSerializedTypeSize }

def deserialize (type : DataType) (payload : SerializedPayload) : Option DataSample :=
  (getAll (List.replicate type.headerWords 4 ++ [type.bufferSize])
    ⟨payload.data, representationHeaderSize⟩).map fun fields =>
      ⟨(fields.take type.headerWords).map readWord, (fields.drop type.headerWords).flatten⟩

/-- `ThroughputDataType::deserialize` leaves the sample alone when the payload is empty. -/
def deserializeNonempty (type : DataType) (payload : SerializedPayload) (sample : DataSample) :
    Option DataSample :=
  if payload.length > 0 then type.deserialize payload else some sample

/-- The bytes of `create_data` that a sample takes. -/
def objectSize (type : DataType) : ℕ := 4 * type.headerWords + type.bufferSize

/-- Samples fit their objects, and every one of them comes back from a payload
of the calculated size. -/
structure Carries (type : DataType) : Prop where
  object : type.objectSize ≤ type.maxSerializedTypeSize
  payload : ∀ sample payload, type.Holds sample →
    payload.data.length = type.maxSerializedTypeSize →
    ∃ written, type.serialize sample payload = some written ∧
      written.length = type.maxSerializedTypeSize ∧
      type.deserialize written = some sample ∧
      ∀ old, type.deserializeNonempty written old = some sample

theorem size_words (words : List UInt32) (data : List UInt8) :
    size (words.map word ++ [data]) = 4 * words.length + data.length := by
  induction words with
  | nil => simp
  | cons value rest ih =>
      rw [List.map_cons, List.cons_append, size_cons, ih, length_word, List.length_cons]
      omega

theorem map_length_words (words : List UInt32) (data : List UInt8) :
    (words.map word ++ [data]).map List.length =
      List.replicate words.length 4 ++ [data.length] := by
  induction words with
  | nil => rfl
  | cons value rest ih =>
      rw [List.map_cons, List.cons_append, List.map_cons, ih, length_word, List.length_cons,
        List.replicate_succ, List.cons_append]

theorem map_readWord_words (words : List UInt32) :
    (words.map word).map readWord = words := by
  rw [List.map_map]
  exact (List.map_congr_left fun value _ => readWord_word value).trans (List.map_id words)

variable {type : DataType} {sample : DataSample} {payload : SerializedPayload}

theorem Holds.size_members (hholds : type.Holds sample) :
    size (members sample) = type.objectSize := by
  rw [members, size_words, hholds.header, hholds.data]
  rfl

/-- The bytes that a sample takes in a payload. -/
theorem Holds.size_payload (hholds : type.Holds sample) :
    size (encapsulation :: members sample) = representationHeaderSize + type.objectSize := by
  rw [size_cons, hholds.size_members]
  rfl

theorem Holds.serialize_of_no_room (hholds : type.Holds sample)
    (hshort : payload.data.length < representationHeaderSize + type.objectSize) :
    type.serialize sample payload = none := by
  have hnone : putAll (encapsulation :: members sample) ⟨payload.data, 0⟩ = none :=
    putAll_of_no_room (Nat.zero_le _) (by rw [hholds.size_payload]; omega)
  rw [serialize, hnone, Option.map_none]

theorem Holds.serialize_of_room (hholds : type.Holds sample)
    (hroom : representationHeaderSize + type.objectSize ≤ payload.data.length) :
    ∃ written, type.serialize sample payload = some written ∧
      written.length = type.maxSerializedTypeSize ∧
      type.deserialize written = some sample := by
  have hsize : 0 + size (encapsulation :: members sample) ≤ payload.data.length := by
    rw [hholds.size_payload]
    omega
  refine ⟨_, by rw [serialize, putAll_of_room hsize, Option.map_some], rfl, ?_⟩
  -- The members stand behind the encapsulation, as one record.
  have hheader : 0 + encapsulation.length ≤ payload.data.length := by
    have hlength : encapsulation.length = representationHeaderSize := rfl
    omega
  have hrest : representationHeaderSize ≤ (overwrite payload.data 0 encapsulation).length := by
    rw [length_overwrite hheader]
    omega
  have hread := getAll_overwrite (members sample) hrest
  have hjoin : overwrite (overwrite payload.data 0 encapsulation) (0 + encapsulation.length)
        (members sample).flatten =
      overwrite payload.data 0 (encapsulation ++ (members sample).flatten) :=
    overwrite_overwrite hheader
  have hposition : 0 + encapsulation.length = representationHeaderSize := rfl
  rw [hposition] at hjoin
  rw [hjoin, members, map_length_words, hholds.header, hholds.data] at hread
  unfold deserialize
  dsimp only
  rw [List.flatten_cons, members, hread, Option.map_some, ← hholds.header,
    List.take_left' (List.length_map _), List.drop_left' (List.length_map _),
    map_readWord_words, List.flatten_singleton]

/-- The sample of zeros. -/
def zeroSample (type : DataType) : DataSample :=
  ⟨List.replicate type.headerWords 0, List.replicate type.bufferSize 0⟩

theorem holds_zeroSample (type : DataType) : type.Holds type.zeroSample where
  header := List.length_replicate
  data := List.length_replicate

/-- Whether samples are carried is a question of sizes. -/
theorem carries_iff (type : DataType) :
    type.Carries ↔ representationHeaderSize + type.objectSize ≤ type.maxSerializedTypeSize := by
  constructor
  · intro hcarries
    by_contra hshort
    obtain ⟨written, hwritten, -⟩ := hcarries.payload type.zeroSample
      ⟨List.replicate type.maxSerializedTypeSize 0, 0, 0⟩ type.holds_zeroSample
      List.length_replicate
    rw [type.holds_zeroSample.serialize_of_no_room] at hwritten
    · cases hwritten
    · rw [List.length_replicate]
      omega
  · intro hroom
    constructor
    case object => omega
    case payload =>
      intro sample payload hholds hlength
      have hobject : representationHeaderSize + type.objectSize ≤ payload.data.length := by omega
      obtain ⟨written, hwritten, hwrittenLength, hread⟩ := hholds.serialize_of_room hobject
      have hpositive : written.length > 0 := by
        have hheader : representationHeaderSize = 4 := rfl
        omega
      refine ⟨written, hwritten, hwrittenLength, hread, fun old => ?_⟩
      rw [deserializeNonempty, if_pos hpositive, hread]

end DataType

/-- `(number + 3) & ~3` without the wrapping. -/
theorem and_not_three {number width : ℕ} (hwidth : 2 ≤ width) (hlt : number < 2 ^ width) :
    number &&& (2 ^ width - 4) = number / 4 * 4 := by
  have hmask : 2 ^ width - 4 = 2 ^ 2 * (2 ^ (width - 2) - 1) := by
    rw [Nat.mul_sub, ← pow_add, Nat.add_sub_cancel' hwidth]
    rfl
  have hquotient : number / 4 * 4 = 2 ^ 2 * (number / 2 ^ 2) := Nat.mul_comm _ _
  apply Nat.eq_of_testBit_eq
  intro position
  rw [Nat.testBit_and, hmask, hquotient, Nat.testBit_two_pow_mul, Nat.testBit_two_pow_mul,
    Nat.testBit_two_pow_sub_one, Nat.testBit_div_two_pow]
  by_cases hlow : 2 ≤ position
  · rw [Nat.sub_add_cancel hlow]
    by_cases hhigh : position < width
    · simp [hlow, show position - 2 < width - 2 by omega]
    · have hzero : number.testBit position = false := by
        apply Nat.testBit_lt_two_pow
        exact hlt.trans_le (Nat.pow_le_pow_right (by omega) (by omega))
      simp [hzero]
  · simp [hlow]

theorem maxSerializedTypeSize_throughput (size : UInt32) :
    (ThroughputDataType size).maxSerializedTypeSize =
      ((size.toNat + 3) % 2 ^ 32 / 4 * 4 + 8) % 2 ^ 32 := by
  have hlt : (size.toNat + 3) % 2 ^ 32 < 2 ^ 32 := Nat.mod_lt _ (by omega)
  have haligned := and_not_three (by omega) hlt
  have hmask : (~~~3 : UInt32).toNat = 2 ^ 32 - 4 := rfl
  have hthree : (3 : UInt32).toNat = 3 := rfl
  have hfour : (4 : UInt64).toNat = 4 := rfl
  have hheader : (UInt64.ofNat representationHeaderSize).toNat = 4 := rfl
  simp only [ThroughputDataType, UInt64.toNat_toUInt32, UInt64.toNat_add, UInt32.toNat_toUInt64,
    UInt32.toNat_and, UInt32.toNat_add, hmask, hthree, hfour, hheader, haligned]
  omega

theorem maxSerializedTypeSize_latency (size : UInt64) :
    (LatencyDataType size).maxSerializedTypeSize =
      ((size.toNat + 3) % 2 ^ 64 / 4 * 4 + 12) % 2 ^ 32 := by
  have hlt : (size.toNat + 3) % 2 ^ 64 < 2 ^ 64 := Nat.mod_lt _ (by omega)
  have haligned := and_not_three (by omega) hlt
  have hmask : (~~~3 : UInt64).toNat = 2 ^ 64 - 4 := rfl
  have hthree : (3 : UInt64).toNat = 3 := rfl
  have hfour : (4 : UInt64).toNat = 4 := rfl
  have hheader : (UInt64.ofNat representationHeaderSize).toNat = 4 := rfl
  simp only [LatencyDataType, UInt64.toNat_toUInt32, UInt64.toNat_add, UInt64.toNat_and,
    hmask, hthree, hfour, hheader, haligned]
  omega

/-- Exactly the sizes up to 2³² − 12 and 2³² − 16 give data types whose samples
fit what is reserved for them.  Above, the aligned size wraps and the copies
leave the payload. -/
theorem dataTypes_carry :
    (∀ size : UInt32, (ThroughputDataType size).Carries ↔ size.toNat ≤ 2 ^ 32 - 12) ∧
      (∀ size : UInt64, (LatencyDataType size).Carries ↔ size.toNat ≤ 2 ^ 32 - 16) ∧
      LatencyDataType.default.Carries := by
  have hheader : representationHeaderSize = 4 := rfl
  refine ⟨fun size => ?_, fun size => ?_, ?_⟩
  · have hlt := size.toNat_lt
    have hobject : (ThroughputDataType size).objectSize = 4 + size.toNat := rfl
    rw [DataType.carries_iff, maxSerializedTypeSize_throughput, hobject, hheader]
    omega
  · have hlt := size.toNat_lt
    have hobject : (LatencyDataType size).objectSize = 8 + size.toNat := rfl
    rw [DataType.carries_iff, maxSerializedTypeSize_latency, hobject, hheader]
    omega
  · rw [DataType.carries_iff]
    decide

/-- Both commands of the tests survive their payloads, and none leaves a
payload of the size that is calculated for it. -/
theorem commands_survive :
    ThroughputCommandDataType.calculateSerializedSize ≤
        ThroughputCommandDataType.maxSerializedTypeSize ∧
      TestCommandDataType.calculateSerializedSize ≤
        TestCommandDataType.maxSerializedTypeSize ∧
    (∀ (command : ThroughputCommandType) (payload : SerializedPayload),
      (payload.data.length < ThroughputCommandDataType.calculateSerializedSize →
        ThroughputCommandDataType.serialize command payload = none) ∧
      (ThroughputCommandDataType.calculateSerializedSize ≤ payload.data.length →
        ∃ written, ThroughputCommandDataType.serialize command payload = some written ∧
          written.length = ThroughputCommandDataType.calculateSerializedSize ∧
          written.data.length = payload.data.length ∧
          ThroughputCommandDataType.deserialize written = some command)) ∧
    (∀ (command : TestCommandType) (payload : SerializedPayload),
      (payload.data.length < TestCommandDataType.calculateSerializedSize →
        TestCommandDataType.serialize command payload = none) ∧
      (TestCommandDataType.calculateSerializedSize ≤ payload.data.length →
        ∃ written, TestCommandDataType.serialize command payload = some written ∧
          written.length = TestCommandDataType.calculateSerializedSize ∧
          written.data.length = payload.data.length ∧
          TestCommandDataType.deserialize written = some command)) :=
  ⟨by decide, by decide, ThroughputCommandDataType.serialize_command,
    TestCommandDataType.serialize_command⟩

end CppProj.PerformanceTypes
