import CppProj.TransitionSystem
import Mathlib.Data.Fin.Basic
import Mathlib.Logic.Function.Basic

/-!
# The latency test

One publisher and its subscribers in `performance/latency`, with static types.
For every payload the publisher writes `READY`, waits for a `BEGIN` of every
subscriber, sends numbered samples that the subscribers echo, writes `STOP` and
waits for an `END` of every subscriber.

The command topics are reliable, so the commands of each party are a log.  The
data topics keep the order of the samples of one writer, and any of them may be
lost.  The middleware decides when something arrives, what the clock reads and
which of its calls succeed.  Whether a round trip is positive and whether it is
too long are left open, as they are told from floating-point numbers.

`test` of the publisher stores the numbers of its samples and its start times
without `mutex_`, which the listener of the echoes holds, so every store of the
one and every access of the other is a step of its own.  A subscriber takes
and echoes a sample in one step.
-/

namespace CppProj.LatencyTest

/-- `TESTCOMMAND` -/
inductive TestCommand where
  | default
  | ready
  | begin
  | stop
  | end_
  | stopError
  deriving DecidableEq

/-- A sample without its payload. -/
structure LatencyType where
  seqnum : UInt32
  bounce : UInt32
  deriving DecidableEq

structure Parameters where
  dataSizes : List UInt32
  samples : UInt32
  echo : Bool
  dataLoans : Bool

/-! ## A subscriber -/

/-- Where `run` and `test` of a subscriber stand. -/
inductive Subscriber.Phase where
  | awaitReady
  | preparing
  | discovery
  | beginning
  | awaitStop
  | deletingData
  | removing
  | ending
  | acknowledgment
  | returned
  deriving DecidableEq

/-- `payloads` is the rest of `data_size_sub_`, `endpoints` the size of the type
of the data endpoints and `data` whether `latency_data_` exists.  `heard` counts
the commands of the publisher that the listener has taken, and `commands` are
its own.  `dangling` says that the listener has used `latency_data_` after it
was deleted. -/
structure Subscriber where
  phase : Subscriber.Phase
  payloads : List UInt32
  endpoints : Option UInt32
  data : Bool
  heard : ℕ
  commandMsgCount : ℕ
  testStatus : ℤ
  commands : List TestCommand
  dangling : Bool
  deriving DecidableEq

namespace Subscriber

/-- The head of the loop over the payloads. -/
def nextPayload (subscriber : Subscriber) : Subscriber :=
  { subscriber with phase := if subscriber.payloads = [] then .returned else .awaitReady }

def initial (parameters : Parameters) : Subscriber :=
  nextPayload
    { phase := .awaitReady
      payloads := parameters.dataSizes
      endpoints := none
      data := false
      heard := 0
      commandMsgCount := 0
      testStatus := 0
      commands := []
      dangling := false }

/-- `CommandReaderListener::on_data_available` -/
def hear (subscriber : Subscriber) (command : TestCommand) : Subscriber :=
  { subscriber with
    heard := subscriber.heard + 1
    testStatus := if command = .stopError then -1 else subscriber.testStatus
    commandMsgCount :=
      if command = .default then subscriber.commandMsgCount
      else subscriber.commandMsgCount + 1 }

/-- `wait_for_command` ends. -/
def commandCome (subscriber : Subscriber) : Option Subscriber :=
  if subscriber.commandMsgCount = 0 then none
  else
    match subscriber.phase with
    | .awaitReady => some { subscriber with commandMsgCount := 0, phase := .preparing }
    | .awaitStop => some { subscriber with commandMsgCount := 0, phase := .deletingData }
    | _ => none

/-- `init_static_types` and `create_data_endpoints`, then the sample. -/
def prepare (subscriber : Subscriber) (prepared : Bool) : Option Subscriber :=
  match subscriber.phase, subscriber.payloads with
  | .preparing, size :: _ =>
      some
        (if prepared && subscriber.endpoints.isNone then
          { subscriber with endpoints := some size, data := true, phase := .discovery }
        else { subscriber with phase := .returned })
  | _, _ => none

/-- `BEGIN` is written, or cannot be. -/
def begin (subscriber : Subscriber) (written : Bool) : Option Subscriber :=
  if subscriber.phase = .beginning then
    some
      (if written then
        { subscriber with
          testStatus := 0
          commands := subscriber.commands ++ [.begin]
          phase := .awaitStop }
      else { subscriber with testStatus := 0, phase := .returned })
  else none

/-- `delete_data` -/
def deleteData (subscriber : Subscriber) : Option Subscriber :=
  if subscriber.phase = .deletingData then
    some { subscriber with data := false, phase := .removing }
  else none

/-- `destroy_data_endpoints`, whose failure is only logged, and the test of
`test_status_`. -/
def remove (subscriber : Subscriber) (removed : Bool) : Option Subscriber :=
  if subscriber.phase = .removing then
    some
      { subscriber with
        endpoints := if removed then none else subscriber.endpoints
        phase := if subscriber.testStatus = -1 then .returned else .ending }
  else none

/-- `END` is written, or cannot be. -/
def end_ (subscriber : Subscriber) (written : Bool) : Option Subscriber :=
  if subscriber.phase = .ending then
    some
      (if written then
        { subscriber with
          commands := subscriber.commands ++ [.end_]
          phase := .acknowledgment }
      else { subscriber with phase := .returned })
  else none

/-- `wait_for_acknowledgments` ends. -/
def acknowledged (subscriber : Subscriber) (succeeded : Bool) : Option Subscriber :=
  if subscriber.phase = .acknowledgment then
    some
      (if succeeded then nextPayload { subscriber with payloads := subscriber.payloads.tail }
      else { subscriber with phase := .returned })
  else none

/-- The listener of the data reader uses `latency_data_`, except for a loan that
is not echoed. -/
def useData (parameters : Parameters) (subscriber : Subscriber) : Subscriber :=
  if parameters.dataLoans && !parameters.echo then subscriber
  else { subscriber with dangling := subscriber.dangling || !subscriber.data }

/-! ### What a step does -/

variable {subscriber next : Subscriber}

theorem commandCome_cases (hcome : subscriber.commandCome = some next) :
    subscriber.commandMsgCount ≠ 0 ∧
      (subscriber.phase = .awaitReady ∧
          next = { subscriber with commandMsgCount := 0, phase := .preparing } ∨
        subscriber.phase = .awaitStop ∧
          next = { subscriber with commandMsgCount := 0, phase := .deletingData }) := by
  unfold commandCome at hcome
  split_ifs at hcome with hzero
  split at hcome
  case h_1 hphase =>
    cases hcome
    exact ⟨hzero, Or.inl ⟨hphase, rfl⟩⟩
  case h_2 hphase =>
    cases hcome
    exact ⟨hzero, Or.inr ⟨hphase, rfl⟩⟩
  case h_3 => cases hcome

theorem prepare_cases {prepared : Bool} (hprepare : subscriber.prepare prepared = some next) :
    subscriber.phase = .preparing ∧ ∃ size rest, subscriber.payloads = size :: rest ∧
      ((prepared && subscriber.endpoints.isNone) = true ∧
          next = { subscriber with endpoints := some size, data := true, phase := .discovery } ∨
        next = { subscriber with phase := .returned }) := by
  unfold prepare at hprepare
  split at hprepare
  case h_1 size rest hphase hpayloads =>
    refine ⟨hphase, size, rest, hpayloads, ?_⟩
    split_ifs at hprepare with hprepared
    · exact Or.inl ⟨hprepared, (Option.some.inj hprepare).symm⟩
    · exact Or.inr (Option.some.inj hprepare).symm
  case h_2 => cases hprepare

theorem begin_eq_some_iff {written : Bool} :
    subscriber.begin written = some next ↔ subscriber.phase = .beginning ∧
      (if written then
        { subscriber with
          testStatus := 0
          commands := subscriber.commands ++ [.begin]
          phase := .awaitStop }
      else { subscriber with testStatus := 0, phase := .returned }) = next := by
  rw [begin, Option.ite_none_right_eq_some, Option.some.injEq]

theorem deleteData_eq_some_iff :
    subscriber.deleteData = some next ↔ subscriber.phase = .deletingData ∧
      { subscriber with data := false, phase := .removing } = next := by
  rw [deleteData, Option.ite_none_right_eq_some, Option.some.injEq]

theorem remove_eq_some_iff {removed : Bool} :
    subscriber.remove removed = some next ↔ subscriber.phase = .removing ∧
      { subscriber with
        endpoints := if removed then none else subscriber.endpoints
        phase := if subscriber.testStatus = -1 then .returned else .ending } = next := by
  rw [remove, Option.ite_none_right_eq_some, Option.some.injEq]

theorem ends_eq_some_iff {written : Bool} :
    subscriber.end_ written = some next ↔ subscriber.phase = .ending ∧
      (if written then
        { subscriber with
          commands := subscriber.commands ++ [.end_]
          phase := .acknowledgment }
      else { subscriber with phase := .returned }) = next := by
  rw [end_, Option.ite_none_right_eq_some, Option.some.injEq]

theorem acknowledged_eq_some_iff {succeeded : Bool} :
    subscriber.acknowledged succeeded = some next ↔ subscriber.phase = .acknowledgment ∧
      (if succeeded then nextPayload { subscriber with payloads := subscriber.payloads.tail }
      else { subscriber with phase := .returned }) = next := by
  rw [acknowledged, Option.ite_none_right_eq_some, Option.some.injEq]

end Subscriber

/-! ## The publisher -/

/-- Where `run` and `test` of the publisher stand: `sampling` is the head of the
loop over the samples.  With loans `numbered` and `loaning` come next.  A sample
is then `filled`, `resetting` if there is a sample for its echo, `untimed` until
`start_time_` is read and `timed` until it is written.  `undefined` is behaviour
that is undefined. -/
inductive Publisher.Phase where
  | preparing
  | readying
  | discovery
  | awaitBegin
  | sampling
  | numbered
  | loaning
  | filled
  | resetting
  | untimed
  | timed
  | waiting
  | awaitEnd
  | deletingData
  | removing
  | returned
  | undefined
  deriving DecidableEq

/-- An element of `times_`, by what it was computed from: the echo, the clock at
its arrival less the bounce time, and `start_time_`. -/
structure Measurement where
  echo : LatencyType
  endTime : ℤ
  startTime : ℤ
  deriving DecidableEq

structure TimeStats where
  bytes : UInt32
  received : UInt32
  times : List Measurement
  deriving DecidableEq

/-- Where `LatencyDataReaderListener::on_data_available` stands: the echo is taken
before `mutex_` is locked.  An echo that is `expected` is recorded and then the
number that was expected is cleared; `compared` is the end of both branches. -/
inductive Handling.Stage where
  | taken
  | locked
  | expected
  | recorded
  | compared
  deriving DecidableEq

structure Handling where
  echo : LatencyType
  stage : Handling.Stage
  deriving DecidableEq

/-- `payloads` is the rest of `data_size_pub_`, and `handling` the echo that the
listener is at.  `seqnumOut` is the number in `latency_data_out_`, `seqnumIn` the
number in `latency_data_in_` unless that is null, and `loaned` the number in the
loan.  `dangling` says that a sample object was used that was not there. -/
structure Publisher where
  phase : Publisher.Phase
  payloads : List UInt32
  endpoints : Option UInt32
  data : Bool
  commandMsgCount : ℕ
  dataMsgCount : ℕ
  count : UInt32
  seqnumOut : UInt32
  seqnumIn : Option UInt32
  loaned : UInt32
  handling : Option Handling
  startTime : ℤ
  times : List Measurement
  receivedCount : UInt32
  stats : List TimeStats
  dangling : Bool
  deriving DecidableEq

namespace Publisher

/-- The head of the loop over the payloads. -/
def nextPayload (publisher : Publisher) : Publisher :=
  { publisher with phase := if publisher.payloads = [] then .returned else .preparing }

def initial (parameters : Parameters) : Publisher :=
  nextPayload
    { phase := .preparing
      payloads := parameters.dataSizes
      endpoints := none
      data := false
      commandMsgCount := 0
      dataMsgCount := 0
      count := 0
      seqnumOut := 0
      seqnumIn := none
      loaned := 0
      handling := none
      startTime := 0
      times := []
      receivedCount := 0
      stats := []
      dangling := false }

/-- The listener holds `mutex_`. -/
def locked (publisher : Publisher) : Bool :=
  publisher.handling.any fun handling => handling.stage != .taken

/-- `init_static_types` and `create_data_endpoints`, then the samples. -/
def prepare (parameters : Parameters) (publisher : Publisher) (prepared : Bool) :
    Option Publisher :=
  match publisher.phase, publisher.payloads with
  | .preparing, size :: _ =>
      some
        (if prepared && publisher.endpoints.isNone then
          { publisher with
            receivedCount := 0
            endpoints := some size
            data := true
            seqnumOut := 0
            seqnumIn := if parameters.dataLoans then publisher.seqnumIn else some 0
            phase := .readying }
        else { publisher with receivedCount := 0, phase := .returned })
  | _, _ => none

/-- `READY` is written, or cannot be. -/
def ready (publisher : Publisher) (written : Bool) :
    Option (Publisher × List TestCommand) :=
  if publisher.phase = .readying then
    some
      (if written then ({ publisher with times := [], phase := .discovery }, [.ready])
      else ({ publisher with times := [], phase := .returned }, []))
  else none

/-- `CommandReaderListener::on_data_available` -/
def hear (publisher : Publisher) (command : TestCommand) : Publisher :=
  { publisher with
    commandMsgCount :=
      if command = .begin ∨ command = .end_ then publisher.commandMsgCount + 1
      else publisher.commandMsgCount }

/-- `wait_for_command` ends. -/
def commandsCome (n : ℕ) (publisher : Publisher) : Option Publisher :=
  if publisher.commandMsgCount < n ∨ publisher.locked then none
  else
    match publisher.phase with
    | .awaitBegin =>
        some { publisher with commandMsgCount := 0, count := 1, phase := .sampling }
    | .awaitEnd => some { publisher with commandMsgCount := 0, phase := .deletingData }
    | _ => none

/-- The next sample gets its number, or `STOP` is written, whose failure is
ignored. -/
def nextSample (parameters : Parameters) (publisher : Publisher) (written : Bool) :
    Option (Publisher × List TestCommand) :=
  if publisher.phase = .sampling then
    some
      (if publisher.count ≤ parameters.samples + 1 then
        ({ publisher with
            seqnumOut := publisher.count
            phase := if parameters.dataLoans then .numbered else .filled }, [])
      else ({ publisher with phase := .awaitEnd }, if written then [.stop] else []))
  else none

/-- With loans `latency_data_in_` is set to null. -/
def release (publisher : Publisher) : Option Publisher :=
  if publisher.phase = .numbered then
    some { publisher with seqnumIn := none, phase := .loaning }
  else none

/-- The sample is copied to a loan, or left out if there is none. -/
def loan (publisher : Publisher) (loaned : Bool) : Option Publisher :=
  if publisher.phase = .loaning then
    some
      (if loaned then { publisher with loaned := publisher.seqnumOut, phase := .filled }
      else { publisher with count := publisher.count + 1, phase := .sampling })
  else none

/-- Is `latency_data_in_` there? -/
def check (publisher : Publisher) : Option Publisher :=
  if publisher.phase = .filled then
    some
      { publisher with
        phase := if publisher.seqnumIn.isSome then .resetting else .untimed }
  else none

/-- The number in `latency_data_in_` is cleared. -/
def reset (publisher : Publisher) : Option Publisher :=
  if publisher.phase = .resetting then
    some
      { publisher with
        seqnumIn := publisher.seqnumIn.map fun _ => 0
        dangling := publisher.dangling || publisher.seqnumIn.isNone
        phase := .untimed }
  else none

def start (publisher : Publisher) (now : ℤ) : Option Publisher :=
  if publisher.phase = .untimed then some { publisher with startTime := now, phase := .timed }
  else none

/-- The number in the sample that is written. -/
def number (parameters : Parameters) (publisher : Publisher) : UInt32 :=
  if parameters.dataLoans then publisher.loaned else publisher.seqnumOut

/-- The sample is written, or cannot be. -/
def write (parameters : Parameters) (publisher : Publisher) (written : Bool) :
    Option (Publisher × List LatencyType) :=
  if publisher.phase = .timed then
    some
      (if written then
        ({ publisher with phase := .waiting }, [⟨publisher.number parameters, 0⟩])
      else ({ publisher with phase := .returned }, []))
  else none

/-- The wait for the echoes ends, after 100 ms at the latest. -/
def goOn (n : ℕ) (publisher : Publisher) (timeout : Bool) : Option Publisher :=
  if publisher.phase = .waiting ∧ publisher.locked = false ∧
      (n ≤ publisher.dataMsgCount ∨ timeout) then
    some
      { publisher with
        dataMsgCount := 0
        count := publisher.count + 1
        phase := .sampling }
  else none

/-! ### `LatencyDataReaderListener::on_data_available` -/

/-- The echo is taken, with loans to a sequence of the listener. -/
def receive (parameters : Parameters) (publisher : Publisher) (echo : LatencyType) : Publisher :=
  { publisher with
    handling := some ⟨echo, .taken⟩
    seqnumIn := if parameters.dataLoans then publisher.seqnumIn else some echo.seqnum
    dangling := publisher.dangling || (!parameters.dataLoans && !publisher.data) }

/-- With loans `latency_data_in_` is set to the echo. -/
def lock (parameters : Parameters) (publisher : Publisher) : Option Publisher :=
  match publisher.handling with
  | some ⟨echo, .taken⟩ =>
      some
        { publisher with
          handling := some ⟨echo, .locked⟩
          seqnumIn := if parameters.dataLoans then some echo.seqnum else publisher.seqnumIn }
  | _ => none

def compare (publisher : Publisher) : Option Publisher :=
  match publisher.handling with
  | some ⟨echo, .locked⟩ =>
      some
        { publisher with
          handling :=
            some ⟨echo,
              if publisher.seqnumIn = some publisher.seqnumOut then .expected else .compared⟩
          dangling := publisher.dangling || !publisher.data || publisher.seqnumIn.isNone }
  | _ => none

/-- A round trip that is not positive is discarded, and with loans one of more
than 10000 microseconds. -/
def measure (parameters : Parameters) (publisher : Publisher) (now : ℤ) (positive long : Bool) :
    Option Publisher :=
  match publisher.handling with
  | some ⟨echo, .expected⟩ =>
      let bounce : ℤ := if parameters.dataLoans then echo.bounce.toNat else 0
      let measured := { publisher with handling := some ⟨echo, .recorded⟩ }
      some
        (if positive && !(parameters.dataLoans && long) then
          { measured with
            times := publisher.times ++ [⟨echo, now - bounce, publisher.startTime⟩]
            receivedCount := publisher.receivedCount + 1 }
        else measured)
  | _ => none

def clear (publisher : Publisher) : Option Publisher :=
  match publisher.handling with
  | some ⟨echo, .recorded⟩ =>
      some
        { publisher with
          handling := some ⟨echo, .compared⟩
          seqnumOut := 0
          dangling := publisher.dangling || !publisher.data }
  | _ => none

def unlock (parameters : Parameters) (publisher : Publisher) : Option Publisher :=
  match publisher.handling with
  | some ⟨_, .compared⟩ =>
      some
        { publisher with
          handling := none
          seqnumIn := if parameters.dataLoans then none else publisher.seqnumIn
          dataMsgCount := publisher.dataMsgCount + 1 }
  | _ => none

/-! ### The end of a payload -/

/-- `delete_data` -/
def deleteData (publisher : Publisher) : Option Publisher :=
  if publisher.phase = .deletingData then
    some { publisher with data := false, phase := .removing }
  else none

/-- `destroy_data_endpoints`, which waits for the listener, and `analyze_times`
without the first measurement.  `begin` of an empty vector must not be erased,
nor may `min_element` of one be read. -/
def remove (publisher : Publisher) (removed : Bool) : Option Publisher :=
  match publisher.phase, publisher.payloads, publisher.handling with
  | .removing, size :: payloads, none =>
      some
        (if removed then
          match publisher.times with
          | _ :: time :: times =>
              nextPayload
                { publisher with
                  endpoints := none
                  payloads := payloads
                  times := time :: times
                  stats := publisher.stats ++ [⟨size, publisher.receivedCount - 1, time :: times⟩] }
          | _ => { publisher with phase := .undefined }
        else { publisher with phase := .returned })
  | _, _, _ => none

/-! ### What a step does -/

variable {publisher next : Publisher} {parameters : Parameters}

theorem prepare_cases {prepared : Bool}
    (hprepare : publisher.prepare parameters prepared = some next) :
    publisher.phase = .preparing ∧ ∃ size rest, publisher.payloads = size :: rest ∧
      ((prepared && publisher.endpoints.isNone) = true ∧
          next =
            { publisher with
              receivedCount := 0
              endpoints := some size
              data := true
              seqnumOut := 0
              seqnumIn := if parameters.dataLoans then publisher.seqnumIn else some 0
              phase := .readying } ∨
        next = { publisher with receivedCount := 0, phase := .returned }) := by
  unfold prepare at hprepare
  split at hprepare
  case h_1 size rest hphase hpayloads =>
    refine ⟨hphase, size, rest, hpayloads, ?_⟩
    split at hprepare
    case isTrue hprepared => exact Or.inl ⟨hprepared, (Option.some.inj hprepare).symm⟩
    case isFalse => exact Or.inr (Option.some.inj hprepare).symm
  case h_2 => cases hprepare

theorem ready_eq_some_iff {written : Bool} {done : Publisher × List TestCommand} :
    publisher.ready written = some done ↔ publisher.phase = .readying ∧
      (if written then ({ publisher with times := [], phase := .discovery }, [.ready])
      else ({ publisher with times := [], phase := .returned }, [])) = done := by
  rw [ready, Option.ite_none_right_eq_some, Option.some.injEq]

theorem commandsCome_cases {n : ℕ} (hcome : publisher.commandsCome n = some next) :
    n ≤ publisher.commandMsgCount ∧
      (publisher.phase = .awaitBegin ∧
          next = { publisher with commandMsgCount := 0, count := 1, phase := .sampling } ∨
        publisher.phase = .awaitEnd ∧
          next = { publisher with commandMsgCount := 0, phase := .deletingData }) := by
  unfold commandsCome at hcome
  split_ifs at hcome with hless
  have hcount := Nat.not_lt.mp fun hfew => hless (Or.inl hfew)
  split at hcome
  case h_1 hphase =>
    cases hcome
    exact ⟨hcount, Or.inl ⟨hphase, rfl⟩⟩
  case h_2 hphase =>
    cases hcome
    exact ⟨hcount, Or.inr ⟨hphase, rfl⟩⟩
  case h_3 => cases hcome

theorem nextSample_eq_some_iff {written : Bool} {done : Publisher × List TestCommand} :
    publisher.nextSample parameters written = some done ↔ publisher.phase = .sampling ∧
      (if publisher.count ≤ parameters.samples + 1 then
        ({ publisher with
            seqnumOut := publisher.count
            phase := if parameters.dataLoans then .numbered else .filled }, [])
      else ({ publisher with phase := .awaitEnd }, if written then [.stop] else [])) = done := by
  rw [nextSample, Option.ite_none_right_eq_some, Option.some.injEq]

theorem release_eq_some_iff :
    publisher.release = some next ↔ publisher.phase = .numbered ∧
      { publisher with seqnumIn := none, phase := .loaning } = next := by
  rw [release, Option.ite_none_right_eq_some, Option.some.injEq]

theorem loan_eq_some_iff {loaned : Bool} :
    publisher.loan loaned = some next ↔ publisher.phase = .loaning ∧
      (if loaned then { publisher with loaned := publisher.seqnumOut, phase := .filled }
      else { publisher with count := publisher.count + 1, phase := .sampling }) = next := by
  rw [loan, Option.ite_none_right_eq_some, Option.some.injEq]

theorem check_eq_some_iff :
    publisher.check = some next ↔ publisher.phase = .filled ∧
      { publisher with
        phase := if publisher.seqnumIn.isSome then .resetting else .untimed } = next := by
  rw [check, Option.ite_none_right_eq_some, Option.some.injEq]

theorem reset_eq_some_iff :
    publisher.reset = some next ↔ publisher.phase = .resetting ∧
      { publisher with
        seqnumIn := publisher.seqnumIn.map fun _ => 0
        dangling := publisher.dangling || publisher.seqnumIn.isNone
        phase := .untimed } = next := by
  rw [reset, Option.ite_none_right_eq_some, Option.some.injEq]

theorem start_eq_some_iff {now : ℤ} :
    publisher.start now = some next ↔ publisher.phase = .untimed ∧
      { publisher with startTime := now, phase := .timed } = next := by
  rw [start, Option.ite_none_right_eq_some, Option.some.injEq]

theorem write_eq_some_iff {written : Bool} {done : Publisher × List LatencyType} :
    publisher.write parameters written = some done ↔ publisher.phase = .timed ∧
      (if written then
        ({ publisher with phase := .waiting }, [⟨publisher.number parameters, 0⟩])
      else ({ publisher with phase := .returned }, [])) = done := by
  rw [write, Option.ite_none_right_eq_some, Option.some.injEq]

theorem goOn_eq_some_iff {n : ℕ} {timeout : Bool} :
    publisher.goOn n timeout = some next ↔
      (publisher.phase = .waiting ∧ publisher.locked = false ∧
          (n ≤ publisher.dataMsgCount ∨ timeout)) ∧
        { publisher with
          dataMsgCount := 0
          count := publisher.count + 1
          phase := .sampling } = next := by
  rw [goOn, Option.ite_none_right_eq_some, Option.some.injEq]

theorem lock_cases (hlock : publisher.lock parameters = some next) :
    ∃ echo, publisher.handling = some ⟨echo, .taken⟩ ∧
      next =
        { publisher with
          handling := some ⟨echo, .locked⟩
          seqnumIn := if parameters.dataLoans then some echo.seqnum else publisher.seqnumIn } := by
  unfold lock at hlock
  split at hlock
  case h_1 echo hhandling => exact ⟨echo, hhandling, (Option.some.inj hlock).symm⟩
  case h_2 => cases hlock

theorem compare_cases (hcompare : publisher.compare = some next) :
    ∃ echo, publisher.handling = some ⟨echo, .locked⟩ ∧
      next =
        { publisher with
          handling :=
            some ⟨echo,
              if publisher.seqnumIn = some publisher.seqnumOut then .expected else .compared⟩
          dangling := publisher.dangling || !publisher.data || publisher.seqnumIn.isNone } := by
  unfold compare at hcompare
  split at hcompare
  case h_1 echo hhandling => exact ⟨echo, hhandling, (Option.some.inj hcompare).symm⟩
  case h_2 => cases hcompare

theorem measure_cases {now : ℤ} {positive long : Bool}
    (hmeasure : publisher.measure parameters now positive long = some next) :
    ∃ echo, publisher.handling = some ⟨echo, .expected⟩ ∧
      ((positive && !(parameters.dataLoans && long)) = true ∧
          next =
            { publisher with
              handling := some ⟨echo, .recorded⟩
              times := publisher.times ++
                [⟨echo, now - (if parameters.dataLoans then (echo.bounce.toNat : ℤ) else 0),
                  publisher.startTime⟩]
              receivedCount := publisher.receivedCount + 1 } ∨
        (positive && !(parameters.dataLoans && long)) = false ∧
          next = { publisher with handling := some ⟨echo, .recorded⟩ }) := by
  unfold measure at hmeasure
  split at hmeasure
  case h_1 echo hhandling =>
    refine ⟨echo, hhandling, ?_⟩
    cases hkept : positive && !(parameters.dataLoans && long) with
    | true =>
        rw [hkept] at hmeasure
        exact Or.inl ⟨rfl, (Option.some.inj hmeasure).symm⟩
    | false =>
        rw [hkept] at hmeasure
        exact Or.inr ⟨rfl, (Option.some.inj hmeasure).symm⟩
  case h_2 => cases hmeasure

theorem clear_cases (hclear : publisher.clear = some next) :
    ∃ echo, publisher.handling = some ⟨echo, .recorded⟩ ∧
      next =
        { publisher with
          handling := some ⟨echo, .compared⟩
          seqnumOut := 0
          dangling := publisher.dangling || !publisher.data } := by
  unfold clear at hclear
  split at hclear
  case h_1 echo hhandling => exact ⟨echo, hhandling, (Option.some.inj hclear).symm⟩
  case h_2 => cases hclear

theorem unlock_cases (hunlock : publisher.unlock parameters = some next) :
    ∃ echo, publisher.handling = some ⟨echo, .compared⟩ ∧
      next =
        { publisher with
          handling := none
          seqnumIn := if parameters.dataLoans then none else publisher.seqnumIn
          dataMsgCount := publisher.dataMsgCount + 1 } := by
  unfold unlock at hunlock
  split at hunlock
  case h_1 echo hhandling => exact ⟨echo, hhandling, (Option.some.inj hunlock).symm⟩
  case h_2 => cases hunlock

theorem deleteData_eq_some_iff :
    publisher.deleteData = some next ↔ publisher.phase = .deletingData ∧
      { publisher with data := false, phase := .removing } = next := by
  rw [deleteData, Option.ite_none_right_eq_some, Option.some.injEq]

/-- The publisher goes to the next payload, its statistics are undefined or the
endpoints stay. -/
theorem remove_cases {removed : Bool} (hremove : publisher.remove removed = some next) :
    publisher.phase = .removing ∧ publisher.handling = none ∧
      ∃ size payloads, publisher.payloads = size :: payloads ∧
        ((∃ first time times, publisher.times = first :: time :: times ∧
            next = nextPayload
              { publisher with
                endpoints := none
                payloads := payloads
                times := time :: times
                stats := publisher.stats ++
                  [⟨size, publisher.receivedCount - 1, time :: times⟩] }) ∨
          publisher.times.length ≤ 1 ∧ next = { publisher with phase := .undefined } ∨
          next = { publisher with phase := .returned }) := by
  unfold remove at hremove
  split at hremove
  case h_1 size payloads hphase hpayloads hhandling =>
    refine ⟨hphase, hhandling, size, payloads, hpayloads, ?_⟩
    split_ifs at hremove
    · split at hremove
      case h_1 first time times htimes =>
        exact Or.inl ⟨first, time, times, htimes, (Option.some.inj hremove).symm⟩
      case h_2 hfew =>
        refine Or.inr (Or.inl ⟨?_, (Option.some.inj hremove).symm⟩)
        cases htimes : publisher.times with
        | nil => exact Nat.zero_le _
        | cons first rest =>
            cases rest with
            | nil => exact Nat.le_refl _
            | cons time times => exact absurd htimes (hfew first time times)
    · exact Or.inr (Or.inr (Option.some.inj hremove).symm)
  case h_2 => cases hremove

end Publisher

/-! ## The system -/

/-- The data topics between the publisher and a subscriber: how many samples of
the publisher the reader of the subscriber is past, the echoes, and how many of
them the reader of the publisher is past. -/
structure Channel where
  position : ℕ
  echoes : List LatencyType
  echoed : ℕ
  deriving DecidableEq

def Channel.initial : Channel := ⟨0, [], 0⟩

/-- `log` are the commands of the publisher, `heard` how many commands of each
subscriber its listener has taken, and `sent` the samples of the test with the
`start_time_` that was read for them. -/
structure State (n : ℕ) where
  publisher : Publisher
  log : List TestCommand
  heard : Fin n → ℕ
  sent : List (LatencyType × ℤ)
  channels : Fin n → Channel
  subscribers : Fin n → Subscriber

inductive Action (n : ℕ) where
  | prepare (prepared : Bool)
  | ready (written : Bool)
  | discovered
  | hear (index : Fin n)
  | commandsCome
  | nextSample (written : Bool)
  | release
  | loan (loaned : Bool)
  | check
  | reset
  | start (now : ℤ)
  | write (written : Bool)
  | goOn (timeout : Bool)
  | receive (index : Fin n)
  | lock
  | compare
  | measure (now : ℤ) (positive long : Bool)
  | clear
  | unlock
  | deleteData
  | remove (removed : Bool)
  | subscriberHears (index : Fin n)
  | subscriberCommandCome (index : Fin n)
  | subscriberPrepare (index : Fin n) (prepared : Bool)
  | subscriberDiscovered (index : Fin n)
  | subscriberBegin (index : Fin n) (written : Bool)
  | echo (index : Fin n) (bounce : UInt32) (written : Bool)
  | subscriberDeleteData (index : Fin n)
  | subscriberRemove (index : Fin n) (removed : Bool)
  | subscriberEnd (index : Fin n) (written : Bool)
  | subscriberAcknowledged (index : Fin n) (succeeded : Bool)
  | loseSample (index : Fin n)
  | loseEcho (index : Fin n)
  deriving DecidableEq

variable {n : ℕ}

namespace State

def initial (parameters : Parameters) : State n where
  publisher := Publisher.initial parameters
  log := []
  heard := fun _ => 0
  sent := []
  channels := fun _ => Channel.initial
  subscribers := fun _ => Subscriber.initial parameters

def withPublisher (state : State n) (publisher : Publisher) : State n :=
  { state with publisher := publisher }

def publish (state : State n) (done : Publisher × List TestCommand) : State n :=
  { state with publisher := done.1, log := state.log ++ done.2 }

def withSubscriber (state : State n) (index : Fin n) (subscriber : Subscriber) : State n :=
  { state with subscribers := Function.update state.subscribers index subscriber }

def withChannel (state : State n) (index : Fin n) (channel : Channel) : State n :=
  { state with channels := Function.update state.channels index channel }

end State

/-- New endpoints of the publisher know nothing of what was sent before. -/
def prepareStep (parameters : Parameters) (state : State n) (prepared : Bool) :
    Option (State n) :=
  (state.publisher.prepare parameters prepared).map fun publisher =>
    { state.withPublisher publisher with
      sent := []
      channels := fun _ => Channel.initial }

/-- `total_matches` is four times the number of subscribers. -/
def discoveredStep (state : State n) : Option (State n) :=
  if state.publisher.phase = .discovery ∧ state.publisher.locked = false ∧
      ∀ index, (state.subscribers index).endpoints.isSome then
    some (state.withPublisher { state.publisher with phase := .awaitBegin })
  else none

def hearStep (state : State n) (index : Fin n) : Option (State n) :=
  match (state.subscribers index).commands[state.heard index]?, state.publisher.locked with
  | some command, false =>
      some
        { state with
          publisher := state.publisher.hear command
          heard := Function.update state.heard index (state.heard index + 1) }
  | _, _ => none

def writeStep (parameters : Parameters) (state : State n) (written : Bool) : Option (State n) :=
  (state.publisher.write parameters written).map fun (publisher, samples) =>
    { state.withPublisher publisher with
      sent := state.sent ++ samples.map fun sample => (sample, publisher.startTime) }

/-- The reader of the publisher gets the next echo of a subscriber. -/
def receiveStep (parameters : Parameters) (state : State n) (index : Fin n) :
    Option (State n) :=
  let channel := state.channels index
  match state.publisher.endpoints, state.publisher.handling, channel.echoes[channel.echoed]? with
  | some _, none, some echo =>
      some
        ((state.withPublisher (state.publisher.receive parameters echo)).withChannel index
          { channel with echoed := channel.echoed + 1 })
  | _, _, _ => none

def subscriberHearsStep (state : State n) (index : Fin n) : Option (State n) :=
  let subscriber := state.subscribers index
  match state.log[subscriber.heard]? with
  | some command => some (state.withSubscriber index (subscriber.hear command))
  | none => none

def subscriberPrepareStep (state : State n) (index : Fin n) (prepared : Bool) :
    Option (State n) :=
  ((state.subscribers index).prepare prepared).map fun subscriber =>
    (state.withSubscriber index subscriber).withChannel index Channel.initial

/-- `total_matches` is 4. -/
def subscriberDiscoveredStep (state : State n) (index : Fin n) : Option (State n) :=
  let subscriber := state.subscribers index
  if subscriber.phase = .discovery ∧ state.publisher.endpoints.isSome then
    some (state.withSubscriber index { subscriber with phase := .beginning })
  else none

/-- `LatencyDataReaderListener::on_data_available` of a subscriber.  Without loans
the bounce time is 0. -/
def echoStep (parameters : Parameters) (state : State n) (index : Fin n) (bounce : UInt32)
    (written : Bool) : Option (State n) :=
  let subscriber := state.subscribers index
  let channel := state.channels index
  match subscriber.endpoints, state.sent[channel.position]? with
  | some _, some (sample, _) =>
      let echo : LatencyType := ⟨sample.seqnum, if parameters.dataLoans then bounce else 0⟩
      some
        ((state.withSubscriber index (subscriber.useData parameters)).withChannel index
          { channel with
            position := channel.position + 1
            echoes :=
              if parameters.echo && written then channel.echoes ++ [echo] else channel.echoes })
  | _, _ => none

def loseSampleStep (state : State n) (index : Fin n) : Option (State n) :=
  let channel := state.channels index
  if channel.position < state.sent.length then
    some (state.withChannel index { channel with position := channel.position + 1 })
  else none

def loseEchoStep (state : State n) (index : Fin n) : Option (State n) :=
  let channel := state.channels index
  if channel.echoed < channel.echoes.length then
    some (state.withChannel index { channel with echoed := channel.echoed + 1 })
  else none

def subscriberStep (state : State n) (index : Fin n)
    (step : Subscriber → Option Subscriber) : Option (State n) :=
  (step (state.subscribers index)).map (state.withSubscriber index)

def step (parameters : Parameters) (state : State n) : Action n → Option (State n)
  | .prepare prepared => prepareStep parameters state prepared
  | .ready written => (state.publisher.ready written).map state.publish
  | .discovered => discoveredStep state
  | .hear index => hearStep state index
  | .commandsCome => (state.publisher.commandsCome n).map state.withPublisher
  | .nextSample written => (state.publisher.nextSample parameters written).map state.publish
  | .release => state.publisher.release.map state.withPublisher
  | .loan loaned => (state.publisher.loan loaned).map state.withPublisher
  | .check => state.publisher.check.map state.withPublisher
  | .reset => state.publisher.reset.map state.withPublisher
  | .start now => (state.publisher.start now).map state.withPublisher
  | .write written => writeStep parameters state written
  | .goOn timeout => (state.publisher.goOn n timeout).map state.withPublisher
  | .receive index => receiveStep parameters state index
  | .lock => (state.publisher.lock parameters).map state.withPublisher
  | .compare => state.publisher.compare.map state.withPublisher
  | .measure now positive long =>
      (state.publisher.measure parameters now positive long).map state.withPublisher
  | .clear => state.publisher.clear.map state.withPublisher
  | .unlock => (state.publisher.unlock parameters).map state.withPublisher
  | .deleteData => state.publisher.deleteData.map state.withPublisher
  | .remove removed => (state.publisher.remove removed).map state.withPublisher
  | .subscriberHears index => subscriberHearsStep state index
  | .subscriberCommandCome index => subscriberStep state index Subscriber.commandCome
  | .subscriberPrepare index prepared => subscriberPrepareStep state index prepared
  | .subscriberDiscovered index => subscriberDiscoveredStep state index
  | .subscriberBegin index written => subscriberStep state index (·.begin written)
  | .echo index bounce written => echoStep parameters state index bounce written
  | .subscriberDeleteData index => subscriberStep state index Subscriber.deleteData
  | .subscriberRemove index removed => subscriberStep state index (·.remove removed)
  | .subscriberEnd index written => subscriberStep state index (·.end_ written)
  | .subscriberAcknowledged index succeeded =>
      subscriberStep state index (·.acknowledged succeeded)
  | .loseSample index => loseSampleStep state index
  | .loseEcho index => loseEchoStep state index

def system (parameters : Parameters) : TransitionSystem (State n) (Action n) :=
  ⟨State.initial parameters, step parameters⟩

end CppProj.LatencyTest
