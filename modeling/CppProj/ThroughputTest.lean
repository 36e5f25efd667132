import CppProj.BroadcastReplies
import CppProj.ConditionVariable
import CppProj.PerformanceTypes
import CppProj.ThroughputSubscriber
import CppProj.TransitionSystem
import Mathlib.Data.Fintype.Basic
import Mathlib.Logic.Function.Basic

/-!
# The throughput test

One publisher and its subscribers in `performance/throughout`, with static types
and without data loans, from the end of the command discovery on.  The publisher
broadcasts commands and runs three nested loops: over the payloads, over the
demands of a payload and over the recovery times.  A subscriber handles the
commands in order and answers some of them.

The command topics keep all samples and are reliable, so the commands are a log
that every subscriber reads at its own pace, and the answers of one subscriber
arrive in order.  The middleware decides the rest: when an endpoint is found,
when an answer arrives, whether an acknowledgement or an answer comes within the
20 seconds, which data samples are delivered, and whether endpoints and types
can be prepared.  Times and rates are left out.

The listeners run on threads of the middleware and take no mutex.  A match is
stored in one step and `data_discovery_cv_` notified in a later one, so the
notification can fall between the check of a wait and its sleep.  A call of
`on_data_available` tests `enable_` and then takes the samples one by one, so
the subscriber may handle a command in the middle of it.
-/

namespace CppProj.ThroughputTest

open BroadcastReplies PerformanceTypes
open ThroughputSubscriber (DataReaderListener Sample)

/-- `ThroughputType::overhead` -/
def overhead : UInt32 := 4

/-! ## A subscriber -/

/-- `saved_last_seq_num_` and the two other numbers of `save_numbers`. -/
structure SavedNumbers where
  lastSeqNum : UInt32
  lostSamples : UInt32
  receivedSamples : UInt64
  deriving DecidableEq

def saveNumbers (listener : DataReaderListener) : SavedNumbers :=
  ⟨listener.lastSeqNum, listener.lostSamples, listener.receivedSamples⟩

def disable (listener : DataReaderListener) : DataReaderListener :=
  { listener with enable := false }

/-- `dataReader` is the payload size of the type of the data reader, and
`discovering` says that the wait at the end of `TYPE_NEW` is on, which stands at
`discoveryWait`.  `notifications` are the matches whose notification is to come,
and `receiving` says that a call of `on_data_available` is past its first test.
A command that makes `process_message` return 2 for an error does not count as
handled.

`counted` are the samples that the listener has taken since its last reset, and
`resetAt` is the place in the log of the command that reset it.  The code keeps
neither of them. -/
structure Subscriber where
  link : Link ThroughputCommandType
  discovering : Bool
  discoveryWait : WaitPhase
  notifications : ℕ
  stopped : Bool
  dataReader : Option UInt32
  receiving : Bool
  listener : DataReaderListener
  counted : List Sample
  resetAt : Option ℕ
  saved : SavedNumbers
  dataSize : UInt32
  demand : UInt32
  deriving DecidableEq

namespace Subscriber

def initial : Subscriber where
  link := Link.initial
  discovering := false
  discoveryWait := .testing
  notifications := 0
  stopped := false
  dataReader := none
  receiving := false
  listener := ⟨0, 0, 0, 0, true⟩
  counted := []
  resetAt := none
  saved := ⟨0, 0, 0⟩
  dataSize := 0
  demand := 0

/-- The command that `run` sends when `process_message` returns 1. -/
def testResults (subscriber : Subscriber) (totalTime : UInt64) : ThroughputCommandType where
  m_command := Command.testResults.code
  m_demand := subscriber.demand
  m_size := subscriber.dataSize + overhead
  m_lastrecsample := subscriber.saved.lastSeqNum.toUInt64
  m_lostsamples := subscriber.saved.lostSamples
  m_receivedsamples := subscriber.saved.receivedSamples
  m_totaltime := totalTime

def answer (subscriber : Subscriber) (answers : List ThroughputCommandType) : Subscriber :=
  { subscriber with link := subscriber.link.handled answers }

def resetListener (subscriber : Subscriber) : Subscriber :=
  { subscriber with
    listener := subscriber.listener.reset
    counted := []
    resetAt := some subscriber.link.position }

/-- `process_message` for this command.  `prepared` says whether the middleware
does what is asked for the types and endpoints. -/
def processMessage (subscriber : Subscriber) (command : ThroughputCommandType)
    (prepared : Bool) (totalTime : UInt64) : Subscriber :=
  match command.command with
  | .typeNew =>
      if prepared && subscriber.dataReader.isNone then
        { subscriber.answer [] with
          dataReader := some command.m_size
          discovering := true
          discoveryWait := .testing }
      else { subscriber with stopped := true }
  | .readyToStart =>
      { subscriber.resetListener.answer [.ofCommand .begin] with
        dataSize := command.m_size
        demand := command.m_demand }
  | .testEnds =>
      let saved := { subscriber with
        saved := saveNumbers subscriber.listener
        listener := disable subscriber.listener }
      saved.answer [saved.testResults totalTime]
  | .typeDispose =>
      if prepared && subscriber.dataReader.isSome then
        { subscriber.resetListener.answer [.ofCommand .typeRemoved] with dataReader := none }
      else { subscriber with stopped := true }
  | .allStops => { subscriber.answer [] with stopped := true }
  | _ => subscriber.answer []

/-- `total_matches`, the two command endpoints being matched. -/
def totalMatches (subscriber : Subscriber) : ℤ := 2 + subscriber.listener.matched

/-- A step of the wait at the end of `TYPE_NEW`. -/
def awaitWriter (subscriber : Subscriber) : Option Subscriber :=
  if subscriber.discovering then
    match subscriber.discoveryWait with
    | .testing =>
        if subscriber.totalMatches = 3 then some { subscriber with discovering := false }
        else some { subscriber with discoveryWait := .blocking }
    | .blocking => some { subscriber with discoveryWait := .blocked }
    | .blocked => none
    | .notified => some { subscriber with discoveryWait := .testing }
  else none

/-- `on_subscription_matched` stores the number of matches. -/
def storeMatches (subscriber : Subscriber) (matched : ℤ) : Subscriber :=
  { subscriber with
    listener := { subscriber.listener with matched := matched }
    notifications := subscriber.notifications + 1 }

end Subscriber

/-- What happens at the data reader: in the wait for the writer, in the calls of
`on_subscription_matched`, which store first and notify later, and in those of
`on_data_available`.  `wakeUp` is a wake-up without a notification, and `none`
the end of the samples. -/
inductive ReaderEvent where
  | awaitWriter
  | matched
  | unmatched
  | notify
  | wakeUp
  | dataAvailable
  | takeNextSample (sample : Option Sample)
  deriving DecidableEq

/-- The reader and the writer have the same topic, so they find each other when
both exist.  While the reader has no writer its subscriber waits for one. -/
def Subscriber.atReader (subscriber : Subscriber) (dataWriter : Option UInt32) :
    ReaderEvent → Option Subscriber
  | .awaitWriter => subscriber.awaitWriter
  | .matched =>
      if dataWriter.isSome && subscriber.dataReader.isSome && subscriber.discovering &&
          subscriber.listener.matched == 0 then
        some (subscriber.storeMatches 1)
      else none
  | .unmatched =>
      if dataWriter.isNone && subscriber.dataReader.isSome &&
          subscriber.listener.matched == 1 then
        some (subscriber.storeMatches 0)
      else none
  | .notify =>
      if 0 < subscriber.notifications then
        some
          { subscriber with
            discoveryWait := subscriber.discoveryWait.notify
            notifications := subscriber.notifications - 1 }
      else none
  | .wakeUp => some { subscriber with discoveryWait := subscriber.discoveryWait.notify }
  | .dataAvailable =>
      if subscriber.dataReader.isSome then
        some { subscriber with receiving := subscriber.receiving || subscriber.listener.enable }
      else none
  | .takeNextSample sample =>
      if subscriber.receiving then
        match sample with
        | some sample =>
            some
              { subscriber with
                listener := subscriber.listener.take sample
                counted := subscriber.counted ++ [sample] }
        | none => some { subscriber with receiving := false }
      else none

/-! ## The publisher -/

structure TroughputResults where
  payloadSize : UInt32
  recoveryTimeMs : UInt32
  demand : UInt32
  sendSamples : UInt64
  recvSamples : UInt64
  lostSamples : UInt32
  deriving DecidableEq

/-- Another result is added to an entry. -/
def TroughputResults.add (entry result : TroughputResults) : TroughputResults :=
  { entry with
    sendSamples := entry.sendSamples + result.sendSamples
    recvSamples := entry.recvSamples + result.recvSamples
    lostSamples := entry.lostSamples + result.lostSamples }

/-- Where `run` stands.  `sizes` and `demands` are the heads of the loops,
`rigging`, `results` and `removing` the waits for answers with their counters,
`printed` and `returned` the ends without and with a failed test, and `aborted`
a failed assertion. -/
inductive Phase where
  | sizes
  | endpoints
  | discovery
  | demands
  | rigging (ready : ℕ)
  | starting
  | startsAcknowledgment
  | sending
  | ending
  | endsAcknowledgment
  | results (received : ℕ)
  | disposing
  | removing (ready : ℕ)
  | stopping
  | printed
  | returned
  | aborted
  deriving DecidableEq

/-- The arguments of `test` that the results use. -/
structure Test where
  recoveryTimeMs : UInt32
  demand : UInt32
  msgSize : UInt32
  deriving DecidableEq

/-- `sizes` is the rest of `demand_payload_` from `sit` on, `demands` the rest
of its demands from `dit` on and `recovery` the counter of the innermost loop.
`dataWriter` is the payload size of the type of the data writer, and `found`
the readers that it has matched.  In `discovery` the wait stands at
`discoveryWait`, and `notifications` are the matches whose notification is to
come. -/
structure Publisher (n : ℕ) where
  phase : Phase
  sizes : List (UInt32 × List UInt32)
  demands : List UInt32
  recovery : UInt16
  test : Test
  command : ThroughputCommandType
  validData : Bool
  testFailure : Bool
  samples : UInt32
  results : List TroughputResults
  dataWriter : Option UInt32
  found : Finset (Fin n)
  discoveryWait : WaitPhase
  notifications : ℕ
  deriving DecidableEq

structure Parameters where
  demandPayload : List (UInt32 × List UInt32)
  recoveryTimes : List UInt32

namespace Publisher

variable {n : ℕ}

def initial (parameters : Parameters) : Publisher n where
  phase := .sizes
  sizes := parameters.demandPayload
  demands := []
  recovery := 0
  test := ⟨0, 0, 0⟩
  command := .ofCommand .default
  validData := false
  testFailure := false
  samples := 0
  results := []
  dataWriter := none
  found := ∅
  discoveryWait := .testing
  notifications := 0

def maxDemand (demands : List UInt32) : UInt32 :=
  demands.foldl (fun most demand => max demand most) 0

/-- `total_matches`, the command endpoints being matched. -/
def totalMatches (publisher : Publisher n) : ℕ := n * 2 + publisher.found.card

/-- `test` returns false, and the loop over the recovery times is left. -/
def failTest (publisher : Publisher n) : Publisher n :=
  { publisher with
    testFailure := true
    demands := publisher.demands.tail
    recovery := 0
    phase := .demands }

/-- The loop over the payloads is left. -/
def leave (publisher : Publisher n) : Publisher n :=
  { publisher with testFailure := true, phase := .stopping }

def typeCommand (publisher : Publisher n) (kind : Command) (size : UInt32)
    (demands : List UInt32) : ThroughputCommandType :=
  { publisher.command with
    m_command := kind.code
    m_size := size
    m_demand := maxDemand demands }

/-- The next test of the inner loops, `READY_TO_START` written. -/
def awake (publisher : Publisher n) (size demand recoveryTime : UInt32) : Publisher n :=
  { publisher with
    command := { publisher.command with
      m_command := Command.readyToStart.code
      m_size := size
      m_demand := demand }
    test := ⟨recoveryTime, demand, size⟩
    phase := .rigging 0 }

/-- A step of the wait for the readers of these demands. -/
def awaitReaders (publisher : Publisher n) (demands : List UInt32) : Option (Publisher n) :=
  match publisher.discoveryWait with
  | .testing =>
      if publisher.totalMatches = n * 3 then
        some { publisher with demands := demands, recovery := 0, phase := .demands }
      else some { publisher with discoveryWait := .blocking }
  | .blocking => some { publisher with discoveryWait := .blocked }
  | .blocked => none
  | .notified => some { publisher with discoveryWait := .testing }

/-- The steps that only the publisher decides, with the command that is written. -/
def advance (parameters : Parameters) (publisher : Publisher n) :
    Option (Publisher n × List ThroughputCommandType) :=
  match publisher.phase with
  | .sizes =>
      match publisher.sizes with
      | [] => some ({ publisher with phase := .stopping }, [])
      | (size, demands) :: _ =>
          let command := publisher.typeCommand .typeNew size demands
          some ({ publisher with command := command, phase := .endpoints }, [command])
  | .discovery =>
      match publisher.sizes with
      | [] => none
      | (_, demands) :: _ => (publisher.awaitReaders demands).map fun next => (next, [])
  | .demands =>
      match publisher.sizes, publisher.demands with
      | (size, _) :: _, demand :: rest =>
          match parameters.recoveryTimes[publisher.recovery.toNat]? with
          | some recoveryTime =>
              let awoken := publisher.awake size demand recoveryTime
              some (awoken, [awoken.command])
          | none => some ({ publisher with demands := rest, recovery := 0 }, [])
      | _, _ => some ({ publisher with phase := .disposing }, [])
  | .rigging ready =>
      if ready < n then none else some ({ publisher with phase := .starting }, [])
  | .starting =>
      some ({ publisher with phase := .startsAcknowledgment }, [.ofCommand .testStarts])
  | .ending =>
      some ({ publisher with phase := .endsAcknowledgment }, [.ofCommand .testEnds])
  | .results received =>
      if received < n then none
      else some ({ publisher with recovery := publisher.recovery + 1, phase := .demands }, [])
  | .removing ready =>
      if ready < n then none
      else some ({ publisher with sizes := publisher.sizes.tail, phase := .sizes }, [])
  | .stopping =>
      let command := { publisher.command with m_command := Command.allStops.code }
      some
        ({ publisher with
            command := command
            phase := if publisher.testFailure then .returned else .printed }, [command])
  | _ => none

/-- `init_static_types` and `create_data_endpoints` -/
def prepare (publisher : Publisher n) (prepared : Bool) : Option (Publisher n) :=
  match publisher.phase, publisher.sizes with
  | .endpoints, (size, _) :: _ =>
      if prepared && publisher.dataWriter.isNone then
        some
          { publisher with
            dataWriter := some size
            found := ∅
            discoveryWait := .testing
            phase := .discovery }
      else some publisher.leave
  | _, _ => none

/-- `TYPE_DISPOSE` is written and `destroy_data_endpoints` called. -/
def dispose (publisher : Publisher n) (prepared : Bool) :
    Option (Publisher n × List ThroughputCommandType) :=
  match publisher.phase, publisher.sizes with
  | .disposing, (size, demands) :: _ =>
      let command := publisher.typeCommand .typeDispose size demands
      let disposed := { publisher with command := command }
      if prepared && publisher.dataWriter.isSome then
        some
          ({ disposed with dataWriter := none, found := ∅, phase := .removing 0 }, [command])
      else some (disposed.leave, [command])
  | _, _ => none

/-- `wait_for_acknowledgments` for the command that starts or ends a test. -/
def acknowledge (publisher : Publisher n) (inTime : Bool) : Option (Publisher n) :=
  match publisher.phase with
  | .startsAcknowledgment =>
      some (if inTime then { publisher with phase := .sending } else publisher.failTest)
  | .endsAcknowledgment =>
      some (if inTime then { publisher with phase := .results 0 } else publisher.failTest)
  | _ => none

/-- All batches of a test. -/
def send (publisher : Publisher n) (batches : ℕ) : Option (Publisher n) :=
  match publisher.phase with
  | .sending =>
      some
        { publisher with
          samples := UInt32.ofNat batches * publisher.test.demand
          phase := .ending }
  | _ => none

/-- `command` and `info` hold an answer that is counted in this loop. -/
def holds (publisher : Publisher n) (kind : Command) : Bool :=
  publisher.validData && publisher.command.command == kind

/-- The counter after the test of `command` and `info`. -/
def count (publisher : Publisher n) (kind : Command) (ready : ℕ) : ℕ :=
  if publisher.holds kind then ready + 1 else ready

def result (publisher : Publisher n) (command : ThroughputCommandType) : TroughputResults where
  payloadSize := publisher.test.msgSize + overhead
  recoveryTimeMs := publisher.test.recoveryTimeMs
  demand := publisher.test.demand
  sendSamples := publisher.samples.toUInt64
  recvSamples := command.m_receivedsamples
  lostSamples := publisher.samples - command.m_receivedsamples.toUInt32

/-- The results with one more report, the first of a test or not. -/
def record (publisher : Publisher n) (command : ThroughputCommandType) (received : ℕ) :
    List TroughputResults :=
  if received + 1 = 1 then publisher.results ++ [publisher.result command]
  else publisher.results.modify (publisher.results.length - 1)
    fun entry => entry.add (publisher.result command)

/-- The results loop of `test` with this answer. -/
def processResults (publisher : Publisher n) (command : ThroughputCommandType)
    (received : ℕ) : Publisher n :=
  if command.command = .testResults then
    if command.m_receivedsamples ≤ publisher.samples.toUInt64 then
      { publisher with
        results := publisher.record command received
        phase := .results (received + 1) }
    else { publisher with phase := .aborted }
  else publisher.failTest

/-- An answer arrives in one of the three loops; `none` is one without data. -/
def take (publisher : Publisher n) (answer : Option ThroughputCommandType) :
    Option (Publisher n) :=
  let stored := { publisher with
    command := answer.getD publisher.command
    validData := answer.isSome }
  match publisher.phase with
  | .rigging ready =>
      if ready < n then some { stored with phase := .rigging (stored.count .begin ready) }
      else none
  | .removing ready =>
      if ready < n then
        some { stored with phase := .removing (stored.count .typeRemoved ready) }
      else none
  | .results received =>
      if received < n then
        match answer with
        | some command => some (publisher.processResults command received)
        | none => some publisher.failTest
      else none
  | _ => none

/-- No answer arrives within the 20 seconds.  The first two loops test what
`command` and `info` still hold. -/
def timeout (publisher : Publisher n) : Option (Publisher n) :=
  match publisher.phase with
  | .rigging ready =>
      if ready < n then some { publisher with phase := .rigging (publisher.count .begin ready) }
      else none
  | .removing ready =>
      if ready < n then
        some { publisher with phase := .removing (publisher.count .typeRemoved ready) }
      else none
  | .results received => if received < n then some publisher.failTest else none
  | _ => none

end Publisher

/-! ## The system -/

structure State (n : ℕ) where
  publisher : Publisher n
  log : List ThroughputCommandType
  subscribers : Fin n → Subscriber

/-- The calls of `on_publication_matched` of the data writer, which store first
and notify later, and a wake-up without a notification. -/
inductive WriterEvent (n : ℕ) where
  | matched (index : Fin n)
  | unmatched (index : Fin n)
  | notify
  | wakeUp
  deriving DecidableEq

inductive Action (n : ℕ) where
  | advance
  | prepare (prepared : Bool)
  | dispose (prepared : Bool)
  | acknowledge (inTime : Bool)
  | send (batches : ℕ)
  | take (index : Fin n)
  | takeInvalid
  | timeout
  | processMessage (index : Fin n) (prepared : Bool) (totalTime : UInt64)
  | atWriter (event : WriterEvent n)
  | atReader (index : Fin n) (event : ReaderEvent)
  deriving DecidableEq

variable {n : ℕ}

namespace State

def initial (parameters : Parameters) : State n where
  publisher := Publisher.initial parameters
  log := []
  subscribers := fun _ => Subscriber.initial

def withPublisher (state : State n) (publisher : Publisher n) : State n :=
  { state with publisher := publisher }

/-- A step of the publisher that writes these commands. -/
def publish (state : State n) (done : Publisher n × List ThroughputCommandType) : State n :=
  { state with publisher := done.1, log := state.log ++ done.2 }

def withSubscriber (state : State n) (index : Fin n) (subscriber : Subscriber) : State n :=
  { state with subscribers := Function.update state.subscribers index subscriber }

end State

def takeStep (state : State n) (index : Fin n) : Option (State n) :=
  let subscriber := state.subscribers index
  match subscriber.link.written[subscriber.link.taken]? with
  | some answer =>
      (state.publisher.take (some answer)).map fun publisher =>
        (state.withPublisher publisher).withSubscriber index
          { subscriber with link := subscriber.link.take }
  | none => none

def processMessageStep (state : State n) (index : Fin n) (prepared : Bool)
    (totalTime : UInt64) : Option (State n) :=
  let subscriber := state.subscribers index
  if subscriber.discovering || subscriber.stopped then none
  else
    match state.log[subscriber.link.position]? with
    | some command =>
        some (state.withSubscriber index (subscriber.processMessage command prepared totalTime))
    | none => none

/-- `found` is what the listener stores. -/
def Publisher.storeMatches (publisher : Publisher n) (found : Finset (Fin n)) : Publisher n :=
  { publisher with found := found, notifications := publisher.notifications + 1 }

/-- A reader is found when both endpoints exist, and lost when it exists no more. -/
def Publisher.atWriter (publisher : Publisher n) (subscribers : Fin n → Subscriber) :
    WriterEvent n → Option (Publisher n)
  | .matched index =>
      if publisher.dataWriter.isSome && (subscribers index).dataReader.isSome &&
          decide (index ∉ publisher.found) then
        some (publisher.storeMatches (insert index publisher.found))
      else none
  | .unmatched index =>
      if (subscribers index).dataReader.isNone && decide (index ∈ publisher.found) then
        some (publisher.storeMatches (publisher.found.erase index))
      else none
  | .notify =>
      if 0 < publisher.notifications then
        some
          { publisher with
            discoveryWait := publisher.discoveryWait.notify
            notifications := publisher.notifications - 1 }
      else none
  | .wakeUp => some { publisher with discoveryWait := publisher.discoveryWait.notify }

def step (parameters : Parameters) (state : State n) : Action n → Option (State n)
  | .advance => (state.publisher.advance parameters).map state.publish
  | .prepare prepared => (state.publisher.prepare prepared).map state.withPublisher
  | .dispose prepared => (state.publisher.dispose prepared).map state.publish
  | .acknowledge inTime => (state.publisher.acknowledge inTime).map state.withPublisher
  | .send batches => (state.publisher.send batches).map state.withPublisher
  | .take index => takeStep state index
  | .takeInvalid => (state.publisher.take none).map state.withPublisher
  | .timeout => state.publisher.timeout.map state.withPublisher
  | .processMessage index prepared totalTime =>
      processMessageStep state index prepared totalTime
  | .atWriter event =>
      (state.publisher.atWriter state.subscribers event).map state.withPublisher
  | .atReader index event =>
      ((state.subscribers index).atReader state.publisher.dataWriter event).map
        (state.withSubscriber index)

def system (parameters : Parameters) : TransitionSystem (State n) (Action n) :=
  ⟨State.initial parameters, step parameters⟩

end CppProj.ThroughputTest
