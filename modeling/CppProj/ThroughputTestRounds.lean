import CppProj.ThroughputTest
import Mathlib.Data.Finset.Card

/-!
# The rounds of the throughput test

The publisher goes from one question to the next, and a subscriber owes an
answer until the publisher has taken it.  Between two rounds nothing is owed,
except for the reports of a test that failed; these come before the answer to
the next question and are skipped.  So the number of answers that a loop has
counted is the number of subscribers that owe nothing.

This holds as long as no answer is counted twice, which a loop does that times
out after an answer of the kind it waits for.
-/

namespace CppProj.ThroughputTest

open BroadcastReplies PerformanceTypes
open ThroughputSubscriber (DataReaderListener Sample)

variable {n : ℕ}

/-! ## What a subscriber answers -/

/-- The part of a subscriber that the commands determine. -/
structure View where
  handled : ℕ
  resetAt : Option ℕ
  dataSize : UInt32
  demand : UInt32
  enable : Bool
  dataReader : Option UInt32
  deriving DecidableEq

/-- An answer without the numbers of the listener. -/
abbrev Shape := Command × UInt32 × UInt32

def shape (answer : ThroughputCommandType) : Shape :=
  (answer.command, answer.m_size, answer.m_demand)

def beginShape : Shape := (.begin, 0, 0)

def removedShape : Shape := (.typeRemoved, 0, 0)

/-- The part of the view that a reset of the listener changes. -/
def View.reset (view : View) : View :=
  { view with resetAt := some view.handled, enable := true }

/-- What a command changes besides the number of the commands that were handled. -/
def react (view : View) (command : ThroughputCommandType) : View × List Shape :=
  match command.command with
  | .typeNew => ({ view with dataReader := some command.m_size }, [])
  | .readyToStart =>
      ({ view.reset with dataSize := command.m_size, demand := command.m_demand },
        [beginShape])
  | .testEnds =>
      ({ view with enable := false },
        [(.testResults, view.dataSize + overhead, view.demand)])
  | .typeDispose => ({ view.reset with dataReader := none }, [removedShape])
  | _ => (view, [])

def View.next (view : View) : View := { view with handled := view.handled + 1 }

def machine : Machine View ThroughputCommandType Shape where
  start := ⟨0, none, 0, 0, true, none⟩
  step := fun view command => ((react view command).1.next, (react view command).2)

def Subscriber.view (subscriber : Subscriber) : View where
  handled := subscriber.link.position
  resetAt := subscriber.resetAt
  dataSize := subscriber.dataSize
  demand := subscriber.demand
  enable := subscriber.listener.enable
  dataReader := subscriber.dataReader

/-- A command is handled as the machine says, or the subscriber stops at it. -/
theorem Subscriber.processMessage_cases (subscriber : Subscriber)
    (command : ThroughputCommandType) (prepared : Bool) (totalTime : UInt64) :
    subscriber.processMessage command prepared totalTime = { subscriber with stopped := true } ∨
      ∃ answers : List ThroughputCommandType,
        (subscriber.processMessage command prepared totalTime).link =
          subscriber.link.handled answers ∧
        (subscriber.processMessage command prepared totalTime).view =
          (machine.step subscriber.view command).1 ∧
        answers.map shape = (machine.step subscriber.view command).2 := by
  have hbegin : shape (.ofCommand .begin) = beginShape := rfl
  have hremoved : shape (.ofCommand .typeRemoved) = removedShape := rfl
  cases hcommand : command.command with
  | typeNew =>
      simp only [Subscriber.processMessage, machine, react, hcommand]
      split_ifs
      · exact Or.inr ⟨[], rfl, rfl, rfl⟩
      · exact Or.inl rfl
  | readyToStart =>
      simp only [Subscriber.processMessage, machine, react, hcommand]
      exact Or.inr ⟨_, rfl, rfl, by rw [List.map_singleton, hbegin]⟩
  | testEnds =>
      simp only [Subscriber.processMessage, machine, react, hcommand]
      exact Or.inr ⟨_, rfl, rfl, rfl⟩
  | typeDispose =>
      simp only [Subscriber.processMessage, machine, react, hcommand]
      split_ifs
      · exact Or.inr ⟨_, rfl, rfl, by rw [List.map_singleton, hremoved]⟩
      · exact Or.inl rfl
  | default | begin | testStarts | typeRemoved | allStops | testResults =>
      simp only [Subscriber.processMessage, machine, react, hcommand]
      exact Or.inr ⟨[], rfl, rfl, rfl⟩

/-! ## The subscribers follow the log -/

structure Following (log : List ThroughputCommandType) (subscriber : Subscriber) : Prop where
  follows : Link.Follows machine shape log subscriber.link
  view : subscriber.view = machine.after (log.take subscriber.link.position)

theorem Following.initial : Following [] Subscriber.initial where
  follows := Link.Follows.initial
  view := rfl

theorem Following.append {log : List ThroughputCommandType} {subscriber : Subscriber}
    (hfollowing : Following log subscriber) (command : ThroughputCommandType) :
    Following (log ++ [command]) subscriber where
  follows := hfollowing.follows.append command
  view := by
    rw [List.take_append_of_le_length hfollowing.follows.position_le]
    exact hfollowing.view

theorem Following.take {log : List ThroughputCommandType} {subscriber : Subscriber}
    (hfollowing : Following log subscriber) {answer : ThroughputCommandType}
    (hanswer : subscriber.link.written[subscriber.link.taken]? = some answer) :
    Following log { subscriber with link := subscriber.link.take } where
  follows := hfollowing.follows.take hanswer
  view := hfollowing.view

theorem Following.processMessage {log : List ThroughputCommandType} {subscriber : Subscriber}
    (hfollowing : Following log subscriber) {command : ThroughputCommandType}
    (hcommand : log[subscriber.link.position]? = some command) (prepared : Bool)
    (totalTime : UInt64) :
    Following log (subscriber.processMessage command prepared totalTime) := by
  rcases subscriber.processMessage_cases command prepared totalTime with
    hstopped | ⟨answers, hlink, hview, hanswers⟩
  · rw [hstopped]
    exact ⟨hfollowing.follows, hfollowing.view⟩
  · rw [hfollowing.view] at hview hanswers
    constructor
    case follows =>
      rw [hlink]
      exact hfollowing.follows.handled hcommand hanswers
    case view =>
      have htake : log.take (subscriber.link.position + 1) =
          log.take subscriber.link.position ++ [command] := by
        rw [List.take_add_one, hcommand]
        rfl
      rw [hview, hlink, Link.handled, htake, Machine.after_concat]

theorem Following.of_view {log : List ThroughputCommandType} {subscriber other : Subscriber}
    (hfollowing : Following log subscriber) (hlink : other.link = subscriber.link)
    (hview : other.view = subscriber.view) : Following log other where
  follows := by
    rw [hlink]
    exact hfollowing.follows
  view := by
    rw [hview, hlink]
    exact hfollowing.view

/-- Every subscriber follows the log of the publisher. -/
def State.Followed (state : State n) : Prop :=
  ∀ index, Following state.log (state.subscribers index)

theorem State.Followed.publish {state : State n} (hfollowed : state.Followed)
    (publisher : Publisher n) (command : ThroughputCommandType) :
    (state.publish (publisher, [command])).Followed :=
  fun index => (hfollowed index).append command

theorem State.Followed.publish_nil {state : State n} (hfollowed : state.Followed)
    (publisher : Publisher n) : (state.publish (publisher, [])).Followed := by
  intro index
  simp only [State.publish, List.append_nil]
  exact hfollowed index

theorem State.Followed.withSubscriber {state : State n} (hfollowed : state.Followed)
    (index : Fin n) {subscriber : Subscriber} (hfollowing : Following state.log subscriber) :
    (state.withSubscriber index subscriber).Followed := by
  intro other
  by_cases heq : other = index
  · subst heq
    simp only [State.withSubscriber, Function.update_self]
    exact hfollowing
  · simp only [State.withSubscriber, Function.update_of_ne heq]
    exact hfollowed other

/-! ## The steps of the publisher -/

/-- The steps of `Publisher.advance`, one for each place that `run` can leave
without the middleware. -/
inductive Advances (parameters : Parameters) (publisher : Publisher n) :
    Publisher n → List ThroughputCommandType → Prop where
  | noSize (hphase : publisher.phase = .sizes) (hsizes : publisher.sizes = []) :
      Advances parameters publisher { publisher with phase := .stopping } []
  | announce {size : UInt32} {demands : List UInt32} {rest : List (UInt32 × List UInt32)}
      (hphase : publisher.phase = .sizes) (hsizes : publisher.sizes = (size, demands) :: rest) :
      Advances parameters publisher
        { publisher with
          command := publisher.typeCommand .typeNew size demands
          phase := .endpoints }
        [publisher.typeCommand .typeNew size demands]
  | found {size : UInt32} {demands : List UInt32} {rest : List (UInt32 × List UInt32)}
      (hphase : publisher.phase = .discovery)
      (hsizes : publisher.sizes = (size, demands) :: rest)
      (hmatches : publisher.totalMatches = n * 3) :
      Advances parameters publisher
        { publisher with demands := demands, recovery := 0, phase := .demands } []
  | waits {wait : WaitPhase} (hphase : publisher.phase = .discovery)
      (hwaits : publisher.discoveryWait.Waits (publisher.totalMatches = n * 3) wait) :
      Advances parameters publisher { publisher with discoveryWait := wait } []
  | awake {size demand recoveryTime : UInt32} {demands rest : List UInt32}
      {sizes : List (UInt32 × List UInt32)} (hphase : publisher.phase = .demands)
      (hsizes : publisher.sizes = (size, demands) :: sizes)
      (hdemands : publisher.demands = demand :: rest)
      (hrecovery : parameters.recoveryTimes[publisher.recovery.toNat]? = some recoveryTime) :
      Advances parameters publisher (publisher.awake size demand recoveryTime)
        [(publisher.awake size demand recoveryTime).command]
  | nextDemand {demand : UInt32} {rest : List UInt32} (hphase : publisher.phase = .demands)
      (hsizes : publisher.sizes ≠ []) (hdemands : publisher.demands = demand :: rest)
      (hrecovery : parameters.recoveryTimes[publisher.recovery.toNat]? = none) :
      Advances parameters publisher { publisher with demands := rest, recovery := 0 } []
  | noDemand (hphase : publisher.phase = .demands)
      (hnone : publisher.sizes = [] ∨ publisher.demands = []) :
      Advances parameters publisher { publisher with phase := .disposing } []
  | rigged {ready : ℕ} (hphase : publisher.phase = .rigging ready) (hready : n ≤ ready) :
      Advances parameters publisher { publisher with phase := .starting } []
  | start (hphase : publisher.phase = .starting) :
      Advances parameters publisher { publisher with phase := .startsAcknowledgment }
        [.ofCommand .testStarts]
  | finish (hphase : publisher.phase = .ending) :
      Advances parameters publisher { publisher with phase := .endsAcknowledgment }
        [.ofCommand .testEnds]
  | tested {received : ℕ} (hphase : publisher.phase = .results received)
      (hreceived : n ≤ received) :
      Advances parameters publisher
        { publisher with recovery := publisher.recovery + 1, phase := .demands } []
  | removed {ready : ℕ} (hphase : publisher.phase = .removing ready) (hready : n ≤ ready) :
      Advances parameters publisher
        { publisher with sizes := publisher.sizes.tail, phase := .sizes } []
  | stop (hphase : publisher.phase = .stopping) :
      Advances parameters publisher
        { publisher with
          command := { publisher.command with m_command := Command.allStops.code }
          phase := if publisher.testFailure then .returned else .printed }
        [{ publisher.command with m_command := Command.allStops.code }]

theorem advances_of_awaitReaders {parameters : Parameters} {publisher next : Publisher n}
    {size : UInt32} {demands : List UInt32} {rest : List (UInt32 × List UInt32)}
    (hphase : publisher.phase = .discovery) (hsizes : publisher.sizes = (size, demands) :: rest)
    (hawait : publisher.awaitReaders demands = some next) :
    Advances parameters publisher next [] := by
  unfold Publisher.awaitReaders at hawait
  split at hawait
  case h_1 hwait =>
    split_ifs at hawait with hmatches
    · cases hawait
      exact .found hphase hsizes hmatches
    · cases hawait
      exact .waits hphase (by rw [hwait]; exact .block hmatches)
  case h_2 hwait =>
    cases hawait
    exact .waits hphase (by rw [hwait]; exact .sleep)
  case h_3 => cases hawait
  case h_4 hwait =>
    cases hawait
    exact .waits hphase (by rw [hwait]; exact .wake)

theorem advances_of_advance {parameters : Parameters} {publisher next : Publisher n}
    {commands : List ThroughputCommandType}
    (hadvance : publisher.advance parameters = some (next, commands)) :
    Advances parameters publisher next commands := by
  unfold Publisher.advance at hadvance
  split at hadvance
  case h_1 hphase =>
    split at hadvance
    case h_1 hsizes =>
      cases hadvance
      exact .noSize hphase hsizes
    case h_2 size demands rest hsizes =>
      cases hadvance
      exact .announce hphase hsizes
  case h_2 hphase =>
    split at hadvance
    case h_1 => cases hadvance
    case h_2 size demands rest hsizes =>
      obtain ⟨found, hawait, heq⟩ := Option.map_eq_some_iff.mp hadvance
      cases heq
      exact advances_of_awaitReaders hphase hsizes hawait
  case h_3 hphase =>
    split at hadvance
    case h_1 size demands sizes demand rest hsizes hdemands =>
      split at hadvance
      case h_1 recoveryTime hrecovery =>
        cases hadvance
        exact .awake hphase hsizes hdemands hrecovery
      case h_2 hrecovery =>
        cases hadvance
        have hne : publisher.sizes ≠ [] := by
          rw [hsizes]
          exact List.cons_ne_nil _ _
        exact .nextDemand hphase hne hdemands hrecovery
    case h_2 hother =>
      cases hadvance
      refine .noDemand hphase ?_
      by_contra hsome
      rw [not_or] at hsome
      obtain ⟨⟨size, demands⟩, sizes, hsizes⟩ := List.exists_cons_of_ne_nil hsome.1
      obtain ⟨demand, rest, hdemands⟩ := List.exists_cons_of_ne_nil hsome.2
      exact hother size demands sizes demand rest hsizes hdemands
  case h_4 ready hphase =>
    split_ifs at hadvance with hready
    cases hadvance
    exact .rigged hphase (Nat.not_lt.mp hready)
  case h_5 hphase =>
    cases hadvance
    exact .start hphase
  case h_6 hphase =>
    cases hadvance
    exact .finish hphase
  case h_7 received hphase =>
    split_ifs at hadvance with hreceived
    cases hadvance
    exact .tested hphase (Nat.not_lt.mp hreceived)
  case h_8 ready hphase =>
    split_ifs at hadvance with hready
    cases hadvance
    exact .removed hphase (Nat.not_lt.mp hready)
  case h_9 hphase =>
    cases hadvance
    exact .stop hphase
  case h_10 => cases hadvance

/-- Where a publisher goes that has asked for types or endpoints, for an
acknowledgement, or sends the batches. -/
inductive Proceeds (publisher : Publisher n) : Publisher n → Prop where
  | prepared {size : UInt32} {demands : List UInt32} {rest : List (UInt32 × List UInt32)}
      (hphase : publisher.phase = .endpoints)
      (hsizes : publisher.sizes = (size, demands) :: rest)
      (hwriter : publisher.dataWriter = none) :
      Proceeds publisher
        { publisher with
          dataWriter := some size
          found := ∅
          discoveryWait := .testing
          phase := .discovery }
  | unprepared (hphase : publisher.phase = .endpoints) : Proceeds publisher publisher.leave
  | started (hphase : publisher.phase = .startsAcknowledgment) :
      Proceeds publisher { publisher with phase := .sending }
  | unstarted (hphase : publisher.phase = .startsAcknowledgment) :
      Proceeds publisher publisher.failTest
  | sent (batches : ℕ) (hphase : publisher.phase = .sending) :
      Proceeds publisher
        { publisher with
          samples := UInt32.ofNat batches * publisher.test.demand
          phase := .ending }
  | ended (hphase : publisher.phase = .endsAcknowledgment) :
      Proceeds publisher { publisher with phase := .results 0 }
  | unended (hphase : publisher.phase = .endsAcknowledgment) :
      Proceeds publisher publisher.failTest

theorem proceeds_of_prepare {publisher next : Publisher n} {prepared : Bool}
    (hprepare : publisher.prepare prepared = some next) : Proceeds publisher next := by
  unfold Publisher.prepare at hprepare
  split at hprepare
  case h_1 size demands rest hphase hsizes =>
    split_ifs at hprepare with hready
    · cases hprepare
      rw [Bool.and_eq_true, Option.isNone_iff_eq_none] at hready
      exact .prepared hphase hsizes hready.2
    · cases hprepare
      exact .unprepared hphase
  case h_2 => cases hprepare

theorem proceeds_of_acknowledge {publisher next : Publisher n} {inTime : Bool}
    (hacknowledge : publisher.acknowledge inTime = some next) : Proceeds publisher next := by
  unfold Publisher.acknowledge at hacknowledge
  split at hacknowledge
  case h_1 hphase =>
    cases hacknowledge
    cases inTime
    · exact .unstarted hphase
    · exact .started hphase
  case h_2 hphase =>
    cases hacknowledge
    cases inTime
    · exact .unended hphase
    · exact .ended hphase
  case h_3 => cases hacknowledge

theorem proceeds_of_send {publisher next : Publisher n} {batches : ℕ}
    (hsend : publisher.send batches = some next) : Proceeds publisher next := by
  unfold Publisher.send at hsend
  split at hsend
  case h_1 hphase =>
    cases hsend
    exact .sent batches hphase
  case h_2 => cases hsend

/-- The two ends of a payload. -/
inductive Disposes (publisher : Publisher n) :
    Publisher n → List ThroughputCommandType → Prop where
  | disposed {size : UInt32} {demands : List UInt32} {rest : List (UInt32 × List UInt32)}
      (hphase : publisher.phase = .disposing)
      (hsizes : publisher.sizes = (size, demands) :: rest) :
      Disposes publisher
        { publisher with
          command := publisher.typeCommand .typeDispose size demands
          dataWriter := none
          found := ∅
          phase := .removing 0 }
        [publisher.typeCommand .typeDispose size demands]
  | undisposed {size : UInt32} {demands : List UInt32} {rest : List (UInt32 × List UInt32)}
      (hphase : publisher.phase = .disposing)
      (hsizes : publisher.sizes = (size, demands) :: rest) :
      Disposes publisher
        ({ publisher with command := publisher.typeCommand .typeDispose size demands } :
          Publisher n).leave
        [publisher.typeCommand .typeDispose size demands]

theorem disposes_of_dispose {publisher next : Publisher n} {prepared : Bool}
    {commands : List ThroughputCommandType}
    (hdispose : publisher.dispose prepared = some (next, commands)) :
    Disposes publisher next commands := by
  unfold Publisher.dispose at hdispose
  split at hdispose
  case h_1 size demands rest hphase hsizes =>
    split_ifs at hdispose
    · cases hdispose
      exact .disposed hphase hsizes
    · cases hdispose
      exact .undisposed hphase hsizes
  case h_2 => cases hdispose

/-- The counter of a loop after an answer, or after one without data. -/
def counted (kind : Command) (ready : ℕ) : Option ThroughputCommandType → ℕ
  | some answer => if answer.command = kind then ready + 1 else ready
  | none => ready

/-- What `command` and `info` are after an answer, or after one without data. -/
def Publisher.stored (publisher : Publisher n) (answer : Option ThroughputCommandType) :
    Publisher n :=
  { publisher with command := answer.getD publisher.command, validData := answer.isSome }

theorem count_stored (publisher : Publisher n) (answer : Option ThroughputCommandType)
    (kind : Command) (ready : ℕ) :
    (publisher.stored answer).count kind ready = counted kind ready answer := by
  cases answer with
  | none => rfl
  | some command =>
      simp only [Publisher.stored, Publisher.count, Publisher.holds, counted,
        Option.isSome_some, Option.getD_some, Bool.true_and, beq_iff_eq]

/-- The steps of the three loops that wait for answers. -/
inductive Takes (publisher : Publisher n) (answer : Option ThroughputCommandType) :
    Publisher n → Prop where
  | rigging {ready : ℕ} (hphase : publisher.phase = .rigging ready) (hready : ready < n) :
      Takes publisher answer
        { publisher.stored answer with phase := .rigging (counted .begin ready answer) }
  | removing {ready : ℕ} (hphase : publisher.phase = .removing ready) (hready : ready < n) :
      Takes publisher answer
        { publisher.stored answer with phase := .removing (counted .typeRemoved ready answer) }
  | recorded {received : ℕ} {command : ThroughputCommandType}
      (hphase : publisher.phase = .results received) (hreceived : received < n)
      (hanswer : answer = some command) (hcommand : command.command = .testResults)
      (hsamples : command.m_receivedsamples ≤ publisher.samples.toUInt64) :
      Takes publisher answer
        { publisher with
          results := publisher.record command received
          phase := .results (received + 1) }
  | tooMany {received : ℕ} (hphase : publisher.phase = .results received) :
      Takes publisher answer { publisher with phase := .aborted }
  | failed {received : ℕ} (hphase : publisher.phase = .results received)
      (hother : ∀ command, answer = some command → command.command ≠ .testResults) :
      Takes publisher answer publisher.failTest

theorem takes_of_take {publisher next : Publisher n} {answer : Option ThroughputCommandType}
    (htake : publisher.take answer = some next) : Takes publisher answer next := by
  unfold Publisher.take at htake
  dsimp only at htake
  split at htake
  case h_1 ready hphase =>
    split_ifs at htake with hready
    cases htake
    rw [← Publisher.stored, count_stored]
    exact .rigging hphase hready
  case h_2 ready hphase =>
    split_ifs at htake with hready
    cases htake
    rw [← Publisher.stored, count_stored]
    exact .removing hphase hready
  case h_3 received hphase =>
    split_ifs at htake with hreceived
    split at htake
    case h_1 command =>
      cases htake
      unfold Publisher.processResults
      split_ifs with hcommand hsamples
      · exact .recorded hphase hreceived rfl hcommand hsamples
      · exact .tooMany hphase
      · exact .failed hphase fun other hother => by
          cases hother
          exact hcommand
    case h_2 =>
      cases htake
      exact .failed hphase fun command hcommand => by cases hcommand
  case h_4 => cases htake

/-- A wait of the first two loops times out while an answer that they count is
still stored. -/
def Publisher.Repeats (publisher : Publisher n) : Prop :=
  match publisher.phase with
  | .rigging ready => ready < n ∧ publisher.holds .begin = true
  | .removing ready => ready < n ∧ publisher.holds .typeRemoved = true
  | _ => False

/-- Without an answer to count again a time-out changes nothing or fails the test. -/
theorem timeout_cases {publisher next : Publisher n}
    (htimeout : publisher.timeout = some next) (hnew : ¬ publisher.Repeats) :
    next = publisher ∨
      ∃ received, publisher.phase = .results received ∧ next = publisher.failTest := by
  unfold Publisher.timeout at htimeout
  unfold Publisher.Repeats at hnew
  split at htimeout
  case h_1 ready hphase =>
    rw [hphase] at hnew
    split_ifs at htimeout with hready
    cases htimeout
    left
    rw [Publisher.count, if_neg fun hholds => hnew ⟨hready, hholds⟩, ← hphase]
  case h_2 ready hphase =>
    rw [hphase] at hnew
    split_ifs at htimeout with hready
    cases htimeout
    left
    rw [Publisher.count, if_neg fun hholds => hnew ⟨hready, hholds⟩, ← hphase]
  case h_3 received hphase =>
    split_ifs at htimeout
    cases htimeout
    exact Or.inr ⟨received, hphase, rfl⟩
  case h_4 => cases htimeout

/-! ## The steps at the two data endpoints -/

/-- What `Publisher.atWriter` can do. -/
inductive WriterSteps (publisher : Publisher n) (subscribers : Fin n → Subscriber) :
    WriterEvent n → Publisher n → Prop where
  | matched {index : Fin n} (hwriter : publisher.dataWriter.isSome = true)
      (hreader : (subscribers index).dataReader.isSome = true) (hnew : index ∉ publisher.found) :
      WriterSteps publisher subscribers (.matched index)
        (publisher.storeMatches (insert index publisher.found))
  | unmatched {index : Fin n} (hreader : (subscribers index).dataReader = none)
      (hold : index ∈ publisher.found) :
      WriterSteps publisher subscribers (.unmatched index)
        (publisher.storeMatches (publisher.found.erase index))
  | notified (hpending : 0 < publisher.notifications) :
      WriterSteps publisher subscribers .notify
        { publisher with
          discoveryWait := publisher.discoveryWait.notify
          notifications := publisher.notifications - 1 }
  | awoken :
      WriterSteps publisher subscribers .wakeUp
        { publisher with discoveryWait := publisher.discoveryWait.notify }

theorem writerSteps_of_atWriter {publisher next : Publisher n} {subscribers : Fin n → Subscriber}
    {event : WriterEvent n} (hat : publisher.atWriter subscribers event = some next) :
    WriterSteps publisher subscribers event next := by
  cases event with
  | matched index =>
      simp only [Publisher.atWriter] at hat
      split_ifs at hat with hmatch
      cases hat
      rw [Bool.and_eq_true, Bool.and_eq_true, decide_eq_true_eq] at hmatch
      exact .matched hmatch.1.1 hmatch.1.2 hmatch.2
  | unmatched index =>
      simp only [Publisher.atWriter] at hat
      split_ifs at hat with hunmatch
      cases hat
      rw [Bool.and_eq_true, Option.isNone_iff_eq_none, decide_eq_true_eq] at hunmatch
      exact .unmatched hunmatch.1 hunmatch.2
  | notify =>
      simp only [Publisher.atWriter] at hat
      split_ifs at hat with hpending
      cases hat
      exact .notified hpending
  | wakeUp =>
      cases hat
      exact .awoken

/-- The fields that only the wait for the readers uses. -/
theorem WriterSteps.eq {publisher next : Publisher n} {subscribers : Fin n → Subscriber}
    {event : WriterEvent n} (hsteps : WriterSteps publisher subscribers event next) :
    ∃ found wait notifications, next =
      { publisher with
        found := found
        discoveryWait := wait
        notifications := notifications } := by
  cases hsteps <;> exact ⟨_, _, _, rfl⟩

/-- What `Subscriber.atReader` can do. -/
inductive ReaderSteps (subscriber : Subscriber) (dataWriter : Option UInt32) :
    ReaderEvent → Subscriber → Prop where
  | found (hdiscovering : subscriber.discovering = true)
      (hwait : subscriber.discoveryWait = .testing) (hmatches : subscriber.totalMatches = 3) :
      ReaderSteps subscriber dataWriter .awaitWriter { subscriber with discovering := false }
  | waits {wait : WaitPhase} (hdiscovering : subscriber.discovering = true)
      (hwaits : subscriber.discoveryWait.Waits (subscriber.totalMatches = 3) wait) :
      ReaderSteps subscriber dataWriter .awaitWriter { subscriber with discoveryWait := wait }
  | matched (hwriter : dataWriter.isSome = true) (hreader : subscriber.dataReader.isSome = true)
      (hdiscovering : subscriber.discovering = true) (hzero : subscriber.listener.matched = 0) :
      ReaderSteps subscriber dataWriter .matched (subscriber.storeMatches 1)
  | unmatched (hwriter : dataWriter = none) (hone : subscriber.listener.matched = 1) :
      ReaderSteps subscriber dataWriter .unmatched (subscriber.storeMatches 0)
  | notified (hpending : 0 < subscriber.notifications) :
      ReaderSteps subscriber dataWriter .notify
        { subscriber with
          discoveryWait := subscriber.discoveryWait.notify
          notifications := subscriber.notifications - 1 }
  | awoken :
      ReaderSteps subscriber dataWriter .wakeUp
        { subscriber with discoveryWait := subscriber.discoveryWait.notify }
  | called (receiving : Bool) :
      ReaderSteps subscriber dataWriter .dataAvailable { subscriber with receiving := receiving }
  | taken (sample : Sample) :
      ReaderSteps subscriber dataWriter (.takeNextSample (some sample))
        { subscriber with
          listener := subscriber.listener.take sample
          counted := subscriber.counted ++ [sample] }
  | finished :
      ReaderSteps subscriber dataWriter (.takeNextSample none)
        { subscriber with receiving := false }

theorem readerSteps_of_awaitWriter {subscriber next : Subscriber} (dataWriter : Option UInt32)
    (hawait : subscriber.awaitWriter = some next) :
    ReaderSteps subscriber dataWriter .awaitWriter next := by
  unfold Subscriber.awaitWriter at hawait
  split at hawait
  case isTrue hdiscovering =>
    split at hawait
    case h_1 hwait =>
      split_ifs at hawait with hmatches
      · cases hawait
        exact .found hdiscovering hwait hmatches
      · cases hawait
        exact .waits hdiscovering (by rw [hwait]; exact .block hmatches)
    case h_2 hwait =>
      cases hawait
      exact .waits hdiscovering (by rw [hwait]; exact .sleep)
    case h_3 => cases hawait
    case h_4 hwait =>
      cases hawait
      exact .waits hdiscovering (by rw [hwait]; exact .wake)
  case isFalse => cases hawait

theorem readerSteps_of_atReader {subscriber next : Subscriber} {dataWriter : Option UInt32}
    {event : ReaderEvent} (hat : subscriber.atReader dataWriter event = some next) :
    ReaderSteps subscriber dataWriter event next := by
  cases event with
  | awaitWriter => exact readerSteps_of_awaitWriter dataWriter hat
  | matched =>
      simp only [Subscriber.atReader] at hat
      split_ifs at hat with hmatch
      cases hat
      rw [Bool.and_eq_true, Bool.and_eq_true, Bool.and_eq_true, beq_iff_eq] at hmatch
      exact .matched hmatch.1.1.1 hmatch.1.1.2 hmatch.1.2 hmatch.2
  | unmatched =>
      simp only [Subscriber.atReader] at hat
      split_ifs at hat with hunmatch
      cases hat
      rw [Bool.and_eq_true, Bool.and_eq_true, Option.isNone_iff_eq_none, beq_iff_eq] at hunmatch
      exact .unmatched hunmatch.1.1 hunmatch.2
  | notify =>
      simp only [Subscriber.atReader] at hat
      split_ifs at hat with hpending
      cases hat
      exact .notified hpending
  | wakeUp =>
      cases hat
      exact .awoken
  | dataAvailable =>
      simp only [Subscriber.atReader] at hat
      split_ifs at hat
      cases hat
      exact .called _
  | takeNextSample sample =>
      simp only [Subscriber.atReader] at hat
      split_ifs at hat
      cases sample with
      | none =>
          cases hat
          exact .finished
      | some sample =>
          cases hat
          exact .taken sample

theorem enable_take (listener : DataReaderListener) (sample : Sample) :
    (listener.take sample).enable = listener.enable :=
  listener.enable_foldl_take [sample]

/-- The answers and what the commands determine stay as they are. -/
theorem ReaderSteps.frame {subscriber next : Subscriber} {dataWriter : Option UInt32}
    {event : ReaderEvent} (hsteps : ReaderSteps subscriber dataWriter event next) :
    next.link = subscriber.link ∧ next.view = subscriber.view ∧
      next.stopped = subscriber.stopped := by
  cases hsteps with
  | taken sample =>
      refine ⟨rfl, ?_, rfl⟩
      simp only [Subscriber.view, enable_take]
  | found | waits | matched | unmatched | notified | awoken | called | finished =>
      exact ⟨rfl, rfl, rfl⟩

/-! ## What is owed in each phase -/

/-- The report of the test that runs. -/
def Publisher.reportShape (publisher : Publisher n) : Shape :=
  (.testResults, publisher.test.msgSize + overhead, publisher.test.demand)

/-- A report is left over of a test that has failed. -/
def LeftOver (failed : Bool) (before rest : List Shape) : Prop :=
  failed = true ∧ ∃ report : Shape, report.1 = .testResults ∧ before = report :: rest

/-- Between the rounds. -/
def Quiet (owed : Fin n → List Shape) (failed : Bool) : Prop :=
  ∀ index, owed index = [] ∨ LeftOver failed (owed index) []

/-- The subscribers that owe nothing. -/
def settled (owed : Fin n → List Shape) : Finset (Fin n) :=
  Finset.univ.filter fun index => owed index = []

/-- In a round: the counter is the number of subscribers that owe nothing. -/
structure Awaiting (owed : Fin n → List Shape) (failed : Bool) (answer : Shape) (count : ℕ) :
    Prop where
  count : (settled owed).card = count
  owed : ∀ index, owed index = [] ∨ owed index = [answer] ∨ LeftOver failed (owed index) [answer]

def Round (publisher : Publisher n) (owed : Fin n → List Shape) : Prop :=
  match publisher.phase with
  | .sizes | .endpoints | .discovery | .starting | .startsAcknowledgment | .sending | .ending =>
      ∀ index, owed index = []
  | .demands | .disposing => Quiet owed publisher.testFailure
  | .rigging ready => Awaiting owed publisher.testFailure beginShape ready
  | .endsAcknowledgment => ∀ index, owed index = [publisher.reportShape]
  | .results received => Awaiting owed false publisher.reportShape received
  | .removing ready => Awaiting owed publisher.testFailure removedShape ready
  | .stopping | .printed => publisher.testFailure = false → ∀ index, owed index = []
  | .returned | .aborted => True

/-- The question of the round is the test that runs. -/
def Asked (publisher : Publisher n) (view : View) : Prop :=
  match publisher.phase with
  | .rigging _ | .starting | .startsAcknowledgment | .sending | .ending | .endsAcknowledgment
  | .results _ =>
      view.dataSize = publisher.test.msgSize ∧ view.demand = publisher.test.demand
  | _ => True

theorem mem_settled {owed : Fin n → List Shape} {index : Fin n} :
    index ∈ settled owed ↔ owed index = [] := by
  simp [settled]

theorem settled_card_le (owed : Fin n → List Shape) : (settled owed).card ≤ n := by
  calc (settled owed).card ≤ (Finset.univ : Finset (Fin n)).card :=
        Finset.card_le_card (Finset.subset_univ _)
    _ = n := by rw [Finset.card_univ, Fintype.card_fin]

/-- When all are counted nobody owes anything. -/
theorem Awaiting.all {owed : Fin n → List Shape} {failed : Bool} {answer : Shape} {count : ℕ}
    (hawaiting : Awaiting owed failed answer count) (hall : n ≤ count) (index : Fin n) :
    owed index = [] := by
  have hcard : (settled owed).card = Fintype.card (Fin n) := by
    have hle := settled_card_le owed
    rw [hawaiting.count, Fintype.card_fin]
    rw [hawaiting.count] at hle
    omega
  rw [← mem_settled, Finset.card_eq_iff_eq_univ _ |>.mp hcard]
  exact Finset.mem_univ index

theorem settled_update_nil {owed : Fin n → List Shape} {index : Fin n} :
    settled (Function.update owed index []) = insert index (settled owed) := by
  ext other
  rw [mem_settled, Finset.mem_insert, mem_settled]
  by_cases heq : other = index
  · subst heq
    simp
  · simp [heq]

theorem settled_update_cons {owed : Fin n → List Shape} {index : Fin n}
    (howed : owed index ≠ []) {shapes : List Shape} (hshapes : shapes ≠ []) :
    settled (Function.update owed index shapes) = settled owed := by
  ext other
  rw [mem_settled, mem_settled]
  by_cases heq : other = index
  · subst heq
    simp [howed, hshapes]
  · simp [heq]

/-- A new question after the rounds before it. -/
theorem Quiet.ask {owed : Fin n → List Shape} {failed : Bool} (hquiet : Quiet owed failed)
    (answer : Shape) : Awaiting (fun index => owed index ++ [answer]) failed answer 0 where
  count := by
    rw [Finset.card_eq_zero, Finset.eq_empty_iff_forall_notMem]
    intro index hsettled
    rw [mem_settled] at hsettled
    exact List.append_ne_nil_of_right_ne_nil _ (List.cons_ne_nil _ _) hsettled
  owed := by
    intro index
    rcases hquiet index with hnone | ⟨hfailed, report, hreport, howed⟩
    · exact Or.inr (Or.inl (by rw [hnone, List.nil_append]))
    · exact Or.inr (Or.inr ⟨hfailed, report, hreport, by rw [howed]; rfl⟩)

/-- An answer is the one that is counted, or a report that is left over. -/
theorem Awaiting.take {owed : Fin n → List Shape} {failed : Bool} {answer : Shape} {count : ℕ}
    (hawaiting : Awaiting owed failed answer count) {index : Fin n} {first : Shape}
    {rest : List Shape} (howed : owed index = first :: rest) :
    (first = answer ∧ rest = [] ∧
        Awaiting (Function.update owed index rest) failed answer (count + 1)) ∨
      (failed = true ∧ first.1 = .testResults ∧
        Awaiting (Function.update owed index rest) failed answer count) := by
  have hne : owed index ≠ [] := by
    rw [howed]
    exact List.cons_ne_nil _ _
  have hothers : ∀ (shapes : List Shape), shapes = [] ∨ shapes = [answer] → ∀ other,
      Function.update owed index shapes other = [] ∨
        Function.update owed index shapes other = [answer] ∨
        LeftOver failed (Function.update owed index shapes other) [answer] := by
    intro shapes hshapes other
    by_cases heq : other = index
    · subst heq
      rw [Function.update_self]
      exact hshapes.imp_right Or.inl
    · rw [Function.update_of_ne heq]
      exact hawaiting.owed other
  rcases hawaiting.owed index with hnone | hanswer | ⟨hfailed, report, hreport, hboth⟩
  · exact absurd hnone hne
  · left
    rw [howed, List.cons.injEq] at hanswer
    refine ⟨hanswer.1, hanswer.2, ?_, hothers rest (Or.inl hanswer.2)⟩
    rw [hanswer.2, settled_update_nil, Finset.card_insert_of_notMem, hawaiting.count]
    rw [mem_settled]
    exact hne
  · right
    rw [howed, List.cons.injEq] at hboth
    refine ⟨hfailed, by rw [hboth.1]; exact hreport, ?_, hothers rest (Or.inr hboth.2)⟩
    rw [settled_update_cons hne (by rw [hboth.2]; exact List.cons_ne_nil _ _),
      hawaiting.count]

/-! ## The invariant -/

def State.owed (state : State n) (index : Fin n) : List Shape :=
  Link.owed machine state.log (state.subscribers index).link

structure Invariant (state : State n) : Prop where
  followed : state.Followed
  round : Round state.publisher state.owed
  asked : Asked state.publisher (machine.after state.log)

theorem Invariant.initial (parameters : Parameters) :
    Invariant (State.initial parameters : State n) where
  followed := fun _ => Following.initial
  round := fun _ => rfl
  asked := trivial

theorem State.Followed.owed_publish {state : State n} (hfollowed : state.Followed)
    (publisher : Publisher n) (command : ThroughputCommandType) :
    (state.publish (publisher, [command])).owed =
      fun index => state.owed index ++ (machine.step (machine.after state.log) command).2 :=
  funext fun index => (hfollowed index).follows.owed_append command

theorem owed_publish_nil (state : State n) (publisher : Publisher n) :
    (state.publish (publisher, [])).owed = state.owed := by
  funext index
  simp only [State.owed, State.publish, List.append_nil]

theorem log_publish_nil (state : State n) (publisher : Publisher n) :
    (state.publish (publisher, [])).log = state.log :=
  List.append_nil _

theorem after_publish (state : State n) (publisher : Publisher n)
    (command : ThroughputCommandType) :
    machine.after (state.publish (publisher, [command])).log =
      (machine.step (machine.after state.log) command).1 :=
  machine.after_concat state.log command

theorem step_typeNew {command : ThroughputCommandType} (hcommand : command.command = .typeNew)
    (view : View) :
    machine.step view command =
      (View.next { view with dataReader := some command.m_size }, []) := by
  simp only [machine, react, hcommand]

theorem step_readyToStart {command : ThroughputCommandType}
    (hcommand : command.command = .readyToStart) (view : View) :
    machine.step view command =
      (View.next { view.reset with dataSize := command.m_size, demand := command.m_demand },
        [beginShape]) := by
  simp only [machine, react, hcommand]

theorem step_testStarts (view : View) :
    machine.step view (.ofCommand .testStarts) = (view.next, []) := rfl

theorem step_testEnds (view : View) :
    machine.step view (.ofCommand .testEnds) =
      (View.next { view with enable := false },
        [(.testResults, view.dataSize + overhead, view.demand)]) := rfl

theorem step_typeDispose {command : ThroughputCommandType}
    (hcommand : command.command = .typeDispose) (view : View) :
    machine.step view command =
      (View.next { view.reset with dataReader := none }, [removedShape]) := by
  simp only [machine, react, hcommand]

theorem step_allStops {command : ThroughputCommandType} (hcommand : command.command = .allStops)
    (view : View) : machine.step view command = (view.next, []) := by
  simp only [machine, react, hcommand]

theorem command_typeCommand (publisher : Publisher n) (kind : Command) (size : UInt32)
    (demands : List UInt32) : (publisher.typeCommand kind size demands).command = kind :=
  Command.ofCode_code kind

theorem command_awake (publisher : Publisher n) (size demand recoveryTime : UInt32) :
    (publisher.awake size demand recoveryTime).command.command = .readyToStart := rfl

theorem Quiet.of_nil {owed : Fin n → List Shape} (hnil : ∀ index, owed index = [])
    (failed : Bool) : Quiet owed failed :=
  fun index => Or.inl (hnil index)

theorem Invariant.advance {parameters : Parameters} {state : State n} {next : Publisher n}
    {commands : List ThroughputCommandType} (hinv : Invariant state)
    (hadvance : Advances parameters state.publisher next commands) :
    Invariant (state.publish (next, commands)) := by
  have hround := hinv.round
  have hasked := hinv.asked
  unfold Round at hround
  unfold Asked at hasked
  cases hadvance with
  | noSize hphase =>
      rw [hphase] at hround
      exact ⟨hinv.followed.publish_nil _, by rw [owed_publish_nil]; exact fun _ => hround, trivial⟩
  | announce hphase hsizes =>
      rw [hphase] at hround
      refine ⟨hinv.followed.publish _ _, ?_, trivial⟩
      rw [hinv.followed.owed_publish, step_typeNew (command_typeCommand ..)]
      intro index
      dsimp only
      rw [hround index, List.nil_append]
  | found hphase =>
      rw [hphase] at hround
      refine ⟨hinv.followed.publish_nil _, ?_, trivial⟩
      rw [owed_publish_nil]
      exact Quiet.of_nil hround _
  | waits hphase =>
      rw [hphase] at hround
      refine ⟨hinv.followed.publish_nil _, ?_, ?_⟩
      · rw [owed_publish_nil]
        simp only [State.publish, Round, hphase]
        exact hround
      · simp only [State.publish, Asked, hphase]
  | awake hphase =>
      rw [hphase] at hround
      refine ⟨hinv.followed.publish _ _, ?_, ?_⟩
      · rw [hinv.followed.owed_publish, step_readyToStart (command_awake ..)]
        exact hround.ask beginShape
      · rw [after_publish, step_readyToStart (command_awake ..)]
        exact ⟨rfl, rfl⟩
  | nextDemand hphase =>
      rw [hphase] at hround
      refine ⟨hinv.followed.publish_nil _, ?_, ?_⟩
      · rw [owed_publish_nil]
        simp only [State.publish, Round, hphase]
        exact hround
      · simp only [State.publish, Asked, hphase]
  | noDemand hphase =>
      rw [hphase] at hround
      exact ⟨hinv.followed.publish_nil _, by rw [owed_publish_nil]; exact hround, trivial⟩
  | rigged hphase hready =>
      rw [hphase] at hround hasked
      refine ⟨hinv.followed.publish_nil _, ?_, ?_⟩
      · rw [owed_publish_nil]
        exact hround.all hready
      · rw [log_publish_nil]
        exact hasked
  | start hphase =>
      rw [hphase] at hround hasked
      refine ⟨hinv.followed.publish _ _, ?_, ?_⟩
      · rw [hinv.followed.owed_publish, step_testStarts]
        intro index
        dsimp only
        rw [hround index, List.nil_append]
      · rw [after_publish, step_testStarts]
        exact hasked
  | finish hphase =>
      rw [hphase] at hround hasked
      refine ⟨hinv.followed.publish _ _, ?_, ?_⟩
      · rw [hinv.followed.owed_publish, step_testEnds]
        intro index
        dsimp only
        rw [hround index, List.nil_append, hasked.1, hasked.2]
        rfl
      · rw [after_publish, step_testEnds]
        exact hasked
  | tested hphase hreceived =>
      rw [hphase] at hround
      refine ⟨hinv.followed.publish_nil _, ?_, trivial⟩
      rw [owed_publish_nil]
      exact Quiet.of_nil (hround.all hreceived) _
  | removed hphase hready =>
      rw [hphase] at hround
      refine ⟨hinv.followed.publish_nil _, ?_, trivial⟩
      rw [owed_publish_nil]
      exact hround.all hready
  | stop hphase =>
      rw [hphase] at hround
      refine ⟨hinv.followed.publish _ _, ?_, ?_⟩
      · rw [hinv.followed.owed_publish, step_allStops rfl]
        cases hfailure : state.publisher.testFailure with
        | true => simp only [State.publish, Round, if_true]
        | false =>
            simp only [State.publish, Round, Bool.false_eq_true, if_false]
            intro _ index
            rw [hround hfailure index, List.nil_append]
      · cases hfailure : state.publisher.testFailure
        · simp only [State.publish, Asked, Bool.false_eq_true, if_false]
        · simp only [State.publish, Asked, if_true]

theorem Invariant.withPublisher {state : State n} (hinv : Invariant state)
    {next : Publisher n} (hround : Round next state.owed)
    (hasked : Asked next (machine.after state.log)) : Invariant (state.withPublisher next) where
  followed := hinv.followed
  round := hround
  asked := hasked

theorem Invariant.proceed {state : State n} {next : Publisher n} (hinv : Invariant state)
    (hproceed : Proceeds state.publisher next) : Invariant (state.withPublisher next) := by
  have hround := hinv.round
  have hasked := hinv.asked
  unfold Round at hround
  unfold Asked at hasked
  cases hproceed with
  | prepared hphase =>
      rw [hphase] at hround
      exact hinv.withPublisher (by exact hround) trivial
  | unprepared hphase =>
      rw [hphase] at hround
      exact hinv.withPublisher (fun _ => hround) trivial
  | started hphase =>
      rw [hphase] at hround hasked
      exact hinv.withPublisher (by exact hround) hasked
  | unstarted hphase =>
      rw [hphase] at hround
      exact hinv.withPublisher (Quiet.of_nil hround _) trivial
  | sent batches hphase =>
      rw [hphase] at hround hasked
      exact hinv.withPublisher (by exact hround) hasked
  | ended hphase =>
      rw [hphase] at hround hasked
      refine hinv.withPublisher ?_ hasked
      have hquiet : Quiet (fun _ : Fin n => []) false := Quiet.of_nil (fun _ => rfl) false
      have hasking := hquiet.ask state.publisher.reportShape
      simp only [List.nil_append] at hasking
      rwa [← show state.owed = fun _ => [state.publisher.reportShape] from funext hround]
        at hasking
  | unended hphase =>
      rw [hphase] at hround
      refine hinv.withPublisher (fun index => Or.inr ?_) trivial
      exact ⟨rfl, state.publisher.reportShape, rfl, hround index⟩

theorem Invariant.dispose {state : State n} {next : Publisher n}
    {commands : List ThroughputCommandType} (hinv : Invariant state)
    (hdispose : Disposes state.publisher next commands) :
    Invariant (state.publish (next, commands)) := by
  have hround := hinv.round
  unfold Round at hround
  cases hdispose with
  | disposed hphase =>
      rw [hphase] at hround
      refine ⟨hinv.followed.publish _ _, ?_, trivial⟩
      rw [hinv.followed.owed_publish, step_typeDispose (command_typeCommand ..)]
      exact hround.ask removedShape
  | undisposed hphase =>
      refine ⟨hinv.followed.publish _ _, ?_, trivial⟩
      intro hfailure
      cases hfailure

/-- A test that fails in its results loop leaves reports over. -/
theorem Awaiting.fail {owed : Fin n → List Shape} {publisher : Publisher n} {received : ℕ}
    (hawaiting : Awaiting owed false publisher.reportShape received) : Quiet owed true := by
  intro index
  rcases hawaiting.owed index with hnone | howed | ⟨hfailed, -⟩
  · exact Or.inl hnone
  · exact Or.inr ⟨rfl, publisher.reportShape, rfl, howed⟩
  · cases hfailed

theorem Invariant.timeout {state : State n} {next : Publisher n} (hinv : Invariant state)
    (htimeout : state.publisher.timeout = some next) (hnew : ¬ state.publisher.Repeats) :
    Invariant (state.withPublisher next) := by
  rcases timeout_cases htimeout hnew with rfl | ⟨received, hphase, rfl⟩
  · exact hinv
  · have hround := hinv.round
    unfold Round at hround
    rw [hphase] at hround
    exact hinv.withPublisher hround.fail trivial

theorem Invariant.takeInvalid {state : State n} {next : Publisher n} (hinv : Invariant state)
    (htake : Takes state.publisher none next) : Invariant (state.withPublisher next) := by
  have hround := hinv.round
  have hasked := hinv.asked
  unfold Round at hround
  unfold Asked at hasked
  cases htake with
  | rigging hphase =>
      rw [hphase] at hround hasked
      exact hinv.withPublisher (by exact hround) hasked
  | removing hphase =>
      rw [hphase] at hround
      exact hinv.withPublisher (by exact hround) trivial
  | recorded _ _ hanswer => cases hanswer
  | tooMany hphase => exact hinv.withPublisher trivial trivial
  | failed hphase =>
      rw [hphase] at hround
      exact hinv.withPublisher hround.fail trivial

theorem owed_withSubscriber (state : State n) (index : Fin n) (subscriber : Subscriber) :
    (state.withSubscriber index subscriber).owed =
      Function.update state.owed index (Link.owed machine state.log subscriber.link) := by
  funext other
  by_cases heq : other = index
  · subst heq
    simp only [State.owed, State.withSubscriber, Function.update_self]
  · simp only [State.owed, State.withSubscriber, Function.update_of_ne heq]

/-- The publisher takes an answer of this subscriber. -/
theorem Invariant.take {state : State n} {index : Fin n} {answer : ThroughputCommandType}
    {next : Publisher n} (hinv : Invariant state)
    (hanswer : (state.subscribers index).link.written[(state.subscribers index).link.taken]? =
      some answer)
    (htake : Takes state.publisher (some answer) next) :
    Invariant
      ((state.withPublisher next).withSubscriber index
        { state.subscribers index with link := (state.subscribers index).link.take }) := by
  have hround := hinv.round
  have hasked := hinv.asked
  have howed : state.owed index = shape answer ::
      Link.owed machine state.log (state.subscribers index).link.take :=
    (hinv.followed index).follows.owed_eq_cons hanswer
  have hfollowed : ((state.withPublisher next).withSubscriber index
      { state.subscribers index with link := (state.subscribers index).link.take }).Followed := by
    have hpublisher : (state.withPublisher next).Followed := hinv.followed
    exact hpublisher.withSubscriber index ((hinv.followed index).take hanswer)
  have hnext : ((state.withPublisher next).withSubscriber index
      { state.subscribers index with link := (state.subscribers index).link.take }).owed =
      Function.update state.owed index
        (Link.owed machine state.log (state.subscribers index).link.take) :=
    owed_withSubscriber (state.withPublisher next) index _
  unfold Round at hround
  unfold Asked at hasked
  cases htake with
  | @rigging ready hphase =>
      rw [hphase] at hround hasked
      refine ⟨hfollowed, ?_, hasked⟩
      rw [hnext]
      rcases hround.take howed with ⟨hfirst, -, hcounted⟩ | ⟨-, hreport, hcounted⟩
      · have hbegin : answer.command = .begin := congrArg Prod.fst hfirst
        have hcount : counted .begin ready (some answer) = ready + 1 := if_pos hbegin
        rw [hcount]
        exact hcounted
      · have hresults : answer.command = .testResults := hreport
        have hcount : counted .begin ready (some answer) = ready :=
          if_neg (by rw [hresults]; decide)
        rw [hcount]
        exact hcounted
  | @removing ready hphase =>
      rw [hphase] at hround
      refine ⟨hfollowed, ?_, trivial⟩
      rw [hnext]
      rcases hround.take howed with ⟨hfirst, -, hcounted⟩ | ⟨-, hreport, hcounted⟩
      · have hremoved : answer.command = .typeRemoved := congrArg Prod.fst hfirst
        have hcount : counted .typeRemoved ready (some answer) = ready + 1 := if_pos hremoved
        rw [hcount]
        exact hcounted
      · have hresults : answer.command = .testResults := hreport
        have hcount : counted .typeRemoved ready (some answer) = ready :=
          if_neg (by rw [hresults]; decide)
        rw [hcount]
        exact hcounted
  | recorded hphase =>
      rw [hphase] at hround hasked
      refine ⟨hfollowed, ?_, hasked⟩
      rw [hnext]
      rcases hround.take howed with ⟨-, -, hcounted⟩ | ⟨hfailed, -⟩
      · exact hcounted
      · cases hfailed
  | tooMany hphase => exact ⟨hfollowed, trivial, trivial⟩
  | failed hphase hother =>
      rw [hphase] at hround
      rcases hround.take howed with ⟨hfirst, -⟩ | ⟨hfailed, -⟩
      · exact absurd (congrArg Prod.fst hfirst) (hother answer rfl)
      · cases hfailed

/-- The steps of a subscriber and of its data reader. -/
theorem Invariant.withSubscriber {state : State n} (hinv : Invariant state) {index : Fin n}
    {subscriber : Subscriber} (hfollowing : Following state.log subscriber)
    (howed : Link.owed machine state.log subscriber.link = state.owed index) :
    Invariant (state.withSubscriber index subscriber) where
  followed := hinv.followed.withSubscriber index hfollowing
  round := by
    rw [owed_withSubscriber, howed, Function.update_eq_self]
    exact hinv.round
  asked := hinv.asked

/-- The run never counts an answer again. -/
def Unrepeated (state : State n) (action : Action n) : Prop :=
  action = .timeout → ¬ state.publisher.Repeats

theorem Invariant.step {parameters : Parameters} {state next : State n} {action : Action n}
    (hinv : Invariant state) (hstep : step parameters state action = some next)
    (hnew : Unrepeated state action) : Invariant next := by
  cases action with
  | advance =>
      obtain ⟨⟨publisher, commands⟩, hadvance, rfl⟩ := Option.map_eq_some_iff.mp hstep
      exact hinv.advance (advances_of_advance hadvance)
  | prepare prepared =>
      obtain ⟨publisher, hprepare, rfl⟩ := Option.map_eq_some_iff.mp hstep
      exact hinv.proceed (proceeds_of_prepare hprepare)
  | dispose prepared =>
      obtain ⟨⟨publisher, commands⟩, hdispose, rfl⟩ := Option.map_eq_some_iff.mp hstep
      exact hinv.dispose (disposes_of_dispose hdispose)
  | acknowledge inTime =>
      obtain ⟨publisher, hacknowledge, rfl⟩ := Option.map_eq_some_iff.mp hstep
      exact hinv.proceed (proceeds_of_acknowledge hacknowledge)
  | send batches =>
      obtain ⟨publisher, hsend, rfl⟩ := Option.map_eq_some_iff.mp hstep
      exact hinv.proceed (proceeds_of_send hsend)
  | take index =>
      simp only [CppProj.ThroughputTest.step, takeStep] at hstep
      split at hstep
      case h_1 answer hanswer =>
        obtain ⟨publisher, htake, rfl⟩ := Option.map_eq_some_iff.mp hstep
        exact hinv.take hanswer (takes_of_take htake)
      case h_2 => cases hstep
  | takeInvalid =>
      obtain ⟨publisher, htake, rfl⟩ := Option.map_eq_some_iff.mp hstep
      exact hinv.takeInvalid (takes_of_take htake)
  | timeout =>
      obtain ⟨publisher, htimeout, rfl⟩ := Option.map_eq_some_iff.mp hstep
      exact hinv.timeout htimeout (hnew rfl)
  | processMessage index prepared totalTime =>
      simp only [CppProj.ThroughputTest.step, processMessageStep] at hstep
      split_ifs at hstep
      split at hstep
      case h_1 command hcommand =>
        cases hstep
        have hfollowing := hinv.followed index
        refine hinv.withSubscriber (hfollowing.processMessage hcommand prepared totalTime) ?_
        rcases (state.subscribers index).processMessage_cases command prepared totalTime with
          hstopped | ⟨answers, hlink, -⟩
        · rw [hstopped]
          rfl
        · rw [hlink]
          rfl
      case h_2 => cases hstep
  | atWriter event =>
      obtain ⟨publisher, hat, rfl⟩ := Option.map_eq_some_iff.mp hstep
      obtain ⟨_, _, _, rfl⟩ := (writerSteps_of_atWriter hat).eq
      exact hinv.withPublisher hinv.round hinv.asked
  | atReader index event =>
      obtain ⟨subscriber, hat, rfl⟩ := Option.map_eq_some_iff.mp hstep
      obtain ⟨hlink, hview, -⟩ := (readerSteps_of_atReader hat).frame
      exact hinv.withSubscriber ((hinv.followed index).of_view hlink hview) (by rw [hlink]; rfl)

end CppProj.ThroughputTest
