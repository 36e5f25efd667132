import CppProj.ListUpdate
import CppProj.ThroughputTestLockStep

/-!
# Smooth runs of the throughput test

A run is smooth when the middleware does what it is asked in time, no
notification falls between the check of a wait and its sleep, and no wait wakes
up without one.  Then no subscriber stops before the end, whoever sleeps has
something to wait for, and from the first test of a payload on every subscriber
has found its writer.

Every payload needs a test.  Without one the publisher may remove its writer
before a subscriber has found it, and the subscriber waits for it for ever.
-/

namespace CppProj.ThroughputTest

open BroadcastReplies PerformanceTypes TransitionSystem
open ThroughputSubscriber (DataReaderListener Sample)

variable {n : ℕ}

/-- The middleware does what it is asked, and in time, and no notification is
lost. -/
def Smooth (state : State n) : Action n → Prop
  | .prepare prepared | .dispose prepared | .processMessage _ prepared _ => prepared = true
  | .acknowledge inTime => inTime = true
  | .takeInvalid | .timeout | .atWriter .wakeUp | .atReader _ .wakeUp => False
  | .atWriter .notify => state.publisher.discoveryWait ≠ .blocking
  | .atReader index .notify => (state.subscribers index).discoveryWait ≠ .blocking
  | _ => True

instance (state : State n) : DecidablePred (Smooth state)
  | .prepare prepared | .dispose prepared | .processMessage _ prepared _ =>
      inferInstanceAs (Decidable (prepared = true))
  | .acknowledge inTime => inferInstanceAs (Decidable (inTime = true))
  | .takeInvalid | .timeout | .atWriter .wakeUp | .atReader _ .wakeUp => isFalse id
  | .atWriter .notify => inferInstanceAs (Decidable (_ ≠ WaitPhase.blocking))
  | .atReader _ .notify => inferInstanceAs (Decidable (_ ≠ WaitPhase.blocking))
  | .advance | .send _ | .take _ | .atWriter (.matched _) | .atWriter (.unmatched _)
  | .atReader _ .awaitWriter | .atReader _ .matched | .atReader _ .unmatched
  | .atReader _ .dataAvailable | .atReader _ (.takeNextSample _) => isTrue trivial

theorem Smooth.unrepeated {state : State n} {action : Action n} (hsmooth : Smooth state action) :
    Unrepeated state action := by
  rintro rfl
  exact hsmooth.elim

def Phase.ended : Phase → Bool
  | .printed | .returned | .aborted => true
  | _ => false

/-! ## What a command does to a subscriber that may take it -/

theorem discovering_processMessage {subscriber : Subscriber} {command : ThroughputCommandType}
    {prepared : Bool} {totalTime : UInt64} (hnone : subscriber.discovering = false)
    (hdiscovering :
      (subscriber.processMessage command prepared totalTime).discovering = true) :
    command.command = .typeNew ∧
      (subscriber.processMessage command prepared totalTime).discoveryWait = .testing := by
  cases hcommand : command.command with
  | typeNew =>
      simp only [Subscriber.processMessage, hcommand] at hdiscovering ⊢
      split_ifs at hdiscovering ⊢ with hprepared
      · exact ⟨trivial, rfl⟩
      · exact absurd (hnone.symm.trans hdiscovering) Bool.false_ne_true
  | typeDispose =>
      simp only [Subscriber.processMessage, hcommand] at hdiscovering
      split_ifs at hdiscovering
      · exact absurd (hnone.symm.trans hdiscovering) Bool.false_ne_true
      · exact absurd (hnone.symm.trans hdiscovering) Bool.false_ne_true
  | readyToStart | testEnds | allStops | default | begin | testStarts | typeRemoved
  | testResults =>
      simp only [Subscriber.processMessage, hcommand] at hdiscovering
      exact absurd (hnone.symm.trans hdiscovering) Bool.false_ne_true

/-- The commands that do not make this subscriber stop. -/
structure Accepts (view : View) (command : ThroughputCommandType) : Prop where
  typeNew : command.command = .typeNew → view.dataReader = none
  typeDispose : command.command = .typeDispose → view.dataReader ≠ none
  allStops : command.command ≠ .allStops

theorem stopped_processMessage {subscriber : Subscriber} {command : ThroughputCommandType}
    (haccepts : Accepts subscriber.view command) (totalTime : UInt64) :
    (subscriber.processMessage command true totalTime).stopped = subscriber.stopped := by
  cases hcommand : command.command with
  | typeNew =>
      have hnone : subscriber.dataReader = none := haccepts.typeNew hcommand
      simp only [Subscriber.processMessage, hcommand, hnone, Option.isNone_none, Bool.and_self,
        if_true]
      rfl
  | typeDispose =>
      have hsome : subscriber.dataReader.isSome = true :=
        Option.isSome_iff_ne_none.mpr (haccepts.typeDispose hcommand)
      simp only [Subscriber.processMessage, hcommand, hsome, Bool.and_self, if_true]
      rfl
  | allStops => exact absurd hcommand haccepts.allStops
  | readyToStart | testEnds | default | begin | testStarts | typeRemoved | testResults =>
      simp only [Subscriber.processMessage, hcommand]
      rfl

theorem matched_processMessage (subscriber : Subscriber) (command : ThroughputCommandType)
    (prepared : Bool) (totalTime : UInt64) :
    command.command ≠ .readyToStart ∧
        (subscriber.processMessage command prepared totalTime).listener.matched =
          subscriber.listener.matched ∨
      (subscriber.processMessage command prepared totalTime).listener.matched = 0 := by
  cases hcommand : command.command with
  | readyToStart =>
      simp only [Subscriber.processMessage, hcommand]
      exact Or.inr rfl
  | typeNew =>
      simp only [Subscriber.processMessage, hcommand]
      split_ifs
      · exact Or.inl ⟨Command.noConfusion, rfl⟩
      · exact Or.inl ⟨Command.noConfusion, rfl⟩
  | typeDispose =>
      simp only [Subscriber.processMessage, hcommand]
      split_ifs
      · exact Or.inr rfl
      · exact Or.inl ⟨Command.noConfusion, rfl⟩
  | testEnds | allStops | default | begin | testStarts | typeRemoved | testResults =>
      simp only [Subscriber.processMessage, hcommand]
      exact Or.inl ⟨Command.noConfusion, rfl⟩

theorem matched_take (listener : DataReaderListener) (sample : Sample) :
    (listener.take sample).matched = listener.matched := by
  unfold DataReaderListener.take
  split <;> rfl

/-! ## The invariant of smooth runs -/

/-- Every command of the log is accepted by whoever has handled the ones before. -/
def Acceptable (log : List ThroughputCommandType) : Prop :=
  ∀ (position : ℕ) (command : ThroughputCommandType), log[position]? = some command →
    Accepts (machine.after (log.take position)) command

theorem Acceptable.append {log : List ThroughputCommandType} (hacceptable : Acceptable log)
    {command : ThroughputCommandType} (haccepts : Accepts (machine.after log) command) :
    Acceptable (log ++ [command]) := by
  intro position found hfound
  rcases ListUpdate.getElem?_append_singleton_cases hfound with hold | ⟨rfl, rfl⟩
  · rw [List.take_append_of_le_length (List.getElem?_eq_some_iff.mp hold).1.le]
    exact hacceptable position found hold
  · rw [List.take_left]
    exact haccepts

/-- The subscriber waits for the writer, or has found it and was not reset since. -/
def Subscriber.New (subscriber : Subscriber) : Prop :=
  subscriber.discovering = true ∨ subscriber.listener.matched ≠ 0

/-- All subscribers are past the last announcement, and have been reset since they
found the writer. -/
def Past (state : State n) : Prop :=
  ∃ before rest, state.log = before ++ rest ∧
    (∀ command ∈ rest, command.command ≠ .typeNew) ∧
    ∀ index, before.length ≤ (state.subscribers index).link.position ∧
      ¬ (state.subscribers index).New

/-- From the first test of a payload on every subscriber has found its writer. -/
def Found (state : State n) : Prop :=
  match state.publisher.phase with
  | .starting | .startsAcknowledgment | .sending | .ending | .endsAcknowledgment | .results _
  | .disposing | .removing _ => Past state
  | .demands => Past state ∨ state.publisher.demands ≠ [] ∧ state.publisher.recovery = 0
  | _ => True

/-- The type that the log leaves the subscribers with. -/
def Announced (state : State n) : Prop :=
  match state.publisher.phase with
  | .endpoints => (machine.after state.log).dataReader ≠ none
  | _ => (machine.after state.log).dataReader = state.publisher.dataWriter

/-- A type was announced and no test asked for since. -/
def EndsAnnounced (log : List ThroughputCommandType) : Prop :=
  ∃ before command rest, log = before ++ command :: rest ∧ command.command = .typeNew ∧
    ∀ later ∈ rest, later.command ≠ .readyToStart

/-- A subscriber whose wait is smooth. -/
structure SmoothWait (log : List ThroughputCommandType) (dataWriter : Option UInt32)
    (subscriber : Subscriber) : Prop where
  reader : subscriber.discovering = true → subscriber.dataReader ≠ none
  new : subscriber.New → EndsAnnounced (log.take subscriber.link.position)
  matched_le : subscriber.listener.matched = 0 ∨ subscriber.listener.matched = 1
  writer : subscriber.listener.matched ≠ 0 → dataWriter ≠ none
  wakes : subscriber.discovering = true →
    WakeupPending (decide (subscriber.totalMatches = 3)) subscriber.notifications
      subscriber.discoveryWait

/-- In the wait for the readers somebody will wake the publisher when all are found. -/
def Publisher.Wakes (publisher : Publisher n) : Prop :=
  publisher.phase = .discovery →
    WakeupPending (decide (publisher.totalMatches = n * 3)) publisher.notifications
      publisher.discoveryWait

structure SmoothState (state : State n) : Prop where
  lock : LockStep state
  acceptable : state.publisher.phase.ended = false → Acceptable state.log
  announced : state.publisher.phase.ended = false → Announced state
  demands : ∀ entry ∈ state.publisher.sizes, entry.2 ≠ []
  found : Found state
  waits : ∀ index, SmoothWait state.log state.publisher.dataWriter (state.subscribers index)
  wakes : state.publisher.Wakes
  stopped : state.publisher.phase.ended = false →
    ∀ index, (state.subscribers index).stopped = false

theorem publish_nil (state : State n) (publisher : Publisher n) :
    state.publish (publisher, []) = state.withPublisher publisher := by
  rw [State.publish, List.append_nil]
  rfl

theorem Past.publish {state : State n} (hpast : Past state) (publisher : Publisher n)
    {commands : List ThroughputCommandType}
    (hcommands : ∀ command ∈ commands, command.command ≠ .typeNew) :
    Past (state.publish (publisher, commands)) := by
  obtain ⟨before, rest, hlog, hrest, hsubscribers⟩ := hpast
  refine ⟨before, rest ++ commands, ?_, ?_, hsubscribers⟩
  · rw [State.publish, hlog, List.append_assoc]
  · intro command hmem
    rcases List.mem_append.mp hmem with hold | hnew
    · exact hrest command hold
    · exact hcommands command hnew

/-- The commands that concern a test only. -/
def TestCommand (command : ThroughputCommandType) : Prop :=
  command.command = .readyToStart ∨ command.command = .testStarts ∨ command.command = .testEnds

theorem TestCommand.ne {command : ThroughputCommandType} (htest : TestCommand command) :
    command.command ≠ .typeNew ∧ command.command ≠ .typeDispose ∧
      command.command ≠ .allStops := by
  rcases htest with hkind | hkind | hkind <;> rw [hkind] <;> decide

theorem TestCommand.accepts {command : ThroughputCommandType} (htest : TestCommand command)
    (view : View) : Accepts view command where
  typeNew := fun hkind => absurd hkind htest.ne.1
  typeDispose := fun hkind => absurd hkind htest.ne.2.1
  allStops := htest.ne.2.2

theorem TestCommand.dataReader {command : ThroughputCommandType} (htest : TestCommand command)
    (view : View) : (machine.step view command).1.dataReader = view.dataReader := by
  rcases htest with hkind | hkind | hkind <;> simp only [machine, react, hkind] <;> rfl

/-- A step of the publisher that does not remove a writer that somebody has found. -/
theorem SmoothState.waits_publish {state : State n} (hsmooth : SmoothState state)
    {publisher : Publisher n} (commands : List ThroughputCommandType)
    (hwriter : ∀ index, (state.subscribers index).listener.matched ≠ 0 →
      state.publisher.dataWriter ≠ none → publisher.dataWriter ≠ none) (index : Fin n) :
    SmoothWait (state.log ++ commands) publisher.dataWriter (state.subscribers index) := by
  have hwaits := hsmooth.waits index
  refine ⟨hwaits.reader, ?_, hwaits.matched_le,
    fun hmatched => hwriter index hmatched (hwaits.writer hmatched), hwaits.wakes⟩
  rw [List.take_append_of_le_length (hsmooth.lock.rounds.followed index).follows.position_le]
  exact hwaits.new

/-- A step that writes at most a command of a test and keeps the writer. -/
theorem SmoothState.publish {state : State n} (hsmooth : SmoothState state)
    {publisher : Publisher n} {commands : List ThroughputCommandType}
    (hlock : LockStep (state.publish (publisher, commands)))
    (hcommands : commands = [] ∨ ∃ command, commands = [command] ∧ TestCommand command)
    (hended : state.publisher.phase.ended = false)
    (hphase : state.publisher.phase ≠ .endpoints) (hnext : publisher.phase ≠ .endpoints)
    (hwakes : publisher.Wakes)
    (hwriter : publisher.dataWriter = state.publisher.dataWriter)
    (hsizes : ∀ entry ∈ publisher.sizes, entry ∈ state.publisher.sizes)
    (hfound : Found (state.publish (publisher, commands))) :
    SmoothState (state.publish (publisher, commands)) where
  lock := hlock
  acceptable := by
    intro _
    rcases hcommands with rfl | ⟨command, rfl, htest⟩
    · rw [log_publish_nil]
      exact hsmooth.acceptable hended
    · exact (hsmooth.acceptable hended).append (htest.accepts _)
  announced := by
    intro _
    have hannounced := hsmooth.announced hended
    unfold Announced at hannounced ⊢
    split at hannounced
    case h_1 hendpoints => exact absurd hendpoints hphase
    case h_2 =>
      split
      case h_1 hendpoints => exact absurd hendpoints hnext
      case h_2 =>
        have hwritten : (state.publish (publisher, commands)).publisher.dataWriter =
            state.publisher.dataWriter := hwriter
        rw [hwritten, ← hannounced]
        rcases hcommands with rfl | ⟨command, rfl, htest⟩
        · rw [log_publish_nil]
        · rw [after_publish, htest.dataReader]
  demands := fun entry hmem => hsmooth.demands entry (hsizes entry hmem)
  found := hfound
  waits := hsmooth.waits_publish commands fun _ _ hsome => by rwa [← hwriter] at hsome
  wakes := hwakes
  stopped := fun _ => hsmooth.stopped hended

/-- A subscriber that owes nothing has been reset when the test starts. -/
theorem SmoothState.past_rigged {state : State n} (hsmooth : SmoothState state)
    {ready : ℕ} (hphase : state.publisher.phase = .rigging ready) (hready : n ≤ ready) :
    Past state := by
  have hround := hsmooth.lock.rounds.round
  have hlogged := hsmooth.lock.logged
  unfold Round at hround
  unfold Logged at hlogged
  rw [hphase] at hround hlogged
  obtain ⟨before, command, hlog, hcommand⟩ := hlogged
  have hposition : ∀ index, state.log.length ≤ (state.subscribers index).link.position := by
    intro index
    have hreply : (machine.step (machine.after before) command).2 ≠ [] := by
      rw [step_readyToStart hcommand]
      exact List.cons_ne_nil _ _
    have hlt := (hsmooth.lock.rounds.followed index).follows.lt_position
      (hround.all hready index) hlog hreply
    rw [hlog, List.length_append, List.length_singleton]
    exact hlt
  refine ⟨state.log, [], (List.append_nil _).symm, fun _ hmem => absurd hmem List.not_mem_nil,
    fun index => ⟨hposition index, fun hnew => ?_⟩⟩
  obtain ⟨earlier, announcement, rest, htake, htype, hrest⟩ := (hsmooth.waits index).new hnew
  rw [List.take_of_length_le (hposition index), hlog] at htake
  have hlast := congrArg List.getLast? htake
  rw [List.getLast?_concat, List.getLast?_append_cons] at hlast
  -- the question is the last command, so it is not behind the announcement
  rcases List.mem_cons.mp (List.mem_of_getLast? hlast.symm) with rfl | hmem
  · rw [hcommand] at htype
    cases htype
  · exact hrest command hmem hcommand

theorem SmoothState.announce {state : State n} (hsmooth : SmoothState state)
    {publisher : Publisher n} {command : ThroughputCommandType}
    (hlock : LockStep (state.publish (publisher, [command])))
    (hphase : state.publisher.phase = .sizes) (hnext : publisher.phase = .endpoints)
    (hsizes : publisher.sizes = state.publisher.sizes)
    (hwriter : publisher.dataWriter = state.publisher.dataWriter)
    (hcommand : command.command = .typeNew) :
    SmoothState (state.publish (publisher, [command])) := by
  have hended : state.publisher.phase.ended = false := by rw [hphase]; rfl
  have hannounced := hsmooth.announced hended
  have hopened := hsmooth.lock.opened
  unfold Announced at hannounced
  unfold Opened at hopened
  rw [hphase] at hannounced hopened
  constructor
  case lock => exact hlock
  case acceptable =>
    refine fun _ => (hsmooth.acceptable hended).append ?_
    constructor
    case typeNew => exact fun _ => hannounced.trans hopened
    case typeDispose =>
      rw [hcommand]
      exact Command.noConfusion
    case allStops =>
      rw [hcommand]
      decide
  case announced =>
    intro _
    unfold Announced
    rw [show (state.publish (publisher, [command])).publisher.phase = .endpoints from hnext,
      after_publish, step_typeNew hcommand]
    exact Option.some_ne_none _
  case demands =>
    intro entry hmem
    rw [State.publish, hsizes] at hmem
    exact hsmooth.demands entry hmem
  case found =>
    unfold Found
    rw [show (state.publish (publisher, [command])).publisher.phase = .endpoints from hnext]
    trivial
  case waits => exact hsmooth.waits_publish [command] fun _ _ hsome => by rwa [← hwriter] at hsome
  case wakes =>
    intro hdiscovery
    rw [State.publish, hnext] at hdiscovery
    cases hdiscovery
  case stopped => exact fun _ => hsmooth.stopped hended

theorem SmoothState.advance {parameters : Parameters} {state : State n} {next : Publisher n}
    {commands : List ThroughputCommandType} (hrecovery : parameters.recoveryTimes ≠ [])
    (hsmooth : SmoothState state)
    (hadvance : Advances parameters state.publisher next commands) :
    SmoothState (state.publish (next, commands)) := by
  have hlock := hsmooth.lock.advance hadvance
  have hfound := hsmooth.found
  unfold Found at hfound
  have hnil : ∀ command ∈ ([] : List ThroughputCommandType), command.command ≠ .typeNew :=
    fun _ hmem => absurd hmem List.not_mem_nil
  cases hadvance with
  | noSize hphase =>
      exact hsmooth.publish hlock (Or.inl rfl) (by rw [hphase]; rfl)
        (by rw [hphase]; exact Phase.noConfusion) Phase.noConfusion Phase.noConfusion rfl
        (fun _ hmem => hmem) trivial
  | announce hphase =>
      exact hsmooth.announce hlock hphase rfl rfl rfl (command_typeCommand ..)
  | found hphase hsizes =>
      refine hsmooth.publish hlock (Or.inl rfl) (by rw [hphase]; rfl)
        (by rw [hphase]; exact Phase.noConfusion) Phase.noConfusion Phase.noConfusion rfl
        (fun _ hmem => hmem) (Or.inr ⟨?_, rfl⟩)
      exact hsmooth.demands _ (by rw [hsizes]; exact List.mem_cons_self)
  | waits hphase hwaits =>
      refine hsmooth.publish hlock (Or.inl rfl) (by rw [hphase]; rfl)
        (by rw [hphase]; exact Phase.noConfusion) (by rw [hphase]; exact Phase.noConfusion) ?_
        rfl (fun _ hmem => hmem) (by simp only [Found, State.publish, hphase])
      exact fun _ => (hsmooth.wakes hphase).waits (by rwa [decide_eq_true_eq])
  | awake hphase =>
      exact hsmooth.publish hlock (Or.inr ⟨_, rfl, Or.inl (command_awake ..)⟩)
        (by rw [hphase]; rfl) (by rw [hphase]; exact Phase.noConfusion) Phase.noConfusion
        Phase.noConfusion rfl (fun _ hmem => hmem) trivial
  | nextDemand hphase hsizes hdemands hnone =>
      rw [hphase] at hfound
      refine hsmooth.publish hlock (Or.inl rfl) (by rw [hphase]; rfl)
        (by rw [hphase]; exact Phase.noConfusion) (by rw [hphase]; exact Phase.noConfusion)
        (fun hdiscovery => Phase.noConfusion (hphase.symm.trans hdiscovery)) rfl
        (fun _ hmem => hmem) ?_
      simp only [Found, State.publish, hphase]
      rcases hfound with hpast | ⟨-, hzero⟩
      · exact Or.inl (hpast.publish _ hnil)
      · rw [hzero, UInt16.toNat_zero, List.getElem?_eq_none_iff] at hnone
        exact absurd (List.eq_nil_of_length_eq_zero (Nat.le_zero.mp hnone)) hrecovery
  | noDemand hphase hnone =>
      rw [hphase] at hfound
      refine hsmooth.publish hlock (Or.inl rfl) (by rw [hphase]; rfl)
        (by rw [hphase]; exact Phase.noConfusion) Phase.noConfusion Phase.noConfusion rfl
        (fun _ hmem => hmem) ?_
      rcases hfound with hpast | ⟨hsome, -⟩
      · exact hpast.publish _ hnil
      · have hopened := hsmooth.lock.opened
        unfold Opened at hopened
        rw [hphase] at hopened
        obtain ⟨size, demands, rest, hsizes, -⟩ := hopened
        rcases hnone with hnil | hnil
        · rw [hsizes] at hnil
          cases hnil
        · exact absurd hnil hsome
  | rigged hphase hready =>
      exact hsmooth.publish hlock (Or.inl rfl) (by rw [hphase]; rfl)
        (by rw [hphase]; exact Phase.noConfusion) Phase.noConfusion Phase.noConfusion rfl
        (fun _ hmem => hmem)
        ((hsmooth.past_rigged hphase hready).publish _ hnil)
  | start hphase =>
      rw [hphase] at hfound
      refine hsmooth.publish hlock (Or.inr ⟨_, rfl, Or.inr (Or.inl rfl)⟩) (by rw [hphase]; rfl)
        (by rw [hphase]; exact Phase.noConfusion) Phase.noConfusion Phase.noConfusion rfl
        (fun _ hmem => hmem)
        (Past.publish hfound _ ?_)
      intro command hmem
      rw [List.mem_singleton.mp hmem]
      decide
  | finish hphase =>
      rw [hphase] at hfound
      refine hsmooth.publish hlock (Or.inr ⟨_, rfl, Or.inr (Or.inr rfl)⟩) (by rw [hphase]; rfl)
        (by rw [hphase]; exact Phase.noConfusion) Phase.noConfusion Phase.noConfusion rfl
        (fun _ hmem => hmem)
        (Past.publish hfound _ ?_)
      intro command hmem
      rw [List.mem_singleton.mp hmem]
      decide
  | tested hphase =>
      rw [hphase] at hfound
      exact hsmooth.publish hlock (Or.inl rfl) (by rw [hphase]; rfl)
        (by rw [hphase]; exact Phase.noConfusion) Phase.noConfusion Phase.noConfusion rfl
        (fun _ hmem => hmem)
        (Or.inl (Past.publish hfound _ hnil))
  | removed hphase =>
      exact hsmooth.publish hlock (Or.inl rfl) (by rw [hphase]; rfl)
        (by rw [hphase]; exact Phase.noConfusion) Phase.noConfusion Phase.noConfusion rfl
        (fun _ hmem => List.mem_of_mem_tail hmem) trivial
  | stop hphase =>
      have hend : (if state.publisher.testFailure then Phase.returned
          else Phase.printed).ended = true := by
        split_ifs <;> rfl
      have hends : ∀ {goal : Prop},
          (if state.publisher.testFailure then Phase.returned else Phase.printed).ended =
            false → goal := by
        intro goal hnot
        rw [hend] at hnot
        cases hnot
      constructor
      case lock => exact hlock
      case acceptable => exact fun hnot => hends hnot
      case announced => exact fun hnot => hends hnot
      case demands => exact hsmooth.demands
      case found =>
        simp only [Found, State.publish]
        cases state.publisher.testFailure <;> trivial
      case waits => exact hsmooth.waits_publish _ fun _ _ hsome => hsome
      case wakes =>
        intro hdiscovery
        have hnot : (state.publisher.testFailure = true → Phase.returned = Phase.discovery) ∧
            (state.publisher.testFailure = false → Phase.printed = Phase.discovery) := by
          simp only [State.publish] at hdiscovery
          split_ifs at hdiscovery
        cases hfailure : state.publisher.testFailure with
        | true => cases hnot.1 hfailure
        | false => cases hnot.2 hfailure
      case stopped => exact fun hnot => hends hnot

/-- A step that writes nothing and keeps the writer. -/
theorem SmoothState.withPublisher {state : State n} (hsmooth : SmoothState state)
    {publisher : Publisher n} (hlock : LockStep (state.withPublisher publisher))
    (hended : state.publisher.phase.ended = false)
    (hphase : state.publisher.phase ≠ .endpoints) (hnext : publisher.phase ≠ .endpoints)
    (hwakes : publisher.Wakes)
    (hwriter : publisher.dataWriter = state.publisher.dataWriter)
    (hsizes : publisher.sizes = state.publisher.sizes)
    (hfound : Found (state.withPublisher publisher)) :
    SmoothState (state.withPublisher publisher) := by
  rw [← publish_nil] at hlock hfound ⊢
  refine hsmooth.publish hlock (Or.inl rfl) hended hphase hnext hwakes hwriter ?_ hfound
  intro entry hmem
  rwa [hsizes] at hmem

theorem SmoothState.prepare {state : State n} {next : Publisher n}
    (hsmooth : SmoothState state) (hprepare : state.publisher.prepare true = some next) :
    SmoothState (state.withPublisher next) := by
  have hlock := hsmooth.lock.proceed (proceeds_of_prepare hprepare)
  have hopened := hsmooth.lock.opened
  have hlogged := hsmooth.lock.logged
  unfold Opened at hopened
  unfold Logged at hlogged
  unfold Publisher.prepare at hprepare
  split at hprepare
  case h_1 size demands rest hphase hsizes =>
    rw [hphase] at hopened hlogged
    obtain ⟨before, command, other, otherDemands, otherRest, hother, hlog, -, hcommand, hsize⟩ :=
      hlogged
    rw [hsizes, List.cons.injEq, Prod.mk.injEq] at hother
    have hended : state.publisher.phase.ended = false := by rw [hphase]; rfl
    rw [if_pos (by rw [hopened]; rfl)] at hprepare
    cases hprepare
    constructor
    case lock => exact hlock
    case acceptable => exact fun _ => hsmooth.acceptable hended
    case announced =>
      intro _
      have hafter : (machine.after state.log).dataReader = some size := by
        rw [hlog, Machine.after_concat, step_typeNew hcommand, hsize, ← hother.1.1]
        rfl
      exact hafter
    case demands => exact hsmooth.demands
    case found => trivial
    case waits =>
      intro index
      have hwaits := hsmooth.waits index
      exact ⟨hwaits.reader, hwaits.new, hwaits.matched_le, fun _ => Option.some_ne_none _,
        hwaits.wakes⟩
    case wakes =>
      exact fun _ => WakeupPending.awake WaitPhase.noConfusion WaitPhase.noConfusion
    case stopped => exact fun _ => hsmooth.stopped hended
  case h_2 => cases hprepare

theorem SmoothState.acknowledge {state : State n} {next : Publisher n}
    (hsmooth : SmoothState state) (hacknowledge : state.publisher.acknowledge true = some next) :
    SmoothState (state.withPublisher next) := by
  have hlock := hsmooth.lock.proceed (proceeds_of_acknowledge hacknowledge)
  have hfound := hsmooth.found
  unfold Found at hfound
  unfold Publisher.acknowledge at hacknowledge
  split at hacknowledge
  case h_1 hphase | h_2 hphase =>
    rw [hphase] at hfound
    cases hacknowledge
    exact hsmooth.withPublisher hlock (by rw [hphase]; rfl)
      (by rw [hphase]; exact Phase.noConfusion) Phase.noConfusion Phase.noConfusion rfl rfl
      hfound
  case h_3 => cases hacknowledge

theorem SmoothState.send {state : State n} {next : Publisher n} {batches : ℕ}
    (hsmooth : SmoothState state) (hsend : state.publisher.send batches = some next) :
    SmoothState (state.withPublisher next) := by
  have hlock := hsmooth.lock.proceed (proceeds_of_send hsend)
  have hfound := hsmooth.found
  unfold Found at hfound
  unfold Publisher.send at hsend
  split at hsend
  case h_1 hphase =>
    rw [hphase] at hfound
    cases hsend
    exact hsmooth.withPublisher hlock (by rw [hphase]; rfl)
      (by rw [hphase]; exact Phase.noConfusion) Phase.noConfusion Phase.noConfusion rfl rfl
      hfound
  case h_2 => cases hsend

theorem SmoothState.dispose {state : State n} {next : Publisher n}
    {commands : List ThroughputCommandType} (hsmooth : SmoothState state)
    (hdispose : state.publisher.dispose true = some (next, commands)) :
    SmoothState (state.publish (next, commands)) := by
  have hlock := hsmooth.lock.dispose (disposes_of_dispose hdispose)
  have hfound := hsmooth.found
  have hopened := hsmooth.lock.opened
  unfold Found at hfound
  unfold Opened at hopened
  unfold Publisher.dispose at hdispose
  split at hdispose
  case h_1 size demands rest hphase hsizes =>
    rw [hphase] at hfound hopened
    obtain ⟨opened, _, _, -, hwriter, -⟩ := hopened
    have hended : state.publisher.phase.ended = false := by rw [hphase]; rfl
    have hannounced := hsmooth.announced hended
    unfold Announced at hannounced
    rw [hphase] at hannounced
    have hcommand := command_typeCommand state.publisher .typeDispose size demands
    rw [if_pos (by rw [hwriter]; rfl)] at hdispose
    cases hdispose
    constructor
    case lock => exact hlock
    case acceptable =>
      refine fun _ => (hsmooth.acceptable hended).append ?_
      constructor
      case typeNew =>
        rw [hcommand]
        exact Command.noConfusion
      case typeDispose =>
        intro _
        rw [hannounced, hwriter]
        exact Option.some_ne_none _
      case allStops =>
        rw [hcommand]
        decide
    case announced =>
      intro _
      unfold Announced
      rw [after_publish, step_typeDispose hcommand]
      rfl
    case demands => exact hsmooth.demands
    case found =>
      refine Past.publish hfound _ ?_
      intro command hmem
      rw [List.mem_singleton.mp hmem, hcommand]
      decide
    case waits =>
      refine hsmooth.waits_publish _ fun index hmatched => ?_
      obtain ⟨_, _, -, -, hpast⟩ := (show Past state from hfound)
      exact absurd (Or.inr hmatched) (hpast index).2
    case wakes => exact Phase.noConfusion
    case stopped => exact fun _ => hsmooth.stopped hended
  case h_2 => cases hdispose

/-- The publisher after an answer, before the link of the subscriber is changed. -/
theorem SmoothState.found_takes {state : State n} {answer : Option ThroughputCommandType}
    {next : Publisher n} (hsmooth : SmoothState state)
    (htake : Takes state.publisher answer next) :
    state.publisher.phase.ended = false ∧ state.publisher.phase ≠ .endpoints ∧
      next.phase ≠ .endpoints ∧ next.sizes = state.publisher.sizes ∧ next.Wakes ∧
      Found (state.withPublisher next) := by
  have hfound := hsmooth.found
  unfold Found at hfound
  cases htake with
  | rigging hphase =>
      exact ⟨by rw [hphase]; rfl, by rw [hphase]; exact Phase.noConfusion, Phase.noConfusion,
        rfl, Phase.noConfusion, trivial⟩
  | removing hphase | recorded hphase =>
      rw [hphase] at hfound
      exact ⟨by rw [hphase]; rfl, by rw [hphase]; exact Phase.noConfusion, Phase.noConfusion,
        rfl, Phase.noConfusion, hfound⟩
  | tooMany hphase =>
      exact ⟨by rw [hphase]; rfl, by rw [hphase]; exact Phase.noConfusion, Phase.noConfusion,
        rfl, Phase.noConfusion, trivial⟩
  | failed hphase =>
      rw [hphase] at hfound
      exact ⟨by rw [hphase]; rfl, by rw [hphase]; exact Phase.noConfusion, Phase.noConfusion,
        rfl, Phase.noConfusion, Or.inl hfound⟩

/-- A subscriber changes without starting to wait for the writer. -/
theorem Found.withSubscriber {state : State n} (hfound : Found state) {index : Fin n}
    {subscriber : Subscriber}
    (hposition : (state.subscribers index).link.position ≤ subscriber.link.position)
    (hnew : ∀ before rest, state.log = before ++ rest →
      (∀ command ∈ rest, command.command ≠ .typeNew) →
      before.length ≤ (state.subscribers index).link.position →
      ¬ (state.subscribers index).New → ¬ subscriber.New) :
    Found (state.withSubscriber index subscriber) := by
  have hpast : Past state → Past (state.withSubscriber index subscriber) := by
    rintro ⟨before, rest, hlog, hrest, hsubscribers⟩
    refine ⟨before, rest, hlog, hrest, fun other => ?_⟩
    by_cases heq : other = index
    · subst heq
      obtain ⟨hle, hnone⟩ := hsubscribers other
      simp only [State.withSubscriber, Function.update_self]
      exact ⟨hle.trans hposition, hnew before rest hlog hrest hle hnone⟩
    · simp only [State.withSubscriber, Function.update_of_ne heq]
      exact hsubscribers other
  unfold Found at hfound ⊢
  simp only [State.withSubscriber] at hpast ⊢
  split
  case h_1 hphase | h_2 hphase | h_3 hphase | h_4 hphase | h_5 hphase | h_6 hphase
      | h_7 hphase | h_8 hphase =>
    rw [hphase] at hfound
    exact hpast hfound
  case h_9 hphase =>
    rw [hphase] at hfound
    exact hfound.imp_left hpast
  case h_10 => trivial

theorem SmoothState.withSubscriber {state : State n} (hsmooth : SmoothState state)
    {index : Fin n} {subscriber : Subscriber}
    (hlock : LockStep (state.withSubscriber index subscriber))
    (hfound : Found (state.withSubscriber index subscriber))
    (hwaits : SmoothWait state.log state.publisher.dataWriter subscriber)
    (hstopped : state.publisher.phase.ended = false → subscriber.stopped = false) :
    SmoothState (state.withSubscriber index subscriber) where
  lock := hlock
  acceptable := hsmooth.acceptable
  announced := hsmooth.announced
  demands := hsmooth.demands
  found := hfound
  waits := forall_withSubscriber (SmoothWait state.log state.publisher.dataWriter) hsmooth.waits
    hwaits
  wakes := hsmooth.wakes
  stopped := fun hended => forall_withSubscriber (fun subscriber => subscriber.stopped = false)
    (hsmooth.stopped hended) (hstopped hended)

theorem EndsAnnounced.concat {log : List ThroughputCommandType} (hlog : EndsAnnounced log)
    {command : ThroughputCommandType} (hcommand : command.command ≠ .readyToStart) :
    EndsAnnounced (log ++ [command]) := by
  obtain ⟨before, announcement, rest, rfl, htype, hrest⟩ := hlog
  refine ⟨before, announcement, rest ++ [command], ?_, htype, fun later hmem => ?_⟩
  · rw [List.append_assoc, List.cons_append]
  · rcases List.mem_append.mp hmem with hold | hnew
    · exact hrest later hold
    · rw [List.mem_singleton.mp hnew]
      exact hcommand

theorem SmoothWait.processMessage {log : List ThroughputCommandType}
    {dataWriter : Option UInt32} {subscriber : Subscriber}
    (hwaits : SmoothWait log dataWriter subscriber) (hnone : subscriber.discovering = false)
    {command : ThroughputCommandType} (hcommand : log[subscriber.link.position]? = some command)
    (prepared : Bool) (totalTime : UInt64) :
    SmoothWait log dataWriter (subscriber.processMessage command prepared totalTime) := by
  have hmatched := matched_processMessage subscriber command prepared totalTime
  rcases subscriber.processMessage_cases command prepared totalTime with
    hstops | ⟨answers, hlink, hview, -⟩
  · rw [hstops]
    exact ⟨hwaits.reader, hwaits.new, hwaits.matched_le, hwaits.writer, hwaits.wakes⟩
  have htake : log.take (subscriber.processMessage command prepared totalTime).link.position =
      log.take subscriber.link.position ++ [command] := by
    rw [hlink, Link.handled, List.take_add_one, hcommand]
    rfl
  constructor
  case reader =>
    intro hdiscovering
    have hreader := congrArg View.dataReader hview
    rw [step_typeNew (discovering_processMessage hnone hdiscovering).1] at hreader
    exact fun hempty => Option.some_ne_none _ (hreader.symm.trans hempty)
  case new =>
    rw [htake]
    rintro (hdiscovering | hpositive)
    · exact ⟨_, command, [], rfl, (discovering_processMessage hnone hdiscovering).1,
        fun _ hmem => absurd hmem List.not_mem_nil⟩
    · rcases hmatched with ⟨hother, hsame⟩ | hzero
      · rw [hsame] at hpositive
        exact (hwaits.new (Or.inr hpositive)).concat hother
      · exact absurd hzero hpositive
  case matched_le =>
    rcases hmatched with ⟨-, hsame⟩ | hzero
    · rw [hsame]
      exact hwaits.matched_le
    · exact Or.inl hzero
  case writer =>
    intro hpositive
    rcases hmatched with ⟨-, hsame⟩ | hzero
    · rw [hsame] at hpositive
      exact hwaits.writer hpositive
    · exact absurd hzero hpositive
  case wakes =>
    intro hdiscovering
    rw [(discovering_processMessage hnone hdiscovering).2]
    exact WakeupPending.awake WaitPhase.noConfusion WaitPhase.noConfusion

theorem SmoothState.processMessage {state : State n} (hsmooth : SmoothState state)
    {index : Fin n} {command : ThroughputCommandType}
    (hnone : (state.subscribers index).discovering = false)
    (hcommand : state.log[(state.subscribers index).link.position]? = some command)
    (totalTime : UInt64)
    (hlock : LockStep (state.withSubscriber index
      ((state.subscribers index).processMessage command true totalTime))) :
    SmoothState
      (state.withSubscriber index
        ((state.subscribers index).processMessage command true totalTime)) := by
  have hview := (hsmooth.lock.rounds.followed index).view
  have hhandled : (state.subscribers index).link.position ≤
      ((state.subscribers index).processMessage command true totalTime).link.position := by
    rcases (state.subscribers index).processMessage_cases command true totalTime with
      hstops | ⟨answers, hlink, -⟩
    · rw [hstops]
    · rw [hlink]
      exact Nat.le_succ _
  refine hsmooth.withSubscriber hlock (hsmooth.found.withSubscriber hhandled ?_)
    ((hsmooth.waits index).processMessage hnone hcommand true totalTime) ?_
  · rintro before rest hlog hrest hposition hold (hdiscovering | hpositive)
    · have hkind := (discovering_processMessage hnone hdiscovering).1
      rw [hlog, List.getElem?_append_right hposition] at hcommand
      exact hrest command (List.mem_of_getElem? hcommand) hkind
    · rcases matched_processMessage (state.subscribers index) command true totalTime with
        ⟨-, hsame⟩ | hzero
      · rw [hsame] at hpositive
        exact hold (Or.inr hpositive)
      · exact hpositive hzero
  · intro hended
    have haccepts := hsmooth.acceptable hended _ command hcommand
    rw [← hview] at haccepts
    rw [stopped_processMessage haccepts]
    exact hsmooth.stopped hended index

/-- What happens at a reader in a smooth run: nobody loses the writer, and the
subscriber stays awake until it has been found. -/
theorem SmoothWait.atReader {log : List ThroughputCommandType} {dataWriter : Option UInt32}
    {subscriber next : Subscriber} {event : ReaderEvent}
    (hwaits : SmoothWait log dataWriter subscriber)
    (hnotify : event = .notify → subscriber.discoveryWait ≠ .blocking)
    (hwakeUp : event ≠ .wakeUp) (hsteps : ReaderSteps subscriber dataWriter event next) :
    SmoothWait log dataWriter next ∧ (next.New → subscriber.New) := by
  obtain ⟨hreader, hnew, hle, hwriter, hwakes⟩ := hwaits
  cases hsteps with
  | found hdiscovering =>
      have hnext : ({ subscriber with discovering := false } : Subscriber).New →
          subscriber.New := fun hnew => Or.inr (hnew.resolve_left Bool.false_ne_true)
      exact ⟨⟨fun hnone => absurd hnone Bool.false_ne_true, fun h => hnew (hnext h), hle, hwriter,
        fun hnone => absurd hnone Bool.false_ne_true⟩, hnext⟩
  | waits hdiscovering hgoes =>
      refine ⟨⟨hreader, hnew, hle, hwriter, fun _ => ?_⟩, id⟩
      exact (hwakes hdiscovering).waits (by rwa [decide_eq_true_eq])
  | matched hsome _ hdiscovering =>
      refine ⟨⟨hreader, fun _ => hnew (Or.inl hdiscovering), Or.inr rfl, fun _ => ?_,
        fun _ _ _ => Nat.succ_pos _⟩, fun _ => Or.inl hdiscovering⟩
      exact Option.isSome_iff_ne_none.mp hsome
  | unmatched hnone hone =>
      have hpositive : subscriber.listener.matched ≠ 0 := by omega
      exact absurd hnone (hwriter hpositive)
  | notified =>
      exact ⟨⟨hreader, hnew, hle, hwriter, fun _ => WakeupPending.notify (hnotify rfl)⟩, id⟩
  | awoken => exact absurd rfl hwakeUp
  | called | finished => exact ⟨⟨hreader, hnew, hle, hwriter, hwakes⟩, id⟩
  | taken sample =>
      have hsame := matched_take subscriber.listener sample
      have hnext : ({ subscriber with
          listener := subscriber.listener.take sample
          counted := subscriber.counted ++ [sample] } : Subscriber).New → subscriber.New := by
        simp only [Subscriber.New, hsame]
        exact id
      refine ⟨⟨hreader, fun h => hnew (hnext h), ?_, ?_, ?_⟩, hnext⟩
      · rw [hsame]
        exact hle
      · rw [hsame]
        exact hwriter
      · simp only [Subscriber.totalMatches, hsame] at hwakes ⊢
        exact hwakes

/-- What happens at the writer in a smooth run. -/
theorem WriterSteps.wakes {publisher next : Publisher n}
    {subscribers : Fin n → Subscriber} {event : WriterEvent n}
    (hnotify : event = .notify → publisher.discoveryWait ≠ .blocking)
    (hwakeUp : event ≠ .wakeUp) (hsteps : WriterSteps publisher subscribers event next) :
    next.Wakes := by
  cases hsteps with
  | matched | unmatched => exact fun _ _ _ => Nat.succ_pos _
  | notified => exact fun _ => WakeupPending.notify (hnotify rfl)
  | awoken => exact absurd rfl hwakeUp

theorem announced_iff {state : State n} (hphase : state.publisher.phase ≠ .endpoints) :
    Announced state ↔ (machine.after state.log).dataReader = state.publisher.dataWriter := by
  unfold Announced
  split
  case h_1 hendpoints => exact absurd hendpoints hphase
  case h_2 => rfl

theorem SmoothState.take {state : State n} {index : Fin n} {answer : ThroughputCommandType}
    {next : Publisher n} (hsmooth : SmoothState state)
    (htake : Takes state.publisher (some answer) next)
    (hlock : LockStep
      ((state.withPublisher next).withSubscriber index
        { state.subscribers index with link := (state.subscribers index).link.take })) :
    SmoothState
      ((state.withPublisher next).withSubscriber index
        { state.subscribers index with link := (state.subscribers index).link.take }) := by
  obtain ⟨hended, hphase, hnext, hsizes, hwakes, hfound⟩ := hsmooth.found_takes htake
  obtain ⟨-, -, -, hwriter, -⟩ := hsmooth.lock.takes htake
  constructor
  case lock => exact hlock
  case acceptable => exact fun _ => hsmooth.acceptable hended
  case announced =>
    intro _
    have hannounced := (announced_iff hphase).mp (hsmooth.announced hended)
    exact (announced_iff hnext).mpr (hannounced.trans hwriter.symm)
  case demands =>
    intro entry hmem
    rw [State.withSubscriber, State.withPublisher, hsizes] at hmem
    exact hsmooth.demands entry hmem
  case found => exact hfound.withSubscriber le_rfl fun _ _ _ _ _ hnone => hnone
  case waits =>
    have hwaits : ∀ other, SmoothWait state.log next.dataWriter
        ((state.withPublisher next).subscribers other) := by
      rw [hwriter]
      exact hsmooth.waits
    obtain ⟨hreader, hnew, hle, hsome, hwakes⟩ := hwaits index
    exact forall_withSubscriber (SmoothWait state.log next.dataWriter) hwaits
      ⟨hreader, hnew, hle, hsome, hwakes⟩
  case wakes => exact hwakes
  case stopped =>
    intro _
    have hstopped : ∀ other, ((state.withPublisher next).subscribers other).stopped = false :=
      hsmooth.stopped hended
    exact forall_withSubscriber (fun subscriber => subscriber.stopped = false) hstopped
      (hstopped index)

theorem SmoothState.step {parameters : Parameters} {state next : State n} {action : Action n}
    (hrecovery : parameters.recoveryTimes ≠ []) (hsmooth : SmoothState state)
    (haction : Smooth state action)
    (hstep : CppProj.ThroughputTest.step parameters state action = some next) :
    SmoothState next := by
  have hlock := hsmooth.lock.step hstep haction.unrepeated
  cases action with
  | advance =>
      obtain ⟨⟨publisher, commands⟩, hadvance, rfl⟩ := Option.map_eq_some_iff.mp hstep
      exact hsmooth.advance hrecovery (advances_of_advance hadvance)
  | prepare prepared =>
      cases (show prepared = true from haction)
      obtain ⟨publisher, hprepare, rfl⟩ := Option.map_eq_some_iff.mp hstep
      exact hsmooth.prepare hprepare
  | dispose prepared =>
      cases (show prepared = true from haction)
      obtain ⟨⟨publisher, commands⟩, hdispose, rfl⟩ := Option.map_eq_some_iff.mp hstep
      exact hsmooth.dispose hdispose
  | acknowledge inTime =>
      cases (show inTime = true from haction)
      obtain ⟨publisher, hacknowledge, rfl⟩ := Option.map_eq_some_iff.mp hstep
      exact hsmooth.acknowledge hacknowledge
  | send batches =>
      obtain ⟨publisher, hsend, rfl⟩ := Option.map_eq_some_iff.mp hstep
      exact hsmooth.send hsend
  | take index =>
      simp only [CppProj.ThroughputTest.step, takeStep] at hstep
      split at hstep
      case h_1 answer hanswer =>
        obtain ⟨publisher, htake, rfl⟩ := Option.map_eq_some_iff.mp hstep
        exact hsmooth.take (takes_of_take htake) hlock
      case h_2 => cases hstep
  | takeInvalid => exact haction.elim
  | timeout => exact haction.elim
  | processMessage index prepared totalTime =>
      cases (show prepared = true from haction)
      simp only [CppProj.ThroughputTest.step, processMessageStep] at hstep
      split_ifs at hstep with hready
      split at hstep
      case h_1 command hcommand =>
        cases hstep
        rw [Bool.or_eq_true, not_or, Bool.not_eq_true, Bool.not_eq_true] at hready
        exact hsmooth.processMessage hready.1 hcommand totalTime hlock
      case h_2 => cases hstep
  | atWriter event =>
      obtain ⟨publisher, hat, rfl⟩ := Option.map_eq_some_iff.mp hstep
      have hsteps := writerSteps_of_atWriter hat
      have hwakes : publisher.Wakes := hsteps.wakes (by rintro rfl; exact haction)
        (by rintro rfl; exact haction.elim)
      obtain ⟨_, _, _, rfl⟩ := hsteps.eq
      exact ⟨hlock, hsmooth.acceptable, hsmooth.announced, hsmooth.demands, hsmooth.found,
        hsmooth.waits, hwakes, hsmooth.stopped⟩
  | atReader index event =>
      obtain ⟨subscriber, hat, rfl⟩ := Option.map_eq_some_iff.mp hstep
      have hsteps := readerSteps_of_atReader hat
      obtain ⟨hlink, -, hstopped⟩ := hsteps.frame
      obtain ⟨hwaits, hnew⟩ := (hsmooth.waits index).atReader
        (by rintro rfl; exact haction) (by rintro rfl; exact haction.elim) hsteps
      refine hsmooth.withSubscriber hlock (hsmooth.found.withSubscriber ?_ ?_) hwaits ?_
      · rw [hlink]
      · exact fun _ _ _ _ _ hold hnext => hold (hnew hnext)
      · rw [hstopped]
        exact fun hended => hsmooth.stopped hended index

theorem SmoothState.initial {parameters : Parameters}
    (hdemands : ∀ entry ∈ parameters.demandPayload, entry.2 ≠ []) :
    SmoothState (State.initial parameters : State n) where
  lock := LockStep.initial parameters
  acceptable := fun _ _ _ hnone => by cases hnone
  announced := fun _ => rfl
  demands := hdemands
  found := trivial
  waits := by
    intro _
    refine ⟨fun hdiscovering => ?_, ?_, Or.inl rfl, fun hmatched => absurd rfl hmatched,
      fun hdiscovering => ?_⟩
    · cases hdiscovering
    · rintro (hdiscovering | hmatched)
      · cases hdiscovering
      · exact absurd rfl hmatched
    · cases hdiscovering
  wakes := Phase.noConfusion
  stopped := fun _ _ => rfl

end CppProj.ThroughputTest
