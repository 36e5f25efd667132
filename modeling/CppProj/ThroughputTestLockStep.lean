import CppProj.ThroughputTestRounds

/-!
# Publisher and subscribers in lock step

While the data writer exists no subscriber has a data reader of another payload
size, so the two sides of every match have the same type.  And while a test
sends its batches, every subscriber has been reset for this test.

Both need the rounds: a data writer is created when every subscriber has
removed the last type, and a test starts when every subscriber has answered.
-/

namespace CppProj.ThroughputTest

open BroadcastReplies PerformanceTypes TransitionSystem
open ThroughputSubscriber (DataReaderListener Sample)

variable {n : ℕ}

/-! ## The end of the log -/

/-- Nothing was announced yet, or the last type has been disposed of. -/
def EndsDisposed (log : List ThroughputCommandType) : Prop :=
  log = [] ∨ ∃ before command, log = before ++ [command] ∧ command.command = .typeDispose

def EndsAsked (log : List ThroughputCommandType) : Prop :=
  ∃ before command, log = before ++ [command] ∧ command.command = .readyToStart

/-- The last commands that were written, by where the publisher stands. -/
def Logged (publisher : Publisher n) (log : List ThroughputCommandType) : Prop :=
  match publisher.phase with
  | .sizes | .removing _ => EndsDisposed log
  | .endpoints =>
      ∃ before command size demands rest, publisher.sizes = (size, demands) :: rest ∧
        log = before ++ [command] ∧ EndsDisposed before ∧ command.command = .typeNew ∧
        command.m_size = size
  | .rigging _ | .starting => EndsAsked log
  | .startsAcknowledgment | .sending | .ending =>
      ∃ before, EndsAsked before ∧ log = before ++ [.ofCommand .testStarts]
  | .endsAcknowledgment | .results _ =>
      ∃ before, EndsAsked before ∧
        log = before ++ [.ofCommand .testStarts, .ofCommand .testEnds]
  | _ => True

/-- The data writer has the type of the payload that is tested, and every reader
was found before the first test. -/
def Opened (publisher : Publisher n) : Prop :=
  match publisher.phase with
  | .sizes | .endpoints | .removing _ => publisher.dataWriter = none
  | .discovery =>
      ∃ size demands rest, publisher.sizes = (size, demands) :: rest ∧
        publisher.dataWriter = some size
  | .demands | .disposing =>
      ∃ size demands rest, publisher.sizes = (size, demands) :: rest ∧
        publisher.dataWriter = some size ∧ publisher.found = Finset.univ
  | .rigging _ | .starting | .startsAcknowledgment | .sending | .ending | .endsAcknowledgment
  | .results _ =>
      ∃ demands rest, publisher.sizes = (publisher.test.msgSize, demands) :: rest ∧
        publisher.dataWriter = some publisher.test.msgSize ∧ publisher.found = Finset.univ
  | _ => True

/-- `run` has not left the loop over the payloads. -/
def Phase.Running : Phase → Prop
  | .stopping | .printed | .returned | .aborted => False
  | _ => True

/-- What was written since the data writer can exist changes no reader to
another type, and every subscriber has come that far. -/
structure Typed (state : State n) (size : UInt32) (before rest : List ThroughputCommandType) :
    Prop where
  log : state.log = before ++ rest
  undisposed : state.publisher.phase.Running →
    ∀ command ∈ rest, command.command ≠ .typeDispose
  announced : ∀ command ∈ rest, command.command = .typeNew → command.m_size = size
  position : ∀ index, before.length ≤ (state.subscribers index).link.position
  reader : ∀ index, (state.subscribers index).dataReader = none ∨
    (state.subscribers index).dataReader = some size
  found : state.publisher.phase.Running →
    ∀ index ∈ state.publisher.found, (state.subscribers index).dataReader = some size

structure LockStep (state : State n) : Prop where
  rounds : Invariant state
  logged : Logged state.publisher state.log
  opened : Opened state.publisher
  typed : ∀ size, state.publisher.dataWriter = some size →
    ∃ before rest, Typed state size before rest

theorem LockStep.initial (parameters : Parameters) :
    LockStep (State.initial parameters : State n) where
  rounds := Invariant.initial parameters
  logged := Or.inl rfl
  opened := rfl
  typed := fun size hwriter => by cases hwriter

/-! ## A data writer is created -/

/-- A subscriber that owes nothing has removed the last type. -/
theorem Following.removed {before : List ThroughputCommandType} {command : ThroughputCommandType}
    {subscriber : Subscriber} (hfollowing : Following (before ++ [command]) subscriber)
    (howed : Link.owed machine (before ++ [command]) subscriber.link = [])
    (hdisposed : EndsDisposed before) (hcommand : command.command = .typeNew) :
    before.length ≤ subscriber.link.position ∧
      (subscriber.dataReader = none ∨ subscriber.dataReader = some command.m_size) := by
  have hposition : before.length ≤ subscriber.link.position := by
    rcases hdisposed with rfl | ⟨earlier, last, rfl, hlast⟩
    · exact Nat.zero_le _
    · have hreply : (machine.step (machine.after earlier) last).2 ≠ [] := by
        rw [step_typeDispose hlast]
        exact List.cons_ne_nil _ _
      have hlog : earlier ++ [last] ++ [command] = earlier ++ last :: [command] := by
        rw [List.append_assoc, List.singleton_append]
      have hlt := hfollowing.follows.lt_position howed hlog hreply
      rw [List.length_append, List.length_singleton]
      exact hlt
  have hnone : (machine.after before).dataReader = none := by
    rcases hdisposed with rfl | ⟨earlier, last, rfl, hlast⟩
    · rfl
    · rw [Machine.after_concat, step_typeDispose hlast]
      rfl
  refine ⟨hposition, ?_⟩
  have hview := congrArg View.dataReader hfollowing.view
  have hle := hfollowing.follows.position_le
  rw [List.length_append, List.length_singleton] at hle
  rcases Nat.lt_or_ge before.length subscriber.link.position with hlt | hge
  · have htake : (before ++ [command]).take subscriber.link.position = before ++ [command] :=
      List.take_of_length_le (by rw [List.length_append, List.length_singleton]; omega)
    rw [htake, Machine.after_concat, step_typeNew hcommand] at hview
    exact Or.inr hview
  · have htake : (before ++ [command]).take subscriber.link.position = before := by
      rw [Nat.le_antisymm hge hposition, List.take_left]
    rw [htake, hnone] at hview
    exact Or.inl hview

/-! ## Steps that leave the types alone -/

theorem Typed.publish {state : State n} {size : UInt32}
    {before rest : List ThroughputCommandType} (htyped : Typed state size before rest)
    {publisher : Publisher n} {commands : List ThroughputCommandType}
    (hrunning : publisher.phase.Running → state.publisher.phase.Running)
    (hundisposed : publisher.phase.Running →
      ∀ command ∈ commands, command.command ≠ .typeDispose)
    (hannounced : ∀ command ∈ commands, command.command ≠ .typeNew)
    (hfound : publisher.found = state.publisher.found) :
    Typed (state.publish (publisher, commands)) size before (rest ++ commands) where
  log := by
    rw [State.publish, htyped.log, List.append_assoc]
  undisposed := by
    intro hphase command hmem
    rcases List.mem_append.mp hmem with hrest | hnew
    · exact htyped.undisposed (hrunning hphase) command hrest
    · exact hundisposed hphase command hnew
  announced := by
    intro command hmem hcommand
    rcases List.mem_append.mp hmem with hrest | hnew
    · exact htyped.announced command hrest hcommand
    · exact absurd hcommand (hannounced command hnew)
  position := htyped.position
  reader := htyped.reader
  found := by
    intro hphase index hmem
    rw [State.publish, hfound] at hmem
    exact htyped.found (hrunning hphase) index hmem

theorem Typed.withPublisher {state : State n} {size : UInt32}
    {before rest : List ThroughputCommandType} (htyped : Typed state size before rest)
    {publisher : Publisher n}
    (hrunning : publisher.phase.Running → state.publisher.phase.Running)
    (hfound : publisher.phase.Running → ∀ index ∈ publisher.found,
      index ∉ state.publisher.found → (state.subscribers index).dataReader = some size) :
    Typed (state.withPublisher publisher) size before rest where
  log := htyped.log
  undisposed := fun hphase => htyped.undisposed (hrunning hphase)
  announced := htyped.announced
  position := htyped.position
  reader := htyped.reader
  found := by
    intro hphase index hmem
    by_cases hold : index ∈ state.publisher.found
    · exact htyped.found (hrunning hphase) index hold
    · exact hfound hphase index hmem hold

theorem Typed.withSubscriber {state : State n} {size : UInt32}
    {before rest : List ThroughputCommandType} (htyped : Typed state size before rest)
    {index : Fin n} {subscriber : Subscriber}
    (hposition : (state.subscribers index).link.position ≤ subscriber.link.position)
    (hreader : subscriber.dataReader = (state.subscribers index).dataReader ∨
      subscriber.dataReader = some size ∨
      ¬ state.publisher.phase.Running ∧ subscriber.dataReader = none) :
    Typed (state.withSubscriber index subscriber) size before rest where
  log := htyped.log
  undisposed := htyped.undisposed
  announced := htyped.announced
  position := by
    intro other
    by_cases heq : other = index
    · subst heq
      simp only [State.withSubscriber, Function.update_self]
      exact (htyped.position other).trans hposition
    · simp only [State.withSubscriber, Function.update_of_ne heq]
      exact htyped.position other
  reader := by
    intro other
    by_cases heq : other = index
    · subst heq
      simp only [State.withSubscriber, Function.update_self]
      rcases hreader with hsame | hsome | ⟨-, hnone⟩
      · rw [hsame]
        exact htyped.reader other
      · exact Or.inr hsome
      · exact Or.inl hnone
    · simp only [State.withSubscriber, Function.update_of_ne heq]
      exact htyped.reader other
  found := by
    intro hphase other hmem
    by_cases heq : other = index
    · subst heq
      simp only [State.withSubscriber, Function.update_self]
      rcases hreader with hsame | hsome | ⟨hended, -⟩
      · rw [hsame]
        exact htyped.found hphase other hmem
      · exact hsome
      · exact absurd hphase hended
    · simp only [State.withSubscriber, Function.update_of_ne heq]
      exact htyped.found hphase other hmem

/-- A command of the current type gives a reader of this type or leaves it. -/
theorem Typed.processMessage {state : State n} {size : UInt32}
    {before rest : List ThroughputCommandType} (htyped : Typed state size before rest)
    {index : Fin n} {command : ThroughputCommandType}
    (hcommand : state.log[(state.subscribers index).link.position]? = some command)
    (prepared : Bool) (totalTime : UInt64) :
    Typed
      (state.withSubscriber index
        ((state.subscribers index).processMessage command prepared totalTime))
      size before rest := by
  have hmem : command ∈ rest := by
    rw [htyped.log, List.getElem?_append_right (htyped.position index)] at hcommand
    exact List.mem_of_getElem? hcommand
  rcases (state.subscribers index).processMessage_cases command prepared totalTime with
    hstopped | ⟨answers, hlink, hview, -⟩
  · rw [hstopped]
    exact htyped.withSubscriber le_rfl (Or.inl rfl)
  · refine htyped.withSubscriber ?_ ?_
    · rw [hlink]
      exact Nat.le_succ _
    · have hreader := congrArg View.dataReader hview
      cases hkind : command.command with
      | typeNew =>
          rw [step_typeNew hkind, htyped.announced command hmem hkind] at hreader
          exact Or.inr (Or.inl hreader)
      | typeDispose =>
          rw [step_typeDispose hkind] at hreader
          exact Or.inr (Or.inr ⟨fun hphase => htyped.undisposed hphase command hmem hkind,
            hreader⟩)
      | default | readyToStart | begin | testStarts | testEnds | typeRemoved | allStops
      | testResults =>
          simp only [machine, react, hkind] at hreader
          exact Or.inl hreader

/-! ## Every step -/

theorem command_ofCommand (kind : Command) :
    (ThroughputCommandType.ofCommand kind).command = kind :=
  Command.ofCode_code kind

/-- The types after a step of the publisher that neither announces nor disposes
of one. -/
theorem LockStep.typed_publish {state : State n} (hlock : LockStep state)
    {publisher : Publisher n} {commands : List ThroughputCommandType}
    (hrunning : publisher.phase.Running → state.publisher.phase.Running)
    (hcommands : ∀ command ∈ commands,
      command.command ≠ .typeDispose ∧ command.command ≠ .typeNew)
    (hfound : publisher.found = state.publisher.found)
    (hwriter : publisher.dataWriter = state.publisher.dataWriter) :
    ∀ size, publisher.dataWriter = some size →
      ∃ before rest, Typed (state.publish (publisher, commands)) size before rest := by
  intro size hsize
  rw [hwriter] at hsize
  obtain ⟨before, rest, htyped⟩ := hlock.typed size hsize
  exact ⟨before, _, htyped.publish hrunning (fun _ command hmem => (hcommands command hmem).1)
    (fun command hmem => (hcommands command hmem).2) hfound⟩

theorem LockStep.advance {parameters : Parameters} {state : State n} {next : Publisher n}
    {commands : List ThroughputCommandType} (hlock : LockStep state)
    (hadvance : Advances parameters state.publisher next commands) :
    LockStep (state.publish (next, commands)) := by
  have hrounds := hlock.rounds.advance hadvance
  have hlogged := hlock.logged
  have hopened := hlock.opened
  unfold Logged at hlogged
  unfold Opened at hopened
  have hnil : ∀ command ∈ ([] : List ThroughputCommandType),
      command.command ≠ .typeDispose ∧ command.command ≠ .typeNew :=
    fun command hmem => absurd hmem (List.not_mem_nil)
  cases hadvance with
  | noSize hphase =>
      exact ⟨hrounds, trivial, trivial, hlock.typed_publish False.elim hnil rfl rfl⟩
  | @announce size demands rest hphase hsizes =>
      rw [hphase] at hlogged hopened
      refine ⟨hrounds, ?_, hopened, fun other hwriter => ?_⟩
      · exact ⟨state.log, _, size, demands, rest, hsizes, rfl, hlogged,
          command_typeCommand .., rfl⟩
      · rw [State.publish, hopened] at hwriter
        cases hwriter
  | @found size demands rest hphase hsizes hmatches =>
      rw [hphase] at hopened
      refine ⟨hrounds, trivial, ?_, hlock.typed_publish (fun _ => by rw [hphase]; trivial)
        hnil rfl rfl⟩
      obtain ⟨size, demands, rest, hfirst, hwriter⟩ := hopened
      have hcard : state.publisher.found.card = Fintype.card (Fin n) := by
        rw [Publisher.totalMatches] at hmatches
        rw [Fintype.card_fin]
        omega
      exact ⟨size, demands, rest, hfirst, hwriter, (Finset.card_eq_iff_eq_univ _).mp hcard⟩
  | waits hphase =>
      rw [hphase] at hopened
      refine ⟨hrounds, ?_, ?_, hlock.typed_publish (fun hrunning => hrunning) hnil rfl rfl⟩
      · simp only [State.publish, Logged, hphase]
      · simp only [State.publish, Opened, hphase]
        exact hopened
  | @awake size demand recoveryTime demands rest sizes hphase hsizes =>
      rw [hphase] at hopened
      refine ⟨hrounds, ⟨state.log, _, rfl, command_awake ..⟩, ?_,
        hlock.typed_publish (fun _ => by rw [hphase]; trivial) ?_ rfl rfl⟩
      · obtain ⟨other, otherDemands, otherRest, hother, hwriter, hfound⟩ := hopened
        rw [hsizes, List.cons.injEq, Prod.mk.injEq] at hother
        rw [← hother.1.1] at hwriter
        exact ⟨demands, sizes, hsizes, hwriter, hfound⟩
      · intro command hmem
        rw [List.mem_singleton.mp hmem, command_awake]
        decide
  | nextDemand hphase =>
      refine ⟨hrounds, ?_, ?_, hlock.typed_publish (fun hrunning => hrunning) hnil rfl rfl⟩
      · simp only [State.publish, Logged, hphase]
      · rw [hphase] at hopened
        simp only [State.publish, Opened, hphase]
        exact hopened
  | noDemand hphase =>
      rw [hphase] at hopened
      exact ⟨hrounds, trivial, hopened,
        hlock.typed_publish (fun _ => by rw [hphase]; trivial) hnil rfl rfl⟩
  | rigged hphase =>
      rw [hphase] at hlogged hopened
      refine ⟨hrounds, ?_, hopened,
        hlock.typed_publish (fun _ => by rw [hphase]; trivial) hnil rfl rfl⟩
      rw [log_publish_nil]
      exact hlogged
  | start hphase =>
      rw [hphase] at hlogged hopened
      refine ⟨hrounds, ⟨state.log, hlogged, rfl⟩, hopened,
        hlock.typed_publish (fun _ => by rw [hphase]; trivial) ?_ rfl rfl⟩
      intro command hmem
      rw [List.mem_singleton.mp hmem, command_ofCommand]
      decide
  | finish hphase =>
      rw [hphase] at hlogged hopened
      refine ⟨hrounds, ?_, hopened,
        hlock.typed_publish (fun _ => by rw [hphase]; trivial) ?_ rfl rfl⟩
      · obtain ⟨before, hasked, hlog⟩ := hlogged
        refine ⟨before, hasked, ?_⟩
        rw [State.publish, hlog, List.append_assoc, List.singleton_append]
      · intro command hmem
        rw [List.mem_singleton.mp hmem, command_ofCommand]
        decide
  | tested hphase =>
      rw [hphase] at hopened
      refine ⟨hrounds, trivial, ?_,
        hlock.typed_publish (fun _ => by rw [hphase]; trivial) hnil rfl rfl⟩
      obtain ⟨demands, rest, hsizes, hwriter, hfound⟩ := hopened
      exact ⟨_, demands, rest, hsizes, hwriter, hfound⟩
  | removed hphase =>
      rw [hphase] at hlogged hopened
      refine ⟨hrounds, ?_, hopened,
        hlock.typed_publish (fun _ => by rw [hphase]; trivial) hnil rfl rfl⟩
      rw [log_publish_nil]
      exact hlogged
  | stop hphase =>
      have hended : ¬ (if state.publisher.testFailure then Phase.returned
          else Phase.printed).Running := by
        split_ifs <;> exact fun hrunning => hrunning
      refine ⟨hrounds, ?_, ?_, hlock.typed_publish (fun hrunning => absurd hrunning hended)
        ?_ rfl rfl⟩
      · cases hfailure : state.publisher.testFailure
        · simp only [State.publish, Logged, Bool.false_eq_true, if_false]
        · simp only [State.publish, Logged, if_true]
      · cases hfailure : state.publisher.testFailure
        · simp only [State.publish, Opened, Bool.false_eq_true, if_false]
        · simp only [State.publish, Opened, if_true]
      · intro command hmem
        have hstops : command.command = .allStops := by
          rw [List.mem_singleton.mp hmem]
          rfl
        rw [hstops]
        decide

/-- The types after a step of the publisher that writes nothing. -/
theorem LockStep.typed_withPublisher {state : State n} (hlock : LockStep state)
    {publisher : Publisher n}
    (hrunning : publisher.phase.Running → state.publisher.phase.Running)
    (hfound : publisher.found = state.publisher.found)
    (hwriter : publisher.dataWriter = state.publisher.dataWriter) :
    ∀ size, publisher.dataWriter = some size →
      ∃ before rest, Typed (state.withPublisher publisher) size before rest := by
  intro size hsize
  rw [hwriter] at hsize
  obtain ⟨before, rest, htyped⟩ := hlock.typed size hsize
  refine ⟨before, rest, htyped.withPublisher hrunning fun _ index hmem hnew => ?_⟩
  rw [hfound] at hmem
  exact absurd hmem hnew

/-- A data writer is created when every subscriber has removed the last type. -/
theorem LockStep.typed_prepared {state : State n} (hlock : LockStep state) {size : UInt32}
    {demands : List UInt32} {rest : List (UInt32 × List UInt32)}
    (hphase : state.publisher.phase = .endpoints)
    (hsizes : state.publisher.sizes = (size, demands) :: rest) {publisher : Publisher n}
    (hfound : publisher.found = ∅) :
    ∃ before rest, Typed (state.withPublisher publisher) size before rest := by
  have hlogged := hlock.logged
  have hround := hlock.rounds.round
  unfold Logged at hlogged
  unfold Round at hround
  rw [hphase] at hlogged hround
  obtain ⟨before, command, other, otherDemands, otherRest, hother, hlog, hdisposed, hcommand,
    hsize⟩ := hlogged
  rw [hsizes, List.cons.injEq, Prod.mk.injEq] at hother
  rw [← hother.1.1] at hsize
  have hremoved : ∀ index, before.length ≤ (state.subscribers index).link.position ∧
      ((state.subscribers index).dataReader = none ∨
        (state.subscribers index).dataReader = some size) := by
    intro index
    have hfollowing := hlock.rounds.followed index
    have howed := hround index
    rw [State.owed, hlog] at howed
    rw [hlog] at hfollowing
    rw [← hsize]
    exact hfollowing.removed howed hdisposed hcommand
  refine ⟨before, [command], ?_⟩
  constructor
  case log => exact hlog
  case undisposed =>
    intro _ member hmem
    rw [List.mem_singleton.mp hmem, hcommand]
    decide
  case announced =>
    intro member hmem _
    rw [List.mem_singleton.mp hmem]
    exact hsize
  case position => exact fun index => (hremoved index).1
  case reader => exact fun index => (hremoved index).2
  case found =>
    intro _ index hmem
    rw [State.withPublisher, hfound] at hmem
    exact absurd hmem (Finset.notMem_empty index)

theorem LockStep.proceed {state : State n} {next : Publisher n} (hlock : LockStep state)
    (hproceed : Proceeds state.publisher next) : LockStep (state.withPublisher next) := by
  have hrounds := hlock.rounds.proceed hproceed
  have hlogged := hlock.logged
  have hopened := hlock.opened
  unfold Logged at hlogged
  unfold Opened at hopened
  cases hproceed with
  | @prepared size demands rest hphase hsizes =>
      refine ⟨hrounds, trivial, ⟨size, demands, rest, hsizes, rfl⟩, ?_⟩
      intro other hother
      cases hother
      exact hlock.typed_prepared hphase hsizes rfl
  | unprepared hphase =>
      exact ⟨hrounds, trivial, trivial, hlock.typed_withPublisher False.elim rfl rfl⟩
  | started hphase =>
      rw [hphase] at hlogged hopened
      exact ⟨hrounds, hlogged, hopened,
        hlock.typed_withPublisher (fun _ => by rw [hphase]; trivial) rfl rfl⟩
  | unstarted hphase =>
      rw [hphase] at hopened
      refine ⟨hrounds, trivial, ?_,
        hlock.typed_withPublisher (fun _ => by rw [hphase]; trivial) rfl rfl⟩
      obtain ⟨demands, rest, hsizes, hwriter, hfound⟩ := hopened
      exact ⟨_, demands, rest, hsizes, hwriter, hfound⟩
  | sent batches hphase =>
      rw [hphase] at hlogged hopened
      exact ⟨hrounds, hlogged, hopened,
        hlock.typed_withPublisher (fun _ => by rw [hphase]; trivial) rfl rfl⟩
  | ended hphase =>
      rw [hphase] at hlogged hopened
      exact ⟨hrounds, hlogged, hopened,
        hlock.typed_withPublisher (fun _ => by rw [hphase]; trivial) rfl rfl⟩
  | unended hphase =>
      rw [hphase] at hopened
      refine ⟨hrounds, trivial, ?_,
        hlock.typed_withPublisher (fun _ => by rw [hphase]; trivial) rfl rfl⟩
      obtain ⟨demands, rest, hsizes, hwriter, hfound⟩ := hopened
      exact ⟨_, demands, rest, hsizes, hwriter, hfound⟩

theorem LockStep.dispose {state : State n} {next : Publisher n}
    {commands : List ThroughputCommandType} (hlock : LockStep state)
    (hdispose : Disposes state.publisher next commands) :
    LockStep (state.publish (next, commands)) := by
  have hrounds := hlock.rounds.dispose hdispose
  cases hdispose with
  | disposed hphase =>
      refine ⟨hrounds, Or.inr ⟨state.log, _, rfl, command_typeCommand ..⟩, rfl, ?_⟩
      intro size hwriter
      cases hwriter
  | @undisposed size demands rest hphase =>
      refine ⟨hrounds, trivial, trivial, fun other hwriter => ?_⟩
      obtain ⟨before, rest, htyped⟩ := hlock.typed other hwriter
      refine ⟨before, _, htyped.publish False.elim (fun hrunning => hrunning.elim) ?_ rfl⟩
      intro command hmem
      rw [List.mem_singleton.mp hmem, command_typeCommand]
      decide

/-- A test that fails goes on with the next demand of the same type. -/
theorem LockStep.failTest {state : State n} (hlock : LockStep state)
    {received : ℕ} (hphase : state.publisher.phase = .results received)
    (hrounds : Invariant (state.withPublisher state.publisher.failTest)) :
    LockStep (state.withPublisher state.publisher.failTest) := by
  have hopened := hlock.opened
  unfold Opened at hopened
  rw [hphase] at hopened
  obtain ⟨demands, rest, hsizes, hwriter, hfound⟩ := hopened
  exact ⟨hrounds, trivial, ⟨_, demands, rest, hsizes, hwriter, hfound⟩,
    hlock.typed_withPublisher (fun _ => by rw [hphase]; trivial) rfl rfl⟩

theorem LockStep.timeout {state : State n} {next : Publisher n} (hlock : LockStep state)
    (htimeout : state.publisher.timeout = some next) (hnew : ¬ state.publisher.Repeats) :
    LockStep (state.withPublisher next) := by
  have hrounds := hlock.rounds.timeout htimeout hnew
  rcases timeout_cases htimeout hnew with rfl | ⟨received, hphase, rfl⟩
  · exact hlock
  · exact hlock.failTest hphase hrounds

/-- The bookkeeping of the publisher after an answer, whoever has sent it. -/
theorem LockStep.takes {state : State n} {answer : Option ThroughputCommandType}
    {next : Publisher n} (hlock : LockStep state) (htake : Takes state.publisher answer next) :
    Logged next state.log ∧ Opened next ∧ next.found = state.publisher.found ∧
      next.dataWriter = state.publisher.dataWriter ∧
      (next.phase.Running → state.publisher.phase.Running) := by
  have hlogged := hlock.logged
  have hopened := hlock.opened
  unfold Logged at hlogged
  unfold Opened at hopened
  cases htake with
  | rigging hphase =>
      rw [hphase] at hlogged hopened
      exact ⟨hlogged, hopened, rfl, rfl, fun _ => by rw [hphase]; trivial⟩
  | removing hphase =>
      rw [hphase] at hlogged hopened
      exact ⟨hlogged, hopened, rfl, rfl, fun _ => by rw [hphase]; trivial⟩
  | recorded hphase =>
      rw [hphase] at hlogged hopened
      exact ⟨hlogged, hopened, rfl, rfl, fun _ => by rw [hphase]; trivial⟩
  | tooMany hphase => exact ⟨trivial, trivial, rfl, rfl, False.elim⟩
  | failed hphase =>
      rw [hphase] at hopened
      obtain ⟨demands, rest, hsizes, hwriter, hfound⟩ := hopened
      exact ⟨trivial, ⟨_, demands, rest, hsizes, hwriter, hfound⟩, rfl, rfl,
        fun _ => by rw [hphase]; trivial⟩

theorem LockStep.takeInvalid {state : State n} {next : Publisher n} (hlock : LockStep state)
    (htake : Takes state.publisher none next) : LockStep (state.withPublisher next) := by
  obtain ⟨hlogged, hopened, hfound, hwriter, hrunning⟩ := hlock.takes htake
  exact ⟨hlock.rounds.takeInvalid htake, hlogged, hopened,
    hlock.typed_withPublisher hrunning hfound hwriter⟩

theorem LockStep.take {state : State n} {index : Fin n} {answer : ThroughputCommandType}
    {next : Publisher n} (hlock : LockStep state)
    (hanswer : (state.subscribers index).link.written[(state.subscribers index).link.taken]? =
      some answer)
    (htake : Takes state.publisher (some answer) next) :
    LockStep
      ((state.withPublisher next).withSubscriber index
        { state.subscribers index with link := (state.subscribers index).link.take }) := by
  obtain ⟨hlogged, hopened, hfound, hwriter, hrunning⟩ := hlock.takes htake
  refine ⟨hlock.rounds.take hanswer htake, hlogged, hopened, fun size hsize => ?_⟩
  obtain ⟨before, rest, htyped⟩ := hlock.typed_withPublisher hrunning hfound hwriter size hsize
  refine ⟨before, rest, ?_⟩
  exact Typed.withSubscriber htyped le_rfl (Or.inl rfl)

theorem LockStep.withSubscriber {state : State n} (hlock : LockStep state) {index : Fin n}
    {subscriber : Subscriber} (hrounds : Invariant (state.withSubscriber index subscriber))
    (hposition : subscriber.link.position = (state.subscribers index).link.position)
    (hreader : subscriber.dataReader = (state.subscribers index).dataReader) :
    LockStep (state.withSubscriber index subscriber) where
  rounds := hrounds
  logged := hlock.logged
  opened := hlock.opened
  typed := by
    intro size hwriter
    obtain ⟨before, rest, htyped⟩ := hlock.typed size hwriter
    exact ⟨before, rest, htyped.withSubscriber hposition.ge (Or.inl hreader)⟩

/-- Another set of readers that are found, the same when a payload is tested. -/
theorem Opened.withFound {publisher : Publisher n} (hopened : Opened publisher)
    {found : Finset (Fin n)}
    (hfound : publisher.phase.Running → ∀ size, publisher.dataWriter = some size →
      publisher.found = Finset.univ → found = Finset.univ)
    (wait : WaitPhase) (notifications : ℕ) :
    Opened
      { publisher with
        found := found
        discoveryWait := wait
        notifications := notifications } := by
  unfold Opened at hopened ⊢
  cases hphase : publisher.phase with
  | sizes | endpoints | removing | discovery =>
      simp only [hphase] at hopened ⊢
      exact hopened
  | demands | disposing =>
      simp only [hphase] at hopened ⊢
      obtain ⟨size, demands, rest, hsizes, hwriter, hall⟩ := hopened
      exact ⟨size, demands, rest, hsizes, hwriter,
        hfound (by rw [hphase]; trivial) size hwriter hall⟩
  | rigging | starting | startsAcknowledgment | sending | ending | endsAcknowledgment
  | results =>
      simp only [hphase] at hopened ⊢
      obtain ⟨demands, rest, hsizes, hwriter, hall⟩ := hopened
      exact ⟨demands, rest, hsizes, hwriter,
        hfound (by rw [hphase]; trivial) publisher.test.msgSize hwriter hall⟩
  | stopping | printed | returned | aborted => trivial

theorem LockStep.atWriter {state : State n} {event : WriterEvent n} {next : Publisher n}
    (hlock : LockStep state) (hrounds : Invariant (state.withPublisher next))
    (hsteps : WriterSteps state.publisher state.subscribers event next) :
    LockStep (state.withPublisher next) := by
  cases hsteps with
  | @matched index _ hreader =>
      refine ⟨hrounds, hlock.logged, ?_, ?_⟩
      · refine hlock.opened.withFound (fun _ _ _ hall => ?_) _ _
        rw [hall, Finset.insert_eq_self]
        exact Finset.mem_univ index
      · intro size hwriter
        obtain ⟨before, rest, htyped⟩ := hlock.typed size hwriter
        refine ⟨before, rest, htyped.withPublisher id fun _ other hmem hother => ?_⟩
        rcases Finset.mem_insert.mp hmem with rfl | hold
        · rcases htyped.reader other with hnone | hsome
          · rw [hnone] at hreader
            cases hreader
          · exact hsome
        · exact absurd hold hother
  | @unmatched index hreader hold =>
      refine ⟨hrounds, hlock.logged, ?_, ?_⟩
      · refine hlock.opened.withFound (fun hrunning size hwriter _ => ?_) _ _
        obtain ⟨before, rest, htyped⟩ := hlock.typed size hwriter
        have hsome := htyped.found hrunning index hold
        rw [hreader] at hsome
        cases hsome
      · intro size hwriter
        obtain ⟨before, rest, htyped⟩ := hlock.typed size hwriter
        refine ⟨before, rest, htyped.withPublisher id fun _ other hmem hother => ?_⟩
        exact absurd (Finset.mem_of_mem_erase hmem) hother
  | notified | awoken =>
      exact ⟨hrounds, hlock.logged, hlock.opened.withFound (fun _ _ _ hall => hall) _ _,
        hlock.typed_withPublisher id rfl rfl⟩

theorem LockStep.step {parameters : Parameters} {state next : State n} {action : Action n}
    (hlock : LockStep state) (hstep : step parameters state action = some next)
    (hnew : Unrepeated state action) : LockStep next := by
  have hrounds := hlock.rounds.step hstep hnew
  cases action with
  | advance =>
      obtain ⟨⟨publisher, commands⟩, hadvance, rfl⟩ := Option.map_eq_some_iff.mp hstep
      exact hlock.advance (advances_of_advance hadvance)
  | prepare prepared =>
      obtain ⟨publisher, hprepare, rfl⟩ := Option.map_eq_some_iff.mp hstep
      exact hlock.proceed (proceeds_of_prepare hprepare)
  | dispose prepared =>
      obtain ⟨⟨publisher, commands⟩, hdispose, rfl⟩ := Option.map_eq_some_iff.mp hstep
      exact hlock.dispose (disposes_of_dispose hdispose)
  | acknowledge inTime =>
      obtain ⟨publisher, hacknowledge, rfl⟩ := Option.map_eq_some_iff.mp hstep
      exact hlock.proceed (proceeds_of_acknowledge hacknowledge)
  | send batches =>
      obtain ⟨publisher, hsend, rfl⟩ := Option.map_eq_some_iff.mp hstep
      exact hlock.proceed (proceeds_of_send hsend)
  | take index =>
      simp only [CppProj.ThroughputTest.step, takeStep] at hstep
      split at hstep
      case h_1 answer hanswer =>
        obtain ⟨publisher, htake, rfl⟩ := Option.map_eq_some_iff.mp hstep
        exact hlock.take hanswer (takes_of_take htake)
      case h_2 => cases hstep
  | takeInvalid =>
      obtain ⟨publisher, htake, rfl⟩ := Option.map_eq_some_iff.mp hstep
      exact hlock.takeInvalid (takes_of_take htake)
  | timeout =>
      obtain ⟨publisher, htimeout, rfl⟩ := Option.map_eq_some_iff.mp hstep
      exact hlock.timeout htimeout (hnew rfl)
  | processMessage index prepared totalTime =>
      simp only [CppProj.ThroughputTest.step, processMessageStep] at hstep
      split_ifs at hstep
      split at hstep
      case h_1 command hcommand =>
        cases hstep
        refine ⟨hrounds, hlock.logged, hlock.opened, fun size hwriter => ?_⟩
        obtain ⟨before, rest, htyped⟩ := hlock.typed size hwriter
        exact ⟨before, rest, htyped.processMessage hcommand prepared totalTime⟩
      case h_2 => cases hstep
  | atWriter event =>
      obtain ⟨publisher, hat, rfl⟩ := Option.map_eq_some_iff.mp hstep
      exact hlock.atWriter hrounds (writerSteps_of_atWriter hat)
  | atReader index event =>
      obtain ⟨subscriber, hat, rfl⟩ := Option.map_eq_some_iff.mp hstep
      obtain ⟨hlink, hview, -⟩ := (readerSteps_of_atReader hat).frame
      exact hlock.withSubscriber hrounds (congrArg Link.position hlink)
        (congrArg View.dataReader hview)

/-! ## The numbers of the listeners -/

/-- The numbers of a subscriber are those of the samples since the last reset. -/
def Counted (subscriber : Subscriber) : Prop :=
  saveNumbers subscriber.listener =
    saveNumbers (subscriber.counted.foldl DataReaderListener.take subscriber.listener.reset)

theorem saveNumbers_take {listener other : DataReaderListener}
    (hsame : saveNumbers listener = saveNumbers other) (sample : Sample) :
    saveNumbers (listener.take sample) = saveNumbers (other.take sample) := by
  simp only [saveNumbers, SavedNumbers.mk.injEq] at hsame
  obtain ⟨hlast, hlost, hreceived⟩ := hsame
  unfold DataReaderListener.take
  split
  · simp only [saveNumbers, hlast, hlost, hreceived]
  · simp only [saveNumbers, hlast, hlost, hreceived]

theorem saveNumbers_foldl_take {listener other : DataReaderListener}
    (hsame : saveNumbers listener = saveNumbers other) (samples : List Sample) :
    saveNumbers (samples.foldl DataReaderListener.take listener) =
      saveNumbers (samples.foldl DataReaderListener.take other) := by
  induction samples generalizing listener other with
  | nil => exact hsame
  | cons sample rest ih => exact ih (saveNumbers_take hsame sample)

theorem Counted.of_eq {subscriber next : Subscriber} (hcounted : Counted subscriber)
    (hlistener : saveNumbers next.listener = saveNumbers subscriber.listener)
    (hsamples : next.counted = subscriber.counted) : Counted next := by
  rw [Counted, hlistener, hsamples]
  exact hcounted.trans (saveNumbers_foldl_take rfl _)

theorem Counted.processMessage {subscriber : Subscriber} (hcounted : Counted subscriber)
    (command : ThroughputCommandType) (prepared : Bool) (totalTime : UInt64) :
    Counted (subscriber.processMessage command prepared totalTime) := by
  cases hcommand : command.command with
  | readyToStart =>
      simp only [Subscriber.processMessage, hcommand]
      rfl
  | typeNew =>
      simp only [Subscriber.processMessage, hcommand]
      split_ifs <;> exact hcounted.of_eq rfl rfl
  | typeDispose =>
      simp only [Subscriber.processMessage, hcommand]
      split_ifs
      · rfl
      · exact hcounted.of_eq rfl rfl
  | testEnds | allStops | default | begin | testStarts | typeRemoved | testResults =>
      simp only [Subscriber.processMessage, hcommand]
      exact hcounted.of_eq rfl rfl

theorem Counted.atReader {subscriber next : Subscriber} {dataWriter : Option UInt32}
    {event : ReaderEvent} (hcounted : Counted subscriber)
    (hsteps : ReaderSteps subscriber dataWriter event next) : Counted next := by
  cases hsteps with
  | taken sample =>
      rw [Counted, List.foldl_append]
      exact (saveNumbers_take hcounted sample).trans
        (saveNumbers_take (saveNumbers_foldl_take rfl _) sample)
  | found | waits | matched | unmatched | notified | awoken | called | finished =>
      exact hcounted.of_eq rfl rfl

/-- What holds of every subscriber still does when one is replaced. -/
theorem forall_withSubscriber (holds : Subscriber → Prop) {state : State n}
    (hall : ∀ index, holds (state.subscribers index)) {index : Fin n} {subscriber : Subscriber}
    (hsubscriber : holds subscriber) (other : Fin n) :
    holds ((state.withSubscriber index subscriber).subscribers other) := by
  by_cases heq : other = index
  · subst heq
    simp only [State.withSubscriber, Function.update_self]
    exact hsubscriber
  · simp only [State.withSubscriber, Function.update_of_ne heq]
    exact hall other

theorem counted_step {parameters : Parameters} {state next : State n} {action : Action n}
    (hcounted : ∀ index, Counted (state.subscribers index))
    (hstep : step parameters state action = some next) (index : Fin n) :
    Counted (next.subscribers index) := by
  cases action with
  | advance | prepare | dispose | acknowledge | send | takeInvalid | timeout | atWriter =>
      obtain ⟨publisher, -, rfl⟩ := Option.map_eq_some_iff.mp hstep
      exact hcounted index
  | take other =>
      simp only [CppProj.ThroughputTest.step, takeStep] at hstep
      split at hstep
      case h_1 answer hanswer =>
        obtain ⟨publisher, htake, rfl⟩ := Option.map_eq_some_iff.mp hstep
        refine forall_withSubscriber Counted hcounted ?_ index
        exact (hcounted other).of_eq rfl rfl
      case h_2 => cases hstep
  | processMessage other prepared totalTime =>
      simp only [CppProj.ThroughputTest.step, processMessageStep] at hstep
      split_ifs at hstep
      split at hstep
      case h_1 command hcommand =>
        cases hstep
        exact forall_withSubscriber Counted hcounted
          ((hcounted other).processMessage command prepared totalTime) index
      case h_2 => cases hstep
  | atReader other event =>
      obtain ⟨subscriber, hat, rfl⟩ := Option.map_eq_some_iff.mp hstep
      exact forall_withSubscriber Counted hcounted
        ((hcounted other).atReader (readerSteps_of_atReader hat)) index

theorem counted_of_run {parameters : Parameters} {actions : List (Action n)} {state : State n}
    (hrun : (system parameters).run (State.initial parameters) actions = some state)
    (index : Fin n) : Counted (state.subscribers index) := by
  have hinitial : ∀ index, Counted ((State.initial parameters : State n).subscribers index) :=
    fun _ => rfl
  exact run_preserves (fun state : State n => ∀ index, Counted (state.subscribers index))
    (fun _ _ _ hcounted hstep => counted_step hcounted hstep) hinitial hrun index

/-! ## The subscribers in a test -/

/-- A subscriber that has been reset for the test, whose `READY_TO_START` is at
this place in the log.  `TEST_ENDS` is two places behind it. -/
structure Rigged (test : Test) (asked : ℕ) (subscriber : Subscriber) : Prop where
  dataReader : subscriber.dataReader = some test.msgSize
  dataSize : subscriber.dataSize = test.msgSize
  demand : subscriber.demand = test.demand
  resetAt : subscriber.resetAt = some asked
  counted : Counted subscriber
  enable : subscriber.listener.enable = true ↔ subscriber.link.position ≤ asked + 2

/-- The publisher is in `test`. -/
def Phase.testing : Phase → Bool
  | .starting | .startsAcknowledgment | .sending | .ending | .endsAcknowledgment
  | .results _ => true
  | _ => false

/-- The log in a test: the question, and what has been written of the start and the
end. -/
structure InTest (log before : List ThroughputCommandType) (command : ThroughputCommandType)
    (rest : List ThroughputCommandType) : Prop where
  log : log = before ++ command :: rest
  command : command.command = .readyToStart
  rest : rest <+: [.ofCommand .testStarts, .ofCommand .testEnds]

theorem InTest.rest_cases {log before : List ThroughputCommandType}
    {command : ThroughputCommandType} {rest : List ThroughputCommandType}
    (htest : InTest log before command rest) :
    rest = [] ∨ rest = [.ofCommand .testStarts] ∨
      rest = [.ofCommand .testStarts, .ofCommand .testEnds] := by
  have hrest := htest.rest
  rcases rest with _ | ⟨first, _ | ⟨second, later⟩⟩
  · exact Or.inl rfl
  · rw [List.cons_prefix_cons] at hrest
    exact Or.inr (Or.inl (by rw [hrest.1]))
  · rw [List.cons_prefix_cons, List.cons_prefix_cons, List.prefix_nil] at hrest
    exact Or.inr (Or.inr (by rw [hrest.1, hrest.2.1, hrest.2.2]))

theorem after_handled (log : List ThroughputCommandType) :
    (machine.after log).handled = log.length := by
  induction log using List.reverseRecOn with
  | nil => rfl
  | append_singleton log command ih =>
      have hreact : (react (machine.after log) command).1.handled =
          (machine.after log).handled := by
        unfold react
        split <;> rfl
      rw [Machine.after_concat, List.length_append, List.length_singleton, ← ih, ← hreact]
      rfl

/-- What a subscriber knows in a test. -/
structure AskedView (asked : ℕ) (command : ThroughputCommandType) (view : View) : Prop where
  resetAt : view.resetAt = some asked
  dataSize : view.dataSize = command.m_size
  demand : view.demand = command.m_demand
  enable : view.enable = true ↔ view.handled ≤ asked + 2

theorem InTest.askedView {log before : List ThroughputCommandType}
    {command : ThroughputCommandType} {rest : List ThroughputCommandType}
    (htest : InTest log before command rest) :
    AskedView before.length command (machine.after log) := by
  have hlog := htest.log
  have hhandled := after_handled before
  rw [← List.singleton_append, ← List.append_assoc] at hlog
  rcases htest.rest_cases with rfl | rfl | rfl
  · rw [hlog, List.append_nil, Machine.after_concat, step_readyToStart htest.command]
    refine ⟨congrArg some hhandled, rfl, rfl, ?_⟩
    simp only [View.next, View.reset, hhandled, true_iff]
    omega
  · rw [hlog, Machine.after_concat, step_testStarts, Machine.after_concat,
      step_readyToStart htest.command]
    refine ⟨congrArg some hhandled, rfl, rfl, ?_⟩
    simp only [View.next, View.reset, hhandled, true_iff]
    omega
  · rw [hlog, List.append_cons, Machine.after_concat, step_testEnds, Machine.after_concat,
      step_testStarts, Machine.after_concat, step_readyToStart htest.command]
    refine ⟨congrArg some hhandled, rfl, rfl, ?_⟩
    simp only [View.next, View.reset, hhandled, Bool.false_eq_true, false_iff]
    omega

/-- A subscriber that is past the question has handled a part of the log that is
one of this test. -/
theorem InTest.take {log before : List ThroughputCommandType} {command : ThroughputCommandType}
    {rest : List ThroughputCommandType} (htest : InTest log before command rest) {position : ℕ}
    (hposition : before.length < position) :
    ∃ fewer, InTest (log.take position) before command fewer := by
  obtain ⟨more, rfl⟩ := Nat.exists_eq_add_of_lt hposition
  refine ⟨rest.take more, ?_, htest.command, (List.take_prefix _ _).trans htest.rest⟩
  rw [htest.log, Nat.add_assoc, List.take_length_add_append, List.take_succ_cons]

/-- A subscriber that owes nothing, or only the report, is past the question. -/
theorem InTest.lt_position {log before : List ThroughputCommandType}
    {command : ThroughputCommandType} {rest : List ThroughputCommandType}
    (htest : InTest log before command rest) {subscriber : Subscriber}
    (hfollowing : Following log subscriber)
    (howed : Link.owed machine log subscriber.link = [] ∨
      rest = [.ofCommand .testStarts, .ofCommand .testEnds] ∧
        (Link.owed machine log subscriber.link).length ≤ 1) :
    before.length < subscriber.link.position := by
  have hreply : (machine.step (machine.after before) command).2 ≠ [] := by
    rw [step_readyToStart htest.command]
    exact List.cons_ne_nil _ _
  rcases howed with hnone | ⟨rfl, hone⟩
  · exact hfollowing.follows.lt_position hnone htest.log hreply
  · refine hfollowing.follows.lt_position_of_owed_le htest.log hreply ?_
    have hlog : log = before ++ [command] ++ [.ofCommand .testStarts] ++
        [.ofCommand .testEnds] := by
      rw [htest.log, List.append_assoc, List.append_assoc]
      rfl
    have hreplies : (machine.replies log).length =
        (machine.replies (before ++ [command])).length + 1 := by
      rw [hlog, Machine.replies_concat, step_testEnds,
        Machine.replies_concat machine (before ++ [command]), step_testStarts, List.append_nil,
        List.length_append, List.length_singleton]
    omega

/-- In a test every subscriber has handled the question. -/
theorem LockStep.inTest {state : State n} (hlock : LockStep state)
    (htesting : state.publisher.phase.testing = true) :
    ∃ before command rest, InTest state.log before command rest ∧
      ∀ index, before.length < (state.subscribers index).link.position := by
  have hlogged := hlock.logged
  have hround := hlock.rounds.round
  unfold Logged at hlogged
  unfold Round at hround
  cases hphase : state.publisher.phase with
  | starting =>
      rw [hphase] at hlogged hround
      obtain ⟨before, command, hlog, hcommand⟩ := hlogged
      have htest : InTest state.log before command [] := ⟨hlog, hcommand, List.nil_prefix⟩
      exact ⟨before, command, [], htest, fun index =>
        htest.lt_position (hlock.rounds.followed index) (Or.inl (hround index))⟩
  | startsAcknowledgment | sending | ending =>
      rw [hphase] at hlogged hround
      obtain ⟨_, ⟨before, command, rfl, hcommand⟩, hlog⟩ := hlogged
      rw [List.append_assoc, List.singleton_append] at hlog
      have htest : InTest state.log before command [.ofCommand .testStarts] :=
        ⟨hlog, hcommand, List.prefix_append _ [ThroughputCommandType.ofCommand .testEnds]⟩
      exact ⟨before, command, _, htest, fun index =>
        htest.lt_position (hlock.rounds.followed index) (Or.inl (hround index))⟩
  | endsAcknowledgment =>
      rw [hphase] at hlogged hround
      obtain ⟨_, ⟨before, command, rfl, hcommand⟩, hlog⟩ := hlogged
      rw [List.append_assoc, List.singleton_append] at hlog
      have htest : InTest state.log before command _ := ⟨hlog, hcommand, List.prefix_rfl⟩
      refine ⟨before, command, _, htest, fun index => ?_⟩
      have howed : Link.owed machine state.log (state.subscribers index).link =
        [state.publisher.reportShape] := hround index
      exact htest.lt_position (hlock.rounds.followed index)
        (Or.inr ⟨rfl, by rw [howed]; exact le_rfl⟩)
  | results received =>
      rw [hphase] at hlogged hround
      obtain ⟨_, ⟨before, command, rfl, hcommand⟩, hlog⟩ := hlogged
      rw [List.append_assoc, List.singleton_append] at hlog
      have htest : InTest state.log before command _ := ⟨hlog, hcommand, List.prefix_rfl⟩
      refine ⟨before, command, _, htest, fun index => ?_⟩
      have hfollowing := hlock.rounds.followed index
      rcases hround.owed index with hnone | hone | ⟨hfailed, -⟩
      · exact htest.lt_position hfollowing (Or.inl hnone)
      · have howed : Link.owed machine state.log (state.subscribers index).link =
          [state.publisher.reportShape] := hone
        exact htest.lt_position hfollowing (Or.inr ⟨rfl, by rw [howed]; exact le_rfl⟩)
      · cases hfailed
  | sizes | endpoints | discovery | demands | rigging | disposing | removing | stopping | printed
  | returned | aborted =>
      rw [hphase] at htesting
      cases htesting

theorem LockStep.of_testing {state : State n} (hlock : LockStep state)
    (htesting : state.publisher.phase.testing = true) :
    (machine.after state.log).dataSize = state.publisher.test.msgSize ∧
      (machine.after state.log).demand = state.publisher.test.demand ∧
      state.publisher.dataWriter = some state.publisher.test.msgSize ∧
      state.publisher.found = Finset.univ := by
  have hasked := hlock.rounds.asked
  have hopened := hlock.opened
  unfold Asked at hasked
  unfold Opened at hopened
  cases hphase : state.publisher.phase with
  | starting | startsAcknowledgment | sending | ending | endsAcknowledgment | results =>
      rw [hphase] at hasked hopened
      obtain ⟨demands, rest, -, hwriter, hfound⟩ := hopened
      exact ⟨hasked.1, hasked.2, hwriter, hfound⟩
  | sizes | endpoints | discovery | demands | rigging | disposing | removing | stopping | printed
  | returned | aborted =>
      rw [hphase] at htesting
      cases htesting

/-- In a test every subscriber has been reset for it. -/
theorem LockStep.rigged {state : State n} (hlock : LockStep state)
    (hcounted : ∀ index, Counted (state.subscribers index))
    (htesting : state.publisher.phase.testing = true)
    {before rest : List ThroughputCommandType} {command : ThroughputCommandType}
    (htest : InTest state.log before command rest)
    (hposition : ∀ index, before.length < (state.subscribers index).link.position)
    (index : Fin n) :
    Rigged state.publisher.test before.length (state.subscribers index) := by
  obtain ⟨hdataSize, hdemand, hwriter, hfound⟩ := hlock.of_testing htesting
  obtain ⟨typeBefore, typeRest, htyped⟩ := hlock.typed _ hwriter
  obtain ⟨fewer, hhandled⟩ := htest.take (hposition index)
  have hrunning : state.publisher.phase.Running := by
    cases hphase : state.publisher.phase <;> rw [hphase] at htesting <;> trivial
  have hasked := hhandled.askedView
  rw [← (hlock.rounds.followed index).view] at hasked
  constructor
  case dataReader =>
    exact htyped.found hrunning index (by rw [hfound]; exact Finset.mem_univ index)
  case dataSize => exact hasked.dataSize.trans (htest.askedView.dataSize.symm.trans hdataSize)
  case demand => exact hasked.demand.trans (htest.askedView.demand.symm.trans hdemand)
  case resetAt => exact hasked.resetAt
  case counted => exact hcounted index
  case enable => exact hasked.enable

/-! ## One subscriber -/

/-- A loop that holds an answer of its kind has counted one. -/
def Fresh (publisher : Publisher n) : Prop :=
  match publisher.phase with
  | .rigging ready => publisher.holds .begin = true → 0 < ready
  | .removing ready => publisher.holds .typeRemoved = true → 0 < ready
  | _ => True

/-- With one subscriber the loop is over when an answer has been counted. -/
theorem Fresh.unrepeated (hone : n ≤ 1) {state : State n} (hfresh : Fresh state.publisher)
    (action : Action n) : Unrepeated state action := by
  intro _ hrepeats
  unfold Fresh at hfresh
  unfold Publisher.Repeats at hrepeats
  cases hphase : state.publisher.phase with
  | rigging ready | removing ready =>
      rw [hphase] at hfresh hrepeats
      have hpositive := hfresh hrepeats.2
      have hlt := hrepeats.1
      omega
  | sizes | endpoints | discovery | demands | starting | startsAcknowledgment | sending | ending
  | endsAcknowledgment | results | disposing | stopping | printed | returned | aborted =>
      rw [hphase] at hrepeats
      exact hrepeats

theorem counted_pos {kind : Command} {ready : ℕ} {answer : ThroughputCommandType}
    (hkind : answer.command = kind) : 0 < counted kind ready (some answer) := by
  rw [counted, if_pos hkind]
  exact Nat.succ_pos _

theorem holds_stored {publisher : Publisher n} {answer : Option ThroughputCommandType}
    {kind : Command} {phase : Phase}
    (hholds : ({ publisher.stored answer with phase := phase } : Publisher n).holds kind = true) :
    ∃ command, answer = some command ∧ command.command = kind := by
  cases answer with
  | none =>
      simp only [Publisher.holds, Publisher.stored, Option.isSome_none, Bool.false_and,
        Bool.false_eq_true] at hholds
  | some command =>
      simp only [Publisher.holds, Publisher.stored, Option.isSome_some, Option.getD_some,
        Bool.true_and, beq_iff_eq] at hholds
      exact ⟨command, rfl, hholds⟩

theorem Fresh.takes {publisher next : Publisher n} {answer : Option ThroughputCommandType}
    (htake : Takes publisher answer next) : Fresh next := by
  cases htake with
  | rigging | removing =>
      intro hholds
      obtain ⟨command, rfl, hcommand⟩ := holds_stored hholds
      exact counted_pos hcommand
  | recorded | tooMany | failed => trivial

theorem Fresh.advance {parameters : Parameters} {publisher next : Publisher n}
    {commands : List ThroughputCommandType}
    (hadvance : Advances parameters publisher next commands) : Fresh next := by
  cases hadvance with
  | awake =>
      intro hholds
      simp only [Publisher.holds, command_awake, Bool.and_eq_true, beq_iff_eq, reduceCtorEq,
        and_false] at hholds
  | nextDemand hphase => simp only [Fresh, hphase]
  | stop =>
      unfold Fresh
      dsimp only
      cases publisher.testFailure <;> trivial
  | waits hphase => simp only [Fresh, hphase]
  | noSize | announce | found | noDemand | rigged | start | finish | tested | removed => trivial

theorem Fresh.dispose {publisher next : Publisher n} {commands : List ThroughputCommandType}
    (hdispose : Disposes publisher next commands) : Fresh next := by
  cases hdispose with
  | disposed =>
      intro hholds
      simp only [Publisher.holds, command_typeCommand, Bool.and_eq_true, beq_iff_eq,
        reduceCtorEq, and_false] at hholds
  | undisposed => trivial

theorem Fresh.proceed {publisher next : Publisher n} (hproceed : Proceeds publisher next) :
    Fresh next := by
  cases hproceed <;> trivial

theorem Fresh.step (hone : n ≤ 1) {parameters : Parameters} {state next : State n}
    {action : Action n} (hfresh : Fresh state.publisher)
    (hstep : CppProj.ThroughputTest.step parameters state action = some next) :
    Fresh next.publisher := by
  cases action with
  | advance =>
      obtain ⟨⟨publisher, commands⟩, hadvance, rfl⟩ := Option.map_eq_some_iff.mp hstep
      exact Fresh.advance (advances_of_advance hadvance)
  | prepare prepared =>
      obtain ⟨publisher, hprepare, rfl⟩ := Option.map_eq_some_iff.mp hstep
      exact Fresh.proceed (proceeds_of_prepare hprepare)
  | dispose prepared =>
      obtain ⟨⟨publisher, commands⟩, hdispose, rfl⟩ := Option.map_eq_some_iff.mp hstep
      exact Fresh.dispose (disposes_of_dispose hdispose)
  | acknowledge inTime =>
      obtain ⟨publisher, hacknowledge, rfl⟩ := Option.map_eq_some_iff.mp hstep
      exact Fresh.proceed (proceeds_of_acknowledge hacknowledge)
  | send batches =>
      obtain ⟨publisher, hsend, rfl⟩ := Option.map_eq_some_iff.mp hstep
      exact Fresh.proceed (proceeds_of_send hsend)
  | take index =>
      simp only [CppProj.ThroughputTest.step, takeStep] at hstep
      split at hstep
      case h_1 answer hanswer =>
        obtain ⟨publisher, htake, rfl⟩ := Option.map_eq_some_iff.mp hstep
        exact Fresh.takes (takes_of_take htake)
      case h_2 => cases hstep
  | takeInvalid =>
      obtain ⟨publisher, htake, rfl⟩ := Option.map_eq_some_iff.mp hstep
      exact Fresh.takes (takes_of_take htake)
  | timeout =>
      have hnew := hfresh.unrepeated hone (.timeout : Action n) rfl
      obtain ⟨publisher, htimeout, rfl⟩ := Option.map_eq_some_iff.mp hstep
      rcases timeout_cases htimeout hnew with rfl | ⟨received, hphase, rfl⟩
      · exact hfresh
      · trivial
  | processMessage index prepared totalTime =>
      simp only [CppProj.ThroughputTest.step, processMessageStep] at hstep
      split_ifs at hstep
      split at hstep
      case h_1 =>
        cases hstep
        exact hfresh
      case h_2 => cases hstep
  | atWriter event =>
      obtain ⟨publisher, hat, rfl⟩ := Option.map_eq_some_iff.mp hstep
      obtain ⟨_, _, _, rfl⟩ := (writerSteps_of_atWriter hat).eq
      exact hfresh
  | atReader index event =>
      obtain ⟨subscriber, hat, rfl⟩ := Option.map_eq_some_iff.mp hstep
      exact hfresh

/-- No wait counts an answer again, which with one subscriber holds of every run. -/
def Safe (parameters : Parameters) (actions : List (Action n)) : Prop :=
  n ≤ 1 ∨ (system parameters).StepsMeet Unrepeated (State.initial parameters) actions

theorem Safe.stepsMeet {parameters : Parameters} {actions : List (Action n)}
    (hsafe : Safe parameters actions) :
    (system parameters).StepsMeet Unrepeated (State.initial parameters) actions := by
  rcases hsafe with hone | hmeet
  · exact stepsMeet_of_invariant (fun state : State n => Fresh state.publisher)
      (fun _ _ _ hfresh hstep => hfresh.step hone hstep)
      (fun _ action hfresh => hfresh.unrepeated hone action) trivial
  · exact hmeet

theorem LockStep.of_run {parameters : Parameters} {actions : List (Action n)} {state : State n}
    (hrun : (system parameters).run (State.initial parameters) actions = some state)
    (hsafe : Safe parameters actions) : LockStep state :=
  run_preserves_of_stepsMeet LockStep
    (fun _ _ _ hlock hnew hstep => hlock.step hstep hnew) (LockStep.initial parameters)
    hsafe.stepsMeet hrun

/-! ## Lock step -/

/-- The assertion at the head of `test` holds, the data endpoints that can find
each other have one type, and in a test every subscriber is rigged for it. -/
structure InStep (state : State n) : Prop where
  types : ∀ index size other, state.publisher.dataWriter = some size →
    (state.subscribers index).dataReader = some other → other = size
  matches_all : state.publisher.phase.testing = true → state.publisher.totalMatches = n * 3
  rigged : state.publisher.phase.testing = true →
    ∃ before command rest, InTest state.log before command rest ∧
      ∀ index, Rigged state.publisher.test before.length (state.subscribers index)

theorem inStep_of_run {parameters : Parameters} {actions : List (Action n)} {state : State n}
    (hrun : (system parameters).run (State.initial parameters) actions = some state)
    (hsafe : Safe parameters actions) : InStep state := by
  have hlock := LockStep.of_run hrun hsafe
  constructor
  case types =>
    intro index size other hwriter hreader
    obtain ⟨before, rest, htyped⟩ := hlock.typed size hwriter
    rcases htyped.reader index with hnone | hsome
    · rw [hnone] at hreader
      cases hreader
    · rw [hsome] at hreader
      exact (Option.some.inj hreader).symm
  case matches_all =>
    intro htesting
    obtain ⟨-, -, -, hfound⟩ := hlock.of_testing htesting
    rw [Publisher.totalMatches, hfound, Finset.card_univ, Fintype.card_fin]
    omega
  case rigged =>
    intro htesting
    obtain ⟨before, command, rest, htest, hposition⟩ := hlock.inTest htesting
    exact ⟨before, command, rest, htest,
      hlock.rigged (counted_of_run hrun) htesting htest hposition⟩

/-- The subscriber of a test with one. -/
def lone : Fin 1 := Fin.last 0

/-- One payload, one demand and one recovery time. -/
def shortTest : Parameters := ⟨[(16, [3])], [7]⟩

/-- Types and endpoints are prepared for one subscriber, whose reader finds the
writer while it sleeps; it is rigged and takes a sample. -/
def untilSending : List (Action 1) :=
  [.advance, .processMessage lone true 0, .atReader lone .awaitWriter, .prepare true,
    .atWriter (.matched lone), .atReader lone .awaitWriter, .atReader lone .matched,
    .atReader lone .notify, .atReader lone .awaitWriter, .atReader lone .awaitWriter,
    .advance, .advance, .processMessage lone true 0, .timeout, .take lone, .advance, .advance,
    .acknowledge true, .atReader lone .dataAvailable,
    .atReader lone (.takeNextSample (some ⟨true, 1⟩))]

theorem run_untilSending :
    ∃ state, (system shortTest).run (State.initial shortTest) untilSending = some state ∧
      state.publisher.phase = .sending :=
  ⟨_, rfl, rfl⟩

theorem inStep_of_run_untilSending :
    ∃ state, (system shortTest).run (State.initial shortTest) untilSending = some state ∧
      state.publisher.phase = .sending ∧ InStep state := by
  obtain ⟨state, hrun, hphase⟩ := run_untilSending
  exact ⟨state, hrun, hphase, inStep_of_run hrun (Or.inl le_rfl)⟩

/-- With two subscribers a wait that times out counts the first answer twice. -/
example :
    ((system shortTest).run (State.initial shortTest)
      ([.advance, .processMessage 0 true 0, .processMessage 1 true 0, .prepare true,
        .atWriter (.matched 0), .atWriter (.matched 1), .atReader 0 .matched,
        .atReader 0 .awaitWriter, .atReader 1 .matched, .atReader 1 .awaitWriter, .advance,
        .advance, .processMessage 0 true 0, .take 0, .timeout, .advance, .advance,
        .acknowledge true] : List (Action 2))).any
      (fun state => state.publisher.phase == .sending && (state.subscribers 1).dataSize == 0) =
      true := by
  decide

end CppProj.ThroughputTest
