import CppProj.LatencyTestRounds
import Mathlib.Data.Finset.Card
import Mathlib.Order.Interval.Finset.Nat

/-!
# The measurements of the latency test

The listener compares the number of an echo with a number that the test sets
and the listener clears, while both run.  Whatever is lost or late, an echo is
recorded only if it is of the sample that `start_time_` was read for, and of
every sample at most one echo is, unless the test sets the next number after the
listener has found the last one and before it has cleared it.
-/

namespace CppProj.LatencyTest

open TransitionSystem

variable {n : ℕ}

/-! ## What is recorded -/

/-- The phases in which `times_` belongs to the payload. -/
def Publisher.Phase.timing : Publisher.Phase → Bool
  | .preparing | .readying | .returned | .undefined => false
  | _ => true

/-- The number of the next sample is set, and all samples before it are sent. -/
structure Numbered (parameters : Parameters) (publisher : Publisher)
    (sent : List (LatencyType × ℤ)) : Prop where
  count_le : publisher.count.toNat ≤ parameters.samples.toNat + 1
  count_pos : 0 < publisher.count.toNat
  seqnumOut : publisher.seqnumOut = publisher.count
  before : ∀ sample ∈ sent, sample.1.seqnum < publisher.count

/-- How far the samples of the payload have come. -/
def Progress (parameters : Parameters) (publisher : Publisher)
    (sent : List (LatencyType × ℤ)) : Prop :=
  match publisher.phase with
  | .readying => sent = [] ∧ publisher.receivedCount = 0
  | .discovery | .awaitBegin => sent = []
  | .sampling =>
      publisher.count.toNat ≤ parameters.samples.toNat + 2 ∧ 0 < publisher.count.toNat ∧
        ∀ sample ∈ sent, sample.1.seqnum < publisher.count
  | .numbered | .loaning => Numbered parameters publisher sent
  | .filled | .resetting | .untimed | .timed =>
      Numbered parameters publisher sent ∧ publisher.number parameters = publisher.count
  | .waiting =>
      publisher.count.toNat ≤ parameters.samples.toNat + 1 ∧
        ∀ sample ∈ sent, sample.1.seqnum ≤ publisher.count
  | _ => True

/-- The number that the listener compares with is that of its echo, or none that
is expected. -/
def Publisher.Reads (publisher : Publisher) (echo : LatencyType) : Prop :=
  publisher.seqnumIn = none ∨ publisher.seqnumIn = some echo.seqnum ∨
    publisher.seqnumIn = some 0 ∧ publisher.seqnumOut ≠ 0

/-- What the listener relies on. -/
def Publisher.Attends (parameters : Parameters) (publisher : Publisher)
    (handling : Handling) : Prop :=
  match handling.stage with
  | .taken => parameters.dataLoans = true ∨ publisher.Reads handling.echo
  | .locked => publisher.Reads handling.echo
  | .expected | .recorded => handling.echo.seqnum = publisher.seqnumOut
  | .compared => True

/-- The listener has found the number of its echo and not cleared it yet. -/
def Publisher.expecting (publisher : Publisher) : Bool :=
  publisher.handling.any fun handling =>
    handling.stage == .expected || handling.stage == .recorded

/-- No new number is set while the listener is about to clear the last one. -/
def Undisturbed (parameters : Parameters) (state : State n) (action : Action n) : Prop :=
  ∀ written, action = .nextSample written →
    state.publisher.count ≤ parameters.samples + 1 → state.publisher.expecting = false

instance (parameters : Parameters) (state : State n) (action : Action n) :
    Decidable (Undisturbed parameters state action) :=
  inferInstanceAs (Decidable (∀ written, action = .nextSample written →
    state.publisher.count ≤ parameters.samples + 1 → state.publisher.expecting = false))

/-- The measurements are of samples that were sent, each from its own start, and
in their order. -/
structure Recorded (publisher : Publisher) (sent : List (LatencyType × ℤ)) : Prop where
  starts : ∀ time ∈ publisher.times, ∃ sample ∈ sent,
    sample.1.seqnum = time.echo.seqnum ∧ sample.2 = time.startTime
  ordered : publisher.times.Pairwise fun first later => first.echo.seqnum < later.echo.seqnum
  before : publisher.seqnumOut ≠ 0 → (∀ echo, publisher.handling ≠ some ⟨echo, .recorded⟩) →
    ∀ time ∈ publisher.times, time.echo.seqnum < publisher.seqnumOut
  received : publisher.receivedCount = UInt32.ofNat publisher.times.length

/-- The statistics of a payload are about different samples after the first. -/
structure Sound (parameters : Parameters) (entry : TimeStats) : Prop where
  received : entry.received.toNat = entry.times.length
  nonempty : entry.times ≠ []
  length_le : entry.times.length ≤ parameters.samples.toNat
  ordered : entry.times.Pairwise fun first later => first.echo.seqnum < later.echo.seqnum
  numbers : ∀ time ∈ entry.times,
    1 < time.echo.seqnum.toNat ∧ time.echo.seqnum.toNat ≤ parameters.samples.toNat + 1

structure Measuring (parameters : Parameters) (state : State n) : Prop where
  sorted : state.sent.Pairwise fun first later => first.1.seqnum < later.1.seqnum
  numbers : ∀ sample ∈ state.sent,
    0 < sample.1.seqnum.toNat ∧ sample.1.seqnum.toNat ≤ parameters.samples.toNat + 1
  echoes : ∀ index, ∀ echo ∈ (state.channels index).echoes,
    ∃ sample ∈ state.sent, sample.1.seqnum = echo.seqnum
  handling : ∀ handling, state.publisher.handling = some handling →
    (∃ sample ∈ state.sent, sample.1.seqnum = handling.echo.seqnum) ∧
      state.publisher.Attends parameters handling
  idle : state.publisher.phase = .preparing →
    state.publisher.handling = none ∧ state.publisher.endpoints = none
  progress : Progress parameters state.publisher state.sent
  started : ∀ sample ∈ state.sent, sample.1.seqnum = state.publisher.seqnumOut →
    sample.2 = state.publisher.startTime
  recorded : state.publisher.phase.timing = true → Recorded state.publisher state.sent
  payloads : state.publisher.payloads =
    parameters.dataSizes.drop state.publisher.stats.length
  bytes : state.publisher.stats.map TimeStats.bytes =
    parameters.dataSizes.take state.publisher.stats.length
  stats : ∀ entry ∈ state.publisher.stats, Sound parameters entry

theorem Measuring.initial (parameters : Parameters) :
    Measuring parameters (State.initial parameters : State n) where
  sorted := List.Pairwise.nil
  numbers := fun _ hmem => absurd hmem List.not_mem_nil
  echoes := fun _ _ hmem => absurd hmem List.not_mem_nil
  handling := fun _ hnone => by cases hnone
  idle := fun _ => ⟨rfl, rfl⟩
  progress := by
    simp only [Progress, State.initial, Publisher.initial, Publisher.nextPayload]
    split_ifs <;> trivial
  started := fun _ hmem => absurd hmem List.not_mem_nil
  recorded := by
    simp only [State.initial, Publisher.initial, Publisher.nextPayload]
    split_ifs <;> exact Bool.noConfusion
  payloads := rfl
  bytes := rfl
  stats := fun _ hmem => absurd hmem List.not_mem_nil

/-! ## What the listener relies on -/

theorem Publisher.Attends.imp {parameters : Parameters} {publisher next : Publisher}
    {handling : Handling} (hattends : publisher.Attends parameters handling)
    (hreads : publisher.Reads handling.echo → next.Reads handling.echo)
    (hexpects : handling.stage = .expected ∨ handling.stage = .recorded →
      handling.echo.seqnum = publisher.seqnumOut → handling.echo.seqnum = next.seqnumOut) :
    next.Attends parameters handling := by
  obtain ⟨echo, stage⟩ := handling
  cases stage with
  | taken => exact hattends.imp_right hreads
  | locked => exact hreads hattends
  | expected => exact hexpects (Or.inl rfl) hattends
  | recorded => exact hexpects (Or.inr rfl) hattends
  | compared => trivial

theorem Publisher.stage_ne_of_not_expecting {publisher : Publisher} {handling : Handling}
    (hhandling : publisher.handling = some handling) (hfree : publisher.expecting = false) :
    ¬(handling.stage = .expected ∨ handling.stage = .recorded) := by
  obtain ⟨echo, stage⟩ := handling
  unfold Publisher.expecting at hfree
  rw [hhandling] at hfree
  rintro (hstage | hstage) <;> cases hstage <;> cases hfree

/-! ## The steps of the test -/

/-- A step of the publisher that leaves the samples, the echo at hand and the
statistics alone. -/
theorem Measuring.withPublisher {parameters : Parameters} {state : State n}
    (hmeasuring : Measuring parameters state) {next : Publisher}
    (hhandling : next.handling = state.publisher.handling)
    (hattends : ∀ handling, state.publisher.Attends parameters handling →
      next.Attends parameters handling)
    (hseqnumOut : next.seqnumOut = state.publisher.seqnumOut)
    (hidle : next.phase ≠ .preparing)
    (hprogress : Progress parameters next state.sent)
    (hstarted : next.startTime = state.publisher.startTime ∨
      ∀ sample ∈ state.sent, sample.1.seqnum ≠ state.publisher.seqnumOut)
    (hrecorded : next.phase.timing = true → Recorded next state.sent)
    (hpayloads : next.payloads = state.publisher.payloads)
    (hstats : next.stats = state.publisher.stats) :
    Measuring parameters (state.withPublisher next) where
  sorted := hmeasuring.sorted
  numbers := hmeasuring.numbers
  echoes := hmeasuring.echoes
  handling := by
    intro handling hsome
    rw [State.withPublisher, hhandling] at hsome
    obtain ⟨hknown, hattended⟩ := hmeasuring.handling handling hsome
    exact ⟨hknown, hattends handling hattended⟩
  idle := fun hphase => absurd hphase hidle
  progress := hprogress
  started := by
    simp only [State.withPublisher, hseqnumOut]
    intro sample hmem hnumber
    rcases hstarted with hsame | hnone
    · rw [hsame]
      exact hmeasuring.started sample hmem hnumber
    · exact absurd hnumber (hnone sample hmem)
  recorded := hrecorded
  payloads := by
    simp only [State.withPublisher, hpayloads, hstats]
    exact hmeasuring.payloads
  bytes := by
    simp only [State.withPublisher, hstats]
    exact hmeasuring.bytes
  stats := by
    simp only [State.withPublisher, hstats]
    exact hmeasuring.stats

theorem Recorded.of_eq {publisher next : Publisher} {sent : List (LatencyType × ℤ)}
    (hrecorded : Recorded publisher sent) (htimes : next.times = publisher.times)
    (hseqnumOut : next.seqnumOut = publisher.seqnumOut)
    (hhandling : next.handling = publisher.handling)
    (hreceived : next.receivedCount = publisher.receivedCount) : Recorded next sent where
  starts := by
    rw [htimes]
    exact hrecorded.starts
  ordered := by
    rw [htimes]
    exact hrecorded.ordered
  before := by
    rw [htimes, hseqnumOut, hhandling]
    exact hrecorded.before
  received := by
    rw [htimes, hreceived]
    exact hrecorded.received

/-- `Measuring.withPublisher` for a step that also keeps the measurements. -/
theorem Measuring.move {parameters : Parameters} {state : State n}
    (hmeasuring : Measuring parameters state) {next : Publisher}
    (hphase : next.phase ≠ .preparing)
    (htiming : next.phase.timing = true → state.publisher.phase.timing = true)
    (hprogress : Progress parameters next state.sent)
    (hnext : next = { state.publisher with
      phase := next.phase
      commandMsgCount := next.commandMsgCount
      dataMsgCount := next.dataMsgCount
      count := next.count
      loaned := next.loaned
      data := next.data
      dangling := next.dangling }) : Measuring parameters (state.withPublisher next) := by
  have hfields : next.handling = state.publisher.handling ∧
      next.seqnumIn = state.publisher.seqnumIn ∧ next.seqnumOut = state.publisher.seqnumOut ∧
      next.startTime = state.publisher.startTime ∧ next.payloads = state.publisher.payloads ∧
      next.stats = state.publisher.stats ∧ next.times = state.publisher.times ∧
      next.receivedCount = state.publisher.receivedCount := by
    rw [hnext]
    exact ⟨rfl, rfl, rfl, rfl, rfl, rfl, rfl, rfl⟩
  obtain ⟨hhandling, hseqnumIn, hseqnumOut, hstart, hpayloads, hstats, htimes, hreceived⟩ :=
    hfields
  have hattends : ∀ handling, state.publisher.Attends parameters handling →
      next.Attends parameters handling := by
    refine fun handling hattended => hattended.imp (fun hreads => ?_) fun _ hsame => ?_
    · unfold Publisher.Reads
      rw [hseqnumIn, hseqnumOut]
      exact hreads
    · rw [hseqnumOut]
      exact hsame
  exact hmeasuring.withPublisher hhandling hattends hseqnumOut hphase hprogress (Or.inl hstart)
    (fun htimed =>
      (hmeasuring.recorded (htiming htimed)).of_eq htimes hseqnumOut hhandling hreceived)
    hpayloads hstats

theorem Measuring.prepare {parameters : Parameters} {state next : State n} {prepared : Bool}
    (hmeasuring : Measuring parameters state)
    (hprepare : prepareStep parameters state prepared = some next) :
    Measuring parameters next := by
  obtain ⟨publisher, hpublisher, rfl⟩ := Option.map_eq_some_iff.mp hprepare
  obtain ⟨hphase, size, rest, -, hnext⟩ := Publisher.prepare_cases hpublisher
  obtain ⟨hhandling, -⟩ := hmeasuring.idle hphase
  have hnone : ∀ sample ∈ ([] : List (LatencyType × ℤ)), False :=
    fun _ hmem => List.not_mem_nil hmem
  rcases hnext with ⟨-, rfl⟩ | rfl
  all_goals
    constructor
    case sorted => exact List.Pairwise.nil
    case numbers => exact fun sample hmem => (hnone sample hmem).elim
    case echoes => exact fun _ _ hmem => absurd hmem List.not_mem_nil
    case handling =>
      intro echo hsome
      rw [State.withPublisher, hhandling] at hsome
      cases hsome
    case idle => exact Publisher.Phase.noConfusion
    case started => exact fun sample hmem => (hnone sample hmem).elim
    case recorded => exact Bool.noConfusion
    case payloads => exact hmeasuring.payloads
    case bytes => exact hmeasuring.bytes
    case stats => exact hmeasuring.stats
  · exact ⟨rfl, rfl⟩
  · trivial

theorem Measuring.publish {parameters : Parameters} {state : State n} {next : Publisher}
    (hmeasuring : Measuring parameters (state.withPublisher next))
    (commands : List TestCommand) : Measuring parameters (state.publish (next, commands)) :=
  ⟨hmeasuring.sorted, hmeasuring.numbers, hmeasuring.echoes, hmeasuring.handling,
    hmeasuring.idle, hmeasuring.progress, hmeasuring.started, hmeasuring.recorded,
    hmeasuring.payloads, hmeasuring.bytes, hmeasuring.stats⟩

theorem Measuring.ready {parameters : Parameters} {state : State n} {next : Publisher}
    {commands : List TestCommand} {written : Bool} (hmeasuring : Measuring parameters state)
    (hready : state.publisher.ready written = some (next, commands)) :
    Measuring parameters (state.publish (next, commands)) := by
  have hprogress := hmeasuring.progress
  unfold Progress at hprogress
  obtain ⟨hphase, hdone⟩ := Publisher.ready_eq_some_iff.mp hready
  split_ifs at hdone
  · rw [hphase] at hprogress
    cases hdone
    apply Measuring.publish
    refine hmeasuring.withPublisher rfl (fun _ hattended => hattended) rfl
      Publisher.Phase.noConfusion hprogress.1 (Or.inl rfl) (fun _ => ?_) rfl rfl
    refine ⟨fun _ hmem => absurd hmem List.not_mem_nil, List.Pairwise.nil,
      fun _ _ _ hmem => absurd hmem List.not_mem_nil, ?_⟩
    exact hprogress.2
  · cases hdone
    apply Measuring.publish
    exact hmeasuring.withPublisher rfl (fun _ hattended => hattended) rfl
      Publisher.Phase.noConfusion trivial (Or.inl rfl) Bool.noConfusion rfl rfl

theorem Measuring.commandsCome {parameters : Parameters} {state : State n} {next : Publisher}
    (hmeasuring : Measuring parameters state)
    (hcome : state.publisher.commandsCome n = some next) :
    Measuring parameters (state.withPublisher next) := by
  have hprogress := hmeasuring.progress
  unfold Progress at hprogress
  obtain ⟨-, hnext⟩ := Publisher.commandsCome_cases hcome
  rcases hnext with ⟨hphase, rfl⟩ | ⟨hphase, rfl⟩
  · rw [hphase] at hprogress
    refine hmeasuring.move Publisher.Phase.noConfusion (fun _ => by rw [hphase]; rfl) ?_ rfl
    refine ⟨Nat.succ_le_of_lt (Nat.succ_pos _), Nat.one_pos, ?_⟩
    rw [show state.sent = [] from hprogress]
    exact fun _ hmem => absurd hmem List.not_mem_nil
  · exact hmeasuring.move Publisher.Phase.noConfusion (fun _ => by rw [hphase]; rfl) trivial rfl

/-- The number of a new sample is that of no sample before it. -/
theorem Measuring.nextSample {parameters : Parameters} {state : State n} {next : Publisher}
    {commands : List TestCommand} {written : Bool} (hmeasuring : Measuring parameters state)
    (hsamples : parameters.samples.toNat + 2 < 2 ^ 32)
    (hundisturbed : Undisturbed parameters state (.nextSample written))
    (hnext : state.publisher.nextSample parameters written = some (next, commands)) :
    Measuring parameters (state.publish (next, commands)) := by
  have hprogress := hmeasuring.progress
  unfold Progress at hprogress
  obtain ⟨hphase, hdone⟩ := Publisher.nextSample_eq_some_iff.mp hnext
  have hrecorded := hmeasuring.recorded (by rw [hphase]; rfl)
  rw [hphase] at hprogress
  obtain ⟨-, hpositive, hbelow⟩ := hprogress
  by_cases hcount : state.publisher.count ≤ parameters.samples + 1
  · rw [if_pos hcount] at hdone
    cases hdone
    have hle : state.publisher.count.toNat ≤ parameters.samples.toNat + 1 := by
      have hsum : (parameters.samples + 1).toNat = parameters.samples.toNat + 1 := by
        rw [UInt32.toNat_add, UInt32.toNat_one, Nat.mod_eq_of_lt (by omega)]
      rw [← hsum]
      exact UInt32.le_iff_toNat_le.mp hcount
    have hne : state.publisher.count ≠ 0 := by
      intro hzero
      rw [hzero] at hpositive
      exact Nat.lt_irrefl 0 hpositive
    apply Measuring.publish
    constructor
    case sorted => exact hmeasuring.sorted
    case numbers => exact hmeasuring.numbers
    case echoes => exact hmeasuring.echoes
    case handling =>
      intro handling hsome
      obtain ⟨hknown, hattended⟩ := hmeasuring.handling handling hsome
      refine ⟨hknown, hattended.imp (fun hreads => ?_) fun hexpected => ?_⟩
      · exact hreads.imp_right fun hthere => hthere.imp_right fun hzero => ⟨hzero.1, hne⟩
      · exact absurd hexpected (Publisher.stage_ne_of_not_expecting hsome
          (hundisturbed written rfl hcount))
    case idle =>
      intro hpreparing
      dsimp only [State.withPublisher] at hpreparing
      split_ifs at hpreparing
    case progress =>
      have hnumbered : Numbered parameters
          { state.publisher with
            seqnumOut := state.publisher.count
            phase := if parameters.dataLoans then .numbered else .filled } state.sent :=
        ⟨hle, hpositive, rfl, hbelow⟩
      cases hloans : parameters.dataLoans with
      | true =>
          rw [hloans] at hnumbered
          exact hnumbered
      | false =>
          rw [hloans] at hnumbered
          refine ⟨hnumbered, ?_⟩
          simp only [Publisher.number, State.withPublisher, hloans, Bool.false_eq_true, if_false]
    case started =>
      intro sample hmem hnumber
      have hless := hbelow sample hmem
      rw [hnumber] at hless
      exact absurd hless (UInt32.lt_irrefl _)
    case recorded =>
      refine fun _ => ⟨hrecorded.starts, hrecorded.ordered, fun _ _ time hmem => ?_,
        hrecorded.received⟩
      obtain ⟨sample, hsample, hnumber, -⟩ := hrecorded.starts time hmem
      rw [← hnumber]
      exact hbelow sample hsample
    case payloads => exact hmeasuring.payloads
    case bytes => exact hmeasuring.bytes
    case stats => exact hmeasuring.stats
  · rw [if_neg hcount] at hdone
    cases hdone
    apply Measuring.publish
    exact hmeasuring.move Publisher.Phase.noConfusion (fun _ => by rw [hphase]; rfl) trivial
      rfl

theorem toNat_count_succ {count samples : UInt32} (hcount : count.toNat ≤ samples.toNat + 1)
    (hsamples : samples.toNat + 2 < 2 ^ 32) : (count + 1).toNat = count.toNat + 1 := by
  rw [UInt32.toNat_add, UInt32.toNat_one, Nat.mod_eq_of_lt (by omega)]

theorem Numbered.move {parameters : Parameters} {publisher next : Publisher}
    {sent : List (LatencyType × ℤ)} (hnumbered : Numbered parameters publisher sent)
    (hcount : next.count = publisher.count) (hseqnumOut : next.seqnumOut = publisher.seqnumOut) :
    Numbered parameters next sent := by
  obtain ⟨hle, hpositive, hout, hbefore⟩ := hnumbered
  exact ⟨by rw [hcount]; exact hle, by rw [hcount]; exact hpositive,
    by rw [hcount, hseqnumOut]; exact hout, by rw [hcount]; exact hbefore⟩

/-- A step between the number of a sample and its start. -/
theorem Measuring.fill {parameters : Parameters} {state : State n} {next : Publisher}
    (hmeasuring : Measuring parameters state) (hphase : next.phase ≠ .preparing)
    (htiming : state.publisher.phase.timing = true)
    (hprogress : Progress parameters next state.sent)
    (hseqnumIn : ∀ seqnum, next.seqnumIn = some seqnum →
      state.publisher.seqnumIn = some seqnum ∨ seqnum = 0 ∧ next.seqnumOut ≠ 0)
    (hnext : next = { state.publisher with
      phase := next.phase
      seqnumIn := next.seqnumIn
      loaned := next.loaned
      dangling := next.dangling }) : Measuring parameters (state.withPublisher next) := by
  have hseqnumOut : next.seqnumOut = state.publisher.seqnumOut := by rw [hnext]
  refine hmeasuring.withPublisher (by rw [hnext]) ?_ hseqnumOut hphase hprogress
    (Or.inl (by rw [hnext])) (fun _ => ?_) (by rw [hnext]) (by rw [hnext])
  · refine fun handling hattended => hattended.imp (fun hreads => ?_) fun _ hsame => ?_
    · cases hin : next.seqnumIn with
      | none => exact Or.inl hin
      | some seqnum =>
          rcases hseqnumIn seqnum hin with hold | ⟨rfl, hne⟩
          · unfold Publisher.Reads
            rw [hin, ← hold, hseqnumOut]
            exact hreads
          · exact Or.inr (Or.inr ⟨hin, hne⟩)
    · rw [hseqnumOut]
      exact hsame
  · exact (hmeasuring.recorded htiming).of_eq (by rw [hnext]) hseqnumOut (by rw [hnext])
      (by rw [hnext])

theorem Measuring.release {parameters : Parameters} {state : State n} {next : Publisher}
    (hmeasuring : Measuring parameters state) (hrelease : state.publisher.release = some next) :
    Measuring parameters (state.withPublisher next) := by
  have hprogress := hmeasuring.progress
  unfold Progress at hprogress
  obtain ⟨hphase, rfl⟩ := Publisher.release_eq_some_iff.mp hrelease
  rw [hphase] at hprogress
  exact hmeasuring.fill Publisher.Phase.noConfusion (by rw [hphase]; rfl)
    (hprogress.move rfl rfl) (fun _ hnone => by cases hnone) rfl

theorem Measuring.check {parameters : Parameters} {state : State n} {next : Publisher}
    (hmeasuring : Measuring parameters state) (hcheck : state.publisher.check = some next) :
    Measuring parameters (state.withPublisher next) := by
  have hprogress := hmeasuring.progress
  unfold Progress at hprogress
  obtain ⟨hphase, rfl⟩ := Publisher.check_eq_some_iff.mp hcheck
  rw [hphase] at hprogress
  refine hmeasuring.fill ?_ (by rw [hphase]; rfl) ?_ (fun _ => Or.inl) rfl
  · dsimp only
    split_ifs <;> exact Publisher.Phase.noConfusion
  · unfold Progress
    dsimp only
    split_ifs <;> exact ⟨hprogress.1.move rfl rfl, hprogress.2⟩

theorem Numbered.seqnumOut_ne {parameters : Parameters} {publisher : Publisher}
    {sent : List (LatencyType × ℤ)} (hnumbered : Numbered parameters publisher sent) :
    publisher.seqnumOut ≠ 0 := by
  intro hzero
  have hpositive := hnumbered.count_pos
  rw [← hnumbered.seqnumOut, hzero] at hpositive
  exact Nat.lt_irrefl 0 hpositive

theorem Measuring.reset {parameters : Parameters} {state : State n} {next : Publisher}
    (hmeasuring : Measuring parameters state) (hreset : state.publisher.reset = some next) :
    Measuring parameters (state.withPublisher next) := by
  have hprogress := hmeasuring.progress
  unfold Progress at hprogress
  obtain ⟨hphase, rfl⟩ := Publisher.reset_eq_some_iff.mp hreset
  rw [hphase] at hprogress
  refine hmeasuring.fill Publisher.Phase.noConfusion (by rw [hphase]; rfl)
    ⟨hprogress.1.move rfl rfl, hprogress.2⟩ (fun seqnum hsome => ?_) rfl
  obtain ⟨-, -, rfl⟩ := Option.map_eq_some_iff.mp hsome
  exact Or.inr ⟨rfl, hprogress.1.seqnumOut_ne⟩

/-- The next turn of the loop over the samples. -/
theorem Measuring.nextCount {parameters : Parameters} {state : State n}
    (hmeasuring : Measuring parameters state)
    (hsamples : parameters.samples.toNat + 2 < 2 ^ 32)
    (hcount : state.publisher.count.toNat ≤ parameters.samples.toNat + 1)
    (hupTo : ∀ sample ∈ state.sent, sample.1.seqnum ≤ state.publisher.count)
    (htiming : state.publisher.phase.timing = true) {dataMsgCount : ℕ} :
    Measuring parameters
      (state.withPublisher
        { state.publisher with
          dataMsgCount := dataMsgCount
          count := state.publisher.count + 1
          phase := .sampling }) := by
  have hsucc := toNat_count_succ hcount hsamples
  refine hmeasuring.move Publisher.Phase.noConfusion (fun _ => htiming) ?_ rfl
  refine ⟨?_, ?_, fun sample hmem => ?_⟩
  · rw [hsucc]
    omega
  · rw [hsucc]
    omega
  · rw [UInt32.lt_iff_toNat_lt, hsucc]
    exact Nat.lt_succ_of_le (UInt32.le_iff_toNat_le.mp (hupTo sample hmem))

theorem Measuring.loan {parameters : Parameters} {state : State n} {next : Publisher}
    {loaned : Bool} (hmeasuring : Measuring parameters state)
    (hsamples : parameters.samples.toNat + 2 < 2 ^ 32)
    (hloan : state.publisher.loan loaned = some next) :
    Measuring parameters (state.withPublisher next) := by
  have hprogress := hmeasuring.progress
  unfold Progress at hprogress
  obtain ⟨hphase, rfl⟩ := Publisher.loan_eq_some_iff.mp hloan
  rw [hphase] at hprogress
  split_ifs
  · refine hmeasuring.move Publisher.Phase.noConfusion (fun _ => by rw [hphase]; rfl)
      ⟨hprogress.move rfl rfl, ?_⟩ rfl
    simp only [Publisher.number, hprogress.seqnumOut, ite_self]
  · exact hmeasuring.nextCount hsamples hprogress.count_le
      (fun sample hmem => UInt32.le_of_lt (hprogress.before sample hmem)) (by rw [hphase]; rfl)

theorem Measuring.start {parameters : Parameters} {state : State n} {next : Publisher}
    {now : ℤ} (hmeasuring : Measuring parameters state)
    (hstart : state.publisher.start now = some next) :
    Measuring parameters (state.withPublisher next) := by
  have hprogress := hmeasuring.progress
  unfold Progress at hprogress
  obtain ⟨hphase, rfl⟩ := Publisher.start_eq_some_iff.mp hstart
  rw [hphase] at hprogress
  refine hmeasuring.withPublisher rfl (fun _ hattended => hattended) rfl
    Publisher.Phase.noConfusion ⟨hprogress.1.move rfl rfl, hprogress.2⟩
    (Or.inr fun sample hmem hsame => ?_)
    (fun _ => (hmeasuring.recorded (by rw [hphase]; rfl)).of_eq rfl rfl rfl rfl) rfl rfl
  have hless := hprogress.1.before sample hmem
  rw [hsame, hprogress.1.seqnumOut] at hless
  exact UInt32.lt_irrefl _ hless

theorem Measuring.write {parameters : Parameters} {state next : State n} {written : Bool}
    (hmeasuring : Measuring parameters state)
    (hwrite : writeStep parameters state written = some next) : Measuring parameters next := by
  have hprogress := hmeasuring.progress
  unfold Progress at hprogress
  obtain ⟨⟨publisher, samples⟩, hpublisher, rfl⟩ := Option.map_eq_some_iff.mp hwrite
  obtain ⟨hphase, hdone⟩ := Publisher.write_eq_some_iff.mp hpublisher
  split_ifs at hdone
  · rw [hphase] at hprogress
    obtain ⟨⟨hcount, hpositive, hout, hbelow⟩, hnumber⟩ := hprogress
    have hrecorded := hmeasuring.recorded (by rw [hphase]; rfl)
    cases hdone
    have hsent : ∀ {sample : LatencyType × ℤ},
        sample ∈ state.sent ++ [((⟨state.publisher.number parameters, 0⟩ : LatencyType),
          state.publisher.startTime)] → sample ∈ state.sent ∨
          sample = (⟨state.publisher.number parameters, 0⟩, state.publisher.startTime) := by
      intro sample hmem
      rcases List.mem_append.mp hmem with hold | hnew
      · exact Or.inl hold
      · exact Or.inr (List.mem_singleton.mp hnew)
    constructor
    case sorted =>
      refine List.pairwise_append.mpr ⟨hmeasuring.sorted, List.pairwise_singleton _ _, ?_⟩
      intro sample hmem last hlast
      rw [List.mem_singleton.mp hlast]
      change sample.1.seqnum < state.publisher.number parameters
      rw [hnumber]
      exact hbelow sample hmem
    case numbers =>
      intro sample hmem
      rcases hsent hmem with hold | rfl
      · exact hmeasuring.numbers sample hold
      · exact ⟨by rw [hnumber]; exact hpositive, by rw [hnumber]; exact hcount⟩
    case echoes =>
      intro index echo hmem
      obtain ⟨sample, hsample, hsame⟩ := hmeasuring.echoes index echo hmem
      exact ⟨sample, List.mem_append_left _ hsample, hsame⟩
    case handling =>
      intro handling hsome
      obtain ⟨⟨sample, hsample, hsame⟩, hattended⟩ := hmeasuring.handling handling hsome
      exact ⟨⟨sample, List.mem_append_left _ hsample, hsame⟩, hattended⟩
    case idle => exact Publisher.Phase.noConfusion
    case progress =>
      refine ⟨hcount, fun sample hmem => ?_⟩
      rcases hsent hmem with hold | rfl
      · exact UInt32.le_of_lt (hbelow sample hold)
      · exact UInt32.le_of_eq hnumber
    case started =>
      intro sample hmem hsame
      rcases hsent hmem with hold | rfl
      · exact hmeasuring.started sample hold hsame
      · rfl
    case recorded =>
      refine fun _ => ⟨fun time hmem => ?_, hrecorded.ordered, hrecorded.before,
        hrecorded.received⟩
      obtain ⟨sample, hsample, hsame⟩ := hrecorded.starts time hmem
      exact ⟨sample, List.mem_append_left _ hsample, hsame⟩
    case payloads => exact hmeasuring.payloads
    case bytes => exact hmeasuring.bytes
    case stats => exact hmeasuring.stats
  · cases hdone
    simp only [List.map_nil, List.append_nil]
    exact hmeasuring.move Publisher.Phase.noConfusion Bool.noConfusion trivial rfl

/-! ## The steps of the listeners -/

theorem Progress.of_eq {parameters : Parameters} {publisher next : Publisher}
    {sent : List (LatencyType × ℤ)} (hprogress : Progress parameters publisher sent)
    (hphase : next.phase = publisher.phase) (hcount : next.count = publisher.count)
    (hseqnumOut : next.seqnumOut = publisher.seqnumOut) (hloaned : next.loaned = publisher.loaned)
    (hreceived : next.receivedCount = publisher.receivedCount) :
    Progress parameters next sent := by
  have hnumber : next.number parameters = publisher.number parameters := by
    rw [Publisher.number, hloaned, hseqnumOut]
    rfl
  unfold Progress at hprogress ⊢
  rw [hphase, hcount, hreceived, hnumber]
  cases hcase : publisher.phase <;> rw [hcase] at hprogress
  case numbered | loaning => exact hprogress.move hcount hseqnumOut
  case filled | resetting | untimed | timed =>
    exact ⟨hprogress.1.move hcount hseqnumOut, hprogress.2⟩
  all_goals exact hprogress

/-- A step of the listener that leaves the measurements alone, and the number
that is expected. -/
theorem Measuring.listen {parameters : Parameters} {state : State n} {handling : Handling}
    (hmeasuring : Measuring parameters state)
    (hsome : state.publisher.handling = some handling) (hstage : handling.stage ≠ .recorded)
    {next : Publisher}
    (hhandling : ∀ later, next.handling = some later →
      later.echo = handling.echo ∧ next.Attends parameters later)
    (hnext : next = { state.publisher with
      handling := next.handling
      seqnumIn := next.seqnumIn
      dataMsgCount := next.dataMsgCount
      dangling := next.dangling }) : Measuring parameters (state.withPublisher next) := by
  have hfields : next.phase = state.publisher.phase ∧ next.count = state.publisher.count ∧
      next.seqnumOut = state.publisher.seqnumOut ∧ next.loaned = state.publisher.loaned ∧
      next.startTime = state.publisher.startTime ∧ next.times = state.publisher.times ∧
      next.receivedCount = state.publisher.receivedCount ∧
      next.payloads = state.publisher.payloads ∧ next.stats = state.publisher.stats := by
    rw [hnext]
    exact ⟨rfl, rfl, rfl, rfl, rfl, rfl, rfl, rfl, rfl⟩
  obtain ⟨hphase, hcount, hseqnumOut, hloaned, hstart, htimes, hreceived, hpayloads, hstats⟩ :=
    hfields
  constructor
  case sorted => exact hmeasuring.sorted
  case numbers => exact hmeasuring.numbers
  case echoes => exact hmeasuring.echoes
  case handling =>
    intro later hlater
    obtain ⟨hecho, hattends⟩ := hhandling later hlater
    rw [hecho]
    exact ⟨(hmeasuring.handling handling hsome).1, hattends⟩
  case idle =>
    intro hpreparing
    rw [State.withPublisher, hphase] at hpreparing
    rw [(hmeasuring.idle hpreparing).1] at hsome
    cases hsome
  case progress =>
    exact hmeasuring.progress.of_eq hphase hcount hseqnumOut hloaned hreceived
  case started =>
    simp only [State.withPublisher, hseqnumOut, hstart]
    exact hmeasuring.started
  case recorded =>
    intro htiming
    rw [State.withPublisher, hphase] at htiming
    obtain ⟨hstarts, hordered, hbefore, hlength⟩ := hmeasuring.recorded htiming
    constructor
    case starts =>
      rw [State.withPublisher, htimes]
      exact hstarts
    case ordered =>
      rw [State.withPublisher, htimes]
      exact hordered
    case before =>
      rw [State.withPublisher, htimes, hseqnumOut]
      refine fun hne _ => hbefore hne fun echo hrecorded => ?_
      rw [hsome] at hrecorded
      cases hrecorded
      exact hstage rfl
    case received =>
      rw [State.withPublisher, htimes, hreceived]
      exact hlength
  case payloads =>
    rw [State.withPublisher, hpayloads, hstats]
    exact hmeasuring.payloads
  case bytes =>
    rw [State.withPublisher, hstats]
    exact hmeasuring.bytes
  case stats =>
    rw [State.withPublisher, hstats]
    exact hmeasuring.stats

theorem Measuring.lock {parameters : Parameters} {state : State n} {next : Publisher}
    (hmeasuring : Measuring parameters state)
    (hlock : state.publisher.lock parameters = some next) :
    Measuring parameters (state.withPublisher next) := by
  obtain ⟨echo, hsome, rfl⟩ := Publisher.lock_cases hlock
  have hattends := (hmeasuring.handling _ hsome).2
  refine hmeasuring.listen hsome Handling.Stage.noConfusion (fun later hlater => ?_) rfl
  cases hlater
  refine ⟨rfl, ?_⟩
  cases hloans : parameters.dataLoans with
  | true => exact Or.inr (Or.inl rfl)
  | false => exact hattends.resolve_left (by rw [hloans]; exact Bool.false_ne_true)

/-- An echo is expected only if it is of the sample that the test waits for. -/
theorem Measuring.compare {parameters : Parameters} {state : State n} {next : Publisher}
    (hmeasuring : Measuring parameters state)
    (hcompare : state.publisher.compare = some next) :
    Measuring parameters (state.withPublisher next) := by
  obtain ⟨echo, hsome, rfl⟩ := Publisher.compare_cases hcompare
  have hreads : state.publisher.Reads echo := (hmeasuring.handling _ hsome).2
  refine hmeasuring.listen hsome Handling.Stage.noConfusion (fun later hlater => ?_) rfl
  cases hlater
  refine ⟨rfl, ?_⟩
  by_cases hsame : state.publisher.seqnumIn = some state.publisher.seqnumOut
  · rw [if_pos hsame]
    rcases hreads with hnull | hecho | ⟨hzero, hne⟩
    · rw [hnull] at hsame
      cases hsame
    · exact Option.some.inj (hecho.symm.trans hsame)
    · exact absurd (Option.some.inj (hsame.symm.trans hzero)) hne
  · rw [if_neg hsame]
    trivial

theorem Measuring.unlock {parameters : Parameters} {state : State n} {next : Publisher}
    (hmeasuring : Measuring parameters state)
    (hunlock : state.publisher.unlock parameters = some next) :
    Measuring parameters (state.withPublisher next) := by
  obtain ⟨echo, hsome, rfl⟩ := Publisher.unlock_cases hunlock
  exact hmeasuring.listen hsome Handling.Stage.noConfusion (fun _ hnone => by cases hnone) rfl

/-- The echo that is expected is of a sample that was sent. -/
theorem Measuring.expected {parameters : Parameters} {state : State n} {echo : LatencyType}
    (hmeasuring : Measuring parameters state)
    (hsome : state.publisher.handling = some ⟨echo, .expected⟩) :
    ∃ sample ∈ state.sent, sample.1.seqnum = echo.seqnum ∧
      sample.2 = state.publisher.startTime ∧ echo.seqnum = state.publisher.seqnumOut ∧
        state.publisher.seqnumOut ≠ 0 := by
  obtain ⟨⟨sample, hsample, hnumber⟩, hsame⟩ := hmeasuring.handling _ hsome
  refine ⟨sample, hsample, hnumber, hmeasuring.started sample hsample (hnumber.trans hsame), hsame,
    fun hzero => ?_⟩
  have hpositive := (hmeasuring.numbers sample hsample).1
  rw [hnumber, show echo.seqnum = state.publisher.seqnumOut from hsame, hzero] at hpositive
  exact Nat.lt_irrefl 0 hpositive

/-- The times and their number change while the number that is expected stays. -/
theorem Measuring.withTimes {parameters : Parameters} {state : State n} {echo : LatencyType}
    (hmeasuring : Measuring parameters state)
    (hsome : state.publisher.handling = some ⟨echo, .expected⟩) {times : List Measurement}
    {receivedCount : UInt32}
    (hstarts : state.publisher.phase.timing = true → ∀ time ∈ times, ∃ sample ∈ state.sent,
      sample.1.seqnum = time.echo.seqnum ∧ sample.2 = time.startTime)
    (hordered : state.publisher.phase.timing = true →
      times.Pairwise fun first later => first.echo.seqnum < later.echo.seqnum)
    (hreceived : state.publisher.phase.timing = true →
      receivedCount = UInt32.ofNat times.length) :
    Measuring parameters
      (state.withPublisher
        { state.publisher with
          handling := some ⟨echo, .recorded⟩
          times := times
          receivedCount := receivedCount }) := by
  obtain ⟨hknown, hsame⟩ := hmeasuring.handling _ hsome
  constructor
  case sorted => exact hmeasuring.sorted
  case numbers => exact hmeasuring.numbers
  case echoes => exact hmeasuring.echoes
  case handling =>
    intro later hlater
    cases hlater
    exact ⟨hknown, hsame⟩
  case idle =>
    intro hpreparing
    rw [(hmeasuring.idle hpreparing).1] at hsome
    cases hsome
  case progress =>
    obtain ⟨sample, hsample, -⟩ := hknown
    have hprogress := hmeasuring.progress
    unfold Progress at hprogress ⊢
    dsimp only [State.withPublisher]
    cases hcase : state.publisher.phase <;> rw [hcase] at hprogress
    case readying =>
      rw [hprogress.1] at hsample
      exact absurd hsample List.not_mem_nil
    case numbered | loaning => exact hprogress.move rfl rfl
    case filled | resetting | untimed | timed => exact ⟨hprogress.1.move rfl rfl, hprogress.2⟩
    all_goals exact hprogress
  case started => exact hmeasuring.started
  case recorded =>
    exact fun htiming => ⟨hstarts htiming, hordered htiming,
      fun _ hnever => absurd rfl (hnever echo), hreceived htiming⟩
  case payloads => exact hmeasuring.payloads
  case bytes => exact hmeasuring.bytes
  case stats => exact hmeasuring.stats

theorem Measuring.measure {parameters : Parameters} {state : State n} {next : Publisher}
    {now : ℤ} {positive long : Bool} (hmeasuring : Measuring parameters state)
    (hmeasure : state.publisher.measure parameters now positive long = some next) :
    Measuring parameters (state.withPublisher next) := by
  obtain ⟨echo, hsome, hnext⟩ := Publisher.measure_cases hmeasure
  obtain ⟨sample, hsample, hnumber, hstart, hsame, hne⟩ := hmeasuring.expected hsome
  rcases hnext with ⟨-, rfl⟩ | ⟨-, rfl⟩
  · refine hmeasuring.withTimes hsome (fun htiming time hmem => ?_) (fun htiming => ?_)
      fun htiming => ?_
    · rcases List.mem_append.mp hmem with hold | hnew
      · exact (hmeasuring.recorded htiming).starts time hold
      · rw [List.mem_singleton.mp hnew]
        exact ⟨sample, hsample, hnumber, hstart⟩
    · have hrecorded := hmeasuring.recorded htiming
      refine List.pairwise_append.mpr
        ⟨hrecorded.ordered, List.pairwise_singleton _ _, fun time hmem last hlast => ?_⟩
      rw [List.mem_singleton.mp hlast]
      change time.echo.seqnum < echo.seqnum
      rw [hsame]
      refine hrecorded.before hne (fun other hother => ?_) time hmem
      rw [hsome] at hother
      cases hother
    · rw [List.length_append, List.length_singleton, UInt32.ofNat_add,
        ← (hmeasuring.recorded htiming).received]
      rfl
  · exact hmeasuring.withTimes hsome (fun htiming => (hmeasuring.recorded htiming).starts)
      (fun htiming => (hmeasuring.recorded htiming).ordered)
      fun htiming => (hmeasuring.recorded htiming).received

/-- The number is cleared when its echo has come. -/
theorem Measuring.clear {parameters : Parameters} {state : State n} {next : Publisher}
    (hmeasuring : Measuring parameters state) (hclear : state.publisher.clear = some next) :
    Measuring parameters (state.withPublisher next) := by
  obtain ⟨echo, hsome, rfl⟩ := Publisher.clear_cases hclear
  obtain ⟨⟨sample, hsample, hnumber⟩, hsame⟩ := hmeasuring.handling _ hsome
  constructor
  case sorted => exact hmeasuring.sorted
  case numbers => exact hmeasuring.numbers
  case echoes => exact hmeasuring.echoes
  case handling =>
    intro later hlater
    cases hlater
    exact ⟨⟨sample, hsample, hnumber⟩, trivial⟩
  case idle =>
    intro hpreparing
    rw [(hmeasuring.idle hpreparing).1] at hsome
    cases hsome
  case progress =>
    have hprogress := hmeasuring.progress
    -- The sample of the next number is not sent yet.
    have hnone : ¬Numbered parameters state.publisher state.sent := by
      intro hnumbered
      have hless := hnumbered.before sample hsample
      rw [hnumber, show echo.seqnum = state.publisher.seqnumOut from hsame,
        hnumbered.seqnumOut] at hless
      exact UInt32.lt_irrefl _ hless
    unfold Progress at hprogress ⊢
    dsimp only [State.withPublisher]
    cases hcase : state.publisher.phase <;> rw [hcase] at hprogress
    case numbered | loaning => exact absurd hprogress hnone
    case filled | resetting | untimed | timed => exact absurd hprogress.1 hnone
    all_goals exact hprogress
  case started =>
    intro other hmem hzero
    have hpositive := (hmeasuring.numbers other hmem).1
    rw [hzero] at hpositive
    exact absurd hpositive (Nat.lt_irrefl 0)
  case recorded =>
    intro htiming
    have hrecorded := hmeasuring.recorded htiming
    exact ⟨hrecorded.starts, hrecorded.ordered, fun hne => absurd rfl hne, hrecorded.received⟩
  case payloads => exact hmeasuring.payloads
  case bytes => exact hmeasuring.bytes
  case stats => exact hmeasuring.stats

theorem Measuring.receive {parameters : Parameters} {state next : State n} {index : Fin n}
    (hmeasuring : Measuring parameters state)
    (hreceive : receiveStep parameters state index = some next) :
    Measuring parameters next := by
  simp only [receiveStep] at hreceive
  split at hreceive
  case h_2 => cases hreceive
  case h_1 size echo hendpoints hhandling hecho =>
    cases hreceive
    have hknown := hmeasuring.echoes index echo (List.mem_of_getElem? hecho)
    constructor
    case sorted => exact hmeasuring.sorted
    case numbers => exact hmeasuring.numbers
    case echoes =>
      intro other
      by_cases heq : other = index
      · rw [heq]
        simp only [State.withChannel, Function.update_self]
        exact hmeasuring.echoes index
      · simp only [State.withChannel, Function.update_of_ne heq]
        exact hmeasuring.echoes other
    case handling =>
      intro found hfound
      cases hfound
      refine ⟨hknown, ?_⟩
      cases hloans : parameters.dataLoans with
      | true => exact Or.inl hloans
      | false =>
          refine Or.inr (Or.inr (Or.inl ?_))
          simp only [State.withChannel, State.withPublisher, Publisher.receive, hloans,
            Bool.false_eq_true, if_false]
    case idle =>
      intro hphase
      rw [(hmeasuring.idle hphase).2] at hendpoints
      cases hendpoints
    case progress => exact hmeasuring.progress.of_eq rfl rfl rfl rfl rfl
    case started => exact hmeasuring.started
    case recorded =>
      intro htiming
      obtain ⟨hstarts, hordered, hbefore, hreceived⟩ := hmeasuring.recorded htiming
      refine ⟨hstarts, hordered, fun hne _ => hbefore hne fun other hother => ?_, hreceived⟩
      rw [hhandling] at hother
      cases hother
    case payloads => exact hmeasuring.payloads
    case bytes => exact hmeasuring.bytes
    case stats => exact hmeasuring.stats

/-- The data topics change, but no echo of an unknown sample comes in. -/
theorem Measuring.of_channels {parameters : Parameters} {state next : State n}
    (hmeasuring : Measuring parameters state) (hpublisher : next.publisher = state.publisher)
    (hsent : next.sent = state.sent)
    (hechoes : ∀ index, ∀ echo ∈ (next.channels index).echoes,
      echo ∈ (state.channels index).echoes ∨
        ∃ sample ∈ state.sent, sample.1.seqnum = echo.seqnum) :
    Measuring parameters next := by
  obtain ⟨publisher, log, heard, sent, channels, subscribers⟩ := next
  subst hpublisher hsent
  constructor
  case sorted => exact hmeasuring.sorted
  case numbers => exact hmeasuring.numbers
  case echoes =>
    intro index echo hmem
    rcases hechoes index echo hmem with hold | hnew
    · exact hmeasuring.echoes index echo hold
    · exact hnew
  case handling => exact hmeasuring.handling
  case idle => exact hmeasuring.idle
  case progress => exact hmeasuring.progress
  case started => exact hmeasuring.started
  case recorded => exact hmeasuring.recorded
  case payloads => exact hmeasuring.payloads
  case bytes => exact hmeasuring.bytes
  case stats => exact hmeasuring.stats

/-- One channel changes. -/
theorem Measuring.of_channel {parameters : Parameters} {state next : State n}
    (hmeasuring : Measuring parameters state) (hpublisher : next.publisher = state.publisher)
    (hsent : next.sent = state.sent) {index : Fin n} {channel : Channel}
    (hchannels : next.channels = Function.update state.channels index channel)
    (hechoes : ∀ echo ∈ channel.echoes, echo ∈ (state.channels index).echoes ∨
      ∃ sample ∈ state.sent, sample.1.seqnum = echo.seqnum) :
    Measuring parameters next := by
  refine hmeasuring.of_channels hpublisher hsent fun other echo hmem => ?_
  rw [hchannels] at hmem
  by_cases heq : other = index
  · subst heq
    rw [Function.update_self] at hmem
    exact hechoes echo hmem
  · rw [Function.update_of_ne heq] at hmem
    exact Or.inl hmem

/-! ## The end of a payload -/

theorem length_le_of_ordered {times : List Measurement} {low high : ℕ}
    (hordered : times.Pairwise fun first later => first.echo.seqnum < later.echo.seqnum)
    (hnumbers : ∀ time ∈ times,
      low < time.echo.seqnum.toNat ∧ time.echo.seqnum.toNat ≤ high) :
    times.length ≤ high - low := by
  have hnodup : (times.map fun time => time.echo.seqnum.toNat).Nodup := by
    rw [List.Nodup, List.pairwise_map]
    exact hordered.imp fun hless => (UInt32.lt_iff_toNat_lt.mp hless).ne
  calc times.length = (times.map fun time => time.echo.seqnum.toNat).toFinset.card := by
        rw [List.toFinset_card_of_nodup hnodup, List.length_map]
    _ ≤ (Finset.Ioc low high).card := by
        refine Finset.card_le_card fun number hmem => ?_
        obtain ⟨time, htime, rfl⟩ := List.mem_map.mp (List.mem_toFinset.mp hmem)
        exact Finset.mem_Ioc.mpr (hnumbers time htime)
    _ = high - low := Nat.card_Ioc low high

theorem Measuring.time_numbers {parameters : Parameters} {state : State n}
    (hmeasuring : Measuring parameters state)
    (hrecorded : Recorded state.publisher state.sent) :
    ∀ time ∈ state.publisher.times,
      0 < time.echo.seqnum.toNat ∧
        time.echo.seqnum.toNat ≤ parameters.samples.toNat + 1 := by
  intro time hmem
  obtain ⟨sample, hsample, hnumber, -⟩ := hrecorded.starts time hmem
  rw [← hnumber]
  exact hmeasuring.numbers sample hsample

/-- `analyze_times` gets what was recorded without the first measurement. -/
theorem Measuring.sound {parameters : Parameters} {state : State n}
    (hmeasuring : Measuring parameters state)
    (hsamples : parameters.samples.toNat + 2 < 2 ^ 32)
    (hrecorded : Recorded state.publisher state.sent) {first time : Measurement}
    {times : List Measurement} (htimes : state.publisher.times = first :: time :: times)
    (size : UInt32) :
    Sound parameters ⟨size, state.publisher.receivedCount - 1, time :: times⟩ := by
  have hall := hmeasuring.time_numbers hrecorded
  have hordered := hrecorded.ordered
  have hreceived := hrecorded.received
  rw [htimes] at hall hordered hreceived
  have hlength := length_le_of_ordered hordered hall
  rw [List.length_cons, List.length_cons] at hlength hreceived
  obtain ⟨hfirst, hlater⟩ := List.pairwise_cons.mp hordered
  have hnumbers : ∀ other ∈ time :: times,
      1 < other.echo.seqnum.toNat ∧
        other.echo.seqnum.toNat ≤ parameters.samples.toNat + 1 := by
    intro other hmem
    have hpositive := (hall first List.mem_cons_self).1
    have hless := UInt32.lt_iff_toNat_lt.mp (hfirst other hmem)
    exact ⟨by omega, (hall other (List.mem_cons_of_mem _ hmem)).2⟩
  constructor
  case received =>
    have hcount : state.publisher.receivedCount.toNat = times.length + 1 + 1 := by
      rw [hreceived, UInt32.toNat_ofNat', Nat.mod_eq_of_lt (by omega)]
    have hone : (1 : UInt32) ≤ state.publisher.receivedCount := by
      rw [UInt32.le_iff_toNat_le, hcount]
      exact Nat.succ_le_of_lt (Nat.succ_pos _)
    dsimp only
    rw [UInt32.toNat_sub_of_le _ _ hone, hcount]
    rfl
  case nonempty => exact List.cons_ne_nil _ _
  case length_le => exact length_le_of_ordered hlater hnumbers
  case ordered => exact hlater
  case numbers => exact hnumbers

theorem Measuring.remove {parameters : Parameters} {state : State n} {next : Publisher}
    {removed : Bool} (hmeasuring : Measuring parameters state)
    (hsamples : parameters.samples.toNat + 2 < 2 ^ 32)
    (hremove : state.publisher.remove removed = some next) :
    Measuring parameters (state.withPublisher next) := by
  obtain ⟨hphase, hhandling, size, rest, hpayloads, hgone⟩ := Publisher.remove_cases hremove
  rcases hgone with ⟨first, time, times, htimes, rfl⟩ | ⟨-, rfl⟩ | rfl
  · have hsound := hmeasuring.sound hsamples (hmeasuring.recorded (by rw [hphase]; rfl))
      htimes size
    have hdrop := hmeasuring.payloads
    rw [hpayloads] at hdrop
    constructor
    case sorted => exact hmeasuring.sorted
    case numbers => exact hmeasuring.numbers
    case echoes => exact hmeasuring.echoes
    case handling =>
      intro echo hsome
      rw [State.withPublisher, Publisher.nextPayload, hhandling] at hsome
      cases hsome
    case idle => exact fun _ => ⟨hhandling, rfl⟩
    case progress =>
      simp only [Progress, State.withPublisher, Publisher.nextPayload]
      split_ifs <;> trivial
    case started => exact hmeasuring.started
    case recorded =>
      simp only [State.withPublisher, Publisher.nextPayload]
      split_ifs <;> exact Bool.noConfusion
    case payloads =>
      simp only [State.withPublisher, Publisher.nextPayload, List.length_append,
        List.length_singleton]
      rw [← List.drop_drop, ← hdrop]
      rfl
    case bytes =>
      have hget : parameters.dataSizes[state.publisher.stats.length]? = some size := by
        rw [← Nat.add_zero state.publisher.stats.length, ← List.getElem?_drop, ← hdrop]
        rfl
      simp only [State.withPublisher, Publisher.nextPayload, List.map_append,
        List.length_append, List.length_singleton]
      rw [hmeasuring.bytes, List.take_add_one, hget]
      rfl
    case stats =>
      intro entry hmem
      rcases List.mem_append.mp hmem with hold | hnew
      · exact hmeasuring.stats entry hold
      · rw [List.mem_singleton.mp hnew]
        exact hsound
  · exact hmeasuring.move Publisher.Phase.noConfusion Bool.noConfusion trivial rfl
  · exact hmeasuring.move Publisher.Phase.noConfusion Bool.noConfusion trivial rfl

/-! ## Every step -/

theorem Measuring.step {parameters : Parameters} {state next : State n} {action : Action n}
    (hsamples : parameters.samples.toNat + 2 < 2 ^ 32)
    (hmeasuring : Measuring parameters state) (hundisturbed : Undisturbed parameters state action)
    (hstep : CppProj.LatencyTest.step parameters state action = some next) :
    Measuring parameters next := by
  have hprogress := hmeasuring.progress
  unfold Progress at hprogress
  cases action with
  | prepare prepared => exact hmeasuring.prepare hstep
  | ready written =>
      obtain ⟨⟨publisher, commands⟩, hready, rfl⟩ := Option.map_eq_some_iff.mp hstep
      exact hmeasuring.ready hready
  | discovered =>
      simp only [CppProj.LatencyTest.step, discoveredStep] at hstep
      split_ifs at hstep with hdiscovered
      rw [hdiscovered.1] at hprogress
      cases hstep
      exact hmeasuring.move Publisher.Phase.noConfusion
        (fun _ => by rw [hdiscovered.1]; rfl) hprogress rfl
  | hear index =>
      simp only [CppProj.LatencyTest.step, hearStep] at hstep
      split at hstep
      case h_1 command hcommand hfree =>
        cases hstep
        exact ⟨hmeasuring.sorted, hmeasuring.numbers, hmeasuring.echoes, hmeasuring.handling,
          hmeasuring.idle, hmeasuring.progress.of_eq rfl rfl rfl rfl rfl, hmeasuring.started,
          fun htiming => (hmeasuring.recorded htiming).of_eq rfl rfl rfl rfl,
          hmeasuring.payloads, hmeasuring.bytes, hmeasuring.stats⟩
      case h_2 => cases hstep
  | commandsCome =>
      obtain ⟨publisher, hcome, rfl⟩ := Option.map_eq_some_iff.mp hstep
      exact hmeasuring.commandsCome hcome
  | nextSample written =>
      obtain ⟨⟨publisher, commands⟩, hnext, rfl⟩ := Option.map_eq_some_iff.mp hstep
      exact hmeasuring.nextSample hsamples hundisturbed hnext
  | release =>
      obtain ⟨publisher, hrelease, rfl⟩ := Option.map_eq_some_iff.mp hstep
      exact hmeasuring.release hrelease
  | loan loaned =>
      obtain ⟨publisher, hloan, rfl⟩ := Option.map_eq_some_iff.mp hstep
      exact hmeasuring.loan hsamples hloan
  | check =>
      obtain ⟨publisher, hcheck, rfl⟩ := Option.map_eq_some_iff.mp hstep
      exact hmeasuring.check hcheck
  | reset =>
      obtain ⟨publisher, hreset, rfl⟩ := Option.map_eq_some_iff.mp hstep
      exact hmeasuring.reset hreset
  | start now =>
      obtain ⟨publisher, hstart, rfl⟩ := Option.map_eq_some_iff.mp hstep
      exact hmeasuring.start hstart
  | write written => exact hmeasuring.write hstep
  | goOn timeout =>
      obtain ⟨publisher, hgoOn, rfl⟩ := Option.map_eq_some_iff.mp hstep
      obtain ⟨hwaiting, rfl⟩ := Publisher.goOn_eq_some_iff.mp hgoOn
      rw [hwaiting.1] at hprogress
      exact hmeasuring.nextCount hsamples hprogress.1 hprogress.2 (by rw [hwaiting.1]; rfl)
  | receive index => exact hmeasuring.receive hstep
  | lock =>
      obtain ⟨publisher, hlock, rfl⟩ := Option.map_eq_some_iff.mp hstep
      exact hmeasuring.lock hlock
  | compare =>
      obtain ⟨publisher, hcompare, rfl⟩ := Option.map_eq_some_iff.mp hstep
      exact hmeasuring.compare hcompare
  | measure now positive long =>
      obtain ⟨publisher, hmeasure, rfl⟩ := Option.map_eq_some_iff.mp hstep
      exact hmeasuring.measure hmeasure
  | clear =>
      obtain ⟨publisher, hclear, rfl⟩ := Option.map_eq_some_iff.mp hstep
      exact hmeasuring.clear hclear
  | unlock =>
      obtain ⟨publisher, hunlock, rfl⟩ := Option.map_eq_some_iff.mp hstep
      exact hmeasuring.unlock hunlock
  | deleteData =>
      obtain ⟨publisher, hdelete, rfl⟩ := Option.map_eq_some_iff.mp hstep
      obtain ⟨hphase, rfl⟩ := Publisher.deleteData_eq_some_iff.mp hdelete
      exact hmeasuring.move Publisher.Phase.noConfusion (fun _ => by rw [hphase]; rfl) trivial
        rfl
  | remove removed =>
      obtain ⟨publisher, hremove, rfl⟩ := Option.map_eq_some_iff.mp hstep
      exact hmeasuring.remove hsamples hremove
  | subscriberHears index =>
      simp only [CppProj.LatencyTest.step, subscriberHearsStep] at hstep
      split at hstep
      case h_1 =>
        cases hstep
        exact hmeasuring.of_channels rfl rfl fun _ _ hmem => Or.inl hmem
      case h_2 => cases hstep
  | subscriberCommandCome | subscriberBegin | subscriberDeleteData | subscriberRemove
  | subscriberEnd | subscriberAcknowledged =>
      obtain ⟨subscriber, -, rfl⟩ := Option.map_eq_some_iff.mp hstep
      exact hmeasuring.of_channels rfl rfl fun _ _ hmem => Or.inl hmem
  | subscriberPrepare index prepared =>
      obtain ⟨subscriber, -, rfl⟩ := Option.map_eq_some_iff.mp hstep
      exact hmeasuring.of_channel rfl rfl rfl fun _ hmem => absurd hmem List.not_mem_nil
  | subscriberDiscovered index =>
      simp only [CppProj.LatencyTest.step, subscriberDiscoveredStep] at hstep
      split_ifs at hstep
      cases hstep
      exact hmeasuring.of_channels rfl rfl fun _ _ hmem => Or.inl hmem
  | echo index bounce written =>
      simp only [CppProj.LatencyTest.step, echoStep] at hstep
      split at hstep
      case h_1 size sample now hendpoints hsample =>
        cases hstep
        refine hmeasuring.of_channel rfl rfl rfl fun echo hmem => ?_
        dsimp only at hmem
        split_ifs at hmem
        · rcases List.mem_append.mp hmem with hold | hnew
          · exact Or.inl hold
          · rw [List.mem_singleton.mp hnew]
            exact Or.inr ⟨_, List.mem_of_getElem? hsample, rfl⟩
        · rcases List.mem_append.mp hmem with hold | hnew
          · exact Or.inl hold
          · rw [List.mem_singleton.mp hnew]
            exact Or.inr ⟨_, List.mem_of_getElem? hsample, rfl⟩
        · exact Or.inl hmem
      case h_2 => cases hstep
  | loseSample index =>
      simp only [CppProj.LatencyTest.step, loseSampleStep] at hstep
      split_ifs at hstep
      cases hstep
      exact hmeasuring.of_channel rfl rfl rfl fun _ hmem => Or.inl hmem
  | loseEcho index =>
      simp only [CppProj.LatencyTest.step, loseEchoStep] at hstep
      split_ifs at hstep
      cases hstep
      exact hmeasuring.of_channel rfl rfl rfl fun _ hmem => Or.inl hmem

/-- The measurements of the payload at hand and the statistics of the payloads
before it. -/
structure Measured (parameters : Parameters) (state : State n) : Prop where
  current : state.publisher.phase.timing = true →
    Recorded state.publisher state.sent ∧
      (∀ time ∈ state.publisher.times,
        0 < time.echo.seqnum.toNat ∧
          time.echo.seqnum.toNat ≤ parameters.samples.toNat + 1) ∧
      state.publisher.times.length ≤ parameters.samples.toNat + 1
  payloads : state.publisher.stats.map TimeStats.bytes <+: parameters.dataSizes
  stats : ∀ entry ∈ state.publisher.stats, Sound parameters entry

theorem Measuring.of_run {parameters : Parameters} {actions : List (Action n)}
    {state : State n}
    (hrun : (system parameters).run (State.initial parameters) actions = some state)
    (hundisturbed : (system parameters).StepsMeet (Undisturbed parameters)
      (State.initial parameters) actions)
    (hsamples : parameters.samples.toNat + 2 < 2 ^ 32) : Measuring parameters state :=
  run_preserves_of_stepsMeet (Measuring parameters)
    (fun _ _ _ hmeasuring hmeets hstep => hmeasuring.step hsamples hmeets hstep)
    (Measuring.initial parameters) hundisturbed hrun

theorem measured_of_run {parameters : Parameters} {actions : List (Action n)} {state : State n}
    (hrun : (system parameters).run (State.initial parameters) actions = some state)
    (hundisturbed : (system parameters).StepsMeet (Undisturbed parameters)
      (State.initial parameters) actions)
    (hsamples : parameters.samples.toNat + 2 < 2 ^ 32) : Measured parameters state := by
  have hmeasuring := Measuring.of_run hrun hundisturbed hsamples
  constructor
  case current =>
    intro htiming
    have hrecorded := hmeasuring.recorded htiming
    have hnumbers := hmeasuring.time_numbers hrecorded
    exact ⟨hrecorded, hnumbers, length_le_of_ordered hrecorded.ordered hnumbers⟩
  case payloads =>
    rw [hmeasuring.bytes]
    exact List.take_prefix _ _
  case stats => exact hmeasuring.stats

/-- The first sample is echoed late, and its echo is not taken for one of the
second sample; the echo of that comes in time. -/
def untilSecond : List (Action 1) :=
  untilWaiting ++
    [.goOn true, .nextSample true, .check, .reset, .start 200, .echo lone 0 true, .receive lone,
      .write true, .lock, .compare, .unlock, .echo lone 0 true, .receive lone, .lock, .compare,
      .measure 300 true false, .clear, .unlock]

theorem run_untilSecond :
    ∃ state, (system shortTest).run (State.initial shortTest) untilSecond = some state ∧
      state.publisher.times = [⟨⟨2, 0⟩, 300, 200⟩] :=
  ⟨_, rfl, rfl⟩

theorem measured_of_run_untilSecond :
    ∃ state, (system shortTest).run (State.initial shortTest) untilSecond = some state ∧
      state.publisher.times = [⟨⟨2, 0⟩, 300, 200⟩] ∧ Measured shortTest state := by
  obtain ⟨state, hrun, htimes⟩ := run_untilSecond
  have hundisturbed : (system shortTest).StepsMeet (Undisturbed shortTest)
      (State.initial shortTest) untilSecond := by decide
  exact ⟨state, hrun, htimes, measured_of_run hrun hundisturbed (by decide)⟩

/-- The listener finds the number of the first sample, and the test goes on before
it has recorded the echo: that is measured from the start of the second sample. -/
example : ∃ state : State 1,
    (system shortTest).run (State.initial shortTest)
      (untilWaiting ++
        [.goOn true, .echo lone 0 true, .receive lone, .lock, .compare, .nextSample true, .check,
          .reset, .start 200, .measure 250 true false]) = some state ∧
      state.publisher.times = [⟨⟨1, 0⟩, 250, 200⟩] :=
  ⟨_, rfl, rfl⟩

end CppProj.LatencyTest
