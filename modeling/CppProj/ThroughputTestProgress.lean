import CppProj.ThroughputTestResults
import CppProj.ThroughputTestSmooth
import Mathlib.Algebra.Order.BigOperators.Group.Finset

/-!
# The throughput test comes to its end

As long as a smooth run is not over somebody can take a step, and the steps
other than the delivery of data are bounded.  So a smooth run that cannot be
continued has printed its results, unless a report was too large.
-/

namespace CppProj.ThroughputTest

open BroadcastReplies PerformanceTypes TransitionSystem
open ThroughputSubscriber (Sample)

variable {n : ℕ}

/-! ## Progress -/

/-- The delivery of data, which is not needed for the test to go on. -/
def Action.isData : Action n → Bool
  | .atReader _ .dataAvailable | .atReader _ (.takeNextSample _) => true
  | _ => false

/-- Somebody can go on as the middleware should let it. -/
def CanGoOn (parameters : Parameters) (state : State n) : Prop :=
  ∃ action next, Smooth state action ∧ action.isData = false ∧
    CppProj.ThroughputTest.step parameters state action = some next

theorem CanGoOn.of_isSome {parameters : Parameters} {state : State n} (action : Action n)
    (hsmooth : Smooth state action) (hdata : action.isData = false)
    (hsome : (CppProj.ThroughputTest.step parameters state action).isSome = true) :
    CanGoOn parameters state := by
  obtain ⟨next, hnext⟩ := Option.isSome_iff_exists.mp hsome
  exact ⟨action, next, hsmooth, hdata, hnext⟩

theorem canGoOn_of_advance {parameters : Parameters} {state : State n}
    (hadvance : (state.publisher.advance parameters).isSome = true) :
    CanGoOn parameters state :=
  .of_isSome .advance trivial rfl (by rwa [CppProj.ThroughputTest.step, Option.isSome_map])

theorem isSome_awaitWriter {subscriber : Subscriber} (hdiscovering : subscriber.discovering = true)
    (hawake : subscriber.discoveryWait ≠ .blocked) : subscriber.awaitWriter.isSome = true := by
  unfold Subscriber.awaitWriter
  rw [if_pos hdiscovering]
  split
  case h_1 => split_ifs <;> rfl
  case h_2 | h_4 => rfl
  case h_3 hblocked => exact absurd hblocked hawake

theorem isSome_awaitReaders {publisher : Publisher n} (hawake : publisher.discoveryWait ≠ .blocked)
    (demands : List UInt32) : (publisher.awaitReaders demands).isSome = true := by
  unfold Publisher.awaitReaders
  split
  case h_1 => split_ifs <;> rfl
  case h_2 | h_4 => rfl
  case h_3 hblocked => exact absurd hblocked hawake

/-- A subscriber that waits for the writer finds it, if there is one: whoever sleeps
is yet to be told of it or to be woken. -/
theorem SmoothState.canGoOn_of_discovering {parameters : Parameters} {state : State n}
    (hsmooth : SmoothState state) {index : Fin n}
    (hdiscovering : (state.subscribers index).discovering = true)
    (hwriter : state.publisher.dataWriter ≠ none) : CanGoOn parameters state := by
  have hwaits := hsmooth.waits index
  have hreader := hwaits.reader hdiscovering
  by_cases hwait : (state.subscribers index).discoveryWait = .blocked
  · rcases hwaits.matched_le with hzero | hone
    · refine .of_isSome (.atReader index .matched) trivial rfl ?_
      simp only [CppProj.ThroughputTest.step, Subscriber.atReader,
        Option.isSome_iff_ne_none.mpr hwriter, Option.isSome_iff_ne_none.mpr hreader,
        hdiscovering, hzero]
      rfl
    · have hmatches : (state.subscribers index).totalMatches = 3 := by
        rw [Subscriber.totalMatches, hone]
        rfl
      have hpending := hwaits.wakes hdiscovering (decide_eq_true hmatches) (Or.inr hwait)
      refine .of_isSome (.atReader index .notify) ?_ rfl ?_
      · simp only [Smooth, hwait]
        exact WaitPhase.noConfusion
      · simp only [CppProj.ThroughputTest.step, Subscriber.atReader, hpending, if_true]
        rfl
  · refine .of_isSome (.atReader index .awaitWriter) trivial rfl ?_
    rw [CppProj.ThroughputTest.step, Option.isSome_map]
    exact isSome_awaitWriter hdiscovering hwait

/-- A subscriber with commands left handles the next one, or waits for the writer. -/
theorem SmoothState.canGoOn_of_unread {parameters : Parameters} {state : State n}
    (hsmooth : SmoothState state) (hended : state.publisher.phase.ended = false)
    {index : Fin n} (hunread : (state.subscribers index).link.position < state.log.length)
    (hwriter : (state.subscribers index).discovering = true →
      state.publisher.dataWriter ≠ none) : CanGoOn parameters state := by
  cases hdiscovering : (state.subscribers index).discovering with
  | true => exact hsmooth.canGoOn_of_discovering hdiscovering (hwriter hdiscovering)
  | false =>
      refine .of_isSome (.processMessage index true 0) rfl rfl ?_
      rw [CppProj.ThroughputTest.step, processMessageStep, hdiscovering,
        hsmooth.stopped hended index, List.getElem?_eq_getElem hunread]
      rfl

/-- A loop that waits for answers gets one. -/
theorem SmoothState.canGoOn_of_awaiting {parameters : Parameters} {state : State n}
    (hsmooth : SmoothState state) (hended : state.publisher.phase.ended = false)
    {failed : Bool} {answer : Shape} {count : ℕ}
    (hawaiting : Awaiting state.owed failed answer count) (hless : count < n)
    (htake : ∀ command, (state.publisher.take (some command)).isSome = true)
    (hwriter : ∀ index, (state.subscribers index).discovering = true →
      state.publisher.dataWriter ≠ none) : CanGoOn parameters state := by
  have hunsettled : ∃ index, state.owed index ≠ [] := by
    by_contra hnone
    push Not at hnone
    have hall : settled state.owed = Finset.univ :=
      Finset.eq_univ_of_forall fun index => mem_settled.mpr (hnone index)
    have hcount := hawaiting.count
    rw [hall, Finset.card_univ, Fintype.card_fin] at hcount
    omega
  obtain ⟨index, hindex⟩ := hunsettled
  have hfollows := (hsmooth.lock.rounds.followed index).follows
  rcases hfollows.exists_of_owed hindex with hwritten | hunread
  · refine .of_isSome (.take index) trivial rfl ?_
    rw [CppProj.ThroughputTest.step, takeStep, List.getElem?_eq_getElem hwritten]
    simp only [Option.isSome_map, htake]
  · exact hsmooth.canGoOn_of_unread hended hunread (hwriter index)

/-- While the publisher sleeps one of the readers can be found or is about to be
created. -/
theorem SmoothState.canGoOn_of_unfound {parameters : Parameters} {state : State n}
    (hsmooth : SmoothState state) (hphase : state.publisher.phase = .discovery)
    (hunfound : state.publisher.totalMatches ≠ n * 3) : CanGoOn parameters state := by
  have hended : state.publisher.phase.ended = false := by rw [hphase]; rfl
  have hopened := hsmooth.lock.opened
  have hannounced := hsmooth.announced hended
  unfold Opened at hopened
  unfold Announced at hannounced
  rw [hphase] at hopened hannounced
  obtain ⟨size, demands, rest, hsizes, hwriter⟩ := hopened
  have hsome : state.publisher.dataWriter ≠ none := by
    rw [hwriter]
    exact Option.some_ne_none _
  obtain ⟨index, hindex⟩ : ∃ index, index ∉ state.publisher.found := by
    by_contra hnone
    push Not at hnone
    apply hunfound
    rw [Publisher.totalMatches, Finset.eq_univ_of_forall hnone, Finset.card_univ,
      Fintype.card_fin]
    omega
  have hfollowing := hsmooth.lock.rounds.followed index
  rcases hfollowing.follows.position_le.lt_or_eq with hunread | hread
  · exact hsmooth.canGoOn_of_unread hended hunread fun _ => hsome
  · have hreader : (state.subscribers index).dataReader = some size := by
      have hview := congrArg View.dataReader hfollowing.view
      rw [hread, List.take_length, hannounced, hwriter] at hview
      exact hview
    refine .of_isSome (.atWriter (.matched index)) trivial rfl ?_
    simp only [CppProj.ThroughputTest.step, Publisher.atWriter, hwriter, hreader, hindex,
      Option.isSome_some, not_false_eq_true, decide_true, Bool.and_self, if_true,
      Option.map_some]

/-- The wait for the readers goes on, or somebody else does. -/
theorem SmoothState.canGoOn_of_discovery {parameters : Parameters} {state : State n}
    (hsmooth : SmoothState state) (hphase : state.publisher.phase = .discovery) :
    CanGoOn parameters state := by
  have hopened := hsmooth.lock.opened
  unfold Opened at hopened
  rw [hphase] at hopened
  obtain ⟨size, demands, rest, hsizes, -⟩ := hopened
  by_cases hwait : state.publisher.discoveryWait = .blocked
  · by_cases hmatches : state.publisher.totalMatches = n * 3
    · have hpending := hsmooth.wakes hphase (decide_eq_true hmatches) (Or.inr hwait)
      refine .of_isSome (.atWriter .notify) ?_ rfl ?_
      · simp only [Smooth, hwait]
        exact WaitPhase.noConfusion
      · simp only [CppProj.ThroughputTest.step, Publisher.atWriter, hpending, if_true]
        rfl
    · exact hsmooth.canGoOn_of_unfound hphase hmatches
  · apply canGoOn_of_advance
    simp only [Publisher.advance, hphase, hsizes, Option.isSome_map]
    exact isSome_awaitReaders hwait demands

/-- A smooth run that is not over can be continued. -/
theorem SmoothState.canGoOn {parameters : Parameters} {state : State n}
    (hsmooth : SmoothState state) (hended : state.publisher.phase.ended = false) :
    CanGoOn parameters state := by
  have hround := hsmooth.lock.rounds.round
  have hopened := hsmooth.lock.opened
  have hfound := hsmooth.found
  unfold Round at hround
  unfold Opened at hopened
  unfold Found at hfound
  cases hphase : state.publisher.phase with
  | sizes =>
      apply canGoOn_of_advance
      cases hsizes : state.publisher.sizes <;>
        simp only [Publisher.advance, hphase, hsizes, Option.isSome_some]
  | endpoints =>
      have hlogged := hsmooth.lock.logged
      unfold Logged at hlogged
      rw [hphase] at hopened hlogged
      obtain ⟨_, _, size, demands, rest, hsizes, -⟩ := hlogged
      refine .of_isSome (.prepare true) rfl rfl ?_
      simp only [CppProj.ThroughputTest.step, Publisher.prepare, hphase, hsizes, hopened,
        Option.isNone_none, Bool.and_self, if_true, Option.map_some, Option.isSome_some]
  | discovery => exact hsmooth.canGoOn_of_discovery hphase
  | demands =>
      apply canGoOn_of_advance
      unfold Publisher.advance
      simp only [hphase]
      split
      · split <;> rfl
      · rfl
  | rigging ready =>
      rw [hphase] at hround hopened
      obtain ⟨_, _, -, hwriter, -⟩ := hopened
      by_cases hready : ready < n
      · refine hsmooth.canGoOn_of_awaiting hended hround hready ?_ ?_
        · intro command
          simp only [Publisher.take, hphase, hready, if_true, Option.isSome_some]
        · intro _ _ hnone
          rw [hwriter] at hnone
          cases hnone
      · apply canGoOn_of_advance
        simp only [Publisher.advance, hphase, hready, if_false, Option.isSome_some]
  | starting | ending | stopping =>
      apply canGoOn_of_advance
      simp only [Publisher.advance, hphase, Option.isSome_some]
  | startsAcknowledgment | endsAcknowledgment =>
      refine .of_isSome (.acknowledge true) rfl rfl ?_
      simp only [CppProj.ThroughputTest.step, Publisher.acknowledge, hphase, Option.map_some,
        Option.isSome_some]
  | sending =>
      refine .of_isSome (.send 0) trivial rfl ?_
      simp only [CppProj.ThroughputTest.step, Publisher.send, hphase, Option.map_some,
        Option.isSome_some]
  | results received =>
      rw [hphase] at hround hopened
      obtain ⟨_, _, -, hwriter, -⟩ := hopened
      by_cases hreceived : received < n
      · refine hsmooth.canGoOn_of_awaiting hended hround hreceived ?_ ?_
        · intro command
          simp only [Publisher.take, hphase, hreceived, if_true, Option.isSome_some]
        · intro _ _ hnone
          rw [hwriter] at hnone
          cases hnone
      · apply canGoOn_of_advance
        simp only [Publisher.advance, hphase, hreceived, if_false, Option.isSome_some]
  | disposing =>
      rw [hphase] at hopened
      obtain ⟨size, demands, rest, hsizes, hwriter, -⟩ := hopened
      refine .of_isSome (.dispose true) rfl rfl ?_
      simp only [CppProj.ThroughputTest.step, Publisher.dispose, hphase, hsizes, hwriter,
        Option.isSome_some, Bool.and_self, if_true, Option.map_some]
  | removing ready =>
      rw [hphase] at hround hfound
      obtain ⟨_, _, -, -, hpast⟩ := hfound
      by_cases hready : ready < n
      · refine hsmooth.canGoOn_of_awaiting hended hround hready ?_ ?_
        · intro command
          simp only [Publisher.take, hphase, hready, if_true, Option.isSome_some]
        · exact fun index hdiscovering => absurd (Or.inl hdiscovering) (hpast index).2
      · apply canGoOn_of_advance
        simp only [Publisher.advance, hphase, hready, if_false, Option.isSome_some]
  | printed | returned | aborted =>
      rw [hphase] at hended
      cases hended

/-! ## No test of a smooth run fails -/

structure Unfailed (publisher : Publisher n) : Prop where
  testFailure : publisher.testFailure = false
  phase : publisher.phase ≠ .returned

theorem Unfailed.of_eq {publisher next : Publisher n} (hunfailed : Unfailed publisher)
    (htestFailure : next.testFailure = publisher.testFailure) (hphase : next.phase ≠ .returned) :
    Unfailed next where
  testFailure := htestFailure.trans hunfailed.testFailure
  phase := hphase

theorem Unfailed.advance {parameters : Parameters} {publisher next : Publisher n}
    {commands : List ThroughputCommandType} (hunfailed : Unfailed publisher)
    (hadvance : Advances parameters publisher next commands) : Unfailed next := by
  cases hadvance with
  | nextDemand | waits => exact hunfailed.of_eq rfl hunfailed.phase
  | stop =>
      refine hunfailed.of_eq rfl ?_
      simp only [hunfailed.testFailure, Bool.false_eq_true, if_false]
      exact Phase.noConfusion
  | noSize | announce | found | awake | noDemand | rigged | start | finish | tested | removed =>
      exact hunfailed.of_eq rfl Phase.noConfusion

/-- An answer that the results loop takes is a report. -/
theorem Unfailed.take {state : State n} {index : Fin n} {answer : ThroughputCommandType}
    {next : Publisher n} (hunfailed : Unfailed state.publisher) (hlock : LockStep state)
    (hanswer : (state.subscribers index).link.written[(state.subscribers index).link.taken]? =
      some answer)
    (htake : Takes state.publisher (some answer) next) : Unfailed next := by
  have hround := hlock.rounds.round
  unfold Round at hround
  cases htake with
  | rigging | removing | recorded | tooMany => exact hunfailed.of_eq rfl Phase.noConfusion
  | failed hphase hother =>
      rw [hphase] at hround
      rcases hround.take ((hlock.rounds.followed index).follows.owed_eq_cons hanswer) with
        ⟨hreport, -⟩ | ⟨hfailed, -⟩
      · exact absurd (congrArg Prod.fst hreport) (hother answer rfl)
      · cases hfailed

theorem Unfailed.step {parameters : Parameters} {state next : State n} {action : Action n}
    (hunfailed : Unfailed state.publisher) (hlock : LockStep state) (haction : Smooth state action)
    (hstep : CppProj.ThroughputTest.step parameters state action = some next) :
    Unfailed next.publisher := by
  have hopened := hlock.opened
  unfold Opened at hopened
  cases action with
  | advance =>
      obtain ⟨⟨publisher, commands⟩, hadvance, rfl⟩ := Option.map_eq_some_iff.mp hstep
      exact hunfailed.advance (advances_of_advance hadvance)
  | prepare prepared =>
      cases (show prepared = true from haction)
      obtain ⟨publisher, hprepare, rfl⟩ := Option.map_eq_some_iff.mp hstep
      unfold Publisher.prepare at hprepare
      split at hprepare
      case h_1 hphase hsizes =>
        rw [hphase] at hopened
        rw [if_pos (by rw [hopened]; rfl)] at hprepare
        cases hprepare
        exact hunfailed.of_eq rfl Phase.noConfusion
      case h_2 => cases hprepare
  | dispose prepared =>
      cases (show prepared = true from haction)
      obtain ⟨⟨publisher, commands⟩, hdispose, rfl⟩ := Option.map_eq_some_iff.mp hstep
      unfold Publisher.dispose at hdispose
      split at hdispose
      case h_1 hphase hsizes =>
        rw [hphase] at hopened
        obtain ⟨_, _, _, -, hwriter, -⟩ := hopened
        rw [if_pos (by rw [hwriter]; rfl)] at hdispose
        cases hdispose
        exact hunfailed.of_eq rfl Phase.noConfusion
      case h_2 => cases hdispose
  | acknowledge inTime =>
      cases (show inTime = true from haction)
      obtain ⟨publisher, hacknowledge, rfl⟩ := Option.map_eq_some_iff.mp hstep
      unfold Publisher.acknowledge at hacknowledge
      split at hacknowledge
      case h_1 | h_2 =>
        cases hacknowledge
        exact hunfailed.of_eq rfl Phase.noConfusion
      case h_3 => cases hacknowledge
  | send batches =>
      obtain ⟨publisher, hsend, rfl⟩ := Option.map_eq_some_iff.mp hstep
      unfold Publisher.send at hsend
      split at hsend
      case h_1 =>
        cases hsend
        exact hunfailed.of_eq rfl Phase.noConfusion
      case h_2 => cases hsend
  | take index =>
      simp only [CppProj.ThroughputTest.step, takeStep] at hstep
      split at hstep
      case h_1 answer hanswer =>
        obtain ⟨publisher, htake, rfl⟩ := Option.map_eq_some_iff.mp hstep
        exact hunfailed.take hlock hanswer (takes_of_take htake)
      case h_2 => cases hstep
  | takeInvalid | timeout => exact haction.elim
  | processMessage index prepared totalTime =>
      simp only [CppProj.ThroughputTest.step, processMessageStep] at hstep
      split_ifs at hstep
      split at hstep
      case h_1 =>
        cases hstep
        exact hunfailed
      case h_2 => cases hstep
  | atWriter event =>
      obtain ⟨publisher, hat, rfl⟩ := Option.map_eq_some_iff.mp hstep
      obtain ⟨_, _, _, rfl⟩ := (writerSteps_of_atWriter hat).eq
      exact hunfailed.of_eq rfl hunfailed.phase
  | atReader index event =>
      obtain ⟨subscriber, hat, rfl⟩ := Option.map_eq_some_iff.mp hstep
      exact hunfailed

/-! ## The steps that are left -/

/-- The steps of a test until the loops go on behind it. -/
def Phase.testSteps : Phase → ℕ
  | .rigging _ => 7
  | .starting => 6
  | .startsAcknowledgment => 5
  | .sending => 4
  | .ending => 3
  | .endsAcknowledgment => 2
  | .results _ => 1
  | _ => 0

/-- The steps of the inner loops from this recovery time on, for so many
recovery times in all. -/
def loopSteps (recoveryTimes recovery : ℕ) : List UInt32 → ℕ
  | [] => 0
  | _ :: rest =>
      8 * (recoveryTimes - recovery) + 1 + rest.length * (8 * recoveryTimes + 1)

/-- All steps for these payloads, and the two that end the outer loop. -/
def payloadSteps (recoveryTimes : ℕ) (sizes : List (UInt32 × List UInt32)) : ℕ :=
  (sizes.map fun entry => 6 + entry.2.length * (8 * recoveryTimes + 1)).sum + 2

namespace Publisher

def steps (parameters : Parameters) (publisher : Publisher n) : ℕ :=
  let recoveryTimes := parameters.recoveryTimes.length
  let recovery := publisher.recovery.toNat
  let later := payloadSteps recoveryTimes publisher.sizes.tail
  match publisher.phase with
  | .sizes => payloadSteps recoveryTimes publisher.sizes
  | .endpoints => payloadSteps recoveryTimes publisher.sizes - 1
  | .discovery => payloadSteps recoveryTimes publisher.sizes - 2
  | .demands => loopSteps recoveryTimes recovery publisher.demands + 3 + later
  | .rigging _ | .starting | .startsAcknowledgment | .sending | .ending | .endsAcknowledgment
  | .results _ =>
      publisher.phase.testSteps +
        (loopSteps recoveryTimes (recovery + 1) publisher.demands + 3 + later)
  | .disposing => 2 + later
  | .removing _ => 1 + later
  | .stopping => 1
  | .printed | .returned | .aborted => 0

end Publisher

theorem payloadSteps_cons (recoveryTimes : ℕ) (size : UInt32) (demands : List UInt32)
    (rest : List (UInt32 × List UInt32)) :
    payloadSteps recoveryTimes ((size, demands) :: rest) =
      6 + demands.length * (8 * recoveryTimes + 1) + payloadSteps recoveryTimes rest := by
  rw [payloadSteps, payloadSteps, List.map_cons, List.sum_cons, Nat.add_assoc]

theorem two_le_payloadSteps (recoveryTimes : ℕ) (sizes : List (UInt32 × List UInt32)) :
    2 ≤ payloadSteps recoveryTimes sizes :=
  Nat.le_add_left _ _

theorem loopSteps_zero (recoveryTimes : ℕ) (demands : List UInt32) :
    loopSteps recoveryTimes 0 demands = demands.length * (8 * recoveryTimes + 1) := by
  cases demands with
  | nil => rw [loopSteps, List.length_nil, Nat.zero_mul]
  | cons demand rest => rw [loopSteps, List.length_cons, Nat.add_mul, Nat.one_mul]; omega

/-- A step of the inner loops is one of the eight for a recovery time, or the one
that goes on to the next demand. -/
theorem loopSteps_succ {recoveryTimes recovery : ℕ} (hlt : recovery < recoveryTimes)
    (demand : UInt32) (rest : List UInt32) :
    loopSteps recoveryTimes (recovery + 1) (demand :: rest) + 8 =
      loopSteps recoveryTimes recovery (demand :: rest) := by
  simp only [loopSteps]
  omega

theorem loopSteps_tail_lt (recoveryTimes recovery : ℕ) (demand : UInt32) (rest : List UInt32) :
    loopSteps recoveryTimes 0 rest < loopSteps recoveryTimes recovery (demand :: rest) := by
  rw [loopSteps_zero, loopSteps]
  omega

/-- The counter of the recovery times does not overflow. -/
theorem Current.recovery_succ {parameters : Parameters} {publisher : Publisher n}
    (hcurrent : Current parameters publisher)
    (hcount : parameters.recoveryTimes.length < 2 ^ 16) :
    (publisher.recovery + 1).toNat = publisher.recovery.toNat + 1 := by
  have hlt := (List.getElem?_eq_some_iff.mp hcurrent.recovery).1
  rw [UInt16.toNat_add, UInt16.toNat_one, Nat.mod_eq_of_lt (by omega)]

/-- Whoever goes on to wait for the readers was waiting for them. -/
theorem Advances.waits_of_discovery {parameters : Parameters} {publisher next : Publisher n}
    {commands : List ThroughputCommandType}
    (hadvance : Advances parameters publisher next commands) (hnext : next.phase = .discovery) :
    commands = [] ∧ ∃ wait, publisher.phase = .discovery ∧
      publisher.discoveryWait.Waits (publisher.totalMatches = n * 3) wait ∧
      next = { publisher with discoveryWait := wait } := by
  cases hadvance with
  | waits hphase hwaits => exact ⟨rfl, _, hphase, hwaits, rfl⟩
  | nextDemand hphase => exact Phase.noConfusion (hphase.symm.trans hnext)
  | stop =>
      simp only at hnext
      split_ifs at hnext
  | noSize | announce | found | awake | noDemand | rigged | start | finish | tested | removed =>
      cases hnext

theorem Publisher.steps_advance {parameters : Parameters} {publisher next : Publisher n}
    {commands : List ThroughputCommandType}
    (hcount : parameters.recoveryTimes.length < 2 ^ 16)
    (hplanned : Planned parameters publisher)
    (hadvance : Advances parameters publisher next commands)
    (hnext : next.phase ≠ .discovery) :
    next.steps parameters < publisher.steps parameters ∧ commands.length ≤ 1 := by
  have htwo := two_le_payloadSteps parameters.recoveryTimes.length publisher.sizes
  have hcurrent := hplanned.current
  cases hadvance with
  | noSize hphase =>
      simp only [Publisher.steps, hphase]
      exact ⟨htwo, Nat.zero_le _⟩
  | announce hphase =>
      simp only [Publisher.steps, hphase]
      exact ⟨by omega, Nat.le_refl _⟩
  | found hphase hsizes =>
      simp only [Publisher.steps, hphase, hsizes, payloadSteps_cons, UInt16.toNat_zero,
        loopSteps_zero, List.tail_cons]
      exact ⟨by omega, Nat.zero_le _⟩
  | waits hphase => exact absurd hphase hnext
  | awake hphase hsizes hdemands hrecovery =>
      have hlt := (List.getElem?_eq_some_iff.mp hrecovery).1
      simp only [Publisher.steps, Publisher.awake, hphase, hdemands, Phase.testSteps]
      rw [← loopSteps_succ hlt]
      exact ⟨by omega, Nat.le_refl _⟩
  | nextDemand hphase hsizes hdemands =>
      simp only [Publisher.steps, hphase, hdemands, UInt16.toNat_zero]
      have htail := loopSteps_tail_lt parameters.recoveryTimes.length
        publisher.recovery.toNat
      exact ⟨by gcongr; exact htail _ _, Nat.zero_le _⟩
  | noDemand hphase =>
      simp only [Publisher.steps, hphase]
      exact ⟨by omega, Nat.zero_le _⟩
  | rigged hphase =>
      simp only [Publisher.steps, hphase, Phase.testSteps]
      exact ⟨by omega, Nat.zero_le _⟩
  | start hphase | finish hphase =>
      simp only [Publisher.steps, hphase, Phase.testSteps]
      exact ⟨by omega, Nat.le_refl _⟩
  | tested hphase =>
      rw [hphase] at hcurrent
      simp only [Publisher.steps, hphase, Phase.testSteps,
        (hcurrent trivial).recovery_succ hcount]
      exact ⟨by omega, Nat.zero_le _⟩
  | removed hphase =>
      simp only [Publisher.steps, hphase]
      exact ⟨by omega, Nat.zero_le _⟩
  | stop hphase =>
      simp only [Publisher.steps, hphase]
      refine ⟨?_, Nat.le_refl _⟩
      split_ifs <;> exact Nat.one_pos

theorem Publisher.steps_proceed {parameters : Parameters} {publisher next : Publisher n}
    (hproceed : Proceeds publisher next) (hunfailed : Unfailed next) :
    next.steps parameters < publisher.steps parameters := by
  have hfailure := hunfailed.testFailure
  cases hproceed with
  | prepared hphase hsizes =>
      simp only [Publisher.steps, hphase, hsizes, payloadSteps_cons]
      omega
  | started hphase | sent batches hphase | ended hphase =>
      simp only [Publisher.steps, hphase, Phase.testSteps]
      omega
  | unprepared | unstarted | unended => cases hfailure

theorem Publisher.steps_dispose {parameters : Parameters} {publisher next : Publisher n}
    {commands : List ThroughputCommandType} (hdispose : Disposes publisher next commands)
    (hunfailed : Unfailed next) :
    next.steps parameters < publisher.steps parameters ∧ commands.length ≤ 1 := by
  have hfailure := hunfailed.testFailure
  cases hdispose with
  | disposed hphase =>
      simp only [Publisher.steps, hphase]
      exact ⟨by omega, Nat.le_refl _⟩
  | undisposed => cases hfailure

theorem Publisher.steps_takes {parameters : Parameters} {publisher next : Publisher n}
    {answer : Option ThroughputCommandType} (htake : Takes publisher answer next)
    (hunfailed : Unfailed next) : next.steps parameters ≤ publisher.steps parameters := by
  have hfailure := hunfailed.testFailure
  cases htake with
  | rigging hphase | removing hphase | recorded hphase =>
      simp only [Publisher.steps, hphase, Phase.testSteps, Publisher.stored, Nat.le_refl]
  | tooMany => exact Nat.zero_le _
  | failed => cases hfailure

/-! ## The waits, and what a subscriber has yet to do -/

/-- The wait for the readers, with four steps for every notification: it is sent
and the publisher checks again. -/
def Publisher.waitSteps (publisher : Publisher n) : ℕ :=
  (if publisher.phase = .discovery then publisher.discoveryWait.steps else 0) +
    4 * publisher.notifications

/-- The wait for the writer, with five steps until it is found. -/
def Subscriber.waitSteps (subscriber : Subscriber) : ℕ :=
  (if subscriber.discovering then
      subscriber.discoveryWait.steps + if subscriber.listener.matched = 0 then 5 else 0
    else 0) +
    4 * subscriber.notifications

def Subscriber.stopSteps (subscriber : Subscriber) : ℕ :=
  if subscriber.stopped then 0 else 1

/-- Five steps if the writer has yet to find the reader, or that it has gone. -/
def Publisher.matchSteps (publisher : Publisher n) (index : Fin n)
    (dataReader : Option UInt32) : ℕ :=
  if (publisher.dataWriter.isSome && dataReader.isSome && decide (index ∉ publisher.found)) ||
      (dataReader.isNone && decide (index ∈ publisher.found)) then 5
  else 0

/-- A command that a subscriber handles costs up to thirteen steps, and an answer
one more. -/
def State.subscriberSteps (state : State n) (index : Fin n) : ℕ :=
  13 * (state.log.length - (state.subscribers index).link.position) +
      ((machine.replies state.log).length - (state.subscribers index).link.taken) +
      (state.subscribers index).waitSteps +
      (state.subscribers index).stopSteps +
    state.publisher.matchSteps index (state.subscribers index).dataReader

def State.steps (parameters : Parameters) (state : State n) : ℕ :=
  (19 * n + 3) * state.publisher.steps parameters + state.publisher.waitSteps +
    ∑ index, state.subscriberSteps index

theorem Publisher.waitSteps_of_ne {publisher : Publisher n}
    (hphase : publisher.phase ≠ .discovery) :
    publisher.waitSteps = 4 * publisher.notifications := by
  rw [Publisher.waitSteps, if_neg hphase, Nat.zero_add]

theorem Publisher.le_waitSteps (publisher : Publisher n) :
    4 * publisher.notifications ≤ publisher.waitSteps :=
  Nat.le_add_left _ _

/-- Handling a command costs seven steps of waiting at most. -/
theorem Subscriber.waitSteps_processMessage_le {subscriber : Subscriber}
    (hnone : subscriber.discovering = false) (command : ThroughputCommandType) (prepared : Bool)
    (totalTime : UInt64) :
    (subscriber.processMessage command prepared totalTime).waitSteps ≤
      subscriber.waitSteps + 7 := by
  have hnotifications : (subscriber.processMessage command prepared totalTime).notifications =
      subscriber.notifications := by
    unfold Subscriber.processMessage
    split <;> (try split_ifs) <;> rfl
  rw [Subscriber.waitSteps, Subscriber.waitSteps, hnotifications]
  cases hdiscovering : (subscriber.processMessage command prepared totalTime).discovering with
  | false => simp only [Bool.false_eq_true, if_false]; omega
  | true =>
      rw [(discovering_processMessage hnone hdiscovering).2]
      simp only [if_true, WaitPhase.steps]
      split_ifs <;> omega

theorem Publisher.matchSteps_le (publisher : Publisher n) (index : Fin n)
    (dataReader : Option UInt32) : publisher.matchSteps index dataReader ≤ 5 := by
  unfold Publisher.matchSteps
  split_ifs <;> omega

/-- An answer does not touch the wait for the readers. -/
theorem Publisher.waitSteps_takes {publisher next : Publisher n}
    {answer : Option ThroughputCommandType} (htake : Takes publisher answer next) :
    next.waitSteps = publisher.waitSteps := by
  cases htake with
  | rigging hphase | removing hphase | recorded hphase | tooMany hphase | failed hphase =>
      have hother : publisher.phase ≠ .discovery := by rw [hphase]; exact Phase.noConfusion
      rw [Publisher.waitSteps_of_ne hother]
      exact Publisher.waitSteps_of_ne Phase.noConfusion

theorem Publisher.waitSteps_proceed {publisher next : Publisher n}
    (hproceed : Proceeds publisher next) : next.waitSteps ≤ publisher.waitSteps + 2 := by
  have hle := publisher.le_waitSteps
  cases hproceed with
  | prepared =>
      simp only [Publisher.waitSteps, if_true, WaitPhase.steps] at hle ⊢
      omega
  | unprepared | started | unstarted | sent | ended | unended =>
      rw [Publisher.waitSteps_of_ne Phase.noConfusion]
      exact hle.trans (Nat.le_add_right _ _)

theorem Publisher.waitSteps_dispose {publisher next : Publisher n}
    {commands : List ThroughputCommandType} (hdispose : Disposes publisher next commands) :
    next.waitSteps ≤ publisher.waitSteps := by
  cases hdispose with
  | disposed | undisposed =>
      rw [Publisher.waitSteps_of_ne Phase.noConfusion]
      exact publisher.le_waitSteps

theorem Publisher.notifications_advance {parameters : Parameters} {publisher next : Publisher n}
    {commands : List ThroughputCommandType}
    (hadvance : Advances parameters publisher next commands) :
    next.notifications = publisher.notifications := by
  cases hadvance <;> rfl

theorem Subscriber.stopSteps_le (subscriber : Subscriber) : subscriber.stopSteps ≤ 1 := by
  unfold Subscriber.stopSteps
  split_ifs <;> omega

theorem length_replies_le (view : View) (command : ThroughputCommandType) :
    (machine.step view command).2.length ≤ 1 := by
  have hreact : (react view command).2.length ≤ 1 := by
    unfold react
    split <;> simp
  exact hreact

theorem length_replies_append_le (log : List ThroughputCommandType)
    {commands : List ThroughputCommandType} (hcommands : commands.length ≤ 1) :
    (machine.replies (log ++ commands)).length ≤ (machine.replies log).length + 1 := by
  match commands, hcommands with
  | [], _ =>
      rw [List.append_nil]
      exact Nat.le_succ _
  | [command], _ =>
      rw [Machine.replies_concat, List.length_append]
      have hle := length_replies_le (machine.after log) command
      omega

/-- A step of the publisher gives every subscriber at most nineteen steps more. -/
theorem State.subscriberSteps_publish_le (state : State n) (publisher : Publisher n)
    {commands : List ThroughputCommandType} (hcommands : commands.length ≤ 1) (index : Fin n) :
    (state.publish (publisher, commands)).subscriberSteps index ≤
      state.subscriberSteps index + 19 := by
  have hreplies := length_replies_append_le state.log hcommands
  have hmatch := publisher.matchSteps_le index (state.subscribers index).dataReader
  simp only [State.subscriberSteps, State.publish, List.length_append]
  omega

theorem State.steps_publish_lt {parameters : Parameters} {state : State n}
    {publisher : Publisher n} {commands : List ThroughputCommandType}
    (hless : publisher.steps parameters < state.publisher.steps parameters)
    (hwait : publisher.waitSteps ≤ state.publisher.waitSteps + 2)
    (hcommands : commands.length ≤ 1) :
    (state.publish (publisher, commands)).steps parameters < state.steps parameters := by
  have hsum : ∑ index, (state.publish (publisher, commands)).subscriberSteps index ≤
      ∑ index, state.subscriberSteps index + 19 * n := by
    calc ∑ index, (state.publish (publisher, commands)).subscriberSteps index
        ≤ ∑ index, (state.subscriberSteps index + 19) :=
          Finset.sum_le_sum fun index _ =>
            state.subscriberSteps_publish_le publisher hcommands index
      _ = ∑ index, state.subscriberSteps index + 19 * n := by
          rw [Finset.sum_add_distrib, Finset.sum_const, Finset.card_univ, Fintype.card_fin,
            smul_eq_mul, Nat.mul_comm]
  have hmul : (19 * n + 3) * publisher.steps parameters + (19 * n + 3) ≤
      (19 * n + 3) * state.publisher.steps parameters := by
    rw [← Nat.mul_succ]
    exact Nat.mul_le_mul_left _ hless
  calc (state.publish (publisher, commands)).steps parameters
      = (19 * n + 3) * publisher.steps parameters + publisher.waitSteps +
          ∑ index, (state.publish (publisher, commands)).subscriberSteps index := rfl
    _ < (19 * n + 3) * state.publisher.steps parameters + state.publisher.waitSteps +
          ∑ index, state.subscriberSteps index := by omega
    _ = state.steps parameters := rfl

/-- One subscriber comes a step further, or the publisher with it. -/
theorem State.steps_lt_of_subscriber {parameters : Parameters} {state next : State n}
    (index : Fin n)
    (hpublisher : next.publisher.steps parameters ≤ state.publisher.steps parameters)
    (hindex : next.publisher.waitSteps + next.subscriberSteps index <
      state.publisher.waitSteps + state.subscriberSteps index)
    (hothers : ∀ other, other ≠ index →
      next.subscriberSteps other = state.subscriberSteps other) :
    next.steps parameters < state.steps parameters := by
  have hrest : ∑ other ∈ Finset.univ.erase index, next.subscriberSteps other =
      ∑ other ∈ Finset.univ.erase index, state.subscriberSteps other :=
    Finset.sum_congr rfl fun other hmem => hothers other (Finset.ne_of_mem_erase hmem)
  have hnext := Finset.add_sum_erase Finset.univ next.subscriberSteps (Finset.mem_univ index)
  have hstate := Finset.add_sum_erase Finset.univ state.subscriberSteps (Finset.mem_univ index)
  have hmul : (19 * n + 3) * next.publisher.steps parameters ≤
      (19 * n + 3) * state.publisher.steps parameters := Nat.mul_le_mul_left _ hpublisher
  rw [State.steps, State.steps, ← hnext, ← hstate, hrest]
  omega

theorem State.subscriberSteps_withSubscriber_of_ne (state : State n) {index other : Fin n}
    (hne : other ≠ index) (subscriber : Subscriber) :
    (state.withSubscriber index subscriber).subscriberSteps other =
      state.subscriberSteps other := by
  simp only [State.subscriberSteps, State.withSubscriber, Function.update_of_ne hne]

theorem State.steps_withSubscriber_lt {parameters : Parameters} {state : State n}
    {index : Fin n} {subscriber : Subscriber}
    (hindex : (state.withSubscriber index subscriber).subscriberSteps index <
      state.subscriberSteps index) :
    (state.withSubscriber index subscriber).steps parameters < state.steps parameters :=
  steps_lt_of_subscriber index (Nat.le_refl _) (Nat.add_lt_add_left hindex _) fun _ hne =>
    state.subscriberSteps_withSubscriber_of_ne hne subscriber

/-- Only the wait of the publisher goes on. -/
theorem State.steps_withWait_lt {parameters : Parameters} {state : State n} {wait : WaitPhase}
    {notifications : ℕ}
    (hless : ({ state.publisher with
        discoveryWait := wait
        notifications := notifications } : Publisher n).waitSteps < state.publisher.waitSteps) :
    (state.withPublisher
        { state.publisher with
          discoveryWait := wait
          notifications := notifications }).steps parameters < state.steps parameters :=
  Nat.add_lt_add_right (Nat.add_lt_add_left hless _) _

/-- The readers that the writer has found change at one place, and a notification
is to come. -/
theorem State.steps_storeMatches_lt {parameters : Parameters} {state : State n} (index : Fin n)
    {found : Finset (Fin n)}
    (hindex : (state.publisher.storeMatches found).matchSteps index
        (state.subscribers index).dataReader + 5 ≤
      state.publisher.matchSteps index (state.subscribers index).dataReader)
    (hothers : ∀ other, other ≠ index → (other ∈ found ↔ other ∈ state.publisher.found)) :
    (state.withPublisher (state.publisher.storeMatches found)).steps parameters <
      state.steps parameters := by
  refine steps_lt_of_subscriber index (Nat.le_refl _) ?_ ?_
  · have hwait : (state.publisher.storeMatches found).waitSteps =
        state.publisher.waitSteps + 4 := rfl
    simp only [State.subscriberSteps, State.withPublisher, hwait]
    omega
  · intro other hne
    simp only [State.subscriberSteps, State.withPublisher, Publisher.matchSteps,
      Publisher.storeMatches, hothers other hne]

theorem steps_atWriter {parameters : Parameters} {state : State n} {next : Publisher n}
    {event : WriterEvent n} (hwakeUp : event ≠ .wakeUp)
    (hsteps : WriterSteps state.publisher state.subscribers event next) :
    (state.withPublisher next).steps parameters < state.steps parameters := by
  cases hsteps with
  | @matched index hwriter hreader hnew =>
      have hsome : (state.subscribers index).dataReader.isNone = false := by
        rw [Option.isNone_eq_false_iff]
        exact hreader
      refine State.steps_storeMatches_lt index ?_ ?_
      · simp only [Publisher.matchSteps, Publisher.storeMatches, hwriter, hreader, hsome, hnew,
          Finset.mem_insert_self, not_true_eq_false, not_false_eq_true, decide_true, decide_false,
          Bool.and_self, Bool.and_false, Bool.or_self, Bool.false_eq_true, if_true, if_false,
          Bool.false_and, Bool.or_false, Nat.zero_add, Nat.le_refl]
      · intro other hne
        rw [Finset.mem_insert, or_iff_right hne]
  | @unmatched index hnone hold =>
      refine State.steps_storeMatches_lt index ?_ ?_
      · simp only [Publisher.matchSteps, Publisher.storeMatches, hnone, Option.isSome_none,
          Option.isNone_none, hold, Finset.mem_erase, ne_eq, not_true_eq_false, false_and,
          decide_true, decide_false, Bool.and_self, Bool.and_false, Bool.or_self, Bool.or_true,
          Bool.false_eq_true, if_true, if_false, Bool.false_and, Nat.zero_add, Nat.le_refl]
      · intro other hne
        rw [Finset.mem_erase, and_iff_right hne]
  | notified hpending =>
      apply State.steps_withWait_lt
      have hnotify := state.publisher.discoveryWait.steps_notify_le
      simp only [Publisher.waitSteps]
      split_ifs <;> omega
  | awoken => exact absurd rfl hwakeUp

/-- What happens at a reader is a step of the wait, or concerns the data only. -/
theorem Subscriber.waitSteps_atReader {log : List ThroughputCommandType}
    {dataWriter : Option UInt32} {subscriber next : Subscriber} {event : ReaderEvent}
    (hwaits : SmoothWait log dataWriter subscriber) (hwakeUp : event ≠ .wakeUp)
    (hsteps : ReaderSteps subscriber dataWriter event next) (index : Fin n) :
    next.waitSteps + (if !(Action.atReader index event).isData then 1 else 0) ≤
      subscriber.waitSteps := by
  have hwriter := hwaits.writer
  cases hsteps with
  | found hdiscovering hwait =>
      simp only [Subscriber.waitSteps, hdiscovering, hwait, WaitPhase.steps, if_true,
        Bool.false_eq_true, if_false, Action.isData, Bool.not_false]
      omega
  | waits hdiscovering hgoes =>
      have hless := hgoes.steps_lt
      simp only [Subscriber.waitSteps, hdiscovering, if_true, Action.isData, Bool.not_false]
      omega
  | matched hsome hreader hdiscovering hzero =>
      simp only [Subscriber.waitSteps, Subscriber.storeMatches, hdiscovering, hzero, if_true,
        Action.isData, Bool.not_false, one_ne_zero, if_false]
      omega
  | unmatched hnone hone =>
      have hpositive : subscriber.listener.matched ≠ 0 := by omega
      exact absurd hnone (hwriter hpositive)
  | notified hpending =>
      have hnotify := subscriber.discoveryWait.steps_notify_le
      simp only [Subscriber.waitSteps, Action.isData, Bool.not_false, if_true]
      split_ifs <;> omega
  | awoken => exact absurd rfl hwakeUp
  | called | finished =>
      simp only [Subscriber.waitSteps, Action.isData, Bool.not_true, Bool.false_eq_true, if_false,
        Nat.add_zero, Nat.le_refl]
  | taken sample =>
      simp only [Subscriber.waitSteps, Action.isData, Bool.not_true, Bool.false_eq_true, if_false,
        Nat.add_zero, matched_take, Nat.le_refl]

theorem steps_processMessage {parameters : Parameters} {state next : State n}
    {index : Fin n} {prepared : Bool} {totalTime : UInt64}
    (hstep : processMessageStep state index prepared totalTime = some next) :
    next.steps parameters < state.steps parameters := by
  simp only [processMessageStep] at hstep
  split_ifs at hstep with hready
  split at hstep
  case h_2 => cases hstep
  case h_1 command hcommand =>
    cases hstep
    rw [Bool.or_eq_true, not_or, Bool.not_eq_true, Bool.not_eq_true] at hready
    have hless := (List.getElem?_eq_some_iff.mp hcommand).1
    have hrunning : (state.subscribers index).stopSteps = 1 := by
      rw [Subscriber.stopSteps, hready.2]
      rfl
    apply State.steps_withSubscriber_lt
    simp only [State.subscriberSteps, State.withSubscriber, Function.update_self, hrunning]
    rcases (state.subscribers index).processMessage_cases command prepared totalTime with
      hstopped | ⟨answers, hlink, -⟩
    · rw [hstopped]
      simp only [Subscriber.stopSteps, Subscriber.waitSteps, hready.1, if_true]
      omega
    · rw [hlink]
      have hwait := Subscriber.waitSteps_processMessage_le hready.1 command prepared totalTime
      have hstop := ((state.subscribers index).processMessage command prepared
        totalTime).stopSteps_le
      have hmatch := state.publisher.matchSteps_le index
        ((state.subscribers index).processMessage command prepared totalTime).dataReader
      simp only [Link.handled]
      omega

theorem SmoothState.steps_take {parameters : Parameters} {state next : State n}
    (hsmooth : SmoothState state) {index : Fin n} (hstep : takeStep state index = some next)
    (hunfailed : Unfailed next.publisher) : next.steps parameters < state.steps parameters := by
  simp only [takeStep] at hstep
  split at hstep
  case h_2 => cases hstep
  case h_1 answer hanswer =>
    obtain ⟨publisher, htake, rfl⟩ := Option.map_eq_some_iff.mp hstep
    have htakes := takes_of_take htake
    obtain ⟨-, -, hfound, hwriter, -⟩ := hsmooth.lock.takes htakes
    have hless := (List.getElem?_eq_some_iff.mp hanswer).1
    have hwritten := (hsmooth.lock.rounds.followed index).follows.length_written_le
    have hwait := Publisher.waitSteps_takes htakes
    refine State.steps_lt_of_subscriber index (Publisher.steps_takes htakes hunfailed) ?_ ?_
    · simp only [State.subscriberSteps, State.withSubscriber, State.withPublisher,
        Function.update_self, Publisher.matchSteps, hfound, hwriter, Link.take,
        Subscriber.waitSteps, Subscriber.stopSteps]
      omega
    · intro other hne
      simp only [State.subscriberSteps, State.withSubscriber, State.withPublisher,
        Function.update_of_ne hne, Publisher.matchSteps, hfound, hwriter]

theorem State.subscriberSteps_withSubscriber_self (state : State n) {index : Fin n}
    {subscriber : Subscriber} (hlink : subscriber.link = (state.subscribers index).link)
    (hreader : subscriber.dataReader = (state.subscribers index).dataReader)
    (hstopped : subscriber.stopped = (state.subscribers index).stopped) :
    (state.withSubscriber index subscriber).subscriberSteps index +
        (state.subscribers index).waitSteps =
      state.subscriberSteps index + subscriber.waitSteps := by
  simp only [State.subscriberSteps, State.withSubscriber, Function.update_self, hlink, hreader,
    Subscriber.stopSteps, hstopped]
  omega

theorem SmoothState.steps_atReader {parameters : Parameters} {state : State n}
    (hsmooth : SmoothState state) {index : Fin n} {subscriber : Subscriber} {event : ReaderEvent}
    (hwakeUp : event ≠ .wakeUp)
    (hsteps : ReaderSteps (state.subscribers index) state.publisher.dataWriter event subscriber) :
    (state.withSubscriber index subscriber).steps parameters +
        (if !(Action.atReader index event).isData then 1 else 0) ≤ state.steps parameters := by
  obtain ⟨hlink, hview, hstopped⟩ := hsteps.frame
  have hreader : subscriber.dataReader = (state.subscribers index).dataReader :=
    congrArg View.dataReader hview
  have hless := Subscriber.waitSteps_atReader (hsmooth.waits index) hwakeUp hsteps index
  have hsame := state.subscriberSteps_withSubscriber_self hlink hreader hstopped
  have hrest : ∑ other ∈ Finset.univ.erase index,
        (state.withSubscriber index subscriber).subscriberSteps other =
      ∑ other ∈ Finset.univ.erase index, state.subscriberSteps other :=
    Finset.sum_congr rfl fun other hmem =>
      state.subscriberSteps_withSubscriber_of_ne (Finset.ne_of_mem_erase hmem) subscriber
  have hnext := Finset.add_sum_erase Finset.univ
    (state.withSubscriber index subscriber).subscriberSteps (Finset.mem_univ index)
  have hstate := Finset.add_sum_erase Finset.univ state.subscriberSteps (Finset.mem_univ index)
  have hpublisher : (state.withSubscriber index subscriber).publisher = state.publisher := rfl
  rw [State.steps, State.steps, ← hnext, ← hstate, hrest, hpublisher]
  omega

/-- What a smooth run keeps. -/
structure GoesOn (parameters : Parameters) (state : State n) : Prop where
  smooth : SmoothState state
  planned : Planned parameters state.publisher
  unfailed : Unfailed state.publisher

theorem State.steps_proceed_lt {parameters : Parameters} {state : State n}
    {next : Publisher n} (hproceed : Proceeds state.publisher next) (hunfailed : Unfailed next) :
    (state.withPublisher next).steps parameters < state.steps parameters := by
  rw [← publish_nil]
  exact State.steps_publish_lt (Publisher.steps_proceed hproceed hunfailed)
    (Publisher.waitSteps_proceed hproceed) (Nat.zero_le _)

/-- The publisher comes a step further, or its wait does. -/
theorem GoesOn.steps_advance {parameters : Parameters} {state : State n} {next : Publisher n}
    {commands : List ThroughputCommandType}
    (hcount : parameters.recoveryTimes.length < 2 ^ 16) (hgoesOn : GoesOn parameters state)
    (hadvance : Advances parameters state.publisher next commands) :
    (state.publish (next, commands)).steps parameters < state.steps parameters := by
  by_cases hnext : next.phase = .discovery
  · obtain ⟨rfl, wait, hphase, hwaits, rfl⟩ := hadvance.waits_of_discovery hnext
    rw [publish_nil]
    apply State.steps_withWait_lt
    rw [Publisher.waitSteps, Publisher.waitSteps, if_pos hphase, if_pos hphase]
    exact Nat.add_lt_add_right hwaits.steps_lt _
  · obtain ⟨hless, hcommands⟩ :=
      Publisher.steps_advance hcount hgoesOn.planned hadvance hnext
    have hwait := state.publisher.le_waitSteps
    refine State.steps_publish_lt hless ?_ hcommands
    rw [Publisher.waitSteps_of_ne hnext, Publisher.notifications_advance hadvance]
    exact hwait.trans (Nat.le_add_right _ _)

theorem GoesOn.steps_step {parameters : Parameters} {state next : State n} {action : Action n}
    (hcount : parameters.recoveryTimes.length < 2 ^ 16) (hgoesOn : GoesOn parameters state)
    (haction : Smooth state action)
    (hstep : CppProj.ThroughputTest.step parameters state action = some next) :
    next.steps parameters + (if !action.isData then 1 else 0) ≤ state.steps parameters := by
  have hunfailed := hgoesOn.unfailed.step hgoesOn.smooth.lock haction hstep
  cases action with
  | advance =>
      obtain ⟨⟨publisher, commands⟩, hadvance, rfl⟩ := Option.map_eq_some_iff.mp hstep
      exact hgoesOn.steps_advance hcount (advances_of_advance hadvance)
  | prepare prepared =>
      obtain ⟨publisher, hprepare, rfl⟩ := Option.map_eq_some_iff.mp hstep
      exact State.steps_proceed_lt (proceeds_of_prepare hprepare) hunfailed
  | dispose prepared =>
      obtain ⟨⟨publisher, commands⟩, hdispose, rfl⟩ := Option.map_eq_some_iff.mp hstep
      have hdisposes := disposes_of_dispose hdispose
      obtain ⟨hless, hcommands⟩ := Publisher.steps_dispose hdisposes hunfailed
      have hwait := Publisher.waitSteps_dispose hdisposes
      exact State.steps_publish_lt hless (hwait.trans (Nat.le_add_right _ _)) hcommands
  | acknowledge inTime =>
      obtain ⟨publisher, hacknowledge, rfl⟩ := Option.map_eq_some_iff.mp hstep
      exact State.steps_proceed_lt (proceeds_of_acknowledge hacknowledge) hunfailed
  | send batches =>
      obtain ⟨publisher, hsend, rfl⟩ := Option.map_eq_some_iff.mp hstep
      exact State.steps_proceed_lt (proceeds_of_send hsend) hunfailed
  | take index => exact hgoesOn.smooth.steps_take hstep hunfailed
  | takeInvalid | timeout => exact haction.elim
  | processMessage index prepared totalTime => exact steps_processMessage hstep
  | atWriter event =>
      obtain ⟨publisher, hat, rfl⟩ := Option.map_eq_some_iff.mp hstep
      exact steps_atWriter (by rintro rfl; exact haction.elim) (writerSteps_of_atWriter hat)
  | atReader index event =>
      obtain ⟨subscriber, hat, rfl⟩ := Option.map_eq_some_iff.mp hstep
      exact hgoesOn.smooth.steps_atReader (by rintro rfl; exact haction.elim)
        (readerSteps_of_atReader hat)

theorem GoesOn.step {parameters : Parameters} {state next : State n} {action : Action n}
    (hrecovery : parameters.recoveryTimes ≠ [])
    (hcount : parameters.recoveryTimes.length < 2 ^ 16) (hsome : 0 < n)
    (hgoesOn : GoesOn parameters state) (haction : Smooth state action)
    (hstep : CppProj.ThroughputTest.step parameters state action = some next) :
    GoesOn parameters next where
  smooth := hgoesOn.smooth.step hrecovery haction hstep
  planned := hgoesOn.planned.step hcount hsome hstep haction.unrepeated
  unfailed := hgoesOn.unfailed.step hgoesOn.smooth.lock haction hstep

theorem GoesOn.initial {parameters : Parameters}
    (hdemands : ∀ entry ∈ parameters.demandPayload, entry.2 ≠ []) :
    GoesOn parameters (State.initial parameters : State n) where
  smooth := SmoothState.initial hdemands
  planned := Planned.initial parameters
  unfailed := ⟨rfl, Phase.noConfusion⟩

theorem State.steps_initial (parameters : Parameters) :
    (State.initial parameters : State n).steps parameters =
      (19 * n + 3) * payloadSteps parameters.recoveryTimes.length parameters.demandPayload + n := by
  have hone : ∀ index, (State.initial parameters : State n).subscriberSteps index = 1 :=
    fun _ => rfl
  rw [State.steps, Finset.sum_congr rfl fun index _ => hone index, Finset.sum_const,
    Finset.card_univ, Fintype.card_fin, smul_eq_mul, Nat.mul_one]
  rfl

/-- The run can be continued or has printed its results, unless a report was too
large, and the steps other than the delivery of data are linear in the number of
tests times the number of subscribers. -/
structure ComesToEnd (parameters : Parameters) (actions : List (Action n)) (state : State n) :
    Prop where
  goesOn : state.publisher.phase.ended = false → CanGoOn parameters state
  ended : state.publisher.phase.ended = true →
    state.publisher.phase = .printed ∨ state.publisher.phase = .aborted
  steps : actions.countP (fun action => !action.isData) ≤
    (19 * n + 3) * payloadSteps parameters.recoveryTimes.length parameters.demandPayload + n

theorem comesToEnd_of_run {parameters : Parameters} {actions : List (Action n)} {state : State n}
    (hrun : (system parameters).run (State.initial parameters) actions = some state)
    (hsmooth : (system parameters).StepsMeet Smooth (State.initial parameters) actions)
    (hrecovery : parameters.recoveryTimes ≠ [])
    (hcount : parameters.recoveryTimes.length < 2 ^ 16)
    (hdemands : ∀ entry ∈ parameters.demandPayload, entry.2 ≠ []) (hsome : 0 < n) :
    ComesToEnd parameters actions state := by
  have hgoesOn : GoesOn parameters state := run_preserves_of_stepsMeet _
    (fun _ _ _ hinv haction hstep => hinv.step hrecovery hcount hsome haction hstep)
    (GoesOn.initial hdemands) hsmooth hrun
  constructor
  case goesOn => exact hgoesOn.smooth.canGoOn
  case ended =>
    intro hended
    cases hphase : state.publisher.phase with
    | printed => exact Or.inl rfl
    | aborted => exact Or.inr rfl
    | returned => exact absurd hphase hgoesOn.unfailed.phase
    | _ =>
        rw [hphase] at hended
        cases hended
  case steps =>
    have hle := run_countP_le (GoesOn parameters) (State.steps parameters)
      (fun action : Action n => !action.isData)
      (fun _ _ _ hinv haction hstep =>
        ⟨hinv.step hrecovery hcount hsome haction hstep, hinv.steps_step hcount haction hstep⟩)
      (GoesOn.initial hdemands) hsmooth hrun
    rw [State.steps_initial] at hle
    exact (Nat.le_add_left _ _).trans hle

/-- Publisher and subscriber sleep until they have found each other, and some data
has come before the listener is disabled. -/
def smoothRun : List (Action 1) :=
  [.advance, .prepare true, .advance, .advance, .processMessage lone true 0,
    .atReader lone .awaitWriter, .atWriter (.matched lone), .atWriter .notify, .advance, .advance,
    .advance, .atReader lone .awaitWriter, .atReader lone .matched, .atReader lone .notify,
    .atReader lone .awaitWriter, .atReader lone .awaitWriter, .processMessage lone true 0,
    .take lone, .advance, .advance, .acknowledge true, .send 4, .atReader lone .dataAvailable,
    .atReader lone (.takeNextSample (some ⟨true, 1⟩)), .processMessage lone true 0, .advance]

theorem run_smoothRun :
    ∃ state, (system shortTest).run (State.initial shortTest) smoothRun = some state ∧
      state.publisher.phase = .endsAcknowledgment :=
  ⟨_, rfl, rfl⟩

theorem comesToEnd_of_run_smoothRun :
    ∃ state, (system shortTest).run (State.initial shortTest) smoothRun = some state ∧
      ComesToEnd shortTest smoothRun state := by
  obtain ⟨state, hrun, -⟩ := run_smoothRun
  refine ⟨state, hrun, comesToEnd_of_run hrun (by decide) (List.cons_ne_nil _ _) (by decide) ?_
    Nat.one_pos⟩
  simp only [shortTest, List.forall_mem_singleton]
  exact List.cons_ne_nil _ _

/-- Without a demand the writer is gone before the subscriber has found it. -/
example :
    ((system ⟨[(16, [])], [7]⟩).run (State.initial ⟨[(16, [])], [7]⟩)
      ([.advance, .prepare true, .processMessage lone true 0, .atWriter (.matched lone), .advance,
         .advance, .dispose true] : List (Action 1))).any
      (fun state => state.publisher.phase == .removing 0 && state.publisher.dataWriter.isNone &&
        (state.subscribers lone).discovering) = true := by
  decide

/-- A notification that comes between the check and the sleep is lost: the publisher
sleeps although the reader has been found. -/
example :
    ((system shortTest).run (State.initial shortTest)
      ([.advance, .prepare true, .advance, .processMessage lone true 0, .atWriter (.matched lone),
         .atWriter .notify, .advance] : List (Action 1))).any
      (fun state => state.publisher.discoveryWait == .blocked &&
        state.publisher.totalMatches == 3 && state.publisher.notifications == 0) = true := by
  decide

end CppProj.ThroughputTest
