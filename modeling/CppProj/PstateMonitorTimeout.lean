import CppProj.PstateMonitor

/-!
# When the time-out of `PstateMonitor` may come

`resetTimer` asks for a restart by storing into `remaining_ms_` the value that is
already there, so `timerLoop` never sees a request and times out a fixed time
after its start.  The law that no jump from P to NON_P precedes the call of
`on_timeout_callback_` by less than the duration holds in the runs without a
jump while the timer is timing, up to the call.
-/

namespace CppProj.PstateMonitor

variable {config : Config} {state next : State}

/-! ## The request that is never seen -/

/-- `remaining_ms_` always holds the whole duration, and the reset branch of
`timerLoop` is never entered. -/
structure RemainingInvariant (config : Config) (state : State) : Prop where
  remaining : state.remainingMs = config.totalDurationMs
  branch : state.thread ≠ some .resetStart ∧
    ∀ start, state.thread ≠ some (.resetRemaining start)

theorem initial_remainingInvariant (config : Config) :
    RemainingInvariant config (initial config) := by
  constructor <;> simp [initial]

theorem RemainingInvariant.threadStep (hinv : RemainingInvariant config state)
    {phase : ThreadPhase} (hthread : state.thread = some phase)
    (hstep : threadStep config state phase = some next) : RemainingInvariant config next := by
  have hremaining := hinv.remaining
  cases phase with
  | readStart | unlock start =>
      cases hstep
      exact ⟨hremaining, by simp, by simp⟩
  | expire reading =>
      cases hstep
      exact ⟨hremaining, by simp, by simp⟩
  | testLoop start =>
      cases hstep
      refine ⟨hremaining, ?_, ?_⟩ <;> simp only <;> split_ifs <;> simp
  | checkElapsed start =>
      cases hstep
      refine ⟨hremaining, ?_, ?_⟩ <;> simp only <;> split_ifs <;> simp
  | callback reading =>
      simp only [PstateMonitor.threadStep] at hstep
      split_ifs at hstep <;> cases hstep <;> exact ⟨hremaining, by simp, by simp⟩
  | lock start | sleeping start wake =>
      simp only [PstateMonitor.threadStep] at hstep
      split_ifs at hstep
      cases hstep
      exact ⟨hremaining, by simp, by simp⟩
  | testReset start =>
      simp only [PstateMonitor.threadStep, if_neg (not_not.mpr hremaining)] at hstep
      cases hstep
      exact ⟨hremaining, by simp, by simp⟩
  | resetStart => exact (hinv.branch.1 hthread).elim
  | resetRemaining start => exact (hinv.branch.2 start hthread).elim
  | finished => cases hstep

theorem RemainingInvariant.messageStep (hinv : RemainingInvariant config state)
    (hstep : messageStep config state = some next) : RemainingInvariant config next := by
  unfold PstateMonitor.messageStep at hstep
  cases hmessage : state.message with
  | idle => simp [hmessage] at hstep
  | update canData =>
      simp only [hmessage] at hstep
      cases hstep
      split_ifs <;> exact ⟨hinv.remaining, hinv.branch⟩
  | resetStore =>
      simp only [hmessage] at hstep
      cases hstep
      exact ⟨rfl, hinv.branch⟩
  | checkJump | resetTest | unlock =>
      simp only [hmessage] at hstep
      cases hstep
      exact ⟨hinv.remaining, hinv.branch⟩

theorem RemainingInvariant.controlStep (hinv : RemainingInvariant config state)
    (hstep : controlStep state = some next) : RemainingInvariant config next := by
  unfold PstateMonitor.controlStep at hstep
  cases hcontrol : state.control with
  | ready | destroyed => simp [hcontrol] at hstep
  | startTest | startStore | stopStore destroying =>
      simp only [hcontrol] at hstep
      cases hstep
      exact ⟨hinv.remaining, hinv.branch⟩
  | startAssign =>
      simp only [hcontrol] at hstep
      split at hstep
      · cases hstep
        exact ⟨hinv.remaining, by simp, by simp⟩
      · cases hstep
  | stopTest destroying =>
      simp only [hcontrol] at hstep
      cases hstep
      split_ifs <;> exact ⟨hinv.remaining, hinv.branch⟩
  | stopJoin destroying =>
      simp only [hcontrol] at hstep
      split at hstep
      · cases hstep
        exact ⟨hinv.remaining, hinv.branch⟩
      · cases hstep
        exact ⟨hinv.remaining, by simp [returnFromStop], by simp [returnFromStop]⟩
      · cases hstep

/-! ## The law -/

/-- The frame that is processed takes the gear state from P to NON_P. -/
def State.jumping (state : State) : Bool :=
  match state.message with
  | .update canData => state.currentPState == .P && parseCanSignal canData == .NON_P
  | _ => false

/-- `timerLoop` has found the timer running and reads the clock next, or has timed
out on its reading and not yet called the callback. -/
def ThreadPhase.timing : ThreadPhase → Bool
  | .checkElapsed _ | .expire _ | .callback _ => true
  | _ => false

def State.timing (state : State) : Bool :=
  state.timerState == .RUNNING || state.thread.any ThreadPhase.timing

/-- No frame takes the gear state from P to NON_P while the timer is timing. -/
def NoJumpWhileTiming (state : State) : Action → Prop
  | .message => state.jumping = true → state.timing = false
  | _ => True

instance (state : State) (action : Action) : Decidable (NoJumpWhileTiming state action) :=
  match action with
  | .message => inferInstanceAs (Decidable (_ → _))
  | .tick _ | .startMonitor | .stopMonitor | .destroy | .control | .processCanMessage _
  | .thread => isTrue trivial

/-- The duration has passed since the start, and all jumps before the call came
before the start. -/
structure Timeout.Lawful (config : Config) (timeout : Timeout) : Prop where
  passed : timeout.startedAt + config.duration ≤ timeout.calledAt
  quiet : ∀ jump ∈ timeout.jumps, jump ≤ timeout.startedAt

/-- What the position of `timerLoop` tells about its start and its time-out. -/
def ThreadHolds (config : Config) (state : State) : ThreadPhase → Prop
  | .testLoop start | .checkElapsed start | .lock start | .testReset start
  | .resetRemaining start | .unlock start | .sleeping start _ => state.startedAt ≤ start
  | .expire reading | .callback reading =>
      state.startedAt + config.duration ≤ reading ∧ reading ≤ state.now
  | .readStart | .resetStart | .finished => True

structure TimeoutInvariant (config : Config) (state : State) : Prop where
  jumps : ∀ jump ∈ state.jumps, jump ≤ state.now
  started : state.startedAt ≤ state.now
  quiet : state.timing = true → ∀ jump ∈ state.jumps, jump ≤ state.startedAt
  thread : ∀ phase, state.thread = some phase → ThreadHolds config state phase
  timeouts : ∀ timeout ∈ state.timeouts, timeout.Lawful config
  starting : state.control = .startStore ∨ state.control = .startAssign → state.thread = none
  assigning : state.control = .startAssign → state.timerState = .RUNNING
  stopped : state.timerState = .STOPPED →
    state.thread = none ∨ ∃ destroying, state.control = .stopJoin destroying

theorem initial_timeoutInvariant (config : Config) : TimeoutInvariant config (initial config) := by
  constructor <;> simp [initial]

namespace TimeoutInvariant

/-- The reading on which the loop times out comes at least the duration after the
start. -/
theorem due_of_elapsed (hinv : TimeoutInvariant config state) {start : ℤ}
    (hthread : state.thread = some (.checkElapsed start))
    (helapsed : (config.totalDurationMs.toNat : ℤ) ≤ elapsedMs start state.now) :
    state.startedAt + config.duration ≤ state.now ∧ state.now ≤ state.now := by
  have hstart : state.startedAt ≤ start := hinv.thread _ hthread
  refine ⟨?_, le_refl _⟩
  simp only [elapsedMs, Config.duration] at helapsed ⊢
  omega

theorem timing_of_thread {phase : ThreadPhase} (hthread : state.thread = some phase)
    (htiming : phase.timing = true) : state.timing = true := by
  simp [State.timing, hthread, htiming]

theorem not_starting (hinv : TimeoutInvariant config state) {phase : ThreadPhase}
    (hthread : state.thread = some phase) :
    ¬ (state.control = .startStore ∨ state.control = .startAssign) := by
  intro hcontrol
  rw [hinv.starting hcontrol] at hthread
  cases hthread

theorem moveThread (hinv : TimeoutInvariant config state) {phase : ThreadPhase}
    (hthread : state.thread = some phase) (after : ThreadPhase)
    (hafter : ThreadHolds config state after)
    (hchecked : after.timing = true → state.timing = true) :
    TimeoutInvariant config { state with thread := some after } := by
  have hstarting := hinv.not_starting hthread
  have hstopped : state.timerState = .STOPPED →
      ∃ destroying, state.control = .stopJoin destroying := by
    intro hcase
    apply (hinv.stopped hcase).resolve_left
    rw [hthread]
    simp
  refine ⟨hinv.jumps, hinv.started, ?_, ?_, hinv.timeouts, fun h => (hstarting h).elim,
    fun h => (hstarting (Or.inr h)).elim, fun h => Or.inr (hstopped h)⟩
  · intro htiming
    apply hinv.quiet
    simp only [State.timing, Bool.or_eq_true, Option.any_some] at htiming
    rcases htiming with hrunning | hafter
    · simp [State.timing, hrunning]
    · exact hchecked hafter
  · rintro found ⟨⟩
    exact hafter

theorem threadStep (hinv : TimeoutInvariant config state) {phase : ThreadPhase}
    (hthread : state.thread = some phase)
    (hstep : threadStep config state phase = some next) : TimeoutInvariant config next := by
  have hholds := hinv.thread phase hthread
  have hstarting := hinv.not_starting hthread
  have hmove := hinv.moveThread hthread
  cases phase with
  | readStart =>
      cases hstep
      exact hmove _ hinv.started (by simp [ThreadPhase.timing])
  | testLoop start =>
      cases hstep
      by_cases hrunning : state.timerState = .RUNNING
      · rw [if_pos hrunning]
        exact hmove _ hholds fun _ => by simp [State.timing, hrunning]
      · rw [if_neg hrunning]
        exact hmove _ trivial (by simp [ThreadPhase.timing])
  | checkElapsed start =>
      cases hstep
      by_cases helapsed : (config.totalDurationMs.toNat : ℤ) ≤ elapsedMs start state.now
      · rw [if_pos helapsed]
        exact hmove _ (hinv.due_of_elapsed hthread helapsed)
          fun _ => timing_of_thread hthread rfl
      · rw [if_neg helapsed]
        exact hmove _ hholds (by simp [ThreadPhase.timing])
  | expire reading =>
      cases hstep
      refine ⟨hinv.jumps, hinv.started,
        fun _ => hinv.quiet (timing_of_thread hthread rfl), ?_, hinv.timeouts,
        fun h => (hstarting h).elim, fun h => (hstarting (Or.inr h)).elim, by simp⟩
      rintro found ⟨⟩
      exact hholds
  | callback reading =>
      have hfinished := hmove .finished trivial (by simp [ThreadPhase.timing])
      simp only [PstateMonitor.threadStep] at hstep
      split_ifs at hstep with hcallback
      · cases hstep
        refine ⟨hfinished.jumps, hfinished.started, hfinished.quiet, hfinished.thread, ?_,
          hfinished.starting, hfinished.assigning, hfinished.stopped⟩
        intro timeout hmem
        rcases List.mem_append.mp hmem with hold | hnew
        · exact hinv.timeouts timeout hold
        · rw [List.mem_singleton] at hnew
          subst hnew
          exact ⟨hholds.1.trans hholds.2, hinv.quiet (timing_of_thread hthread rfl)⟩
      · cases hstep
        exact hfinished
  | lock start | sleeping start wake =>
      simp only [PstateMonitor.threadStep] at hstep
      split_ifs at hstep
      cases hstep
      exact hmove _ hholds (by simp [ThreadPhase.timing])
  | testReset start =>
      cases hstep
      by_cases hreset : state.remainingMs ≠ config.totalDurationMs
      · rw [if_pos hreset]
        exact hmove _ trivial (by simp [ThreadPhase.timing])
      · rw [if_neg hreset]
        exact hmove _ hholds (by simp [ThreadPhase.timing])
  | resetStart =>
      cases hstep
      exact hmove _ hinv.started (by simp [ThreadPhase.timing])
  | resetRemaining start =>
      cases hstep
      have hunlock := hmove (.unlock start) hholds (by simp [ThreadPhase.timing])
      refine ⟨hunlock.jumps, hunlock.started, hunlock.quiet, ?_, hunlock.timeouts,
        hunlock.starting, hunlock.assigning, hunlock.stopped⟩
      rintro found ⟨⟩
      exact hholds
  | unlock start =>
      cases hstep
      exact hmove _ hholds (by simp [ThreadPhase.timing])
  | finished => cases hstep

theorem message (hinv : TimeoutInvariant config state) (lastPState currentPState : PState)
    (remainingMs : UInt64) (message : MessagePhase) :
    TimeoutInvariant config
      { state with
        lastPState := lastPState
        currentPState := currentPState
        remainingMs := remainingMs
        message := message } := by
  refine ⟨hinv.jumps, hinv.started, hinv.quiet, ?_, hinv.timeouts, hinv.starting,
    hinv.assigning, hinv.stopped⟩
  intro phase hphase
  have hholds := hinv.thread phase hphase
  cases phase <;> exact hholds

theorem jump (hinv : TimeoutInvariant config state) (hidle : state.timing = false)
    (lastPState currentPState : PState) (message : MessagePhase) :
    TimeoutInvariant config
      { state with
        lastPState := lastPState
        currentPState := currentPState
        message := message
        jumps := state.jumps ++ [state.now] } := by
  constructor
  case jumps =>
    intro jump hmem
    rcases List.mem_append.mp hmem with hold | hnew
    · exact hinv.jumps jump hold
    · rw [List.mem_singleton] at hnew
      exact le_of_eq hnew
  case started => exact hinv.started
  case quiet =>
    intro htiming
    exact (Bool.false_ne_true (hidle.symm.trans htiming)).elim
  case thread =>
    intro phase hphase
    have hholds := hinv.thread phase hphase
    cases phase <;> exact hholds
  case timeouts => exact hinv.timeouts
  case starting => exact hinv.starting
  case assigning => exact hinv.assigning
  case stopped => exact hinv.stopped

theorem messageStep (hinv : TimeoutInvariant config state)
    (hidle : state.jumping = true → state.timing = false)
    (hstep : messageStep config state = some next) : TimeoutInvariant config next := by
  unfold PstateMonitor.messageStep at hstep
  cases hmessage : state.message with
  | idle => simp [hmessage] at hstep
  | update canData =>
      simp only [hmessage] at hstep
      cases hstep
      split_ifs with hjump
      · refine hinv.jump (hidle ?_) _ _ _
        simpa [State.jumping, hmessage, State.checkPToNonPJump] using hjump
      · exact hinv.message _ _ state.remainingMs _
  | checkJump | resetTest | unlock =>
      simp only [hmessage] at hstep
      cases hstep
      exact hinv.message state.lastPState state.currentPState state.remainingMs _
  | resetStore =>
      simp only [hmessage] at hstep
      cases hstep
      exact hinv.message state.lastPState state.currentPState _ _

theorem control (hinv : TimeoutInvariant config state) {control : ControlPhase}
    {returnedJoinable : Bool}
    (hstarting : control = .startStore → state.thread = none) (hassign : control ≠ .startAssign)
    (hstopped : state.timerState = .STOPPED →
      state.thread = none ∨ ∃ destroying, control = .stopJoin destroying) :
    TimeoutInvariant config
      { state with control := control, returnedJoinable := returnedJoinable } := by
  refine ⟨hinv.jumps, hinv.started, hinv.quiet, ?_, hinv.timeouts,
    fun h => hstarting (h.resolve_right hassign), fun h => (hassign h).elim, hstopped⟩
  intro phase hphase
  have hholds := hinv.thread phase hphase
  cases phase <;> exact hholds

/-- The timer starts now, so all jumps came before. -/
theorem startStore (hinv : TimeoutInvariant config state) (hthread : state.thread = none) :
    TimeoutInvariant config
      { state with
        timerState := .RUNNING
        startedAt := state.now
        control := .startAssign } := by
  refine ⟨hinv.jumps, le_refl _, fun _ => hinv.jumps, ?_, hinv.timeouts, fun _ => hthread,
    fun _ => rfl, by simp⟩
  intro phase hphase
  rw [show state.thread = some phase from hphase] at hthread
  cases hthread

theorem setThread (hinv : TimeoutInvariant config state) {thread : Option ThreadPhase}
    (hthread : thread = none ∨ thread = some .readStart) {control : ControlPhase}
    {returnedJoinable : Bool} (hready : control = .ready ∨ control = .destroyed)
    (hstopped : state.timerState = .STOPPED → thread = none) :
    TimeoutInvariant config
      { state with
        thread := thread
        control := control
        returnedJoinable := returnedJoinable } := by
  constructor
  case jumps => exact hinv.jumps
  case started => exact hinv.started
  case quiet =>
    intro htiming
    apply hinv.quiet
    have hrunning : state.timerState = .RUNNING := by
      rcases hthread with rfl | rfl <;> simpa [State.timing, ThreadPhase.timing] using htiming
    simp [State.timing, hrunning]
  case thread =>
    intro phase hphase
    rcases hthread with rfl | rfl
    · cases hphase
    · cases hphase
      trivial
  case timeouts => exact hinv.timeouts
  case starting => rcases hready with rfl | rfl <;> simp
  case assigning => rcases hready with rfl | rfl <;> simp
  case stopped => exact fun h => Or.inl (hstopped h)

theorem none_of_stopped (hinv : TimeoutInvariant config state)
    (hcontrol : ∀ destroying, state.control ≠ .stopJoin destroying)
    (hstopped : state.timerState = .STOPPED) : state.thread = none := by
  apply (hinv.stopped hstopped).resolve_right
  rintro ⟨destroying, hjoin⟩
  exact hcontrol destroying hjoin

theorem controlStep (hinv : TimeoutInvariant config state)
    (hstep : controlStep state = some next) : TimeoutInvariant config next := by
  unfold PstateMonitor.controlStep at hstep
  cases hcontrol : state.control with
  | ready | destroyed => simp [hcontrol] at hstep
  | startTest =>
      have hnone := hinv.none_of_stopped (by simp [hcontrol])
      simp only [hcontrol] at hstep
      cases hstep
      split_ifs with hcase
      · exact hinv.control (fun _ => hnone hcase) (by simp) fun h => Or.inl (hnone h)
      · exact hinv.control (by simp) (by simp) fun h => Or.inl (hnone h)
  | startStore =>
      simp only [hcontrol] at hstep
      cases hstep
      exact hinv.startStore (hinv.starting (Or.inl hcontrol))
  | startAssign =>
      simp only [hcontrol] at hstep
      split at hstep
      next hthread =>
        cases hstep
        apply hinv.setThread (Or.inr rfl) (Or.inl rfl)
        intro hcase
        rw [hinv.assigning hcontrol] at hcase
        cases hcase
      next => cases hstep
  | stopTest destroying =>
      have hnone := hinv.none_of_stopped (by simp [hcontrol])
      simp only [hcontrol] at hstep
      cases hstep
      split_ifs with hrunning
      · exact hinv.control (by simp) (by simp) (by simp [hrunning])
      · exact hinv.control (by cases destroying <;> simp) (by cases destroying <;> simp)
          fun h => Or.inl (hnone h)
  | stopStore destroying =>
      simp only [hcontrol] at hstep
      cases hstep
      refine ⟨hinv.jumps, hinv.started, ?_, ?_, hinv.timeouts, by simp, by simp,
        fun _ => Or.inr ⟨destroying, rfl⟩⟩
      · intro htiming
        apply hinv.quiet
        simp only [State.timing, Bool.or_eq_true] at htiming ⊢
        exact Or.inr (htiming.resolve_left (by simp))
      · intro phase hphase
        have hholds := hinv.thread phase hphase
        cases phase <;> exact hholds
  | stopJoin destroying =>
      simp only [hcontrol] at hstep
      split at hstep
      next hthread =>
        cases hstep
        exact hinv.control (by cases destroying <;> simp) (by cases destroying <;> simp)
          fun _ => Or.inl hthread
      next =>
        cases hstep
        exact hinv.setThread (Or.inl rfl) (by cases destroying <;> simp) fun _ => rfl
      next => cases hstep

theorem tick (hinv : TimeoutInvariant config state) {now : ℤ} (hle : state.now ≤ now) :
    TimeoutInvariant config { state with now := now } := by
  constructor
  case jumps =>
    intro jump hmem
    exact le_trans (hinv.jumps jump hmem) hle
  case started => exact le_trans hinv.started hle
  case quiet => exact hinv.quiet
  case thread =>
    intro phase hphase
    have hholds := hinv.thread phase hphase
    cases phase with
    | expire reading | callback reading => exact ⟨hholds.1, hholds.2.trans hle⟩
    | _ => exact hholds
  case timeouts => exact hinv.timeouts
  case starting => exact hinv.starting
  case assigning => exact hinv.assigning
  case stopped => exact hinv.stopped

end TimeoutInvariant

theorem step_timeoutInvariant {action : Action} (hinv : TimeoutInvariant config state)
    (hidle : NoJumpWhileTiming state action) (hstep : step config state action = some next) :
    TimeoutInvariant config next := by
  have halive := not_destroyed_of_step hstep
  unfold step at hstep
  rw [if_neg halive] at hstep
  cases action with
  | tick now =>
      simp only at hstep
      split_ifs at hstep with hle
      cases hstep
      exact hinv.tick hle
  | startMonitor | stopMonitor | destroy =>
      simp only at hstep
      split_ifs at hstep with hready
      cases hstep
      apply hinv.control (by simp) (by simp)
      intro hcase
      exact Or.inl ((hinv.stopped hcase).resolve_right (by simp [hready]))
  | control => exact hinv.controlStep hstep
  | processCanMessage canData =>
      simp only at hstep
      split_ifs at hstep
      cases hstep
      exact hinv.message state.lastPState state.currentPState state.remainingMs _
  | message => exact hinv.messageStep hidle hstep
  | thread =>
      obtain ⟨phase, hthread, hmove⟩ := Option.bind_eq_some_iff.mp hstep
      exact hinv.threadStep hthread hmove

theorem step_remainingInvariant {action : Action} (hinv : RemainingInvariant config state)
    (hstep : step config state action = some next) : RemainingInvariant config next := by
  have halive := not_destroyed_of_step hstep
  unfold step at hstep
  rw [if_neg halive] at hstep
  cases action with
  | tick now | startMonitor | stopMonitor | destroy | processCanMessage canData =>
      simp only at hstep
      split_ifs at hstep
      cases hstep
      exact ⟨hinv.remaining, hinv.branch⟩
  | control => exact hinv.controlStep hstep
  | message => exact hinv.messageStep hstep
  | thread =>
      obtain ⟨phase, hthread, hmove⟩ := Option.bind_eq_some_iff.mp hstep
      exact hinv.threadStep hthread hmove

/-- In every run, whatever the frames, `timerLoop` never restarts its timing. -/
theorem reset_never_seen (hreach : (system config).Reachable state) :
    state.remainingMs = config.totalDurationMs ∧ state.thread ≠ some .resetStart := by
  have hinv : RemainingInvariant config state := by
    apply hreach.invariant (RemainingInvariant config) (initial_remainingInvariant config)
    intro state action next hinv hstep
    exact step_remainingInvariant hinv hstep
  exact ⟨hinv.remaining, hinv.branch.1⟩

/-- In a run without a jump while the timer is timing, the callback is called at
least the duration after the start, and none of the jumps processed before the call
came in the duration before it. -/
theorem timeout_law (config : Config) {state : State}
    (hreach : (system config).ReachableMeeting NoJumpWhileTiming state) :
    ∀ timeout ∈ state.timeouts,
      timeout.startedAt + config.duration ≤ timeout.calledAt ∧
      ∀ jump ∈ timeout.jumps, jump ≤ timeout.calledAt - config.duration := by
  have hinv : TimeoutInvariant config state := by
    apply hreach.invariant (TimeoutInvariant config) (initial_timeoutInvariant config)
    intro state action next hinv hidle hstep
    exact step_timeoutInvariant hinv hidle hstep
  intro timeout hmem
  have hlawful := hinv.timeouts timeout hmem
  refine ⟨hlawful.passed, ?_⟩
  intro jump hjump
  have hpassed := hlawful.passed
  have hquiet := hlawful.quiet jump hjump
  omega

/-- A jump before the start and one after the call, which comes 40 ms after the reading
it rests on, leave it where it is. -/
theorem timeout_law_quiet :
    ∃ state, (system ⟨100, true⟩).ReachableMeeting NoJumpWhileTiming state ∧
      state.jumps = [0, 140000000] ∧
      ∃ timeout ∈ state.timeouts, timeout.calledAt = 140000000 ∧ timeout.jumps = [0] ∧
        timeout.startedAt + 100000000 ≤ timeout.calledAt ∧
        ∀ jump ∈ timeout.jumps, jump ≤ timeout.calledAt - 100000000 := by
  let jump : List Action := .processCanMessage 1 :: List.replicate 4 .message
  let actions : List Action :=
    List.flatten [jump, [.startMonitor, .control, .control, .control], List.replicate 6 .thread,
      [.tick 100000000], List.replicate 4 .thread, [.tick 140000000, .thread],
      .processCanMessage 0 :: List.replicate 3 .message, jump]
  obtain ⟨state, hrun, hjumps, htimeouts⟩ :
      ∃ state, (system ⟨100, true⟩).run (initial ⟨100, true⟩) actions = some state ∧
        state.jumps = [0, 140000000] ∧ state.timeouts = [⟨0, 140000000, [0]⟩] :=
    ⟨_, rfl, rfl, rfl⟩
  have hreach : (system ⟨100, true⟩).ReachableMeeting NoJumpWhileTiming state :=
    ⟨actions, hrun, by decide⟩
  have hmem : ⟨0, 140000000, [0]⟩ ∈ state.timeouts := by
    rw [htimeouts]
    exact List.mem_singleton_self _
  obtain ⟨hpassed, hquiet⟩ := timeout_law ⟨100, true⟩ hreach _ hmem
  exact ⟨state, hreach, hjumps, _, hmem, rfl, rfl, hpassed, hquiet⟩

/-- A jump in the middle of a duration of 300 ms, two samples before its end, does
not put off the time-out. -/
theorem timeout_ignores_jump :
    ∃ state, (system ⟨300, true⟩).Reachable state ∧
      ∃ timeout ∈ state.timeouts, ∃ jump ∈ timeout.jumps,
        timeout.calledAt - (Config.duration ⟨300, true⟩) < jump ∧
        jump ≤ timeout.calledAt - 100 * 1000000 := by
  let sample : List Action := List.replicate 6 .thread
  obtain ⟨state, hrun, htimeouts⟩ :
      ∃ state, (system ⟨300, true⟩).run (initial ⟨300, true⟩)
          (List.flatten [[.startMonitor, .control, .control, .control], sample,
            .tick 100000000 :: sample, [.tick 150000000, .processCanMessage 1],
            List.replicate 5 .message, .tick 200000000 :: sample,
            .tick 300000000 :: List.replicate 5 .thread]) = some state ∧
        state.timeouts = [⟨0, 300000000, [150000000]⟩] :=
    ⟨_, rfl, rfl⟩
  refine ⟨state, ⟨_, hrun⟩, ⟨0, 300000000, [150000000]⟩, ?_, 150000000, ?_, by decide,
    by decide⟩
  · rw [htimeouts]
    exact List.mem_singleton_self _
  · exact List.mem_singleton_self _

end CppProj.PstateMonitor
