import CppProj.PstateMonitor

/-!
# When `stopMonitor` joins the timer thread

`stopMonitor` joins only if it finds `timer_state_` running.  The timer thread
stores `EXPIRED` itself, and then it is never joined: not by a later
`stopMonitor`, and not by the destructor.
-/

namespace CppProj.PstateMonitor

variable {config : Config} {state next : State}

/-- `stopMonitor` finds the timer running, or no thread to join. -/
def StopsInTime (state : State) : Action → Prop
  | .control =>
      match state.control with
      | .stopTest _ => state.timerState = .RUNNING ∨ state.thread = none
      | _ => True
  | _ => True

instance (state : State) (action : Action) : Decidable (StopsInTime state action) := by
  cases action with
  | control =>
      unfold StopsInTime
      cases state.control <;> infer_instance
  | _ => exact isTrue trivial

theorem returnFromStop_returnedJoinable (state : State) (destroying : Bool) :
    (returnFromStop state destroying).returnedJoinable =
      (state.returnedJoinable || state.thread.isSome) := rfl

theorem threadStep_returnedJoinable {phase : ThreadPhase}
    (hstep : threadStep config state phase = some next) :
    next.returnedJoinable = state.returnedJoinable := by
  cases phase with
  | callback reading =>
      simp only [threadStep] at hstep
      split_ifs at hstep <;> cases hstep <;> rfl
  | lock start | sleeping start wake =>
      simp only [threadStep] at hstep
      split_ifs at hstep
      cases hstep
      rfl
  | finished => cases hstep
  | _ =>
      cases hstep
      rfl

theorem messageStep_returnedJoinable (hstep : messageStep config state = some next) :
    next.returnedJoinable = state.returnedJoinable := by
  unfold messageStep at hstep
  cases hmessage : state.message with
  | idle => simp [hmessage] at hstep
  | update canData =>
      simp only [hmessage] at hstep
      cases hstep
      split_ifs <;> rfl
  | _ =>
      simp only [hmessage] at hstep
      cases hstep
      rfl

/-- Only a `stopMonitor` that finds the timer stopped or expired may return
without a join. -/
theorem controlStep_returnedJoinable (hstep : controlStep state = some next) :
    next.returnedJoinable = true ↔
      state.returnedJoinable = true ∨ ¬ StopsInTime state .control := by
  unfold controlStep at hstep
  unfold StopsInTime
  cases hcontrol : state.control with
  | ready | destroyed => simp [hcontrol] at hstep
  | startTest | startStore | stopStore destroying =>
      simp only [hcontrol] at hstep
      cases hstep
      simp
  | startAssign =>
      simp only [hcontrol] at hstep
      split at hstep
      · cases hstep
        simp
      · cases hstep
  | stopTest destroying =>
      simp only [hcontrol] at hstep
      cases hstep
      by_cases hrunning : state.timerState = .RUNNING
      · simp [hrunning]
      · rw [if_neg hrunning, returnFromStop_returnedJoinable]
        simp [hrunning, Option.isSome_iff_ne_none]
  | stopJoin destroying =>
      simp only [hcontrol] at hstep
      split at hstep
      next hthread =>
        cases hstep
        simp [returnFromStop_returnedJoinable, hthread]
      next =>
        cases hstep
        simp [returnFromStop_returnedJoinable]
      next => cases hstep

theorem step_returnedJoinable {action : Action} (hstep : step config state action = some next) :
    next.returnedJoinable = true ↔
      state.returnedJoinable = true ∨ ¬ StopsInTime state action := by
  have halive := not_destroyed_of_step hstep
  unfold step at hstep
  rw [if_neg halive] at hstep
  cases action with
  | tick now =>
      simp only at hstep
      split_ifs at hstep
      cases hstep
      simp [StopsInTime]
  | startMonitor | stopMonitor | destroy | processCanMessage canData =>
      simp only at hstep
      split_ifs at hstep
      cases hstep
      simp [StopsInTime]
  | control => exact controlStep_returnedJoinable hstep
  | message =>
      rw [messageStep_returnedJoinable hstep]
      simp [StopsInTime]
  | thread =>
      obtain ⟨phase, _, hmove⟩ := Option.bind_eq_some_iff.mp hstep
      rw [threadStep_returnedJoinable hmove]
      simp [StopsInTime]

/-- In a run every `stopMonitor` that has returned, the destructor's included,
left the thread not joinable exactly if each found the timer running or the
thread not joinable. -/
theorem stopMonitor_joins (config : Config) {actions : List Action} {state : State}
    (hrun : (system config).run (initial config) actions = some state) :
    state.returnedJoinable = false ↔
      (system config).StepsMeet StopsInTime (initial config) actions := by
  refine TransitionSystem.run_iff_stepsMeet (fun _ => True)
    (fun state => state.returnedJoinable = false) (fun _ _ _ _ _ => trivial) ?_ ?_ trivial rfl
    hrun
  · intro state action next _ hgood hstep
    have hiff := step_returnedJoinable hstep
    rw [hgood] at hiff
    simpa using not_congr hiff
  · intro state action next _ hbad hstep
    have hiff := step_returnedJoinable hstep
    simp only [Bool.not_eq_false] at hbad ⊢
    exact hiff.mpr (Or.inl hbad)

/-- The monitor is stopped while the timer runs and destroyed afterwards. -/
theorem stopMonitor_joins_running :
    ∃ actions state, (system ⟨300, true⟩).run (initial ⟨300, true⟩) actions = some state ∧
      state.control = .destroyed ∧ state.returnedJoinable = false := by
  let actions : List Action :=
    [.startMonitor, .control, .control, .control, .thread, .thread, .stopMonitor, .control,
      .control, .thread, .thread, .thread, .thread, .tick 100000000, .thread, .thread, .control,
      .destroy, .control]
  obtain ⟨state, hrun, hcontrol⟩ :
      ∃ state, (system ⟨300, true⟩).run (initial ⟨300, true⟩) actions = some state ∧
        state.control = .destroyed :=
    ⟨_, rfl, rfl⟩
  have hjoined := (stopMonitor_joins ⟨300, true⟩ hrun).mpr (by decide)
  exact ⟨actions, state, hrun, hcontrol, hjoined⟩

/-- The timer runs for its 100 ms and the timer thread ends. -/
def expiringRun : List Action :=
  List.flatten [[.startMonitor, .control, .control, .control], List.replicate 6 .thread,
    [.tick 100000000], List.replicate 5 .thread]

/-- After the time-out neither `stopMonitor` nor the destructor joins the finished
thread. -/
theorem expired_thread_not_joined :
    (∃ state, (system ⟨100, true⟩).run (initial ⟨100, true⟩)
        (expiringRun ++ [Action.stopMonitor, Action.control]) = some state ∧
      state.control = .ready ∧ state.thread = some .finished ∧
      state.returnedJoinable = true) ∧
    ∃ state, (system ⟨100, true⟩).run (initial ⟨100, true⟩)
        (expiringRun ++ [Action.destroy, Action.control]) = some state ∧
      state.control = .destroyed ∧ state.thread = some .finished ∧
      state.returnedJoinable = true :=
  ⟨⟨_, rfl, rfl, rfl, rfl⟩, ⟨_, rfl, rfl, rfl, rfl⟩⟩

end CppProj.PstateMonitor
