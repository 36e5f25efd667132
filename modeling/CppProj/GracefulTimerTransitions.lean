import CppProj.GracefulTimerThreads

/-!
# What the steps of `GracefulTimer` do

One relation for each kind of thread lists the effects that its steps can have,
and the invariants of the runs are proved by cases on these.  The steps of the
thread that starts and stops the manager are listed for states that keep the
invariant of the threads.
-/

universe u

namespace CppProj.GracefulTimer

variable {Callback : Type u}

/-! ## The manager -/

namespace ManagerPhase

theorem countedWrappers_of_firing {manager : ManagerPhase Callback}
    (hfiring : manager.firing = none) : manager.countedWrappers = 0 := by
  cases manager <;> first | rfl | cases hfiring

theorem firing_of_joinable {manager : ManagerPhase Callback}
    (hthread : manager.joinable = false) : manager.firing = none := by
  cases manager <;> first | rfl | cases hthread

theorem countedWrappers_le_one (manager : ManagerPhase Callback) :
    manager.countedWrappers ≤ 1 := by
  cases manager <;> simp [countedWrappers]

end ManagerPhase

inductive ManagerMove (state : State Callback) (now : ℤ) : State Callback → Prop where
  | quiet (manager : ManagerPhase Callback) (later : ℤ)
      (hbefore : state.manager.firing = none) (hafter : manager.firing = none)
      (hthread : state.manager.joinable = true) (hstill : manager.joinable = true)
      (hexit : manager = .exited → state.running = false) :
      ManagerMove state now { state with now := later, manager := manager }
  | skipped (timers : Timers Callback) (hinspect : state.manager = .inspect)
      (hmove : state.timers.IterationMove now .skipped timers) :
      ManagerMove state now
        { state with timers := timers, now := now, manager := .testRunning }
  | taken (timers : Timers Callback) (task : TimerTask Callback)
      (hinspect : state.manager = .inspect)
      (hmove : state.timers.IterationMove now (.taken task) timers) :
      ManagerMove state now
        { state with
          timers := timers
          now := now
          manager := .wrapper task
          taken := state.taken ++ [task.id] }
  | increment (task : TimerTask Callback) (hwrapper : state.manager = .wrapper task) :
      ManagerMove state now
        { state with
          activeCallbacks := state.activeCallbacks + 1
          manager := .callback task
          runs := state.runs ++ [task.id] }
  | finish (task : TimerTask Callback) (hcallback : state.manager = .callback task) :
      ManagerMove state now { state with manager := .decrement task }
  | decrement (task : TimerTask Callback) (hdecrement : state.manager = .decrement task) :
      ManagerMove state now
        { state with
          activeCallbacks := state.activeCallbacks - 1
          manager := .erasePending task }
  | erasePending (task : TimerTask Callback)
      (herase : state.manager = .erasePending task) :
      ManagerMove state now
        { state with
          timers := state.timers.erasePending task.id
          manager := .relock }

theorem managerMove_of_managerStep {state next : State Callback} {now : ℤ}
    {top : ℕ} (hstep : managerStep state now top = some next) : ManagerMove state now next := by
  have hquiet : ∀ (manager : ManagerPhase Callback) (later : ℤ),
      state.manager.firing = none ∧ state.manager.joinable = true →
      manager.firing = none ∧ manager.joinable = true →
      (manager = .exited → state.running = false) →
        ManagerMove state now { state with now := later, manager := manager } :=
    fun manager later hbefore hafter =>
      .quiet manager later hbefore.1 hafter.1 hbefore.2 hafter.2
  unfold managerStep at hstep
  cases hmanager : state.manager with
  | absent | exited | joined => simp [hmanager] at hstep
  | testRunning =>
      simp only [hmanager] at hstep
      cases hstep
      exact hquiet _ state.now (by simp [hmanager, ManagerPhase.firing, ManagerPhase.joinable])
        (by split_ifs <;> exact ⟨rfl, rfl⟩) (by split_ifs with hrunning <;> simp [hrunning])
  | inspect =>
      have hbefore : state.manager.firing = none ∧ state.manager.joinable = true := by
        simp [hmanager, ManagerPhase.firing, ManagerPhase.joinable]
      simp only [hmanager] at hstep
      by_cases hclock : state.now ≤ now
      · rw [if_pos hclock] at hstep
        split at hstep
        next => cases hstep
        next =>
          cases hstep
          exact hquiet _ now hbefore (by split_ifs <;> exact ⟨rfl, rfl⟩)
            (by split_ifs <;> simp)
        next =>
          cases hstep
          exact hquiet _ now hbefore ⟨rfl, rfl⟩ (by simp)
        next timers hiteration =>
          cases hstep
          exact .skipped timers hmanager
            (Timers.iterationMove_of_managerIteration hiteration)
        next task timers hiteration =>
          cases hstep
          exact .taken timers task hmanager
            (Timers.iterationMove_of_managerIteration hiteration)
      · rw [if_neg hclock] at hstep
        cases hstep
  | afterWait =>
      simp only [hmanager] at hstep
      cases hstep
      exact hquiet _ state.now (by simp [hmanager, ManagerPhase.firing, ManagerPhase.joinable])
        (by split_ifs <;> exact ⟨rfl, rfl⟩) (by split_ifs with hrunning <;> simp_all)
  | lock | emptyWait | timedWait | relock =>
      simp only [hmanager] at hstep
      split_ifs at hstep
      cases hstep
      exact hquiet _ state.now (by simp [hmanager, ManagerPhase.firing, ManagerPhase.joinable])
        ⟨rfl, rfl⟩ (by simp)
  | wrapper task =>
      simp only [hmanager] at hstep
      cases hstep
      exact .increment task hmanager
  | callback task =>
      simp only [hmanager] at hstep
      cases hstep
      exact .finish task hmanager
  | decrement task =>
      simp only [hmanager] at hstep
      cases hstep
      exact .decrement task hmanager
  | erasePending task =>
      simp only [hmanager] at hstep
      split_ifs at hstep
      cases hstep
      exact .erasePending task hmanager

namespace ManagerMove

variable {state next : State Callback} {now : ℤ}

/-- Only `start` and `stop` begin and end the thread. -/
theorem joinable (hmove : ManagerMove state now next) :
    state.manager.joinable = true ∧ next.manager.joinable = true := by
  cases hmove with
  | quiet manager later hbefore hafter hthread hstill hexit => exact ⟨hthread, hstill⟩
  | skipped timers hinspect hmove => exact ⟨by rw [hinspect]; rfl, rfl⟩
  | taken timers task hinspect hmove => exact ⟨by rw [hinspect]; rfl, rfl⟩
  | increment task hwrapper => exact ⟨by rw [hwrapper]; rfl, rfl⟩
  | finish task hcallback => exact ⟨by rw [hcallback]; rfl, rfl⟩
  | decrement task hdecrement => exact ⟨by rw [hdecrement]; rfl, rfl⟩
  | erasePending task herase => exact ⟨by rw [herase]; rfl, rfl⟩

theorem callbacks (hmove : ManagerMove state now next)
    (hcallbacks : state.activeCallbacks = state.manager.countedWrappers) :
    next.activeCallbacks = next.manager.countedWrappers := by
  cases hmove with
  | quiet manager later hbefore hafter hthread hstill hexit =>
      rw [hcallbacks, ManagerPhase.countedWrappers_of_firing hbefore]
      exact (ManagerPhase.countedWrappers_of_firing hafter).symm
  | skipped timers hinspect hmove => rw [hcallbacks, hinspect]; rfl
  | taken timers task hinspect hmove => rw [hcallbacks, hinspect]; rfl
  | increment task hwrapper => rw [hcallbacks, hwrapper]; rfl
  | finish task hcallback => rw [hcallbacks, hcallback]; rfl
  | decrement task hdecrement => rw [hcallbacks, hdecrement]; rfl
  | erasePending task herase => rw [hcallbacks, herase]; rfl

theorem exited (hmove : ManagerMove state now next)
    (hnext : next.manager = .exited) : next.running = false := by
  cases hmove with
  | quiet manager later hbefore hafter hthread hstill hexit => exact hexit hnext
  | _ => cases hnext

theorem others (hmove : ManagerMove state now next) :
    next.control = state.control ∧ next.running = state.running ∧
      next.terminated = state.terminated := by
  cases hmove <;> exact ⟨rfl, rfl, rfl⟩

end ManagerMove

/-! ## Additions and cancellations -/

inductive AddMove (state : State Callback) (index : ℕ) (now : ℤ) : State Callback → Prop where
  | quiet (phase : AddPhase Callback)
      (hrunning : ∀ duration callback, phase = .insert duration callback →
        state.running = true) :
      AddMove state index now (state.setAdd index phase)
  | inserted (duration : ℤ) (callback : Callback)
      (hget : state.adds[index]? = some (.insert duration callback)) :
      AddMove state index now
        { state.setAdd index (.returned (state.timers.nextId + 1)) with
          timers := state.timers.addNonBlockingTimer duration callback now
          now := now
          additions := state.additions + 1 }

theorem addMove_of_addStep {state next : State Callback} {index : ℕ} {now : ℤ}
    (hstep : addStep state index now = some next) : AddMove state index now next := by
  unfold addStep at hstep
  split at hstep
  next =>
    split_ifs at hstep
    cases hstep
    exact .quiet _ (by simp)
  next =>
    cases hstep
    refine .quiet _ ?_
    intro duration callback hphase
    split_ifs at hphase
  next =>
    cases hstep
    refine .quiet _ ?_
    intro duration callback hphase
    split_ifs at hphase with hrunning
    simpa using hrunning
  next duration callback hget =>
    split_ifs at hstep
    cases hstep
    exact .inserted duration callback hget
  next => cases hstep
  next => cases hstep

inductive CancelMove (state : State Callback) (timerId : Int32) : State Callback → Prop where
  | missed (hlookup : state.timers.activeTasks.lookup timerId = none) :
      CancelMove state timerId state
  | cancelled (task : TimerTask Callback)
      (hlookup : state.timers.activeTasks.lookup timerId = some task) :
      CancelMove state timerId
        { state with
          timers := (state.timers.cancelTimer timerId).2
          cancels := state.cancels ++ [timerId] }

theorem cancelMove_of_cancelStep {state next : State Callback} {timerId : Int32}
    (hstep : cancelStep state timerId = some next) : CancelMove state timerId next := by
  unfold cancelStep at hstep
  by_cases hfree : state.mutexFree = true
  · rw [if_pos hfree] at hstep
    cases hlookup : state.timers.activeTasks.lookup timerId with
    | none =>
        simp only [Timers.cancelTimer, hlookup] at hstep
        cases hstep
        exact .missed hlookup
    | some task =>
        have hanswer : (state.timers.cancelTimer timerId).1 = true := by
          simp [Timers.cancelTimer, hlookup]
        simp only [hanswer, if_true] at hstep
        cases hstep
        exact .cancelled task hlookup
  · rw [if_neg hfree] at hstep
    cases hstep

/-! ## The thread that starts and stops the manager -/

/-- What `running_` and the thread object of the manager are at each position
of the thread that starts and stops it. -/
def ControlFits (running joinable : Bool) : ControlPhase → Prop
  | .idle | .startTest | .stopTest _ => joinable = running
  | .startStore => running = false ∧ joinable = false
  | .startSpawn => running = true ∧ joinable = false
  | .stopStore _ => running = true ∧ joinable = true
  | .stopNotify _ | .join _ => running = false ∧ joinable = true
  | .waitForAllCallbacks | .clear _ => running = false ∧ joinable = false

structure ThreadsInvariant (state : State Callback) : Prop where
  live : state.terminated = false
  control : ControlFits state.running state.manager.joinable state.control
  callbacks : state.activeCallbacks = state.manager.countedWrappers
  exited : state.manager = .exited → state.running = false

/-- A step of `start` or `stop` from a state that keeps the invariant. -/
inductive ControlMove (state : State Callback) : State Callback → Prop where
  | moved (running : Bool) (control : ControlPhase)
      (hfits : ControlFits running state.manager.joinable control)
      (hexit : state.manager = .exited → running = false) :
      ControlMove state { state with running := running, control := control }
  | spawned (hrunning : state.running = true) (hthread : state.manager.joinable = false) :
      ControlMove state { state with manager := .testRunning, control := .idle }
  | joined (control : ControlPhase) (hexited : state.manager = .exited)
      (hfits : ControlFits state.running false control) :
      ControlMove state { state with manager := .joined, control := control }
  | cleared (hrunning : state.running = false) (hthread : state.manager.joinable = false) :
      ControlMove state { state with timers := state.timers.clear, control := .idle }

theorem controlMove_of_controlStep {state next : State Callback}
    (hinv : ThreadsInvariant state) (hstep : controlStep state = some next) :
    ControlMove state next := by
  have hfits := hinv.control
  have hmoved : ∀ control : ControlPhase,
      ControlFits state.running state.manager.joinable control →
        ControlMove state { state with control := control } :=
    fun control hnext => .moved state.running control hnext hinv.exited
  unfold controlStep at hstep
  cases hcontrol : state.control with
  | idle => simp [hcontrol] at hstep
  | startTest =>
      rw [hcontrol] at hfits
      simp only [hcontrol] at hstep
      cases hstep
      apply hmoved _
      split_ifs with hrunning
      · exact hfits
      · rw [Bool.not_eq_true] at hrunning
        exact ⟨hrunning, hfits.trans hrunning⟩
  | startStore =>
      rw [hcontrol] at hfits
      simp only [hcontrol] at hstep
      cases hstep
      refine .moved true .startSpawn ⟨rfl, hfits.2⟩ ?_
      intro hexited
      rw [hexited] at hfits
      cases hfits.2
  | startSpawn =>
      rw [hcontrol] at hfits
      simp only [hcontrol, hfits.2, Bool.false_eq_true, if_false] at hstep
      cases hstep
      exact .spawned hfits.1 hfits.2
  | stopTest waitForCallbacks =>
      rw [hcontrol] at hfits
      simp only [hcontrol] at hstep
      cases hstep
      apply hmoved _
      split_ifs with hrunning
      · exact hfits
      · rw [Bool.not_eq_true', Bool.not_eq_false] at hrunning
        exact ⟨hrunning, hfits.trans hrunning⟩
  | stopStore waitForCallbacks =>
      rw [hcontrol] at hfits
      simp only [hcontrol] at hstep
      cases hstep
      exact .moved false _ ⟨rfl, hfits.2⟩ fun _ => rfl
  | stopNotify waitForCallbacks =>
      rw [hcontrol] at hfits
      simp only [hcontrol] at hstep
      cases hstep
      exact hmoved _ hfits
  | join waitForCallbacks =>
      rw [hcontrol] at hfits
      obtain ⟨hrunning, hthread⟩ := hfits
      simp only [hcontrol] at hstep
      cases hmanager : state.manager with
      | absent | joined =>
          rw [hmanager] at hthread
          cases hthread
      | exited =>
          simp only [hmanager] at hstep
          cases hstep
          refine .joined _ hmanager ?_
          split_ifs <;> exact ⟨hrunning, rfl⟩
      | _ => simp [hmanager] at hstep
  | waitForAllCallbacks =>
      rw [hcontrol] at hfits
      simp only [hcontrol] at hstep
      split_ifs at hstep
      cases hstep
      exact hmoved _ hfits
  | clear waitForCallbacks =>
      rw [hcontrol] at hfits
      simp only [hcontrol] at hstep
      split_ifs at hstep
      cases hstep
      exact .cleared hfits.1 hfits.2

theorem ThreadsInvariant.controlMove {state next : State Callback}
    (hinv : ThreadsInvariant state) (hmove : ControlMove state next) :
    ThreadsInvariant next := by
  obtain ⟨hlive, hcontrol, hcallbacks, hexited⟩ := hinv
  cases hmove with
  | moved running control hfits hexit => exact ⟨hlive, hfits, hcallbacks, hexit⟩
  | spawned hrunning hthread =>
      refine ⟨hlive, hrunning.symm, ?_, by simp⟩
      rw [hcallbacks, ManagerPhase.countedWrappers_of_firing
        (ManagerPhase.firing_of_joinable hthread)]
      rfl
  | joined control hphase hfits =>
      exact ⟨hlive, hfits, by rw [hcallbacks, hphase]; rfl, by simp⟩
  | cleared hrunning hthread =>
      exact ⟨hlive, hthread.trans hrunning.symm, hcallbacks, hexited⟩

theorem ThreadsInvariant.step {state next : State Callback} {action : Action Callback}
    (hinv : ThreadsInvariant state) (hstep : step state action = some next) :
    ThreadsInvariant next := by
  obtain ⟨hlive, hcontrol, hcallbacks, hexited⟩ := hinv
  unfold GracefulTimer.step at hstep
  rw [if_neg (by simp [hlive])] at hstep
  cases action with
  | setShouldExit | callAdd duration callback =>
      cases hstep
      exact ⟨hlive, hcontrol, hcallbacks, hexited⟩
  | callStart | callStop waitForCallbacks =>
      simp only at hstep
      split_ifs at hstep with hidle
      cases hstep
      rw [hidle] at hcontrol
      exact ⟨hlive, hcontrol, hcallbacks, hexited⟩
  | control =>
      have hinv : ThreadsInvariant state := ⟨hlive, hcontrol, hcallbacks, hexited⟩
      exact hinv.controlMove (controlMove_of_controlStep hinv hstep)
  | giveUp =>
      simp only at hstep
      split_ifs at hstep with hwait
      cases hstep
      rw [hwait] at hcontrol
      exact ⟨hlive, hcontrol, hcallbacks, hexited⟩
  | add index now =>
      cases addMove_of_addStep hstep <;> exact ⟨hlive, hcontrol, hcallbacks, hexited⟩
  | cancelTimer timerId =>
      cases cancelMove_of_cancelStep hstep <;> exact ⟨hlive, hcontrol, hcallbacks, hexited⟩
  | manager now top =>
      have hmove := managerMove_of_managerStep hstep
      obtain ⟨hcontrolEq, hrunningEq, hliveEq⟩ := hmove.others
      obtain ⟨hbefore, hafter⟩ := hmove.joinable
      refine ⟨hliveEq.trans hlive, ?_, hmove.callbacks hcallbacks, hmove.exited⟩
      rw [hcontrolEq, hrunningEq, hafter, ← hbefore]
      exact hcontrol

theorem threadsInvariant_of_reachable {start : ℤ} {state : State Callback}
    (hreach : (system start).Reachable state) : ThreadsInvariant state := by
  refine hreach.invariant ThreadsInvariant ?_ fun _ _ _ hinv hstep => hinv.step hstep
  exact ⟨rfl, rfl, rfl, by simp [system, initial]⟩

/-! ## The history -/

/-- The records of a state begin those of a later one. -/
structure HistoryLe (state later : State Callback) : Prop where
  additions : state.additions ≤ later.additions
  cancels : state.cancels <+: later.cancels
  runs : state.runs <+: later.runs

namespace HistoryLe

variable {state next : State Callback}

theorem refl (state : State Callback) : HistoryLe state state :=
  ⟨le_rfl, List.prefix_rfl, List.prefix_rfl⟩

theorem trans {later : State Callback} (hfirst : HistoryLe state next)
    (hsecond : HistoryLe next later) : HistoryLe state later :=
  ⟨hfirst.additions.trans hsecond.additions, hfirst.cancels.trans hsecond.cancels,
    hfirst.runs.trans hsecond.runs⟩

theorem of_step {action : Action Callback} (hinv : ThreadsInvariant state)
    (hstep : step state action = some next) : HistoryLe state next := by
  have hrefl := refl state
  unfold step at hstep
  rw [if_neg (by simp [hinv.live])] at hstep
  cases action with
  | setShouldExit | callAdd duration callback =>
      cases hstep
      exact ⟨hrefl.additions, hrefl.cancels, hrefl.runs⟩
  | callStart | callStop waitForCallbacks | giveUp =>
      simp only at hstep
      split_ifs at hstep
      cases hstep
      exact ⟨hrefl.additions, hrefl.cancels, hrefl.runs⟩
  | control =>
      cases controlMove_of_controlStep hinv hstep <;>
        exact ⟨hrefl.additions, hrefl.cancels, hrefl.runs⟩
  | add index now =>
      cases addMove_of_addStep hstep with
      | quiet phase hrunning => exact ⟨hrefl.additions, hrefl.cancels, hrefl.runs⟩
      | inserted duration callback hget => exact ⟨Nat.le_succ _, hrefl.cancels, hrefl.runs⟩
  | cancelTimer timerId =>
      cases cancelMove_of_cancelStep hstep with
      | missed hlookup => exact hrefl
      | cancelled task hlookup =>
          exact ⟨hrefl.additions, List.prefix_append _ _, hrefl.runs⟩
  | manager now top =>
      cases managerMove_of_managerStep hstep with
      | increment task hwrapper =>
          exact ⟨hrefl.additions, hrefl.cancels, List.prefix_append _ _⟩
      | _ => exact ⟨hrefl.additions, hrefl.cancels, hrefl.runs⟩

theorem of_run {start : ℤ} {actions : List (Action Callback)} {final : State Callback}
    (hinv : ThreadsInvariant state)
    (hrun : (system start).run state actions = some final) : HistoryLe state final := by
  have hboth : ThreadsInvariant final ∧ HistoryLe state final := by
    refine TransitionSystem.run_preserves
      (fun s => ThreadsInvariant s ∧ HistoryLe state s) ?_ ⟨hinv, refl state⟩ hrun
    rintro before action after ⟨hbefore, hhistory⟩ hstep
    exact ⟨hbefore.step hstep, hhistory.trans (of_step hbefore hstep)⟩
  exact hboth.2

end HistoryLe

end CppProj.GracefulTimer
