import CppProj.GracefulTimerProgress

/-!
# What `pending_timers_` holds

As long as no id is given twice, `pending_timers_` holds the timers that are
active and not cancelled and the one that is being fired.  The counter of ids
wraps around after `2 ^ 32` additions; an id that is given again while its
timer is being fired is erased by the old wrapper.

After `stop(true)` has returned, nothing is left and nothing runs until the
next `start`, whatever the ids are.
-/

universe u

namespace CppProj.GracefulTimer

variable {Callback : Type u}

/-- What holds of a state in which `tasks_mutex_` is free. -/
structure PendingInvariant (state : State Callback) : Prop where
  pending : ∀ id, id ∈ state.timers.pendingTimers ↔
    (∃ task, state.timers.activeTasks.lookup id = some task ∧ task.isCancelled = false) ∨
      state.manager.firing = some id
  queued : ∀ id ∈ state.timers.activeTasks, ∃ task ∈ state.timers.tasksQueue, task.id = id
  callbacks : state.activeCallbacks = state.manager.countedWrappers
  atMostOne : state.activeCallbacks ≤ 1

/-- Nothing is left and no callback is executing. -/
structure Stopped (state : State Callback) : Prop where
  tasksQueue : state.timers.tasksQueue = []
  activeTasks : state.timers.activeTasks = ∅
  pendingTimers : state.timers.pendingTimers = ∅
  activeCallbacks : state.activeCallbacks = 0
  manager : state.manager.joinable = false

/-! ## While ids are new -/

/-- The invariant of the timers for the timer that the manager is firing. -/
def FiringInvariant (state : State Callback) : Prop :=
  TimersInvariant state.timers state.additions state.manager.firing

namespace FiringInvariant

variable {state next : State Callback}

theorem managerMove (hinv : FiringInvariant state) {now : ℤ}
    (hmove : ManagerMove state now next) : FiringInvariant next := by
  unfold FiringInvariant at hinv
  cases hmove with
  | quiet manager later hbefore hafter hthread hstill hexit =>
      simpa only [FiringInvariant, hafter, hbefore] using hinv
  | skipped timers hinspect hmove =>
      rw [hinspect] at hinv
      exact hmove.invariant hinv
  | taken timers task hinspect hmove =>
      rw [hinspect] at hinv
      exact hmove.invariant hinv
  | increment task hwrapper =>
      rw [hwrapper] at hinv
      exact hinv
  | finish task hcallback =>
      rw [hcallback] at hinv
      exact hinv
  | decrement task hdecrement =>
      rw [hdecrement] at hinv
      exact hinv
  | erasePending task herase =>
      rw [herase] at hinv
      exact hinv.erasePending

theorem controlMove (hinv : FiringInvariant state) (hmove : ControlMove state next) :
    FiringInvariant next := by
  unfold FiringInvariant at hinv
  cases hmove with
  | moved running control hfits hexit => exact hinv
  | spawned hrunning hthread =>
      rw [ManagerPhase.firing_of_joinable hthread] at hinv
      exact hinv
  | joined control hexited hfits =>
      rw [hexited] at hinv
      exact hinv
  | cleared hrunning hthread =>
      have hfiring := ManagerPhase.firing_of_joinable hthread
      simp only [FiringInvariant, hfiring] at hinv ⊢
      exact hinv.clear

theorem step (hinv : FiringInvariant state) (hthreads : ThreadsInvariant state)
    {action : Action Callback} (hstep : step state action = some next)
    (hroom : next.additions ≤ 2 ^ 32) : FiringInvariant next := by
  unfold GracefulTimer.step at hstep
  rw [if_neg (by simp [hthreads.live])] at hstep
  cases action with
  | setShouldExit | callAdd duration callback =>
      cases hstep
      exact hinv
  | callStart | callStop waitForCallbacks | giveUp =>
      simp only at hstep
      split_ifs at hstep
      cases hstep
      exact hinv
  | control => exact hinv.controlMove (controlMove_of_controlStep hthreads hstep)
  | add index now =>
      cases addMove_of_addStep hstep with
      | quiet phase hrunning => exact hinv
      | inserted duration callback hget => exact hinv.addNonBlockingTimer hroom
  | cancelTimer timerId =>
      cases cancelMove_of_cancelStep hstep with
      | missed hlookup => exact hinv
      | cancelled task hlookup => exact hinv.cancelTimer timerId
  | manager now top => exact hinv.managerMove (managerMove_of_managerStep hstep)

theorem pendingInvariant (hinv : FiringInvariant state) (hthreads : ThreadsInvariant state) :
    PendingInvariant state := by
  refine ⟨hinv.pending, ?_, hthreads.callbacks, ?_⟩
  · intro id hmem
    obtain ⟨task, hlookup⟩ := Option.isSome_iff_exists.mp (AList.lookup_isSome.mpr hmem)
    obtain ⟨hid, htask⟩ := hinv.active id task hlookup
    exact ⟨_, htask, hid⟩
  · rw [hthreads.callbacks]
    exact state.manager.countedWrappers_le_one

end FiringInvariant

theorem firingInvariant_of_reachable {start : ℤ} {state : State Callback}
    (hreach : (system start).Reachable state) (hroom : state.additions ≤ 2 ^ 32) :
    FiringInvariant state := by
  have hinv : ThreadsInvariant state ∧ (state.additions ≤ 2 ^ 32 → FiringInvariant state) := by
    refine hreach.invariant
      (fun s => ThreadsInvariant s ∧ (s.additions ≤ 2 ^ 32 → FiringInvariant s)) ?_ ?_
    · exact ⟨threadsInvariant_of_reachable .initial, fun _ => TimersInvariant.initial⟩
    · rintro before action after ⟨hthreads, hfiring⟩ hstep
      refine ⟨hthreads.step hstep, fun hafter => ?_⟩
      have hmono := (HistoryLe.of_step hthreads hstep).additions
      exact (hfiring (by omega)).step hthreads hstep hafter
  exact hinv.2 hroom

/-! ## After `stop` -/

/-- `stop` has cleared the timers, and `start` has not been called since. -/
structure Quiet (state : State Callback) : Prop where
  stopped : Stopped state
  running : state.running = false
  control : state.control = .idle ∨ ∃ wait, state.control = .stopTest wait
  adds : ∀ phase ∈ state.adds, ∀ duration callback, phase ≠ .insert duration callback

namespace Quiet

variable {state next : State Callback}

theorem step (hinv : Quiet state) {action : Action Callback}
    (hstep : step state action = some next) (hstart : action ≠ .callStart) :
    Quiet next ∧ next.runs = state.runs := by
  obtain ⟨hstopped, hrunning, hcontrol, hadds⟩ := hinv
  obtain ⟨hqueue, hactive, hpending, hcallbacks, hthread⟩ := hstopped
  have hrest : Stopped state := ⟨hqueue, hactive, hpending, hcallbacks, hthread⟩
  unfold GracefulTimer.step at hstep
  by_cases hlive : state.terminated = true
  · rw [if_pos hlive] at hstep
    cases hstep
  rw [if_neg hlive] at hstep
  cases action with
  | setShouldExit =>
      cases hstep
      exact ⟨⟨⟨hqueue, hactive, hpending, hcallbacks, hthread⟩, hrunning, hcontrol, hadds⟩, rfl⟩
  | callStart => exact (hstart rfl).elim
  | callStop waitForCallbacks =>
      simp only at hstep
      split_ifs at hstep
      cases hstep
      exact ⟨⟨⟨hqueue, hactive, hpending, hcallbacks, hthread⟩, hrunning,
        Or.inr ⟨waitForCallbacks, rfl⟩, hadds⟩, rfl⟩
  | control =>
      simp only [controlStep] at hstep
      rcases hcontrol with hidle | ⟨wait, htest⟩
      · simp [hidle] at hstep
      · simp only [htest, hrunning] at hstep
        cases hstep
        exact ⟨⟨⟨hqueue, hactive, hpending, hcallbacks, hthread⟩, rfl, Or.inl rfl, hadds⟩,
          rfl⟩
  | giveUp =>
      simp only at hstep
      rcases hcontrol with hidle | ⟨wait, htest⟩
      · simp [hidle] at hstep
      · simp [htest] at hstep
  | callAdd duration callback =>
      cases hstep
      refine ⟨⟨⟨hqueue, hactive, hpending, hcallbacks, hthread⟩, hrunning, hcontrol, ?_⟩, rfl⟩
      intro phase hmem
      rcases List.mem_append.mp hmem with hmem | hmem
      · exact hadds phase hmem
      · rw [List.mem_singleton.mp hmem]
        simp
  | add index now =>
      cases addMove_of_addStep hstep with
      | quiet phase hinsert =>
          refine ⟨⟨⟨hqueue, hactive, hpending, hcallbacks, hthread⟩, hrunning, hcontrol, ?_⟩,
            rfl⟩
          intro other hmem
          rcases List.mem_or_eq_of_mem_set hmem with hmem | rfl
          · exact hadds other hmem
          · intro duration callback hphase
            rw [hinsert duration callback hphase] at hrunning
            cases hrunning
      | inserted duration callback hget =>
          exact (hadds _ (List.mem_of_getElem? hget) duration callback rfl).elim
  | cancelTimer timerId =>
      cases cancelMove_of_cancelStep hstep with
      | missed hlookup => exact ⟨⟨hrest, hrunning, hcontrol, hadds⟩, rfl⟩
      | cancelled task hlookup =>
          rw [hactive] at hlookup
          cases hlookup
  | manager now top =>
      have hjoinable := (managerMove_of_managerStep hstep).joinable.1
      rw [hthread] at hjoinable
      cases hjoinable

theorem run {start : ℤ} {actions : List (Action Callback)} (hinv : Quiet state)
    (hrun : (system start).run state actions = some next) (hstart : .callStart ∉ actions) :
    Quiet next ∧ next.runs = state.runs := by
  induction actions generalizing state with
  | nil =>
      cases hrun
      exact ⟨hinv, rfl⟩
  | cons action rest ih =>
      obtain ⟨middle, hstep, hrest⟩ := TransitionSystem.run_cons_eq_some.mp hrun
      rw [List.mem_cons, not_or] at hstart
      obtain ⟨hmiddle, hruns⟩ := hinv.step hstep (Ne.symm hstart.1)
      obtain ⟨hnext, hlater⟩ := ih hmiddle hrest hstart.2
      exact ⟨hnext, hlater.trans hruns⟩

/-- The clearing needs the mutex, so no addition is past its checks. -/
theorem of_clear {wait : Bool} (hthreads : ThreadsInvariant state)
    (hclear : state.control = .clear wait)
    (hstep : GracefulTimer.step state .control = some next) : Quiet next := by
  obtain ⟨hrunning, hthread⟩ : state.running = false ∧ state.manager.joinable = false := by
    have hfits := hthreads.control
    rwa [hclear] at hfits
  have hcallbacks : state.activeCallbacks = 0 := by
    rw [hthreads.callbacks]
    exact ManagerPhase.countedWrappers_of_firing (ManagerPhase.firing_of_joinable hthread)
  simp only [GracefulTimer.step, controlStep, hclear] at hstep
  split_ifs at hstep with _ hfree
  cases hstep
  refine ⟨⟨rfl, rfl, rfl, hcallbacks, hthread⟩, hrunning, Or.inl rfl, ?_⟩
  rintro phase hmem duration callback rfl
  have hholds : state.adds.any AddPhase.holdsMutex = true :=
    List.any_eq_true.mpr ⟨_, hmem, rfl⟩
  simp [State.mutexFree, hholds] at hfree

end Quiet

/-- Up to `2 ^ 32` additions the set, the map, the queue and the counter agree
whenever the mutex is free; after `stop(true)` nothing is left and no callback
is called until the next `start`. -/
theorem pendingTimers_exact {start : ℤ} {state : State Callback}
    (hreach : (system start).Reachable state) :
    (state.additions ≤ 2 ^ 32 → state.mutexFree = true → PendingInvariant state) ∧
    (state.control = .clear true → ∀ stopped, step state .control = some stopped →
      ∀ actions final, (system start).run stopped actions = some final →
        .callStart ∉ actions → Stopped final ∧ final.runs = stopped.runs) := by
  have hthreads := threadsInvariant_of_reachable hreach
  refine ⟨?_, ?_⟩
  · intro hroom _
    exact (firingInvariant_of_reachable hreach hroom).pendingInvariant hthreads
  · intro hclear stopped hstep actions final hrun hstart
    obtain ⟨hquiet, hruns⟩ := (Quiet.of_clear hthreads hclear hstep).run hrun hstart
    exact ⟨hquiet.stopped, hruns⟩

/-- The only timer is in its callback. -/
def firingState : State Unit :=
  { (initial 0 : State Unit) with
    timers := { Timers.initial with nextId := 1, pendingTimers := {1} }
    running := true
    activeCallbacks := 1
    manager := .callback ⟨1, 0, (), false⟩
    adds := [.returned 1]
    additions := 1
    taken := [1]
    runs := [1] }

/-- The manager has been joined, and an addition waits for the mutex. -/
def clearingState : State Unit :=
  { (initial 0 : State Unit) with
    timers := { Timers.initial with nextId := 1 }
    manager := .joined
    control := .clear true
    adds := [.returned 1, .lock 0 ()]
    additions := 1
    taken := [1]
    runs := [1] }

theorem pendingTimers_exact_stoppingRun :
    PendingInvariant firingState ∧
      ∃ final : State Unit, Stopped final ∧ final.runs = [1] ∧
        final.adds = [.returned 1, .returned (-1)] := by
  have hfiring : (system 0).Reachable firingState :=
    ⟨[.callStart, .control, .control, .control, .callAdd 0 (), .add 0 0, .add 0 0, .add 0 0,
      .add 0 0, .manager 0 0, .manager 0 0, .manager 0 0, .manager 0 0], rfl⟩
  have hstop : (system 0).run firingState
      [.callStop true, .control, .control, .control, .manager 0 0, .manager 0 0,
        .manager 0 0, .manager 0 0, .manager 0 0, .callAdd 0 (), .control, .control] =
      some clearingState := rfl
  have hclearing : (system 0).Reachable clearingState := hfiring.run hstop
  refine ⟨(pendingTimers_exact hfiring).1 (by decide) rfl, ?_⟩
  have hstopped := (pendingTimers_exact hclearing).2 rfl _ rfl [.add 1 0, .add 1 0, .add 1 0] _
    rfl (by simp)
  exact ⟨_, hstopped.1, hstopped.2, rfl⟩

/-! ## When an id is given again -/

/-- A timer of one second that is added first. -/
def slowTask : TimerTask Unit := ⟨1, 1000000000, (), false⟩

/-- Of the first `additions` timers all but the slow one have been fired. -/
structure SlowPending (additions : ℕ) (state : State Unit) : Prop where
  timers : state.timers =
    { tasksQueue := [slowTask]
      activeTasks := AList.singleton 1 slowTask
      nextId := Int32.ofNat additions
      pendingTimers := {1} }
  live : state.terminated = false
  running : state.running = true
  shouldExit : state.shouldExit = false
  manager : state.manager = .testRunning
  adds : state.adds.any AddPhase.holdsMutex = false
  now : state.now = 0
  additions : state.additions = additions

theorem SlowPending.mutexFree {additions : ℕ} {state : State Unit}
    (hslow : SlowPending additions state) : state.mutexFree = true := by
  exact State.mutexFree_iff.mpr ⟨by rw [hslow.manager]; rfl, hslow.adds⟩

theorem slowPending_one : ∃ state, (system 0).Reachable state ∧ SlowPending 1 state := by
  let started : State Unit :=
    { initial 0 with running := true, manager := .testRunning }
  have hstarted : (system 0).Reachable started :=
    ⟨[.callStart, .control, .control, .control], rfl⟩
  have hadd : (system 0).run started (addActions started 1000 () 0) = _ :=
    run_addActions started rfl rfl rfl rfl le_rfl 1000 ()
  refine ⟨_, hstarted.run hadd, ?_⟩
  constructor <;> rfl

/-- One more timer is added, fired and gone. -/
theorem SlowPending.succ {additions : ℕ} {state : State Unit}
    (hreach : (system 0).Reachable state) (hslow : SlowPending additions state)
    (hfirst : 1 ≤ additions) (hroom : additions < 2 ^ 32) :
    ∃ next, (system 0).Reachable next ∧ SlowPending (additions + 1) next := by
  have hfree : state.mutexFree = true := hslow.mutexFree
  obtain ⟨htimers, hlive, hrunning, hexit, hmanager, hadds, hnow, hadditions⟩ := hslow
  let id := Int32.ofNat additions + 1
  let quickTask : TimerTask Unit := ⟨id, 0, (), false⟩
  have hnew : id ≠ 1 := by
    have hissued : Issued additions (Int32.ofNat 1) := ⟨1, le_rfl, hfirst, rfl⟩
    have hne := hissued.ne_next hroom
    rw [Int32.ofNat_add] at hne
    exact hne.symm
  let added : State Unit := { state with
    timers :=
      { tasksQueue := [quickTask, slowTask]
        activeTasks := (AList.singleton 1 slowTask).insert id quickTask
        nextId := id
        pendingTimers := {id, 1} }
    now := 0
    adds := state.adds ++ [.returned id]
    additions := additions + 1 }
  have haddsAdded : added.adds.any AddPhase.holdsMutex = false := by
    rw [List.any_append, hadds]
    rfl
  have hadd : (system 0).run state (addActions state 0 () 0) = some added := by
    rw [run_addActions state hlive hfree hexit hrunning (le_of_eq hnow), htimers, hadditions]
    rfl
  have hfreeAdded : added.mutexFree = true :=
    State.mutexFree_iff.mpr ⟨by rw [hmanager]; rfl, haddsAdded⟩
  have htop : added.timers.isTop quickTask = true :=
    Timers.isTop_iff.mpr (by simp [added, quickTask, slowTask])
  have hinactive : (AList.singleton 1 slowTask : AList fun _ : Int32 => _).lookup id = none :=
    AList.lookup_eq_none.mpr (by simpa [AList.mem_keys] using hnew)
  let called : State Unit := { added with
    timers :=
      { tasksQueue := [slowTask]
        activeTasks := AList.singleton 1 slowTask
        nextId := id
        pendingTimers := {id, 1} }
    activeCallbacks := state.activeCallbacks + 1
    manager := .callback quickTask
    taken := state.taken ++ [id]
    runs := state.runs ++ [id] }
  have hcall : (system 0).run added (callActions 0 0) = some called := by
    rw [run_callActions added hlive hfreeAdded hrunning hmanager le_rfl rfl htop le_rfl
      (AList.lookup_insert _) rfl, AList.erase_insert_of_lookup_eq_none hinactive]
    rfl
  have hreturn : (system 0).run called (returnActions 0) = _ :=
    run_returnActions called hlive haddsAdded rfl 0
  refine ⟨_, ((hreach.run hadd).run hcall).run hreturn, ?_, hlive, hrunning, hexit, rfl,
    haddsAdded, rfl, rfl⟩
  have hpending : ({id, 1} : Finset Int32).erase id = {1} :=
    Finset.erase_insert (by simpa using hnew)
  simp only [Timers.erasePending, called, quickTask, hpending, Int32.ofNat_add]
  rfl

theorem exists_slowPending (additions : ℕ) (hroom : additions < 2 ^ 32) :
    ∃ state, (system 0).Reachable state ∧ SlowPending (additions + 1) state := by
  induction additions with
  | zero => exact slowPending_one
  | succ additions ih =>
      obtain ⟨state, hreach, hslow⟩ := ih (by omega)
      exact SlowPending.succ hreach hslow (by omega) hroom

/-- The callback of the slow timer adds a timer, and that timer gets its id. -/
theorem pendingTimers_wrong_afterIdReuse :
    ∃ state : State Unit, (system 0).Reachable state ∧ state.additions = 2 ^ 32 + 1 ∧
      state.mutexFree = true ∧ ¬ PendingInvariant state := by
  obtain ⟨state, hreach, hslow⟩ := exists_slowPending (2 ^ 32 - 1) (by omega)
  have hfree : state.mutexFree = true := hslow.mutexFree
  obtain ⟨htimers, hlive, hrunning, hexit, hmanager, hadds, hnow, hadditions⟩ := hslow
  let called : State Unit := { state with
    timers :=
      { tasksQueue := []
        activeTasks := ∅
        nextId := 0
        pendingTimers := {1} }
    activeCallbacks := state.activeCallbacks + 1
    now := 1000000000
    manager := .callback slowTask
    taken := state.taken ++ [1]
    runs := state.runs ++ [1]
    additions := 2 ^ 32 }
  have hcall : (system 0).run state (callActions 1000000000 0) = some called := by
    have hget : state.timers.tasksQueue[0]? = some slowTask := by rw [htimers]; rfl
    have htop : state.timers.isTop slowTask = true := by rw [htimers]; rfl
    have hactive : state.timers.activeTasks.lookup slowTask.id = some slowTask := by
      rw [htimers]
      rfl
    have hclock : state.now ≤ 1000000000 := by omega
    have hdue : slowTask.expiryTime ≤ 1000000000 := le_rfl
    rw [run_callActions state hlive hfree hrunning hmanager hclock hget htop hdue hactive rfl,
      htimers, hadditions]
    rfl
  let added : State Unit := { called with
    timers :=
      { tasksQueue := [⟨1, 1000000000, (), false⟩]
        activeTasks := AList.singleton 1 ⟨1, 1000000000, (), false⟩
        nextId := 1
        pendingTimers := {1} }
    adds := state.adds ++ [.returned 1]
    additions := 2 ^ 32 + 1 }
  have hadd : (system 0).run called (addActions called 0 () 1000000000) = some added := by
    rw [run_addActions called hlive (State.mutexFree_iff.mpr ⟨rfl, hadds⟩) hexit hrunning
      le_rfl 0 ()]
    rfl
  have haddsAdded : added.adds.any AddPhase.holdsMutex = false := by
    rw [List.any_append, hadds]
    rfl
  have hreturn : (system 0).run added (returnActions 1000000000) = _ :=
    run_returnActions added hlive haddsAdded rfl 1000000000
  refine ⟨_, ((hreach.run hcall).run hadd).run hreturn, rfl,
    State.mutexFree_iff.mpr ⟨rfl, haddsAdded⟩, ?_⟩
  intro hinv
  have hpending := (hinv.pending 1).mpr
    (Or.inl ⟨⟨1, 1000000000, (), false⟩, rfl, rfl⟩)
  exact Finset.notMem_erase _ _ hpending

end CppProj.GracefulTimer
