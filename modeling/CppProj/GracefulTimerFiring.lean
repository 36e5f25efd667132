import CppProj.GracefulTimerPending

/-!
# A running manager fires what is due

The work of the manager has a rank: eight for each entry of the queue, and
fewer for the part of an iteration that is left.  While an active timer is due
and not cancelled, every step of the manager lowers the rank, and only an
addition raises it.  So a manager that keeps running calls the callback within
a number of its own steps that depends on the length of the queue and on the
additions in between, whatever the other threads do.
-/

universe u

namespace CppProj.GracefulTimer

variable {Callback : Type u}

/-- The steps left of an iteration that meets neither an empty queue nor an
early timer. -/
def ManagerPhase.rank : ManagerPhase Callback → ℕ
  | .absent | .inspect | .exited | .joined => 0
  | .lock | .afterWait => 1
  | .testRunning | .emptyWait => 2
  | .timedWait | .relock => 3
  | .erasePending _ => 4
  | .decrement _ => 5
  | .callback _ => 6
  | .wrapper _ => 7

def State.rank (state : State Callback) : ℕ :=
  8 * state.timers.tasksQueue.length + state.manager.rank

def Action.managerSteps : Action Callback → ℕ
  | .manager _ _ => 1
  | _ => 0

/-- `running_` is true, and the manager reads no clock before `due`. -/
def KeepsRunning (due : ℤ) (state : State Callback) (action : Action Callback) : Prop :=
  state.running = true ∧
    match action with
    | .manager now _ => due ≤ now
    | _ => True

/-- The timer is active and not cancelled, or taken and not called yet. -/
structure Ahead (id : Int32) (due : ℤ) (state : State Callback) : Prop where
  thread : state.manager.joinable = true
  ahead : (∃ task, state.timers.activeTasks.lookup id = some task ∧
    task.isCancelled = false ∧ task.expiryTime = due) ∨ state.manager.uncalled = some id

theorem ManagerPhase.rank_le (manager : ManagerPhase Callback) : manager.rank ≤ 7 := by
  cases manager <;> simp [rank]

theorem ManagerPhase.uncalled_of_firing {manager : ManagerPhase Callback}
    (hfiring : manager.firing = none) : manager.uncalled = none := by
  cases manager <;> first | rfl | cases hfiring

theorem rank_lt_of_managerStep {state next : State Callback} {now : ℤ} {top : ℕ}
    (hstep : managerStep state now top = some next) (hrunning : state.running = true)
    {copy : TimerTask Callback} (hmem : copy ∈ state.timers.tasksQueue)
    (hdue : copy.expiryTime ≤ now) : next.rank < state.rank := by
  have hnonempty : state.timers.tasksQueue.isEmpty = false := by
    cases hqueue : state.timers.tasksQueue with
    | nil => simp [hqueue] at hmem
    | cons head tail => rfl
  unfold managerStep at hstep
  cases hmanager : state.manager with
  | absent | exited | joined => simp [hmanager] at hstep
  | testRunning | afterWait =>
      simp only [hmanager, hrunning, hnonempty] at hstep
      cases hstep
      simp [State.rank, ManagerPhase.rank, hmanager]
  | lock | emptyWait | timedWait | erasePending task | relock =>
      simp only [hmanager] at hstep
      split_ifs at hstep
      cases hstep
      simp [State.rank, ManagerPhase.rank, hmanager, Timers.erasePending]
  | wrapper task | callback task | decrement task =>
      simp only [hmanager] at hstep
      cases hstep
      simp [State.rank, ManagerPhase.rank, hmanager]
  | inspect =>
      simp only [hmanager] at hstep
      by_cases hclock : state.now ≤ now
      · rw [if_pos hclock] at hstep
        cases hiteration : state.timers.managerIteration now top with
        | none => simp [hiteration] at hstep
        | some result =>
            obtain ⟨iteration, timers⟩ := result
            have hmove := Timers.iterationMove_of_managerIteration hiteration
            simp only [hiteration] at hstep
            cases hmove with
            | waitForTask hempty =>
                rw [hempty] at hmem
                cases hmem
            | waitUntil task hleast hearly =>
                have hle := hleast copy hmem
                omega
            | skipped position popped hget hcancelled =>
                obtain ⟨hlt, _⟩ := List.getElem?_eq_some_iff.mp hget
                have hlength := List.length_eraseIdx_add_one hlt
                cases hstep
                simp only [State.rank, ManagerPhase.rank, hmanager]
                omega
            | taken position popped task hget hexpired hactive hcancelled =>
                obtain ⟨hlt, _⟩ := List.getElem?_eq_some_iff.mp hget
                have hlength := List.length_eraseIdx_add_one hlt
                cases hstep
                simp only [State.rank, ManagerPhase.rank, hmanager]
                omega
      · rw [if_neg hclock] at hstep
        cases hstep

namespace Ahead

variable {state next : State Callback} {id : Int32} {due : ℤ}

theorem managerMove (hfiring : FiringInvariant state) {now : ℤ}
    (hmove : ManagerMove state now next) {task : TimerTask Callback}
    (hlookup : state.timers.activeTasks.lookup id = some task)
    (hcancelled : task.isCancelled = false) :
    state.timers.activeTasks.lookup id = next.timers.activeTasks.lookup id ∨
      next.manager.uncalled = some id := by
  cases hmove with
  | skipped timers hinspect hmove =>
      cases hmove with
      | skipped top copy hget hflagged =>
          refine Or.inl (AList.lookup_erase_ne ?_).symm
          rintro rfl
          rw [hflagged task hlookup] at hcancelled
          cases hcancelled
  | taken timers fired hinspect hmove =>
      cases hmove with
      | taken top copy task' hget hexpired hactive hfresh =>
          obtain ⟨hid, _⟩ := hfiring.active copy.id fired hactive
          by_cases heq : id = copy.id
          · exact Or.inr (by rw [heq, ← hid]; rfl)
          · exact Or.inl (AList.lookup_erase_ne heq).symm
  | _ => exact Or.inl rfl

theorem managerStep (hahead : Ahead id due state) (hfiring : FiringInvariant state)
    {now : ℤ} {top : ℕ} (hstep : GracefulTimer.managerStep state now top = some next)
    (hrunning : state.running = true) (hdue : due ≤ now) :
    id ∈ next.runs ∨ (Ahead id due next ∧ next.rank < state.rank) := by
  have hmove := managerMove_of_managerStep hstep
  obtain ⟨_, ⟨task, hlookup, hcancelled, hexpiry⟩ | huncalled⟩ := hahead
  · obtain ⟨_, hmem⟩ := hfiring.active id task hlookup
    have hrank := rank_lt_of_managerStep hstep hrunning hmem (by rw [← hexpiry] at hdue; exact hdue)
    refine Or.inr ⟨⟨hmove.joinable.2, ?_⟩, hrank⟩
    rcases managerMove hfiring hmove hlookup hcancelled with heq | htaken
    · exact Or.inl ⟨task, heq ▸ hlookup, hcancelled, hexpiry⟩
    · exact Or.inr htaken
  · cases hmanager : state.manager with
    | wrapper task =>
        rw [hmanager] at huncalled
        cases huncalled
        simp only [GracefulTimer.managerStep, hmanager] at hstep
        cases hstep
        exact Or.inl (by simp)
    | _ =>
        rw [hmanager] at huncalled
        cases huncalled

/-- A step of another thread keeps the timer ahead, unless it cancels it, and
raises the rank only by an addition. -/
theorem otherStep (hahead : Ahead id due state) (hfiring : FiringInvariant state)
    (hthreads : ThreadsInvariant state) {action : Action Callback}
    (hstep : step state action = some next) (hother : action.managerSteps = 0)
    (hrunning : state.running = true) (hroom : next.additions ≤ 2 ^ 32) :
    id ∈ next.cancels ∨
      (Ahead id due next ∧
        next.rank + 8 * state.additions ≤ state.rank + 8 * next.additions) := by
  obtain ⟨hthread, hactive⟩ := hahead
  unfold step at hstep
  rw [if_neg (by simp [hthreads.live])] at hstep
  cases action with
  | setShouldExit | callAdd duration callback =>
      cases hstep
      exact Or.inr ⟨⟨hthread, hactive⟩, le_rfl⟩
  | callStart | callStop waitForCallbacks | giveUp =>
      simp only at hstep
      split_ifs at hstep
      cases hstep
      exact Or.inr ⟨⟨hthread, hactive⟩, le_rfl⟩
  | control =>
      cases controlMove_of_controlStep hthreads hstep with
      | moved running control hfits hexit => exact Or.inr ⟨⟨hthread, hactive⟩, le_rfl⟩
      | spawned _ hjoinable =>
          rw [hthread] at hjoinable
          cases hjoinable
      | joined control hexited hfits =>
          rw [hthreads.exited hexited] at hrunning
          cases hrunning
      | cleared hstopped _ =>
          rw [hrunning] at hstopped
          cases hstopped
  | add index now =>
      cases addMove_of_addStep hstep with
      | quiet phase hinsert => exact Or.inr ⟨⟨hthread, hactive⟩, le_rfl⟩
      | inserted duration callback hget =>
          refine Or.inr ⟨⟨hthread, ?_⟩, ?_⟩
          · apply hactive.imp_left
            rintro ⟨task, hlookup, hcancelled, hexpiry⟩
            refine ⟨task, ?_, hcancelled, hexpiry⟩
            have hne := (hfiring.issued_of_active hlookup).ne_next hroom
            rw [Int32.ofNat_add, ← hfiring.counted] at hne
            exact (AList.lookup_insert_ne hne).trans hlookup
          · simp only [State.rank, State.setAdd, Timers.addNonBlockingTimer, List.length_cons]
            omega
  | cancelTimer timerId =>
      cases cancelMove_of_cancelStep hstep with
      | missed hlookup => exact Or.inr ⟨⟨hthread, hactive⟩, le_rfl⟩
      | cancelled task hlookup =>
          by_cases heq : id = timerId
          · exact Or.inl (by simp [heq])
          · refine Or.inr ⟨⟨hthread, ?_⟩, ?_⟩
            · apply hactive.imp_left
              rintro ⟨active, hactive, hcancelled, hexpiry⟩
              refine ⟨active, ?_, hcancelled, hexpiry⟩
              simp only [Timers.cancelTimer, hlookup]
              exact (AList.lookup_insert_ne heq).trans hactive
            · simp [State.rank, Timers.cancelTimer, hlookup]
  | manager now top => cases hother

end Ahead

/-- The manager can move, or an addition that holds the mutex can. -/
theorem exists_step_of_running {state : State Callback} (hthreads : ThreadsInvariant state)
    (hrunning : state.running = true) (hthread : state.manager.joinable = true) {now : ℤ}
    (hclock : state.now ≤ now) :
    (∃ top next, step state (.manager now top) = some next) ∨
      ∃ index phase next, state.adds[index]? = some phase ∧ phase.holdsMutex = true ∧
        step state (.add index now) = some next := by
  have hlive : ¬ state.terminated = true := by simp [hthreads.live]
  cases hadds : state.adds.any AddPhase.holdsMutex with
  | false =>
      apply Or.inl
      simp only [step, if_neg hlive, managerStep]
      cases hmanager : state.manager with
      | absent | joined =>
          rw [hmanager] at hthread
          cases hthread
      | exited =>
          rw [hthreads.exited hmanager] at hrunning
          cases hrunning
      | inspect =>
          obtain ⟨top, ⟨iteration, timers⟩, hiteration⟩ :=
            state.timers.exists_managerIteration now
          refine ⟨top, ?_⟩
          simp only [if_pos hclock, hiteration]
          cases iteration <;> exact ⟨_, rfl⟩
      | lock | emptyWait | timedWait | relock | erasePending task =>
          have hfree : state.mutexFree = true :=
            State.mutexFree_iff.mpr ⟨by rw [hmanager]; rfl, hadds⟩
          simp only [if_pos hfree]
          exact ⟨0, _, rfl⟩
      | _ => exact ⟨0, _, rfl⟩
  | true =>
      apply Or.inr
      obtain ⟨phase, hmem, hholds⟩ := List.any_eq_true.mp hadds
      obtain ⟨index, hget⟩ := List.mem_iff_getElem?.mp hmem
      refine ⟨index, phase, ?_⟩
      simp only [step, if_neg hlive, addStep, hget]
      cases phase with
      | lock duration callback | returned id => cases hholds
      | testExit duration callback | testRunning duration callback =>
          exact ⟨_, trivial, hholds, rfl⟩
      | insert duration callback =>
          simp only [if_pos hclock]
          exact ⟨_, trivial, hholds, rfl⟩

/-- In any run through which `running_` stays true, a due timer that nobody
cancels is called within so many steps of the manager. -/
theorem Ahead.run {start : ℤ} {state final : State Callback} {id : Int32} {due : ℤ}
    {actions : List (Action Callback)} (hahead : Ahead id due state)
    (hreach : (system start).Reachable state)
    (hrun : (system start).run state actions = some final)
    (hkeeps : (system start).StepsMeet (KeepsRunning due) state actions)
    (hroom : final.additions ≤ 2 ^ 32) (hcancels : id ∉ final.cancels) :
    id ∈ final.runs ∨
      (actions.map Action.managerSteps).sum + final.rank + 8 * state.additions ≤
        state.rank + 8 * final.additions := by
  induction actions generalizing state with
  | nil =>
      cases hrun
      exact Or.inr (by simp)
  | cons action rest ih =>
      obtain ⟨next, hstep, hrest⟩ := TransitionSystem.run_cons_eq_some.mp hrun
      obtain ⟨⟨hrunning, hclock⟩, hkeepsRest⟩ := hkeeps
      have hthreads := threadsInvariant_of_reachable hreach
      have hreachNext := TransitionSystem.ReachableFrom.tail hreach hstep
      have hlater := HistoryLe.of_run (hthreads.step hstep) hrest
      have hadditions := (HistoryLe.of_step hthreads hstep).additions
      have hadditionsLater := hlater.additions
      have hfiring := firingInvariant_of_reachable hreach (by omega)
      have hnext : id ∈ next.runs ∨ (Ahead id due next ∧
          action.managerSteps + next.rank + 8 * state.additions ≤
            state.rank + 8 * next.additions) := by
        by_cases hother : action.managerSteps = 0
        · rcases hahead.otherStep hfiring hthreads hstep hother hrunning (by omega) with
            hcancelled | ⟨haheadNext, hrank⟩
          · exact (hcancels (hlater.cancels.subset hcancelled)).elim
          · exact Or.inr ⟨haheadNext, by omega⟩
        · cases action with
          | manager now top =>
              change step state (.manager now top) = some next at hstep
              unfold step at hstep
              rw [if_neg (by simp [hthreads.live])] at hstep
              apply (hahead.managerStep hfiring hstep hrunning hclock).imp_right
              rintro ⟨haheadNext, hrank⟩
              refine ⟨haheadNext, ?_⟩
              simp only [Action.managerSteps]
              omega
          | _ => exact (hother rfl).elim
      rcases hnext with hran | ⟨haheadNext, hrank⟩
      · exact Or.inl (hlater.runs.subset hran)
      · apply (ih haheadNext hreachNext hrest (hkeepsRest next hstep)).imp_right
        intro hrankRest
        rw [List.map_cons, List.sum_cons]
        omega

end CppProj.GracefulTimer
