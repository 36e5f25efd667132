import CppProj.GracefulTimerTransitions

/-!
# Runs of `GracefulTimer` that nobody disturbs

A call of `addNonBlockingTimer` that finds the mutex free and the manager
running adds its timer, and a manager that finds a due timer at the top of the
queue calls its callback and comes back to the test of `running_`.
-/

universe u

namespace CppProj.GracefulTimer

variable {Callback : Type u} {start now : ℤ}

/-- The actions of a call that is not disturbed. -/
def addActions (state : State Callback) (duration : ℤ) (callback : Callback) (now : ℤ) :
    List (Action Callback) :=
  [.callAdd duration callback, .add state.adds.length now, .add state.adds.length now,
    .add state.adds.length now, .add state.adds.length now]

theorem run_addActions (state : State Callback) (hlive : state.terminated = false)
    (hfree : state.mutexFree = true) (hexit : state.shouldExit = false)
    (hrunning : state.running = true) (hclock : state.now ≤ now) (duration : ℤ)
    (callback : Callback) :
    (system start).run state (addActions state duration callback now) =
      some { state with
        timers := state.timers.addNonBlockingTimer duration callback now
        now := now
        adds := state.adds ++ [.returned (state.timers.nextId + 1)]
        additions := state.additions + 1 } := by
  obtain ⟨hmanager, hadds⟩ := State.mutexFree_iff.mp hfree
  simp [addActions, TransitionSystem.run, system, step, addStep, State.setAdd,
    State.mutexFree, AddPhase.holdsMutex, hlive, hmanager, hadds, hexit, hrunning, hclock,
    Timers.addNonBlockingTimer]

/-- From the test of `running_` into the callback of the timer at the top. -/
def callActions (now : ℤ) (top : ℕ) : List (Action Callback) :=
  List.replicate 4 (.manager now top)

theorem run_callActions (state : State Callback) {copy task : TimerTask Callback} {top : ℕ}
    (hlive : state.terminated = false) (hfree : state.mutexFree = true)
    (hrunning : state.running = true) (hmanager : state.manager = .testRunning)
    (hclock : state.now ≤ now) (hget : state.timers.tasksQueue[top]? = some copy)
    (htop : state.timers.isTop copy = true) (hdue : copy.expiryTime ≤ now)
    (hactive : state.timers.activeTasks.lookup copy.id = some task)
    (hcancelled : task.isCancelled = false) :
    (system start).run state (callActions now top) =
      some { state with
        timers :=
          { state.timers with
            tasksQueue := state.timers.tasksQueue.eraseIdx top
            activeTasks := state.timers.activeTasks.erase copy.id }
        now := now
        activeCallbacks := state.activeCallbacks + 1
        manager := .callback task
        taken := state.taken ++ [task.id]
        runs := state.runs ++ [task.id] } := by
  have hadds := (State.mutexFree_iff.mp hfree).2
  have hnonempty : state.timers.tasksQueue.isEmpty = false := by
    cases hqueue : state.timers.tasksQueue with
    | nil => simp [hqueue] at hget
    | cons head tail => rfl
  have hiteration : state.timers.managerIteration now top =
      some (.taken task,
        { state.timers with
          tasksQueue := state.timers.tasksQueue.eraseIdx top
          activeTasks := state.timers.activeTasks.erase copy.id }) := by
    simp [Timers.managerIteration, hnonempty, hget, htop, hdue, hactive, hcancelled]
  simp [callActions, List.replicate, TransitionSystem.run, system, step, managerStep,
    State.mutexFree, ManagerPhase.holdsMutex, hlive, hmanager, hadds, hrunning, hclock,
    hiteration]

/-- From the end of the callback back to the test of `running_`. -/
def returnActions (now : ℤ) : List (Action Callback) :=
  List.replicate 4 (.manager now 0)

theorem run_returnActions (state : State Callback) {task : TimerTask Callback}
    (hlive : state.terminated = false) (hadds : state.adds.any AddPhase.holdsMutex = false)
    (hmanager : state.manager = .callback task) (now : ℤ) :
    (system start).run state (returnActions now) =
      some { state with
        timers := state.timers.erasePending task.id
        activeCallbacks := state.activeCallbacks - 1
        manager := .testRunning } := by
  simp [returnActions, List.replicate, TransitionSystem.run, system, step, managerStep,
    State.mutexFree, ManagerPhase.holdsMutex, hlive, hmanager, hadds]

end CppProj.GracefulTimer
