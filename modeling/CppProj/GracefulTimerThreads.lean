import CppProj.GracefulTimer
import CppProj.TransitionSystem

/-!
# The threads of `GracefulTimer`

Any number of calls of `addNonBlockingTimer` and `cancelTimer`, by any threads
and from inside callbacks, run with the manager and with one thread that calls
`start` and `stop`.  What a thread does between taking and releasing
`tasks_mutex_` without reading `running_` or `should_exit` is one step.  Both
sleeps of the manager have a time-out, so they may end at any time and the
notifications are left out.  A callback is opaque and ends by returning or by
an exception that the wrapper catches.
-/

universe u

namespace CppProj.GracefulTimer

variable {Callback : Type u}

/-- The position of `managerThread`.  The four phases with a task are inside
the wrapper of its callback: before the increment of `active_callbacks_`, in
the callback, before the decrement, and before the erasure from
`pending_timers_`. -/
inductive ManagerPhase (Callback : Type u) where
  | absent
  | testRunning
  | lock
  | inspect
  | emptyWait
  | afterWait
  | timedWait
  | wrapper (task : TimerTask Callback)
  | callback (task : TimerTask Callback)
  | decrement (task : TimerTask Callback)
  | erasePending (task : TimerTask Callback)
  | relock
  | exited
  | joined

/-- The position of the thread that calls `start` and `stop`. -/
inductive ControlPhase where
  | idle
  | startTest
  | startStore
  | startSpawn
  | stopTest (waitForCallbacks : Bool)
  | stopStore (waitForCallbacks : Bool)
  | stopNotify (waitForCallbacks : Bool)
  | join (waitForCallbacks : Bool)
  | waitForAllCallbacks
  | clear (waitForCallbacks : Bool)
  deriving DecidableEq

/-- One call of `addNonBlockingTimer`; it returns −1 when it refuses. -/
inductive AddPhase (Callback : Type u) where
  | lock (duration : ℤ) (callback : Callback)
  | testExit (duration : ℤ) (callback : Callback)
  | testRunning (duration : ℤ) (callback : Callback)
  | insert (duration : ℤ) (callback : Callback)
  | returned (id : Int32)

/-- `additions` counts the timers added.  `cancels` records the ids for which a
`cancelTimer` returned true, `taken` those that the manager has taken for
firing, and `runs` those whose callback it has called.  `terminated` is the end
of the program by `std::terminate`. -/
structure State (Callback : Type u) where
  timers : Timers Callback
  running : Bool
  shouldExit : Bool
  activeCallbacks : ℤ
  now : ℤ
  manager : ManagerPhase Callback
  control : ControlPhase
  adds : List (AddPhase Callback)
  terminated : Bool
  additions : ℕ
  cancels : List Int32
  taken : List Int32
  runs : List Int32

def initial (now : ℤ) : State Callback where
  timers := .initial
  running := false
  shouldExit := false
  activeCallbacks := 0
  now := now
  manager := .absent
  control := .idle
  adds := []
  terminated := false
  additions := 0
  cancels := []
  taken := []
  runs := []

/-- `giveUp` ends the wait for the callbacks by its time-out or by
`should_exit`. -/
inductive Action (Callback : Type u) where
  | setShouldExit
  | callStart
  | callStop (waitForCallbacks : Bool)
  | control
  | giveUp
  | callAdd (duration : ℤ) (callback : Callback)
  | add (index : ℕ) (now : ℤ)
  | cancelTimer (timerId : Int32)
  | manager (now : ℤ) (top : ℕ)

namespace ManagerPhase

def holdsMutex : ManagerPhase Callback → Bool
  | .inspect | .afterWait => true
  | _ => false

/-- A thread object that is joinable must not be assigned to. -/
def joinable : ManagerPhase Callback → Bool
  | .absent | .joined => false
  | _ => true

/-- The timer that the manager has taken and whose wrapper has not erased it
from `pending_timers_` yet. -/
def firing : ManagerPhase Callback → Option Int32
  | .wrapper task | .callback task | .decrement task | .erasePending task => some task.id
  | _ => none

def countedWrappers : ManagerPhase Callback → ℤ
  | .callback _ | .decrement _ => 1
  | _ => 0

/-- The timer that is taken and whose callback is not called yet. -/
def uncalled : ManagerPhase Callback → Option Int32
  | .wrapper task => some task.id
  | _ => none

end ManagerPhase

def AddPhase.holdsMutex : AddPhase Callback → Bool
  | .testExit _ _ | .testRunning _ _ | .insert _ _ => true
  | .lock _ _ | .returned _ => false

namespace State

def mutexFree (state : State Callback) : Bool :=
  !state.manager.holdsMutex && !state.adds.any AddPhase.holdsMutex

theorem mutexFree_iff {state : State Callback} :
    state.mutexFree = true ↔
      state.manager.holdsMutex = false ∧ state.adds.any AddPhase.holdsMutex = false := by
  rw [mutexFree, Bool.and_eq_true, Bool.not_eq_true', Bool.not_eq_true']

def setAdd (state : State Callback) (index : ℕ) (phase : AddPhase Callback) :
    State Callback :=
  { state with adds := state.adds.set index phase }

end State

def addStep (state : State Callback) (index : ℕ) (now : ℤ) : Option (State Callback) :=
  match state.adds[index]? with
  | some (.lock duration callback) =>
      if state.mutexFree then some (state.setAdd index (.testExit duration callback))
      else none
  | some (.testExit duration callback) =>
      some (state.setAdd index
        (if state.shouldExit then .returned (-1) else .testRunning duration callback))
  | some (.testRunning duration callback) =>
      some (state.setAdd index
        (if !state.running then .returned (-1) else .insert duration callback))
  | some (.insert duration callback) =>
      if state.now ≤ now then
        let timers := state.timers.addNonBlockingTimer duration callback now
        some { state.setAdd index (.returned timers.nextId) with
          timers := timers
          now := now
          additions := state.additions + 1 }
      else none
  | some (.returned _) | none => none

def cancelStep (state : State Callback) (timerId : Int32) : Option (State Callback) :=
  if state.mutexFree then
    match state.timers.cancelTimer timerId with
    | (answer, timers) =>
        some { state with
          timers := timers
          cancels := if answer then state.cancels ++ [timerId] else state.cancels }
  else none

def managerStep (state : State Callback) (now : ℤ) (top : ℕ) : Option (State Callback) :=
  match state.manager with
  | .absent | .exited | .joined => none
  | .testRunning =>
      some { state with manager := if state.running then .lock else .exited }
  | .lock => if state.mutexFree then some { state with manager := .inspect } else none
  | .inspect =>
      if state.now ≤ now then
        match state.timers.managerIteration now top with
        | none => none
        | some (.waitForTask, _) =>
            some { state with
              now := now
              -- the predicate of the sleep reads `running_` first
              manager := if state.running then .emptyWait else .afterWait }
        | some (.waitUntil _, _) => some { state with now := now, manager := .timedWait }
        | some (.skipped, timers) =>
            some { state with timers := timers, now := now, manager := .testRunning }
        | some (.taken task, timers) =>
            some { state with
              timers := timers
              now := now
              manager := .wrapper task
              taken := state.taken ++ [task.id] }
      else none
  | .emptyWait => if state.mutexFree then some { state with manager := .afterWait } else none
  | .afterWait =>
      some { state with
        manager :=
          if !state.running then .exited
          else if state.timers.tasksQueue.isEmpty then .testRunning
          else .inspect }
  | .timedWait =>
      if state.mutexFree then some { state with manager := .testRunning } else none
  | .wrapper task =>
      some { state with
        activeCallbacks := state.activeCallbacks + 1
        manager := .callback task
        runs := state.runs ++ [task.id] }
  | .callback task => some { state with manager := .decrement task }
  | .decrement task =>
      some { state with
        activeCallbacks := state.activeCallbacks - 1
        manager := .erasePending task }
  | .erasePending task =>
      if state.mutexFree then
        some { state with
          timers := state.timers.erasePending task.id
          manager := .relock }
      else none
  | .relock =>
      if state.mutexFree then some { state with manager := .testRunning } else none

def controlStep (state : State Callback) : Option (State Callback) :=
  match state.control with
  | .idle => none
  | .startTest =>
      some { state with control := if state.running then .idle else .startStore }
  | .startStore => some { state with running := true, control := .startSpawn }
  | .startSpawn =>
      if state.manager.joinable then some { state with terminated := true }
      else some { state with manager := .testRunning, control := .idle }
  | .stopTest waitForCallbacks =>
      some { state with
        control := if !state.running then .idle else .stopStore waitForCallbacks }
  | .stopStore waitForCallbacks =>
      some { state with running := false, control := .stopNotify waitForCallbacks }
  | .stopNotify waitForCallbacks =>
      some { state with control := .join waitForCallbacks }
  | .join waitForCallbacks =>
      let control := if waitForCallbacks then .waitForAllCallbacks else .clear false
      match state.manager with
      | .absent | .joined => some { state with control := control }
      | .exited => some { state with manager := .joined, control := control }
      | _ => none
  | .waitForAllCallbacks =>
      if state.activeCallbacks ≤ 0 then some { state with control := .clear true }
      else none
  | .clear _ =>
      if state.mutexFree then
        some { state with timers := state.timers.clear, control := .idle }
      else none

def step (state : State Callback) (action : Action Callback) : Option (State Callback) :=
  if state.terminated then none
  else
    match action with
    | .setShouldExit => some { state with shouldExit := true }
    | .callStart =>
        if state.control = .idle then some { state with control := .startTest } else none
    | .callStop waitForCallbacks =>
        if state.control = .idle then
          some { state with control := .stopTest waitForCallbacks }
        else none
    | .control => controlStep state
    | .giveUp =>
        if state.control = .waitForAllCallbacks then
          some { state with control := .clear true }
        else none
    | .callAdd duration callback =>
        some { state with adds := state.adds ++ [.lock duration callback] }
    | .add index now => addStep state index now
    | .cancelTimer timerId => cancelStep state timerId
    | .manager now top => managerStep state now top

def system (start : ℤ) : TransitionSystem (State Callback) (Action Callback) :=
  ⟨initial start, step⟩

end CppProj.GracefulTimer
