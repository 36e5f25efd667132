import CppProj.ConditionVariable
import CppProj.ListUpdate
import CppProj.TransitionSystem
import Mathlib.Algebra.Ring.Nat

/-!
# `GearMonitor` of `pState.cpp`

Calls of `startMonitoring`, `processCanMessage` and `stopMonitoring` run against
the 5-minute timer thread, at the granularity of locks, waits, notifications and
joins.  Which mutexes a thread holds and which one it asks for is read off where
it stands, with the calls below it on its stack: `stopTimer` is called with
nothing held, under `mutex_` from `startMonitoring`, and under both mutexes from
`resetTimer`.

Whether the five minutes have passed is left open, and the callback does not call
the monitor.
-/

namespace CppProj.GearMonitor

inductive GearPosition where
  | P
  | NON_P
  deriving DecidableEq

/-- `mutex_` and `timer_mutex_`. -/
inductive Mutex where
  | mutex
  | timerMutex
  deriving DecidableEq

/-- Where the timer thread stands.  `timedOut` is a wait whose 100 ms have passed,
`lastTest` its evaluation of the predicate, and `unlock` the end of an iteration
that is the last one or not. -/
inductive TimerPhase where
  | testActive
  | lock
  | checkRemaining
  | callback
  | clearActive
  | wait (phase : WaitPhase)
  | timedOut
  | lastTest
  | unlock (last : Bool)
  | finished
  deriving DecidableEq

inductive Caller where
  | stopMonitoring
  | startMonitoring
  | resetTimer
  deriving DecidableEq

/-- Where a call stands.  The positions of `stopTimer` and of the rest of
`start5MinuteTimer` carry the caller. -/
inductive CallPhase where
  | startLock
  | startTest
  | startSet
  | stopLock
  | stopClear
  | stopUnlock
  | messageLock (gear : GearPosition)
  | messageTest (gear : GearPosition)
  | messageUpdate (gear : GearPosition)
  | messageCheck
  | resetLock
  | resetTest
  | resetNotify
  | resetJoinable
  | resetJoin
  | resetUnlock
  | timerLock (caller : Caller)
  | timerClear (caller : Caller)
  | timerUnlock (caller : Caller)
  | timerNotify (caller : Caller)
  | timerJoinable (caller : Caller)
  | timerJoin (caller : Caller)
  | activate (caller : Caller)
  | assignThread (caller : Caller)
  | unlock
  | returned
  deriving DecidableEq

namespace TimerPhase

def holds : TimerPhase → List Mutex
  | .checkRemaining | .callback | .clearActive | .lastTest | .unlock _ => [.timerMutex]
  | .wait phase => if phase.holdsMutex then [.timerMutex] else []
  | _ => []

def requests : TimerPhase → Option Mutex
  | .lock | .wait .notified | .timedOut => some .timerMutex
  | _ => none

def notify : TimerPhase → TimerPhase
  | .wait phase => .wait phase.notify
  | phase => phase

/-- The thread cannot end without `timer_mutex_`, which it does not hold. -/
def mustAcquire (timerActive : Bool) : TimerPhase → Bool
  | .testActive => timerActive
  | .lock | .wait .blocked | .wait .notified | .timedOut => true
  | _ => false

end TimerPhase

def Caller.holds : Caller → List Mutex
  | .stopMonitoring => []
  | .startMonitoring => [.mutex]
  | .resetTimer => [.mutex, .timerMutex]

namespace CallPhase

def holds : CallPhase → List Mutex
  | .startTest | .startSet | .stopClear | .stopUnlock | .messageTest _ | .messageUpdate _
  | .messageCheck | .resetLock | .unlock => [.mutex]
  | .resetTest | .resetNotify | .resetJoinable | .resetJoin | .resetUnlock =>
      [.mutex, .timerMutex]
  | .timerLock caller | .timerNotify caller | .timerJoinable caller | .timerJoin caller
  | .activate caller | .assignThread caller => caller.holds
  | .timerClear caller | .timerUnlock caller => .timerMutex :: caller.holds
  | .startLock | .stopLock | .messageLock _ | .returned => []

def requests : CallPhase → Option Mutex
  | .startLock | .stopLock | .messageLock _ => some .mutex
  | .resetLock | .timerLock _ => some .timerMutex
  | _ => none

def joins : CallPhase → Bool
  | .resetJoin | .timerJoin _ => true
  | _ => false

end CallPhase

/-- `timer` is `none` while `timer_thread_` is not joinable. -/
structure State where
  timerActive : Bool
  monitoringActive : Bool
  currentGear : GearPosition
  lastGear : GearPosition
  timer : Option TimerPhase
  calls : List CallPhase
  deriving DecidableEq

inductive Request where
  | startMonitoring
  | processCanMessage (gear : GearPosition)
  | stopMonitoring
  deriving DecidableEq

/-- `timer` says whether the five minutes have passed. -/
inductive Action where
  | call (request : Request)
  | move (index : ℕ)
  | timer (expired : Bool)
  | timeout
  | spuriousWakeup
  deriving DecidableEq

def initial : State where
  timerActive := false
  monitoringActive := false
  currentGear := .P
  lastGear := .P
  timer := none
  calls := []

def Request.begin : Request → CallPhase
  | .startMonitoring => .startLock
  | .processCanMessage gear => .messageLock gear
  | .stopMonitoring => .stopLock

namespace State

def free (state : State) (which : Mutex) : Bool :=
  state.calls.all (fun call => !call.holds.contains which) &&
    state.timer.all fun phase => !phase.holds.contains which

def setCall (state : State) (index : ℕ) (phase : CallPhase) : State :=
  { state with calls := state.calls.set index phase }

end State

def Caller.afterStopTimer : Caller → CallPhase
  | .stopMonitoring => .returned
  | .startMonitoring => .activate .startMonitoring
  | .resetTimer => .activate .resetTimer

def Caller.afterStart : Caller → CallPhase
  | .resetTimer => .resetUnlock
  | .stopMonitoring | .startMonitoring => .unlock

def timerStep (state : State) (expired : Bool) : TimerPhase → Option State
  | .testActive =>
      some { state with timer := some (if state.timerActive then .lock else .finished) }
  | .lock =>
      if state.free .timerMutex then some { state with timer := some .checkRemaining } else none
  | .checkRemaining =>
      some { state with timer := some (if expired then .callback else .wait .testing) }
  | .callback => some { state with timer := some .clearActive }
  | .clearActive => some { state with timerActive := false, timer := some (.unlock true) }
  | .wait .testing =>
      some { state with
        timer := some (if state.timerActive then .wait .blocking else .unlock true) }
  | .wait .blocking => some { state with timer := some (.wait .blocked) }
  | .wait .notified =>
      if state.free .timerMutex then some { state with timer := some (.wait .testing) } else none
  | .timedOut =>
      if state.free .timerMutex then some { state with timer := some .lastTest } else none
  | .lastTest =>
      some { state with timer := some (.unlock (!state.timerActive)) }
  | .unlock last => some { state with timer := some (if last then .finished else .testActive) }
  | .wait .blocked | .finished => none

def callStep (state : State) (index : ℕ) (phase : CallPhase) : Option State :=
  let acquire (which : Mutex) (after : CallPhase) : Option State :=
    if state.free which then some (state.setCall index after) else none
  match phase with
  | .startLock => acquire .mutex .startTest
  | .startTest =>
      some (state.setCall index (if state.monitoringActive then .unlock else .startSet))
  | .startSet =>
      some { state.setCall index (.timerLock .startMonitoring) with
        monitoringActive := true
        currentGear := .P
        lastGear := .P }
  | .stopLock => acquire .mutex .stopClear
  | .stopClear => some { state.setCall index .stopUnlock with monitoringActive := false }
  | .stopUnlock => some (state.setCall index (.timerLock .stopMonitoring))
  | .messageLock gear => acquire .mutex (.messageTest gear)
  | .messageTest gear =>
      some (state.setCall index (if state.monitoringActive then .messageUpdate gear else .unlock))
  | .messageUpdate gear =>
      some { state.setCall index .messageCheck with
        lastGear := state.currentGear
        currentGear := gear }
  | .messageCheck =>
      some (state.setCall index
        (if state.lastGear = .P ∧ state.currentGear = .NON_P then .resetLock else .unlock))
  | .resetLock => acquire .timerMutex .resetTest
  | .resetTest =>
      some (state.setCall index (if state.timerActive then .resetNotify else .resetUnlock))
  | .resetNotify =>
      some { state.setCall index .resetJoinable with
        timer := state.timer.map TimerPhase.notify }
  | .resetJoinable =>
      some (state.setCall index
        (if state.timer.isSome then .resetJoin else .timerLock .resetTimer))
  | .resetJoin =>
      if state.timer = some .finished then
        some { state.setCall index (.timerLock .resetTimer) with timer := none }
      else none
  | .resetUnlock => some (state.setCall index .unlock)
  | .timerLock caller => acquire .timerMutex (.timerClear caller)
  | .timerClear caller =>
      some { state.setCall index (.timerUnlock caller) with timerActive := false }
  | .timerUnlock caller => some (state.setCall index (.timerNotify caller))
  | .timerNotify caller =>
      some { state.setCall index (.timerJoinable caller) with
        timer := state.timer.map TimerPhase.notify }
  | .timerJoinable caller =>
      some (state.setCall index
        (if state.timer.isSome then .timerJoin caller else caller.afterStopTimer))
  | .timerJoin caller =>
      if state.timer = some .finished then
        some { state.setCall index caller.afterStopTimer with timer := none }
      else none
  | .activate caller =>
      some { state.setCall index (.assignThread caller) with timerActive := true }
  | .assignThread caller =>
      -- assigning to a joinable `std::thread` would end the program
      if state.timer = none then
        some { state.setCall index caller.afterStart with timer := some .testActive }
      else none
  | .unlock => some (state.setCall index .returned)
  | .returned => none

def step (state : State) : Action → Option State
  | .call request => some { state with calls := state.calls ++ [request.begin] }
  | .move index => state.calls[index]?.bind (callStep state index)
  | .timer expired => state.timer.bind (timerStep state expired)
  | .timeout =>
      if state.timer = some (.wait .blocked) then some { state with timer := some .timedOut }
      else none
  | .spuriousWakeup =>
      if state.timer = some (.wait .blocked) then
        some { state with timer := some (.wait .notified) }
      else none

def system : TransitionSystem State Action where
  initial := initial
  step := step

/-! ## The two deadlocks -/

/-- A thread asks for a mutex that it holds. -/
def SelfLock (state : State) : Prop :=
  (∃ call ∈ state.calls, ∃ which, call.requests = some which ∧ which ∈ call.holds) ∨
    ∃ phase, state.timer = some phase ∧ ∃ which, phase.requests = some which ∧
      which ∈ phase.holds

/-- A call joins the timer thread under a mutex without which that thread cannot
end. -/
def JoinsHolding (state : State) : Prop :=
  ∃ call ∈ state.calls, call.joins = true ∧ .timerMutex ∈ call.holds ∧
    ∃ phase, state.timer = some phase ∧ phase.mustAcquire state.timerActive = true

end CppProj.GearMonitor
