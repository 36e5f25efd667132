import CppProj.TransitionSystem
import Mathlib.Algebra.Ring.Int.Defs
import Mathlib.Algebra.Ring.Nat
import Mathlib.Order.Lattice

/-!
# `PstateMonitor` of `pstate.cpp`

One control thread starts, stops and destroys the monitor, `processCanMessage`
is called under `state_mutex_` with one frame after the other, and `timerLoop`
runs in the timer thread.  `timer_state_` and `remaining_ms_` are atomics that
are also used without the mutex.  The clock is in nanoseconds and never goes
back; durations are in milliseconds.
-/

namespace CppProj.PstateMonitor

inductive PState where
  | P
  | NON_P
  deriving DecidableEq

inductive TimerState where
  | STOPPED
  | RUNNING
  | EXPIRED
  deriving DecidableEq

/-- Where `timerLoop` stands.  `start` is its `start_time`; `reading` is the
clock reading on which it has decided to time out, and `wake` the end of its
sleep. -/
inductive ThreadPhase where
  | readStart
  | testLoop (start : ℤ)
  | checkElapsed (start : ℤ)
  | expire (reading : ℤ)
  | callback (reading : ℤ)
  | lock (start : ℤ)
  | testReset (start : ℤ)
  | resetStart
  | resetRemaining (start : ℤ)
  | unlock (start : ℤ)
  | sleeping (start wake : ℤ)
  | finished
  deriving DecidableEq

/-- Where the call of `processCanMessage` stands that holds the mutex. -/
inductive MessagePhase where
  | idle
  | update (canData : UInt8)
  | checkJump
  | resetTest
  | resetStore
  | unlock
  deriving DecidableEq

inductive ControlPhase where
  | ready
  | startTest
  | startStore
  | startAssign
  | stopTest (destroying : Bool)
  | stopStore (destroying : Bool)
  | stopJoin (destroying : Bool)
  | destroyed
  deriving DecidableEq

/-- A call of `on_timeout_callback_`: when the monitor was started, when the call
was made, and the jumps that had been processed by then. -/
structure Timeout where
  startedAt : ℤ
  calledAt : ℤ
  jumps : List ℤ
  deriving DecidableEq

/-- `thread` is `none` while `timer_thread_` is not joinable.  `jumps` are the
times at which a frame has taken the gear state from P to NON_P, and
`returnedJoinable` records that a `stopMonitor` has returned with a joinable
thread. -/
structure State where
  now : ℤ
  currentPState : PState
  lastPState : PState
  timerState : TimerState
  remainingMs : UInt64
  thread : Option ThreadPhase
  message : MessagePhase
  control : ControlPhase
  startedAt : ℤ
  jumps : List ℤ
  timeouts : List Timeout
  returnedJoinable : Bool
  deriving DecidableEq

/-- `processCanMessage` carries the first byte of the frame, the only one that
is read. -/
inductive Action where
  | tick (now : ℤ)
  | startMonitor
  | stopMonitor
  | destroy
  | control
  | processCanMessage (canData : UInt8)
  | message
  | thread
  deriving DecidableEq

/-- The duration given to the constructor, and whether a callback has been
set. -/
structure Config where
  totalDurationMs : UInt64
  onTimeoutCallback : Bool

def initial (config : Config) : State where
  now := 0
  currentPState := .P
  lastPState := .P
  timerState := .STOPPED
  remainingMs := config.totalDurationMs
  thread := none
  message := .idle
  control := .ready
  startedAt := 0
  jumps := []
  timeouts := []
  returnedJoinable := false

def parseCanSignal (canData : UInt8) : PState :=
  if canData &&& 0x01 ≠ 0 then .NON_P else .P

def ThreadPhase.holdsMutex : ThreadPhase → Bool
  | .testReset _ | .resetStart | .resetRemaining _ | .unlock _ => true
  | _ => false

namespace State

def checkPToNonPJump (state : State) : Bool :=
  state.lastPState == .P && state.currentPState == .NON_P

def mutexFree (state : State) : Bool :=
  state.message == .idle && state.thread.all fun phase => !phase.holdsMutex

end State

def Config.duration (config : Config) : ℤ :=
  config.totalDurationMs.toNat * 1000000

def elapsedMs (start now : ℤ) : ℤ :=
  (now - start) / 1000000

def threadStep (config : Config) (state : State) : ThreadPhase → Option State
  | .readStart => some { state with thread := some (.testLoop state.now) }
  | .testLoop start =>
      some { state with
        thread := some (if state.timerState = .RUNNING then .checkElapsed start else .finished) }
  | .checkElapsed start =>
      some { state with
        thread := some
          (if (config.totalDurationMs.toNat : ℤ) ≤ elapsedMs start state.now then
            .expire state.now
          else .lock start) }
  | .expire reading =>
      some { state with timerState := .EXPIRED, thread := some (.callback reading) }
  | .callback _ =>
      if config.onTimeoutCallback then
        some { state with
          timeouts := state.timeouts ++ [⟨state.startedAt, state.now, state.jumps⟩]
          thread := some .finished }
      else some { state with thread := some .finished }
  | .lock start =>
      if state.mutexFree then some { state with thread := some (.testReset start) } else none
  | .testReset start =>
      some { state with
        thread := some
          (if state.remainingMs ≠ config.totalDurationMs then .resetStart else .unlock start) }
  | .resetStart => some { state with thread := some (.resetRemaining state.now) }
  | .resetRemaining start =>
      some { state with
        remainingMs := config.totalDurationMs
        thread := some (.unlock start) }
  | .unlock start =>
      some { state with thread := some (.sleeping start (state.now + 100 * 1000000)) }
  | .sleeping start wake =>
      if wake ≤ state.now then some { state with thread := some (.testLoop start) } else none
  | .finished => none

def messageStep (config : Config) (state : State) : Option State :=
  match state.message with
  | .idle => none
  | .update canData =>
      let updated := { state with
        lastPState := state.currentPState
        currentPState := parseCanSignal canData
        message := .checkJump }
      some (if updated.checkPToNonPJump then { updated with jumps := state.jumps ++ [state.now] }
        else updated)
  | .checkJump =>
      some { state with message := if state.checkPToNonPJump then .resetTest else .unlock }
  | .resetTest =>
      some { state with
        message := if state.timerState = .RUNNING then .resetStore else .unlock }
  | .resetStore => some { state with remainingMs := config.totalDurationMs, message := .unlock }
  | .unlock => some { state with message := .idle }

/-- The return of `stopMonitor`, to its caller or into the destructor. -/
def returnFromStop (state : State) (destroying : Bool) : State :=
  { state with
    control := if destroying then .destroyed else .ready
    returnedJoinable := state.returnedJoinable || state.thread.isSome }

def controlStep (state : State) : Option State :=
  match state.control with
  | .ready | .destroyed => none
  | .startTest =>
      some { state with
        control := if state.timerState = .STOPPED then .startStore else .ready }
  | .startStore =>
      some { state with
        timerState := .RUNNING
        startedAt := state.now
        control := .startAssign }
  | .startAssign =>
      -- assigning to a joinable `std::thread` would end the program
      match state.thread with
      | none => some { state with thread := some .readStart, control := .ready }
      | some _ => none
  | .stopTest destroying =>
      some (if state.timerState = .RUNNING then { state with control := .stopStore destroying }
        else returnFromStop state destroying)
  | .stopStore destroying =>
      some { state with timerState := .STOPPED, control := .stopJoin destroying }
  | .stopJoin destroying =>
      match state.thread with
      | none => some (returnFromStop state destroying)
      | some .finished => some (returnFromStop { state with thread := none } destroying)
      | some _ => none

/-- After the destructor's body nothing runs any more: a joinable thread ends the
program. -/
def step (config : Config) (state : State) (action : Action) : Option State :=
  if state.control = .destroyed then none
  else
    match action with
    | .tick now => if state.now ≤ now then some { state with now := now } else none
    | .startMonitor =>
        if state.control = .ready then some { state with control := .startTest } else none
    | .stopMonitor =>
        if state.control = .ready then some { state with control := .stopTest false } else none
    | .destroy =>
        if state.control = .ready then some { state with control := .stopTest true } else none
    | .control => controlStep state
    | .processCanMessage canData =>
        if state.mutexFree then some { state with message := .update canData } else none
    | .message => messageStep config state
    | .thread => state.thread.bind (threadStep config state)

theorem not_destroyed_of_step {config : Config} {state next : State} {action : Action}
    (hstep : step config state action = some next) : state.control ≠ .destroyed := by
  intro hdestroyed
  unfold step at hstep
  rw [if_pos hdestroyed] at hstep
  cases hstep

def system (config : Config) : TransitionSystem State Action where
  initial := initial config
  step := step config

end CppProj.PstateMonitor
