import CppProj.DualModeTimer
import CppProj.TransitionSystem

/-!
# Does a blocking timer tell the truth

`addBlockingTimer` adds a non-blocking timer whose callback sets the local
variable `timer_expired` and then the promise of the call, and waits for the
promise 100 ms longer than the timer takes.  Any number of calls run with the
manager, the callback threads that it spawns, the other additions and the
cancellations.  A step of the manager or of a cancellation is the code that
runs under `tasks_mutex_`; the calls and the callback threads move statement by
statement.

A call that times out ignores what `cancelTimer` answers.  If its timer has
been fired, the callback thread runs in spite of the answer `false`, and it
writes the local variable of a call that has returned.
-/

universe u

namespace CppProj.DualModeTimer.Blocking

/-- The function of a timer: that of the call with this number, or another. -/
inductive Callback where
  | expire (call : ℕ)
  | other
  deriving DecidableEq

inductive CallPhase where
  | addTimer
  | testId
  | waiting (deadline : ℤ)
  | timedOut
  | ready
  | returned (answer : Bool)
  deriving DecidableEq

/-- One call of `addBlockingTimer`, with its locals and its promise. -/
structure Call where
  duration : ℤ
  phase : CallPhase
  taskId : Option Int32
  timerExpired : Bool
  promise : Option Bool
  deriving DecidableEq

/-- The position of a callback thread in the function of a blocking timer;
another function is one step. -/
inductive ThreadPhase where
  | spawned
  | expired
  | finished
  deriving DecidableEq

structure CallbackThread where
  task : TimerTask Callback
  phase : ThreadPhase

/-- `danglingWrite` records a write to `timer_expired` after the call of that
variable has returned. -/
structure State where
  timers : Timers Callback
  now : ℤ
  calls : List Call
  callbackThreads : List CallbackThread
  danglingWrite : Bool

def initial (now : ℤ) : State where
  timers := .initial
  now := now
  calls := []
  callbackThreads := []
  danglingWrite := false

inductive Action where
  | addBlockingTimer (duration : ℤ)
  | call (index : ℕ) (now : ℤ)
  | timeout (index : ℕ) (now : ℤ)
  | addNonBlockingTimer (duration now : ℤ)
  | cancelTimer (timerId : Int32)
  | cancelAllTimers
  | managerIteration (now : ℤ) (top : ℕ)
  | callbackThread (index : ℕ)

def State.setCall (state : State) (index : ℕ) (call : Call) : State :=
  { state with calls := state.calls.set index call }

/-- The steps of `addBlockingTimer` other than its time-out. -/
def callStep (state : State) (index : ℕ) (now : ℤ) : Option State :=
  match state.calls[index]? with
  | none => none
  | some call =>
      match call.phase with
      | .addTimer =>
          if state.now ≤ now then
            let timers :=
              state.timers.addNonBlockingTimer call.duration (.expire index) now
            some { state.setCall index
                { call with phase := .testId, taskId := some timers.nextId } with
              timers := timers
              now := now }
          else none
      | .testId =>
          match call.taskId with
          | none => none
          | some taskId =>
              if state.now ≤ now then
                some { state.setCall index
                    { call with
                      phase :=
                        if taskId < 0 then .returned false
                        else .waiting (now + (call.duration + 100) * 1000000) } with
                  now := now }
              else none
      | .waiting _ =>
          if call.promise.isSome then
            some (state.setCall index { call with phase := .ready })
          else none
      | .timedOut =>
          match call.taskId with
          | none => none
          | some taskId =>
              some { state.setCall index { call with phase := .returned false } with
                timers := (state.timers.cancelTimer taskId).2 }
      | .ready =>
          match call.promise with
          | none => none
          | some result =>
              some (state.setCall index { call with phase := .returned result })
      | .returned _ => none

/-- `wait_for` returns `timeout`: the time has come and the promise is not
set. -/
def timeoutStep (state : State) (index : ℕ) (now : ℤ) : Option State :=
  match state.calls[index]? with
  | none => none
  | some call =>
      match call.phase with
      | .waiting deadline =>
          if state.now ≤ now ∧ deadline ≤ now ∧ call.promise = none then
            some { state.setCall index { call with phase := .timedOut } with now := now }
          else none
      | _ => none

def managerStep (state : State) (now : ℤ) (top : ℕ) : Option State :=
  if state.now ≤ now then
    match state.timers.managerIteration now top with
    | none => none
    | some (.spawned task, timers) =>
        some { state with
          timers := timers
          now := now
          callbackThreads := state.callbackThreads ++ [⟨task, .spawned⟩] }
    | some (_, timers) => some { state with timers := timers, now := now }
  else none

/-- Setting a promise a second time throws, and the thread catches that. -/
def Call.setPromise (call : Call) : Call :=
  { call with promise := call.promise.orElse fun _ => some true }

def CallPhase.isReturned : CallPhase → Bool
  | .returned _ => true
  | _ => false

def callbackThreadStep (state : State) (index : ℕ) : Option State :=
  match state.callbackThreads[index]? with
  | none => none
  | some thread =>
      match thread.phase, thread.task.callback with
      | .spawned, .other =>
          some { state with
            callbackThreads := state.callbackThreads.set index
              { thread with phase := .finished } }
      | .spawned, .expire caller =>
          match state.calls[caller]? with
          | none => none
          | some call =>
              some { state.setCall caller { call with timerExpired := true } with
                callbackThreads := state.callbackThreads.set index
                  { thread with phase := .expired }
                danglingWrite := state.danglingWrite || call.phase.isReturned }
      | .expired, .expire caller =>
          match state.calls[caller]? with
          | none => none
          | some call =>
              some { state.setCall caller call.setPromise with
                callbackThreads := state.callbackThreads.set index
                  { thread with phase := .finished } }
      | .expired, .other | .finished, _ => none

def step (state : State) : Action → Option State
  | .addBlockingTimer duration =>
      some { state with
        calls := state.calls ++ [⟨duration, .addTimer, none, false, none⟩] }
  | .call index now => callStep state index now
  | .timeout index now => timeoutStep state index now
  | .addNonBlockingTimer duration now =>
      if state.now ≤ now then
        some { state with
          timers := state.timers.addNonBlockingTimer duration .other now
          now := now }
      else none
  | .cancelTimer timerId =>
      some { state with timers := (state.timers.cancelTimer timerId).2 }
  | .cancelAllTimers => some { state with timers := state.timers.cancelAllTimers }
  | .managerIteration now top => managerStep state now top
  | .callbackThread index => callbackThreadStep state index

def system (start : ℤ) : TransitionSystem State Action := ⟨initial start, step⟩

/-! ## The property and the condition -/

/-- The callback of the call has run to its end. -/
def State.Ran (state : State) (index : ℕ) : Prop :=
  ∃ thread ∈ state.callbackThreads,
    thread.task.callback = .expire index ∧ thread.phase = .finished

/-- A call that has returned told the truth about its callback, and its
callback does not run any more and will not. -/
structure Truthful (state : State) : Prop where
  answer : ∀ (index : ℕ) call answer, state.calls[index]? = some call →
    call.phase = .returned answer → (answer = true ↔ state.Ran index)
  notRunning : ∀ (index : ℕ) call answer, state.calls[index]? = some call →
    call.phase = .returned answer → ∀ thread ∈ state.callbackThreads,
      thread.task.callback = .expire index → thread.phase = .finished
  notStarting : ∀ (index : ℕ) call answer, state.calls[index]? = some call →
    call.phase = .returned answer → ∀ id task,
      state.timers.activeTasks.lookup id = some task → task.callback ≠ .expire index
  noDanglingWrite : state.danglingWrite = false

/-- An addition finds the counter of ids below its maximum, and a call that
has timed out cancels a timer which has not been fired. -/
def CancelsUnfired (state : State) : Action → Prop
  | .call index _ =>
      ∀ call ∈ state.calls[index]?,
        (call.phase = .addTimer → state.timers.nextId.toInt < 2 ^ 31 - 1) ∧
        (call.phase = .timedOut → ∀ thread ∈ state.callbackThreads,
          thread.task.callback ≠ .expire index)
  | .addNonBlockingTimer _ _ => state.timers.nextId.toInt < 2 ^ 31 - 1
  | _ => True

instance (state : State) (action : Action) : Decidable (CancelsUnfired state action) :=
  match action with
  | .call _ _ => inferInstanceAs (Decidable (∀ _ ∈ _, _))
  | .addNonBlockingTimer _ _ => inferInstanceAs (Decidable (_ < _))
  | .addBlockingTimer _ | .timeout _ _ | .cancelTimer _ | .cancelAllTimers
  | .managerIteration _ _ | .callbackThread _ => isTrue trivial

end CppProj.DualModeTimer.Blocking
