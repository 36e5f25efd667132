import CppProj.ConditionVariable
import CppProj.MutualExclusion
import CppProj.TransitionSystem
import Mathlib.Algebra.Ring.Nat

/-!
# `ThreadSafeQueue` of `multicom.cpp`

Any number of calls of `push`, `try_pop`, `wait_and_pop` and `stop` are under
way at the same time, each at its own position.  `push` reads `stop_flag_`
before it takes `mtx_`, the pops read it under `mtx_`, and `stop` takes no
mutex.  A time-out of `wait_and_pop` may come at any moment of its sleep.
-/

universe u

namespace CppProj.ThreadSafeQueue

/-- Where a call stands.  `take` moves the front out of the queue, in both
pops.  `lastTest` is the evaluation of the predicate after a time-out and
`testAfterWait` the check behind the wait. -/
inductive Phase (T : Type u) where
  | pushTest (value : T)
  | pushLock (value : T)
  | pushInsert (value : T)
  | pushNotify
  | tryPopLock
  | tryPopTest
  | waitLock
  | wait (phase : WaitPhase)
  | timedOut
  | lastTest
  | testAfterWait
  | take
  | unlock (result : Option T)
  | stopStore
  | stopNotify
  | returned (result : Option T)

namespace Phase

variable {T : Type u}

def holdsMutex : Phase T → Bool
  | .wait phase => phase.holdsMutex
  | .pushInsert _ | .pushNotify | .tryPopTest | .lastTest | .testAfterWait | .take
  | .unlock _ => true
  | _ => false

def notify : Phase T → Phase T
  | .wait phase => .wait phase.notify
  | phase => phase

def asleep : Phase T → Bool
  | .wait .blocked => true
  | _ => false

/-- The value that a successful pop has moved out of the queue. -/
def result : Phase T → Option T
  | .unlock result | .returned result => result
  | _ => none

end Phase

/-- `beganAfterStop` records that some `stop` had returned when the call
began. -/
structure Call (T : Type u) where
  phase : Phase T
  beganAfterStop : Bool

namespace Call

variable {T : Type u}

def holdsMutex (call : Call T) : Bool :=
  call.phase.holdsMutex

def notify (call : Call T) : Call T :=
  { call with phase := call.phase.notify }

end Call

/-- `enqueued` and `popped` list the values in the order of the critical
sections that moved them, a popped value with the call that returns it. -/
structure State (T : Type u) where
  queue : List T
  stopFlag : Bool
  calls : List (Call T)
  enqueued : List T
  popped : List (ℕ × T)
  stopReturned : Bool

inductive Request (T : Type u) where
  | push (value : T)
  | tryPop
  | waitAndPop
  | stop

/-- `notifyOne` carries the sleeping call that `notify_one` wakes, if there is
one. -/
inductive Action (T : Type u) where
  | call (request : Request T)
  | move (index : ℕ)
  | notifyOne (index : ℕ) (woken : Option ℕ)
  | timeout (index : ℕ)
  | spuriousWakeup (index : ℕ)

variable {T : Type u}

def initial : State T where
  queue := []
  stopFlag := false
  calls := []
  enqueued := []
  popped := []
  stopReturned := false

namespace State

def mutexFree (state : State T) : Bool :=
  noneHolds Call.holdsMutex state.calls

def setPhase (state : State T) (index : ℕ) (call : Call T) (phase : Phase T) : State T :=
  { state with calls := state.calls.set index { call with phase := phase } }

def predicate (state : State T) : Bool :=
  !state.queue.isEmpty || state.stopFlag

end State

def Request.begin : Request T → Phase T
  | .push value => .pushTest value
  | .tryPop => .tryPopLock
  | .waitAndPop => .waitLock
  | .stop => .stopStore

/-- One step of a call, but for the two notifications and the wake-ups. -/
def callStep (state : State T) (index : ℕ) (call : Call T) : Option (State T) :=
  let acquire (phase : Phase T) : Option (State T) :=
    if state.mutexFree then some (state.setPhase index call phase) else none
  match call.phase with
  | .pushTest value =>
      some (state.setPhase index call
        (if state.stopFlag then .returned none else .pushLock value))
  | .pushLock value => acquire (.pushInsert value)
  | .pushInsert value =>
      some { state.setPhase index call .pushNotify with
        queue := state.queue ++ [value]
        enqueued := state.enqueued ++ [value] }
  | .tryPopLock => acquire .tryPopTest
  | .tryPopTest =>
      some (state.setPhase index call
        (if state.queue.isEmpty || state.stopFlag then .unlock none else .take))
  | .waitLock => acquire (.wait .testing)
  | .wait .testing =>
      some (state.setPhase index call
        (if state.predicate then .testAfterWait else .wait .blocking))
  | .wait .blocking => some (state.setPhase index call (.wait .blocked))
  | .wait .notified => acquire (.wait .testing)
  | .timedOut => acquire .lastTest
  | .lastTest =>
      some (state.setPhase index call
        (if state.predicate then .testAfterWait else .unlock none))
  | .testAfterWait =>
      some (state.setPhase index call
        (if state.stopFlag || state.queue.isEmpty then .unlock none else .take))
  | .take =>
      match state.queue with
      | [] => none
      | value :: rest =>
          some { state.setPhase index call (.unlock (some value)) with
            queue := rest
            popped := state.popped ++ [(index, value)] }
  | .unlock result => some (state.setPhase index call (.returned result))
  | .stopStore => some { state.setPhase index call .stopNotify with stopFlag := true }
  | .stopNotify =>
      some { state with
        calls := (state.calls.map Call.notify).set index { call with phase := .returned none }
        stopReturned := true }
  | .pushNotify | .wait .blocked | .returned _ => none

def notifyOneStep (state : State T) (index : ℕ) (call : Call T) (woken : Option ℕ) :
    Option (State T) :=
  match call.phase, woken with
  | .pushNotify, none =>
      if state.calls.all fun other => !other.phase.asleep then
        some (state.setPhase index call (.unlock none))
      else none
  | .pushNotify, some sleeper =>
      match state.calls[sleeper]? with
      | some other =>
          if other.phase.asleep then
            some { state with
              calls := (state.calls.set sleeper other.notify).set index
                { call with phase := .unlock none } }
          else none
      | none => none
  | _, _ => none

def wakeStep (state : State T) (index : ℕ) (call : Call T) (phase : Phase T) :
    Option (State T) :=
  if call.phase.asleep then some (state.setPhase index call phase) else none

def step (state : State T) : Action T → Option (State T)
  | .call request =>
      some { state with calls := state.calls ++ [⟨request.begin, state.stopReturned⟩] }
  | .move index => state.calls[index]?.bind (callStep state index)
  | .notifyOne index woken =>
      state.calls[index]?.bind fun call => notifyOneStep state index call woken
  | .timeout index => state.calls[index]?.bind fun call => wakeStep state index call .timedOut
  | .spuriousWakeup index =>
      state.calls[index]?.bind fun call => wakeStep state index call (.wait .notified)

def system : TransitionSystem (State T) (Action T) where
  initial := initial
  step := step

end CppProj.ThreadSafeQueue
