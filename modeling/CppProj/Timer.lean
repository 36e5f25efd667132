import CppProj.AssociationList
import CppProj.TransitionSystem
import Mathlib.Algebra.Ring.Int.Defs

/-!
# The timers of `Timer.hpp`

`blockFor`, `asyncTimerThread` and `periodicTimerThread` look at the map `timers_`
under their own id only, and in between they keep a reference to the entry.  Each
critical section is therefore a function from the entry to what the section
leaves of it.  An access through the reference is a look-up of the id; when it
finds nothing, the section goes on with an arbitrary value and its writes are
lost.

The clock may read anything, and `wait_for` may return at any time, timed out or
not, so that `notify_all` needs no trace in the state.  Durations and times are
unbounded.  The destructor calls `cancelAll`.
-/

namespace CppProj.Timer

inductive TimerState where
  | idle
  | scheduled
  | running
  | cancelled
  | expired
  deriving DecidableEq

/-- `callback` and `cv` say whether there is one; `promise` is the position of the
call of `asyncAfter` that has made it. -/
structure TimerInfo where
  state : TimerState
  expiry : ℤ
  interval : ℤ
  callback : Bool
  cv : Bool
  promise : Option ℕ
  isPeriodic : Bool
  deriving DecidableEq

/-- The value that `operator[]` puts under a new key. -/
def TimerInfo.default : TimerInfo where
  state := .idle
  expiry := 0
  interval := 0
  callback := false
  cv := false
  promise := none
  isPeriodic := false

/-- `cancel` and `cancelAll` act on these. -/
def TimerInfo.Active (timerInfo : TimerInfo) : Prop :=
  timerInfo.state = .scheduled ∨ timerInfo.state = .running

instance (timerInfo : TimerInfo) : Decidable timerInfo.Active :=
  inferInstanceAs (Decidable (_ ∨ _))

/-- A call of one of the three functions; `callback` says whether the function
given is callable. -/
inductive Kind where
  | blockFor (duration : ℤ)
  | asyncAfter (duration : ℤ) (callback : Bool)
  | asyncEvery (interval : ℤ) (callback : Bool)
  deriving DecidableEq

/-- Where a call stands.  `create` is before the entry is made, `start` before the
second lock of `blockFor` or the first one of a thread and at the head of the
periodic loop; `calling`, `callback` and `relock` are without the lock. -/
inductive Phase where
  | create
  | start
  | waiting
  | waitingUntil (nextExpiry : ℤ)
  | calling
  | callback
  | relock
  | returned (result : Bool)
  | exited
  deriving DecidableEq

structure Call where
  id : UInt64
  kind : Kind
  phase : Phase
  deriving DecidableEq

/-- What a section leaves: the entry under the id, the value given to the promise,
whether a callback has returned, and whether the section has accessed a missing
entry or has called an empty function, which throws. -/
structure Outcome where
  phase : Phase
  entry : Option TimerInfo
  value : Option Bool
  ran : Bool
  missing : Bool
  failed : Bool

namespace Outcome

def quiet (phase : Phase) (entry : Option TimerInfo) : Outcome where
  phase := phase
  entry := entry
  value := none
  ran := false
  missing := false
  failed := false

/-- The thread sets the promise and erases the entry. -/
def settled (value : Bool) : Outcome :=
  { quiet .exited none with value := some value }

/-- A section that uses the reference it has kept. -/
def throughReference (entry : Option TimerInfo) (stale : TimerInfo)
    (body : TimerInfo → Outcome) : Outcome :=
  match entry with
  | some timerInfo => body timerInfo
  | none => { body stale with entry := none, missing := true }

end Outcome

/-! ## blockFor -/

def blockForCreate (duration now : ℤ) (entry : Option TimerInfo) : Outcome :=
  .quiet .start (some { entry.getD .default with
    state := .scheduled
    expiry := now + duration
    cv := true })

/-- The second lock: `operator[]` makes a new entry when the first has gone. -/
def blockForStart (entry : Option TimerInfo) : Outcome :=
  let timerInfo := entry.getD .default
  if timerInfo.state = .scheduled then .quiet .waiting (some timerInfo)
  else .quiet (.returned false) none

def blockForWake (timedOut : Bool) (timerInfo : TimerInfo) : Outcome :=
  if timedOut ∧ timerInfo.state = .scheduled then .quiet (.returned true) none
  else if timerInfo.state = .scheduled then .quiet .waiting (some timerInfo)
  else .quiet (.returned false) none

/-! ## asyncAfter and asyncTimerThread -/

def asyncAfterCreate (promise : ℕ) (duration : ℤ) (callback : Bool) (now : ℤ)
    (entry : Option TimerInfo) : Outcome :=
  .quiet .start (some { entry.getD .default with
    state := .scheduled
    expiry := now + duration
    callback := callback
    promise := some promise })

def asyncTimerThreadStart (entry : Option TimerInfo) : Outcome :=
  match entry with
  | none => .settled false
  | some timerInfo => .quiet .waiting (some { timerInfo with state := .running })

def asyncTimerThreadWake (timedOut : Bool) (timerInfo : TimerInfo) : Outcome :=
  if timedOut ∧ timerInfo.state = .running then
    if timerInfo.callback then .quiet .calling (some { timerInfo with state := .expired })
    else .settled true
  else if timerInfo.state = .running then .quiet .waiting (some timerInfo)
  else .settled false

/-- The thread calls the function in the entry, without the lock. -/
def asyncTimerThreadCall (timerInfo : TimerInfo) : Outcome :=
  if timerInfo.callback then .quiet .callback (some timerInfo)
  else { Outcome.quiet .calling (some timerInfo) with failed := true }

def asyncTimerThreadRelock : Outcome :=
  .settled true

/-! ## asyncEvery and periodicTimerThread -/

def asyncEveryCreate (interval : ℤ) (callback : Bool) (now : ℤ) (entry : Option TimerInfo) :
    Outcome :=
  .quiet .start (some { entry.getD .default with
    state := .scheduled
    expiry := now + interval
    callback := callback
    interval := interval
    isPeriodic := true })

/-- An iteration after its wait; `now` is what the clock reads then. -/
def periodicTimerThreadAfterWait (nextExpiry now : ℤ) (timerInfo : TimerInfo) : Outcome :=
  if timerInfo.state = .cancelled then .quiet .exited none
  else if nextExpiry ≤ now then .quiet .calling (some timerInfo)
  else .quiet .start (some timerInfo)

/-- The head of an iteration; the clock is read for `nextExpiry`, in the test of
the inner loop and after that loop. -/
def periodicTimerThreadStart (interval now test after : ℤ) (entry : Option TimerInfo) : Outcome :=
  match entry with
  | none => .quiet .exited none
  | some timerInfo =>
      if timerInfo.state ≠ .scheduled then .quiet .exited (some timerInfo)
      else if test < now + interval then
        .quiet (.waitingUntil (now + interval)) (some { timerInfo with state := .running })
      else
        periodicTimerThreadAfterWait (now + interval) after { timerInfo with state := .running }

def periodicTimerThreadWake (nextExpiry : ℤ) (timedOut : Bool) (test after : ℤ)
    (timerInfo : TimerInfo) : Outcome :=
  if timedOut = false ∧ timerInfo.state = .running ∧ test < nextExpiry then
    .quiet (.waitingUntil nextExpiry) (some timerInfo)
  else periodicTimerThreadAfterWait nextExpiry after timerInfo

/-- The thread calls its own copy of the function. -/
def periodicTimerThreadCall (callback : Bool) (entry : Option TimerInfo) : Outcome :=
  if callback then .quiet .callback entry
  else { Outcome.quiet .calling entry with failed := true }

def periodicTimerThreadRelock (interval now : ℤ) (timerInfo : TimerInfo) : Outcome :=
  if timerInfo.state = .running then
    .quiet .start (some { timerInfo with state := .scheduled, expiry := now + interval })
  else .quiet .start (some timerInfo)

/-! ## The sections of a call -/

/-- The next section of a call, with what the clock reads in it and the value that
a reference to a missing entry yields. -/
inductive Turn where
  | create (now : ℤ)
  | start (now test after : ℤ)
  | wake (timedOut : Bool) (test after : ℤ) (stale : TimerInfo)
  | call (stale : TimerInfo)
  | finish
  | relock (now : ℤ) (stale : TimerInfo)
  deriving DecidableEq

def callbackFinished (entry : Option TimerInfo) : Outcome :=
  { Outcome.quiet .relock entry with ran := true }

/-- The sections of the calls; a promise is named by the position of its call. -/
def criticalSection (index : ℕ) (call : Call) (entry : Option TimerInfo) (turn : Turn) :
    Option Outcome :=
  match call.kind, call.phase, turn with
  | .blockFor duration, .create, .create now => some (blockForCreate duration now entry)
  | .blockFor _, .start, .start _ _ _ => some (blockForStart entry)
  | .blockFor _, .waiting, .wake timedOut _ _ stale =>
      some (.throughReference entry stale (blockForWake timedOut))
  | .asyncAfter duration callback, .create, .create now =>
      some (asyncAfterCreate index duration callback now entry)
  | .asyncAfter _ _, .start, .start _ _ _ => some (asyncTimerThreadStart entry)
  | .asyncAfter _ _, .waiting, .wake timedOut _ _ stale =>
      some (.throughReference entry stale (asyncTimerThreadWake timedOut))
  | .asyncAfter _ _, .calling, .call stale =>
      some (.throughReference entry stale asyncTimerThreadCall)
  | .asyncAfter _ _, .callback, .finish => some (callbackFinished entry)
  | .asyncAfter _ _, .relock, .relock _ _ => some asyncTimerThreadRelock
  | .asyncEvery interval callback, .create, .create now =>
      some (asyncEveryCreate interval callback now entry)
  | .asyncEvery interval _, .start, .start now test after =>
      some (periodicTimerThreadStart interval now test after entry)
  | .asyncEvery _ _, .waitingUntil nextExpiry, .wake timedOut test after stale =>
      some (.throughReference entry stale
        (periodicTimerThreadWake nextExpiry timedOut test after))
  | .asyncEvery _ callback, .calling, .call _ => some (periodicTimerThreadCall callback entry)
  | .asyncEvery _ _, .callback, .finish => some (callbackFinished entry)
  | .asyncEvery interval _, .relock, .relock now stale =>
      some (.throughReference entry stale (periodicTimerThreadRelock interval now))
  | _, _, _ => none

/-! ## The system -/

/-- `settlements` lists the calls of `set_value` in order, with the promise and the
value, `cancelled` the promises whose timer was marked `CANCELLED`, and `ran` the
calls whose callback has returned.  `terminated` is set when an exception leaves a
thread. -/
structure State where
  timers : AList (fun _ : UInt64 => TimerInfo)
  nextId : UInt64
  calls : List Call
  settlements : List (ℕ × Bool)
  cancelled : List ℕ
  ran : List ℕ
  missingAccess : Bool
  terminated : Bool

def initial : State where
  timers := ∅
  nextId := 1
  calls := []
  settlements := []
  cancelled := []
  ran := []
  missingAccess := false
  terminated := false

inductive Action where
  | call (kind : Kind)
  | turn (index : ℕ) (turn : Turn)
  | cancel (id : UInt64)
  | cancelAll
  deriving DecidableEq

namespace State

/-- A further `set_value` throws. -/
def Satisfied (state : State) (promise : ℕ) : Prop :=
  promise ∈ state.settlements.map Prod.fst

instance (state : State) (promise : ℕ) : Decidable (state.Satisfied promise) :=
  inferInstanceAs (Decidable (promise ∈ _))

/-- The beginning of the three functions, with `generateId`. -/
def addCall (state : State) (kind : Kind) : State :=
  { state with
    nextId := state.nextId + 1
    calls := state.calls ++ [⟨state.nextId, kind, .create⟩] }

/-- A second `set_value` of a thread throws, which ends the program. -/
def Throws (state : State) (index : ℕ) (outcome : Outcome) : Prop :=
  outcome.failed = true ∨ outcome.value.isSome = true ∧ state.Satisfied index

instance (state : State) (index : ℕ) (outcome : Outcome) :
    Decidable (state.Throws index outcome) :=
  inferInstanceAs (Decidable (_ ∨ _))

def update (state : State) (index : ℕ) (call : Call) (outcome : Outcome) : State :=
  { state with
    timers := match outcome.entry with
      | some timerInfo => state.timers.insert call.id timerInfo
      | none => state.timers.erase call.id
    calls := state.calls.set index { call with phase := outcome.phase }
    settlements := state.settlements ++ outcome.value.toList.map (Prod.mk index)
    ran := state.ran ++ if outcome.ran then [index] else []
    missingAccess := state.missingAccess || outcome.missing
    terminated := decide (state.Throws index outcome) }

/-- The result of `cancel` is `none` when `set_value` throws: the entry is then
marked and stays. -/
def cancel (state : State) (id : UInt64) : Option Bool × State :=
  match state.timers.lookup id with
  | none => (some false, state)
  | some timerInfo =>
      if timerInfo.Active then
        match timerInfo.promise with
        | none => (some true, { state with timers := state.timers.erase id })
        | some promise =>
            let settled := { state with
              settlements := state.settlements ++ [(promise, false)]
              cancelled := state.cancelled ++ [promise] }
            if state.Satisfied promise then
              (none, { settled with
                timers := state.timers.insert id { timerInfo with state := .cancelled } })
            else (some true, { settled with timers := state.timers.erase id })
      else (some false, state)

def activePromises (state : State) : List ℕ :=
  state.timers.entries.filterMap fun entry =>
    if entry.2.Active then entry.2.promise else none

/-- `cancelAll` ignores the exceptions of `set_value`. -/
def cancelAll (state : State) : State :=
  { state with
    timers := ∅
    settlements := state.settlements ++ state.activePromises.map fun promise => (promise, false)
    cancelled := state.cancelled ++ state.activePromises }

end State

def step (state : State) (action : Action) : Option State :=
  if state.terminated then none
  else
    match action with
    | .call kind => some (state.addCall kind)
    | .turn index turn =>
        match state.calls[index]? with
        | none => none
        | some call =>
            (criticalSection index call (state.timers.lookup call.id) turn).map
              (state.update index call)
    | .cancel id => some (state.cancel id).2
    | .cancelAll => some state.cancelAll

def system : TransitionSystem State Action where
  initial := initial
  step := step

end CppProj.Timer
