import CppProj.ListUpdate
import CppProj.TransitionSystem
import Mathlib.Algebra.Ring.Int.Defs
import Mathlib.Algebra.Ring.Nat

/-!
# Blocking timers of `twomodestimer.cpp`

The class `DualModeTimer` of that file with its threads: any number of calls of
`addBlockingTimer`, one thread that calls `start` and `stop`, the manager, and a thread for
every callback.  `stop` ends the manager and leaves `tasks_` as it is.

A wait on a condition variable may end at any time, so that a notification changes nothing
here.  `cancelTimer` is left out, and with it the flag `completed`.
-/

namespace CppProj.TwoModesTimer

open ListUpdate

/-- A timer of `addBlockingTimer`; its callback is known by the call that waits for it. -/
structure TimerTask where
  id : ℕ
  duration : ℤ
  startTime : ℤ
  caller : ℕ
  deriving DecidableEq

def TimerTask.wakeTime (task : TimerTask) : ℤ := task.startTime + task.duration

/-- `managerThread`; `unlock` is the end of an iteration. -/
inductive ManagerPhase where
  | testRunning
  | lock
  | inspect
  | wait
  | relock
  | unlock
  | finished
  deriving DecidableEq

def ManagerPhase.holdsMutex : ManagerPhase → Bool
  | inspect | unlock => true
  | testRunning | lock | wait | relock | finished => false

inductive ControlPhase where
  | ready
  | startAssign
  | stopNotify
  | stopJoin
  deriving DecidableEq

def ControlPhase.inStop : ControlPhase → Bool
  | stopNotify | stopJoin => true
  | ready | startAssign => false

/-- `addBlockingTimer`: the addition, and then the wait with its predicate. -/
inductive CallPhase where
  | lock (duration : ℤ)
  | push (duration : ℤ)
  | unlock
  | waitTest
  | blocked
  | relock
  | returned
  deriving DecidableEq

namespace CallPhase

def holdsMutex : CallPhase → Bool
  | push _ | unlock => true
  | lock _ | waitTest | blocked | relock | returned => false

def holdsLocalMutex : CallPhase → Bool
  | lock _ | push _ | unlock | waitTest => true
  | blocked | relock | returned => false

/-- The timer has been pushed. -/
def registered : CallPhase → Bool
  | unlock | waitTest | blocked | relock | returned => true
  | lock _ | push _ => false

def pushes : CallPhase → Bool
  | push _ => true
  | lock _ | unlock | waitTest | blocked | relock | returned => false

def inWait : CallPhase → Bool
  | blocked | relock => true
  | lock _ | push _ | unlock | waitTest | returned => false

end CallPhase

structure Call where
  phase : CallPhase
  finished : Bool
  deriving DecidableEq

inductive CallbackPhase where
  | lock
  | store
  | notify
  | finished
  deriving DecidableEq

def CallbackPhase.holdsLocalMutex : CallbackPhase → Bool
  | store | notify => true
  | lock | finished => false

structure Callback where
  caller : ℕ
  phase : CallbackPhase
  deriving DecidableEq

/-- `manager` is empty while `manager_thread_` is not joinable, and `stopped` tells that
`stop` has returned and `start` has not been called again.  Of `active_tasks_` the ids are
kept. -/
structure State where
  running : Bool
  manager : Option ManagerPhase
  control : ControlPhase
  stopped : Bool
  now : ℤ
  tasks : List TimerTask
  activeTasks : List ℕ
  nextId : ℕ
  calls : List Call
  callbacks : List Callback
  deriving DecidableEq

inductive Action where
  | start
  | stop
  | control
  | manager (now : ℤ) (top : ℕ)
  | addBlockingTimer (duration : ℤ)
  | call (index : ℕ) (now : ℤ)
  | callback (index : ℕ)
  deriving DecidableEq

namespace State

def mutexFree (state : State) : Bool :=
  !state.manager.any ManagerPhase.holdsMutex && state.calls.all (!·.phase.holdsMutex)

/-- The mutex of one call. -/
def localMutexFree (state : State) (index : ℕ) : Bool :=
  !state.calls[index]?.any (·.phase.holdsLocalMutex) &&
    state.callbacks.all fun callback =>
      decide (callback.caller = index) → !callback.phase.holdsLocalMutex

def moveTo (state : State) (index : ℕ) (phase : CallPhase) : State :=
  { state with calls := state.calls.modify index ({ · with phase := phase }) }

def moveManager (state : State) (phase : ManagerPhase) : State :=
  { state with manager := some phase }

def moveCallback (state : State) (index : ℕ) (phase : CallbackPhase) : State :=
  { state with callbacks := state.callbacks.modify index ({ · with phase := phase }) }

end State

/-- `std::terminate` follows the assignment to a joinable thread. -/
def controlStep (state : State) : Option State :=
  match state.control with
  | .ready => none
  | .startAssign =>
      match state.manager with
      | none => some { state with manager := some .testRunning, control := .ready }
      | some _ => none
  | .stopNotify => some { state with control := .stopJoin }
  | .stopJoin =>
      match state.manager with
      | none | some .finished =>
          some { state with manager := none, control := .ready, stopped := true }
      | some _ => none

/-- The due timer on top of the heap is popped, and its callback gets a thread. -/
def pop (state : State) (now : ℤ) (top : ℕ) (nextTask : TimerTask) : State :=
  let popped := { state with
    manager := some .unlock
    now := now
    tasks := state.tasks.eraseIdx top }
  if nextTask.id ∈ state.activeTasks then
    { popped with
      activeTasks := state.activeTasks.erase nextTask.id
      callbacks := state.callbacks ++ [⟨nextTask.caller, .lock⟩] }
  else popped

def managerStep (state : State) (now : ℤ) (top : ℕ) : Option State :=
  match state.manager with
  | some .testRunning => some (state.moveManager (if state.running then .lock else .finished))
  | some .lock => if state.mutexFree then some (state.moveManager .inspect) else none
  | some .inspect =>
      if state.tasks.isEmpty then some (state.moveManager .wait)
      else
        match state.tasks[top]? with
        | none => none
        | some nextTask =>
            if state.now ≤ now ∧ ∀ other ∈ state.tasks, nextTask.wakeTime ≤ other.wakeTime then
              if nextTask.wakeTime ≤ now then some (pop state now top nextTask)
              else some { state.moveManager .wait with now := now }
            else none
  | some .wait => some (state.moveManager .relock)
  | some .relock => if state.mutexFree then some (state.moveManager .unlock) else none
  | some .unlock => some (state.moveManager .testRunning)
  | some .finished | none => none

/-- `addNonBlockingTimer` with the mutex held. -/
def push (state : State) (index : ℕ) (duration now : ℤ) : State :=
  { state.moveTo index .unlock with
    now := now
    tasks := state.tasks ++ [⟨state.nextId, duration, now, index⟩]
    activeTasks := state.activeTasks.insert state.nextId
    nextId := state.nextId + 1 }

/-- The behaviour of the program ends where `next_id_` overflows. -/
def callStep (state : State) (index : ℕ) (now : ℤ) : Option State :=
  match state.calls[index]? with
  | none => none
  | some call =>
      match call.phase with
      | .lock duration =>
          if state.mutexFree then some (state.moveTo index (.push duration)) else none
      | .push duration =>
          if state.now ≤ now ∧ state.nextId < 2 ^ 31 - 1 then
            some (push state index duration now)
          else none
      | .unlock => some (state.moveTo index .waitTest)
      | .waitTest => some (state.moveTo index (if call.finished then .returned else .blocked))
      | .blocked => some (state.moveTo index .relock)
      | .relock =>
          if state.localMutexFree index then some (state.moveTo index .waitTest) else none
      | .returned => none

def callbackStep (state : State) (index : ℕ) : Option State :=
  match state.callbacks[index]? with
  | none => none
  | some callback =>
      match callback.phase with
      | .lock =>
          if state.localMutexFree callback.caller then some (state.moveCallback index .store)
          else none
      | .store =>
          some { state.moveCallback index .notify with
            calls := state.calls.modify callback.caller ({ · with finished := true }) }
      | .notify => some (state.moveCallback index .finished)
      | .finished => none

def step (state : State) : Action → Option State
  | .start =>
      if state.control = .ready then
        some { state with running := true, control := .startAssign, stopped := false }
      else none
  | .stop =>
      if state.control = .ready then
        some { state with running := false, control := .stopNotify }
      else none
  | .control => controlStep state
  | .manager now top => managerStep state now top
  | .addBlockingTimer duration =>
      some { state with calls := state.calls ++ [⟨.lock duration, false⟩] }
  | .call index now => callStep state index now
  | .callback index => callbackStep state index

def initial (now : ℤ) : State where
  running := false
  manager := none
  control := .ready
  stopped := false
  now := now
  tasks := []
  activeTasks := []
  nextId := 0
  calls := []
  callbacks := []

def timerProgram (now : ℤ) : TransitionSystem State Action := ⟨initial now, step⟩

/-! ## The bad state and the condition -/

/-- `stop` has returned, and a call waits whose callback has no thread. -/
def Stranded (state : State) : Prop :=
  state.stopped = true ∧ ∃ index call, state.calls[index]? = some call ∧
    call.phase.inWait = true ∧ ∀ callback ∈ state.callbacks, callback.caller ≠ index

/-- There is no manager in its loop, and none will be before `stop` has returned. -/
def State.closed (state : State) : Bool :=
  match state.manager with
  | some .finished => true
  | some _ => false
  | none => state.stopped || state.control.inStop

/-- The manager leaves its loop, or `stop` is called without a manager, with no timer
pending; and from then on none is pushed until `start`. -/
def ClosesEmpty (state : State) : Action → Prop
  | .manager _ _ =>
      state.manager = some .testRunning → state.running = false → state.tasks = []
  | .stop => state.manager = none → state.tasks = []
  | .call index _ => state.calls[index]?.any (·.phase.pushes) = true → state.closed = false
  | .start | .control | .addBlockingTimer _ | .callback _ => True

instance (state : State) (action : Action) : Decidable (ClosesEmpty state action) :=
  match action with
  | .manager _ _ => inferInstanceAs (Decidable (_ → _ → _))
  | .stop | .call _ _ => inferInstanceAs (Decidable (_ → _))
  | .start | .control | .addBlockingTimer _ | .callback _ => isTrue trivial

/-! ## What the steps do -/

theorem managerStep_cases {state next : State} {now : ℤ} {top : ℕ}
    (hstep : managerStep state now top = some next) :
    state.manager ≠ none ∧
      ((∃ phase later, phase ≠ .finished ∧
          next = { state with manager := some phase, now := later }) ∨
        (state.manager = some .testRunning ∧ state.running = false ∧
          next = state.moveManager .finished) ∨
        (state.manager = some .inspect ∧ ∃ nextTask, state.tasks[top]? = some nextTask ∧
          next = pop state now top nextTask)) := by
  cases hmanager : state.manager with
  | none => simp [managerStep, hmanager] at hstep
  | some phase =>
      refine ⟨Option.some_ne_none _, ?_⟩
      cases phase with
      | testRunning =>
          simp only [managerStep, hmanager] at hstep
          cases hstep
          split
          · exact .inl ⟨.lock, state.now, by decide, rfl⟩
          · rename_i hstopped
            exact .inr (.inl ⟨rfl, Bool.eq_false_iff.mpr hstopped, rfl⟩)
      | lock =>
          simp only [managerStep, hmanager] at hstep
          split at hstep
          · cases hstep
            exact .inl ⟨.inspect, state.now, by decide, rfl⟩
          · cases hstep
      | inspect =>
          simp only [managerStep, hmanager] at hstep
          split at hstep
          · cases hstep
            exact .inl ⟨.wait, state.now, by decide, rfl⟩
          · split at hstep
            · cases hstep
            · rename_i nextTask hget
              split at hstep
              · split at hstep
                · cases hstep
                  exact .inr (.inr ⟨rfl, nextTask, hget, rfl⟩)
                · cases hstep
                  exact .inl ⟨.wait, now, by decide, rfl⟩
              · cases hstep
      | wait =>
          simp only [managerStep, hmanager] at hstep
          cases hstep
          exact .inl ⟨.relock, state.now, by decide, rfl⟩
      | relock =>
          simp only [managerStep, hmanager] at hstep
          split at hstep
          · cases hstep
            exact .inl ⟨.unlock, state.now, by decide, rfl⟩
          · cases hstep
      | unlock =>
          simp only [managerStep, hmanager] at hstep
          cases hstep
          exact .inl ⟨.testRunning, state.now, by decide, rfl⟩
      | finished => simp [managerStep, hmanager] at hstep

theorem callStep_cases {state next : State} {index : ℕ} {now : ℤ}
    (hstep : callStep state index now = some next) :
    ∃ call, state.calls[index]? = some call ∧
      ((∃ phase, next = state.moveTo index phase ∧ call.phase.pushes = false ∧
          phase.registered = call.phase.registered ∧
          (phase = .returned → call.finished = true)) ∨
        ∃ duration, call.phase = .push duration ∧ next = push state index duration now) := by
  unfold callStep at hstep
  split at hstep
  · cases hstep
  · rename_i call hget
    refine ⟨call, hget, ?_⟩
    cases hphase : call.phase with
    | lock duration =>
        simp only [hphase] at hstep
        split at hstep
        · cases hstep
          exact .inl ⟨.push duration, rfl, rfl, rfl, fun h => by cases h⟩
        · cases hstep
    | push duration =>
        simp only [hphase] at hstep
        split at hstep
        · cases hstep
          exact .inr ⟨duration, rfl, rfl⟩
        · cases hstep
    | unlock =>
        simp only [hphase] at hstep
        cases hstep
        exact .inl ⟨.waitTest, rfl, rfl, rfl, fun h => by cases h⟩
    | waitTest =>
        simp only [hphase] at hstep
        cases hstep
        cases hfinished : call.finished with
        | true => exact .inl ⟨.returned, rfl, rfl, rfl, fun _ => rfl⟩
        | false => exact .inl ⟨.blocked, rfl, rfl, rfl, fun h => by cases h⟩
    | blocked =>
        simp only [hphase] at hstep
        cases hstep
        exact .inl ⟨.relock, rfl, rfl, rfl, fun h => by cases h⟩
    | relock =>
        simp only [hphase] at hstep
        split at hstep
        · cases hstep
          exact .inl ⟨.waitTest, rfl, rfl, rfl, fun h => by cases h⟩
        · cases hstep
    | returned =>
        simp only [hphase] at hstep
        cases hstep

theorem callbackStep_cases {state next : State} {index : ℕ}
    (hstep : callbackStep state index = some next) :
    ∃ callback, state.callbacks[index]? = some callback ∧
      ((∃ phase, next = state.moveCallback index phase) ∨
        next = { state.moveCallback index .notify with
          calls := state.calls.modify callback.caller ({ · with finished := true }) }) := by
  unfold callbackStep at hstep
  split at hstep
  · cases hstep
  · rename_i callback hget
    refine ⟨callback, hget, ?_⟩
    cases hphase : callback.phase with
    | lock =>
        simp only [hphase] at hstep
        split at hstep
        · cases hstep
          exact .inl ⟨.store, rfl⟩
        · cases hstep
    | store =>
        simp only [hphase] at hstep
        cases hstep
        exact .inr rfl
    | notify =>
        simp only [hphase] at hstep
        cases hstep
        exact .inl ⟨.finished, rfl⟩
    | finished =>
        simp only [hphase] at hstep
        cases hstep

/-! ## The timers and the calls -/

/-- The calls whose timer is pending, and then those whose callback has a thread. -/
def owners (tasks : List TimerTask) (callbacks : List Callback) : List ℕ :=
  tasks.map TimerTask.caller ++ callbacks.map Callback.caller

structure Registry (tasks : List TimerTask) (activeTasks : List ℕ) (nextId : ℕ)
    (calls : List Call) (callbacks : List Callback) : Prop where
  active : ∀ task ∈ tasks, task.id ∈ activeTasks
  known : ∀ task ∈ tasks, task.id < nextId
  distinct : (tasks.map TimerTask.id).Nodup
  owners_nodup : (owners tasks callbacks).Nodup
  mem_owners_iff : ∀ index, index ∈ owners tasks callbacks ↔
    ∃ call, calls[index]? = some call ∧ call.phase.registered = true
  finished : ∀ (index : ℕ) call, calls[index]? = some call → call.finished = true →
    index ∈ callbacks.map Callback.caller
  returned : ∀ call ∈ calls, call.phase = .returned → call.finished = true

namespace Registry

variable {tasks : List TimerTask} {activeTasks : List ℕ} {nextId : ℕ} {calls : List Call}
  {callbacks : List Callback}

theorem initial : Registry [] [] 0 [] [] := by
  refine ⟨?_, ?_, List.nodup_nil, List.nodup_nil, ?_, ?_, ?_⟩ <;> simp [owners]

theorem modify (hregistry : Registry tasks activeTasks nextId calls callbacks) {index : ℕ}
    {change : Call → Call} {old : Call} (hget : calls[index]? = some old)
    (hregistered : (change old).phase.registered = old.phase.registered)
    (hfinished : (change old).finished = true → old.finished = true ∨
      index ∈ callbacks.map Callback.caller)
    (hreturned : (change old).phase = .returned → (change old).finished = true) :
    Registry tasks activeTasks nextId (calls.modify index change) callbacks := by
  constructor
  case active => exact hregistry.active
  case known => exact hregistry.known
  case distinct => exact hregistry.distinct
  case owners_nodup => exact hregistry.owners_nodup
  case mem_owners_iff =>
    intro other
    rw [hregistry.mem_owners_iff]
    constructor
    · rintro ⟨call, hcall, hphase⟩
      refine ⟨_, getElem?_modify_of_eq_some hcall change, ?_⟩
      split
      · rename_i heq
        subst heq
        rw [hget] at hcall
        cases hcall
        rw [hregistered]
        exact hphase
      · exact hphase
    · rintro ⟨call, hcall, hphase⟩
      obtain ⟨found, hfound, ⟨rfl, rfl⟩ | ⟨_, rfl⟩⟩ := getElem?_modify_cases hcall
      · rw [hget] at hfound
        cases hfound
        exact ⟨old, hget, hregistered ▸ hphase⟩
      · exact ⟨call, hfound, hphase⟩
  case finished =>
    intro other call hcall hflag
    obtain ⟨found, hfound, ⟨rfl, rfl⟩ | ⟨_, rfl⟩⟩ := getElem?_modify_cases hcall
    · rw [hget] at hfound
      cases hfound
      rcases hfinished hflag with hflag | hmem
      · exact hregistry.finished index old hget hflag
      · exact hmem
    · exact hregistry.finished other call hfound hflag
  case returned =>
    intro call hmem hphase
    obtain ⟨other, hcall⟩ := List.mem_iff_getElem?.mp hmem
    obtain ⟨found, hfound, ⟨rfl, rfl⟩ | ⟨_, rfl⟩⟩ := getElem?_modify_cases hcall
    · rw [hget] at hfound
      cases hfound
      exact hreturned hphase
    · exact hregistry.returned call (List.mem_of_getElem? hfound) hphase

theorem append (hregistry : Registry tasks activeTasks nextId calls callbacks) (duration : ℤ) :
    Registry tasks activeTasks nextId (calls ++ [⟨.lock duration, false⟩]) callbacks := by
  have hcases : ∀ {index : ℕ} {call : Call},
      (calls ++ [⟨.lock duration, false⟩])[index]? = some call →
        calls[index]? = some call ∨ call = ⟨.lock duration, false⟩ := by
    intro index call hcall
    rw [List.getElem?_append] at hcall
    split at hcall
    · exact .inl hcall
    · exact .inr (List.mem_singleton.mp (List.mem_of_getElem? hcall))
  constructor
  case active => exact hregistry.active
  case known => exact hregistry.known
  case distinct => exact hregistry.distinct
  case owners_nodup => exact hregistry.owners_nodup
  case mem_owners_iff =>
    intro index
    rw [hregistry.mem_owners_iff]
    constructor
    · rintro ⟨call, hcall, hphase⟩
      exact ⟨call, ListUpdate.getElem?_append_of_eq_some hcall _, hphase⟩
    · rintro ⟨call, hcall, hphase⟩
      rcases hcases hcall with hcall | rfl
      · exact ⟨call, hcall, hphase⟩
      · cases hphase
  case finished =>
    intro index call hcall hflag
    rcases hcases hcall with hcall | rfl
    · exact hregistry.finished index call hcall hflag
    · cases hflag
  case returned =>
    intro call hmem hphase
    rcases List.mem_append.mp hmem with hmem | hnew
    · exact hregistry.returned call hmem hphase
    · rw [List.mem_singleton.mp hnew] at hphase
      cases hphase

theorem push (hregistry : Registry tasks activeTasks nextId calls callbacks) {index : ℕ}
    {call : Call} (hget : calls[index]? = some call) (hphase : call.phase.registered = false)
    (duration now : ℤ) :
    Registry (tasks ++ [⟨nextId, duration, now, index⟩]) (activeTasks.insert nextId)
      (nextId + 1) (calls.modify index ({ · with phase := .unlock })) callbacks := by
  have howners : (owners (tasks ++ [⟨nextId, duration, now, index⟩]) callbacks).Perm
      (index :: owners tasks callbacks) := by
    unfold owners
    rw [List.map_append, List.append_assoc]
    exact List.perm_middle
  have hnew : index ∉ owners tasks callbacks := by
    intro hmem
    obtain ⟨found, hfound, hregistered⟩ := (hregistry.mem_owners_iff index).mp hmem
    rw [hget] at hfound
    cases hfound
    rw [hphase] at hregistered
    cases hregistered
  constructor
  case active =>
    intro task hmem
    rcases List.mem_append.mp hmem with hmem | hlast
    · exact List.mem_insert_of_mem (hregistry.active task hmem)
    · rw [List.mem_singleton.mp hlast]
      exact List.mem_insert_self
  case known =>
    intro task hmem
    rcases List.mem_append.mp hmem with hmem | hlast
    · exact Nat.lt_succ_of_lt (hregistry.known task hmem)
    · rw [List.mem_singleton.mp hlast]
      exact Nat.lt_succ_self nextId
  case distinct =>
    rw [List.map_append]
    refine List.Nodup.append hregistry.distinct (List.nodup_singleton _) ?_
    intro id hmem hlast
    obtain ⟨task, htask, rfl⟩ := List.mem_map.mp hmem
    have hlt := hregistry.known task htask
    rw [List.mem_singleton.mp hlast] at hlt
    exact absurd hlt (Nat.lt_irrefl _)
  case owners_nodup =>
    exact howners.nodup_iff.mpr (List.nodup_cons.mpr ⟨hnew, hregistry.owners_nodup⟩)
  case mem_owners_iff =>
    intro other
    rw [howners.mem_iff, List.mem_cons, hregistry.mem_owners_iff]
    constructor
    · rintro (rfl | ⟨found, hfound, hregistered⟩)
      · exact ⟨_, getElem?_modify_of_eq_some hget _, by rw [if_pos rfl]; rfl⟩
      · refine ⟨_, getElem?_modify_of_eq_some hfound _, ?_⟩
        split
        · rfl
        · exact hregistered
    · rintro ⟨found, hfound, hregistered⟩
      obtain ⟨old, hold, ⟨rfl, rfl⟩ | ⟨_, rfl⟩⟩ := getElem?_modify_cases hfound
      · exact .inl rfl
      · exact .inr ⟨found, hold, hregistered⟩
  case finished =>
    intro other found hfound hflag
    obtain ⟨old, hold, ⟨rfl, rfl⟩ | ⟨_, rfl⟩⟩ := getElem?_modify_cases hfound
    · exact hregistry.finished index old hold hflag
    · exact hregistry.finished other found hold hflag
  case returned =>
    intro found hmem hreturned
    obtain ⟨other, hother⟩ := List.mem_iff_getElem?.mp hmem
    obtain ⟨old, hold, ⟨rfl, rfl⟩ | ⟨_, rfl⟩⟩ := getElem?_modify_cases hother
    · cases hreturned
    · exact hregistry.returned found (List.mem_of_getElem? hold) hreturned

theorem pop (hregistry : Registry tasks activeTasks nextId calls callbacks) {top : ℕ}
    {nextTask : TimerTask} (hget : tasks[top]? = some nextTask) :
    Registry (tasks.eraseIdx top) (activeTasks.erase nextTask.id) nextId calls
      (callbacks ++ [⟨nextTask.caller, .lock⟩]) := by
  have hsublist : (tasks.eraseIdx top).Sublist tasks := List.eraseIdx_sublist ..
  obtain ⟨hlt, heq⟩ := List.getElem?_eq_some_iff.mp hget
  have hperm : (nextTask :: tasks.eraseIdx top).Perm tasks :=
    heq ▸ List.getElem_cons_eraseIdx_perm hlt
  have howners : (owners (tasks.eraseIdx top) (callbacks ++ [⟨nextTask.caller, .lock⟩])).Perm
      (owners tasks callbacks) := by
    unfold owners
    rw [List.map_append, ← List.append_assoc]
    refine (List.perm_append_singleton _ _).trans ?_
    exact (hperm.map TimerTask.caller).append_right _
  constructor
  case active =>
    intro task hmem
    have hne : task.id ≠ nextTask.id :=
      ListUpdate.ne_of_mem_eraseIdx hregistry.distinct hget hmem
    exact (List.mem_erase_of_ne hne).mpr (hregistry.active task (hsublist.subset hmem))
  case known => exact fun task hmem => hregistry.known task (hsublist.subset hmem)
  case distinct => exact hregistry.distinct.sublist (hsublist.map _)
  case owners_nodup => exact howners.nodup_iff.mpr hregistry.owners_nodup
  case mem_owners_iff =>
    intro index
    rw [howners.mem_iff, hregistry.mem_owners_iff]
  case finished =>
    intro index call hcall hflag
    rw [List.map_append]
    exact List.mem_append_left _ (hregistry.finished index call hcall hflag)
  case returned => exact hregistry.returned

theorem map_caller_modify (callbacks : List Callback) (index : ℕ) (phase : CallbackPhase) :
    (callbacks.modify index ({ · with phase := phase })).map Callback.caller =
      callbacks.map Callback.caller := by
  refine List.ext_getElem? fun other => ?_
  rw [List.getElem?_map, List.getElem?_map]
  cases hget : callbacks[other]? with
  | none => simp [List.getElem?_modify, hget]
  | some callback =>
      rw [getElem?_modify_of_eq_some hget]
      split
      · rfl
      · rfl

theorem moveCallback (hregistry : Registry tasks activeTasks nextId calls callbacks)
    (index : ℕ) (phase : CallbackPhase) :
    Registry tasks activeTasks nextId calls
      (callbacks.modify index ({ · with phase := phase })) := by
  have hmap := map_caller_modify callbacks index phase
  have howners : owners tasks (callbacks.modify index ({ · with phase := phase })) =
      owners tasks callbacks := by
    rw [owners, owners, hmap]
  constructor
  case active => exact hregistry.active
  case known => exact hregistry.known
  case distinct => exact hregistry.distinct
  case owners_nodup =>
    rw [howners]
    exact hregistry.owners_nodup
  case mem_owners_iff =>
    rw [howners]
    exact hregistry.mem_owners_iff
  case finished =>
    rw [hmap]
    exact hregistry.finished
  case returned => exact hregistry.returned

theorem store (hregistry : Registry tasks activeTasks nextId calls callbacks) {callback : Callback}
    (hmem : callback ∈ callbacks) :
    Registry tasks activeTasks nextId
      (calls.modify callback.caller ({ · with finished := true })) callbacks := by
  have hcaller : callback.caller ∈ callbacks.map Callback.caller := List.mem_map_of_mem hmem
  obtain ⟨call, hget, _⟩ :=
    (hregistry.mem_owners_iff callback.caller).mp (List.mem_append_right _ hcaller)
  exact hregistry.modify hget rfl (fun _ => .inr hcaller) (fun _ => rfl)

end Registry

/-! ## What holds in the runs that close empty -/

structure Invariant (state : State) : Prop where
  registry : Registry state.tasks state.activeTasks state.nextId state.calls state.callbacks
  stopped : state.stopped = true → state.manager = none
  starting : state.control = .startAssign → state.running = true ∧ state.stopped = false
  stopping : state.manager ≠ none → state.running = false → state.control.inStop = true
  finished : state.manager = some .finished → state.running = false
  closed : state.closed = true → state.tasks = []

theorem closed_iff {state : State} :
    state.closed = true ↔ state.manager = some .finished ∨
      state.manager = none ∧ (state.stopped = true ∨ state.control.inStop = true) := by
  unfold State.closed
  cases hmanager : state.manager with
  | none => simp
  | some phase => cases phase <;> simp

theorem initial_invariant (now : ℤ) : Invariant (initial now) := by
  refine ⟨Registry.initial, ?_, ?_, ?_, ?_, ?_⟩ <;>
    simp [initial, State.closed, ControlPhase.inStop]

theorem Invariant.withRegistry {state next : State} (hinv : Invariant state)
    (hregistry : Registry next.tasks next.activeTasks next.nextId next.calls next.callbacks)
    (hrunning : next.running = state.running) (hmanager : next.manager = state.manager)
    (hcontrol : next.control = state.control) (hstopped : next.stopped = state.stopped)
    (htasks : state.closed = true → next.tasks = []) : Invariant next := by
  have hclosed : next.closed = state.closed := by
    unfold State.closed
    rw [hmanager, hcontrol, hstopped]
  constructor
  case registry => exact hregistry
  case stopped =>
    rw [hstopped, hmanager]
    exact hinv.stopped
  case starting =>
    rw [hcontrol, hrunning, hstopped]
    exact hinv.starting
  case stopping =>
    rw [hmanager, hrunning, hcontrol]
    exact hinv.stopping
  case finished =>
    rw [hmanager, hrunning]
    exact hinv.finished
  case closed =>
    rw [hclosed]
    exact htasks

theorem Invariant.start {state : State} (hinv : Invariant state)
    (hready : state.control = .ready) :
    Invariant { state with running := true, control := .startAssign, stopped := false } := by
  refine ⟨hinv.registry, (fun h => by cases h), fun _ => ⟨rfl, rfl⟩,
    (fun _ h => by cases h), ?_, ?_⟩
  · intro hmanager
    have hstopping := hinv.stopping (by rw [hmanager]; exact Option.some_ne_none _)
      (hinv.finished hmanager)
    rw [hready] at hstopping
    cases hstopping
  · intro hclosed
    rcases closed_iff.mp hclosed with hmanager | ⟨_, h | h⟩
    · exact hinv.closed (closed_iff.mpr (.inl hmanager))
    · cases h
    · cases h

theorem Invariant.stop {state : State} (hinv : Invariant state)
    (hempty : state.manager = none → state.tasks = []) :
    Invariant { state with running := false, control := .stopNotify } := by
  refine ⟨hinv.registry, hinv.stopped, (fun h => by cases h), fun _ _ => rfl, fun _ => rfl, ?_⟩
  intro hclosed
  rcases closed_iff.mp hclosed with hmanager | ⟨hmanager, _⟩
  · exact hinv.closed (closed_iff.mpr (.inl hmanager))
  · exact hempty hmanager

theorem Invariant.joined {state : State} (hinv : Invariant state)
    (hcontrol : state.control = .stopJoin)
    (hmanager : state.manager = none ∨ state.manager = some .finished) :
    Invariant { state with manager := none, control := .ready, stopped := true } := by
  refine ⟨hinv.registry, fun _ => rfl, (fun h => by cases h), fun h => (h rfl).elim,
    (fun h => by cases h), fun _ => hinv.closed (closed_iff.mpr ?_)⟩
  rcases hmanager with hmanager | hmanager
  · exact .inr ⟨hmanager, .inr (by rw [hcontrol]; rfl)⟩
  · exact .inl hmanager

theorem Invariant.controlStep {state next : State} (hinv : Invariant state)
    (hstep : controlStep state = some next) : Invariant next := by
  unfold TwoModesTimer.controlStep at hstep
  cases hcontrol : state.control with
  | ready => simp [hcontrol] at hstep
  | startAssign =>
      simp only [hcontrol] at hstep
      split at hstep
      · cases hstep
        obtain ⟨hrunning, hnotStopped⟩ := hinv.starting hcontrol
        refine ⟨hinv.registry, ?_, (fun h => by cases h), ?_, (fun h => by cases h),
          fun h => by cases h⟩
        · intro hstopped
          change state.stopped = true at hstopped
          rw [hnotStopped] at hstopped
          cases hstopped
        · intro _ hfalse
          change state.running = false at hfalse
          rw [hrunning] at hfalse
          cases hfalse
      · cases hstep
  | stopNotify =>
      simp only [hcontrol] at hstep
      cases hstep
      refine ⟨hinv.registry, hinv.stopped, (fun h => by cases h), fun _ _ => rfl,
        hinv.finished, ?_⟩
      intro hclosed
      refine hinv.closed (closed_iff.mpr ?_)
      rcases closed_iff.mp hclosed with hmanager | ⟨hmanager, _⟩
      · exact .inl hmanager
      · exact .inr ⟨hmanager, .inr (by rw [hcontrol]; rfl)⟩
  | stopJoin =>
      simp only [hcontrol] at hstep
      split at hstep
      · rename_i hmanager
        cases hstep
        exact hinv.joined hcontrol (.inl hmanager)
      · rename_i hmanager
        cases hstep
        exact hinv.joined hcontrol (.inr hmanager)
      · cases hstep

theorem Invariant.managerStep {state next : State} {now : ℤ} {top : ℕ} (hinv : Invariant state)
    (hempty : ClosesEmpty state (.manager now top))
    (hstep : managerStep state now top = some next) : Invariant next := by
  obtain ⟨hmanager, hcases⟩ := managerStep_cases hstep
  have hstopped : state.stopped ≠ true := fun h => hmanager (hinv.stopped h)
  rcases hcases with ⟨phase, later, hphase, rfl⟩ | ⟨htest, hrunning, rfl⟩ |
    ⟨hinspect, nextTask, hget, rfl⟩
  · refine ⟨hinv.registry, fun h => (hstopped h).elim, hinv.starting,
      fun _ => hinv.stopping hmanager, fun h => (hphase (Option.some.inj h)).elim, ?_⟩
    intro hclosed
    rcases closed_iff.mp hclosed with h | ⟨h, _⟩
    · exact (hphase (Option.some.inj h)).elim
    · cases h
  · exact ⟨hinv.registry, fun h => (hstopped h).elim, hinv.starting,
      fun _ => hinv.stopping hmanager, fun _ => hrunning, fun _ => hempty htest hrunning⟩
  · have hactive := hinv.registry.active nextTask (List.mem_of_getElem? hget)
    rw [pop, if_pos hactive]
    refine ⟨hinv.registry.pop hget, fun h => (hstopped h).elim, hinv.starting,
      fun _ => hinv.stopping hmanager, (fun h => by cases h), ?_⟩
    intro hclosed
    rcases closed_iff.mp hclosed with h | ⟨h, _⟩
    · cases h
    · cases h

theorem Invariant.callStep {state next : State} {index : ℕ} {now : ℤ} (hinv : Invariant state)
    (hempty : ClosesEmpty state (.call index now))
    (hstep : callStep state index now = some next) : Invariant next := by
  obtain ⟨call, hget, hcases⟩ := callStep_cases hstep
  rcases hcases with ⟨phase, rfl, _, hregistered, hreturned⟩ | ⟨duration, hphase, rfl⟩
  · exact hinv.withRegistry (hinv.registry.modify hget hregistered (fun h => .inl h) hreturned)
      rfl rfl rfl rfl hinv.closed
  · refine hinv.withRegistry (hinv.registry.push hget (by rw [hphase]; rfl) duration now)
      rfl rfl rfl rfl ?_
    intro hclosed
    have hopen : state.closed = false := by
      refine hempty ?_
      rw [hget, Option.any_some, hphase]
      rfl
    rw [hopen] at hclosed
    cases hclosed

theorem Invariant.callbackStep {state next : State} {index : ℕ} (hinv : Invariant state)
    (hstep : callbackStep state index = some next) : Invariant next := by
  obtain ⟨callback, hget, hcases⟩ := callbackStep_cases hstep
  rcases hcases with ⟨phase, rfl⟩ | rfl
  · exact hinv.withRegistry (hinv.registry.moveCallback index phase) rfl rfl rfl rfl hinv.closed
  · have hstored := hinv.registry.store (List.mem_of_getElem? hget)
    exact hinv.withRegistry (hstored.moveCallback index .notify) rfl rfl rfl rfl hinv.closed

theorem Invariant.step {state next : State} {action : Action} (hinv : Invariant state)
    (hempty : ClosesEmpty state action) (hstep : step state action = some next) :
    Invariant next := by
  cases action with
  | start =>
      simp only [TwoModesTimer.step] at hstep
      split at hstep
      · rename_i hready
        cases hstep
        exact hinv.start hready
      · cases hstep
  | stop =>
      simp only [TwoModesTimer.step] at hstep
      split at hstep
      · cases hstep
        exact hinv.stop hempty
      · cases hstep
  | control => exact hinv.controlStep hstep
  | manager now top => exact hinv.managerStep hempty hstep
  | addBlockingTimer duration =>
      cases hstep
      exact hinv.withRegistry (hinv.registry.append duration) rfl rfl rfl rfl hinv.closed
  | call index now => exact hinv.callStep hempty hstep
  | callback index => exact hinv.callbackStep hstep

theorem Invariant.not_stranded {state : State} (hinv : Invariant state) : ¬ Stranded state := by
  rintro ⟨hstopped, index, call, hget, hwait, hnone⟩
  have hempty := hinv.closed (closed_iff.mpr (.inr ⟨hinv.stopped hstopped, .inl hstopped⟩))
  have hregistered : call.phase.registered = true := by
    cases hphase : call.phase with
    | blocked | relock => rfl
    | _ =>
        rw [hphase] at hwait
        cases hwait
  have howner := (hinv.registry.mem_owners_iff index).mpr ⟨call, hget, hregistered⟩
  rw [owners, hempty, List.map_nil, List.nil_append] at howner
  obtain ⟨callback, hmem, hcaller⟩ := List.mem_map.mp howner
  exact hnone callback hmem hcaller

theorem invariant_of_closesEmpty {now : ℤ} {state : State}
    (hreach : (timerProgram now).ReachableMeeting ClosesEmpty state) : Invariant state := by
  obtain ⟨actions, hrun, hmeet⟩ := hreach
  refine TransitionSystem.run_preserves_of_stepsMeet Invariant ?_ (initial_invariant now) hmeet
    hrun
  exact fun _ _ _ hinv hempty hstep => hinv.step hempty hstep

/-- No call is stranded in a run in which no timer is left to a manager that is gone. -/
theorem not_stranded_of_closesEmpty {now : ℤ} {state : State}
    (hreach : (timerProgram now).ReachableMeeting ClosesEmpty state) : ¬ Stranded state :=
  (invariant_of_closesEmpty hreach).not_stranded

/-! ## A timer left behind -/

section LeftBehind

variable {now : ℤ} {state : State}

def LeadsToStranded (now : ℤ) (state : State) : Prop :=
  ∃ final, (timerProgram now).ReachableFrom state final ∧ Stranded final

/-- A closed timer whose `stop` is under way can come to the return of `stop`. -/
theorem reaches_stopped (hclosed : state.closed = true)
    (hfinished : state.manager = some .finished → state.control.inStop = true) :
    ∃ final, (timerProgram now).ReachableFrom state final ∧ final.stopped = true ∧
      final.calls = state.calls ∧ final.callbacks = state.callbacks := by
  have hjoin : ∀ found : State, found.control = .stopJoin →
      found.manager = none ∨ found.manager = some .finished →
        (timerProgram now).step found .control =
          some { found with manager := none, control := .ready, stopped := true } := by
    intro found hcontrol hmanager
    show controlStep found = _
    rcases hmanager with hmanager | hmanager
    · simp only [controlStep, hcontrol, hmanager]
    · simp only [controlStep, hcontrol, hmanager]
  by_cases hstopped : state.stopped = true
  · exact ⟨state, .refl state, hstopped, rfl, rfl⟩
  · have hmanager : state.manager = none ∨ state.manager = some .finished := by
      rcases closed_iff.mp hclosed with h | ⟨h, _⟩
      · exact .inr h
      · exact .inl h
    have hinStop : state.control.inStop = true := by
      rcases closed_iff.mp hclosed with h | ⟨_, h | h⟩
      · exact hfinished h
      · exact (hstopped h).elim
      · exact h
    cases hcontrol : state.control with
    | ready | startAssign =>
        rw [hcontrol] at hinStop
        cases hinStop
    | stopNotify =>
        have hnotify : (timerProgram now).step state .control =
            some { state with control := .stopJoin } := by
          show controlStep state = _
          simp only [controlStep, hcontrol]
        exact ⟨_, ((TransitionSystem.ReachableFrom.refl state).tail hnotify).tail
          (hjoin _ rfl hmanager), rfl, rfl, rfl⟩
    | stopJoin =>
        exact ⟨_, (TransitionSystem.ReachableFrom.refl state).tail (hjoin state hcontrol hmanager),
          rfl, rfl, rfl⟩

theorem reaches_waitTest {index : ℕ} {call : Call} (hget : state.calls[index]? = some call)
    (hphase : call.phase = .unlock) :
    (timerProgram now).ReachableFrom state (state.moveTo index .waitTest) := by
  have hstep : (timerProgram now).step state (.call index now) =
      some (state.moveTo index .waitTest) := by
    show callStep state index now = _
    simp only [callStep, hget, hphase]
  exact (TransitionSystem.ReachableFrom.refl state).tail hstep

theorem reaches_blocked {index : ℕ} {call : Call} (hget : state.calls[index]? = some call)
    (hphase : call.phase = .waitTest) (hflag : call.finished = false) :
    (timerProgram now).ReachableFrom state (state.moveTo index .blocked) := by
  have hstep : (timerProgram now).step state (.call index now) =
      some (state.moveTo index .blocked) := by
    show callStep state index now = _
    simp only [callStep, hget, hphase, hflag, Bool.false_eq_true, if_false]
  exact (TransitionSystem.ReachableFrom.refl state).tail hstep

/-- A call that has registered and is not finished can come to its wait. -/
theorem reaches_inWait {index : ℕ} {call : Call} (hget : state.calls[index]? = some call)
    (hregistered : call.phase.registered = true) (hflag : call.finished = false)
    (hreturned : call.phase ≠ .returned) :
    ∃ final, (timerProgram now).ReachableFrom state final ∧ final.stopped = state.stopped ∧
      final.callbacks = state.callbacks ∧
      ∃ found, final.calls[index]? = some found ∧ found.phase.inWait = true := by
  have hmoved : ∀ (found : State) (phase : CallPhase) (old : Call),
      found.calls[index]? = some old →
        (found.moveTo index phase).calls[index]? = some { old with phase := phase } := by
    intro found phase old hold
    rw [State.moveTo, getElem?_modify_of_eq_some hold, if_pos rfl]
  obtain ⟨phase, flag⟩ := call
  cases hflag
  cases phase with
  | lock duration | push duration => cases hregistered
  | unlock =>
      have hwaits := hmoved state .waitTest _ hget
      obtain ⟨rest, hrest⟩ := reaches_blocked hwaits rfl rfl
      exact ⟨_, (reaches_waitTest hget rfl).run hrest, rfl, rfl, _, hmoved _ .blocked _ hwaits,
        rfl⟩
  | waitTest =>
      exact ⟨_, reaches_blocked hget rfl rfl, rfl, rfl, _, hmoved state .blocked _ hget, rfl⟩
  | blocked | relock =>
      exact ⟨state, .refl state, rfl, rfl, _, hget, rfl⟩
  | returned => exact (hreturned rfl).elim

theorem leadsToStranded_of_pending
    (hregistry : Registry state.tasks state.activeTasks state.nextId state.calls state.callbacks)
    (hclosed : state.closed = true)
    (hfinished : state.manager = some .finished → state.control.inStop = true)
    (hpending : state.tasks ≠ []) : LeadsToStranded now state := by
  obtain ⟨task, htask⟩ := List.exists_mem_of_ne_nil _ hpending
  have howner : task.caller ∈ state.tasks.map TimerTask.caller := List.mem_map_of_mem htask
  have hnoThread : task.caller ∉ state.callbacks.map Callback.caller := fun hmem =>
    List.disjoint_of_nodup_append hregistry.owners_nodup howner hmem
  obtain ⟨call, hget, hregistered⟩ :=
    (hregistry.mem_owners_iff task.caller).mp (List.mem_append_left _ howner)
  have hflag : call.finished = false :=
    Bool.eq_false_iff.mpr fun hflag => hnoThread (hregistry.finished _ call hget hflag)
  have hreturned : call.phase ≠ .returned := by
    intro hphase
    have htrue := hregistry.returned call (List.mem_of_getElem? hget) hphase
    rw [hflag] at htrue
    cases htrue
  obtain ⟨stopped, hstops, hstopped, hcalls, hcallbacks⟩ := reaches_stopped hclosed hfinished
  rw [← hcalls] at hget
  obtain ⟨final, ⟨rest, hrest⟩, hstill, hsame, hwaits⟩ :=
    reaches_inWait hget hregistered hflag hreturned
  obtain ⟨found, hfound, hinWait⟩ := hwaits
  refine ⟨final, hstops.run hrest, hstill.trans hstopped, task.caller, found, hfound, hinWait, ?_⟩
  intro callback hmem heq
  rw [hsame, hcallbacks] at hmem
  exact hnoThread (List.mem_map.mpr ⟨callback, hmem, heq⟩)

/-- After the first step that does not meet the condition the run can go on to a stranded
call. -/
theorem leadsToStranded_of_not_closesEmpty {next : State} {action : Action}
    (hreach : (timerProgram now).ReachableMeeting ClosesEmpty state)
    (hleft : ¬ ClosesEmpty state action)
    (hstep : (timerProgram now).step state action = some next) : LeadsToStranded now next := by
  have hinv := invariant_of_closesEmpty hreach
  have hfinished : state.manager = some .finished → state.control.inStop = true :=
    fun hmanager => hinv.stopping (by rw [hmanager]; exact Option.some_ne_none _)
      (hinv.finished hmanager)
  change step state action = some next at hstep
  cases action with
  | manager now top =>
      simp only [ClosesEmpty, Classical.not_imp] at hleft
      obtain ⟨htest, hrunning, hpending⟩ := hleft
      simp only [step, managerStep, htest, hrunning, Bool.false_eq_true, if_false] at hstep
      cases hstep
      refine leadsToStranded_of_pending hinv.registry rfl ?_ hpending
      exact fun _ => hinv.stopping (by rw [htest]; exact Option.some_ne_none _) hrunning
  | stop =>
      simp only [ClosesEmpty, Classical.not_imp] at hleft
      obtain ⟨hmanager, hpending⟩ := hleft
      simp only [step] at hstep
      split at hstep
      · cases hstep
        exact leadsToStranded_of_pending hinv.registry
          (closed_iff.mpr (.inr ⟨hmanager, .inr rfl⟩)) (fun _ => rfl) hpending
      · cases hstep
  | call index later =>
      simp only [ClosesEmpty, Classical.not_imp] at hleft
      obtain ⟨hpushes, hclosed⟩ := hleft
      have hclosed : state.closed = true := by simpa using hclosed
      obtain ⟨call, hget, hcases⟩ := callStep_cases hstep
      rw [hget, Option.any_some] at hpushes
      rcases hcases with ⟨phase, _, hother, _⟩ | ⟨duration, hphase, rfl⟩
      · rw [hother] at hpushes
        cases hpushes
      · refine leadsToStranded_of_pending
          (hinv.registry.push hget (by rw [hphase]; rfl) duration later) hclosed hfinished ?_
        exact List.append_ne_nil_of_right_ne_nil _ (List.cons_ne_nil _ _)
  | start | control | addBlockingTimer _ | callback _ => exact (hleft trivial).elim

end LeftBehind

/-! ## Runs -/

/-- A timer of five milliseconds fires before `stop`. -/
def firedActions : List Action :=
  [.start, .control, .addBlockingTimer 5, .call 0 0, .call 0 0, .call 0 0, .call 0 0,
    .manager 0 0, .manager 0 0, .manager 5 0, .manager 5 0, .callback 0, .callback 0,
    .callback 0, .call 0 5, .call 0 5, .call 0 5, .stop, .control, .manager 5 0, .control]

theorem not_stranded_firedActions : ¬ Stranded
    ⟨false, none, .ready, true, 5, [], [], 1, [⟨.returned, true⟩], [⟨0, .finished⟩]⟩ := by
  have hreach : (timerProgram 0).ReachableMeeting ClosesEmpty
      ⟨false, none, .ready, true, 5, [], [], 1, [⟨.returned, true⟩], [⟨0, .finished⟩]⟩ :=
    ⟨firedActions, by decide, by decide⟩
  exact not_stranded_of_closesEmpty hreach

/-- The manager finds `running_` false while the timer is pending. -/
def pendingActions : List Action :=
  [.start, .control, .addBlockingTimer 5, .call 0 0, .call 0 0, .call 0 0, .call 0 0, .stop,
    .control, .manager 0 0, .control]

theorem stranded_pendingActions :
    ¬ ∀ state, (timerProgram 0).Reachable state → ¬ Stranded state := by
  intro hnever
  refine hnever ⟨false, none, .ready, true, 0, [⟨0, 5, 0, 0⟩], [0], 1, [⟨.blocked, false⟩], []⟩
    ⟨pendingActions, by decide⟩ ?_
  exact ⟨rfl, 0, ⟨.blocked, false⟩, rfl, rfl, fun callback hmem => by cases hmem⟩

end CppProj.TwoModesTimer
