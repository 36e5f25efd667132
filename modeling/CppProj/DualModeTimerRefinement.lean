import CppProj.DualModeTimer
import CppProj.ListUpdate
import CppProj.PendingTimers
import CppProj.TransitionSystem
import Mathlib.Data.Int.Order.Basic

/-!
# `DualModeTimer` is a set of pending timers

Any number of threads add and cancel timers while the manager iterates; every
step is the code that one of them runs under `tasks_mutex_`, and the clock that
the steps read never goes back.  The history of the steps is a lawful history
of the specification `PendingTimers`: the active timers are the pending ones,
although the heap still holds the cancelled.  The manager fires the least entry
of the heap, which is the least pending timer because every active timer has
its copy there.

A caller gives a promise to one timer only, and the callbacks leave it alone.
-/

universe u

namespace CppProj.DualModeTimer

open PendingTimers

variable {Callback : Type u}

inductive CallbackPhase where
  | running
  | finished
  | terminated
  deriving DecidableEq

/-- A thread of `callback_threads_` with the task that its function captured. -/
structure CallbackThread (Callback : Type u) where
  task : TimerTask Callback
  phase : CallbackPhase

/-- `history` lists the additions, starts and cancellations, and
`givenPromises` the promises that callers gave to a timer. -/
structure State (Callback : Type u) where
  timers : Timers Callback
  now : ℤ
  callbackThreads : List (CallbackThread Callback)
  givenPromises : List ℕ
  history : List (Event Int32 ℤ)

inductive Action (Callback : Type u) where
  | addNonBlockingTimer (duration : ℤ) (callback : Callback) (now : ℤ)
  | addNonBlockingTimerWithPromise (duration : ℤ) (promise : ℕ) (callback : Callback)
      (now : ℤ)
  | cancelTimer (timerId : Int32)
  | cancelAllTimers
  | managerIteration (now : ℤ) (top : ℕ)
  | finishCallback (index : ℕ)

def initial (start : ℤ) : State Callback where
  timers := .initial
  now := start
  callbackThreads := []
  givenPromises := []
  history := []

/-- The state after an addition, which made the last id of `timers`. -/
def State.added (state : State Callback) (timers : Timers Callback) (duration now : ℤ) :
    State Callback :=
  { state with
    timers := timers
    now := now
    history := state.history ++ [.added timers.nextId (now + duration * 1000000)] }

/-- An exception of `cancelTimer` leaves no answer. -/
def State.cancelled (state : State Callback) (timerId : Int32) : State Callback :=
  match state.timers.cancelTimer timerId with
  | (.returned answer, timers) =>
      { state with
        timers := timers
        history := state.history ++ [.cancelled timerId answer] }
  | (.threw, timers) => { state with timers := timers }

def managerStep (state : State Callback) (now : ℤ) (top : ℕ) : Option (State Callback) :=
  match state.timers.managerIteration now top with
  | none => none
  | some (.spawned task, timers) =>
      some { state with
        timers := timers
        now := now
        callbackThreads := state.callbackThreads ++ [⟨task, .running⟩]
        history := state.history ++ [.started task.id now] }
  | some (_, timers) => some { state with timers := timers, now := now }

/-- The callback returns or throws, and its thread sets the promise to a value
or to the exception; where that throws too, the program terminates. -/
def finishStep (state : State Callback) (index : ℕ) : Option (State Callback) :=
  match state.callbackThreads[index]? with
  | some ⟨task, .running⟩ =>
      some { state with
        timers := state.timers.settle task.promise
        callbackThreads := state.callbackThreads.set index
          ⟨task, if state.timers.satisfied task.promise then .terminated else .finished⟩ }
  | some ⟨_, .finished⟩ | some ⟨_, .terminated⟩ | none => none

def step (state : State Callback) : Action Callback → Option (State Callback)
  | .addNonBlockingTimer duration callback now =>
      if state.now ≤ now then
        some (state.added (state.timers.addNonBlockingTimer duration callback now)
          duration now)
      else none
  | .addNonBlockingTimerWithPromise duration promise callback now =>
      if state.now ≤ now ∧ promise ∉ state.givenPromises then
        some { state.added
            (state.timers.addNonBlockingTimerWithPromise duration promise callback now)
            duration now with
          givenPromises := promise :: state.givenPromises }
      else none
  | .cancelTimer timerId => some (state.cancelled timerId)
  | .cancelAllTimers =>
      some { state with
        timers := state.timers.cancelAllTimers
        history := state.history ++ [.cancelledAll] }
  | .managerIteration now top =>
      if state.now ≤ now then managerStep state now top else none
  | .finishCallback index => finishStep state index

def system (start : ℤ) : TransitionSystem (State Callback) (Action Callback) :=
  ⟨initial start, step⟩

def State.additions (state : State Callback) : ℕ := (addedIds state.history).length

/-! ## Who holds a promise -/

/-- The promise that the thread has still to satisfy. -/
def CallbackThread.promise (thread : CallbackThread Callback) : Option ℕ :=
  match thread.phase with
  | .running => thread.task.promise
  | .finished | .terminated => none

def State.threadPromises (state : State Callback) : List ℕ :=
  state.callbackThreads.filterMap CallbackThread.promise

/-- The number of times that a promise is waiting to be satisfied or has been
satisfied. -/
def State.holders (state : State Callback) (promise : ℕ) : ℕ :=
  state.timers.activePromises.count promise + state.threadPromises.count promise +
    state.timers.settlements.count promise

theorem count_activePromises_insert {timers : Timers Callback} {id : Int32}
    (hnew : id ∉ timers.activeTasks) (task : TimerTask Callback) (promise : ℕ) :
    ((timers.activeTasks.insert id task).entries.filterMap
        fun entry => entry.2.promise).count promise =
      task.promise.toList.count promise + timers.activePromises.count promise := by
  rw [AList.entries_insert_of_notMem hnew, ListUpdate.count_filterMap_cons]
  rfl

theorem count_activePromises_erase {timers : Timers Callback} {id : Int32}
    {task : TimerTask Callback} (hlookup : timers.activeTasks.lookup id = some task)
    (promise : ℕ) :
    timers.activePromises.count promise =
      task.promise.toList.count promise +
        ((timers.activeTasks.erase id).entries.filterMap
          fun entry => entry.2.promise).count promise := by
  rw [Timers.activePromises,
    ((AList.perm_of_lookup_eq_some hlookup).filterMap _).count_eq, ListUpdate.count_filterMap_cons]

/-! ## The invariant -/

structure RefinementInvariant (state : State Callback) : Prop where
  timers : TimersInvariant state.timers
  numbered : state.timers.nextId.toInt = state.additions
  ids : ∀ id ∈ addedIds state.history, id.toInt ≤ state.timers.nextId.toInt
  lawful : Lawful state.history
  pending : ∀ id, pendingAfter state.history id =
    (state.timers.activeTasks.lookup id).map TimerTask.wakeTime
  promises : ∀ promise, state.holders promise ≤ 1
  given : ∀ promise, promise ∉ state.givenPromises → state.holders promise = 0

/-- What a promise leaves its active timer for. -/
theorem RefinementInvariant.not_satisfied {state : State Callback}
    (hinv : RefinementInvariant state) {promise : Option ℕ}
    (hheld : ∀ name ∈ promise,
      0 < state.timers.activePromises.count name + state.threadPromises.count name) :
    state.timers.satisfied promise = false := by
  cases promise with
  | none => rfl
  | some name =>
      have hcount := hinv.promises name
      have hpositive := hheld name rfl
      have hzero : state.timers.settlements.count name = 0 := by
        simp only [State.holders] at hcount
        omega
      simpa [Timers.satisfied] using List.count_eq_zero.mp hzero

theorem RefinementInvariant.added {state : State Callback}
    (hinv : RefinementInvariant state) {duration now : ℤ} (promise : Option ℕ)
    {callback : Callback} {given : List ℕ}
    (hroom : state.timers.nextId.toInt < 2 ^ 31 - 1)
    (hgiven : given = promise.toList ++ state.givenPromises)
    (hfresh : ∀ name ∈ promise, name ∉ state.givenPromises) :
    RefinementInvariant
      { state.added (state.timers.addTask duration promise callback now) duration now with
        givenPromises := given } := by
  have hnext := toInt_add_one hinv.timers.counted hroom
  have hnew : state.timers.nextId + 1 ∉ state.timers.activeTasks := by
    intro hmem
    obtain ⟨task, hlookup⟩ := Option.isSome_iff_exists.mp (AList.lookup_isSome.mpr hmem)
    have hknown := hinv.timers.known_of_active hlookup
    omega
  have hholders : ∀ name,
      ({ state.added (state.timers.addTask duration promise callback now) duration now with
        givenPromises := given } : State Callback).holders name =
      promise.toList.count name + state.holders name := by
    intro name
    have hactive := count_activePromises_insert hnew
      ⟨state.timers.nextId + 1, .nonBlocking, duration, callback, now, false, promise⟩ name
    simp only [State.holders, State.threadPromises, State.added, Timers.addTask,
      Timers.activePromises] at hactive ⊢
    rw [hactive]
    omega
  constructor
  case timers => exact hinv.timers.addTask hroom
  case numbered =>
    have hnumbered := hinv.numbered
    simp only [State.additions] at hnumbered
    simp only [State.added, Timers.addTask, State.additions, addedIds_append,
      List.length_append, hnext]
    simp only [addedIds, List.filterMap_cons, Event.addedId, List.filterMap_nil,
      List.length_singleton]
    simp only [addedIds] at hnumbered
    omega
  case ids =>
    intro id hmem
    simp only [State.added, Timers.addTask, hnext]
    rw [State.added, addedIds_append] at hmem
    rcases List.mem_append.mp hmem with hold | hself
    · have hid := hinv.ids id hold
      omega
    · rw [List.mem_singleton.mp hself]
      exact Int.le_of_eq hnext
  case lawful =>
    refine .snoc hinv.lawful ?_
    intro hmem
    have hid := hinv.ids _ hmem
    simp only [Timers.addTask, hnext] at hid
    omega
  case pending =>
    intro id
    simp only [State.added, pendingAfter_append_singleton, Event.apply, Timers.addTask]
    by_cases heq : id = state.timers.nextId + 1
    · subst heq
      rw [Function.update_self, AList.lookup_insert]
      rfl
    · rw [Function.update_of_ne heq, AList.lookup_insert_ne heq]
      exact hinv.pending id
  case promises =>
    intro name
    have hcount := hinv.promises name
    rw [hholders]
    by_cases hmem : name ∈ promise.toList
    · have hzero := hinv.given name (hfresh name (Option.mem_toList.mp hmem))
      have hone := ListUpdate.count_toList_le_one promise name
      omega
    · rw [List.count_eq_zero.mpr hmem]
      omega
  case given =>
    intro name hname
    rw [hgiven, List.mem_append, not_or] at hname
    rw [hholders, List.count_eq_zero.mpr hname.1, hinv.given name hname.2]

theorem RefinementInvariant.cancelTimer_eq {state : State Callback}
    (hinv : RefinementInvariant state) (timerId : Int32) :
    state.timers.cancelTimer timerId =
      match state.timers.activeTasks.lookup timerId with
      | none => (.returned false, state.timers)
      | some task =>
          (.returned true,
            { state.timers.settle task.promise with
              activeTasks := state.timers.activeTasks.erase timerId }) := by
  unfold Timers.cancelTimer
  cases hlookup : state.timers.activeTasks.lookup timerId with
  | none => rfl
  | some task =>
      have hsatisfied : state.timers.satisfied task.promise = false := by
        apply hinv.not_satisfied
        intro name hname
        have hcount := count_activePromises_erase hlookup name
        have hself : 0 < task.promise.toList.count name :=
          List.count_pos_iff.mpr (Option.mem_toList.mpr hname)
        omega
      simp only [hsatisfied, Bool.false_eq_true, if_false]

/-- A step which logs a legal event other than an addition and passes promises
on. -/
theorem RefinementInvariant.logged {state next : State Callback}
    (hinv : RefinementInvariant state) {event : Event Int32 ℤ}
    (htimers : TimersInvariant next.timers)
    (hnextId : next.timers.nextId = state.timers.nextId)
    (hhistory : next.history = state.history ++ [event])
    (hevent : event.addedId = none) (hlegal : Legal state.history event)
    (hpending : ∀ id, event.apply (pendingAfter state.history) id =
      (next.timers.activeTasks.lookup id).map TimerTask.wakeTime)
    (hholders : ∀ promise, next.holders promise = state.holders promise)
    (hgiven : next.givenPromises = state.givenPromises) : RefinementInvariant next := by
  have hids : addedIds next.history = addedIds state.history := by
    rw [hhistory, addedIds_append, addedIds, addedIds, List.filterMap_cons_none hevent]
    exact List.append_nil _
  constructor
  case timers => exact htimers
  case numbered =>
    rw [hnextId, State.additions, hids]
    exact hinv.numbered
  case ids =>
    rw [hnextId, hids]
    exact hinv.ids
  case lawful =>
    rw [hhistory]
    exact .snoc hinv.lawful hlegal
  case pending =>
    rw [hhistory, pendingAfter_append_singleton]
    exact hpending
  case promises =>
    intro promise
    rw [hholders]
    exact hinv.promises promise
  case given =>
    intro promise hpromise
    rw [hholders]
    exact hinv.given promise (hgiven ▸ hpromise)

theorem RefinementInvariant.cancelled {state : State Callback}
    (hinv : RefinementInvariant state) (timerId : Int32) :
    RefinementInvariant (state.cancelled timerId) := by
  have hpending := hinv.pending timerId
  unfold State.cancelled
  rw [hinv.cancelTimer_eq]
  cases hlookup : state.timers.activeTasks.lookup timerId with
  | none =>
      rw [hlookup] at hpending
      refine hinv.logged hinv.timers rfl rfl rfl ?_ ?_ (fun _ => rfl) rfl
      · simp [Legal, hpending]
      · intro id
        rw [Event.apply, Function.update_apply]
        split_ifs with heq
        · rw [heq, hlookup]
          rfl
        · exact hinv.pending id
  | some task =>
      rw [hlookup] at hpending
      refine hinv.logged (hinv.timers.erase _ _) rfl rfl rfl ?_ ?_ ?_ rfl
      · simp [Legal, hpending]
      · intro id
        rw [Event.apply, Function.update_apply]
        split_ifs with heq
        · rw [heq, AList.lookup_erase]
          rfl
        · rw [AList.lookup_erase_ne heq]
          exact hinv.pending id
      · intro promise
        have hactive := count_activePromises_erase hlookup promise
        simp only [State.holders, State.threadPromises, Timers.activePromises,
          Timers.settle, List.count_append] at hactive ⊢
        omega

theorem RefinementInvariant.cancelledAll {state : State Callback}
    (hinv : RefinementInvariant state) :
    RefinementInvariant
      { state with
        timers := state.timers.cancelAllTimers
        history := state.history ++ [.cancelledAll] } := by
  refine hinv.logged hinv.timers.cancelAllTimers rfl rfl rfl trivial (fun _ => rfl) ?_ rfl
  intro promise
  simp only [State.holders, State.threadPromises, Timers.activePromises,
    Timers.cancelAllTimers, AList.empty_entries, List.filterMap_nil, List.count_nil,
    List.count_append]
  omega

/-- Removing an entry of the heap changes nothing that a caller can see. -/
theorem RefinementInvariant.moved {state : State Callback}
    (hinv : RefinementInvariant state) {tasks : List (TimerTask Callback)} {now : ℤ}
    (htimers : TimersInvariant { state.timers with tasks := tasks }) :
    RefinementInvariant
      { state with timers := { state.timers with tasks := tasks }, now := now } :=
  ⟨htimers, hinv.numbered, hinv.ids, hinv.lawful, hinv.pending, hinv.promises, hinv.given⟩

/-- The least entry of the heap is the least pending timer. -/
theorem RefinementInvariant.mayStart {state : State Callback}
    (hinv : RefinementInvariant state) {task : TimerTask Callback} {now : ℤ}
    (hleast : ∀ other ∈ state.timers.tasks, task.wakeTime ≤ other.wakeTime)
    (hdue : task.wakeTime ≤ now)
    (hactive : state.timers.activeTasks.lookup task.id = some task) :
    MayStart (pendingAfter state.history) task.id now := by
  refine ⟨task.wakeTime, ?_, hdue, ?_⟩
  · rw [hinv.pending, hactive]
    rfl
  · intro other otherDeadline hpending
    rw [hinv.pending] at hpending
    obtain ⟨otherTask, hlookup, rfl⟩ := Option.map_eq_some_iff.mp hpending
    obtain ⟨_, _, _, hmem⟩ := hinv.timers.active other otherTask hlookup
    exact hleast otherTask hmem

theorem RefinementInvariant.spawned {state : State Callback}
    (hinv : RefinementInvariant state) {task : TimerTask Callback} {now : ℤ} {top : ℕ}
    (hget : state.timers.tasks[top]? = some task)
    (hleast : ∀ other ∈ state.timers.tasks, task.wakeTime ≤ other.wakeTime)
    (hdue : task.wakeTime ≤ now)
    (hactive : state.timers.activeTasks.lookup task.id = some task) :
    RefinementInvariant
      { state with
        timers :=
          { state.timers with
            tasks := state.timers.tasks.eraseIdx top
            activeTasks := state.timers.activeTasks.erase task.id }
        now := now
        callbackThreads := state.callbackThreads ++ [⟨task, .running⟩]
        history := state.history ++ [.started task.id now] } := by
  refine hinv.logged ?_ rfl rfl rfl (hinv.mayStart hleast hdue hactive) ?_ ?_ rfl
  · exact (hinv.timers.erase task.id _).eraseIdx hget (AList.lookup_erase _ _)
  · intro id
    rw [Event.apply, Function.update_apply]
    split_ifs with heq
    · rw [heq, AList.lookup_erase]
      rfl
    · rw [AList.lookup_erase_ne heq]
      exact hinv.pending id
  · intro promise
    have hcount := count_activePromises_erase hactive promise
    have hthread : ([(⟨task, .running⟩ : CallbackThread Callback)].filterMap
        CallbackThread.promise).count promise = task.promise.toList.count promise := by
      rw [ListUpdate.count_filterMap_cons]
      rfl
    simp only [State.holders, State.threadPromises, Timers.activePromises,
      List.filterMap_append, List.count_append, hthread] at hcount ⊢
    omega

theorem RefinementInvariant.managerStep {state next : State Callback}
    (hinv : RefinementInvariant state) {now : ℤ} {top : ℕ}
    (hstep : DualModeTimer.managerStep state now top = some next) :
    RefinementInvariant next := by
  unfold DualModeTimer.managerStep at hstep
  split at hstep
  next => cases hstep
  next task timers hiteration =>
    cases hstep
    cases Timers.iterationMove_of_managerIteration hinv.timers hiteration with
    | spawned task hget hleast hdue hactive => exact hinv.spawned hget hleast hdue hactive
  next iteration timers hother hiteration =>
    cases hstep
    have hmove := Timers.iterationMove_of_managerIteration hinv.timers hiteration
    have htimers := hmove.invariant hinv.timers
    cases hmove with
    | waitForTask hempty => exact hinv.moved htimers
    | waitUntil task hget hearly => exact hinv.moved htimers
    | skipped task hget hinactive => exact hinv.moved htimers
    | spawned task hget hleast hdue hactive => exact (hother task rfl).elim

theorem RefinementInvariant.finishStep {state next : State Callback}
    (hinv : RefinementInvariant state) {index : ℕ}
    (hstep : DualModeTimer.finishStep state index = some next) :
    RefinementInvariant next := by
  unfold DualModeTimer.finishStep at hstep
  split at hstep
  next task hget =>
    cases hstep
    have hholders : ∀ promise,
        ({ state with
          timers := state.timers.settle task.promise
          callbackThreads := state.callbackThreads.set index
            ⟨task, if state.timers.satisfied task.promise then .terminated
              else .finished⟩ } : State Callback).holders promise =
          state.holders promise := by
      intro promise
      have hthreads := ListUpdate.count_filterMap_set CallbackThread.promise hget
        ⟨task, if state.timers.satisfied task.promise then .terminated else .finished⟩
        promise
      have hdone : CallbackThread.promise
          (⟨task, if state.timers.satisfied task.promise then .terminated
            else .finished⟩ : CallbackThread Callback) = none := by
        cases state.timers.satisfied task.promise <;> rfl
      have hrunning :
          CallbackThread.promise (⟨task, .running⟩ : CallbackThread Callback) =
            task.promise := rfl
      rw [hdone, hrunning, Option.toList_none, List.count_nil] at hthreads
      simp only [State.holders, State.threadPromises, Timers.settle, List.count_append]
      simp only [Timers.activePromises]
      omega
    refine ⟨⟨hinv.timers.active, hinv.timers.known, hinv.timers.distinct,
      hinv.timers.counted⟩, hinv.numbered, hinv.ids, hinv.lawful, hinv.pending, ?_, ?_⟩
    · intro promise
      rw [hholders]
      exact hinv.promises promise
    · intro promise hpromise
      rw [hholders]
      exact hinv.given promise hpromise
  all_goals cases hstep

theorem RefinementInvariant.settledOnce {state : State Callback}
    (hinv : RefinementInvariant state) : state.timers.settlements.Nodup := by
  rw [List.nodup_iff_count_le_one]
  intro promise
  have hcount := hinv.promises promise
  simp only [State.holders] at hcount
  omega

end CppProj.DualModeTimer
