import CppProj.ListUpdate
import CppProj.PendingTimers
import CppProj.TransitionSystem
import Mathlib.Data.Int.Order.Basic
import Mathlib.Data.List.AList
import Mathlib.Data.List.MinMax

/-!
# Cancelling in `twomodestimer.cpp`

`addNonBlockingTimer`, `cancelTimer` and an iteration of the manager, each of
which runs under `tasks_mutex_`.  A cancelled timer stays in the heap until it
is due, and is then dropped without a call.  Seen from outside the class is a
set of pending timers, and a manager that finds all of them due starts each of
them, in the order of their deadlines.
-/

universe u

namespace CppProj.TwoModesTimerCancellation

open PendingTimers

variable {Callback : Type u}

/-- All timers are `NON_BLOCKING`. -/
structure TimerTask (Callback : Type u) where
  id : Int32
  duration : ℤ
  callback : Callback
  startTime : ℤ
  completed : Bool
  deriving DecidableEq

/-- The clock counts nanoseconds, and a duration milliseconds. -/
def TimerTask.wakeTime (task : TimerTask Callback) : ℤ :=
  task.startTime + task.duration * 1000000

/-- `now` is the last reading of the clock, and `callbacks` are the functions
that got a thread. -/
structure State (Callback : Type u) where
  tasks : List (TimerTask Callback)
  activeTasks : AList fun _ : Int32 => TimerTask Callback
  nextId : Int32
  now : ℤ
  callbacks : List Callback
  history : List (Event Int32 ℤ)

inductive Action (Callback : Type u) where
  | addNonBlockingTimer (duration : ℤ) (callback : Callback) (now : ℤ)
  | cancelTimer (timerId : Int32)
  | manager (now : ℤ) (top : ℕ)

def initial (start : ℤ) : State Callback where
  tasks := []
  activeTasks := ∅
  nextId := 0
  now := start
  callbacks := []
  history := []

/-- The behaviour of the program ends where `next_id_` overflows. -/
def addNonBlockingTimer (state : State Callback) (duration : ℤ) (callback : Callback)
    (now : ℤ) : Option (State Callback) :=
  if state.now ≤ now ∧ state.nextId.toInt < 2147483647 then
    let task : TimerTask Callback := ⟨state.nextId, duration, callback, now, false⟩
    some
      { state with
        tasks := state.tasks ++ [task]
        activeTasks := state.activeTasks.insert state.nextId task
        nextId := state.nextId + 1
        now := now
        history := state.history ++ [.added state.nextId (now + duration * 1000000)] }
  else none

def cancelTimer (state : State Callback) (timerId : Int32) : State Callback :=
  match state.activeTasks.lookup timerId with
  | some task =>
      { state with
        activeTasks :=
          (state.activeTasks.insert timerId { task with completed := true }).erase timerId
        history := state.history ++ [.cancelled timerId true] }
  | none => { state with history := state.history ++ [.cancelled timerId false] }

/-- The top of the heap is due.  Where the timer is still active, its callback
gets a thread. -/
def pop (state : State Callback) (now : ℤ) (top : ℕ) (nextTask : TimerTask Callback) :
    State Callback :=
  let popped := { state with tasks := state.tasks.eraseIdx top, now := now }
  match state.activeTasks.lookup nextTask.id with
  | some task =>
      if task.completed = false then
        { popped with
          activeTasks := state.activeTasks.erase nextTask.id
          callbacks := state.callbacks ++ [nextTask.callback]
          history := state.history ++ [.started nextTask.id now] }
      else popped
  | none => popped

/-- An iteration of `managerThread`, which waits where no timer is due. -/
def managerStep (state : State Callback) (now : ℤ) (top : ℕ) : Option (State Callback) :=
  if state.tasks.isEmpty then some state
  else
    match state.tasks[top]? with
    | some nextTask =>
        if state.now ≤ now ∧ ∀ other ∈ state.tasks, nextTask.wakeTime ≤ other.wakeTime then
          some (if nextTask.wakeTime ≤ now then pop state now top nextTask
            else { state with now := now })
        else none
    | none => none

def step (state : State Callback) : Action Callback → Option (State Callback)
  | .addNonBlockingTimer duration callback now =>
      addNonBlockingTimer state duration callback now
  | .cancelTimer timerId => some (cancelTimer state timerId)
  | .manager now top => managerStep state now top

def system (start : ℤ) : TransitionSystem (State Callback) (Action Callback) :=
  ⟨initial start, step⟩

/-! ## The invariant -/

/-- `completed` is never found set: only `cancelTimer` sets it, on a task that
it erases. -/
structure Invariant (state : State Callback) : Prop where
  counted : 0 ≤ state.nextId.toInt
  ids : ∀ id ∈ addedIds state.history, id.toInt < state.nextId.toInt
  lawful : Lawful state.history
  pending : ∀ id, pendingAfter state.history id =
    (state.activeTasks.lookup id).map TimerTask.wakeTime
  held : ∀ id task, state.activeTasks.lookup id = some task →
    task ∈ state.tasks ∧ task.id = id ∧ task.completed = false
  known : ∀ task ∈ state.tasks, task.id ∈ addedIds state.history
  distinct : (state.tasks.map TimerTask.id).Nodup

theorem Invariant.initial (start : ℤ) : Invariant (initial start : State Callback) where
  counted := Int.le_refl 0
  ids := fun _ hmem => absurd hmem List.not_mem_nil
  lawful := .nil
  pending := fun id => by
    rw [TwoModesTimerCancellation.initial, AList.lookup_empty]
    rfl
  held := fun id task hlookup => by
    rw [TwoModesTimerCancellation.initial, AList.lookup_empty] at hlookup
    contradiction
  known := fun _ hmem => absurd hmem List.not_mem_nil
  distinct := List.nodup_nil

theorem toInt_add_one {number : Int32} (hcounted : 0 ≤ number.toInt)
    (hroom : number.toInt < 2147483647) : (number + 1).toInt = number.toInt + 1 := by
  rw [Int32.toInt_add, Int32.toInt_one, Int.bmod_eq_of_le] <;> omega

theorem Invariant.added {state next : State Callback} {duration now : ℤ} {callback : Callback}
    (hinv : Invariant state)
    (hadded : addNonBlockingTimer state duration callback now = some next) : Invariant next := by
  dsimp only [addNonBlockingTimer] at hadded
  split_ifs at hadded with hroom
  cases hadded
  have hnext := toInt_add_one hinv.counted hroom.2
  have hnew : state.nextId ∉ addedIds state.history :=
    fun hmem => Int.lt_irrefl _ (hinv.ids _ hmem)
  constructor
  case counted =>
    change 0 ≤ (state.nextId + 1).toInt
    have hcounted := hinv.counted
    omega
  case ids =>
    intro id hmem
    change id.toInt < (state.nextId + 1).toInt
    rw [addedIds_append] at hmem
    rcases List.mem_append.mp hmem with hold | hself
    · have hid := hinv.ids id hold
      omega
    · rw [List.mem_singleton.mp hself]
      omega
  case lawful => exact .snoc hinv.lawful hnew
  case pending =>
    intro id
    rw [pendingAfter_append_singleton, Event.apply]
    by_cases hid : id = state.nextId
    · rw [hid, Function.update_self, AList.lookup_insert]
      rfl
    · rw [Function.update_of_ne hid, AList.lookup_insert_ne hid]
      exact hinv.pending id
  case held =>
    intro id task hlookup
    by_cases hid : id = state.nextId
    · rw [hid, AList.lookup_insert] at hlookup
      cases hlookup
      exact ⟨List.mem_append_right _ (List.mem_singleton_self _), hid.symm, rfl⟩
    · rw [AList.lookup_insert_ne hid] at hlookup
      obtain ⟨hmem, hheld⟩ := hinv.held id task hlookup
      exact ⟨List.mem_append_left _ hmem, hheld⟩
  case known =>
    intro task hmem
    rw [addedIds_append]
    rcases List.mem_append.mp hmem with hold | hself
    · exact List.mem_append_left _ (hinv.known task hold)
    · rw [List.mem_singleton.mp hself]
      exact List.mem_append_right _ (List.mem_singleton_self _)
  case distinct =>
    rw [List.map_append]
    refine List.Nodup.append hinv.distinct (List.nodup_singleton _) ?_
    rw [List.map_singleton, List.disjoint_singleton]
    intro hmem
    obtain ⟨task, htask, hid⟩ := List.mem_map.mp hmem
    have hknown := hinv.known task htask
    rw [hid] at hknown
    exact hnew hknown

/-- A step that adds no timer, and of the heap keeps some of the entries. -/
theorem Invariant.logged {state next : State Callback} {event : Event Int32 ℤ}
    (hinv : Invariant state) (hhistory : next.history = state.history ++ [event])
    (hevent : event.addedId = none) (hlegal : Legal state.history event)
    (hnextId : next.nextId = state.nextId) (htasks : next.tasks.Sublist state.tasks)
    (hpending : ∀ id, event.apply (pendingAfter state.history) id =
      (next.activeTasks.lookup id).map TimerTask.wakeTime)
    (hheld : ∀ id task, next.activeTasks.lookup id = some task →
      state.activeTasks.lookup id = some task ∧ task ∈ next.tasks) : Invariant next := by
  have hids : addedIds next.history = addedIds state.history := by
    rw [hhistory, addedIds_append, addedIds, addedIds, List.filterMap_cons_none hevent]
    exact List.append_nil _
  constructor
  case counted =>
    rw [hnextId]
    exact hinv.counted
  case ids =>
    rw [hnextId, hids]
    exact hinv.ids
  case lawful =>
    rw [hhistory]
    exact .snoc hinv.lawful hlegal
  case pending =>
    rw [hhistory, pendingAfter_append_singleton]
    exact hpending
  case held =>
    intro id task hlookup
    obtain ⟨hbefore, hmem⟩ := hheld id task hlookup
    exact ⟨hmem, (hinv.held id task hbefore).2⟩
  case known =>
    intro task hmem
    rw [hids]
    exact hinv.known task (htasks.subset hmem)
  case distinct => exact hinv.distinct.sublist (htasks.map _)

theorem Invariant.cancelled {state : State Callback} (hinv : Invariant state)
    (timerId : Int32) : Invariant (cancelTimer state timerId) := by
  have hpending := hinv.pending timerId
  unfold cancelTimer
  cases hlookup : state.activeTasks.lookup timerId with
  | none =>
      rw [hlookup] at hpending
      refine hinv.logged rfl rfl ?_ rfl (List.Sublist.refl _) ?_ ?_
      · exact iff_of_false Bool.false_ne_true fun hsome => hsome hpending
      · intro id
        rw [Event.apply, Function.update_apply]
        split_ifs with hid
        · rw [hid, hlookup]
          rfl
        · exact hinv.pending id
      · exact fun id task hother => ⟨hother, (hinv.held id task hother).1⟩
  | some found =>
      rw [hlookup] at hpending
      refine hinv.logged rfl rfl ?_ rfl (List.Sublist.refl _) ?_ ?_
      · refine iff_of_true rfl ?_
        rw [hpending]
        exact Option.some_ne_none _
      · intro id
        rw [Event.apply, Function.update_apply]
        split_ifs with hid
        · rw [hid, AList.lookup_erase]
          rfl
        · rw [AList.lookup_erase_ne hid, AList.lookup_insert_ne hid]
          exact hinv.pending id
      · intro id task hother
        by_cases hid : id = timerId
        · rw [hid, AList.lookup_erase] at hother
          contradiction
        · rw [AList.lookup_erase_ne hid, AList.lookup_insert_ne hid] at hother
          exact ⟨hother, (hinv.held id task hother).1⟩

/-- An entry of the heap that no longer is active, or that belongs to another
timer, takes nothing with it. -/
theorem Invariant.mem_eraseIdx {state : State Callback} (hinv : Invariant state) {top : ℕ}
    {nextTask task : TimerTask Callback} (htop : state.tasks[top]? = some nextTask) {id : Int32}
    (hlookup : state.activeTasks.lookup id = some task) (hne : id ≠ nextTask.id) :
    task ∈ state.tasks.eraseIdx top := by
  obtain ⟨hmem, hid, -⟩ := hinv.held id task hlookup
  refine (ListUpdate.eq_or_mem_eraseIdx htop hmem).resolve_left ?_
  rintro rfl
  exact hne hid.symm

/-- The least entry of the heap, if active, is the least pending timer. -/
theorem Invariant.mayStart {state : State Callback} (hinv : Invariant state) {now : ℤ}
    {nextTask task : TimerTask Callback} (hmem : nextTask ∈ state.tasks)
    (hleast : ∀ other ∈ state.tasks, nextTask.wakeTime ≤ other.wakeTime)
    (hdue : nextTask.wakeTime ≤ now)
    (hlookup : state.activeTasks.lookup nextTask.id = some task) :
    MayStart (pendingAfter state.history) nextTask.id now := by
  obtain ⟨htask, hid, -⟩ := hinv.held _ _ hlookup
  have hsame : task = nextTask :=
    List.inj_on_of_nodup_map hinv.distinct htask hmem hid
  refine ⟨nextTask.wakeTime, ?_, hdue, ?_⟩
  · rw [hinv.pending, hlookup, hsame]
    rfl
  · intro other deadline hpending
    rw [hinv.pending] at hpending
    obtain ⟨otherTask, hother, rfl⟩ := Option.map_eq_some_iff.mp hpending
    exact hleast otherTask (hinv.held _ _ hother).1

/-- An active timer on top is started, and any other entry is dropped. -/
theorem Invariant.pop_eq {state : State Callback} (hinv : Invariant state) (now : ℤ) (top : ℕ)
    (nextTask : TimerTask Callback) :
    pop state now top nextTask =
      if nextTask.id ∈ state.activeTasks then
        { state with
          tasks := state.tasks.eraseIdx top
          now := now
          activeTasks := state.activeTasks.erase nextTask.id
          callbacks := state.callbacks ++ [nextTask.callback]
          history := state.history ++ [.started nextTask.id now] }
      else { state with tasks := state.tasks.eraseIdx top, now := now } := by
  unfold pop
  cases hlookup : state.activeTasks.lookup nextTask.id with
  | none => rw [if_neg (AList.lookup_eq_none.mp hlookup)]
  | some task =>
      have hactive : nextTask.id ∈ state.activeTasks :=
        AList.lookup_isSome.mp (by rw [hlookup]; rfl)
      rw [if_pos hactive]
      exact if_pos (hinv.held _ _ hlookup).2.2

theorem Invariant.popped {state : State Callback} (hinv : Invariant state) {now : ℤ} {top : ℕ}
    {nextTask : TimerTask Callback} (htop : state.tasks[top]? = some nextTask)
    (hleast : ∀ other ∈ state.tasks, nextTask.wakeTime ≤ other.wakeTime)
    (hdue : nextTask.wakeTime ≤ now) : Invariant (pop state now top nextTask) := by
  have hsublist := List.eraseIdx_sublist state.tasks top
  rw [hinv.pop_eq]
  split_ifs with hactive
  · obtain ⟨found, hfound⟩ := Option.isSome_iff_exists.mp (AList.lookup_isSome.mpr hactive)
    have hstart := hinv.mayStart (List.mem_of_getElem? htop) hleast hdue hfound
    refine hinv.logged rfl rfl hstart rfl hsublist ?_ ?_
    · intro id
      rw [Event.apply, Function.update_apply]
      split_ifs with hid
      · rw [hid, AList.lookup_erase]
        rfl
      · rw [AList.lookup_erase_ne hid]
        exact hinv.pending id
    · intro id task hother
      by_cases hid : id = nextTask.id
      · rw [hid, AList.lookup_erase] at hother
        contradiction
      · rw [AList.lookup_erase_ne hid] at hother
        exact ⟨hother, hinv.mem_eraseIdx htop hother hid⟩
  · constructor
    case held =>
      intro id task hlookup
      refine ⟨hinv.mem_eraseIdx htop hlookup ?_, (hinv.held id task hlookup).2⟩
      rintro rfl
      exact hactive (AList.lookup_isSome.mp (by rw [hlookup]; rfl))
    case known => exact fun task hmem => hinv.known task (hsublist.subset hmem)
    case distinct => exact hinv.distinct.sublist (hsublist.map _)
    case counted => exact hinv.counted
    case ids => exact hinv.ids
    case lawful => exact hinv.lawful
    case pending => exact hinv.pending

/-- The entry that an iteration finds on top. -/
theorem managerStep_eq_some {state next : State Callback} {now : ℤ} {top : ℕ}
    (hmanager : managerStep state now top = some next) :
    state.tasks = [] ∧ next = state ∨
      ∃ nextTask, state.tasks[top]? = some nextTask ∧ state.now ≤ now ∧
        (∀ other ∈ state.tasks, nextTask.wakeTime ≤ other.wakeTime) ∧
        next = if nextTask.wakeTime ≤ now then pop state now top nextTask
          else { state with now := now } := by
  rw [managerStep] at hmanager
  split_ifs at hmanager with hempty
  · cases hmanager
    exact Or.inl ⟨List.isEmpty_iff.mp hempty, rfl⟩
  · split at hmanager
    case h_2 => contradiction
    case h_1 nextTask htop =>
      split_ifs at hmanager with hleast
      all_goals
        cases hmanager
        exact Or.inr ⟨nextTask, htop, hleast.1, hleast.2, by split_ifs; rfl⟩

theorem Invariant.step {state next : State Callback} {action : Action Callback}
    (hinv : Invariant state) (hstep : step state action = some next) : Invariant next := by
  cases action with
  | addNonBlockingTimer duration callback now => exact hinv.added hstep
  | cancelTimer timerId =>
      cases hstep
      exact hinv.cancelled timerId
  | manager now top =>
      rcases managerStep_eq_some hstep with ⟨-, rfl⟩ | ⟨nextTask, htop, -, hleast, rfl⟩
      · exact hinv
      · split_ifs with hdue
        · exact hinv.popped htop hleast hdue
        · exact ⟨hinv.counted, hinv.ids, hinv.lawful, hinv.pending, hinv.held, hinv.known,
            hinv.distinct⟩

theorem invariant_of_run {start : ℤ} {state : State Callback} {actions : List (Action Callback)}
    (hrun : (system start).run (initial start) actions = some state) : Invariant state :=
  (system start).run_preserves Invariant (fun _ _ _ hinv hstep => hinv.step hstep)
    (Invariant.initial start) hrun

/-- The active timers are the pending ones of a lawful history: an id is given
once, a timer that was cancelled is never started, none is started twice or too
early, and the answer of a cancellation is right. -/
theorem lawful_of_run {start : ℤ} {state : State Callback} {actions : List (Action Callback)}
    (hrun : (system start).run (initial start) actions = some state) :
    Lawful state.history ∧
      ∀ id, pendingAfter state.history id =
        (state.activeTasks.lookup id).map TimerTask.wakeTime :=
  ⟨(invariant_of_run hrun).lawful, (invariant_of_run hrun).pending⟩

/-- Two timers, and the first is cancelled. -/
def cancelledFirst : List (Action ℕ) :=
  [.addNonBlockingTimer 1 7 0, .addNonBlockingTimer 0 8 5000000, .cancelTimer 0]

theorem lawful_of_run_cancelledFirst :
    ∃ state, (system 0).run (initial 0) cancelledFirst = some state ∧
      Lawful state.history ∧
        ∀ id, pendingAfter state.history id =
          (state.activeTasks.lookup id).map TimerTask.wakeTime := by
  have hruns : ∃ state, (system 0).run (initial 0) cancelledFirst = some state := ⟨_, rfl⟩
  obtain ⟨state, hrun⟩ := hruns
  exact ⟨state, hrun, lawful_of_run hrun⟩

/-! ## All timers are due -/

/-- The entries of the heap whose timers are active. -/
def State.activeEntries (state : State Callback) : List (TimerTask Callback) :=
  state.tasks.filter fun task => task.id ∈ state.activeTasks

def State.AllDue (state : State Callback) : Prop :=
  ∀ task ∈ state.tasks, task.wakeTime ≤ state.now

/-- The entries that are left belong to other timers. -/
theorem Invariant.filter_erase {state : State Callback} (hinv : Invariant state) {top : ℕ}
    {nextTask : TimerTask Callback} (htop : state.tasks[top]? = some nextTask) :
    (state.tasks.eraseIdx top).filter
        (fun task => task.id ∈ state.activeTasks.erase nextTask.id) =
      (state.tasks.eraseIdx top).filter fun task => task.id ∈ state.activeTasks := by
  refine List.filter_congr fun task hmem => ?_
  have hother := ListUpdate.ne_of_mem_eraseIdx hinv.distinct htop hmem
  exact decide_eq_decide.mpr (AList.mem_erase.trans (and_iff_right hother))

theorem activeEntries_perm {state : State Callback} {top : ℕ} {nextTask : TimerTask Callback}
    (htop : state.tasks[top]? = some nextTask) :
    state.activeEntries.Perm
      ((if nextTask.id ∈ state.activeTasks then [nextTask] else []) ++
        (state.tasks.eraseIdx top).filter fun task => task.id ∈ state.activeTasks) := by
  obtain ⟨hlt, hget⟩ := List.getElem?_eq_some_iff.mp htop
  have hsplit := (List.getElem_cons_eraseIdx_perm hlt).symm.filter
    fun task => decide (task.id ∈ state.activeTasks)
  refine hsplit.trans (List.Perm.of_eq ?_)
  rw [List.filter_cons, hget]
  split_ifs with hactive hfound hfound
  · rfl
  · exact absurd (of_decide_eq_true hactive) hfound
  · exact absurd (decide_eq_true hfound) hactive
  · rfl

/-- What the manager has done since `state`: the timers `started` got a thread
each. -/
structure Drained (state final : State Callback) (started : List (TimerTask Callback)) :
    Prop where
  tasks : final.tasks = []
  perm : started.Perm state.activeEntries
  ordered : started.Pairwise fun earlier later => earlier.wakeTime ≤ later.wakeTime
  callbacks : final.callbacks = state.callbacks ++ started.map TimerTask.callback

/-- The iterations of a manager that reads the clock and finds a top so often. -/
def iterations (readings : List (ℤ × ℕ)) : List (Action Callback) :=
  readings.map fun reading => .manager reading.1 reading.2

theorem pop_of_manager {state next : State Callback} {now : ℤ} {top : ℕ}
    (hdue : state.AllDue) (hnonempty : state.tasks ≠ [])
    (hmanager : managerStep state now top = some next) :
    ∃ nextTask, state.tasks[top]? = some nextTask ∧ state.now ≤ now ∧
      (∀ other ∈ state.tasks, nextTask.wakeTime ≤ other.wakeTime) ∧
      next = pop state now top nextTask := by
  rcases managerStep_eq_some hmanager with ⟨hempty, -⟩ | ⟨nextTask, htop, hnow, hleast, rfl⟩
  · exact absurd hempty hnonempty
  · refine ⟨nextTask, htop, hnow, hleast, if_pos ?_⟩
    exact (hdue nextTask (List.mem_of_getElem? htop)).trans hnow

theorem Invariant.tasks_pop {state : State Callback} (hinv : Invariant state) (now : ℤ) (top : ℕ)
    (nextTask : TimerTask Callback) :
    (pop state now top nextTask).tasks = state.tasks.eraseIdx top ∧
      (pop state now top nextTask).now = now := by
  rw [hinv.pop_eq]
  split_ifs
  · exact ⟨rfl, rfl⟩
  · exact ⟨rfl, rfl⟩

theorem Invariant.allDue_pop {state : State Callback} (hinv : Invariant state) {now : ℤ}
    (hdue : state.AllDue) (hnow : state.now ≤ now) (top : ℕ) (nextTask : TimerTask Callback) :
    (pop state now top nextTask).AllDue := by
  obtain ⟨htasks, hclock⟩ := hinv.tasks_pop now top nextTask
  intro task hmem
  rw [htasks] at hmem
  rw [hclock]
  exact (hdue task (List.mem_of_mem_eraseIdx hmem)).trans hnow

/-- A pop before what is done after it. -/
theorem Drained.pop {state final : State Callback} {now : ℤ} {top : ℕ}
    {nextTask : TimerTask Callback} {started : List (TimerTask Callback)}
    (hinv : Invariant state) (htop : state.tasks[top]? = some nextTask)
    (hleast : ∀ other ∈ state.tasks, nextTask.wakeTime ≤ other.wakeTime)
    (hdrained : Drained (pop state now top nextTask) final started) :
    ∃ started, Drained state final started := by
  have hperm := activeEntries_perm htop
  obtain ⟨htasks, hrest, hordered, hcallbacks⟩ := hdrained
  rw [hinv.pop_eq] at hrest hcallbacks
  by_cases hactive : nextTask.id ∈ state.activeTasks
  · rw [if_pos hactive] at hrest hcallbacks hperm
    rw [State.activeEntries, hinv.filter_erase htop] at hrest
    refine ⟨nextTask :: started, htasks, (hrest.cons nextTask).trans hperm.symm, ?_, ?_⟩
    · refine List.pairwise_cons.mpr ⟨fun task hmem => ?_, hordered⟩
      have hmem := List.mem_of_mem_filter (hrest.subset hmem)
      exact hleast task (List.mem_of_mem_eraseIdx hmem)
    · rw [hcallbacks, List.append_assoc]
      rfl
  · rw [if_neg hactive] at hrest hcallbacks hperm
    exact ⟨started, htasks, hrest.trans hperm.symm, hordered, hcallbacks⟩

theorem Invariant.drained {start : ℤ} {state final : State Callback} {readings : List (ℤ × ℕ)}
    (hinv : Invariant state) (hdue : state.AllDue)
    (hlength : readings.length = state.tasks.length)
    (hrun : (system start).run state (iterations readings) = some final) :
    ∃ started, Drained state final started := by
  induction readings generalizing state with
  | nil =>
      cases hrun
      have hempty := List.length_eq_zero_iff.mp hlength.symm
      refine ⟨[], hempty, ?_, List.Pairwise.nil, (List.append_nil _).symm⟩
      rw [State.activeEntries, hempty]
      exact List.Perm.nil
  | cons reading readings ih =>
      obtain ⟨next, hstep, hrest⟩ := TransitionSystem.run_cons_eq_some.mp hrun
      have hnonempty : state.tasks ≠ [] := by
        rintro hempty
        rw [hempty] at hlength
        contradiction
      obtain ⟨nextTask, htop, hnow, hleast, rfl⟩ := pop_of_manager hdue hnonempty hstep
      have hlt := (List.getElem?_eq_some_iff.mp htop).1
      have hpopped := hinv.popped htop hleast
        ((hdue nextTask (List.mem_of_getElem? htop)).trans hnow)
      obtain ⟨started, hdrained⟩ := ih hpopped (hinv.allDue_pop hdue hnow _ _) (by
        rw [(hinv.tasks_pop _ _ _).1, List.length_eraseIdx_of_lt hlt, ← hlength]
        rfl) hrest
      exact hdrained.pop hinv htop hleast

/-- There is always a least entry, so that the manager goes on. -/
theorem Invariant.exists_drain {start : ℤ} {state : State Callback} (hinv : Invariant state)
    (hdue : state.AllDue) {count : ℕ} (hcount : state.tasks.length = count) :
    ∃ readings final, readings.length = count ∧
      (system start).run state (iterations readings) = some final := by
  induction count generalizing state with
  | zero => exact ⟨[], state, rfl, rfl⟩
  | succ count ih =>
      have hnonempty : state.tasks ≠ [] := by
        rintro hempty
        rw [hempty] at hcount
        contradiction
      obtain ⟨nextTask, hleast⟩ := Option.ne_none_iff_exists'.mp
        (mt List.argmin_eq_none.mp hnonempty : state.tasks.argmin TimerTask.wakeTime ≠ none)
      obtain ⟨top, htop⟩ := List.mem_iff_getElem?.mp (List.argmin_mem hleast)
      have hlt := (List.getElem?_eq_some_iff.mp htop).1
      have hmin : ∀ other ∈ state.tasks, nextTask.wakeTime ≤ other.wakeTime :=
        fun other hmem => List.le_of_mem_argmin hmem hleast
      have hready := hdue nextTask (List.mem_of_getElem? htop)
      obtain ⟨readings, final, hlength, hrun⟩ := ih (hinv.popped htop hmin hready)
        (hinv.allDue_pop hdue (Int.le_refl _) _ _) (by
          rw [(hinv.tasks_pop _ _ _).1, List.length_eraseIdx_of_lt hlt, hcount]
          rfl)
      refine ⟨(state.now, top) :: readings, final, congrArg Nat.succ hlength, ?_⟩
      refine TransitionSystem.run_cons_eq_some.mpr ⟨_, ?_, hrun⟩
      change managerStep state state.now top = _
      rw [managerStep, if_neg (mt List.isEmpty_iff.mp hnonempty), htop]
      exact (if_pos ⟨Int.le_refl _, hmin⟩).trans (congrArg some (if_pos hready))

theorem Invariant.nothing_pending {state : State Callback} (hinv : Invariant state)
    (htasks : state.tasks = []) (id : Int32) : pendingAfter state.history id = none := by
  rw [hinv.pending, Option.map_eq_none_iff]
  cases hlookup : state.activeTasks.lookup id with
  | none => rfl
  | some task =>
      have hmem := (hinv.held id task hlookup).1
      rw [htasks] at hmem
      exact absurd hmem List.not_mem_nil

/-- When all that is in the heap is due, as many iterations as it has entries are
possible, and however they go they empty it: every pending timer is started,
once and in the order of the deadlines, and no cancelled one. -/
theorem drained_of_run {start : ℤ} {state : State Callback} {actions : List (Action Callback)}
    (hrun : (system start).run (initial start) actions = some state) (hdue : state.AllDue) :
    (∃ readings final, readings.length = state.tasks.length ∧
      (system start).run state (iterations readings) = some final) ∧
    ∀ readings final, readings.length = state.tasks.length →
      (system start).run state (iterations readings) = some final →
        (∃ started, Drained state final started) ∧
          ∀ id, pendingAfter final.history id = none := by
  have hinv := invariant_of_run hrun
  refine ⟨hinv.exists_drain hdue rfl, fun readings final hlength hdrain => ?_⟩
  obtain ⟨started, hdrained⟩ := hinv.drained hdue hlength hdrain
  have hfinal := (system start).run_preserves Invariant
    (fun _ _ _ hinv hstep => hinv.step hstep) hinv hdrain
  exact ⟨⟨started, hdrained⟩, hfinal.nothing_pending hdrained.tasks⟩

theorem drained_of_run_cancelledFirst :
    ∃ state, (system 0).run (initial 0) cancelledFirst = some state ∧
      (∃ readings final, readings.length = state.tasks.length ∧
        (system 0).run state (iterations readings) = some final) ∧
      ∀ readings final, readings.length = state.tasks.length →
        (system 0).run state (iterations readings) = some final →
          (∃ started, Drained state final started) ∧
            ∀ id, pendingAfter final.history id = none := by
  have hruns : ∃ state, (system 0).run (initial 0) cancelledFirst = some state ∧
      state.AllDue := by
    refine ⟨_, rfl, ?_⟩
    unfold State.AllDue
    decide
  obtain ⟨state, hrun, hdue⟩ := hruns
  exact ⟨state, hrun, drained_of_run hrun hdue⟩

end CppProj.TwoModesTimerCancellation
