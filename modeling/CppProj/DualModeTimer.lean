import CppProj.AssociationList
import CppProj.ListUpdate
import Mathlib.Algebra.Ring.Int.Defs
import Mathlib.Algebra.Ring.Nat
import Mathlib.Data.List.Nodup

/-!
# The timers of `DualModeTimer`

The data of `dualtimer.cc` that `tasks_mutex_` protects, and the code that runs
under it: the two additions, the two cancellations and one iteration of
`managerThread`.  The heap `tasks_` is a list; which of the entries with the
least wake time is its top is left open.  A cancelled timer leaves
`active_tasks_` and stays in the heap until it is due.

Durations are in milliseconds and times in nanoseconds, both unbounded.
-/

universe u

namespace CppProj.DualModeTimer

inductive TimerMode where
  | blocking
  | nonBlocking
  deriving DecidableEq

/-- A promise is named by a number. -/
structure TimerTask (Callback : Type u) where
  id : Int32
  mode : TimerMode
  duration : ℤ
  callback : Callback
  startTime : ℤ
  completed : Bool
  promise : Option ℕ
  deriving DecidableEq

variable {Callback : Type u}

def TimerTask.wakeTime (task : TimerTask Callback) : ℤ :=
  task.startTime + task.duration * 1000000

/-- `settlements` records every `set_value` and `set_exception` of the timer
code; on a promise that it names already the next one throws. -/
structure Timers (Callback : Type u) where
  tasks : List (TimerTask Callback)
  activeTasks : AList (fun _ : Int32 => TimerTask Callback)
  nextId : Int32
  settlements : List ℕ

namespace Timers

def initial : Timers Callback where
  tasks := []
  activeTasks := ∅
  nextId := 0
  settlements := []

/-- The common body of the two additions; the new id is their result. -/
def addTask (timers : Timers Callback) (duration : ℤ) (promise : Option ℕ)
    (callback : Callback) (now : ℤ) : Timers Callback :=
  let id := timers.nextId + 1
  let task : TimerTask Callback :=
    ⟨id, .nonBlocking, duration, callback, now, false, promise⟩
  { timers with
    tasks := task :: timers.tasks
    activeTasks := timers.activeTasks.insert id task
    nextId := id }

def addNonBlockingTimer (timers : Timers Callback) (duration : ℤ) (callback : Callback)
    (now : ℤ) : Timers Callback :=
  timers.addTask duration none callback now

def addNonBlockingTimerWithPromise (timers : Timers Callback) (duration : ℤ)
    (promise : ℕ) (callback : Callback) (now : ℤ) : Timers Callback :=
  timers.addTask duration (some promise) callback now

/-- The promise is satisfied already, so that satisfying it again throws
`std::future_error`. -/
def satisfied (timers : Timers Callback) (promise : Option ℕ) : Bool :=
  promise.any fun name => decide (name ∈ timers.settlements)

def settle (timers : Timers Callback) (promise : Option ℕ) : Timers Callback :=
  { timers with settlements := timers.settlements ++ promise.toList }

/-- What `cancelTimer` comes to; the exception of `set_value` leaves the entry
in place, marked. -/
inductive CancelResult where
  | returned (answer : Bool)
  | threw
  deriving DecidableEq

def cancelTimer (timers : Timers Callback) (timerId : Int32) :
    CancelResult × Timers Callback :=
  match timers.activeTasks.lookup timerId with
  | none => (.returned false, timers)
  | some task =>
      let settled := timers.settle task.promise
      if timers.satisfied task.promise then
        (.threw,
          { settled with
            activeTasks :=
              timers.activeTasks.insert timerId { task with completed := true } })
      else
        (.returned true, { settled with activeTasks := timers.activeTasks.erase timerId })

/-- The promises of the active timers, in the order of the map. -/
def activePromises (timers : Timers Callback) : List ℕ :=
  timers.activeTasks.entries.filterMap fun entry => entry.2.promise

/-- An exception of `set_value` is ignored here. -/
def cancelAllTimers (timers : Timers Callback) : Timers Callback :=
  { timers with
    tasks := []
    activeTasks := ∅
    settlements := timers.settlements ++ timers.activePromises }

/-- What one iteration of `managerThread` does under the mutex. -/
inductive Iteration (Callback : Type u) where
  | waitForTask
  | waitUntil (wakeTime : ℤ)
  | skipped
  | spawned (task : TimerTask Callback)

def isTop (timers : Timers Callback) (task : TimerTask Callback) : Bool :=
  timers.tasks.all fun other => decide (task.wakeTime ≤ other.wakeTime)

/-- One iteration of `managerThread` that reads the clock as `now`; `top` is
the position of the heap's top. -/
def managerIteration (timers : Timers Callback) (now : ℤ) (top : ℕ) :
    Option (Iteration Callback × Timers Callback) :=
  if timers.tasks.isEmpty then some (.waitForTask, timers)
  else
    match timers.tasks[top]? with
    | none => none
    | some nextTask =>
        if !timers.isTop nextTask then none
        else if nextTask.wakeTime ≤ now then
          let popped := { timers with tasks := timers.tasks.eraseIdx top }
          match timers.activeTasks.lookup nextTask.id with
          | none => some (.skipped, popped)
          | some task =>
              if task.completed then some (.skipped, popped)
              else
                let erased :=
                  { popped with activeTasks := timers.activeTasks.erase nextTask.id }
                match task.mode with
                | .nonBlocking => some (.spawned task, erased)
                | .blocking => some (.skipped, erased)
        else some (.waitUntil nextTask.wakeTime, timers)

end Timers

/-! ## The heap and the map -/

/-- Every active timer has its copy in the heap, no two entries of the heap
share an id, and ids are numbers that were given. -/
structure TimersInvariant (timers : Timers Callback) : Prop where
  active : ∀ id task, timers.activeTasks.lookup id = some task →
    task.id = id ∧ task.completed = false ∧ task.mode = .nonBlocking ∧
      task ∈ timers.tasks
  known : ∀ task ∈ timers.tasks, task.id.toInt ≤ timers.nextId.toInt
  distinct : (timers.tasks.map TimerTask.id).Nodup
  counted : 0 ≤ timers.nextId.toInt

theorem toInt_add_one {number : Int32} (hcounted : 0 ≤ number.toInt)
    (hroom : number.toInt < 2 ^ 31 - 1) : (number + 1).toInt = number.toInt + 1 := by
  rw [Int32.toInt_add, Int32.toInt_one, Int.bmod_eq_of_le] <;> omega

namespace TimersInvariant

variable {timers : Timers Callback}

theorem initial : TimersInvariant (Timers.initial : Timers Callback) := by
  constructor <;> simp [Timers.initial]

theorem known_of_active (hinv : TimersInvariant timers) {id : Int32}
    {task : TimerTask Callback} (hlookup : timers.activeTasks.lookup id = some task) :
    id.toInt ≤ timers.nextId.toInt := by
  obtain ⟨rfl, _, _, hmem⟩ := hinv.active id task hlookup
  exact hinv.known task hmem

theorem eq_of_active (hinv : TimersInvariant timers) {copy task : TimerTask Callback}
    (hmem : copy ∈ timers.tasks) (hlookup : timers.activeTasks.lookup copy.id = some task) :
    task = copy := by
  obtain ⟨hid, _, _, htask⟩ := hinv.active copy.id task hlookup
  exact List.inj_on_of_nodup_map hinv.distinct htask hmem hid

theorem addTask (hinv : TimersInvariant timers) {duration now : ℤ} {promise : Option ℕ}
    {callback : Callback} (hroom : timers.nextId.toInt < 2 ^ 31 - 1) :
    TimersInvariant (timers.addTask duration promise callback now) := by
  have hnext := toInt_add_one hinv.counted hroom
  constructor
  case active =>
    intro id task hlookup
    simp only [Timers.addTask] at hlookup ⊢
    by_cases heq : id = timers.nextId + 1
    · subst heq
      rw [AList.lookup_insert] at hlookup
      cases hlookup
      exact ⟨rfl, rfl, rfl, List.mem_cons_self⟩
    · rw [AList.lookup_insert_ne heq] at hlookup
      obtain ⟨hid, hcompleted, hmode, hmem⟩ := hinv.active id task hlookup
      exact ⟨hid, hcompleted, hmode, List.mem_cons_of_mem _ hmem⟩
  case known =>
    intro task hmem
    simp only [Timers.addTask, hnext]
    rcases List.mem_cons.mp hmem with rfl | hmem
    · exact Int.le_of_eq hnext
    · have hknown := hinv.known task hmem
      omega
  case distinct =>
    simp only [Timers.addTask, List.map_cons, List.nodup_cons]
    refine ⟨?_, hinv.distinct⟩
    intro hmem
    obtain ⟨task, htask, hid⟩ := List.mem_map.mp hmem
    have hknown := hinv.known task htask
    rw [hid, hnext] at hknown
    omega
  case counted =>
    simp only [Timers.addTask, hnext]
    have hcounted := hinv.counted
    omega

theorem erase (hinv : TimersInvariant timers) (id : Int32) (settlements : List ℕ) :
    TimersInvariant
      { timers with
        activeTasks := timers.activeTasks.erase id
        settlements := settlements } := by
  refine ⟨?_, hinv.known, hinv.distinct, hinv.counted⟩
  intro other task hlookup
  exact hinv.active other task (AList.lookup_erase_eq_some_iff.mp hlookup).2

theorem cancelAllTimers (hinv : TimersInvariant timers) :
    TimersInvariant timers.cancelAllTimers := by
  constructor
  case active =>
    intro id task hlookup
    cases hlookup
  case known => simp [Timers.cancelAllTimers]
  case distinct => simp [Timers.cancelAllTimers]
  case counted => exact hinv.counted

theorem eraseIdx (hinv : TimersInvariant timers) {top : ℕ} {copy : TimerTask Callback}
    (hget : timers.tasks[top]? = some copy)
    (hinactive : timers.activeTasks.lookup copy.id = none) :
    TimersInvariant { timers with tasks := timers.tasks.eraseIdx top } := by
  constructor
  case active =>
    intro id task hlookup
    obtain ⟨hid, hcompleted, hmode, hmem⟩ := hinv.active id task hlookup
    refine ⟨hid, hcompleted, hmode, ?_⟩
    rcases ListUpdate.eq_or_mem_eraseIdx hget hmem with rfl | hkept
    · rw [hid, hlookup] at hinactive
      cases hinactive
    · exact hkept
  case known =>
    intro task hmem
    exact hinv.known task (List.mem_of_mem_eraseIdx hmem)
  case distinct => exact ((List.eraseIdx_sublist _ _).map TimerTask.id).nodup hinv.distinct
  case counted => exact hinv.counted

end TimersInvariant

/-! ## What an iteration of the manager does -/

namespace Timers

/-- An iteration on timers that keep the invariant. -/
inductive IterationMove (timers : Timers Callback) (now : ℤ) (top : ℕ) :
    Iteration Callback → Timers Callback → Prop where
  | waitForTask (hempty : timers.tasks = []) :
      IterationMove timers now top .waitForTask timers
  | waitUntil (task : TimerTask Callback) (hget : timers.tasks[top]? = some task)
      (hearly : now < task.wakeTime) :
      IterationMove timers now top (.waitUntil task.wakeTime) timers
  | skipped (task : TimerTask Callback) (hget : timers.tasks[top]? = some task)
      (hinactive : timers.activeTasks.lookup task.id = none) :
      IterationMove timers now top .skipped
        { timers with tasks := timers.tasks.eraseIdx top }
  | spawned (task : TimerTask Callback) (hget : timers.tasks[top]? = some task)
      (hleast : ∀ other ∈ timers.tasks, task.wakeTime ≤ other.wakeTime)
      (hdue : task.wakeTime ≤ now)
      (hactive : timers.activeTasks.lookup task.id = some task) :
      IterationMove timers now top (.spawned task)
        { timers with
          tasks := timers.tasks.eraseIdx top
          activeTasks := timers.activeTasks.erase task.id }

theorem iterationMove_of_managerIteration {timers next : Timers Callback} {now : ℤ}
    {top : ℕ} {iteration : Iteration Callback} (hinv : TimersInvariant timers)
    (hiteration : timers.managerIteration now top = some (iteration, next)) :
    IterationMove timers now top iteration next := by
  unfold managerIteration at hiteration
  split_ifs at hiteration with hempty
  · cases hiteration
    exact .waitForTask (List.isEmpty_iff.mp hempty)
  · split at hiteration
    next => cases hiteration
    next copy hget =>
      simp only [isTop, Bool.not_eq_true', List.all_eq_false, decide_eq_true_eq] at hiteration
      split_ifs at hiteration with htop hdue
      · split at hiteration
        next hinactive =>
          cases hiteration
          exact .skipped copy hget hinactive
        next task hlookup =>
          have htask := hinv.eq_of_active (List.mem_of_getElem? hget) hlookup
          subst htask
          obtain ⟨_, hcompleted, hmode, _⟩ := hinv.active task.id task hlookup
          simp only [hcompleted, hmode, Bool.false_eq_true, if_false] at hiteration
          cases hiteration
          refine .spawned task hget ?_ hdue hlookup
          intro other hmem
          by_contra hearlier
          exact htop ⟨other, hmem, hearlier⟩
      · cases hiteration
        exact .waitUntil copy hget (by omega)

theorem IterationMove.invariant {timers next : Timers Callback} {now : ℤ} {top : ℕ}
    {iteration : Iteration Callback} (hinv : TimersInvariant timers)
    (hmove : IterationMove timers now top iteration next) : TimersInvariant next := by
  cases hmove with
  | waitForTask hempty => exact hinv
  | waitUntil task hget hearly => exact hinv
  | skipped task hget hinactive => exact hinv.eraseIdx hget hinactive
  | spawned task hget hleast hdue hactive =>
      exact (hinv.erase task.id timers.settlements).eraseIdx hget (AList.lookup_erase _ _)

end Timers

end CppProj.DualModeTimer
