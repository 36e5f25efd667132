import Mathlib.Algebra.Ring.Int.Defs
import Mathlib.Algebra.Ring.Nat
import Mathlib.Data.List.Chain
import Mathlib.Data.List.Nodup
import Mathlib.Order.Lattice

/-!
# The two cyclic schedulers of `cycle_task.cpp` and `cycle_task_a.cpp`

Both go through their tasks in every iteration of a loop and run those that are
due at the clock reading of the iteration.  `SingleThreadScheduler` keeps the
time of the last run and compares a difference cut off to whole milliseconds;
`PeriodicScheduler` keeps the time of the next execution.  Times are
nanoseconds of the steady clock, periods are milliseconds of any sign.
-/

namespace CppProj.CyclicSchedulers

def ofMilliseconds (count : ℤ) : ℤ := count * 1000000

/-- `duration_cast<milliseconds>` cuts off toward zero. -/
def toMilliseconds (ticks : ℤ) : ℤ := ticks.tdiv 1000000

/-- The arguments of a call of `addTask`, with the time at which it is made. -/
structure Addition where
  periodMs : ℤ
  addedAt : ℤ
  deriving DecidableEq

namespace SingleThreadScheduler

/-- The function is the number of the `addTask` call. -/
structure PeriodicTask where
  func : ℕ
  period : ℤ
  lastRun : ℤ
  deriving DecidableEq

def addTask (tasks : List PeriodicTask) (addition : Addition) : List PeriodicTask :=
  tasks ++ [⟨tasks.length, addition.periodMs, addition.addedAt⟩]

def isDue (now : ℤ) (task : PeriodicTask) : Bool :=
  decide (task.period ≤ toMilliseconds (now - task.lastRun))

/-- The task after its turn in an iteration. -/
def visit (now : ℤ) (task : PeriodicTask) : PeriodicTask :=
  if isDue now task then { task with lastRun := now } else task

/-- The functions that the iterations run, one list for each clock reading. -/
def start : List PeriodicTask → List ℤ → List (List ℕ)
  | _, [] => []
  | tasks, now :: readings =>
      (tasks.filter (isDue now)).map PeriodicTask.func :: start (tasks.map (visit now)) readings

end SingleThreadScheduler

namespace PeriodicScheduler

structure Task where
  function : ℕ
  interval : ℤ
  nextExecution : ℤ
  deriving DecidableEq

def addTask (tasks : List Task) (addition : Addition) : List Task :=
  tasks ++ [⟨tasks.length, addition.periodMs,
    addition.addedAt + ofMilliseconds addition.periodMs⟩]

def isDue (now : ℤ) (task : Task) : Bool :=
  decide (task.nextExecution ≤ now)

def visit (now : ℤ) (task : Task) : Task :=
  if isDue now task then { task with nextExecution := now + ofMilliseconds task.interval }
  else task

def start : List Task → List ℤ → List (List ℕ)
  | _, [] => []
  | tasks, now :: readings =>
      (tasks.filter (isDue now)).map Task.function :: start (tasks.map (visit now)) readings

end PeriodicScheduler

open SingleThreadScheduler (PeriodicTask)
open PeriodicScheduler (Task)

/-! ## The simulation -/

/-- The task of the other scheduler with the same future. -/
def counterpart (task : PeriodicTask) : Task where
  function := task.func
  interval := task.period
  nextExecution := task.lastRun + ofMilliseconds task.period

/-- For a time that has passed, whole milliseconds lose nothing against a period of
whole milliseconds. -/
theorem le_toMilliseconds_iff {elapsed : ℤ} (helapsed : 0 ≤ elapsed) (period : ℤ) :
    period ≤ toMilliseconds elapsed ↔ ofMilliseconds period ≤ elapsed := by
  rw [toMilliseconds, ofMilliseconds, Int.tdiv_eq_ediv_of_nonneg helapsed]
  exact Int.le_ediv_iff_mul_le (by decide)

theorem isDue_iff {task : PeriodicTask} {now : ℤ} (hpast : task.lastRun ≤ now) :
    SingleThreadScheduler.isDue now task = true ↔
      task.lastRun + ofMilliseconds task.period ≤ now := by
  rw [SingleThreadScheduler.isDue, decide_eq_true_iff, le_toMilliseconds_iff (by omega)]
  omega

theorem isDue_counterpart {task : PeriodicTask} {now : ℤ} (hpast : task.lastRun ≤ now) :
    PeriodicScheduler.isDue now (counterpart task) = SingleThreadScheduler.isDue now task := by
  rw [Bool.eq_iff_iff, isDue_iff hpast, PeriodicScheduler.isDue, decide_eq_true_iff]
  rfl

theorem visit_counterpart {task : PeriodicTask} {now : ℤ} (hpast : task.lastRun ≤ now) :
    PeriodicScheduler.visit now (counterpart task) =
      counterpart (SingleThreadScheduler.visit now task) := by
  rw [PeriodicScheduler.visit, isDue_counterpart hpast, SingleThreadScheduler.visit]
  by_cases hdue : SingleThreadScheduler.isDue now task = true
  · rw [if_pos hdue, if_pos hdue]
    rfl
  · rw [if_neg hdue, if_neg hdue]

theorem visit_lastRun_le {task : PeriodicTask} {now : ℤ} (hpast : task.lastRun ≤ now) :
    (SingleThreadScheduler.visit now task).lastRun ≤ now := by
  rw [SingleThreadScheduler.visit]
  split_ifs
  · exact le_refl now
  · exact hpast

/-- No reading lies before a run or an earlier reading. -/
def InPast (tasks : List PeriodicTask) (readings : List ℤ) : Prop :=
  readings.Pairwise (· ≤ ·) ∧ ∀ task ∈ tasks, ∀ now ∈ readings, task.lastRun ≤ now

theorem InPast.head {tasks : List PeriodicTask} {now : ℤ} {readings : List ℤ}
    (hpast : InPast tasks (now :: readings)) : ∀ task ∈ tasks, task.lastRun ≤ now :=
  fun task hmem => hpast.2 task hmem now (by simp)

theorem InPast.tail {tasks : List PeriodicTask} {now : ℤ} {readings : List ℤ}
    (hpast : InPast tasks (now :: readings)) :
    InPast (tasks.map (SingleThreadScheduler.visit now)) readings := by
  have hsorted := List.pairwise_cons.mp hpast.1
  refine ⟨hsorted.2, ?_⟩
  intro visited hmem later hlater
  obtain ⟨task, htask, rfl⟩ := List.mem_map.mp hmem
  exact (visit_lastRun_le (hpast.head task htask)).trans (hsorted.1 later hlater)

theorem start_counterpart {tasks : List PeriodicTask} {readings : List ℤ}
    (hpast : InPast tasks readings) :
    PeriodicScheduler.start (tasks.map counterpart) readings =
      SingleThreadScheduler.start tasks readings := by
  induction readings generalizing tasks with
  | nil => rfl
  | cons now readings ih =>
      have hran : ((tasks.map counterpart).filter (PeriodicScheduler.isDue now)).map
            Task.function =
          (tasks.filter (SingleThreadScheduler.isDue now)).map PeriodicTask.func := by
        rw [List.filter_map, List.map_map]
        have hdue : tasks.filter (PeriodicScheduler.isDue now ∘ counterpart) =
            tasks.filter (SingleThreadScheduler.isDue now) :=
          List.filter_congr fun task hmem => isDue_counterpart (hpast.head task hmem)
        rw [hdue]
        rfl
      have hvisited : (tasks.map counterpart).map (PeriodicScheduler.visit now) =
          (tasks.map (SingleThreadScheduler.visit now)).map counterpart := by
        rw [List.map_map, List.map_map]
        exact List.map_congr_left fun task hmem => visit_counterpart (hpast.head task hmem)
      rw [PeriodicScheduler.start, SingleThreadScheduler.start, hran, hvisited, ih hpast.tail]

/-! ## The tasks that are added -/

theorem addTasks_eq (additions : List Addition) :
    additions.foldl SingleThreadScheduler.addTask [] =
      additions.mapIdx fun func addition => ⟨func, addition.periodMs, addition.addedAt⟩ := by
  induction additions using List.reverseRecOn with
  | nil => rfl
  | append_singleton additions addition ih =>
      rw [List.foldl_concat, ih, List.mapIdx_concat, SingleThreadScheduler.addTask,
        List.length_mapIdx]

theorem addTasks_funcs (additions : List Addition) :
    (additions.foldl SingleThreadScheduler.addTask []).map PeriodicTask.func =
      List.range additions.length := by
  rw [addTasks_eq]
  apply List.ext_getElem?
  intro func
  by_cases hlt : func < additions.length
  · simp [hlt]
  · simp [hlt]

theorem addTasks_counterpart (additions : List Addition) (tasks : List PeriodicTask) :
    additions.foldl PeriodicScheduler.addTask (tasks.map counterpart) =
      (additions.foldl SingleThreadScheduler.addTask tasks).map counterpart := by
  induction additions generalizing tasks with
  | nil => rfl
  | cons addition additions ih =>
      rw [List.foldl_cons, List.foldl_cons, ← ih]
      congr 1
      simp [PeriodicScheduler.addTask, SingleThreadScheduler.addTask, counterpart]

/-! ## The distance between runs -/

/-- The readings of the iterations in which a function was run. -/
def runTimes (func : ℕ) (readings : List ℤ) (ran : List (List ℕ)) : List ℤ :=
  ((readings.zip ran).filter fun iteration => decide (func ∈ iteration.2)).map Prod.fst

def Apart (periodMs earlier later : ℤ) : Prop :=
  earlier + ofMilliseconds periodMs ≤ later

theorem map_visit_func (now : ℤ) (tasks : List PeriodicTask) :
    (tasks.map (SingleThreadScheduler.visit now)).map PeriodicTask.func =
      tasks.map PeriodicTask.func := by
  rw [List.map_map]
  apply List.map_congr_left
  intro task _
  rw [Function.comp_apply, SingleThreadScheduler.visit]
  split_ifs <;> rfl

theorem func_mem_ran_iff {tasks : List PeriodicTask}
    (hdistinct : (tasks.map PeriodicTask.func).Nodup) {task : PeriodicTask} (hmem : task ∈ tasks)
    (now : ℤ) :
    task.func ∈ (tasks.filter (SingleThreadScheduler.isDue now)).map PeriodicTask.func ↔
      SingleThreadScheduler.isDue now task = true := by
  constructor
  · intro hran
    obtain ⟨other, hother, hfunc⟩ := List.mem_map.mp hran
    have hsame := List.inj_on_of_nodup_map hdistinct (List.mem_of_mem_filter hother) hmem hfunc
    exact hsame ▸ (List.mem_filter.mp hother).2
  · intro hdue
    exact List.mem_map_of_mem (List.mem_filter.mpr ⟨hmem, hdue⟩)

/-- The first run lies a period after `lastRun`, and each run after the one before. -/
theorem isChain_runTimes {tasks : List PeriodicTask} {readings : List ℤ}
    (hpast : InPast tasks readings) (hdistinct : (tasks.map PeriodicTask.func).Nodup)
    {task : PeriodicTask} (hmem : task ∈ tasks) :
    (task.lastRun ::
      runTimes task.func readings (SingleThreadScheduler.start tasks readings)).IsChain
        (Apart task.period) := by
  induction readings generalizing tasks task with
  | nil => exact List.isChain_singleton _
  | cons now readings ih =>
      have hvisited := ih hpast.tail (by rwa [map_visit_func]) (List.mem_map_of_mem hmem)
      have hran := func_mem_ran_iff hdistinct hmem now
      rw [SingleThreadScheduler.start, runTimes, List.zip_cons_cons, List.filter_cons]
      by_cases hdue : SingleThreadScheduler.isDue now task = true
      · rw [SingleThreadScheduler.visit, if_pos hdue] at hvisited
        rw [if_pos (decide_eq_true (hran.mpr hdue)), List.map_cons]
        exact List.isChain_cons_cons.mpr
          ⟨(isDue_iff (hpast.head task hmem)).mp hdue, hvisited⟩
      · rw [SingleThreadScheduler.visit, if_neg hdue] at hvisited
        rw [if_neg (by simpa using fun h => hdue (hran.mp h))]
        exact hvisited

/-- The schedulers run the same functions in every iteration, and the runs of each
lie at least its period apart. -/
theorem schedulers_agree (additions : List Addition) {readings : List ℤ}
    (hsorted : readings.Pairwise (· ≤ ·))
    (hadded : ∀ addition ∈ additions, ∀ now ∈ readings, addition.addedAt ≤ now) :
    SingleThreadScheduler.start (additions.foldl SingleThreadScheduler.addTask []) readings =
      PeriodicScheduler.start (additions.foldl PeriodicScheduler.addTask []) readings ∧
    ∀ (func : ℕ) (addition : Addition), additions[func]? = some addition →
      (runTimes func readings (SingleThreadScheduler.start
        (additions.foldl SingleThreadScheduler.addTask []) readings)).IsChain
          (Apart addition.periodMs) := by
  have hpast : InPast (additions.foldl SingleThreadScheduler.addTask []) readings := by
    refine ⟨hsorted, ?_⟩
    intro task hmem now hnow
    rw [addTasks_eq] at hmem
    obtain ⟨func, hlt, rfl⟩ := List.mem_mapIdx.mp hmem
    exact hadded _ (List.getElem_mem hlt) now hnow
  constructor
  · have hcounterpart := addTasks_counterpart additions []
    rw [List.map_nil] at hcounterpart
    rw [hcounterpart, start_counterpart hpast]
  · intro func addition hget
    have hdistinct :
        ((additions.foldl SingleThreadScheduler.addTask []).map PeriodicTask.func).Nodup := by
      rw [addTasks_funcs]
      exact List.nodup_range
    have hmem : ⟨func, addition.periodMs, addition.addedAt⟩ ∈
        additions.foldl SingleThreadScheduler.addTask [] := by
      rw [addTasks_eq, List.mem_iff_getElem?]
      exact ⟨func, by rw [List.getElem?_mapIdx, hget]; rfl⟩
    exact (isChain_runTimes hpast hdistinct hmem).tail

/-- A period of 100 ms, one of zero and a negative one. -/
def threeTasks : List Addition := [⟨100, 0⟩, ⟨0, 5⟩, ⟨-3, 5⟩]

theorem schedulers_agree_threeTasks :
    PeriodicScheduler.start (threeTasks.foldl PeriodicScheduler.addTask [])
      [99999999, 100000000, 100000000, 200000001] = [[1, 2], [0, 1, 2], [1, 2], [0, 1, 2]] := by
  rw [← (schedulers_agree threeTasks (by decide) (by decide)).1]
  decide

end CppProj.CyclicSchedulers
