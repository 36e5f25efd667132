import CppProj.AssociationList
import CppProj.ListUpdate
import Mathlib.Algebra.Ring.Nat
import Mathlib.Data.Finset.Basic
import Mathlib.Data.List.MinMax
import Mathlib.Data.List.Nodup

/-!
# The timers of `GracefulTimer`

The data of `timer_demo.cpp` that `tasks_mutex_` protects, and the code that
runs under it: `addNonBlockingTimer`, `cancelTimer`, one iteration of
`managerThread` and the clearing at the end of `stop`.  A cancelled timer stays
in `active_tasks_`, marked, until its copy in the queue is due.  Which of the
entries with the least expiry time is the top of `tasks_queue_` is left open.

Durations are in milliseconds and times in nanoseconds, both unbounded.  The
counter of ids is an `std::atomic<int>` and wraps around.
-/

universe u

namespace CppProj.GracefulTimer

/-- `callback` is the function given by the caller; the wrapper around it is
part of the manager. -/
structure TimerTask (Callback : Type u) where
  id : Int32
  expiryTime : ℤ
  callback : Callback
  isCancelled : Bool
  deriving DecidableEq

variable {Callback : Type u}

structure Timers (Callback : Type u) where
  tasksQueue : List (TimerTask Callback)
  activeTasks : AList (fun _ : Int32 => TimerTask Callback)
  nextId : Int32
  pendingTimers : Finset Int32

namespace Timers

def initial : Timers Callback where
  tasksQueue := []
  activeTasks := ∅
  nextId := 0
  pendingTimers := ∅

/-- What follows the two checks of `addNonBlockingTimer`; the new id is its
result. -/
def addNonBlockingTimer (timers : Timers Callback) (duration : ℤ) (callback : Callback)
    (now : ℤ) : Timers Callback :=
  let id := timers.nextId + 1
  let task : TimerTask Callback := ⟨id, now + duration * 1000000, callback, false⟩
  { tasksQueue := task :: timers.tasksQueue
    activeTasks := timers.activeTasks.insert id task
    nextId := id
    pendingTimers := insert id timers.pendingTimers }

def cancelTimer (timers : Timers Callback) (timerId : Int32) : Bool × Timers Callback :=
  match timers.activeTasks.lookup timerId with
  | none => (false, timers)
  | some task =>
      (true, { timers with
        activeTasks := timers.activeTasks.insert timerId { task with isCancelled := true }
        pendingTimers := timers.pendingTimers.erase timerId })

/-- The end of `stop`. -/
def clear (timers : Timers Callback) : Timers Callback :=
  { timers with
    tasksQueue := []
    activeTasks := ∅
    pendingTimers := ∅ }

/-- The end of the wrapper around the callback. -/
def erasePending (timers : Timers Callback) (id : Int32) : Timers Callback :=
  { timers with pendingTimers := timers.pendingTimers.erase id }

/-- What one iteration of `managerThread` does under the mutex. -/
inductive Iteration (Callback : Type u) where
  | waitForTask
  | waitUntil (expiryTime : ℤ)
  | skipped
  | taken (task : TimerTask Callback)

def isTop (timers : Timers Callback) (task : TimerTask Callback) : Bool :=
  timers.tasksQueue.all fun other => decide (task.expiryTime ≤ other.expiryTime)

/-- One iteration of `managerThread` that reads the clock as `now`; `top` is
the position of the queue's top. -/
def managerIteration (timers : Timers Callback) (now : ℤ) (top : ℕ) :
    Option (Iteration Callback × Timers Callback) :=
  if timers.tasksQueue.isEmpty then some (.waitForTask, timers)
  else
    match timers.tasksQueue[top]? with
    | none => none
    | some nextTask =>
        if !timers.isTop nextTask then none
        else if nextTask.expiryTime ≤ now then
          let popped := { timers with tasksQueue := timers.tasksQueue.eraseIdx top }
          match timers.activeTasks.lookup nextTask.id with
          | none => some (.skipped, popped.erasePending nextTask.id)
          | some task =>
              let erased :=
                { popped with activeTasks := timers.activeTasks.erase nextTask.id }
              if !task.isCancelled then some (.taken task, erased)
              else some (.skipped, erased.erasePending nextTask.id)
        else some (.waitUntil nextTask.expiryTime, timers)

end Timers

/-! ## Ids -/

/-- One of the first `additions` ids. -/
def Issued (additions : ℕ) (id : Int32) : Prop :=
  ∃ number, 1 ≤ number ∧ number ≤ additions ∧ id = Int32.ofNat number

theorem ofNat_eq_iff {left right : ℕ} :
    Int32.ofNat left = Int32.ofNat right ↔ left % 2 ^ 32 = right % 2 ^ 32 := by
  rw [← Int32.toBitVec_inj, Int32.toBitVec_ofNat', Int32.toBitVec_ofNat',
    ← BitVec.toNat_inj, BitVec.toNat_ofNat, BitVec.toNat_ofNat]

theorem Issued.mono {additions more : ℕ} {id : Int32} (hissued : Issued additions id)
    (hle : additions ≤ more) : Issued more id := by
  obtain ⟨number, hone, hlast, hid⟩ := hissued
  exact ⟨number, hone, by omega, hid⟩

theorem issued_next (additions : ℕ) :
    Issued (additions + 1) (Int32.ofNat (additions + 1)) :=
  ⟨additions + 1, by omega, by omega, rfl⟩

/-- Until the counter has wrapped around, the next id is new. -/
theorem Issued.ne_next {additions : ℕ} {id : Int32} (hissued : Issued additions id)
    (hroom : additions < 2 ^ 32) : id ≠ Int32.ofNat (additions + 1) := by
  obtain ⟨number, hone, hlast, rfl⟩ := hissued
  rw [Ne, ofNat_eq_iff]
  omega

/-! ## The queue, the map and the set -/

/-- `firing` is the id of the timer that the manager has taken and whose
wrapper has not erased it yet. -/
structure TimersInvariant (timers : Timers Callback) (additions : ℕ)
    (firing : Option Int32) : Prop where
  counted : timers.nextId = Int32.ofNat additions
  issued : ∀ task ∈ timers.tasksQueue, Issued additions task.id
  distinct : (timers.tasksQueue.map TimerTask.id).Nodup
  active : ∀ id task, timers.activeTasks.lookup id = some task →
    task.id = id ∧ { task with isCancelled := false } ∈ timers.tasksQueue
  popped : ∀ id, firing = some id →
    Issued additions id ∧ ∀ task ∈ timers.tasksQueue, task.id ≠ id
  pending : ∀ id, id ∈ timers.pendingTimers ↔
    (∃ task, timers.activeTasks.lookup id = some task ∧ task.isCancelled = false) ∨
      firing = some id

namespace TimersInvariant

variable {timers : Timers Callback} {additions : ℕ} {firing : Option Int32}

theorem initial : TimersInvariant (Timers.initial : Timers Callback) 0 none := by
  constructor <;> simp [Timers.initial]

theorem issued_of_active (hinv : TimersInvariant timers additions firing) {id : Int32}
    {task : TimerTask Callback} (hlookup : timers.activeTasks.lookup id = some task) :
    Issued additions id := by
  obtain ⟨hid, hmem⟩ := hinv.active id task hlookup
  exact hid ▸ hinv.issued { task with isCancelled := false } hmem

theorem inactive (hinv : TimersInvariant timers additions firing) {id : Int32}
    (hcopies : ∀ task ∈ timers.tasksQueue, task.id ≠ id) :
    timers.activeTasks.lookup id = none := by
  rw [Option.eq_none_iff_forall_ne_some]
  intro task hlookup
  obtain ⟨hid, hmem⟩ := hinv.active id task hlookup
  exact hcopies _ hmem hid

theorem addNonBlockingTimer (hinv : TimersInvariant timers additions firing)
    {duration now : ℤ} {callback : Callback} (hroom : additions < 2 ^ 32) :
    TimersInvariant (timers.addNonBlockingTimer duration callback now) (additions + 1)
      firing := by
  have hnext : timers.nextId + 1 = Int32.ofNat (additions + 1) := by
    rw [hinv.counted, Int32.ofNat_add]
    rfl
  have hnew : ∀ id, Issued additions id → id ≠ timers.nextId + 1 := by
    intro id hissued
    rw [hnext]
    exact hissued.ne_next hroom
  constructor
  case counted => exact hnext
  case issued =>
    intro task hmem
    rcases List.mem_cons.mp hmem with rfl | hmem
    · exact hnext ▸ issued_next additions
    · exact (hinv.issued task hmem).mono (by omega)
  case distinct =>
    simp only [Timers.addNonBlockingTimer, List.map_cons, List.nodup_cons]
    refine ⟨?_, hinv.distinct⟩
    intro hmem
    obtain ⟨task, htask, hid⟩ := List.mem_map.mp hmem
    exact hnew _ (hinv.issued task htask) hid
  case active =>
    intro id task hlookup
    simp only [Timers.addNonBlockingTimer] at hlookup ⊢
    by_cases heq : id = timers.nextId + 1
    · subst heq
      rw [AList.lookup_insert] at hlookup
      cases hlookup
      exact ⟨rfl, List.mem_cons_self⟩
    · rw [AList.lookup_insert_ne heq] at hlookup
      obtain ⟨hid, hmem⟩ := hinv.active id task hlookup
      exact ⟨hid, List.mem_cons_of_mem _ hmem⟩
  case popped =>
    intro id hfiring
    obtain ⟨hissued, hcopies⟩ := hinv.popped id hfiring
    refine ⟨hissued.mono (by omega), ?_⟩
    intro task hmem
    rcases List.mem_cons.mp hmem with rfl | hmem
    · exact (hnew id hissued).symm
    · exact hcopies task hmem
  case pending =>
    intro id
    simp only [Timers.addNonBlockingTimer, Finset.mem_insert]
    by_cases heq : id = timers.nextId + 1
    · subst heq
      simp [AList.lookup_insert]
    · rw [AList.lookup_insert_ne heq, or_iff_right heq]
      exact hinv.pending id

theorem cancelTimer (hinv : TimersInvariant timers additions firing) (timerId : Int32) :
    TimersInvariant (timers.cancelTimer timerId).2 additions firing := by
  unfold Timers.cancelTimer
  cases hlookup : timers.activeTasks.lookup timerId with
  | none => exact hinv
  | some task =>
      obtain ⟨hid, hmem⟩ := hinv.active timerId task hlookup
      refine ⟨hinv.counted, hinv.issued, hinv.distinct, ?_, hinv.popped, ?_⟩
      · intro id other hother
        by_cases heq : id = timerId
        · subst heq
          rw [AList.lookup_insert] at hother
          cases hother
          exact ⟨hid, hmem⟩
        · rw [AList.lookup_insert_ne heq] at hother
          exact hinv.active id other hother
      · intro id
        simp only [Finset.mem_erase]
        by_cases heq : id = timerId
        · subst heq
          -- an active timer has its copy in the queue, a firing one has none
          have hnot : firing ≠ some id := by
            intro hfiring
            exact (hinv.popped id hfiring).2 _ hmem hid
          simp [AList.lookup_insert, hnot]
        · rw [AList.lookup_insert_ne heq, and_iff_right heq]
          exact hinv.pending id

theorem clear (hinv : TimersInvariant timers additions none) :
    TimersInvariant timers.clear additions none := by
  refine ⟨hinv.counted, ?_, ?_, ?_, ?_, ?_⟩ <;> simp [Timers.clear]

theorem erasePending {id : Int32} (hinv : TimersInvariant timers additions (some id)) :
    TimersInvariant (timers.erasePending id) additions none := by
  refine ⟨hinv.counted, hinv.issued, hinv.distinct, hinv.active, ?_, ?_⟩
  · intro other hfiring
    cases hfiring
  · intro other
    have hinactive := hinv.inactive (hinv.popped id rfl).2
    simp only [Timers.erasePending, Finset.mem_erase, hinv.pending other]
    constructor
    · rintro ⟨hne, hactive | hfiring⟩
      · exact Or.inl hactive
      · cases hfiring
        exact (hne rfl).elim
    · rintro (⟨task, hlookup, hcancelled⟩ | hfiring)
      · refine ⟨?_, Or.inl ⟨task, hlookup, hcancelled⟩⟩
        rintro rfl
        rw [hinactive] at hlookup
        cases hlookup
      · cases hfiring

theorem pop (hinv : TimersInvariant timers additions none) {top : ℕ}
    {copy : TimerTask Callback} (hget : timers.tasksQueue[top]? = some copy)
    {firing : Option Int32} (hfiring : ∀ id, firing = some id → id = copy.id)
    {pendingTimers : Finset Int32}
    (hpending : ∀ id, id ∈ pendingTimers ↔
      (id ≠ copy.id ∧ id ∈ timers.pendingTimers) ∨ firing = some id) :
    TimersInvariant
      { timers with
        tasksQueue := timers.tasksQueue.eraseIdx top
        activeTasks := timers.activeTasks.erase copy.id
        pendingTimers := pendingTimers } additions firing := by
  constructor
  case counted => exact hinv.counted
  case issued =>
    intro task hmem
    exact hinv.issued task (List.mem_of_mem_eraseIdx hmem)
  case distinct => exact ((List.eraseIdx_sublist _ _).map TimerTask.id).nodup hinv.distinct
  case active =>
    intro id task hlookup
    obtain ⟨hne, hlookup⟩ := AList.lookup_erase_eq_some_iff.mp hlookup
    obtain ⟨hid, hmem⟩ := hinv.active id task hlookup
    refine ⟨hid, ?_⟩
    rcases ListUpdate.eq_or_mem_eraseIdx hget hmem with heq | hmem
    · exact (hne (by rw [← hid, ← heq])).elim
    · exact hmem
  case popped =>
    intro id hid
    obtain rfl := hfiring id hid
    refine ⟨hinv.issued copy (List.mem_of_getElem? hget), ?_⟩
    intro task hmem
    exact ListUpdate.ne_of_mem_eraseIdx hinv.distinct hget hmem
  case pending =>
    intro id
    rw [hpending, hinv.pending]
    simp only [AList.lookup_erase_eq_some_iff, reduceCtorEq, or_false, and_assoc,
      exists_and_left]

end TimersInvariant

/-! ## What an iteration of the manager does -/

namespace Timers

inductive IterationMove (timers : Timers Callback) (now : ℤ) :
    Iteration Callback → Timers Callback → Prop where
  | waitForTask (hempty : timers.tasksQueue = []) :
      IterationMove timers now .waitForTask timers
  | waitUntil (task : TimerTask Callback)
      (hleast : ∀ other ∈ timers.tasksQueue, task.expiryTime ≤ other.expiryTime)
      (hearly : now < task.expiryTime) :
      IterationMove timers now (.waitUntil task.expiryTime) timers
  | skipped (top : ℕ) (copy : TimerTask Callback)
      (hget : timers.tasksQueue[top]? = some copy)
      (hcancelled : ∀ task, timers.activeTasks.lookup copy.id = some task →
        task.isCancelled = true) :
      IterationMove timers now .skipped
        { timers with
          tasksQueue := timers.tasksQueue.eraseIdx top
          activeTasks := timers.activeTasks.erase copy.id
          pendingTimers := timers.pendingTimers.erase copy.id }
  | taken (top : ℕ) (copy task : TimerTask Callback)
      (hget : timers.tasksQueue[top]? = some copy) (hdue : copy.expiryTime ≤ now)
      (hactive : timers.activeTasks.lookup copy.id = some task)
      (hcancelled : task.isCancelled = false) :
      IterationMove timers now (.taken task)
        { timers with
          tasksQueue := timers.tasksQueue.eraseIdx top
          activeTasks := timers.activeTasks.erase copy.id }

theorem isTop_iff {timers : Timers Callback} {task : TimerTask Callback} :
    timers.isTop task = true ↔
      ∀ other ∈ timers.tasksQueue, task.expiryTime ≤ other.expiryTime := by
  simp [isTop]

theorem iterationMove_of_managerIteration {timers next : Timers Callback} {now : ℤ}
    {top : ℕ} {iteration : Iteration Callback}
    (hiteration : timers.managerIteration now top = some (iteration, next)) :
    IterationMove timers now iteration next := by
  unfold managerIteration at hiteration
  split_ifs at hiteration with hempty
  · cases hiteration
    exact .waitForTask (List.isEmpty_iff.mp hempty)
  · split at hiteration
    next => cases hiteration
    next copy hget =>
      split_ifs at hiteration with htop hdue
      · split at hiteration
        next hinactive =>
          cases hiteration
          have herase := AList.erase_of_lookup_eq_none hinactive
          have hmove : IterationMove timers now .skipped
              { timers with
                tasksQueue := timers.tasksQueue.eraseIdx top
                activeTasks := timers.activeTasks.erase copy.id
                pendingTimers := timers.pendingTimers.erase copy.id } := by
            refine .skipped top copy hget ?_
            intro task hlookup
            rw [hinactive] at hlookup
            cases hlookup
          rwa [herase] at hmove
        next task hlookup =>
          split_ifs at hiteration with hcancelled
          · cases hiteration
            exact .taken top copy task hget hdue hlookup (by simpa using hcancelled)
          · cases hiteration
            refine .skipped top copy hget ?_
            intro other hother
            rw [hlookup] at hother
            cases hother
            simpa using hcancelled
      · cases hiteration
        refine .waitUntil copy (isTop_iff.mp ?_) (by omega)
        simpa using htop

theorem IterationMove.invariant {timers next : Timers Callback} {now : ℤ}
    {additions : ℕ} {iteration : Iteration Callback}
    (hinv : TimersInvariant timers additions none)
    (hmove : IterationMove timers now iteration next) :
    TimersInvariant next additions
      (match iteration with
      | .taken task => some task.id
      | _ => none) := by
  cases hmove with
  | waitForTask hempty => exact hinv
  | waitUntil task hleast hearly => exact hinv
  | skipped top copy hget hcancelled =>
      apply hinv.pop hget (by simp)
      simp
  | taken top copy task hget hdue hactive hcancelled =>
      obtain ⟨hid, _⟩ := hinv.active copy.id task hactive
      have hpending : copy.id ∈ timers.pendingTimers :=
        (hinv.pending copy.id).mpr (Or.inl ⟨task, hactive, hcancelled⟩)
      simp only [hid]
      apply hinv.pop hget (by simp)
      intro id
      by_cases heq : id = copy.id
      · subst heq
        simp [hpending]
      · simp [heq, Ne.symm heq]

/-- The manager finds its next iteration, whatever the clock reads. -/
theorem exists_managerIteration (timers : Timers Callback) (now : ℤ) :
    ∃ top result, timers.managerIteration now top = some result := by
  by_cases hempty : timers.tasksQueue = []
  · exact ⟨0, _, by rw [managerIteration, if_pos (List.isEmpty_iff.mpr hempty)]⟩
  · obtain ⟨task, htask⟩ := Option.ne_none_iff_exists'.mp
      (mt List.argmin_eq_none.mp hempty : timers.tasksQueue.argmin TimerTask.expiryTime ≠ none)
    obtain ⟨position, hget⟩ := List.mem_iff_getElem?.mp (List.argmin_mem htask)
    have htop : timers.isTop task = true :=
      isTop_iff.mpr fun other hmem => List.le_of_mem_argmin hmem htask
    refine ⟨position, Option.isSome_iff_exists.mp ?_⟩
    simp only [managerIteration, List.isEmpty_iff, hempty, if_false, hget, htop,
      Bool.not_true, Bool.false_eq_true]
    split_ifs with hdue
    · cases timers.activeTasks.lookup task.id with
      | none => rfl
      | some active =>
          dsimp only
          split_ifs <;> rfl
    · rfl

end Timers

end CppProj.GracefulTimer
