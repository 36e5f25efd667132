import CppProj.PriorityQueues
import Mathlib.Data.List.AList
import Mathlib.Tactic.Common

/-!
# The tasks of `TimerManager.hpp`

What the operations do to the tasks while they hold the mutex.  Times are
durations of the steady clock, and a callback is known by its number.
`scheduleOneShot` takes the identifier that it should get from the timer, so it
can be any.
-/

namespace CppProj.TimerManagerTasks

open PriorityQueues

abbrev TimerId := UInt64

structure OneShotTask where
  id : TimerId
  expiry : ℤ
  callback : ℕ
  priority : ℤ
  deriving DecidableEq

structure PeriodicTask where
  id : TimerId
  interval : ℤ
  nextExpiry : ℤ
  callback : ℕ
  isActive : Bool
  deriving DecidableEq

/-- `operator<`. -/
def OneShotTask.lt (task other : OneShotTask) : Prop :=
  if task.expiry ≠ other.expiry then task.expiry > other.expiry
  else task.priority < other.priority

instance : DecidableRel OneShotTask.lt := fun task other =>
  inferInstanceAs (Decidable
    (if task.expiry ≠ other.expiry then task.expiry > other.expiry
    else task.priority < other.priority))

/-- What the queue of the standard library is promised of the order. -/
instance : IsStrictWeakOrder OneShotTask OneShotTask.lt where
  irrefl task := by simp [OneShotTask.lt]
  trans first second third hfirst hsecond := by
    unfold OneShotTask.lt at *
    grind
  incomp_trans first second third hfirst hsecond := by
    unfold OneShotTask.lt at *
    grind

/-- A function that the manager hands to its timer. -/
inductive Lambda where
  | oneShot (id : TimerId) (callback : ℕ)
  | periodic (id : TimerId)
  deriving DecidableEq

/-- A call that the manager makes on its timer. -/
inductive TimerCall where
  | asyncAfter (duration : ℤ) (callback : Lambda)
  | cancel (id : TimerId)
  | cancelAll
  deriving DecidableEq

structure TimerManager (impl : PriorityQueue OneShotTask OneShotTask.lt) where
  oneShotTasks : impl.Queue
  periodicTasks : AList fun _ : TimerId => PeriodicTask
  nextId : TimerId
  timerCalls : List TimerCall

variable {impl : PriorityQueue OneShotTask OneShotTask.lt}

namespace TimerManager

def initial : TimerManager impl where
  oneShotTasks := impl.empty
  periodicTasks := ∅
  nextId := 1
  timerCalls := []

def call (timerCall : TimerCall) (manager : TimerManager impl) : TimerManager impl :=
  { manager with timerCalls := manager.timerCalls ++ [timerCall] }

def scheduleOneShot (id : TimerId) (now delay : ℤ) (callback : ℕ) (priority : ℤ)
    (manager : TimerManager impl) : TimerManager impl :=
  let task : OneShotTask := ⟨id, now + delay, callback, priority⟩
  { manager.call (.asyncAfter delay (.oneShot id callback)) with
    oneShotTasks := impl.push task manager.oneShotTasks }

def scheduleNextPeriodic (id : TimerId) (manager : TimerManager impl) : TimerManager impl :=
  match manager.periodicTasks.lookup id with
  | none => manager
  | some task =>
      if !task.isActive then manager
      else manager.call (.asyncAfter task.interval (.periodic id))

def schedulePeriodic (now interval : ℤ) (callback : ℕ) (manager : TimerManager impl) :
    TimerId × TimerManager impl :=
  let id := manager.nextId
  let task : PeriodicTask := ⟨id, interval, now + interval, callback, true⟩
  (id, scheduleNextPeriodic id
    { manager with nextId := id + 1, periodicTasks := manager.periodicTasks.insert id task })

/-- The variables of the loop of `cancel`. -/
structure Rebuild (impl : PriorityQueue OneShotTask OneShotTask.lt) where
  newQueue : impl.Queue
  found : Bool
  timerCalls : List TimerCall

def cancelBody (id : TimerId) (rebuild : Rebuild impl) (task : OneShotTask) : Rebuild impl :=
  if task.id = id then
    { rebuild with found := true, timerCalls := rebuild.timerCalls ++ [.cancel id] }
  else { rebuild with newQueue := impl.push task rebuild.newQueue }

def cancel (id : TimerId) (manager : TimerManager impl) : Bool × TimerManager impl :=
  let rebuild :=
    (impl.drain (cancelBody id) manager.oneShotTasks ⟨impl.empty, false, manager.timerCalls⟩).2
  let rebuilt :=
    { manager with oneShotTasks := rebuild.newQueue, timerCalls := rebuild.timerCalls }
  if id ∈ manager.periodicTasks then
    (true, { rebuilt.call (.cancel id) with periodicTasks := manager.periodicTasks.erase id })
  else (rebuild.found, rebuilt)

def removeBody (id : TimerId) (newQueue : impl.Queue) (task : OneShotTask) : impl.Queue :=
  if task.id ≠ id then impl.push task newQueue else newQueue

def removeOneShotTask (id : TimerId) (manager : TimerManager impl) : TimerManager impl :=
  { manager with
    oneShotTasks := (impl.drain (removeBody id) manager.oneShotTasks impl.empty).2 }

/-- What the function of a periodic task does after its callback. -/
def reschedule (id : TimerId) (now : ℤ) (manager : TimerManager impl) : TimerManager impl :=
  match manager.periodicTasks.lookup id with
  | none => manager
  | some task =>
      if !task.isActive then manager
      else
        scheduleNextPeriodic id
          { manager with
            periodicTasks :=
              manager.periodicTasks.insert id { task with nextExpiry := now + task.interval } }

def hasNoTasks (manager : TimerManager impl) : Bool :=
  (impl.top? manager.oneShotTasks).isNone && manager.periodicTasks.entries.isEmpty

/-- The end of `stop`. -/
def clear (manager : TimerManager impl) : TimerManager impl :=
  { manager with oneShotTasks := impl.empty, periodicTasks := ∅ }

@[simp] theorem oneShotTasks_scheduleNextPeriodic (id : TimerId) (manager : TimerManager impl) :
    (manager.scheduleNextPeriodic id).oneShotTasks = manager.oneShotTasks := by
  unfold scheduleNextPeriodic
  split
  · rfl
  · split <;> rfl

@[simp] theorem oneShotTasks_reschedule (id : TimerId) (now : ℤ) (manager : TimerManager impl) :
    (manager.reschedule id now).oneShotTasks = manager.oneShotTasks := by
  unfold reschedule
  split
  · rfl
  · split <;> simp

theorem contents_removeOneShotTask (id : TimerId) (manager : TimerManager impl) :
    impl.contents (manager.removeOneShotTask id).oneShotTasks =
      (impl.contents manager.oneShotTasks).filter fun task => task.id ≠ id := by
  rw [removeOneShotTask, PriorityQueue.drain_eq_foldl]
  exact PriorityQueue.contents_rebuild (fun task : OneShotTask => task.id ≠ id) _

theorem newQueue_foldl_cancelBody (id : TimerId) (tasks : List OneShotTask)
    (rebuild : Rebuild impl) :
    (tasks.foldl (cancelBody id) rebuild).newQueue =
      tasks.foldl (removeBody id) rebuild.newQueue := by
  induction tasks generalizing rebuild with
  | nil => rfl
  | cons task tasks ih =>
      rw [List.foldl_cons, List.foldl_cons, ih]
      unfold cancelBody removeBody
      split
      next hid => rw [if_neg (not_not_intro hid)]
      next hid => rfl

theorem oneShotTasks_cancel (id : TimerId) (manager : TimerManager impl) :
    (manager.cancel id).2.oneShotTasks =
      (impl.drain (cancelBody id) manager.oneShotTasks
        ⟨impl.empty, false, manager.timerCalls⟩).2.newQueue := by
  unfold cancel
  dsimp only
  split <;> rfl

theorem contents_cancel (id : TimerId) (manager : TimerManager impl) :
    impl.contents (manager.cancel id).2.oneShotTasks =
      (impl.contents manager.oneShotTasks).filter fun task => task.id ≠ id := by
  rw [oneShotTasks_cancel, PriorityQueue.drain_eq_foldl, newQueue_foldl_cancelBody]
  exact PriorityQueue.contents_rebuild (fun task : OneShotTask => task.id ≠ id) _

theorem found_foldl_cancelBody (id : TimerId) (tasks : List OneShotTask)
    (rebuild : Rebuild impl) :
    (tasks.foldl (cancelBody id) rebuild).found = true ↔
      rebuild.found = true ∨ ∃ task ∈ tasks, task.id = id := by
  induction tasks generalizing rebuild with
  | nil => simp
  | cons task tasks ih =>
      rw [List.foldl_cons, ih, List.exists_mem_cons_iff]
      unfold cancelBody
      split
      next hid => simp [hid]
      next hid => simp [hid]

/-- `cancel` reports whether there was a task of either kind with this identifier. -/
theorem cancel_found (id : TimerId) (manager : TimerManager impl) :
    (manager.cancel id).1 = true ↔
      (∃ task ∈ impl.contents manager.oneShotTasks, task.id = id) ∨
        id ∈ manager.periodicTasks := by
  have hloop := found_foldl_cancelBody id (impl.taken manager.oneShotTasks)
    ⟨impl.empty, false, manager.timerCalls⟩
  rw [← PriorityQueue.drain_eq_foldl] at hloop
  simp only [PriorityQueue.mem_taken, Bool.false_eq_true, false_or] at hloop
  unfold cancel
  dsimp only
  split
  next hmem => simp [hmem]
  next hmem => simpa [hmem] using hloop

end TimerManager

/-- What changes the tasks.  A task is pushed as `scheduleOneShot` makes it. -/
inductive Action where
  | push (task : OneShotTask)
  | schedulePeriodic (now interval : ℤ) (callback : ℕ)
  | cancel (id : TimerId)
  | removeOneShotTask (id : TimerId)
  | reschedule (id : TimerId) (now : ℤ)
  | clear

def apply (manager : TimerManager impl) : Action → TimerManager impl
  | .push task => { manager with oneShotTasks := impl.push task manager.oneShotTasks }
  | .schedulePeriodic now interval callback => (manager.schedulePeriodic now interval callback).2
  | .cancel id => (manager.cancel id).2
  | .removeOneShotTask id => manager.removeOneShotTask id
  | .reschedule id now => manager.reschedule id now
  | .clear => manager.clear

/-- The tasks that were pushed and not taken away since. -/
def remaining (tasks : Multiset OneShotTask) : Action → Multiset OneShotTask
  | .push task => task ::ₘ tasks
  | .schedulePeriodic _ _ _ | .reschedule _ _ => tasks
  | .cancel id | .removeOneShotTask id => tasks.filter fun task => task.id ≠ id
  | .clear => 0

theorem contents_apply (manager : TimerManager impl) (action : Action) :
    impl.contents (apply manager action).oneShotTasks =
      remaining (impl.contents manager.oneShotTasks) action := by
  cases action with
  | push task => exact impl.contents_push task manager.oneShotTasks
  | schedulePeriodic now interval callback =>
      simp [apply, remaining, TimerManager.schedulePeriodic]
  | reschedule id now => simp [apply, remaining]
  | cancel id => exact manager.contents_cancel id
  | removeOneShotTask id => exact manager.contents_removeOneShotTask id
  | clear => exact impl.contents_empty

def run (impl : PriorityQueue OneShotTask OneShotTask.lt) (actions : List Action) :
    TimerManager impl :=
  actions.foldl apply TimerManager.initial

def remainingAfter (actions : List Action) : Multiset OneShotTask :=
  actions.foldl remaining 0

variable (impl) in
theorem contents_run (actions : List Action) :
    impl.contents (run impl actions).oneShotTasks = remainingAfter actions := by
  have hrun : ∀ manager : TimerManager impl,
      impl.contents (actions.foldl apply manager).oneShotTasks =
        actions.foldl remaining (impl.contents manager.oneShotTasks) := by
    induction actions with
    | nil => exact fun manager => rfl
    | cons action rest ih =>
        intro manager
        rw [List.foldl_cons, ih, contents_apply, List.foldl_cons]
  rw [run, hrun, TimerManager.initial, impl.contents_empty]
  rfl

/-- Earlier expiries first, and at one expiry the smaller numbers first. -/
def InOrder (tasks : List OneShotTask) : Prop :=
  tasks.Pairwise fun first second =>
    first.expiry < second.expiry ∨
      first.expiry = second.expiry ∧ first.priority ≤ second.priority

/-- After these actions the top gives the remaining tasks in this order, and the loops of a
rebuild end and take away exactly the entries with the identifier. -/
structure Serves (impl : PriorityQueue OneShotTask OneShotTask.lt) (actions : List Action) :
    Prop where
  taken : (impl.taken (run impl actions).oneShotTasks : Multiset OneShotTask) =
    remainingAfter actions
  inOrder : InOrder (impl.taken (run impl actions).oneShotTasks)
  loopsEnd : ∀ (id : TimerId) (rebuild : TimerManager.Rebuild impl) (newQueue : impl.Queue),
    impl.contents (impl.drain (TimerManager.cancelBody id)
      (run impl actions).oneShotTasks rebuild).1 = 0 ∧
    impl.contents (impl.drain (TimerManager.removeBody id)
      (run impl actions).oneShotTasks newQueue).1 = 0
  cancel : ∀ id, impl.contents ((run impl actions).cancel id).2.oneShotTasks =
    (impl.contents (run impl actions).oneShotTasks).filter fun task => task.id ≠ id
  removeOneShotTask : ∀ id,
    impl.contents ((run impl actions).removeOneShotTask id).oneShotTasks =
      (impl.contents (run impl actions).oneShotTasks).filter fun task => task.id ≠ id

/-- Of two tasks that come out one after the other, the later number comes first. -/
theorem not_lt_iff {first second : OneShotTask} :
    ¬ first.lt second ↔
      first.expiry < second.expiry ∨
        first.expiry = second.expiry ∧ second.priority ≤ first.priority := by
  unfold OneShotTask.lt
  split
  next hexpiry => omega
  next hexpiry => omega

/-- The order of the two does not depend on their numbers. -/
def Compatible (first second : OneShotTask) : Prop :=
  first.expiry = second.expiry → first.priority = second.priority

instance : Std.Symm Compatible where
  symm _ _ hcompatible hexpiry := (hcompatible hexpiry.symm).symm

/-- The order is right exactly when no two remaining tasks of one expiry differ in their
priorities. -/
theorem inOrder_taken_iff (queue : impl.Queue) :
    InOrder (impl.taken queue) ↔
      ∀ first ∈ impl.contents queue, ∀ second ∈ impl.contents queue,
        Compatible first second := by
  have htaken := impl.pairwise_taken queue
  simp only [← PriorityQueue.mem_taken]
  constructor
  · intro hinOrder
    have hcompatible : (impl.taken queue).Pairwise Compatible := by
      refine (htaken.and hinOrder).imp fun {first second} hboth hexpiry => ?_
      have hfirst := not_lt_iff.mp hboth.1
      have hsecond := hboth.2
      omega
    have hall := hcompatible.forall_of_forall fun _ _ _ => rfl
    exact fun first hfirst second hsecond => hall hfirst hsecond
  · intro hsame
    refine htaken.imp_of_mem fun {first second} hfirst hsecond hnot => ?_
    rcases not_lt_iff.mp hnot with hlt | ⟨hexpiry, -⟩
    · exact .inl hlt
    · exact .inr ⟨hexpiry, (hsame first hfirst second hsecond hexpiry).le⟩

/-- The tasks come out in order exactly when those of one expiry that remain are all of one
priority.  Otherwise the larger number comes first. -/
theorem serves_iff_compatible (impl : PriorityQueue OneShotTask OneShotTask.lt)
    (actions : List Action) :
    Serves impl actions ↔
      ∀ first ∈ remainingAfter actions, ∀ second ∈ remainingAfter actions,
        Compatible first second := by
  rw [← contents_run impl, ← inOrder_taken_iff]
  constructor
  · exact Serves.inOrder
  · intro hinOrder
    refine ⟨?_, hinOrder, ?_, ?_, ?_⟩
    · rw [impl.coe_taken, contents_run]
    · exact fun id rebuild newQueue =>
        ⟨PriorityQueue.contents_drain _ _ _, PriorityQueue.contents_drain _ _ _⟩
    · exact fun id => TimerManager.contents_cancel id _
    · exact fun id => TimerManager.contents_removeOneShotTask id _

/-- Two tasks of one expiry: the one with the number 1 comes before the one with 0. -/
theorem not_serves_sameExpiry :
    ¬ Serves (sortedList OneShotTask.lt) [.push ⟨1, 1000, 0, 0⟩, .push ⟨2, 1000, 1, 1⟩] := by
  intro hserves
  have hinOrder := hserves.inOrder
  have htaken : (sortedList OneShotTask.lt).taken
      (run (sortedList OneShotTask.lt)
        [.push ⟨1, 1000, 0, 0⟩, .push ⟨2, 1000, 1, 1⟩]).oneShotTasks =
      [⟨2, 1000, 1, 1⟩, ⟨1, 1000, 0, 0⟩] := by
    decide +kernel
  rw [htaken] at hinOrder
  exact absurd hinOrder (by simp [InOrder])

end CppProj.TimerManagerTasks
