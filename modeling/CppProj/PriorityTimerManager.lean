import CppProj.LabelledHistory
import CppProj.ListUpdate
import CppProj.TransitionSystem
import Mathlib.Algebra.Ring.Int.Defs
import Mathlib.Algebra.Ring.Nat
import Mathlib.Order.Lattice

/-!
# `TimerManager` of `singleThreadPriQueue.cpp`

Any threads add tasks to a priority queue, and one worker takes out the task
that expires first, calls it back and puts a periodic one in again.  Times are
nanoseconds of the steady clock.  The mutex is held within one step only, and a
wait on the condition variable may end at any time.
-/

namespace CppProj.PriorityTimerManager

def milliseconds (count : ℤ) : ℤ := count * 1000000

def microseconds (count : ℤ) : ℤ := count * 1000

/-- A call of `addTimer`, with the time that it reads. -/
structure Call where
  addedAt : ℤ
  delayMs : ℤ
  intervalMs : ℤ
  deriving DecidableEq

/-- The callback is the number of the call. -/
structure TimerTask where
  expireTime : ℤ
  callback : ℕ
  intervals : ℤ
  deriving DecidableEq

/-- `now` is the clock reading with which the task was taken out. -/
inductive WorkerPhase where
  | stopped
  | testLoop
  | inspecting
  | sleeping
  | calling (task : TimerTask) (now : ℤ)
  | executing (task : TimerTask) (now : ℤ)
  | reinserting (task : TimerTask) (now : ℤ)
  deriving DecidableEq

namespace WorkerPhase

/-- The task that has been taken out and may be put in again. -/
def held : WorkerPhase → List TimerTask
  | .calling task _ | .executing task _ | .reinserting task _ => [task]
  | .stopped | .testLoop | .inspecting | .sleeping => []

/-- The task that has been taken out and is still to be called. -/
def uncalled : WorkerPhase → List TimerTask
  | .calling task _ => [task]
  | _ => []

theorem uncalled_of_held {phase : WorkerPhase} (hheld : phase.held = []) :
    phase.uncalled = [] := by
  cases phase with
  | calling => cases hheld
  | _ => rfl

end WorkerPhase

/-- `adding` holds the tasks of calls that have not locked the mutex yet, and `tasks`
is the queue in no particular order.  `executions` lists the callbacks with the
times at which they started. -/
structure State where
  now : ℤ
  calls : List Call
  adding : List TimerTask
  tasks : List TimerTask
  running : Bool
  worker : WorkerPhase
  executions : List (ℕ × ℤ)
  deriving DecidableEq

/-- `inspect` names the element that `top` returns. -/
inductive Action where
  | tick (duration : ℕ)
  | addTimer (delayMs intervalMs : ℤ)
  | push (index : ℕ)
  | start
  | stop
  | worker
  | inspect (top : ℕ)
  deriving DecidableEq

def initial (now : ℤ) : State where
  now := now
  calls := []
  adding := []
  tasks := []
  running := false
  worker := .stopped
  executions := []

/-- `addTimer` up to its lock. -/
def addTimerStep (state : State) (delayMs intervalMs : ℤ) : State :=
  { state with
    calls := state.calls ++ [⟨state.now, delayMs, intervalMs⟩]
    adding := state.adding ++
      [⟨state.now + milliseconds delayMs, state.calls.length, intervalMs⟩] }

def pushStep (state : State) (index : ℕ) : Option State :=
  state.adding[index]?.map fun task =>
    { state with adding := state.adding.eraseIdx index, tasks := state.tasks ++ [task] }

def inspectStep (state : State) (top : ℕ) : Option State :=
  match state.tasks[top]? with
  | none => if state.tasks = [] then some { state with worker := .sleeping } else none
  | some task =>
      if ∀ other ∈ state.tasks, task.expireTime ≤ other.expireTime then
        if task.expireTime ≤ state.now then
          some { state with
            tasks := state.tasks.eraseIdx top
            worker := .calling task state.now }
        else some { state with worker := .sleeping }
      else none

def rearmed (task : TimerTask) (now : ℤ) : TimerTask :=
  { task with expireTime := now + microseconds task.intervals }

def workerStep (state : State) : Option State :=
  match state.worker with
  | .stopped | .inspecting => none
  | .testLoop =>
      some { state with worker := if state.running then .inspecting else .stopped }
  | .sleeping => some { state with worker := .testLoop }
  | .calling task now =>
      some { state with
        executions := state.executions ++ [(task.callback, state.now)]
        worker := .executing task now }
  | .executing task now =>
      some { state with worker := if 0 < task.intervals then .reinserting task now else .testLoop }
  | .reinserting task now =>
      some { state with tasks := state.tasks ++ [rearmed task now], worker := .testLoop }

def step (state : State) : Action → Option State
  | .tick duration => some { state with now := state.now + duration }
  | .addTimer delayMs intervalMs => some (addTimerStep state delayMs intervalMs)
  | .push index => pushStep state index
  | .start =>
      if state.worker = .stopped then some { state with running := true, worker := .testLoop }
      else none
  | .stop => some { state with running := false }
  | .worker => workerStep state
  | .inspect top => if state.worker = .inspecting then inspectStep state top else none

def system (now : ℤ) : TransitionSystem State Action where
  initial := initial now
  step := step

/-- The times at which a callback started. -/
def State.startsOf (state : State) (callback : ℕ) : List ℤ :=
  entriesOf callback state.executions

/-- The earliest time of an execution after so many others. -/
def Call.due (call : Call) (earlier : ℕ) : ℤ :=
  call.addedAt + milliseconds call.delayMs + earlier * milliseconds call.intervalMs

def State.queued (state : State) : List TimerTask :=
  state.adding ++ state.tasks

/-! ## What a step of the worker does -/

section

variable {state next : State}

/-- The worker sleeps while no task has expired. -/
theorem inspectStep_cases {top : ℕ} (hstep : inspectStep state top = some next) :
    ((∀ task ∈ state.tasks, state.now < task.expireTime) ∧
      next = { state with worker := .sleeping }) ∨
    ∃ task, state.tasks[top]? = some task ∧
      (∀ other ∈ state.tasks, task.expireTime ≤ other.expireTime) ∧
      task.expireTime ≤ state.now ∧
      next = { state with
        tasks := state.tasks.eraseIdx top
        worker := .calling task state.now } := by
  unfold inspectStep at hstep
  cases hget : state.tasks[top]? with
  | none =>
      rw [hget] at hstep
      simp only [Option.ite_none_right_eq_some, Option.some.injEq] at hstep
      obtain ⟨hempty, rfl⟩ := hstep
      exact Or.inl ⟨by simp [hempty], rfl⟩
  | some task =>
      rw [hget] at hstep
      simp only [Option.ite_none_right_eq_some] at hstep
      obtain ⟨hfirst, hstep⟩ := hstep
      by_cases hexpired : task.expireTime ≤ state.now
      · rw [if_pos hexpired, Option.some.injEq] at hstep
        exact Or.inr ⟨task, rfl, hfirst, hexpired, hstep.symm⟩
      · rw [if_neg hexpired, Option.some.injEq] at hstep
        refine Or.inl ⟨?_, hstep.symm⟩
        intro other hother
        have hle := hfirst other hother
        omega

/-- What the worker does with its task. -/
inductive WorkerMove (state : State) : State → Prop where
  | idle {after : WorkerPhase} (hbefore : state.worker.held = []) (hafter : after.held = []) :
      WorkerMove state { state with worker := after }
  | call {task : TimerTask} {now : ℤ} (hworker : state.worker = .calling task now) :
      WorkerMove state { state with
        executions := state.executions ++ [(task.callback, state.now)]
        worker := .executing task now }
  | keep {task : TimerTask} {now : ℤ} (hworker : state.worker = .executing task now)
      (hperiodic : 0 < task.intervals) :
      WorkerMove state { state with worker := .reinserting task now }
  | drop {task : TimerTask} {now : ℤ} (hworker : state.worker = .executing task now)
      (honeShot : ¬ 0 < task.intervals) :
      WorkerMove state { state with worker := .testLoop }
  | reinsert {task : TimerTask} {now : ℤ} (hworker : state.worker = .reinserting task now) :
      WorkerMove state { state with
        tasks := state.tasks ++ [rearmed task now]
        worker := .testLoop }

theorem workerMove_of_workerStep (hstep : workerStep state = some next) :
    WorkerMove state next := by
  unfold workerStep at hstep
  cases hworker : state.worker with
  | stopped =>
      rw [hworker] at hstep
      cases hstep
  | inspecting =>
      rw [hworker] at hstep
      cases hstep
  | testLoop =>
      rw [hworker] at hstep
      cases hstep
      apply WorkerMove.idle
      · rw [hworker]
        rfl
      · split_ifs <;> rfl
  | sleeping =>
      rw [hworker] at hstep
      cases hstep
      exact .idle (by rw [hworker]; rfl) rfl
  | calling task now =>
      rw [hworker] at hstep
      cases hstep
      exact .call hworker
  | executing task now =>
      rw [hworker] at hstep
      by_cases hperiodic : 0 < task.intervals
      · simp only [if_pos hperiodic, Option.some.injEq] at hstep
        subst hstep
        exact .keep hworker hperiodic
      · simp only [if_neg hperiodic, Option.some.injEq] at hstep
        subst hstep
        exact .drop hworker hperiodic
  | reinserting task now =>
      rw [hworker] at hstep
      cases hstep
      exact .reinsert hworker

end

/-! ## No task is lost or doubled -/

def callbacks (tasks : List TimerTask) : List ℕ :=
  tasks.map TimerTask.callback

structure ConservationInvariant (state : State) : Prop where
  known : ∀ task ∈ state.queued ++ state.worker.held,
    ∃ call, state.calls[task.callback]? = some call ∧ task.intervals = call.intervalMs
  periodic : ∀ (callback : ℕ) call, state.calls[callback]? = some call → 0 < call.intervalMs →
    (callbacks (state.queued ++ state.worker.held)).count callback = 1
  oneShot : ∀ (callback : ℕ) call, state.calls[callback]? = some call → call.intervalMs ≤ 0 →
    (callbacks (state.queued ++ state.worker.uncalled)).count callback +
      (state.startsOf callback).length = 1
  started : ∀ entry ∈ state.executions, entry.1 < state.calls.length
  rearming : ∀ task now, state.worker = .reinserting task now → 0 < task.intervals

theorem initial_conservationInvariant (now : ℤ) : ConservationInvariant (initial now) := by
  constructor <;> simp [initial, State.queued, WorkerPhase.held]

theorem callbacks_append (before after : List TimerTask) :
    callbacks (before ++ after) = callbacks before ++ callbacks after :=
  List.map_append

theorem push_perm {tasks : List TimerTask} {index : ℕ} {task : TimerTask}
    (hget : tasks[index]? = some task) (others : List TimerTask) :
    (tasks.eraseIdx index ++ (others ++ [task])).Perm (tasks ++ others) := by
  obtain ⟨hlt, rfl⟩ := List.getElem?_eq_some_iff.mp hget
  have hperm := List.getElem_cons_eraseIdx_perm hlt
  calc
    (tasks.eraseIdx index ++ (others ++ [tasks[index]])).Perm
        (tasks.eraseIdx index ++ (tasks[index] :: others)) :=
      List.Perm.append_left _ List.perm_append_comm
    _ |>.Perm (tasks[index] :: (tasks.eraseIdx index ++ others)) := List.perm_middle
    _ |>.Perm (tasks ++ others) := List.Perm.append_right others hperm

namespace ConservationInvariant

variable {state next : State}

/-- Tasks that only change places are neither lost nor doubled. -/
theorem move (hinv : ConservationInvariant state) (hcalls : next.calls = state.calls)
    (hexecutions : next.executions = state.executions)
    (hheld : (next.queued ++ next.worker.held).Perm (state.queued ++ state.worker.held))
    (huncalled : (next.queued ++ next.worker.uncalled).Perm
      (state.queued ++ state.worker.uncalled))
    (hrearming : ∀ task now, next.worker = .reinserting task now → 0 < task.intervals) :
    ConservationInvariant next := by
  constructor
  · intro task hmem
    rw [hcalls]
    exact hinv.known task (hheld.mem_iff.mp hmem)
  · intro callback call hcall hpositive
    rw [hcalls] at hcall
    rw [callbacks, (hheld.map _).count_eq]
    exact hinv.periodic callback call hcall hpositive
  · intro callback call hcall hnonpositive
    rw [hcalls] at hcall
    rw [callbacks, (huncalled.map _).count_eq, State.startsOf, hexecutions]
    exact hinv.oneShot callback call hcall hnonpositive
  · rw [hexecutions, hcalls]
    exact hinv.started
  · exact hrearming

theorem moveWorker (hinv : ConservationInvariant state) (hheld : state.worker.held = [])
    {after : WorkerPhase} (hafter : after.held = []) (running : Bool) :
    ConservationInvariant { state with running := running, worker := after } := by
  have hbefore := WorkerPhase.uncalled_of_held hheld
  have hnone := WorkerPhase.uncalled_of_held hafter
  apply hinv.move
  · rfl
  · rfl
  · simp only [State.queued, hafter, hheld]
    exact List.Perm.refl _
  · simp only [State.queued, hnone, hbefore]
    exact List.Perm.refl _
  · rintro task now rfl
    cases hafter

theorem callback_lt (hinv : ConservationInvariant state) {task : TimerTask}
    (hmem : task ∈ state.queued ++ state.worker.held) : task.callback < state.calls.length := by
  obtain ⟨call, hcall, _⟩ := hinv.known task hmem
  exact (List.getElem?_eq_some_iff.mp hcall).1

theorem addTimer (hinv : ConservationInvariant state) (delayMs intervalMs : ℤ) :
    ConservationInvariant (addTimerStep state delayMs intervalMs) := by
  have hcount : ∀ (rest : List TimerTask) (callback : ℕ),
      (callbacks ((addTimerStep state delayMs intervalMs).queued ++ rest)).count callback =
        (callbacks (state.queued ++ rest)).count callback +
          if state.calls.length = callback then 1 else 0 := by
    intro rest callback
    simp only [addTimerStep, State.queued, callbacks, List.map_append,
      List.count_append, List.map_singleton, List.count_singleton, beq_iff_eq]
    omega
  have hold : ∀ (callback : ℕ) call,
      (state.calls ++ [⟨state.now, delayMs, intervalMs⟩])[callback]? = some call →
        state.calls[callback]? = some call ∧ state.calls.length ≠ callback ∨
          state.calls.length = callback := by
    intro callback call hcall
    rw [List.getElem?_append] at hcall
    split_ifs at hcall with hlt
    · exact Or.inl ⟨hcall, hlt.ne'⟩
    · have hlast := (List.getElem?_eq_some_iff.mp hcall).1
      rw [List.length_singleton] at hlast
      exact Or.inr (by omega)
  have hfresh : ∀ rest ⊆ state.worker.held,
      (callbacks (state.queued ++ rest)).count state.calls.length = 0 := by
    intro rest hrest
    rw [List.count_eq_zero]
    intro hmem
    obtain ⟨task, htask, heq⟩ := List.mem_map.mp hmem
    have hknown : task ∈ state.queued ++ state.worker.held := by
      rcases List.mem_append.mp htask with hqueued | hheld
      · exact List.mem_append_left _ hqueued
      · exact List.mem_append_right _ (hrest hheld)
    exact (hinv.callback_lt hknown).ne heq
  have huncalled : state.worker.uncalled ⊆ state.worker.held := by
    cases state.worker <;> simp [WorkerPhase.held, WorkerPhase.uncalled]
  have hnoStarts : state.startsOf state.calls.length = [] :=
    LabelledHistory.entriesOf_eq_nil fun entry hmem => (hinv.started entry hmem).ne
  constructor
  · intro task hmem
    by_cases hnew : task = ⟨state.now + milliseconds delayMs, state.calls.length, intervalMs⟩
    · subst hnew
      exact ⟨⟨state.now, delayMs, intervalMs⟩, by simp [addTimerStep], rfl⟩
    · have hbefore : task ∈ state.queued ++ state.worker.held := by
        simpa [addTimerStep, State.queued, hnew] using hmem
      obtain ⟨call, hcall, hintervals⟩ := hinv.known task hbefore
      exact ⟨call, ListUpdate.getElem?_append_of_eq_some hcall _, hintervals⟩
  · intro callback call hcall hpositive
    have hsum := hcount state.worker.held callback
    refine hsum.trans ?_
    rcases hold callback call hcall with ⟨hcall, hne⟩ | rfl
    · rw [if_neg hne, hinv.periodic callback call hcall hpositive]
    · rw [if_pos rfl, hfresh _ (List.Subset.refl _)]
  · intro callback call hcall hnonpositive
    have hsum := hcount state.worker.uncalled callback
    have hstarts : (addTimerStep state delayMs intervalMs).startsOf callback =
        state.startsOf callback := rfl
    rw [hstarts]
    rcases hold callback call hcall with ⟨hcall, hne⟩ | rfl
    · have hone := hinv.oneShot callback call hcall hnonpositive
      rw [if_neg hne] at hsum
      rw [← hone]
      exact congrArg (· + _) hsum
    · rw [if_pos rfl, hfresh _ huncalled] at hsum
      rw [hnoStarts, List.length_nil]
      exact hsum
  · intro entry hmem
    have hlt := hinv.started entry hmem
    simp only [addTimerStep, List.length_append, List.length_singleton]
    omega
  · exact hinv.rearming

theorem push (hinv : ConservationInvariant state) {index : ℕ}
    (hstep : pushStep state index = some next) : ConservationInvariant next := by
  rw [pushStep, Option.map_eq_some_iff] at hstep
  obtain ⟨task, hget, rfl⟩ := hstep
  have hperm := push_perm hget state.tasks
  exact hinv.move rfl rfl (List.Perm.append_right _ hperm) (List.Perm.append_right _ hperm)
    hinv.rearming

theorem inspect (hinv : ConservationInvariant state) (hworker : state.worker = .inspecting)
    {top : ℕ} (hstep : inspectStep state top = some next) : ConservationInvariant next := by
  have hheld : state.worker.held = [] := by rw [hworker]; rfl
  have huncalled : state.worker.uncalled = [] := by rw [hworker]; rfl
  rcases inspectStep_cases hstep with ⟨_, rfl⟩ | ⟨task, hget, _, _, rfl⟩
  · exact hinv.moveWorker hheld (rfl : WorkerPhase.sleeping.held = []) state.running
  · have hperm : (state.adding ++ state.tasks.eraseIdx top ++ [task]).Perm
        (state.adding ++ state.tasks ++ []) := by
      rw [List.append_assoc, List.append_assoc, List.append_nil]
      apply List.Perm.append_left
      simpa using push_perm hget []
    apply hinv.move
    · rfl
    · rfl
    · rw [hheld]
      exact hperm
    · rw [huncalled]
      exact hperm
    · intro other now hother
      cases hother

theorem call (hinv : ConservationInvariant state) {task : TimerTask} {now : ℤ}
    (hworker : state.worker = .calling task now) :
    ConservationInvariant { state with
      executions := state.executions ++ [(task.callback, state.now)]
      worker := .executing task now } := by
  have hheld : state.worker.held = [task] := by rw [hworker]; rfl
  have huncalled : state.worker.uncalled = [task] := by rw [hworker]; rfl
  constructor
  · have hknown := hinv.known
    rwa [hheld] at hknown
  · have hperiodic := hinv.periodic
    rwa [hheld] at hperiodic
  · intro callback other hother hnonpositive
    have hone := hinv.oneShot callback other hother hnonpositive
    rw [huncalled, callbacks_append, List.count_append] at hone
    by_cases heq : task.callback = callback
    · subst heq
      simp only [State.startsOf, LabelledHistory.entriesOf_append_self, WorkerPhase.uncalled,
        List.append_nil, List.length_append, List.length_singleton]
      simp only [callbacks, List.map_cons, List.map_nil, List.count_singleton_self] at hone
      simp only [State.startsOf, callbacks, State.queued] at hone ⊢
      omega
    · simp only [State.startsOf, LabelledHistory.entriesOf_append_of_ne heq, WorkerPhase.uncalled,
        List.append_nil]
      simp only [callbacks, List.map_cons, List.map_nil, List.count_singleton, beq_iff_eq,
        if_neg heq] at hone
      exact hone
  · exact LabelledHistory.labels_lt_append hinv.started
      (hinv.callback_lt (List.mem_append_right _ (by simp [hheld]))) state.now
  · intro other reading hother
    cases hother

theorem drop (hinv : ConservationInvariant state) {task : TimerTask} {now : ℤ}
    (hworker : state.worker = .executing task now) (honeShot : ¬ 0 < task.intervals) :
    ConservationInvariant { state with worker := .testLoop } := by
  have hheld : state.worker.held = [task] := by rw [hworker]; rfl
  have huncalled : state.worker.uncalled = [] := by rw [hworker]; rfl
  obtain ⟨own, hown, hintervals⟩ :=
    hinv.known task (List.mem_append_right _ (by simp [hheld]))
  constructor
  · intro other hmem
    apply hinv.known other
    simp only [WorkerPhase.held, List.append_nil] at hmem
    exact List.mem_append_left _ hmem
  · intro callback call hcall hpositive
    have hone := hinv.periodic callback call hcall hpositive
    have hne : task.callback ≠ callback := by
      rintro rfl
      rw [hown, Option.some.injEq] at hcall
      rw [hintervals, hcall] at honeShot
      exact honeShot hpositive
    rw [hheld, callbacks_append, List.count_append] at hone
    simp only [callbacks, List.map_cons, List.map_nil, List.count_singleton, beq_iff_eq,
      if_neg hne] at hone
    simpa [WorkerPhase.held, callbacks, State.queued] using hone
  · have honce := hinv.oneShot
    rwa [huncalled] at honce
  · exact hinv.started
  · intro other reading hother
    cases hother

theorem reinsert (hinv : ConservationInvariant state) {task : TimerTask} {now : ℤ}
    (hworker : state.worker = .reinserting task now) :
    ConservationInvariant { state with
      tasks := state.tasks ++ [rearmed task now]
      worker := .testLoop } := by
  have hheld : state.worker.held = [task] := by rw [hworker]; rfl
  have huncalled : state.worker.uncalled = [] := by rw [hworker]; rfl
  have hpositive := hinv.rearming task now hworker
  obtain ⟨own, hown, hintervals⟩ :=
    hinv.known task (List.mem_append_right _ (by simp [hheld]))
  have hcallbacks : callbacks (state.adding ++ (state.tasks ++ [rearmed task now]) ++ []) =
      callbacks (state.queued ++ [task]) := by
    simp [callbacks, State.queued, rearmed]
  constructor
  · intro other hmem
    simp only [State.queued, WorkerPhase.held, List.append_nil, List.mem_append,
      List.mem_singleton] at hmem
    rcases hmem with hadding | htasks | rfl
    · exact hinv.known other (by simp [State.queued, hadding])
    · exact hinv.known other (by simp [State.queued, htasks])
    · exact ⟨own, hown, hintervals⟩
  · have hperiodic := hinv.periodic
    rw [hheld] at hperiodic
    intro callback call hcall hinterval
    exact (congrArg (List.count callback) hcallbacks).trans
      (hperiodic callback call hcall hinterval)
  · intro callback call hcall hnonpositive
    have hone := hinv.oneShot callback call hcall hnonpositive
    have hne : task.callback ≠ callback := by
      rintro rfl
      rw [hown, Option.some.injEq] at hcall
      rw [hintervals, hcall] at hpositive
      omega
    have hcount : (callbacks (state.queued ++ [task])).count callback =
        (callbacks (state.queued ++ [])).count callback := by
      simp [callbacks, hne]
    rw [huncalled, ← hcount, ← hcallbacks] at hone
    exact hone
  · exact hinv.started
  · intro other reading hother
    cases hother

theorem worker (hinv : ConservationInvariant state) (hstep : workerStep state = some next) :
    ConservationInvariant next := by
  cases workerMove_of_workerStep hstep with
  | idle hbefore hafter => exact hinv.moveWorker hbefore hafter state.running
  | call hworker => exact hinv.call hworker
  | keep hworker hperiodic =>
      apply hinv.move
      · rfl
      · rfl
      · rw [hworker]
        exact List.Perm.refl _
      · rw [hworker]
        exact List.Perm.refl _
      · rintro other reading ⟨⟩
        exact hperiodic
  | drop hworker honeShot => exact hinv.drop hworker honeShot
  | reinsert hworker => exact hinv.reinsert hworker

theorem step (hinv : ConservationInvariant state) {action : Action}
    (hstep : step state action = some next) : ConservationInvariant next := by
  cases action with
  | tick duration =>
      cases hstep
      exact hinv.move rfl rfl (List.Perm.refl _) (List.Perm.refl _) hinv.rearming
  | addTimer delayMs intervalMs =>
      cases hstep
      exact hinv.addTimer delayMs intervalMs
  | push index => exact hinv.push hstep
  | start =>
      simp only [PriorityTimerManager.step, Option.ite_none_right_eq_some] at hstep
      obtain ⟨hworker, ⟨⟩⟩ := hstep
      exact hinv.moveWorker (by rw [hworker]; rfl) rfl true
  | stop =>
      cases hstep
      exact hinv.move rfl rfl (List.Perm.refl _) (List.Perm.refl _) hinv.rearming
  | worker => exact hinv.worker hstep
  | inspect top =>
      simp only [PriorityTimerManager.step, Option.ite_none_right_eq_some] at hstep
      obtain ⟨hworker, hstep⟩ := hstep
      exact hinv.inspect hworker hstep

theorem run (hinv : ConservationInvariant state) {now : ℤ} {actions : List Action}
    (hrun : (system now).run state actions = some next) : ConservationInvariant next :=
  TransitionSystem.run_preserves ConservationInvariant (fun _ _ _ hs hstep => hs.step hstep) hinv
    hrun

end ConservationInvariant

end CppProj.PriorityTimerManager
