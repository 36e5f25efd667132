import CppProj.PriorityTimerManager
import Mathlib.Data.Finset.Max

/-!
# The times of the `TimerManager`

Each execution of a periodic task is to come an interval of milliseconds after
the one before; the task is armed again with as many microseconds.  A run keeps
the times as long as the tasks that are put in again are late by that much
already.
-/

namespace CppProj.PriorityTimerManager

/-- The task expires, or the clock stands, at the time when its next execution is due
or later. -/
def NotEarly (state : State) (task : TimerTask) : Prop :=
  ∀ call ∈ state.calls[task.callback]?,
    call.due (state.startsOf task.callback).length ≤ max task.expireTime state.now

instance (state : State) (task : TimerTask) : Decidable (NotEarly state task) :=
  inferInstanceAs (Decidable (∀ call ∈ state.calls[task.callback]?, _))

/-- No task is put in again for a time before its next execution is due. -/
def RearmedLate (state : State) : Action → Prop
  | .worker =>
      match state.worker with
      | .reinserting task now => NotEarly state (rearmed task now)
      | _ => True
  | _ => True

instance (state : State) (action : Action) : Decidable (RearmedLate state action) :=
  match action, state with
  | .worker, ⟨_, _, _, _, _, .reinserting _ _, _⟩ => inferInstanceAs (Decidable (NotEarly _ _))
  | .worker, ⟨_, _, _, _, _, .stopped, _⟩ | .worker, ⟨_, _, _, _, _, .testLoop, _⟩
  | .worker, ⟨_, _, _, _, _, .inspecting, _⟩ | .worker, ⟨_, _, _, _, _, .sleeping, _⟩
  | .worker, ⟨_, _, _, _, _, .calling _ _, _⟩ | .worker, ⟨_, _, _, _, _, .executing _ _, _⟩
  | .tick _, _ | .addTimer _ _, _ | .push _, _ | .start, _ | .stop, _ | .inspect _, _ =>
      isTrue trivial

structure TimingInvariant (state : State) : Prop where
  queued : ∀ task ∈ state.queued, NotEarly state task
  calling : ∀ task now, state.worker = .calling task now →
    ∀ call, state.calls[task.callback]? = some call →
      call.due (state.startsOf task.callback).length ≤ state.now
  starts : ∀ (callback earlier : ℕ) call start, state.calls[callback]? = some call →
    (state.startsOf callback)[earlier]? = some start → call.due earlier ≤ start

theorem initial_timingInvariant (now : ℤ) : TimingInvariant (initial now) := by
  constructor <;> simp [initial, State.queued, State.startsOf]

namespace ConservationInvariant

variable {state : State}

theorem ne_of_calling (hinv : ConservationInvariant state) {task : TimerTask} {now : ℤ}
    (hworker : state.worker = .calling task now) {other : TimerTask}
    (hmem : other ∈ state.queued) : other.callback ≠ task.callback := by
  have hheld : state.worker.held = [task] := by rw [hworker]; rfl
  have huncalled : state.worker.uncalled = [task] := by rw [hworker]; rfl
  obtain ⟨call, hcall, _⟩ := hinv.known task (List.mem_append_right _ (by simp [hheld]))
  have hone : (callbacks (state.queued ++ [task])).count task.callback ≤ 1 := by
    by_cases hpositive : 0 < call.intervalMs
    · have hperiodic := hinv.periodic task.callback call hcall hpositive
      rw [hheld] at hperiodic
      exact hperiodic.le
    · have honce := hinv.oneShot task.callback call hcall (by omega)
      rw [huncalled] at honce
      omega
  intro heq
  have hqueued : 0 < (callbacks state.queued).count task.callback := by
    rw [List.count_pos_iff, ← heq]
    exact List.mem_map_of_mem hmem
  rw [callbacks_append, List.count_append] at hone
  simp only [callbacks, List.map_cons, List.map_nil, List.count_singleton_self] at hone hqueued
  omega

end ConservationInvariant

namespace TimingInvariant

variable {state next : State}

theorem move (htiming : TimingInvariant state) (hcalls : next.calls = state.calls)
    (hexecutions : next.executions = state.executions) (hnow : state.now ≤ next.now)
    (hqueued : next.queued ⊆ state.queued)
    (hcalling : ∀ task now, next.worker = .calling task now →
      state.worker = .calling task now ∨
        task ∈ state.queued ∧ task.expireTime ≤ state.now) :
    TimingInvariant next := by
  have hstarts : ∀ callback, next.startsOf callback = state.startsOf callback := by
    intro callback
    rw [State.startsOf, hexecutions]
    rfl
  constructor
  · intro task hmem call hcall
    rw [hcalls] at hcall
    have hearly := htiming.queued task (hqueued hmem) call hcall
    rw [hstarts]
    exact hearly.trans (max_le_max (le_refl _) hnow)
  · intro task now hworker call hcall
    rw [hcalls] at hcall
    rw [hstarts]
    rcases hcalling task now hworker with hbefore | ⟨hmem, hexpired⟩
    · exact (htiming.calling task now hbefore call hcall).trans hnow
    · have hearly := htiming.queued task hmem call hcall
      rw [max_eq_right hexpired] at hearly
      exact hearly.trans hnow
  · intro callback earlier call start hcall hstart
    rw [hcalls] at hcall
    rw [hstarts] at hstart
    exact htiming.starts callback earlier call start hcall hstart

theorem moveWorker (htiming : TimingInvariant state) {after : WorkerPhase}
    (hafter : after.uncalled = []) (running : Bool) :
    TimingInvariant { state with running := running, worker := after } := by
  apply htiming.move
  · rfl
  · rfl
  · exact le_refl _
  · exact List.Subset.refl _
  · rintro task now rfl
    cases hafter

theorem addTimer (htiming : TimingInvariant state) (hinv : ConservationInvariant state)
    (delayMs intervalMs : ℤ) : TimingInvariant (addTimerStep state delayMs intervalMs) := by
  have hold : ∀ (callback : ℕ) call, callback < state.calls.length →
      (addTimerStep state delayMs intervalMs).calls[callback]? = some call →
        state.calls[callback]? = some call := by
    intro callback call hlt hcall
    rwa [addTimerStep, List.getElem?_append_left hlt] at hcall
  have hnoStarts : state.startsOf state.calls.length = [] :=
    LabelledHistory.entriesOf_eq_nil fun entry hmem => (hinv.started entry hmem).ne
  constructor
  · intro task hmem call hcall
    by_cases hnew : task = ⟨state.now + milliseconds delayMs, state.calls.length, intervalMs⟩
    · subst hnew
      simp only [addTimerStep, List.getElem?_concat_length] at hcall
      cases hcall
      have hdue : (addTimerStep state delayMs intervalMs).startsOf state.calls.length = [] :=
        hnoStarts
      rw [hdue]
      simp [Call.due]
    · have hbefore : task ∈ state.queued := by
        simpa [addTimerStep, State.queued, hnew] using hmem
      have hlt := hinv.callback_lt (List.mem_append_left _ hbefore)
      exact htiming.queued task hbefore call (hold _ call hlt hcall)
  · intro task now hworker call hcall
    have hheld : task ∈ state.queued ++ state.worker.held := by
      apply List.mem_append_right
      have hsame : state.worker = .calling task now := hworker
      simp [hsame, WorkerPhase.held]
    exact htiming.calling task now hworker call (hold _ call (hinv.callback_lt hheld) hcall)
  · intro callback earlier call start hcall hstart
    have hmem : (callback, start) ∈ state.executions :=
      LabelledHistory.mem_entriesOf.mp (List.mem_of_getElem? hstart)
    exact htiming.starts callback earlier call start
      (hold callback call (hinv.started _ hmem) hcall) hstart

/-- The start is not early, and no other task of the callback waits. -/
theorem call (htiming : TimingInvariant state) (hinv : ConservationInvariant state)
    {task : TimerTask} {now : ℤ} (hworker : state.worker = .calling task now) :
    TimingInvariant { state with
      executions := state.executions ++ [(task.callback, state.now)]
      worker := .executing task now } := by
  constructor
  · intro other hmem call hcall
    have hne := hinv.ne_of_calling hworker hmem
    have hearly := htiming.queued other hmem call hcall
    simp only [State.startsOf, LabelledHistory.entriesOf_append_of_ne hne.symm] at hearly ⊢
    exact hearly
  · intro other reading hother
    cases hother
  · intro callback earlier call start hcall hstart
    by_cases heq : task.callback = callback
    · subst heq
      simp only [State.startsOf, LabelledHistory.entriesOf_append_self] at hstart
      rw [List.getElem?_append] at hstart
      split_ifs at hstart with hlt
      · exact htiming.starts _ earlier call start hcall hstart
      · obtain ⟨hlast, hvalue⟩ := List.getElem?_eq_some_iff.mp hstart
        rw [List.length_singleton] at hlast
        have hearlier : earlier = (state.startsOf task.callback).length := by
          rw [State.startsOf]
          omega
        simp only [List.getElem_singleton] at hvalue
        rw [hearlier, ← hvalue]
        exact htiming.calling task now hworker call hcall
    · simp only [State.startsOf, LabelledHistory.entriesOf_append_of_ne heq] at hstart
      exact htiming.starts callback earlier call start hcall hstart

theorem reinsert (htiming : TimingInvariant state) {task : TimerTask} {now : ℤ}
    (hlate : NotEarly state (rearmed task now)) :
    TimingInvariant { state with
      tasks := state.tasks ++ [rearmed task now]
      worker := .testLoop } := by
  constructor
  · intro other hmem
    simp only [State.queued, List.mem_append, List.mem_singleton] at hmem
    rcases hmem with hadding | htasks | rfl
    · exact htiming.queued other (List.mem_append_left _ hadding)
    · exact htiming.queued other (List.mem_append_right _ htasks)
    · exact hlate
  · intro other reading hother
    cases hother
  · exact htiming.starts

theorem push (htiming : TimingInvariant state) {index : ℕ}
    (hstep : pushStep state index = some next) : TimingInvariant next := by
  rw [pushStep, Option.map_eq_some_iff] at hstep
  obtain ⟨task, hget, rfl⟩ := hstep
  exact htiming.move rfl rfl (le_refl _) (push_perm hget state.tasks).subset
    fun _ _ hworker => Or.inl hworker

theorem inspect (htiming : TimingInvariant state) {top : ℕ}
    (hstep : inspectStep state top = some next) : TimingInvariant next := by
  rcases inspectStep_cases hstep with ⟨_, rfl⟩ | ⟨task, hget, _, hexpired, rfl⟩
  · exact htiming.moveWorker (rfl : WorkerPhase.sleeping.uncalled = []) state.running
  · apply htiming.move
    · rfl
    · rfl
    · exact le_refl _
    · intro other hmem
      rcases List.mem_append.mp hmem with hadding | htasks
      · exact List.mem_append_left _ hadding
      · exact List.mem_append_right _ (List.mem_of_mem_eraseIdx htasks)
    · rintro other now ⟨⟩
      exact Or.inr ⟨List.mem_append_right _ (List.mem_of_getElem? hget), hexpired⟩

theorem worker (htiming : TimingInvariant state) (hinv : ConservationInvariant state)
    (hlate : RearmedLate state .worker) (hstep : workerStep state = some next) :
    TimingInvariant next := by
  cases workerMove_of_workerStep hstep with
  | idle _ hafter => exact htiming.moveWorker (WorkerPhase.uncalled_of_held hafter) state.running
  | call hworker => exact htiming.call hinv hworker
  | keep => exact htiming.moveWorker rfl state.running
  | drop => exact htiming.moveWorker rfl state.running
  | reinsert hworker =>
      apply htiming.reinsert
      simpa only [RearmedLate, hworker] using hlate

theorem step (htiming : TimingInvariant state) (hinv : ConservationInvariant state)
    {action : Action} (hlate : RearmedLate state action)
    (hstep : step state action = some next) : TimingInvariant next := by
  cases action with
  | tick duration =>
      cases hstep
      have hlater : state.now ≤ state.now + duration := by omega
      exact htiming.move rfl rfl hlater (List.Subset.refl _) fun _ _ hworker => Or.inl hworker
  | addTimer delayMs intervalMs =>
      cases hstep
      exact htiming.addTimer hinv delayMs intervalMs
  | push index => exact htiming.push hstep
  | start =>
      simp only [PriorityTimerManager.step, Option.ite_none_right_eq_some] at hstep
      obtain ⟨_, ⟨⟩⟩ := hstep
      exact htiming.moveWorker rfl true
  | stop =>
      cases hstep
      exact htiming.move rfl rfl (le_refl _) (List.Subset.refl _)
        fun _ _ hworker => Or.inl hworker
  | worker => exact htiming.worker hinv hlate hstep
  | inspect top =>
      simp only [PriorityTimerManager.step, Option.ite_none_right_eq_some] at hstep
      exact htiming.inspect hstep.2

end TimingInvariant

/-- A one-shot task starts once at most, no execution starts early, and a periodic
task that has been pushed is in the queue once or in the hands of the worker. -/
structure KeepsTimes (state : State) : Prop where
  oneShot : ∀ (callback : ℕ) call, state.calls[callback]? = some call → call.intervalMs ≤ 0 →
    (state.startsOf callback).length ≤ 1
  starts : ∀ (callback earlier : ℕ) call start, state.calls[callback]? = some call →
    (state.startsOf callback)[earlier]? = some start → call.due earlier ≤ start
  periodic : ∀ (callback : ℕ) call, state.calls[callback]? = some call → 0 < call.intervalMs →
    callback ∉ callbacks state.adding →
      (callbacks state.tasks).count callback + (callbacks state.worker.held).count callback = 1

theorem ConservationInvariant.keepsAllTimes {state : State} (hinv : ConservationInvariant state)
    (htiming : TimingInvariant state) : KeepsTimes state := by
  constructor
  · intro callback call hcall hnonpositive
    have hone := hinv.oneShot callback call hcall hnonpositive
    omega
  · exact htiming.starts
  · intro callback call hcall hpositive hadded
    have hone := hinv.periodic callback call hcall hpositive
    rw [callbacks_append, State.queued, callbacks_append, List.count_append, List.count_append,
      List.count_eq_zero.mpr hadded] at hone
    omega

theorem keepsTimes {now : ℤ} {state : State}
    (hreach : (system now).ReachableMeeting RearmedLate state) : KeepsTimes state := by
  have hinvariants : ConservationInvariant state ∧ TimingInvariant state := by
    apply hreach.invariant fun s => ConservationInvariant s ∧ TimingInvariant s
    · exact ⟨initial_conservationInvariant now, initial_timingInvariant now⟩
    · intro s action t hs hlate hstep
      exact ⟨hs.1.step hstep, hs.2.step hs.1 hlate hstep⟩
  exact hinvariants.1.keepsAllTimes hinvariants.2

/-! ## A task that is put in again too early -/

theorem exists_top {tasks : List TimerTask} (hne : tasks ≠ []) :
    ∃ (top : ℕ) (task : TimerTask), tasks[top]? = some task ∧
      ∀ other ∈ tasks, task.expireTime ≤ other.expireTime := by
  obtain ⟨task, hmem, hfirst⟩ := Finset.exists_min_image tasks.toFinset TimerTask.expireTime
    (List.toFinset_nonempty_iff tasks |>.mpr hne)
  obtain ⟨top, hget⟩ := List.mem_iff_getElem?.mp (List.mem_toFinset.mp hmem)
  exact ⟨top, task, hget, fun other hother => hfirst other (List.mem_toFinset.mpr hother)⟩

/-- From the test of its loop the worker goes on to take out the task that expires
first. -/
theorem run_take (now : ℤ) {state : State} (hworker : state.worker = .testLoop)
    (hrunning : state.running = true) {top : ℕ} {task : TimerTask}
    (hget : state.tasks[top]? = some task)
    (hfirst : ∀ other ∈ state.tasks, task.expireTime ≤ other.expireTime)
    (hexpired : task.expireTime ≤ state.now) :
    (system now).run state [.worker, .inspect top] = some { state with
      tasks := state.tasks.eraseIdx top
      worker := .calling task state.now } := by
  have htest : step state .worker = some { state with worker := .inspecting } := by
    simp [step, workerStep, hworker, hrunning]
  have hinspect : step { state with worker := .inspecting } (.inspect top) = some { state with
      tasks := state.tasks.eraseIdx top
      worker := .calling task state.now } := by
    simp only [step, inspectStep, hget, if_pos hfirst, if_pos hexpired, if_true]
  exact TransitionSystem.run_cons_eq_some.mpr
    ⟨_, htest, TransitionSystem.run_cons_eq_some.mpr ⟨_, hinspect, rfl⟩⟩

theorem run_call {now reading : ℤ} {state : State} {task : TimerTask}
    (hworker : state.worker = .calling task reading) :
    (system now).run state [.worker] = some { state with
      executions := state.executions ++ [(task.callback, state.now)]
      worker := .executing task reading } := by
  simp [TransitionSystem.run, system, step, workerStep, hworker]

theorem run_return (now : ℤ) {reading : ℤ} {state : State} {task : TimerTask}
    (hworker : state.worker = .executing task reading) :
    ∃ actions more, (system now).run state actions = some { state with
        tasks := state.tasks ++ more
        worker := .testLoop } ∧
      ∀ other ∈ more, reading < other.expireTime := by
  by_cases hpositive : 0 < task.intervals
  · refine ⟨[.worker, .worker], [rearmed task reading], ?_, ?_⟩
    · simp [TransitionSystem.run, system, step, workerStep, hworker, hpositive]
    · intro other hmem
      rw [List.mem_singleton] at hmem
      subst hmem
      simp only [rearmed, microseconds]
      omega
  · refine ⟨[.worker], [], ?_, by simp⟩
    simp [TransitionSystem.run, system, step, workerStep, hworker, hpositive]

/-- While the clock stands, the tasks that expire before the given one are called, and
then the task itself.  The induction is on their number: a task that is put in
again expires later than the clock stands. -/
theorem exists_execution {now : ℤ} (before : ℕ) {state : State}
    (hinv : ConservationInvariant state) (hworker : state.worker = .testLoop)
    (hrunning : state.running = true) {task : TimerTask} (hmem : task ∈ state.tasks)
    (hexpired : task.expireTime ≤ state.now)
    (hbefore : state.tasks.countP (fun other => decide (other.expireTime < task.expireTime)) =
      before) :
    ∃ actions final, (system now).run state actions = some final ∧ final.calls = state.calls ∧
      final.startsOf task.callback = state.startsOf task.callback ++ [state.now] := by
  induction before generalizing state with
  | zero =>
      obtain ⟨top, hget⟩ := List.mem_iff_getElem?.mp hmem
      have hfirst : ∀ other ∈ state.tasks, task.expireTime ≤ other.expireTime := by
        intro other hother
        have hnot := List.countP_eq_zero.mp hbefore other hother
        simpa using hnot
      have htake := run_take now hworker hrunning hget hfirst hexpired
      refine ⟨_, _, TransitionSystem.run_append_eq_some.mpr ⟨_, htake, run_call rfl⟩, rfl, ?_⟩
      exact LabelledHistory.entriesOf_append_self _ _ _
  | succ before ih =>
      have hpositive : 0 < state.tasks.countP
          (fun other => decide (other.expireTime < task.expireTime)) := by
        rw [hbefore]
        exact Nat.succ_pos before
      obtain ⟨earlier, hearlier, hlt⟩ := List.countP_pos_iff.mp hpositive
      obtain ⟨top, first, hget, hfirst⟩ := exists_top (List.ne_nil_of_mem hmem)
      have hfirstLt : first.expireTime < task.expireTime :=
        lt_of_le_of_lt (hfirst earlier hearlier) (by simpa using hlt)
      have htake := run_take now hworker hrunning hget hfirst (by omega)
      have hkept : task ∈ state.tasks.eraseIdx top := by
        apply (ListUpdate.eq_or_mem_eraseIdx hget hmem).resolve_left
        rintro rfl
        exact lt_irrefl _ hfirstLt
      have hne : task.callback ≠ first.callback := by
        exact (hinv.run htake).ne_of_calling rfl (List.mem_append_right _ hkept)
      obtain ⟨actions, more, hreturn, hmore⟩ := run_return now (rfl : State.worker { state with
        tasks := state.tasks.eraseIdx top
        executions := state.executions ++ [(first.callback, state.now)]
        worker := .executing first state.now } = _)
      have hround := TransitionSystem.run_append_eq_some.mpr
        ⟨_, TransitionSystem.run_append_eq_some.mpr ⟨_, htake, run_call rfl⟩, hreturn⟩
      have hnext := hinv.run hround
      have hcount : (state.tasks.eraseIdx top ++ more).countP
          (fun other => decide (other.expireTime < task.expireTime)) = before := by
        obtain ⟨hindex, rfl⟩ := List.getElem?_eq_some_iff.mp hget
        have hperm := (List.getElem_cons_eraseIdx_perm hindex).countP_eq
          (fun other => decide (other.expireTime < task.expireTime))
        have hlater :
            more.countP (fun other => decide (other.expireTime < task.expireTime)) = 0 := by
          rw [List.countP_eq_zero]
          intro other hother
          have hafter := hmore other hother
          simp only [decide_eq_true_eq]
          omega
        rw [List.countP_cons_of_pos (by simpa using hfirstLt), hbefore] at hperm
        rw [List.countP_append, hlater]
        omega
      obtain ⟨rest, final, hrest, hcalls, hstarts⟩ :=
        ih hnext rfl hrunning (List.mem_append_left _ hkept) hexpired hcount
      refine ⟨_, final, TransitionSystem.run_append_eq_some.mpr ⟨_, hround, hrest⟩, hcalls, ?_⟩
      rw [hstarts, State.startsOf, State.startsOf]
      simp only [LabelledHistory.entriesOf_append_of_ne hne.symm]

theorem run_restart (now : ℤ) {state : State} (hworker : state.worker = .testLoop) :
    ∃ actions, (system now).run state actions = some { state with running := true } := by
  by_cases hrunning : state.running = true
  · refine ⟨[], ?_⟩
    rw [TransitionSystem.run_nil, ← hrunning]
  · refine ⟨[.worker, .start], ?_⟩
    simp [TransitionSystem.run, system, step, workerStep, hworker, hrunning]

/-- Where a task is put in again for too early a time, a run goes on to call it too
early. -/
theorem not_keepsTimes_of_not_rearmedLate {now : ℤ} {state : State}
    (hreach : (system now).Reachable state) (hearly : ¬ RearmedLate state .worker) :
    ∃ actions final, (system now).run state actions = some final ∧ ¬ KeepsTimes final := by
  have hinv : ConservationInvariant state :=
    (initial_conservationInvariant now).run hreach.choose_spec
  cases hworker : state.worker with
  | reinserting task reading =>
      simp only [RearmedLate, hworker, NotEarly, not_forall, not_le] at hearly
      obtain ⟨call, hcall, hdue⟩ := hearly
      rw [max_lt_iff] at hdue
      have hreinsert : (system now).step state .worker = some { state with
          tasks := state.tasks ++ [rearmed task reading]
          worker := .testLoop } := by
        simp [system, step, workerStep, hworker]
      -- The clock moves on to the time for which the task is armed.
      let wait : ℕ := ((rearmed task reading).expireTime - state.now).toNat
      have hwait : (rearmed task reading).expireTime ≤ state.now + wait := by omega
      have hclock : state.now + wait < call.due (state.startsOf task.callback).length := by
        have hcallback : (rearmed task reading).callback = task.callback := rfl
        rw [hcallback] at hdue
        omega
      obtain ⟨restart, hrestart⟩ := run_restart now (rfl : State.worker { state with
        now := state.now + wait
        tasks := state.tasks ++ [rearmed task reading]
        worker := .testLoop } = _)
      have hready := TransitionSystem.run_cons_eq_some.mpr ⟨_, hreinsert,
        TransitionSystem.run_cons_eq_some.mpr ⟨_, (rfl : (system now).step _ (.tick wait) = _),
          hrestart⟩⟩
      obtain ⟨actions, final, hrun, hcalls, hstarts⟩ :=
        exists_execution _ (hinv.run hready) rfl rfl (List.mem_append_right _ (by simp)) hwait rfl
      refine ⟨_, final, TransitionSystem.run_append_eq_some.mpr ⟨_, hready, hrun⟩, ?_⟩
      intro hkeeps
      have hstart : (final.startsOf task.callback)[(state.startsOf task.callback).length]? =
          some (state.now + wait) := by
        have hafter : final.startsOf task.callback =
            state.startsOf task.callback ++ [state.now + wait] := hstarts
        rw [hafter, List.getElem?_concat_length]
      have hfinal : final.calls[task.callback]? = some call := by
        rw [hcalls]
        exact hcall
      have hle := hkeeps.starts task.callback _ call _ hfinal hstart
      omega
  | stopped => simp [RearmedLate, hworker] at hearly
  | testLoop => simp [RearmedLate, hworker] at hearly
  | inspecting => simp [RearmedLate, hworker] at hearly
  | sleeping => simp [RearmedLate, hworker] at hearly
  | calling task reading => simp [RearmedLate, hworker] at hearly
  | executing task reading => simp [RearmedLate, hworker] at hearly

/-- The first execution takes as long as the interval of 1 ms. -/
def slowCallback : List Action :=
  [.addTimer 0 1, .push 0, .start, .worker, .inspect 0, .worker, .tick 1000000, .worker, .worker,
    .worker, .inspect 0, .worker]

theorem keepsTimes_slowCallback :
    ∃ final, (system 0).run (initial 0) slowCallback = some final ∧
      final.startsOf 0 = [0, 1000000] ∧ KeepsTimes final :=
  ⟨_, rfl, rfl, keepsTimes ⟨slowCallback, rfl,
    (by decide : (system 0).StepsMeet RearmedLate (initial 0) slowCallback)⟩⟩

/-- The periodic timer of `main`: the second execution starts 1 ms after the first,
and is due a second after it. -/
theorem second_execution_early :
    ∃ final, (system 0).run (initial 0)
        [.addTimer 1000 1000, .push 0, .start, .tick 1000000000, .worker, .inspect 0, .worker,
          .worker, .worker, .tick 1000000, .worker, .inspect 0, .worker] = some final ∧
      final.calls = [⟨0, 1000, 1000⟩] ∧ final.startsOf 0 = [1000000000, 1001000000] ∧
      Call.due ⟨0, 1000, 1000⟩ 1 = 2000000000 ∧ ¬ KeepsTimes final := by
  refine ⟨_, rfl, rfl, rfl, rfl, ?_⟩
  intro hkeeps
  exact absurd (hkeeps.starts 0 1 ⟨0, 1000, 1000⟩ 1001000000 rfl rfl) (by decide)

end CppProj.PriorityTimerManager
