import CppProj.TaskQueuePool

/-!
# The pool ends with an empty queue

When no thread can take a step, the mutex is free and every worker sleeps or has
exited.  A sleeper would mean that all items are taken, so that every worker has
had its sentinel, which a sleeping worker has not.
-/

namespace CppProj.TaskQueue

variable {workers : ℕ} {tasks : List ℤ} {state : State}

/-! ## A stuck pool -/

theorem Stuck.worker (hstuck : Stuck state) {index : ℕ} {phase : WorkerPhase}
    (hget : state.workers[index]? = some phase) : workerStep state index phase = none := by
  have hnone := hstuck (.worker index) (by simp)
  rwa [step, hget, Option.bind_some] at hnone

theorem Stuck.main (hstuck : Stuck state) : mainStep state = none :=
  hstuck .main (by simp)

namespace PoolInvariant

theorem mutexFree_of_stuck (hinv : PoolInvariant workers tasks state) (hstuck : Stuck state) :
    state.mutexFree = true := by
  rw [State.mutexFree, Bool.and_eq_true, Bool.not_eq_true', noneHolds_iff]
  constructor
  · have hmain := hstuck.main
    cases hphase : state.main with
    | pushInsert =>
        simp only [TaskQueue.mainStep, hphase] at hmain
        cases hremaining : state.remaining with
        | nil => exact (hinv.pushing (Or.inr hphase) hremaining).elim
        | cons task rest =>
            simp only [hremaining] at hmain
            cases hmain
    | pushUnlock =>
        simp only [TaskQueue.mainStep, hphase] at hmain
        cases hmain
    | _ => rfl
  · intro phase hmem
    obtain ⟨index, hget⟩ := List.mem_iff_getElem?.mp hmem
    have hworker := hstuck.worker hget
    cases phase with
    | wait waiting =>
        cases waiting with
        | testing | blocking => cases hworker
        | blocked | notified => rfl
    | take =>
        simp only [workerStep] at hworker
        cases htasks : state.tasks with
        | nil => exact ((hinv.workers index _ hget).stocked rfl htasks).elim
        | cons task rest =>
            simp only [htasks] at hworker
            cases hworker
    | unlock task => cases hworker
    | callOnce | runOnce | popLock | received task | processing task | exited => rfl

theorem blocked_or_exited_of_stuck (hinv : PoolInvariant workers tasks state)
    (hstuck : Stuck state) {phase : WorkerPhase} (hmem : phase ∈ state.workers) :
    phase = .wait .blocked ∨ phase = .exited := by
  obtain ⟨index, hget⟩ := List.mem_iff_getElem?.mp hmem
  have hfree := hinv.mutexFree_of_stuck hstuck
  have hworker := hstuck.worker hget
  cases phase with
  | callOnce =>
      simp only [workerStep] at hworker
      cases hflag : state.flag with
      | idle | done => simp [hflag] at hworker
      | active =>
          obtain ⟨runner, hrunner⟩ := List.mem_iff_getElem?.mp (hinv.once hflag)
          cases hstuck.worker hrunner
  | popLock =>
      simp only [workerStep, if_pos hfree] at hworker
      cases hworker
  | wait waiting =>
      cases waiting with
      | testing | blocking => cases hworker
      | blocked => exact Or.inl rfl
      | notified =>
          simp only [workerStep, if_pos hfree] at hworker
          cases hworker
  | take =>
      rw [State.mutexFree, Bool.and_eq_true] at hfree
      cases not_holds_of_noneHolds hfree.2 hget
  | runOnce | unlock task | received task | processing task => cases hworker
  | exited => exact Or.inr rfl

/-- `main` is held up only by a worker that it joins. -/
theorem pushesDone_of_stuck (hinv : PoolInvariant workers tasks state) (hstuck : Stuck state) :
    state.main = .returned ∨
      ∃ index, state.main = .joining index ∧ state.workers[index]? = some (.wait .blocked) := by
  have hfree := hinv.mutexFree_of_stuck hstuck
  have hmain := hstuck.main
  cases hphase : state.main with
  | spawning left => cases left <;> simp [TaskQueue.mainStep, hphase] at hmain
  | testLoop | pushUnlock => simp [TaskQueue.mainStep, hphase] at hmain
  | pushLock => simp [TaskQueue.mainStep, hphase, hfree] at hmain
  | pushInsert => simp [State.mutexFree, hphase, MainPhase.holdsMutex] at hfree
  | pushNotify =>
      -- whom it wakes is open, that it takes place is not
      have hnotify : ∀ woken, notifyOneStep state woken = none := by
        intro woken
        have hnone := hstuck (.notifyOne woken) (by simp)
        rwa [step, if_pos hphase] at hnone
      by_cases hnobody : ∀ phase ∈ state.workers, phase ≠ .wait .blocked
      · have hnone := hnotify none
        rw [notifyOneStep, if_pos (by simpa using hnobody)] at hnone
        cases hnone
      · push Not at hnobody
        obtain ⟨phase, hmem, rfl⟩ := hnobody
        obtain ⟨index, hget⟩ := List.mem_iff_getElem?.mp hmem
        have hnone := hnotify (some index)
        rw [notifyOneStep, if_pos hget] at hnone
        cases hnone
  | joining index =>
      simp only [TaskQueue.mainStep, hphase] at hmain
      cases hget : state.workers[index]? with
      | none => simp [hget] at hmain
      | some phase =>
          rcases hinv.blocked_or_exited_of_stuck hstuck (List.mem_of_getElem? hget) with
            rfl | rfl
          · exact Or.inr ⟨index, rfl, hget⟩
          · simp [hget] at hmain
  | returned => exact Or.inl rfl

theorem count_plan (htasks : -1 ∉ tasks) : (plan workers tasks).count (-1) = workers := by
  rw [plan, List.count_append, List.count_eq_zero.mpr htasks, List.count_replicate_self,
    Nat.zero_add]

/-- All items are taken, so every worker has had its sentinel. -/
theorem ended_of_taken (hinv : PoolInvariant workers tasks state) (hsentinel : -1 ∉ tasks)
    (hleft : state.main.left = 0) (hremaining : state.remaining = []) (hempty : state.tasks = []) :
    ∀ phase ∈ state.workers, phase.ended = true := by
  have hplanned := hinv.planned
  rw [hremaining, hempty, List.append_nil, List.append_nil] at hplanned
  have hsentinels := hinv.sentinels
  rw [hplanned, count_plan hsentinel] at hsentinels
  have hspawned := hinv.spawned
  rw [hleft, Nat.add_zero, hsentinels] at hspawned
  exact List.countP_eq_length.mp hspawned.symm

theorem exited_of_stuck (hinv : PoolInvariant workers tasks state) (hsentinel : -1 ∉ tasks)
    (hstuck : Stuck state) : ∀ phase ∈ state.workers, phase = .exited := by
  have hdone : state.main.pushesDone = true ∧ state.main.left = 0 ∧ state.main.pending = 0 := by
    rcases hinv.pushesDone_of_stuck hstuck with hmain | ⟨index, hmain, _⟩ <;>
      simp [hmain, MainPhase.pushesDone, MainPhase.left, MainPhase.pending]
  obtain ⟨hpushes, hleft, hpending⟩ := hdone
  intro phase hmem
  apply (hinv.blocked_or_exited_of_stuck hstuck hmem).resolve_left
  rintro rfl
  obtain ⟨index, hget⟩ := List.mem_iff_getElem?.mp hmem
  have hclaims : state.workers.countP WorkerPhase.claims = 0 := by
    rw [List.countP_eq_zero]
    intro other hother
    rcases hinv.blocked_or_exited_of_stuck hstuck hother with rfl | rfl <;>
      simp [WorkerPhase.claims]
  have hempty : state.tasks = [] := by
    have hserved := (hinv.workers index _ hget).served rfl
    rw [State.served, hclaims, hpending] at hserved
    exact List.eq_nil_of_length_eq_zero (by omega)
  have hended := hinv.ended_of_taken hsentinel hleft (hinv.finished hpushes) hempty _ hmem
  cases hended

theorem returned_of_stuck (hinv : PoolInvariant workers tasks state) (hsentinel : -1 ∉ tasks)
    (hstuck : Stuck state) : state.main = .returned := by
  rcases hinv.pushesDone_of_stuck hstuck with hmain | ⟨index, _, hget⟩
  · exact hmain
  · cases hinv.exited_of_stuck hsentinel hstuck _ (List.mem_of_getElem? hget)

theorem workers_of_stuck (hinv : PoolInvariant workers tasks state) (hsentinel : -1 ∉ tasks)
    (hstuck : Stuck state) : state.workers = List.replicate workers .exited := by
  have hspawned := hinv.spawned
  rw [hinv.returned_of_stuck hsentinel hstuck] at hspawned
  rw [List.eq_replicate_iff]
  exact ⟨hspawned, hinv.exited_of_stuck hsentinel hstuck⟩

/-- The last item pushed is a sentinel, so the queue does not end before all of
them are taken. -/
theorem tasks_of_stuck (hinv : PoolInvariant workers tasks state) (hsentinel : -1 ∉ tasks)
    (hstuck : Stuck state) (hworkers : 0 < workers) : state.tasks = [] := by
  have hremaining : state.remaining = [] := by
    apply hinv.finished
    rw [hinv.returned_of_stuck hsentinel hstuck]
    rfl
  have hplanned := hinv.planned
  rw [hremaining, List.append_nil] at hplanned
  have hcount : (state.popped.map Prod.snd).count (-1) + state.tasks.count (-1) = workers := by
    rw [← List.count_append, hplanned, count_plan hsentinel]
  have htaken : (state.popped.map Prod.snd).count (-1) = workers := by
    rw [hinv.sentinels, hinv.workers_of_stuck hsentinel hstuck, List.countP_replicate]
    rfl
  rcases List.eq_nil_or_concat' state.tasks with hempty | ⟨front, last, hqueue⟩
  · exact hempty
  · have hlast := congrArg List.getLast? hplanned
    have hsome : workers ≠ 0 := by omega
    simp only [hqueue, plan, List.getLast?_append, List.getLast?_replicate, if_neg hsome,
      List.getLast?_singleton, Option.some_or, Option.some.injEq] at hlast
    rw [htaken, hqueue, hlast, List.count_append, List.count_singleton_self] at hcount
    omega

/-- Each item that has left the queue is processed, or is the sentinel of a
worker that has exited. -/
theorem processed_perm_of_stuck (hinv : PoolInvariant workers tasks state)
    (hsentinel : -1 ∉ tasks) (hstuck : Stuck state) (hworkers : 0 < workers) :
    (state.processed.map Prod.snd).Perm tasks := by
  have hempty := hinv.tasks_of_stuck hsentinel hstuck hworkers
  have hall := hinv.workers_of_stuck hsentinel hstuck
  have hlength : state.workers.length = workers := by rw [hall, List.length_replicate]
  have hremaining : state.remaining = [] := by
    apply hinv.finished
    rw [hinv.returned_of_stuck hsentinel hstuck]
    rfl
  have hplanned : state.popped.map Prod.snd = plan workers tasks := by
    have hplanned := hinv.planned
    rwa [hremaining, hempty, List.append_nil, List.append_nil] at hplanned
  have hentries : ∀ label,
      entriesOf label (state.popped.filter fun entry => decide (entry.2 ≠ -1)) =
        entriesOf label state.processed := by
    intro label
    rw [LabelledHistory.entriesOf_filter label state.popped fun item => decide (item ≠ -1)]
    by_cases hlabel : label < workers
    · have hget : state.workers[label]? = some .exited := by
        rw [hall, List.getElem?_replicate, if_pos hlabel]
      have hworker := hinv.workers label _ hget
      have hunended : ∀ item ∈ entriesOf label state.processed, decide (item ≠ -1) = true := by
        intro item hmem
        have hne : item ≠ -1 := fun heq => hworker.unended (heq ▸ hmem)
        simp [hne]
      rw [hworker.taken, List.filter_append, List.filter_eq_self.mpr hunended]
      simp [WorkerPhase.held]
    · have hnone : ∀ history : List (ℕ × ℤ), (∀ entry ∈ history, entry.1 < state.workers.length) →
          entriesOf label history = [] := by
        intro history hlabels
        apply LabelledHistory.entriesOf_eq_nil
        intro entry hmem heq
        have hentry := hlabels entry hmem
        omega
      rw [hnone _ hinv.popped, hnone _ hinv.processed, List.filter_nil]
  have hperm : (state.popped.filter fun entry => decide (entry.2 ≠ -1)).Perm state.processed :=
    LabelledHistory.perm_of_entriesOf fun label => hentries label ▸ List.Perm.refl _
  have htasks : (state.popped.filter fun entry => decide (entry.2 ≠ -1)).map Prod.snd = tasks := by
    have hfilter := congrArg (List.filter fun item => decide (item ≠ -1)) hplanned
    rw [List.filter_map] at hfilter
    apply hfilter.trans
    have htasks : tasks.filter (fun item => decide (item ≠ -1)) = tasks := by
      rw [List.filter_eq_self]
      intro item hmem
      have hne : item ≠ -1 := fun heq => hsentinel (heq ▸ hmem)
      simp [hne]
    rw [plan, List.filter_append, htasks]
    simp
  exact htasks ▸ (hperm.map Prod.snd).symm

end PoolInvariant

/-- Items leave the queue in the order in which they are pushed.  What a worker
has taken is what it has processed, then the item in its hands; the sentinel
is the last.  When no thread can take a step, all workers have exited and, if
there are any, the queue is empty and each task is processed once. -/
theorem pool_completes (workers : ℕ) (tasks : List ℤ) (hsentinel : -1 ∉ tasks) {state : State}
    (hreach : (system workers tasks).Reachable state) :
    state.popped.map Prod.snd ++ state.tasks <+: plan workers tasks ∧
    (∀ index phase, state.workers[index]? = some phase →
      entriesOf index state.popped = entriesOf index state.processed ++ phase.held ∧
      -1 ∉ entriesOf index state.processed) ∧
    (Stuck state →
      state.workers = List.replicate workers .exited ∧
      (0 < workers → state.tasks = [] ∧ (state.processed.map Prod.snd).Perm tasks)) := by
  have hinv := poolInvariant_of_reachable hreach
  refine ⟨⟨state.remaining, hinv.planned⟩, ?_, ?_⟩
  · intro index phase hget
    exact ⟨(hinv.workers index phase hget).taken, (hinv.workers index phase hget).unended⟩
  · intro hstuck
    refine ⟨hinv.workers_of_stuck hsentinel hstuck, ?_⟩
    intro hworkers
    exact ⟨hinv.tasks_of_stuck hsentinel hstuck hworkers,
      hinv.processed_perm_of_stuck hsentinel hstuck hworkers⟩

theorem stuck_of_returned (hmain : state.main = .returned)
    (hworkers : ∀ phase ∈ state.workers, phase = .exited) : Stuck state := by
  intro action hspurious
  cases action with
  | main => simp [step, mainStep, hmain]
  | notifyOne woken => simp [step, hmain]
  | worker index =>
      cases hget : state.workers[index]? with
      | none => simp [step, hget]
      | some phase =>
          have hexited := hworkers phase (List.mem_of_getElem? hget)
          subst hexited
          simp [step, hget, workerStep]
  | spuriousWakeup index => exact (hspurious index rfl).elim

/-- Both workers sleep until their tasks are pushed.  The worker with the second
task is done first, and takes the third. -/
theorem pool_completes_twoWorkers :
    ∃ state, (system 2 [5, 6, 7]).Reachable state ∧ Stuck state ∧
      state.processed = [(0, 6), (1, 5), (0, 7)] ∧ state.workers = [.exited, .exited] ∧
      state.tasks = [] ∧ (state.processed.map Prod.snd).Perm [5, 6, 7] ∧
      entriesOf 0 state.popped = entriesOf 0 state.processed ++ [-1] ∧
      entriesOf 1 state.popped = entriesOf 1 state.processed ++ [-1] := by
  let push (woken : Option ℕ) : List Action := List.replicate 4 .main ++ [.notifyOne woken]
  obtain ⟨state, hrun, hprocessed, hmain, hworkers⟩ :
      ∃ state, (system 2 [5, 6, 7]).run (initial 2 [5, 6, 7])
          (List.flatten [List.replicate 3 .main, List.replicate 5 (.worker 0),
            List.replicate 4 (.worker 1), push (some 0), push (some 1),
            List.replicate 5 (.worker 1), push none, List.replicate 6 (.worker 0), [.worker 1],
            push none, push none, [.main], List.replicate 6 (.worker 0),
            List.replicate 5 (.worker 1), List.replicate 5 (.worker 0),
            List.replicate 3 .main]) = some state ∧
        state.processed = [(0, 6), (1, 5), (0, 7)] ∧ state.main = .returned ∧
        state.workers = [.exited, .exited] :=
    ⟨_, rfl, rfl, rfl, rfl⟩
  have hstuck : Stuck state := stuck_of_returned hmain (by simp [hworkers])
  obtain ⟨_, htaken, hcompleted⟩ := pool_completes 2 [5, 6, 7] (by decide) ⟨_, hrun⟩
  obtain ⟨hempty, hperm⟩ := (hcompleted hstuck).2 (by decide)
  exact ⟨state, ⟨_, hrun⟩, hstuck, hprocessed, hworkers, hempty, hperm,
    (htaken 0 .exited (by rw [hworkers]; rfl)).1, (htaken 1 .exited (by rw [hworkers]; rfl)).1⟩

/-- Without workers nobody takes the task that `main` has pushed. -/
theorem noWorkers_leave_task :
    -1 ∉ [(5 : ℤ)] ∧ ∃ state, (system 0 [5]).Reachable state ∧ state.main.pushesDone = true ∧
      Stuck state ∧ state.tasks = [5] ∧ state.processed = [] := by
  obtain ⟨state, hrun, hmain, hworkers, htasks, hprocessed⟩ :
      ∃ state, (system 0 [5]).run (initial 0 [5])
          [.main, .main, .main, .main, .main, .notifyOne none, .main, .main] = some state ∧
        state.main = .returned ∧ state.workers = [] ∧ state.tasks = [5] ∧
        state.processed = [] :=
    ⟨_, rfl, rfl, rfl, rfl, rfl⟩
  refine ⟨by decide, state, ⟨_, hrun⟩, by rw [hmain]; rfl, ?_, htasks, hprocessed⟩
  exact stuck_of_returned hmain (by simp [hworkers])

end CppProj.TaskQueue
