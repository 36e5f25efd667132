import CppProj.TaskQueue

/-!
# What the steps of the worker pool do

Most steps of a worker change where it stands and nothing else that the pool's
invariant speaks about; `QuietChange` lists what such a change leaves alone.  The
other two move an item out of the queue or record a processed task.
-/

namespace CppProj.TaskQueue

/-- A worker moves on with the same item in its hands. -/
structure QuietChange (state : State) (phase next : WorkerPhase) (flag : OnceFlag) : Prop where
  held : next.held = phase.held
  claims : phase.claims = true → next.claims = true ∨ state.tasks = []
  mutex : next.holdsMutex = true → phase.holdsMutex = true ∨ state.mutexFree = true
  take : next = .take → state.tasks ≠ []
  blocking : next = .wait .blocking → state.tasks = []
  blocked : next = .wait .blocked → phase = .wait .blocking
  processing : ∀ task, next = .processing task → task ≠ -1
  flag : flag = .active → next = .runOnce ∨ state.flag = .active ∧ phase ≠ .runOnce

inductive WorkerMove (state : State) (index : ℕ) (phase : WorkerPhase) : State → Prop where
  | quiet (next : WorkerPhase) (flag : OnceFlag) (hchange : QuietChange state phase next flag) :
      WorkerMove state index phase { state.setWorker index next with flag := flag }
  | take (task : ℤ) (rest : List ℤ) (hphase : phase = .take) (htasks : state.tasks = task :: rest) :
      WorkerMove state index phase
        { state.setWorker index (.unlock task) with
          tasks := rest
          popped := state.popped ++ [(index, task)] }
  | process (task : ℤ) (hphase : phase = .processing task) :
      WorkerMove state index phase
        { state.setWorker index .popLock with
          processed := state.processed ++ [(index, task)] }

namespace QuietChange

variable {state : State}

theorem wake : QuietChange state (.wait .blocked) (.wait .notified) state.flag := by
  constructor <;> simp [WorkerPhase.held, WorkerPhase.claims, WorkerPhase.holdsMutex,
    WaitPhase.holdsMutex]

theorem acquire {phase : WorkerPhase} (hfree : state.mutexFree = true)
    (hphase : phase = .popLock ∨ phase = .wait .notified) :
    QuietChange state phase (.wait .testing) state.flag := by
  rcases hphase with rfl | rfl
  · constructor <;> simp [WorkerPhase.held, WorkerPhase.claims, hfree]
  · constructor <;> simp [WorkerPhase.held, WorkerPhase.claims, hfree]

end QuietChange

theorem workerMove_of_workerStep {state next : State} {index : ℕ} {phase : WorkerPhase}
    (hstep : workerStep state index phase = some next) : WorkerMove state index phase next := by
  have hquiet : ∀ after, QuietChange state phase after state.flag →
      WorkerMove state index phase (state.setWorker index after) :=
    fun after hchange => .quiet after state.flag hchange
  cases phase with
  | callOnce =>
      simp only [workerStep] at hstep
      cases hflag : state.flag with
      | idle =>
          simp only [hflag] at hstep
          cases hstep
          refine .quiet .runOnce .active ?_
          constructor <;> simp [WorkerPhase.held, WorkerPhase.claims, WorkerPhase.holdsMutex]
      | active => simp [hflag] at hstep
      | done =>
          simp only [hflag] at hstep
          cases hstep
          apply hquiet .popLock
          constructor <;>
            simp [WorkerPhase.held, WorkerPhase.claims, WorkerPhase.holdsMutex, hflag]
  | runOnce =>
      cases hstep
      refine .quiet .popLock .done ?_
      constructor <;> simp [WorkerPhase.held, WorkerPhase.claims, WorkerPhase.holdsMutex]
  | popLock =>
      simp only [workerStep] at hstep
      split_ifs at hstep with hfree
      cases hstep
      exact hquiet _ (.acquire hfree (Or.inl rfl))
  | wait waiting =>
      cases waiting with
      | testing =>
          cases hstep
          by_cases hempty : state.tasks = []
          · have hblock : state.tasks.isEmpty = true := List.isEmpty_iff.mpr hempty
            rw [hblock]
            apply hquiet _
            constructor <;> simp [WorkerPhase.held, WorkerPhase.holdsMutex,
              WaitPhase.holdsMutex, hempty]
          · have htake : state.tasks.isEmpty = false := by simpa using hempty
            rw [htake]
            apply hquiet _
            constructor <;> simp [WorkerPhase.held, WorkerPhase.claims, WorkerPhase.holdsMutex,
              WaitPhase.holdsMutex, hempty]
      | blocking =>
          cases hstep
          apply hquiet _
          constructor <;> simp [WorkerPhase.held, WorkerPhase.claims, WorkerPhase.holdsMutex,
            WaitPhase.holdsMutex]
      | blocked => cases hstep
      | notified =>
          simp only [workerStep] at hstep
          split_ifs at hstep with hfree
          cases hstep
          exact hquiet _ (.acquire hfree (Or.inr rfl))
  | take =>
      simp only [workerStep] at hstep
      cases htasks : state.tasks with
      | nil => simp [htasks] at hstep
      | cons task rest =>
          simp only [htasks] at hstep
          cases hstep
          exact .take task rest rfl htasks
  | unlock task =>
      cases hstep
      apply hquiet _
      constructor <;> simp [WorkerPhase.held, WorkerPhase.claims, WorkerPhase.holdsMutex]
  | received task =>
      cases hstep
      by_cases hsentinel : task = -1
      · rw [if_pos hsentinel]
        apply hquiet _
        constructor <;>
          simp [WorkerPhase.held, WorkerPhase.claims, WorkerPhase.holdsMutex, hsentinel]
      · rw [if_neg hsentinel]
        apply hquiet _
        constructor <;>
          simp [WorkerPhase.held, WorkerPhase.claims, WorkerPhase.holdsMutex, hsentinel]
  | processing task =>
      cases hstep
      exact .process task rfl
  | exited => cases hstep

theorem eq_of_notifyOneStep {state next : State} {woken : Option ℕ}
    (hstep : notifyOneStep state woken = some next) :
    ((∀ phase ∈ state.workers, phase ≠ .wait .blocked) ∧
        next = { state with main := .testLoop }) ∨
      ∃ index, state.workers[index]? = some (.wait .blocked) ∧
        next = { state.setWorker index (.wait .notified) with main := .testLoop } := by
  cases woken with
  | none =>
      simp only [notifyOneStep] at hstep
      split_ifs at hstep with hnobody
      cases hstep
      exact Or.inl ⟨by simpa using hnobody, rfl⟩
  | some index =>
      simp only [notifyOneStep] at hstep
      split_ifs at hstep with hblocked
      cases hstep
      exact Or.inr ⟨index, hblocked, rfl⟩

end CppProj.TaskQueue
