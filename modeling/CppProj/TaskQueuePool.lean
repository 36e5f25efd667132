import CppProj.LabelledHistory
import CppProj.TaskQueueTransitions

/-!
# Every item finds a worker

While some worker sleeps, each item in the queue has a worker that is awake and
will claim an item, or a notification that is still to come.  A notification
that meets no sleeper is lost, but then nobody sleeps; a worker falls asleep
only after it has seen the queue empty.  The sentinels are counted by the
workers that hold one.
-/

namespace CppProj.TaskQueue

namespace State

/-- The items that are served without a further push. -/
def served (state : State) : ℕ :=
  state.workers.countP WorkerPhase.claims + state.main.pending

end State

namespace WorkerPhase

def ended (phase : WorkerPhase) : Bool :=
  phase.held == [-1]

end WorkerPhase

structure WorkerInvariant (state : State) (index : ℕ) (phase : WorkerPhase) : Prop where
  stocked : phase = .take → state.tasks ≠ []
  unserved : phase = .wait .blocking → state.tasks = []
  served : phase = .wait .blocked → state.tasks.length ≤ state.served
  taken : entriesOf index state.popped = entriesOf index state.processed ++ phase.held
  unended : -1 ∉ entriesOf index state.processed
  task : ∀ task, phase = .processing task → task ≠ -1

structure PoolInvariant (workers : ℕ) (tasks : List ℤ) (state : State) : Prop where
  spawned : state.workers.length + state.main.left = workers
  planned : state.popped.map Prod.snd ++ state.tasks ++ state.remaining = plan workers tasks
  finished : state.main.pushesDone = true → state.remaining = []
  pushing : state.main = .pushLock ∨ state.main = .pushInsert → state.remaining ≠ []
  exclusive : MutuallyExclusive WorkerPhase.holdsMutex state.workers
  mainExclusive : state.main.holdsMutex = true →
    noneHolds WorkerPhase.holdsMutex state.workers = true
  workers : ∀ index phase, state.workers[index]? = some phase →
    WorkerInvariant state index phase
  popped : ∀ entry ∈ state.popped, entry.1 < state.workers.length
  processed : ∀ entry ∈ state.processed, entry.1 < state.workers.length
  sentinels : (state.popped.map Prod.snd).count (-1) =
    state.workers.countP WorkerPhase.ended
  once : state.flag = .active → .runOnce ∈ state.workers

theorem initial_poolInvariant (workers : ℕ) (tasks : List ℤ) :
    PoolInvariant workers tasks (initial workers tasks) := by
  refine ⟨?_, ?_, ?_, ?_, .nil, ?_, ?_, ?_, ?_, ?_, ?_⟩ <;>
    simp [initial, MainPhase.left, MainPhase.pushesDone, MainPhase.holdsMutex]

/-! ## Steps of the workers -/

namespace WorkerInvariant

variable {state next : State} {index : ℕ} {phase : WorkerPhase}

/-- A worker keeps its facts through a step of another thread that leaves the
queue and the worker's own history alone and serves no fewer items. -/
theorem mono (hworker : WorkerInvariant state index phase) (htasks : next.tasks = state.tasks)
    (hserved : state.tasks = [] ∨ state.served ≤ next.served)
    (hpopped : entriesOf index next.popped = entriesOf index state.popped)
    (hprocessed : entriesOf index next.processed = entriesOf index state.processed) :
    WorkerInvariant next index phase := by
  constructor
  case stocked =>
    intro hphase
    exact htasks ▸ hworker.stocked hphase
  case unserved =>
    intro hphase
    exact htasks ▸ hworker.unserved hphase
  case served =>
    intro hphase
    have hlength := hworker.served hphase
    rw [htasks]
    rcases hserved with hempty | hle
    · simp [hempty]
    · exact Nat.le_trans hlength hle
  case taken =>
    rw [hpopped, hprocessed]
    exact hworker.taken
  case unended =>
    rw [hprocessed]
    exact hworker.unended
  case task => exact hworker.task

end WorkerInvariant

namespace QuietChange

variable {state : State} {index : ℕ} {phase after : WorkerPhase} {flag : OnceFlag}

theorem workerInvariant (hchange : QuietChange state phase after flag)
    (hworker : WorkerInvariant state index phase) {next : State}
    (htasks : next.tasks = state.tasks) (hpopped : next.popped = state.popped)
    (hprocessed : next.processed = state.processed) : WorkerInvariant next index after := by
  constructor
  case stocked =>
    intro hafter
    exact htasks ▸ hchange.take hafter
  case unserved =>
    intro hafter
    exact htasks ▸ hchange.blocking hafter
  case served =>
    intro hafter
    -- it has seen the queue empty and still holds the mutex
    have hempty := hworker.unserved (hchange.blocked hafter)
    rw [htasks, hempty]
    exact Nat.zero_le _
  case taken =>
    rw [hpopped, hprocessed, hchange.held]
    exact hworker.taken
  case unended =>
    rw [hprocessed]
    exact hworker.unended
  case task => exact hchange.processing

theorem claims_le (hchange : QuietChange state phase after flag)
    (hget : state.workers[index]? = some phase) :
    state.tasks = [] ∨ state.workers.countP WorkerPhase.claims ≤
      (state.workers.set index after).countP WorkerPhase.claims := by
  have hcount := ListUpdate.countP_set_add WorkerPhase.claims hget after
  by_cases hclaims : phase.claims = true
  · rcases hchange.claims hclaims with hafter | hempty
    · rw [hclaims, hafter] at hcount
      exact Or.inr (by omega)
    · exact Or.inl hempty
  · rw [if_neg hclaims] at hcount
    exact Or.inr (by omega)

theorem exclusive (hchange : QuietChange state phase after flag)
    (hexclusive : MutuallyExclusive WorkerPhase.holdsMutex state.workers)
    (hget : state.workers[index]? = some phase) :
    MutuallyExclusive WorkerPhase.holdsMutex (state.workers.set index after) := by
  by_cases hholds : after.holdsMutex = true
  · rcases hchange.mutex hholds with hheld | hfree
    · exact hexclusive.set_held hget hheld after
    · simp only [State.mutexFree, Bool.and_eq_true] at hfree
      exact .set_acquired hfree.2 index after
  · exact hexclusive.set_released index (by simpa using hholds)

theorem mainExclusive (hchange : QuietChange state phase after flag)
    (hexclusive : state.main.holdsMutex = true →
      noneHolds WorkerPhase.holdsMutex state.workers = true)
    (hget : state.workers[index]? = some phase) :
    state.main.holdsMutex = true →
      noneHolds WorkerPhase.holdsMutex (state.workers.set index after) = true := by
  intro hmain
  have hnone := hexclusive hmain
  rw [noneHolds_iff]
  intro worker hmem
  rcases List.mem_or_eq_of_mem_set hmem with hold | rfl
  · exact noneHolds_iff.mp hnone worker hold
  · by_contra hholds
    rcases hchange.mutex (by simpa using hholds) with hheld | hfree
    · rw [not_holds_of_noneHolds hnone hget] at hheld
      cases hheld
    · simp [State.mutexFree, hmain] at hfree

theorem ended (hchange : QuietChange state phase after flag)
    (hget : state.workers[index]? = some phase) :
    (state.workers.set index after).countP WorkerPhase.ended =
      state.workers.countP WorkerPhase.ended := by
  have hcount := ListUpdate.countP_set_add WorkerPhase.ended hget after
  have hsame : after.ended = phase.ended := by
    rw [WorkerPhase.ended, WorkerPhase.ended, hchange.held]
  rw [hsame] at hcount
  omega

theorem once (hchange : QuietChange state phase after flag)
    (honce : state.flag = .active → .runOnce ∈ state.workers)
    (hget : state.workers[index]? = some phase) :
    flag = .active → .runOnce ∈ state.workers.set index after := by
  intro hflag
  rcases hchange.flag hflag with rfl | ⟨hactive, hne⟩
  · exact List.mem_of_getElem? (ListUpdate.getElem?_set_self hget _)
  · exact ListUpdate.mem_set_of_ne hget (honce hactive) (Ne.symm hne) after

end QuietChange

namespace PoolInvariant

variable {workers : ℕ} {tasks : List ℤ} {state : State} {index : ℕ} {phase : WorkerPhase}

theorem quiet (hinv : PoolInvariant workers tasks state)
    (hget : state.workers[index]? = some phase) {after : WorkerPhase} {flag : OnceFlag}
    (hchange : QuietChange state phase after flag) :
    PoolInvariant workers tasks { state.setWorker index after with flag := flag } := by
  have hlength : (state.workers.set index after).length = state.workers.length :=
    List.length_set
  have hserved : state.tasks = [] ∨ state.served ≤
      State.served { state.setWorker index after with flag := flag } := by
    rcases hchange.claims_le hget with hempty | hle
    · exact Or.inl hempty
    · exact Or.inr (Nat.add_le_add_right hle _)
  refine ⟨hlength.symm ▸ hinv.spawned, hinv.planned, hinv.finished, hinv.pushing,
    hchange.exclusive hinv.exclusive hget, hchange.mainExclusive hinv.mainExclusive hget, ?_,
    hlength.symm ▸ hinv.popped, hlength.symm ▸ hinv.processed, ?_, hchange.once hinv.once hget⟩
  · intro other found hfound
    rcases ListUpdate.getElem?_set_cases hfound with ⟨rfl, rfl⟩ | ⟨_, hold⟩
    · exact hchange.workerInvariant (hinv.workers index phase hget) rfl rfl rfl
    · exact (hinv.workers other found hold).mono rfl hserved rfl rfl
  · exact hinv.sentinels.trans (hchange.ended hget).symm

theorem not_holds (hinv : PoolInvariant workers tasks state)
    (hget : state.workers[index]? = some phase) (hholds : phase.holdsMutex = true) {other : ℕ}
    {found : WorkerPhase} (hother : state.workers[other]? = some found) (hne : index ≠ other) :
    found.holdsMutex = false :=
  hinv.exclusive.not_holds_of_ne hget hholds hother hne

theorem take (hinv : PoolInvariant workers tasks state)
    (hget : state.workers[index]? = some .take) {task : ℤ} {rest : List ℤ}
    (htasks : state.tasks = task :: rest) :
    PoolInvariant workers tasks
      { state.setWorker index (.unlock task) with
        tasks := rest
        popped := state.popped ++ [(index, task)] } := by
  have hlength : (state.workers.set index (.unlock task)).length = state.workers.length :=
    List.length_set
  have hclaims := ListUpdate.countP_set_add WorkerPhase.claims hget (.unlock task)
  have hended := ListUpdate.countP_set_add WorkerPhase.ended hget (.unlock task)
  have hlt : index < state.workers.length := (List.getElem?_eq_some_iff.mp hget).1
  constructor
  case spawned => exact hlength.symm ▸ hinv.spawned
  case planned =>
    have hplanned := hinv.planned
    rw [htasks] at hplanned
    simpa [State.setWorker] using hplanned
  case finished => exact hinv.finished
  case pushing => exact hinv.pushing
  case exclusive => exact hinv.exclusive.set_held hget rfl _
  case mainExclusive =>
    intro hmain
    have hnone := not_holds_of_noneHolds (hinv.mainExclusive hmain) hget
    cases hnone
  case workers =>
    intro other found hfound
    rcases ListUpdate.getElem?_set_cases hfound with ⟨rfl, rfl⟩ | ⟨hne, hold⟩
    · have hworker := hinv.workers index .take hget
      refine ⟨by simp, by simp, by simp, ?_, hworker.unended, by simp⟩
      have htaken := hworker.taken
      simp only [WorkerPhase.held, List.append_nil] at htaken
      simp only [State.setWorker, LabelledHistory.entriesOf_append_self, htaken,
        WorkerPhase.held]
    · have hworker := hinv.workers other found hold
      have hreleased := hinv.not_holds hget rfl hold hne
      constructor
      case stocked =>
        rintro rfl
        cases hreleased
      case unserved =>
        rintro rfl
        cases hreleased
      case served =>
        intro hblocked
        -- the item that leaves was served by the worker that takes it
        have hserved := hworker.served hblocked
        simp only [htasks, List.length_cons, State.served, WorkerPhase.claims] at hserved hclaims
        simp only [State.served, State.setWorker]
        simp only [if_true, Bool.false_eq_true, if_false] at hclaims
        omega
      case taken =>
        have htaken := hworker.taken
        simp only [State.setWorker, LabelledHistory.entriesOf_append_of_ne hne, htaken]
      case unended => exact hworker.unended
      case task => exact hworker.task
  case popped =>
    rw [State.setWorker, hlength]
    exact LabelledHistory.labels_lt_append hinv.popped hlt task
  case processed => exact hlength.symm ▸ hinv.processed
  case sentinels =>
    have hsentinels := hinv.sentinels
    simp only [State.setWorker, List.map_append, List.map_cons, List.map_nil, List.count_append,
      List.count_singleton]
    simp only [WorkerPhase.ended, WorkerPhase.held] at hended hsentinels ⊢
    by_cases hsentinel : task = -1
    · subst hsentinel
      simp at hended hsentinels ⊢
      omega
    · simp [hsentinel] at hended hsentinels ⊢
      omega
  case once =>
    intro hflag
    exact ListUpdate.mem_set_of_ne hget (hinv.once hflag) (by simp) _

theorem process (hinv : PoolInvariant workers tasks state) {task : ℤ}
    (hget : state.workers[index]? = some (.processing task)) :
    PoolInvariant workers tasks
      { state.setWorker index .popLock with
        processed := state.processed ++ [(index, task)] } := by
  have hlength : (state.workers.set index .popLock).length = state.workers.length :=
    List.length_set
  have hclaims := ListUpdate.countP_set_add WorkerPhase.claims hget .popLock
  have hended := ListUpdate.countP_set_add WorkerPhase.ended hget .popLock
  have hlt : index < state.workers.length := (List.getElem?_eq_some_iff.mp hget).1
  have hworker := hinv.workers index _ hget
  have htask : task ≠ -1 := hworker.task task rfl
  constructor
  case spawned => exact hlength.symm ▸ hinv.spawned
  case planned => exact hinv.planned
  case finished => exact hinv.finished
  case pushing => exact hinv.pushing
  case exclusive => exact hinv.exclusive.set_released index rfl
  case mainExclusive =>
    intro hmain
    have hnone := hinv.mainExclusive hmain
    rw [noneHolds_iff]
    intro worker hmem
    rcases List.mem_or_eq_of_mem_set hmem with hold | rfl
    · exact noneHolds_iff.mp hnone worker hold
    · rfl
  case workers =>
    intro other found hfound
    rcases ListUpdate.getElem?_set_cases hfound with ⟨rfl, rfl⟩ | ⟨hne, hold⟩
    · refine ⟨by simp, by simp, by simp, ?_, ?_, by simp⟩
      · have htaken := hworker.taken
        simp only [State.setWorker, LabelledHistory.entriesOf_append_self, htaken,
          WorkerPhase.held, List.append_nil]
      · simp only [LabelledHistory.entriesOf_append_self, List.mem_append, List.mem_singleton,
          not_or]
        exact ⟨hworker.unended, Ne.symm htask⟩
    · refine (hinv.workers other found hold).mono rfl (Or.inr ?_) rfl ?_
      · simp only [WorkerPhase.claims, Bool.false_eq_true, if_false, if_true] at hclaims
        simp only [State.served, State.setWorker]
        omega
      · exact LabelledHistory.entriesOf_append_of_ne hne _ _
  case popped => exact hlength.symm ▸ hinv.popped
  case processed =>
    rw [State.setWorker, hlength]
    exact LabelledHistory.labels_lt_append hinv.processed hlt task
  case sentinels =>
    have hsentinels := hinv.sentinels
    simp only [State.setWorker]
    simp [WorkerPhase.ended, WorkerPhase.held, htask] at hended hsentinels ⊢
    omega
  case once =>
    intro hflag
    exact ListUpdate.mem_set_of_ne hget (hinv.once hflag) (by simp) _

/-! ## Steps of `main` -/

theorem setMain (hinv : PoolInvariant workers tasks state) {main : MainPhase}
    (hleft : main.left = state.main.left) (hpending : state.main.pending ≤ main.pending)
    (hdone : main.pushesDone = true → state.remaining = [])
    (hpushing : main = .pushLock ∨ main = .pushInsert → state.remaining ≠ [])
    (hmutex : main.holdsMutex = true → noneHolds WorkerPhase.holdsMutex state.workers = true) :
    PoolInvariant workers tasks { state with main := main } := by
  refine ⟨by rw [hleft]; exact hinv.spawned, hinv.planned, hdone, hpushing, hinv.exclusive,
    hmutex, ?_, hinv.popped, hinv.processed, hinv.sentinels, hinv.once⟩
  intro other found hfound
  exact (hinv.workers other found hfound).mono rfl
    (Or.inr (Nat.add_le_add_left hpending _)) rfl rfl

theorem spawn (hinv : PoolInvariant workers tasks state) {left : ℕ}
    (hmain : state.main = .spawning (left + 1)) :
    PoolInvariant workers tasks
      { state with workers := state.workers ++ [.callOnce], main := .spawning left } := by
  have hgrow : ∀ {entry : ℕ × ℤ}, entry.1 < state.workers.length →
      entry.1 < (state.workers ++ [WorkerPhase.callOnce]).length := by
    intro entry hlt
    rw [List.length_append, List.length_singleton]
    omega
  constructor
  case spawned =>
    have hspawned := hinv.spawned
    simp only [hmain, MainPhase.left] at hspawned
    simp only [List.length_append, List.length_singleton, MainPhase.left]
    omega
  case planned => exact hinv.planned
  case finished => simp [MainPhase.pushesDone]
  case pushing => simp
  case exclusive => exact hinv.exclusive.append_released rfl
  case mainExclusive => simp [MainPhase.holdsMutex]
  case workers =>
    intro other found hfound
    rw [List.getElem?_append] at hfound
    split_ifs at hfound with hlt
    · refine (hinv.workers other found hfound).mono rfl (Or.inr ?_) rfl rfl
      simp [State.served, hmain, MainPhase.pending]
    · obtain ⟨hindex, rfl⟩ := List.getElem?_eq_some_iff.mp hfound
      have hnew : ∀ history : List (ℕ × ℤ), (∀ entry ∈ history, entry.1 < state.workers.length) →
          entriesOf other history = [] := by
        intro history hlabels
        apply LabelledHistory.entriesOf_eq_nil
        intro entry hmem heq
        have hentry := hlabels entry hmem
        omega
      refine ⟨by simp, by simp, by simp, ?_, ?_, by simp⟩
      · simp [hnew _ hinv.popped, hnew _ hinv.processed, WorkerPhase.held]
      · simp [hnew _ hinv.processed]
  case popped => exact fun entry hmem => hgrow (hinv.popped entry hmem)
  case processed => exact fun entry hmem => hgrow (hinv.processed entry hmem)
  case sentinels =>
    simp only [List.countP_append]
    rw [hinv.sentinels]
    rfl
  case once =>
    intro hflag
    exact List.mem_append_left _ (hinv.once hflag)

theorem push (hinv : PoolInvariant workers tasks state) (hmain : state.main = .pushInsert)
    {task : ℤ} {rest : List ℤ} (hremaining : state.remaining = task :: rest) :
    PoolInvariant workers tasks
      { state with
        tasks := state.tasks ++ [task]
        remaining := rest
        main := .pushUnlock } := by
  have hnone := hinv.mainExclusive (by rw [hmain]; rfl)
  constructor
  case spawned =>
    have hspawned := hinv.spawned
    rw [hmain] at hspawned
    exact hspawned
  case planned =>
    have hplanned := hinv.planned
    rw [hremaining] at hplanned
    simpa using hplanned
  case finished => simp [MainPhase.pushesDone]
  case pushing => simp
  case exclusive => exact hinv.exclusive
  case mainExclusive => exact fun _ => hnone
  case workers =>
    intro other found hfound
    have hworker := hinv.workers other found hfound
    have hreleased := not_holds_of_noneHolds hnone hfound
    refine ⟨fun _ => by simp, ?_, ?_, hworker.taken, hworker.unended, hworker.task⟩
    · -- a worker between its test and its sleep would hold the mutex
      rintro rfl
      cases hreleased
    · intro hblocked
      have hlength := hworker.served hblocked
      simp only [State.served, hmain, MainPhase.pending] at hlength
      simp only [State.served, MainPhase.pending, List.length_append, List.length_singleton]
      omega
  case popped => exact hinv.popped
  case processed => exact hinv.processed
  case sentinels => exact hinv.sentinels
  case once => exact hinv.once

/-- The notification finds a sleeper, or nobody sleeps. -/
theorem notifyOne (hinv : PoolInvariant workers tasks state) (hmain : state.main = .pushNotify)
    {woken : Option ℕ} {next : State} (hstep : notifyOneStep state woken = some next) :
    PoolInvariant workers tasks next := by
  have hspawned := hinv.spawned
  rw [hmain] at hspawned
  rcases eq_of_notifyOneStep hstep with ⟨hnobody, rfl⟩ | ⟨index, hblocked, rfl⟩
  · refine ⟨hspawned, hinv.planned, by simp [MainPhase.pushesDone], by simp, hinv.exclusive,
      by simp [MainPhase.holdsMutex], ?_, hinv.popped, hinv.processed, hinv.sentinels, hinv.once⟩
    intro other found hfound
    have hworker := hinv.workers other found hfound
    refine ⟨hworker.stocked, hworker.unserved, ?_, hworker.taken, hworker.unended, hworker.task⟩
    intro hasleep
    exact (hnobody found (List.mem_of_getElem? hfound) hasleep).elim
  · have hwoken := hinv.quiet hblocked .wake
    refine ⟨?_, hwoken.planned, by simp [MainPhase.pushesDone], by simp, hwoken.exclusive,
      by simp [MainPhase.holdsMutex], ?_, hwoken.popped, hwoken.processed, hwoken.sentinels,
      hwoken.once⟩
    · rw [State.setWorker, List.length_set]
      exact hspawned
    · intro other found hfound
      have hworker := hwoken.workers other found hfound
      refine ⟨hworker.stocked, hworker.unserved, ?_, hworker.taken, hworker.unended,
        hworker.task⟩
      intro hasleep
      -- the worker that is woken serves the item whose notification is used up
      have hold : state.workers[other]? = some found := by
        rcases ListUpdate.getElem?_set_cases hfound with ⟨_, rfl⟩ | ⟨_, hold⟩
        · cases hasleep
        · exact hold
      have hlength := (hinv.workers other found hold).served hasleep
      have hclaims :=
        ListUpdate.countP_set_add WorkerPhase.claims hblocked (.wait .notified)
      simp only [WorkerPhase.claims, Bool.false_eq_true, if_false, if_true] at hclaims
      simp only [State.served, hmain, MainPhase.pending] at hlength
      simp only [State.served, State.setWorker, MainPhase.pending]
      omega

theorem mainStep (hinv : PoolInvariant workers tasks state) {next : State}
    (hstep : mainStep state = some next) : PoolInvariant workers tasks next := by
  unfold TaskQueue.mainStep at hstep
  cases hmain : state.main with
  | spawning left =>
      cases left with
      | zero =>
          simp only [hmain] at hstep
          cases hstep
          refine hinv.setMain ?_ ?_ ?_ ?_ ?_ <;>
            simp [hmain, MainPhase.left, MainPhase.pending, MainPhase.pushesDone,
              MainPhase.holdsMutex]
      | succ left =>
          simp only [hmain] at hstep
          cases hstep
          exact hinv.spawn hmain
  | testLoop =>
      simp only [hmain] at hstep
      cases hstep
      by_cases hempty : state.remaining = []
      · rw [if_pos (List.isEmpty_iff.mpr hempty)]
        refine hinv.setMain ?_ ?_ (fun _ => hempty) ?_ ?_ <;>
          simp [hmain, MainPhase.left, MainPhase.pending, MainPhase.holdsMutex]
      · rw [if_neg (by simpa using hempty)]
        refine hinv.setMain ?_ ?_ ?_ (fun _ => hempty) ?_ <;>
          simp [hmain, MainPhase.left, MainPhase.pending, MainPhase.pushesDone,
            MainPhase.holdsMutex]
  | pushLock =>
      simp only [hmain] at hstep
      split_ifs at hstep with hfree
      cases hstep
      simp only [State.mutexFree, Bool.and_eq_true] at hfree
      refine hinv.setMain ?_ ?_ ?_ (fun _ => hinv.pushing (Or.inl hmain)) fun _ => hfree.2 <;>
        simp [hmain, MainPhase.left, MainPhase.pending, MainPhase.pushesDone]
  | pushInsert =>
      simp only [hmain] at hstep
      cases hremaining : state.remaining with
      | nil => simp [hremaining] at hstep
      | cons task rest =>
          simp only [hremaining] at hstep
          cases hstep
          exact hinv.push hmain hremaining
  | pushUnlock =>
      simp only [hmain] at hstep
      cases hstep
      refine hinv.setMain ?_ ?_ ?_ ?_ ?_ <;>
        simp [hmain, MainPhase.left, MainPhase.pending, MainPhase.pushesDone,
          MainPhase.holdsMutex]
  | pushNotify | returned => simp [hmain] at hstep
  | joining index =>
      have hempty := hinv.finished (by rw [hmain]; rfl)
      have hquiet : ∀ main, main = .returned ∨ main = .joining (index + 1) →
          PoolInvariant workers tasks { state with main := main } := by
        intro main hcase
        rcases hcase with rfl | rfl
        · refine hinv.setMain ?_ ?_ (fun _ => hempty) ?_ ?_ <;>
            simp [hmain, MainPhase.left, MainPhase.pending, MainPhase.holdsMutex]
        · refine hinv.setMain ?_ ?_ (fun _ => hempty) ?_ ?_ <;>
            simp [hmain, MainPhase.left, MainPhase.pending, MainPhase.holdsMutex]
      simp only [hmain] at hstep
      split at hstep
      · cases hstep
        exact hquiet _ (Or.inl rfl)
      · cases hstep
        exact hquiet _ (Or.inr rfl)
      · cases hstep

end PoolInvariant

theorem step_poolInvariant {workers : ℕ} {tasks : List ℤ} {state next : State} {action : Action}
    (hinv : PoolInvariant workers tasks state) (hstep : step state action = some next) :
    PoolInvariant workers tasks next := by
  cases action with
  | main => exact hinv.mainStep hstep
  | notifyOne woken =>
      simp only [step] at hstep
      split_ifs at hstep with hmain
      exact hinv.notifyOne hmain hstep
  | worker index =>
      obtain ⟨phase, hget, hworker⟩ := Option.bind_eq_some_iff.mp hstep
      cases workerMove_of_workerStep hworker with
      | quiet after flag hchange => exact hinv.quiet hget hchange
      | take task rest hphase htasks =>
          subst hphase
          exact hinv.take hget htasks
      | process task hphase =>
          subst hphase
          exact hinv.process hget
  | spuriousWakeup index =>
      simp only [step] at hstep
      split_ifs at hstep with hblocked
      cases hstep
      exact hinv.quiet hblocked .wake

theorem poolInvariant_of_reachable {workers : ℕ} {tasks : List ℤ} {state : State}
    (hreach : (system workers tasks).Reachable state) : PoolInvariant workers tasks state := by
  apply hreach.invariant (PoolInvariant workers tasks) (initial_poolInvariant workers tasks)
  intro state action next hinv hstep
  exact step_poolInvariant hinv hstep

end CppProj.TaskQueue
