import CppProj.DualModeTimerBlocking
import CppProj.ListUpdate

/-!
# When a blocking timer tells the truth

The invariant follows the one timer of each call.  While the call waits, its
timer is active, was cancelled, or has one callback thread; the promise is set
exactly when that thread has finished.  A call that leaves the wait for another
reason than its promise cancels the timer first, and by the condition finds it
active or cancelled.
-/

namespace CppProj.DualModeTimer.Blocking

/-- The call has added its timer and neither has its result nor returned. -/
def CallPhase.pending : CallPhase → Bool
  | .testId | .waiting _ | .timedOut => true
  | .addTimer | .ready | .returned _ => false

/-- A callback thread of the call: until it has finished the call waits for it,
and afterwards its promise is set. -/
structure Serves (call : Call) (thread : CallbackThread) : Prop where
  taskId : call.taskId = some thread.task.id
  waits : thread.phase ≠ .finished → call.phase.pending = true
  done : thread.phase = .finished →
    call.promise = some true ∧ call.phase ≠ .returned false

structure CallsInvariant (state : State) : Prop where
  timers : TimersInvariant state.timers
  unpromised : ∀ id task, state.timers.activeTasks.lookup id = some task →
    task.promise = none
  inactive : ∀ thread ∈ state.callbackThreads,
    thread.task.id.toInt ≤ state.timers.nextId.toInt ∧
      state.timers.activeTasks.lookup thread.task.id = none
  distinct : (state.callbackThreads.map fun thread => thread.task.id).Nodup
  active : ∀ id task index, state.timers.activeTasks.lookup id = some task →
    task.callback = .expire index →
      ∃ call, state.calls[index]? = some call ∧ call.taskId = some id ∧
        call.phase.pending = true
  served : ∀ thread ∈ state.callbackThreads, ∀ index,
    thread.task.callback = .expire index →
      ∃ call, state.calls[index]? = some call ∧ Serves call thread
  numbered : ∀ (index : ℕ) call id, state.calls[index]? = some call →
    call.taskId = some id → 0 < id.toInt
  unadded : ∀ (index : ℕ) call, state.calls[index]? = some call →
    call.phase = .addTimer → call.taskId = none
  promised : ∀ (index : ℕ) call result, state.calls[index]? = some call →
    call.promise = some result → result = true ∧ state.Ran index
  answered : ∀ (index : ℕ) call, state.calls[index]? = some call →
    call.phase = .returned true → call.promise = some true
  noDanglingWrite : state.danglingWrite = false

theorem initial_callsInvariant (start : ℤ) : CallsInvariant (initial start) := by
  constructor <;> simp [initial, Timers.initial]
  exact TimersInvariant.initial

namespace CallsInvariant

variable {state : State}

theorem eq_of_served (hinv : CallsInvariant state) {left right : CallbackThread}
    {index : ℕ} (hleft : left ∈ state.callbackThreads)
    (hright : right ∈ state.callbackThreads)
    (hleftCall : left.task.callback = .expire index)
    (hrightCall : right.task.callback = .expire index) : left = right := by
  obtain ⟨call, hcall, hserves⟩ := hinv.served left hleft index hleftCall
  obtain ⟨other, hother, hservesRight⟩ := hinv.served right hright index hrightCall
  rw [hcall] at hother
  cases hother
  have hid : left.task.id = right.task.id := by
    have heq := hserves.taskId
    rw [hservesRight.taskId] at heq
    exact (Option.some.inj heq).symm
  exact List.inj_on_of_nodup_map hinv.distinct hleft hright hid

theorem truthful (hinv : CallsInvariant state) : Truthful state := by
  have hfinished : ∀ (index : ℕ) call answer, state.calls[index]? = some call →
      call.phase = .returned answer → ∀ thread ∈ state.callbackThreads,
        thread.task.callback = .expire index →
          thread.phase = .finished ∧ answer = true := by
    intro index call answer hcall hphase thread hmem hcallback
    obtain ⟨other, hother, hserves⟩ := hinv.served thread hmem index hcallback
    rw [hcall] at hother
    cases hother
    by_cases hdone : thread.phase = .finished
    · refine ⟨hdone, ?_⟩
      have hnot := (hserves.done hdone).2
      rw [hphase] at hnot
      cases answer with
      | true => rfl
      | false => exact (hnot rfl).elim
    · have hpending := hserves.waits hdone
      rw [hphase] at hpending
      cases hpending
  constructor
  case answer =>
    intro index call answer hcall hphase
    constructor
    · rintro rfl
      exact (hinv.promised index call true hcall (hinv.answered index call hcall hphase)).2
    · rintro ⟨thread, hmem, hcallback, _⟩
      exact (hfinished index call answer hcall hphase thread hmem hcallback).2
  case notRunning =>
    intro index call answer hcall hphase thread hmem hcallback
    exact (hfinished index call answer hcall hphase thread hmem hcallback).1
  case notStarting =>
    intro index call answer hcall hphase id task hlookup hcallback
    obtain ⟨other, hother, _, hpending⟩ := hinv.active id task index hlookup hcallback
    rw [hcall] at hother
    cases hother
    rw [hphase] at hpending
    cases hpending
  case noDanglingWrite => exact hinv.noDanglingWrite

/-! ## Steps that change no call -/

theorem shrink (hinv : CallsInvariant state) {timers : Timers Callback}
    (htimers : TimersInvariant timers) (hnextId : timers.nextId = state.timers.nextId)
    (hlookup : ∀ id task, timers.activeTasks.lookup id = some task →
      state.timers.activeTasks.lookup id = some task) (now : ℤ) :
    CallsInvariant { state with timers := timers, now := now } := by
  constructor
  case timers => exact htimers
  case unpromised =>
    intro id task hactive
    exact hinv.unpromised id task (hlookup id task hactive)
  case inactive =>
    intro thread hmem
    obtain ⟨hid, hnone⟩ := hinv.inactive thread hmem
    refine ⟨hnextId ▸ hid, ?_⟩
    rw [Option.eq_none_iff_forall_ne_some] at hnone ⊢
    intro task hactive
    exact hnone task (hlookup _ _ hactive)
  case distinct => exact hinv.distinct
  case active =>
    intro id task index hactive
    exact hinv.active id task index (hlookup id task hactive)
  case served => exact hinv.served
  case numbered => exact hinv.numbered
  case unadded => exact hinv.unadded
  case promised => exact hinv.promised
  case answered => exact hinv.answered
  case noDanglingWrite => exact hinv.noDanglingWrite

theorem cancelTimer_eq (hinv : CallsInvariant state) (timerId : Int32) :
    (state.timers.cancelTimer timerId).2 =
      { state.timers with
        activeTasks := state.timers.activeTasks.erase timerId
        settlements := state.timers.settlements } := by
  unfold Timers.cancelTimer
  cases hlookup : state.timers.activeTasks.lookup timerId with
  | none => rw [AList.erase_of_lookup_eq_none hlookup]
  | some task =>
      have hpromise := hinv.unpromised timerId task hlookup
      simp [hpromise, Timers.satisfied, Timers.settle]

theorem cancelTimer (hinv : CallsInvariant state) (timerId : Int32) :
    CallsInvariant { state with timers := (state.timers.cancelTimer timerId).2 } := by
  rw [hinv.cancelTimer_eq]
  refine hinv.shrink (hinv.timers.erase _ _) rfl ?_ state.now
  intro id task hlookup
  exact (AList.lookup_erase_eq_some_iff.mp hlookup).2

theorem cancelAllTimers (hinv : CallsInvariant state) :
    CallsInvariant { state with timers := state.timers.cancelAllTimers } := by
  refine hinv.shrink hinv.timers.cancelAllTimers rfl ?_ state.now
  intro id task hlookup
  cases hlookup

/-- A new timer of a call that waits for it, or of nobody. -/
theorem added (hinv : CallsInvariant state) {duration now : ℤ} {callback : Callback}
    (hroom : state.timers.nextId.toInt < 2 ^ 31 - 1)
    (hcallback : ∀ index, callback = .expire index →
      ∃ call, state.calls[index]? = some call ∧
        call.taskId = some (state.timers.nextId + 1) ∧ call.phase.pending = true) :
    CallsInvariant
      { state with
        timers := state.timers.addNonBlockingTimer duration callback now
        now := now } := by
  have hnext := toInt_add_one hinv.timers.counted hroom
  constructor
  case timers => exact hinv.timers.addTask hroom
  case unpromised =>
    intro id task hlookup
    simp only [Timers.addNonBlockingTimer, Timers.addTask] at hlookup
    by_cases heq : id = state.timers.nextId + 1
    · subst heq
      rw [AList.lookup_insert] at hlookup
      cases hlookup
      rfl
    · rw [AList.lookup_insert_ne heq] at hlookup
      exact hinv.unpromised id task hlookup
  case inactive =>
    intro thread hmem
    obtain ⟨hid, hnone⟩ := hinv.inactive thread hmem
    have hne : thread.task.id ≠ state.timers.nextId + 1 := by
      intro heq
      rw [heq, hnext] at hid
      omega
    simp only [Timers.addNonBlockingTimer, Timers.addTask]
    refine ⟨by omega, ?_⟩
    rw [AList.lookup_insert_ne hne]
    exact hnone
  case distinct => exact hinv.distinct
  case active =>
    intro id task index hlookup htask
    simp only [Timers.addNonBlockingTimer, Timers.addTask] at hlookup
    by_cases heq : id = state.timers.nextId + 1
    · subst heq
      rw [AList.lookup_insert] at hlookup
      cases hlookup
      exact hcallback index htask
    · rw [AList.lookup_insert_ne heq] at hlookup
      exact hinv.active id task index hlookup htask
  case served => exact hinv.served
  case numbered => exact hinv.numbered
  case unadded => exact hinv.unadded
  case promised => exact hinv.promised
  case answered => exact hinv.answered
  case noDanglingWrite => exact hinv.noDanglingWrite

theorem spawned (hinv : CallsInvariant state) {task : TimerTask Callback} {now : ℤ}
    {top : ℕ} (hget : state.timers.tasks[top]? = some task)
    (hactive : state.timers.activeTasks.lookup task.id = some task) :
    CallsInvariant
      { state with
        timers :=
          { state.timers with
            tasks := state.timers.tasks.eraseIdx top
            activeTasks := state.timers.activeTasks.erase task.id }
        now := now
        callbackThreads := state.callbackThreads ++ [⟨task, .spawned⟩] } := by
  have herased : ∀ id other, (state.timers.activeTasks.erase task.id).lookup id = some other →
      state.timers.activeTasks.lookup id = some other :=
    fun id other hlookup => (AList.lookup_erase_eq_some_iff.mp hlookup).2
  have htimers := (hinv.timers.erase task.id state.timers.settlements).eraseIdx hget
    (AList.lookup_erase _ _)
  have hshrunk := hinv.shrink htimers rfl herased now
  have hran : ∀ index, state.Ran index → ∃ thread ∈
      state.callbackThreads ++ [⟨task, .spawned⟩],
        thread.task.callback = .expire index ∧ thread.phase = .finished := by
    rintro index ⟨thread, hmem, hrest⟩
    exact ⟨thread, List.mem_append_left _ hmem, hrest⟩
  constructor
  case timers => exact htimers
  case unpromised => exact hshrunk.unpromised
  case inactive =>
    intro thread hmem
    rcases List.mem_append.mp hmem with hold | hnew
    · exact hshrunk.inactive thread hold
    · rw [List.mem_singleton.mp hnew]
      exact ⟨hinv.timers.known_of_active hactive, AList.lookup_erase _ _⟩
  case distinct =>
    rw [List.map_append, List.map_singleton, List.nodup_append]
    refine ⟨hinv.distinct, List.nodup_singleton _, ?_⟩
    intro id hid other hother heq
    obtain ⟨thread, hmem, rfl⟩ := List.mem_map.mp hid
    have hnone := (hinv.inactive thread hmem).2
    rw [heq, List.mem_singleton.mp hother, hactive] at hnone
    cases hnone
  case active => exact hshrunk.active
  case served =>
    intro thread hmem index hcallback
    rcases List.mem_append.mp hmem with hold | hnew
    · exact hinv.served thread hold index hcallback
    · rw [List.mem_singleton.mp hnew] at hcallback ⊢
      obtain ⟨call, hcall, htaskId, hpending⟩ :=
        hinv.active task.id task index hactive hcallback
      exact ⟨call, hcall, htaskId, fun _ => hpending, by simp⟩
  case numbered => exact hinv.numbered
  case unadded => exact hinv.unadded
  case promised =>
    intro index call result hcall hpromise
    obtain ⟨hresult, hfinished⟩ := hinv.promised index call result hcall hpromise
    exact ⟨hresult, hran index hfinished⟩
  case answered => exact hinv.answered
  case noDanglingWrite => exact hinv.noDanglingWrite

theorem managerStep {next : State} (hinv : CallsInvariant state) {now : ℤ} {top : ℕ}
    (hstep : Blocking.managerStep state now top = some next) : CallsInvariant next := by
  unfold Blocking.managerStep at hstep
  split_ifs at hstep
  split at hstep
  next => cases hstep
  next task timers hiteration =>
    cases hstep
    cases Timers.iterationMove_of_managerIteration hinv.timers hiteration with
    | spawned task hget hleast hdue hactive => exact hinv.spawned hget hactive
  next iteration timers hother hiteration =>
    cases hstep
    have hmove := Timers.iterationMove_of_managerIteration hinv.timers hiteration
    have htimers := hmove.invariant hinv.timers
    cases hmove with
    | waitForTask hempty => exact hinv.shrink htimers rfl (fun _ _ h => h) now
    | waitUntil task hget hearly => exact hinv.shrink htimers rfl (fun _ _ h => h) now
    | skipped task hget hinactive => exact hinv.shrink htimers rfl (fun _ _ h => h) now
    | spawned task hget hleast hdue hactive => exact (hother task rfl).elim

/-! ## Steps of the calls -/

/-- A call changes its locals and its phase, and the timer and the thread of
the call agree with the change. -/
theorem setCall (hinv : CallsInvariant state) {index : ℕ} {call : Call}
    (hget : state.calls[index]? = some call) (updated : Call)
    (hactive : ∀ id task, state.timers.activeTasks.lookup id = some task →
      task.callback = .expire index → updated.taskId = some id ∧
        updated.phase.pending = true)
    (hserved : ∀ thread ∈ state.callbackThreads,
      thread.task.callback = .expire index → Serves updated thread)
    (hnumbered : ∀ id, updated.taskId = some id → 0 < id.toInt)
    (hunadded : updated.phase ≠ .addTimer)
    (hpromise : updated.promise = call.promise)
    (hanswered : updated.phase = .returned true → updated.promise = some true) :
    CallsInvariant (state.setCall index updated) := by
  have hself := ListUpdate.getElem?_set_self hget updated
  constructor
  case timers => exact hinv.timers
  case unpromised => exact hinv.unpromised
  case inactive => exact hinv.inactive
  case distinct => exact hinv.distinct
  case active =>
    intro id task other hlookup hcallback
    by_cases heq : index = other
    · subst heq
      exact ⟨updated, hself, hactive id task hlookup hcallback⟩
    · obtain ⟨found, hfound, hrest⟩ := hinv.active id task other hlookup hcallback
      exact ⟨found, (ListUpdate.getElem?_set_of_ne heq updated).trans hfound, hrest⟩
  case served =>
    intro thread hmem other hcallback
    by_cases heq : index = other
    · subst heq
      exact ⟨updated, hself, hserved thread hmem hcallback⟩
    · obtain ⟨found, hfound, hserves⟩ := hinv.served thread hmem other hcallback
      exact ⟨found, (ListUpdate.getElem?_set_of_ne heq updated).trans hfound, hserves⟩
  case numbered =>
    intro other found id hfound hid
    rcases ListUpdate.getElem?_set_cases hfound with ⟨rfl, rfl⟩ | ⟨_, hold⟩
    · exact hnumbered id hid
    · exact hinv.numbered other found id hold hid
  case unadded =>
    intro other found hfound hphase
    rcases ListUpdate.getElem?_set_cases hfound with ⟨rfl, rfl⟩ | ⟨_, hold⟩
    · exact (hunadded hphase).elim
    · exact hinv.unadded other found hold hphase
  case promised =>
    intro other found result hfound hresult
    rcases ListUpdate.getElem?_set_cases hfound with ⟨rfl, rfl⟩ | ⟨_, hold⟩
    · exact hinv.promised index call result hget (hpromise ▸ hresult)
    · exact hinv.promised other found result hold hresult
  case answered =>
    intro other found hfound hphase
    rcases ListUpdate.getElem?_set_cases hfound with ⟨rfl, rfl⟩ | ⟨_, hold⟩
    · exact hanswered hphase
    · exact hinv.answered other found hold hphase
  case noDanglingWrite => exact hinv.noDanglingWrite

theorem setPending (hinv : CallsInvariant state) {index : ℕ} {call : Call}
    (hget : state.calls[index]? = some call) (phase : CallPhase)
    (hphase : phase.pending = true) :
    CallsInvariant (state.setCall index { call with phase := phase }) := by
  refine hinv.setCall hget _ ?_ ?_ (fun id hid => hinv.numbered index call id hget hid) ?_
    rfl ?_
  · intro id task hlookup hcallback
    obtain ⟨found, hfound, htaskId, _⟩ := hinv.active id task index hlookup hcallback
    rw [hget] at hfound
    cases hfound
    exact ⟨htaskId, hphase⟩
  · intro thread hmem hcallback
    obtain ⟨found, hfound, hserves⟩ := hinv.served thread hmem index hcallback
    rw [hget] at hfound
    cases hfound
    refine ⟨hserves.taskId, fun _ => hphase, ?_⟩
    intro hdone
    refine ⟨(hserves.done hdone).1, ?_⟩
    rintro rfl
    cases hphase
  · rintro rfl
    cases hphase
  · rintro rfl
    cases hphase

theorem settled (hinv : CallsInvariant state) {index : ℕ} {call : Call}
    (hget : state.calls[index]? = some call) (hset : call.promise.isSome = true) :
    call.promise = some true ∧
      (∀ id task, state.timers.activeTasks.lookup id = some task →
        task.callback ≠ .expire index) ∧
      ∀ thread ∈ state.callbackThreads, thread.task.callback = .expire index →
        call.taskId = some thread.task.id ∧ thread.phase = .finished := by
  obtain ⟨result, hresult⟩ := Option.isSome_iff_exists.mp hset
  obtain ⟨rfl, done, hdone, hdoneCall, hfinished⟩ :=
    hinv.promised index call result hget hresult
  obtain ⟨found, hfound, hserves⟩ := hinv.served done hdone index hdoneCall
  rw [hget] at hfound
  cases hfound
  refine ⟨hresult, ?_, ?_⟩
  · intro id task hlookup hcallback
    obtain ⟨found, hfound, htaskId, _⟩ := hinv.active id task index hlookup hcallback
    rw [hget] at hfound
    cases hfound
    rw [hserves.taskId] at htaskId
    cases htaskId
    rw [(hinv.inactive done hdone).2] at hlookup
    cases hlookup
  · intro thread hmem hcallback
    rw [hinv.eq_of_served hmem hdone hcallback hdoneCall]
    exact ⟨hserves.taskId, hfinished⟩

theorem setSettled (hinv : CallsInvariant state) {index : ℕ} {call : Call}
    (hget : state.calls[index]? = some call) (hset : call.promise.isSome = true)
    (phase : CallPhase) (hphase : phase = .ready ∨ phase = .returned true) :
    CallsInvariant (state.setCall index { call with phase := phase }) := by
  obtain ⟨hpromise, hnoTimer, hthreads⟩ := hinv.settled hget hset
  refine hinv.setCall hget _ ?_ ?_ (fun id hid => hinv.numbered index call id hget hid) ?_
    rfl (fun _ => hpromise)
  · intro id task hlookup hcallback
    exact (hnoTimer id task hlookup hcallback).elim
  · intro thread hmem hcallback
    obtain ⟨htaskId, hfinished⟩ := hthreads thread hmem hcallback
    refine ⟨htaskId, fun hnot => (hnot hfinished).elim, fun _ => ⟨hpromise, ?_⟩⟩
    rcases hphase with rfl | rfl <;> simp
  · rcases hphase with rfl | rfl <;> simp

theorem afterTimeout (hinv : CallsInvariant state) {index : ℕ} {call : Call} {taskId : Int32}
    (hget : state.calls[index]? = some call) (htaskId : call.taskId = some taskId)
    (hunfired : ∀ thread ∈ state.callbackThreads,
      thread.task.callback ≠ .expire index) :
    CallsInvariant
      { state.setCall index { call with phase := .returned false } with
        timers := (state.timers.cancelTimer taskId).2 } := by
  have hcancelled := hinv.cancelTimer taskId
  refine hcancelled.setCall hget _ ?_ ?_
    (fun id hid => hinv.numbered index call id hget hid) (by simp) rfl (by simp)
  · intro id task hlookup hcallback
    obtain ⟨found, hfound, hid, _⟩ := hcancelled.active id task index hlookup hcallback
    rw [show found = call from Option.some.inj (hfound.symm.trans hget), htaskId] at hid
    cases hid
    rw [hinv.cancelTimer_eq] at hlookup
    exact ((AList.lookup_erase_eq_some_iff.mp hlookup).1 rfl).elim
  · intro thread hmem hcallback
    exact (hunfired thread hmem hcallback).elim

theorem afterAdd (hinv : CallsInvariant state) {index : ℕ} {call : Call} {now : ℤ}
    (hget : state.calls[index]? = some call) (hphase : call.phase = .addTimer)
    (hroom : state.timers.nextId.toInt < 2 ^ 31 - 1) :
    CallsInvariant
      { state.setCall index
          { call with phase := .testId, taskId := some (state.timers.nextId + 1) } with
        timers := state.timers.addNonBlockingTimer call.duration (.expire index) now
        now := now } := by
  have hnone := hinv.unadded index call hget hphase
  have hlt : index < state.calls.length := List.getElem?_eq_some_iff.mp hget |>.1
  have hcalled : CallsInvariant (state.setCall index
      { call with phase := .testId, taskId := some (state.timers.nextId + 1) }) := by
    refine hinv.setCall hget _ ?_ ?_ ?_ (by simp) rfl (by simp)
    · intro id task hlookup hcallback
      obtain ⟨found, hfound, hid, _⟩ := hinv.active id task index hlookup hcallback
      rw [hget] at hfound
      cases hfound
      rw [hnone] at hid
      cases hid
    · intro thread hmem hcallback
      obtain ⟨found, hfound, hserves⟩ := hinv.served thread hmem index hcallback
      rw [hget] at hfound
      cases hfound
      have hid := hserves.taskId
      rw [hnone] at hid
      cases hid
    · intro id hid
      cases hid
      have hcounted := hinv.timers.counted
      rw [toInt_add_one hcounted hroom]
      omega
  apply hcalled.added hroom
  intro other hother
  cases hother
  exact ⟨{ call with phase := .testId, taskId := some (state.timers.nextId + 1) },
    by simp [State.setCall, hlt], rfl, rfl⟩

theorem callStep {next : State} (hinv : CallsInvariant state) {index : ℕ} {now : ℤ}
    (hcondition : CancelsUnfired state (.call index now))
    (hstep : Blocking.callStep state index now = some next) : CallsInvariant next := by
  unfold Blocking.callStep at hstep
  split at hstep
  next => cases hstep
  next call hget =>
    obtain ⟨hroom, hunfired⟩ := hcondition call hget
    split at hstep
    next hphase =>
      split_ifs at hstep
      cases hstep
      exact hinv.afterAdd hget hphase (hroom hphase)
    next hphase =>
      split at hstep
      next => cases hstep
      next taskId htaskId =>
        have hpositive := hinv.numbered index call taskId hget htaskId
        have hnot : ¬ taskId < 0 := by
          rw [Int32.lt_iff_toInt_lt, Int32.toInt_zero]
          omega
        simp only [if_neg hnot] at hstep
        split_ifs at hstep
        cases hstep
        have hwaiting := hinv.setPending hget
          (.waiting (now + (call.duration + 100) * 1000000)) rfl
        exact hwaiting.shrink hwaiting.timers rfl (fun _ _ h => h) now
    next deadline hphase =>
      split_ifs at hstep with hset
      cases hstep
      exact hinv.setSettled hget hset _ (Or.inl rfl)
    next hphase =>
      split at hstep
      next => cases hstep
      next taskId htaskId =>
        cases hstep
        exact hinv.afterTimeout hget htaskId (hunfired hphase)
    next hphase =>
      split at hstep
      next => cases hstep
      next result hresult =>
        cases hstep
        obtain ⟨rfl, _⟩ := hinv.promised index call result hget hresult
        exact hinv.setSettled hget (by rw [hresult]; rfl) _ (Or.inr rfl)
    next => cases hstep

theorem timeoutStep {next : State} (hinv : CallsInvariant state) {index : ℕ} {now : ℤ}
    (hstep : Blocking.timeoutStep state index now = some next) : CallsInvariant next := by
  unfold Blocking.timeoutStep at hstep
  split at hstep
  next => cases hstep
  next call hget =>
    split at hstep
    next deadline hphase =>
      split_ifs at hstep
      cases hstep
      have htimedOut := hinv.setPending hget .timedOut rfl
      exact htimedOut.shrink htimedOut.timers rfl (fun _ _ h => h) now
    next => cases hstep

/-! ## Steps of the callback threads -/

/-- The thread of a call moves on and writes the locals or the promise of the
call, which waits for it. -/
theorem setThread (hinv : CallsInvariant state) {index caller : ℕ}
    {thread : CallbackThread} {call : Call}
    (hthread : state.callbackThreads[index]? = some thread)
    (hcallback : thread.task.callback = .expire caller)
    (hunfinished : thread.phase ≠ .finished)
    (hget : state.calls[caller]? = some call) (updated : Call) (phase : ThreadPhase)
    (htaskId : updated.taskId = call.taskId) (hphase : updated.phase = call.phase)
    (hpromise : phase ≠ .finished → updated.promise = call.promise)
    (hfinished : phase = .finished → updated.promise = some true) :
    CallsInvariant
      { state.setCall caller updated with
        callbackThreads := state.callbackThreads.set index { thread with phase := phase } } := by
  have hmem : thread ∈ state.callbackThreads := List.mem_of_getElem? hthread
  have hself := ListUpdate.getElem?_set_self hget updated
  obtain ⟨found, hfound, hserves⟩ := hinv.served thread hmem caller hcallback
  rw [hget] at hfound
  cases hfound
  have hpending := hserves.waits hunfinished
  -- a finished thread of another call is none of the changed one
  have hran : ∀ other, caller ≠ other → state.Ran other →
      ∃ done ∈ state.callbackThreads.set index { thread with phase := phase },
        done.task.callback = .expire other ∧ done.phase = .finished := by
    rintro other hne ⟨done, hdone, hdoneCall, hdonePhase⟩
    refine ⟨done, ListUpdate.mem_set_of_ne hthread hdone ?_ _, hdoneCall, hdonePhase⟩
    rintro rfl
    rw [hcallback] at hdoneCall
    cases hdoneCall
    exact hne rfl
  have hnew : { thread with phase := phase } ∈
      state.callbackThreads.set index { thread with phase := phase } :=
    List.mem_of_getElem? (ListUpdate.getElem?_set_self hthread _)
  -- the members of the changed list
  have hmembers : ∀ member ∈ state.callbackThreads.set index { thread with phase := phase },
      member = { thread with phase := phase } ∨
        member ∈ state.callbackThreads ∧ member.task.id ≠ thread.task.id :=
    fun member hmember => ListUpdate.eq_or_ne_of_mem_set hinv.distinct hthread hmember
  constructor
  case timers => exact hinv.timers
  case unpromised => exact hinv.unpromised
  case inactive =>
    intro member hmember
    rcases hmembers member hmember with rfl | ⟨hold, _⟩
    · exact hinv.inactive thread hmem
    · exact hinv.inactive member hold
  case distinct =>
    have hids : (state.callbackThreads.set index { thread with phase := phase }).map
        (fun member => member.task.id) =
          state.callbackThreads.map fun member => member.task.id :=
      ListUpdate.map_set_of_eq hthread rfl
    exact (congrArg List.Nodup hids).mpr hinv.distinct
  case active =>
    intro id task other hlookup htask
    obtain ⟨found, hfound, hid, hwaits⟩ := hinv.active id task other hlookup htask
    by_cases heq : caller = other
    · subst heq
      rw [hget] at hfound
      cases hfound
      exact ⟨updated, hself, htaskId.trans hid, by rw [hphase]; exact hwaits⟩
    · exact ⟨found, (ListUpdate.getElem?_set_of_ne heq updated).trans hfound, hid, hwaits⟩
  case served =>
    intro member hmember other hmemberCall
    rcases hmembers member hmember with rfl | ⟨hold, hne⟩
    · have heq : caller = other := by
        rw [hcallback] at hmemberCall
        cases hmemberCall
        rfl
      subst heq
      refine ⟨updated, hself, htaskId.trans hserves.taskId, ?_, ?_⟩
      · intro _
        rw [hphase]
        exact hpending
      · intro hdone
        refine ⟨hfinished hdone, ?_⟩
        rw [hphase]
        intro hreturned
        rw [hreturned] at hpending
        cases hpending
    · obtain ⟨found, hfound, hmemberServes⟩ := hinv.served member hold other hmemberCall
      have heq : caller ≠ other := by
        rintro rfl
        exact hne (congrArg (fun served => served.task.id)
          (hinv.eq_of_served hold hmem hmemberCall hcallback))
      exact ⟨found, (ListUpdate.getElem?_set_of_ne heq updated).trans hfound, hmemberServes⟩
  case numbered =>
    intro other found id hfound hid
    rcases ListUpdate.getElem?_set_cases hfound with ⟨rfl, rfl⟩ | ⟨_, hold⟩
    · exact hinv.numbered caller call id hget (htaskId ▸ hid)
    · exact hinv.numbered other found id hold hid
  case unadded =>
    intro other found hfound hadd
    rcases ListUpdate.getElem?_set_cases hfound with ⟨rfl, rfl⟩ | ⟨_, hold⟩
    · rw [htaskId]
      exact hinv.unadded caller call hget (hphase ▸ hadd)
    · exact hinv.unadded other found hold hadd
  case promised =>
    intro other found result hfound hresult
    rcases ListUpdate.getElem?_set_cases hfound with ⟨rfl, rfl⟩ | ⟨hne, hold⟩
    · by_cases hdone : phase = .finished
      · rw [hfinished hdone] at hresult
        cases hresult
        exact ⟨rfl, _, hnew, hcallback, hdone⟩
      · rw [hpromise hdone] at hresult
        have hset : call.promise.isSome = true := by rw [hresult]; rfl
        exact (hunfinished ((hinv.settled hget hset).2.2 thread hmem hcallback).2).elim
    · obtain ⟨htrue, hfinishedThread⟩ := hinv.promised other found result hold hresult
      exact ⟨htrue, hran other hne hfinishedThread⟩
  case answered =>
    intro other found hfound hreturned
    rcases ListUpdate.getElem?_set_cases hfound with ⟨rfl, rfl⟩ | ⟨_, hold⟩
    · rw [hphase] at hreturned
      rw [hreturned] at hpending
      cases hpending
    · exact hinv.answered other found hold hreturned
  case noDanglingWrite => exact hinv.noDanglingWrite

theorem setOther (hinv : CallsInvariant state) {index : ℕ} {thread : CallbackThread}
    (hthread : state.callbackThreads[index]? = some thread)
    (hcallback : thread.task.callback = .other) (phase : ThreadPhase) :
    CallsInvariant
      { state with
        callbackThreads := state.callbackThreads.set index { thread with phase := phase } } := by
  have hmembers : ∀ member ∈ state.callbackThreads.set index { thread with phase := phase },
      member = { thread with phase := phase } ∨ member ∈ state.callbackThreads := by
    intro member hmember
    exact (List.mem_or_eq_of_mem_set hmember).symm
  have hids : (state.callbackThreads.set index { thread with phase := phase }).map
      (fun member => member.task.id) =
        state.callbackThreads.map fun member => member.task.id :=
    ListUpdate.map_set_of_eq hthread rfl
  constructor
  case timers => exact hinv.timers
  case unpromised => exact hinv.unpromised
  case inactive =>
    intro member hmember
    rcases hmembers member hmember with rfl | hold
    · exact hinv.inactive thread (List.mem_of_getElem? hthread)
    · exact hinv.inactive member hold
  case distinct => exact (congrArg List.Nodup hids).mpr hinv.distinct
  case active => exact hinv.active
  case served =>
    intro member hmember other hmemberCall
    rcases hmembers member hmember with rfl | hold
    · rw [hcallback] at hmemberCall
      cases hmemberCall
    · exact hinv.served member hold other hmemberCall
  case numbered => exact hinv.numbered
  case unadded => exact hinv.unadded
  case promised =>
    intro other call result hcall hresult
    obtain ⟨htrue, done, hdone, hdoneCall, hfinished⟩ :=
      hinv.promised other call result hcall hresult
    refine ⟨htrue, done, ListUpdate.mem_set_of_ne hthread hdone ?_ _, hdoneCall, hfinished⟩
    rintro rfl
    rw [hcallback] at hdoneCall
    cases hdoneCall
  case answered => exact hinv.answered
  case noDanglingWrite => exact hinv.noDanglingWrite

theorem callbackThreadStep {next : State} (hinv : CallsInvariant state) {index : ℕ}
    (hstep : Blocking.callbackThreadStep state index = some next) :
    CallsInvariant next := by
  unfold Blocking.callbackThreadStep at hstep
  split at hstep
  next => cases hstep
  next thread hthread =>
    split at hstep
    next hphase hcallback =>
      cases hstep
      exact hinv.setOther hthread hcallback .finished
    next caller hphase hcallback =>
      split at hstep
      next => cases hstep
      next call hget =>
        cases hstep
        have hunfinished : thread.phase ≠ .finished := by simp [hphase]
        obtain ⟨found, hfound, hserves⟩ :=
          hinv.served thread (List.mem_of_getElem? hthread) caller hcallback
        rw [hget] at hfound
        cases hfound
        have hwaits := hserves.waits hunfinished
        have hlive : call.phase.isReturned = false := by
          cases hcall : call.phase <;> simp_all [CallPhase.isReturned, CallPhase.pending]
        rw [hlive, Bool.or_false]
        exact hinv.setThread hthread hcallback hunfinished hget
          { call with timerExpired := true } .expired rfl rfl (fun _ => rfl) (by simp)
    next caller hphase hcallback =>
      split at hstep
      next => cases hstep
      next call hget =>
        cases hstep
        have hunfinished : thread.phase ≠ .finished := by simp [hphase]
        have hunset : call.promise = none := by
          by_contra hset
          have hdone := (hinv.settled hget (Option.isSome_iff_ne_none.mpr hset)).2.2 thread
            (List.mem_of_getElem? hthread) hcallback
          exact hunfinished hdone.2
        refine hinv.setThread hthread hcallback hunfinished hget call.setPromise .finished
          rfl rfl (by simp) ?_
        intro _
        simp [Call.setPromise, hunset]
    all_goals cases hstep

theorem addCall (hinv : CallsInvariant state) (duration : ℤ) :
    CallsInvariant
      { state with
        calls := state.calls ++ [⟨duration, .addTimer, none, false, none⟩] } := by
  have hcases : ∀ (index : ℕ) call,
      (state.calls ++ [⟨duration, .addTimer, none, false, none⟩])[index]? = some call →
        state.calls[index]? = some call ∨ call = ⟨duration, .addTimer, none, false, none⟩ := by
    intro index call hcall
    by_cases hlt : index < state.calls.length
    · rw [List.getElem?_append_left hlt] at hcall
      exact Or.inl hcall
    · rw [List.getElem?_append_right (by omega), List.getElem?_singleton] at hcall
      split_ifs at hcall
      cases hcall
      exact Or.inr rfl
  constructor
  case timers => exact hinv.timers
  case unpromised => exact hinv.unpromised
  case inactive => exact hinv.inactive
  case distinct => exact hinv.distinct
  case active =>
    intro id task index hlookup hcallback
    obtain ⟨call, hcall, hrest⟩ := hinv.active id task index hlookup hcallback
    exact ⟨call, ListUpdate.getElem?_append_of_eq_some hcall _, hrest⟩
  case served =>
    intro thread hmem index hcallback
    obtain ⟨call, hcall, hserves⟩ := hinv.served thread hmem index hcallback
    exact ⟨call, ListUpdate.getElem?_append_of_eq_some hcall _, hserves⟩
  case numbered =>
    intro index call id hcall hid
    rcases hcases index call hcall with hold | rfl
    · exact hinv.numbered index call id hold hid
    · cases hid
  case unadded =>
    intro index call hcall hphase
    rcases hcases index call hcall with hold | rfl
    · exact hinv.unadded index call hold hphase
    · rfl
  case promised =>
    intro index call result hcall hresult
    rcases hcases index call hcall with hold | rfl
    · exact hinv.promised index call result hold hresult
    · cases hresult
  case answered =>
    intro index call hcall hphase
    rcases hcases index call hcall with hold | rfl
    · exact hinv.answered index call hold hphase
    · cases hphase
  case noDanglingWrite => exact hinv.noDanglingWrite

end CallsInvariant

theorem callsInvariant_step {state next : State} {action : Action}
    (hinv : CallsInvariant state) (hcondition : CancelsUnfired state action)
    (hstep : step state action = some next) : CallsInvariant next := by
  cases action with
  | addBlockingTimer duration =>
      cases hstep
      exact hinv.addCall duration
  | call index now => exact hinv.callStep hcondition hstep
  | timeout index now => exact hinv.timeoutStep hstep
  | addNonBlockingTimer duration now =>
      simp only [step] at hstep
      split_ifs at hstep
      cases hstep
      apply hinv.added hcondition
      intro index hother
      cases hother
  | cancelTimer timerId =>
      cases hstep
      exact hinv.cancelTimer timerId
  | cancelAllTimers =>
      cases hstep
      exact hinv.cancelAllTimers
  | managerIteration now top => exact hinv.managerStep hstep
  | callbackThread index => exact hinv.callbackThreadStep hstep

/-! ## The result -/

/-- In every run in which the ids do not run out and no call that has timed out
finds its timer fired, every call that returns tells the truth and leaves no
callback behind. -/
theorem blockingTimers_truthful {start : ℤ} {state : State}
    (hreach : (system start).ReachableMeeting CancelsUnfired state) : Truthful state := by
  have hinv : CallsInvariant state := by
    apply hreach.invariant CallsInvariant (initial_callsInvariant start)
    intro before action after hbefore hcondition hstep
    exact callsInvariant_step hbefore hcondition hstep
  exact hinv.truthful

/-- A timer of 5 ms fires in time and its call returns `true`. -/
theorem blockingTimers_truthful_firedRun :
    ∃ state call, (system 0).ReachableMeeting CancelsUnfired state ∧
      state.calls[0]? = some call ∧ call.phase = .returned true ∧ Truthful state := by
  obtain ⟨state, hrun, hcalls⟩ : ∃ state,
      (system 0).run (initial 0)
          [.addBlockingTimer 5, .call 0 0, .call 0 0, .managerIteration 5000000 0,
            .callbackThread 0, .callbackThread 0, .call 0 5000000, .call 0 5000000] =
        some state ∧
      state.calls = [⟨5, .returned true, some 1, true, some true⟩] :=
    ⟨_, rfl, by decide⟩
  have hreach : (system 0).ReachableMeeting CancelsUnfired state := ⟨_, hrun, by decide⟩
  exact ⟨state, ⟨5, .returned true, some 1, true, some true⟩, hreach, by simp [hcalls], rfl,
    blockingTimers_truthful hreach⟩

/-- The timer of 5 ms is fired, its thread does not get to run for 100 ms, and
the call returns `false`; then the callback writes the variable of the call. -/
theorem blockingTimer_writesAfterReturn :
    ¬ ∀ state, (system 0).Reachable state → Truthful state := by
  intro hall
  obtain ⟨state, hrun, hdangling⟩ : ∃ state,
      (system 0).run (initial 0)
          [.addBlockingTimer 5, .call 0 0, .call 0 0, .managerIteration 5000000 0,
            .timeout 0 105000000, .call 0 105000000, .callbackThread 0] = some state ∧
      state.danglingWrite = true :=
    ⟨_, rfl, by decide⟩
  have hsafe := (hall state ⟨_, hrun⟩).noDanglingWrite
  rw [hdangling] at hsafe
  cases hsafe

/-- Where a call that has timed out finds its timer fired, it does not tell the
truth: the condition is exact. -/
theorem not_truthful_of_fired {state next : State} {index : ℕ} {now : ℤ} {call : Call}
    {thread : CallbackThread} (hget : state.calls[index]? = some call)
    (hphase : call.phase = .timedOut) (hmem : thread ∈ state.callbackThreads)
    (hcallback : thread.task.callback = .expire index)
    (hstep : step state (.call index now) = some next) : ¬ Truthful next := by
  intro htruthful
  simp only [step, callStep, hget, hphase] at hstep
  split at hstep
  · cases hstep
  · cases hstep
    have hreturned := ListUpdate.getElem?_set_self hget
      { call with phase := .returned false }
    have hfinished := htruthful.notRunning index _ false hreturned rfl thread hmem hcallback
    have hanswer := htruthful.answer index _ false hreturned rfl
    cases hanswer.mpr ⟨thread, hmem, hcallback, hfinished⟩

end CppProj.DualModeTimer.Blocking
