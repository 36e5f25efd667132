import CppProj.GracefulTimerFiring

/-!
# Is a cancellation exact

`cancelTimer` marks the timer in `active_tasks_` and leaves it there until its
copy in the queue is due; it does not look at the mark, and a second call for
the same id returns true again.  As long as no call finds its timer marked
already, and no id is given twice, every timer is cancelled at most once or
called exactly once, and not both; and only so long.
-/

universe u

namespace CppProj.GracefulTimer

variable {Callback : Type u}

/-- A call of `cancelTimer` does not find its timer marked. -/
def CancelsUnmarked (state : State Callback) : Action Callback → Prop
  | .cancelTimer timerId =>
      ∀ task ∈ state.timers.activeTasks.lookup timerId, task.isCancelled = false
  | _ => True

instance (state : State Callback) (action : Action Callback) :
    Decidable (CancelsUnmarked state action) :=
  match action with
  | .cancelTimer _ => inferInstanceAs (Decidable (∀ _ ∈ _, _))
  | .setShouldExit | .callStart | .callStop _ | .control | .giveUp | .callAdd _ _
  | .add _ _ | .manager _ _ => isTrue trivial

/-- No timer is cancelled twice, or cancelled and called, or called twice.  A
taken timer has been called or is called by the next step of the manager, and
an active one is taken if `running_` stays true, its time passes and no call
cancels it; the number of steps of the manager is bounded. -/
structure ExactCancellation (start : ℤ) (state : State Callback) : Prop where
  cancelledOnce : ∀ id, state.cancels.count id ≤ 1
  cancelledNotTaken : ∀ id ∈ state.cancels, id ∉ state.taken
  cancelledNotRun : ∀ id ∈ state.cancels, id ∉ state.runs
  runOnce : ∀ id, state.runs.count id ≤ 1
  takenRuns : ∀ id ∈ state.taken, state.runs.count id = 1 ∨ state.manager.uncalled = some id
  moves : state.running = true → state.manager.joinable = true →
    ∀ now, state.now ≤ now →
      (∃ top next, step state (.manager now top) = some next) ∨
        ∃ index phase next, state.adds[index]? = some phase ∧ phase.holdsMutex = true ∧
          step state (.add index now) = some next
  fires : state.manager.joinable = true → ∀ id task,
    state.timers.activeTasks.lookup id = some task → task.isCancelled = false →
      ∀ actions final, (system start).run state actions = some final →
        (system start).StepsMeet (KeepsRunning task.expiryTime) state actions →
        final.additions ≤ 2 ^ 32 → id ∉ final.cancels →
        8 * (state.timers.tasksQueue.length + 1 + (final.additions - state.additions)) ≤
          (actions.map Action.managerSteps).sum →
        id ∈ final.runs

/-! ## The invariant -/

structure CancellationInvariant (state : State Callback) : Prop where
  firing : FiringInvariant state
  cancelsNodup : state.cancels.Nodup
  cancelled : ∀ id ∈ state.cancels, Issued state.additions id ∧ id ∉ state.taken ∧
    ∀ task, state.timers.activeTasks.lookup id = some task → task.isCancelled = true
  takenNodup : state.taken.Nodup
  takenGone : ∀ id ∈ state.taken, Issued state.additions id ∧
    ∀ copy ∈ state.timers.tasksQueue, copy.id ≠ id
  called : state.taken = state.runs ++ state.manager.uncalled.toList

namespace CancellationInvariant

variable {state next : State Callback}

theorem initial (start : ℤ) : CancellationInvariant (initial start : State Callback) := by
  refine ⟨TimersInvariant.initial, ?_, ?_, ?_, ?_, ?_⟩ <;>
    simp [GracefulTimer.initial, ManagerPhase.uncalled]

theorem shrink (hinv : CancellationInvariant state) (hfiring : FiringInvariant next)
    (hadditions : next.additions = state.additions) (hcancels : next.cancels = state.cancels)
    (htaken : next.taken = state.taken)
    (hqueue : ∀ copy ∈ next.timers.tasksQueue, copy ∈ state.timers.tasksQueue)
    (hactive : ∀ id task, next.timers.activeTasks.lookup id = some task →
      state.timers.activeTasks.lookup id = some task)
    (hcalled : next.runs ++ next.manager.uncalled.toList =
      state.runs ++ state.manager.uncalled.toList) :
    CancellationInvariant next := by
  refine ⟨hfiring, hcancels ▸ hinv.cancelsNodup, ?_, htaken ▸ hinv.takenNodup, ?_,
    by rw [htaken, hcalled, hinv.called]⟩
  · intro id hmem
    rw [hcancels] at hmem
    obtain ⟨hissued, hnot, hflagged⟩ := hinv.cancelled id hmem
    rw [hadditions, htaken]
    exact ⟨hissued, hnot, fun task hlookup => hflagged task (hactive id task hlookup)⟩
  · intro id hmem
    rw [htaken] at hmem
    obtain ⟨hissued, hgone⟩ := hinv.takenGone id hmem
    rw [hadditions]
    exact ⟨hissued, fun copy hcopy => hgone copy (hqueue copy hcopy)⟩

theorem frame (hinv : CancellationInvariant state) (hfiring : FiringInvariant next)
    (hadditions : next.additions = state.additions) (hcancels : next.cancels = state.cancels)
    (htaken : next.taken = state.taken)
    (hqueue : next.timers.tasksQueue = state.timers.tasksQueue)
    (hactive : next.timers.activeTasks = state.timers.activeTasks)
    (hcalled : next.runs ++ next.manager.uncalled.toList =
      state.runs ++ state.manager.uncalled.toList) :
    CancellationInvariant next := by
  refine hinv.shrink hfiring hadditions hcancels htaken ?_ ?_ hcalled
  · intro copy hmem
    rwa [hqueue] at hmem
  · intro id task hlookup
    rwa [hactive] at hlookup

theorem managerMove (hinv : CancellationInvariant state) {now : ℤ}
    (hmove : ManagerMove state now next) : CancellationInvariant next := by
  have hfiring := hinv.firing.managerMove hmove
  have hcalled := hinv.called
  cases hmove with
  | quiet manager later hbefore hafter hthread hstill hexit =>
      apply hinv.frame hfiring rfl rfl rfl rfl rfl
      rw [ManagerPhase.uncalled_of_firing hbefore, ManagerPhase.uncalled_of_firing hafter]
  | skipped timers hinspect hmove =>
      cases hmove with
      | skipped top copy hget hflagged =>
          refine hinv.shrink hfiring rfl rfl rfl (fun _ => List.mem_of_mem_eraseIdx) ?_ ?_
          · exact fun _ _ hlookup => (AList.lookup_erase_eq_some_iff.mp hlookup).2
          · rw [hinspect]
            rfl
  | taken timers task hinspect hmove =>
      cases hmove with
      | taken top copy _ hget hexpired hactive hfresh =>
          obtain ⟨hid, _⟩ := hinv.firing.active copy.id task hactive
          have hnotTaken : task.id ∉ state.taken := fun hmem =>
            (hinv.takenGone task.id hmem).2 copy (List.mem_of_getElem? hget) hid.symm
          have hnotCancelled : task.id ∉ state.cancels := by
            intro hmem
            have hflagged := (hinv.cancelled task.id hmem).2.2 task (hid ▸ hactive)
            rw [hfresh] at hflagged
            cases hflagged
          constructor
          case firing => exact hfiring
          case cancelsNodup => exact hinv.cancelsNodup
          case cancelled =>
            intro id hmem
            obtain ⟨hissued, hnot, hflagged⟩ := hinv.cancelled id hmem
            refine ⟨hissued, ?_, ?_⟩
            · rw [List.mem_append, List.mem_singleton, not_or]
              refine ⟨hnot, ?_⟩
              rintro rfl
              exact hnotCancelled hmem
            · intro other hlookup
              exact hflagged other (AList.lookup_erase_eq_some_iff.mp hlookup).2
          case takenNodup =>
            exact List.nodup_append_comm.mpr (List.nodup_cons.mpr ⟨hnotTaken, hinv.takenNodup⟩)
          case takenGone =>
            intro id hmem
            rcases List.mem_append.mp hmem with hmem | hmem
            · obtain ⟨hissued, hgone⟩ := hinv.takenGone id hmem
              exact ⟨hissued, fun other hother => hgone other (List.mem_of_mem_eraseIdx hother)⟩
            · rw [List.mem_singleton.mp hmem]
              exact hfiring.popped task.id rfl
          case called =>
            rw [hinspect] at hcalled
            simp only [ManagerPhase.uncalled, Option.toList_none, List.append_nil] at hcalled
            simp [hcalled, ManagerPhase.uncalled]
  | increment task hwrapper =>
      apply hinv.frame hfiring rfl rfl rfl rfl rfl
      rw [hwrapper]
      simp [ManagerPhase.uncalled]
  | finish task hcallback =>
      apply hinv.frame hfiring rfl rfl rfl rfl rfl
      rw [hcallback]
      rfl
  | decrement task hdecrement =>
      apply hinv.frame hfiring rfl rfl rfl rfl rfl
      rw [hdecrement]
      rfl
  | erasePending task herase =>
      apply hinv.frame hfiring rfl rfl rfl rfl rfl
      rw [herase]
      rfl

theorem uncalled_of_joinable {manager : ManagerPhase Callback}
    (hthread : manager.joinable = false) : manager.uncalled = none :=
  ManagerPhase.uncalled_of_firing (ManagerPhase.firing_of_joinable hthread)

theorem controlMove (hinv : CancellationInvariant state) (hmove : ControlMove state next) :
    CancellationInvariant next := by
  have hfiring := hinv.firing.controlMove hmove
  cases hmove with
  | moved running control hfits hexit =>
      exact hinv.frame hfiring rfl rfl rfl rfl rfl rfl
  | spawned hrunning hthread =>
      apply hinv.frame hfiring rfl rfl rfl rfl rfl
      rw [uncalled_of_joinable hthread]
      rfl
  | joined control hexited hfits =>
      apply hinv.frame hfiring rfl rfl rfl rfl rfl
      rw [hexited]
      rfl
  | cleared hrunning hthread =>
      refine hinv.shrink hfiring rfl rfl rfl ?_ ?_ rfl
      · intro copy hmem
        cases hmem
      · intro id task hlookup
        cases hlookup

theorem inserted (hinv : CancellationInvariant state) {index : ℕ} {duration now : ℤ}
    {callback : Callback} (hroom : state.additions < 2 ^ 32)
    (hfiring : FiringInvariant { state.setAdd index (.returned (state.timers.nextId + 1)) with
      timers := state.timers.addNonBlockingTimer duration callback now
      now := now
      additions := state.additions + 1 }) :
    CancellationInvariant { state.setAdd index (.returned (state.timers.nextId + 1)) with
      timers := state.timers.addNonBlockingTimer duration callback now
      now := now
      additions := state.additions + 1 } := by
  have hnew : ∀ id, Issued state.additions id → id ≠ state.timers.nextId + 1 := by
    intro id hissued
    have hne := hissued.ne_next hroom
    rwa [Int32.ofNat_add, ← hinv.firing.counted] at hne
  refine ⟨hfiring, hinv.cancelsNodup, ?_, hinv.takenNodup, ?_, hinv.called⟩
  · intro id hmem
    obtain ⟨hissued, hnot, hflagged⟩ := hinv.cancelled id hmem
    refine ⟨hissued.mono (Nat.le_succ _), hnot, ?_⟩
    intro task hlookup
    apply hflagged task
    exact (AList.lookup_insert_ne (hnew id hissued)).symm.trans hlookup
  · intro id hmem
    obtain ⟨hissued, hgone⟩ := hinv.takenGone id hmem
    refine ⟨hissued.mono (Nat.le_succ _), ?_⟩
    intro copy hcopy
    rcases List.mem_cons.mp hcopy with rfl | hcopy
    · exact (hnew id hissued).symm
    · exact hgone copy hcopy

theorem cancelled_step (hinv : CancellationInvariant state) {timerId : Int32}
    {task : TimerTask Callback}
    (hlookup : state.timers.activeTasks.lookup timerId = some task)
    (hfresh : task.isCancelled = false) :
    CancellationInvariant { state with
      timers := (state.timers.cancelTimer timerId).2
      cancels := state.cancels ++ [timerId] } := by
  have hfiring := hinv.firing.cancelTimer timerId
  obtain ⟨hid, hmem⟩ := hinv.firing.active timerId task hlookup
  have hnotTaken : timerId ∉ state.taken := fun htaken =>
    (hinv.takenGone timerId htaken).2 _ hmem hid
  have hnotCancelled : timerId ∉ state.cancels := by
    intro hcancelled
    have hflagged := (hinv.cancelled timerId hcancelled).2.2 task hlookup
    rw [hfresh] at hflagged
    cases hflagged
  simp only [Timers.cancelTimer, hlookup] at hfiring ⊢
  refine ⟨hfiring, ?_, ?_, hinv.takenNodup, hinv.takenGone, hinv.called⟩
  · exact List.nodup_append_comm.mpr (List.nodup_cons.mpr ⟨hnotCancelled, hinv.cancelsNodup⟩)
  · intro id hcancels
    by_cases heq : id = timerId
    · subst heq
      refine ⟨hinv.firing.issued_of_active hlookup, hnotTaken, ?_⟩
      intro other hother
      simp only [AList.lookup_insert] at hother
      cases hother
      rfl
    · have hbefore : id ∈ state.cancels := by simpa [heq] using hcancels
      obtain ⟨hissued, hnot, hflagged⟩ := hinv.cancelled id hbefore
      refine ⟨hissued, hnot, ?_⟩
      intro other hother
      rw [AList.lookup_insert_ne heq] at hother
      exact hflagged other hother

theorem step (hinv : CancellationInvariant state) (hthreads : ThreadsInvariant state)
    {action : Action Callback} (hstep : step state action = some next)
    (hroom : next.additions ≤ 2 ^ 32) (hunmarked : CancelsUnmarked state action) :
    CancellationInvariant next := by
  have hfiring := hinv.firing.step hthreads hstep hroom
  unfold GracefulTimer.step at hstep
  rw [if_neg (by simp [hthreads.live])] at hstep
  cases action with
  | setShouldExit | callAdd duration callback =>
      cases hstep
      exact hinv.frame hfiring rfl rfl rfl rfl rfl rfl
  | callStart | callStop waitForCallbacks | giveUp =>
      simp only at hstep
      split_ifs at hstep
      cases hstep
      exact hinv.frame hfiring rfl rfl rfl rfl rfl rfl
  | control => exact hinv.controlMove (controlMove_of_controlStep hthreads hstep)
  | add index now =>
      cases addMove_of_addStep hstep with
      | quiet phase hrunning =>
          exact hinv.frame hfiring rfl rfl rfl rfl rfl rfl
      | inserted duration callback hget => exact hinv.inserted hroom hfiring
  | cancelTimer timerId =>
      cases cancelMove_of_cancelStep hstep with
      | missed hlookup => exact hinv
      | cancelled task hlookup => exact hinv.cancelled_step hlookup (hunmarked task hlookup)
  | manager now top => exact hinv.managerMove (managerMove_of_managerStep hstep)

end CancellationInvariant

theorem exactCancellation_of_invariant {start : ℤ} {state : State Callback}
    (hreach : (system start).Reachable state) (hinv : CancellationInvariant state) :
    ExactCancellation start state := by
  have hthreads := threadsInvariant_of_reachable hreach
  have hcalled := hinv.called
  have hrunsNodup : state.runs.Nodup := by
    have htaken := hinv.takenNodup
    rw [hcalled] at htaken
    exact htaken.of_append_left
  have hnotTaken : ∀ id ∈ state.cancels, id ∉ state.taken :=
    fun id hmem => (hinv.cancelled id hmem).2.1
  constructor
  case cancelledOnce => exact fun id => List.nodup_iff_count_le_one.mp hinv.cancelsNodup id
  case cancelledNotTaken => exact hnotTaken
  case cancelledNotRun =>
    intro id hmem hrun
    apply hnotTaken id hmem
    rw [hcalled]
    exact List.mem_append_left _ hrun
  case runOnce => exact fun id => List.nodup_iff_count_le_one.mp hrunsNodup id
  case takenRuns =>
    intro id hmem
    rw [hcalled] at hmem
    rcases List.mem_append.mp hmem with hrun | huncalled
    · exact Or.inl (List.count_eq_one_of_mem hrunsNodup hrun)
    · exact Or.inr (Option.mem_toList.mp huncalled)
  case moves =>
    intro hrunning hthread now hclock
    exact exists_step_of_running hthreads hrunning hthread hclock
  case fires =>
    intro hthread id task hlookup hcancelled actions final hrun hkeeps hroom hcancels hsteps
    have hahead : Ahead id task.expiryTime state :=
      ⟨hthread, Or.inl ⟨task, hlookup, hcancelled, rfl⟩⟩
    rcases hahead.run hreach hrun hkeeps hroom hcancels with hran | hrank
    · exact hran
    · have hmanager := state.manager.rank_le
      have hadditions := (HistoryLe.of_run hthreads hrun).additions
      simp only [State.rank] at hrank
      omega

/-! ## The condition is needed -/

/-- A marked timer has been cancelled. -/
def MarksRecorded (state : State Callback) : Prop :=
  ∀ id task, state.timers.activeTasks.lookup id = some task → task.isCancelled = true →
    id ∈ state.cancels

namespace MarksRecorded

variable {state next : State Callback}

theorem step (hmarks : MarksRecorded state) (hthreads : ThreadsInvariant state)
    {action : Action Callback} (hstep : step state action = some next) :
    MarksRecorded next := by
  unfold GracefulTimer.step at hstep
  rw [if_neg (by simp [hthreads.live])] at hstep
  cases action with
  | setShouldExit | callAdd duration callback =>
      cases hstep
      exact hmarks
  | callStart | callStop waitForCallbacks | giveUp =>
      simp only at hstep
      split_ifs at hstep
      cases hstep
      exact hmarks
  | control =>
      cases controlMove_of_controlStep hthreads hstep with
      | cleared hrunning hthread =>
          intro id task hlookup
          cases hlookup
      | _ => exact hmarks
  | add index now =>
      cases addMove_of_addStep hstep with
      | quiet phase hrunning => exact hmarks
      | inserted duration callback hget =>
          intro id task hlookup hmarked
          by_cases heq : id = state.timers.nextId + 1
          · subst heq
            simp only [Timers.addNonBlockingTimer, AList.lookup_insert] at hlookup
            cases hlookup
            cases hmarked
          · exact hmarks id task ((AList.lookup_insert_ne heq).symm.trans hlookup) hmarked
  | cancelTimer timerId =>
      cases cancelMove_of_cancelStep hstep with
      | missed hlookup => exact hmarks
      | cancelled found hfound =>
          intro id task hlookup hmarked
          simp only [Timers.cancelTimer, hfound] at hlookup
          by_cases heq : id = timerId
          · simp [heq]
          · rw [AList.lookup_insert_ne heq] at hlookup
            exact List.mem_append_left _ (hmarks id task hlookup hmarked)
  | manager now top =>
      cases managerMove_of_managerStep hstep with
      | skipped timers hinspect hmove =>
          cases hmove with
          | skipped top copy hget hflagged =>
              intro id task hlookup
              exact hmarks id task (AList.lookup_erase_eq_some_iff.mp hlookup).2
      | taken timers task hinspect hmove =>
          cases hmove with
          | taken top copy _ hget hexpired hactive hfresh =>
              intro id other hlookup
              exact hmarks id other (AList.lookup_erase_eq_some_iff.mp hlookup).2
      | _ => exact hmarks

/-- A run through which no timer is cancelled twice meets the condition. -/
theorem stepsMeet {start : ℤ} {actions : List (Action Callback)} {final : State Callback}
    (hmarks : MarksRecorded state) (hthreads : ThreadsInvariant state)
    (hrun : (system start).run state actions = some final) (hnodup : final.cancels.Nodup) :
    (system start).StepsMeet CancelsUnmarked state actions := by
  induction actions generalizing state with
  | nil => trivial
  | cons action rest ih =>
      obtain ⟨middle, hstep, hrest⟩ := TransitionSystem.run_cons_eq_some.mp hrun
      have hmiddle := hthreads.step hstep
      refine ⟨?_, ?_⟩
      · cases action with
        | cancelTimer timerId =>
            intro task hlookup
            by_contra hmarked
            rw [Bool.not_eq_false] at hmarked
            have hbefore := hmarks timerId task hlookup hmarked
            have hprefix := (HistoryLe.of_run hmiddle hrest).cancels
            have hmiddleNodup := hnodup.sublist hprefix.sublist
            change GracefulTimer.step state (.cancelTimer timerId) = some middle at hstep
            unfold GracefulTimer.step at hstep
            rw [if_neg (by simp [hthreads.live])] at hstep
            cases cancelMove_of_cancelStep hstep with
            | missed hnone =>
                rw [hlookup] at hnone
                cases hnone
            | cancelled found hfound =>
                have hcons := List.nodup_append_comm.mp hmiddleNodup
                exact (List.nodup_cons.mp hcons).1 hbefore
        | _ => trivial
      · intro other hother
        rw [hstep] at hother
        cases hother
        exact ih (hmarks.step hthreads hstep) hmiddle hrest

end MarksRecorded

/-- Up to `2 ^ 32` additions, the cancellations of a run are exact if and only
if none of them finds its timer marked. -/
theorem cancellation_exact_iff {start : ℤ} {actions : List (Action Callback)}
    {final : State Callback} (hrun : (system start).run (initial start) actions = some final)
    (hroom : final.additions ≤ 2 ^ 32) :
    ExactCancellation start final ↔
      (system start).StepsMeet CancelsUnmarked (initial start) actions := by
  have hreach : (system start).Reachable final := ⟨actions, hrun⟩
  have hinitial : ThreadsInvariant (initial start : State Callback) :=
    threadsInvariant_of_reachable (TransitionSystem.ReachableFrom.refl _)
  constructor
  · intro hexact
    have hnodup : final.cancels.Nodup :=
      List.nodup_iff_count_le_one.mpr hexact.cancelledOnce
    have hmarks : MarksRecorded (initial start : State Callback) := by
      intro id task hlookup
      cases hlookup
    exact hmarks.stepsMeet hinitial hrun hnodup
  · intro hmeet
    have hinv : ThreadsInvariant final ∧
        (final.additions ≤ 2 ^ 32 → CancellationInvariant final) := by
      refine TransitionSystem.run_preserves_of_stepsMeet
        (fun s => ThreadsInvariant s ∧ (s.additions ≤ 2 ^ 32 → CancellationInvariant s))
        ?_ ⟨hinitial, fun _ => CancellationInvariant.initial start⟩ hmeet hrun
      rintro before action after ⟨hthreads, hbefore⟩ hunmarked hstep
      refine ⟨hthreads.step hstep, fun hafter => ?_⟩
      have hadditions := (HistoryLe.of_step hthreads hstep).additions
      exact (hbefore (by omega)).step hthreads hstep hafter hunmarked
    exact exactCancellation_of_invariant hreach (hinv.2 hroom)

/-- Two timers are added, the first is cancelled and the second called. -/
def cancellingActions : List (Action Unit) :=
  [.callStart, .control, .control, .control, .callAdd 0 (), .add 0 0, .add 0 0, .add 0 0,
    .add 0 0, .callAdd 0 (), .add 1 0, .add 1 0, .add 1 0, .add 1 0, .cancelTimer 1,
    .manager 0 0, .manager 0 0, .manager 0 0, .manager 0 0]

theorem cancellation_exact_cancellingRun :
    ∃ final : State Unit, ExactCancellation 0 final ∧ final.cancels = [1] ∧
      final.runs = [2] :=
  ⟨_, (cancellation_exact_iff (show (system 0).run (initial 0) cancellingActions = some _ from rfl)
    (by decide)).mpr (by decide +kernel), rfl, rfl⟩

/-- Two cancellations of a timer that is not due both return true. -/
theorem cancellation_wrong_secondCancel :
    ∃ final : State Unit, (system 0).Reachable final ∧ final.additions = 1 ∧
      final.cancels = [1, 1] ∧ ¬ ExactCancellation 0 final := by
  have hreach : (system 0).Reachable _ :=
    ⟨[.callStart, .control, .control, .control, .callAdd 1000 (), .add 0 0, .add 0 0,
      .add 0 0, .add 0 0, .cancelTimer 1, .cancelTimer 1], rfl⟩
  refine ⟨_, hreach, rfl, rfl, ?_⟩
  intro hexact
  exact absurd (hexact.cancelledOnce 1) (by decide)

end CppProj.GracefulTimer
