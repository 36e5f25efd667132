import CppProj.ConditionVariable
import CppProj.TransitionSystem
import Mathlib.Algebra.Ring.Int.Defs

/-!
# `SoftwareTimer` of `timer_t.cpp`

The owner calls `start`, `wait` and `stop` one after the other and then destroys
the timer.  `running_` is cleared by `stop`, and by the timer thread when it has
called back `max_count_` times.  Only `wait` takes `mutex_`, so the mutex is
always free.  A `sleep_until` may end at any time, which leaves out the
interval.

The timer thread stores the flag and notifies without the mutex, and whichever
of the two clears the flag first decides whether the thread is joined.
-/

namespace CppProj.SoftwareTimer

/-- `index` is the loop variable of the timer thread. -/
inductive ThreadPhase where
  | testLoop (index : ℤ)
  | sleeping (index : ℤ)
  | testRunning (index : ℤ)
  | callback (index : ℤ)
  | clear
  | notify
  | finished
  deriving DecidableEq

/-- `stopJoin` is the rest of `stop` after its exchange; `destroying` tells the
destructor's call from the owner's. -/
inductive OwnerPhase where
  | ready
  | resetCount
  | assignThread
  | stopJoin (destroying : Bool)
  | wait (phase : WaitPhase)
  | destroyed
  deriving DecidableEq

/-- `thread` is `none` while `timer_thread_` is not joinable.
`assignedJoinable` and `destroyedJoinable` record the two operations of a
joinable `std::thread` that end the program. -/
structure State where
  count : ℤ
  running : Bool
  thread : Option ThreadPhase
  owner : OwnerPhase
  assignedJoinable : Bool
  destroyedJoinable : Bool
  deriving DecidableEq

inductive Action where
  | start
  | wait
  | stop
  | destroy
  | owner
  | thread
  | spuriousWakeup
  deriving DecidableEq

def initial : State where
  count := 0
  running := false
  thread := none
  owner := .ready
  assignedJoinable := false
  destroyedJoinable := false

def State.terminated (state : State) : Bool :=
  state.assignedJoinable || state.destroyedJoinable

def OwnerPhase.notify : OwnerPhase → OwnerPhase
  | .wait phase => .wait phase.notify
  | phase => phase

/-- The destruction of `timer_thread_` after the body of the destructor. -/
def destroyThread (state : State) : State :=
  { state with owner := .destroyed, destroyedJoinable := state.thread.isSome }

def stopStep (state : State) (destroying : Bool) : State :=
  if state.running then { state with running := false, owner := .stopJoin destroying }
  else if destroying then destroyThread state
  else state

def ownerStep (state : State) : Option State :=
  match state.owner with
  | .resetCount => some { state with count := 0, owner := .assignThread }
  | .assignThread =>
      if state.thread.isSome then some { state with assignedJoinable := true }
      else some { state with thread := some (.testLoop 0), owner := .ready }
  | .stopJoin destroying =>
      match state.thread with
      | some .finished =>
          let joined := { state with thread := none }
          if destroying then some (destroyThread joined)
          else some { joined with owner := .ready }
      | some _ => none
      | none =>
          if destroying then some (destroyThread state) else some { state with owner := .ready }
  | .wait .testing =>
      some { state with owner := if state.running then .wait .blocking else .ready }
  | .wait .blocking => some { state with owner := .wait .blocked }
  | .wait .notified => some { state with owner := .wait .testing }
  | .wait .blocked | .ready | .destroyed => none

def threadStep (maxCount : ℤ) (state : State) : ThreadPhase → Option State
  | .testLoop index =>
      some { state with
        thread := some (if index < maxCount ∧ state.running then .sleeping index else .clear) }
  | .sleeping index => some { state with thread := some (.testRunning index) }
  | .testRunning index =>
      some { state with thread := some (if state.running then .callback index else .clear) }
  | .callback index =>
      some { state with count := state.count + 1, thread := some (.testLoop (index + 1)) }
  | .clear => some { state with running := false, thread := some .notify }
  | .notify => some { state with owner := state.owner.notify, thread := some .finished }
  | .finished => none

def step (maxCount : ℤ) (state : State) (action : Action) : Option State :=
  if state.terminated then none
  else
    match action with
    | .start =>
        if state.owner = .ready then
          some (if state.running then state
            else { state with running := true, owner := .resetCount })
        else none
    | .wait => if state.owner = .ready then some { state with owner := .wait .testing } else none
    | .stop => if state.owner = .ready then some (stopStep state false) else none
    | .destroy => if state.owner = .ready then some (stopStep state true) else none
    | .owner => ownerStep state
    | .thread => state.thread.bind (threadStep maxCount state)
    | .spuriousWakeup =>
        if state.owner = .wait .blocked then some { state with owner := .wait .notified }
        else none

def system (maxCount : ℤ) : TransitionSystem State Action where
  initial := initial
  step := step maxCount

/-! ## Who joins the thread -/

/-- `start` and the destructor find the flag raised or the thread joined, and the
thread's notification does not meet the owner between its check and its
sleep. -/
def JoinedInTime (state : State) : Action → Prop
  | .start | .destroy => state.running = true ∨ state.thread = none
  | .thread => state.thread = some .notify → state.owner ≠ .wait .blocking
  | _ => True

instance (state : State) (action : Action) : Decidable (JoinedInTime state action) :=
  match action with
  | .start | .destroy => inferInstanceAs (Decidable (_ ∨ _))
  | .thread => inferInstanceAs (Decidable (_ → _))
  | .wait | .stop | .owner | .spuriousWakeup => isTrue trivial

/-- The notification at the end of the thread is still to come. -/
def State.notificationDue (state : State) : Prop :=
  ∃ phase, state.thread = some phase ∧ phase ≠ .finished

/-- `wait` sleeps, `running_` is false and nobody is left to notify. -/
def Stranded (state : State) : Prop :=
  state.owner = .wait .blocked ∧ state.running = false ∧ ¬ state.notificationDue

def ThreadPhase.working : ThreadPhase → Bool
  | .notify | .finished => false
  | _ => true

def OwnerPhase.starting : OwnerPhase → Bool
  | .resetCount | .assignThread => true
  | _ => false

structure LifeCycleInvariant (state : State) : Prop where
  working : state.running = true → state.owner.starting = false →
    ∃ phase, state.thread = some phase ∧ phase.working = true
  due : state.owner = .wait .blocking ∨ state.owner = .wait .blocked → state.notificationDue
  unassigned : state.owner.starting = true → state.thread = none
  stopping : ∀ destroying, state.owner = .stopJoin destroying → state.running = false
  live : state.terminated = false

theorem initial_lifeCycleInvariant : LifeCycleInvariant initial := by
  constructor <;> simp [initial, OwnerPhase.starting, State.terminated]

theorem terminated_eq_false_iff {state : State} :
    state.terminated = false ↔
      state.assignedJoinable = false ∧ state.destroyedJoinable = false := by
  rw [State.terminated, Bool.or_eq_false_iff]

theorem notificationDue_of_working {state : State} {phase : ThreadPhase}
    (hthread : state.thread = some phase) (hworking : phase.working = true) :
    state.notificationDue := by
  refine ⟨phase, hthread, ?_⟩
  rintro rfl
  cases hworking

namespace LifeCycleInvariant

variable {state next : State}

theorem destroyThread (hlive : state.terminated = false) (hthread : state.thread = none)
    (hrunning : state.running = false) : LifeCycleInvariant (destroyThread state) := by
  have hlive := terminated_eq_false_iff.mp hlive
  refine ⟨?_, by simp [SoftwareTimer.destroyThread],
    by simp [SoftwareTimer.destroyThread, OwnerPhase.starting],
    by simp [SoftwareTimer.destroyThread], ?_⟩
  · intro hraised
    exact (Bool.false_ne_true (hrunning.symm.trans hraised)).elim
  · exact terminated_eq_false_iff.mpr ⟨hlive.1, by simp [SoftwareTimer.destroyThread, hthread]⟩

theorem stopStep (hinv : LifeCycleInvariant state) {destroying : Bool}
    (hjoined : destroying = true → state.running = true ∨ state.thread = none) :
    LifeCycleInvariant (stopStep state destroying) := by
  unfold SoftwareTimer.stopStep
  by_cases hrunning : state.running = true
  · rw [if_pos hrunning]
    exact ⟨by simp, by simp, by simp [OwnerPhase.starting], by simp, hinv.live⟩
  · rw [if_neg hrunning]
    cases destroying with
    | false => exact hinv
    | true =>
        have hthread := (hjoined rfl).resolve_left hrunning
        exact .destroyThread hinv.live hthread (by simpa using hrunning)

theorem ready (hlive : state.terminated = false) (hrunning : state.running = false)
    (thread : Option ThreadPhase) :
    LifeCycleInvariant { state with thread := thread, owner := .ready } := by
  refine ⟨?_, by simp, by simp [OwnerPhase.starting], by simp, hlive⟩
  intro hraised
  exact (Bool.false_ne_true (hrunning.symm.trans hraised)).elim

/-- With the thread joined or none to join, `stop` returns or the destructor goes
on. -/
theorem afterJoin (hlive : state.terminated = false) (hthread : state.thread = none)
    (hrunning : state.running = false) {destroying : Bool}
    (hnext : (if destroying then some (SoftwareTimer.destroyThread state)
      else some { state with owner := .ready }) = some next) : LifeCycleInvariant next := by
  cases destroying with
  | false =>
      simp only [Bool.false_eq_true, if_false] at hnext
      cases hnext
      exact .ready hlive hrunning _
  | true =>
      simp only [if_true] at hnext
      cases hnext
      exact .destroyThread hlive hthread hrunning

theorem ownerStep (hinv : LifeCycleInvariant state) (hstep : ownerStep state = some next) :
    LifeCycleInvariant next := by
  unfold SoftwareTimer.ownerStep at hstep
  cases howner : state.owner with
  | ready | destroyed => simp [howner] at hstep
  | resetCount =>
      simp only [howner] at hstep
      cases hstep
      have hthread := hinv.unassigned (by rw [howner]; rfl)
      exact ⟨by simp [OwnerPhase.starting], by simp, fun _ => hthread, by simp, hinv.live⟩
  | assignThread =>
      have hthread := hinv.unassigned (by rw [howner]; rfl)
      simp only [howner, hthread, Option.isSome_none, Bool.false_eq_true, if_false] at hstep
      cases hstep
      exact ⟨fun _ _ => ⟨_, rfl, rfl⟩, by simp, by simp [OwnerPhase.starting], by simp,
        hinv.live⟩
  | stopJoin destroying =>
      have hrunning := hinv.stopping destroying howner
      simp only [howner] at hstep
      split at hstep
      next =>
        have hlive : State.terminated { state with thread := none } = false := hinv.live
        exact afterJoin hlive rfl hrunning hstep
      next => cases hstep
      next hthread => exact afterJoin hinv.live hthread hrunning hstep
  | wait waiting =>
      have hstarting : state.owner.starting = false := by rw [howner]; rfl
      have hworking := hinv.working
      cases waiting with
      | testing =>
          simp only [howner] at hstep
          cases hstep
          by_cases hrunning : state.running = true
          · -- the flag is raised, so the thread has still to clear it and to notify
            rw [if_pos hrunning]
            obtain ⟨phase, hthread, hphase⟩ := hworking hrunning hstarting
            exact ⟨fun _ _ => ⟨phase, hthread, hphase⟩,
              fun _ => notificationDue_of_working hthread hphase,
              by simp [OwnerPhase.starting], by simp, hinv.live⟩
          · rw [if_neg hrunning]
            exact .ready hinv.live (by simpa using hrunning) _
      | blocking =>
          simp only [howner] at hstep
          cases hstep
          exact ⟨fun h _ => hworking h hstarting, fun _ => hinv.due (Or.inl howner),
            by simp [OwnerPhase.starting], by simp, hinv.live⟩
      | blocked => simp [howner] at hstep
      | notified =>
          simp only [howner] at hstep
          cases hstep
          exact ⟨fun h _ => hworking h hstarting, by simp, by simp [OwnerPhase.starting],
            by simp, hinv.live⟩

theorem thread (hinv : LifeCycleInvariant state) {phase after : ThreadPhase}
    (hthread : state.thread = some phase) {count : ℤ} {running : Bool}
    (hlowered : running = true → state.running = true)
    (hworking : running = true → after.working = true) (hdue : after ≠ .finished) :
    LifeCycleInvariant
      { state with count := count, running := running, thread := some after } := by
  have hstarting : state.owner.starting = false := by
    by_contra hstarting
    have hnone := hinv.unassigned (by simpa using hstarting)
    rw [hthread] at hnone
    cases hnone
  refine ⟨fun h _ => ⟨after, rfl, hworking h⟩, fun _ => ⟨after, rfl, hdue⟩, ?_, ?_, hinv.live⟩
  · intro h
    exact (Bool.false_ne_true (hstarting.symm.trans h)).elim
  · intro destroying howner
    have hstopped := hinv.stopping destroying howner
    by_contra hraised
    exact Bool.false_ne_true (hstopped.symm.trans (hlowered (by simpa using hraised)))

theorem notify (hinv : LifeCycleInvariant state) (hthread : state.thread = some .notify)
    (howner : state.owner ≠ .wait .blocking) :
    LifeCycleInvariant
      { state with owner := state.owner.notify, thread := some .finished } := by
  have hstarting : state.owner.starting = false := by
    by_contra hstarting
    have hnone := hinv.unassigned (by simpa using hstarting)
    rw [hthread] at hnone
    cases hnone
  have hlowered : state.running = false := by
    by_contra hraised
    obtain ⟨phase, hphase, hworking⟩ := hinv.working (by simpa using hraised) hstarting
    rw [hthread, Option.some.injEq] at hphase
    subst hphase
    cases hworking
  have hnotified : state.owner.notify ≠ .wait .blocking ∧ state.owner.notify ≠ .wait .blocked ∧
      state.owner.notify.starting = false := by
    cases hcase : state.owner with
    | wait waiting =>
        cases waiting <;> simp_all [OwnerPhase.notify, WaitPhase.notify, OwnerPhase.starting]
    | _ => simp_all [OwnerPhase.notify, OwnerPhase.starting]
  constructor
  case working =>
    intro h
    exact (Bool.false_ne_true (hlowered.symm.trans h)).elim
  case due =>
    intro h
    rcases h with h | h
    · exact (hnotified.1 h).elim
    · exact (hnotified.2.1 h).elim
  case unassigned =>
    intro h
    exact (Bool.false_ne_true (hnotified.2.2.symm.trans h)).elim
  case stopping => exact fun _ _ => hlowered
  case live => exact hinv.live

theorem threadStep (hinv : LifeCycleInvariant state) {maxCount : ℤ} {phase : ThreadPhase}
    (hthread : state.thread = some phase)
    (hnotify : phase = .notify → state.owner ≠ .wait .blocking)
    (hstep : threadStep maxCount state phase = some next) : LifeCycleInvariant next := by
  cases phase with
  | testLoop index | testRunning index =>
      cases hstep
      refine hinv.thread hthread id ?_ ?_ <;> split_ifs <;> simp [ThreadPhase.working]
  | sleeping index | callback index =>
      cases hstep
      exact hinv.thread hthread id (fun _ => rfl) (by simp)
  | clear =>
      cases hstep
      exact hinv.thread hthread (by simp) (by simp) (by simp)
  | notify =>
      cases hstep
      exact hinv.notify hthread (hnotify rfl)
  | finished => cases hstep

end LifeCycleInvariant

theorem step_lifeCycleInvariant {maxCount : ℤ} {state next : State} {action : Action}
    (hinv : LifeCycleInvariant state) (hjoined : JoinedInTime state action)
    (hstep : step maxCount state action = some next) : LifeCycleInvariant next := by
  unfold step at hstep
  rw [if_neg (by simp [hinv.live])] at hstep
  cases action with
  | start =>
      simp only at hstep
      split_ifs at hstep with hready hrunning
      · cases hstep
        exact hinv
      · cases hstep
        have hthread := Or.resolve_left hjoined hrunning
        exact ⟨by simp [OwnerPhase.starting], by simp, fun _ => hthread, by simp, hinv.live⟩
  | wait =>
      simp only at hstep
      split_ifs at hstep with hready
      cases hstep
      refine ⟨?_, by simp, by simp [OwnerPhase.starting], by simp, hinv.live⟩
      intro hrunning _
      exact hinv.working hrunning (by rw [hready]; rfl)
  | stop =>
      simp only at hstep
      split_ifs at hstep with hready
      cases hstep
      exact hinv.stopStep (by simp)
  | destroy =>
      simp only at hstep
      split_ifs at hstep with hready
      cases hstep
      exact hinv.stopStep fun _ => hjoined
  | owner => exact hinv.ownerStep hstep
  | thread =>
      obtain ⟨phase, hthread, hmove⟩ := Option.bind_eq_some_iff.mp hstep
      exact hinv.threadStep hthread (fun h => hjoined (h ▸ hthread)) hmove
  | spuriousWakeup =>
      simp only at hstep
      split_ifs at hstep with hblocked
      cases hstep
      refine ⟨?_, by simp, by simp [OwnerPhase.starting], by simp, hinv.live⟩
      intro hrunning _
      exact hinv.working hrunning (by rw [hblocked]; rfl)

/-- In a run in which `start` and the destructor always find the flag raised or
the thread joined, and the thread's notification is never sent between the
owner's check and its sleep, no joinable thread is assigned to or destroyed
and `wait` does not sleep for ever. -/
theorem thread_joined_in_time (maxCount : ℤ) {state : State}
    (hreach : (system maxCount).ReachableMeeting JoinedInTime state) :
    state.assignedJoinable = false ∧ state.destroyedJoinable = false ∧ ¬ Stranded state := by
  have hinv : LifeCycleInvariant state := by
    apply hreach.invariant LifeCycleInvariant initial_lifeCycleInvariant
    intro state action next hinv hjoined hstep
    exact step_lifeCycleInvariant hinv hjoined hstep
  have hlive := terminated_eq_false_iff.mp hinv.live
  refine ⟨hlive.1, hlive.2, ?_⟩
  rintro ⟨howner, _, hnotDue⟩
  exact hnotDue (hinv.due (Or.inr howner))

/-- One thread is stopped and joined, and a second one by the destructor. -/
theorem thread_joined_in_time_twice :
    ∃ state, (system 2).ReachableMeeting JoinedInTime state ∧ state.owner = .destroyed ∧
      state.destroyedJoinable = false ∧ ¬ Stranded state := by
  obtain ⟨state, hrun, howner⟩ :
      ∃ state, (system 2).run initial
          (List.flatten [[.start, .owner, .owner, .thread, .stop], List.replicate 4 .thread,
            [.owner, .start, .owner, .owner, .destroy], List.replicate 3 .thread,
            [.owner]]) = some state ∧ state.owner = .destroyed :=
    ⟨_, rfl, rfl⟩
  have hreach : (system 2).ReachableMeeting JoinedInTime state := ⟨_, hrun, by decide⟩
  obtain ⟨_, hdestroyed, hnotStranded⟩ := thread_joined_in_time 2 hreach
  exact ⟨state, hreach, howner, hdestroyed, hnotStranded⟩

/-- A step that does not meet the condition is followed by a failure: the owner's
next steps assign to the joinable thread, the destructor destroys it, or the
owner falls asleep after the only notification. -/
theorem failure_of_not_joinedInTime {maxCount : ℤ} {state next : State} {action : Action}
    (hlate : ¬ JoinedInTime state action) (hstep : step maxCount state action = some next) :
    ∃ final, (system maxCount).ReachableFrom next final ∧
      (final.assignedJoinable = true ∨ final.destroyedJoinable = true ∨
        (final.owner = .wait .blocked ∧ ¬ final.notificationDue)) := by
  have hlive : state.terminated = false := by
    by_contra hterminated
    simp [step, hterminated] at hstep
  have hflags := terminated_eq_false_iff.mp hlive
  unfold step at hstep
  rw [if_neg (by simp [hlive])] at hstep
  cases action with
  | start =>
      simp only [JoinedInTime, not_or] at hlate
      obtain ⟨phase, hthread⟩ := Option.ne_none_iff_exists'.mp hlate.2
      simp only [if_neg hlate.1] at hstep
      split_ifs at hstep with hready
      cases hstep
      have hrun : (system maxCount).run { state with running := true, owner := .resetCount }
          [.owner, .owner] =
          some { state with
            count := 0
            running := true
            owner := .assignThread
            assignedJoinable := true } := by
        simp [TransitionSystem.run, system, step, State.terminated, hflags, ownerStep, hthread]
      exact ⟨_, ⟨_, hrun⟩, Or.inl rfl⟩
  | destroy =>
      simp only [JoinedInTime, not_or] at hlate
      simp only [stopStep, if_neg hlate.1, if_true] at hstep
      split_ifs at hstep with hready
      cases hstep
      exact ⟨_, .refl _, Or.inr (Or.inl (Option.isSome_iff_ne_none.mpr hlate.2))⟩
  | thread =>
      simp only [JoinedInTime, Classical.not_imp, not_not] at hlate
      obtain ⟨hthread, howner⟩ := hlate
      simp only [hthread, Option.bind_some, threadStep, howner, OwnerPhase.notify,
        WaitPhase.notify] at hstep
      cases hstep
      have hrun : (system maxCount).run
          { state with owner := .wait .blocking, thread := some .finished } [.owner] =
          some { state with owner := .wait .blocked, thread := some .finished } := by
        simp [TransitionSystem.run, system, step, State.terminated, hflags, ownerStep]
      refine ⟨_, ⟨_, hrun⟩, Or.inr (Or.inr ⟨rfl, ?_⟩)⟩
      rintro ⟨phase, hphase, hne⟩
      cases hphase
      exact hne rfl
  | wait | stop | owner | spuriousWakeup => exact (hlate trivial).elim

/-- Each part of the life cycle fails for `max_count` 1.  `main` waits for the
last callback and then destroys the joinable thread; a second `start` instead
assigns to it; and a notification sent before the owner sleeps leaves it
asleep. -/
theorem finished_thread_not_joined :
    (∃ state, (system 1).Reachable state ∧ state.destroyedJoinable = true) ∧
    (∃ state, (system 1).Reachable state ∧ state.assignedJoinable = true) ∧
    ∃ state, (system 1).Reachable state ∧ Stranded state := by
  refine ⟨?_, ?_, ?_⟩
  · exact ⟨_, ⟨List.flatten [[.start, .owner, .owner, .wait, .owner, .owner],
      List.replicate 7 .thread, [.owner, .owner, .destroy]], rfl⟩, rfl⟩
  · exact ⟨_, ⟨List.flatten [[.start, .owner, .owner], List.replicate 7 .thread,
      [.start, .owner, .owner]], rfl⟩, rfl⟩
  · refine ⟨_, ⟨List.flatten [[.start, .owner, .owner, .wait, .owner], List.replicate 7 .thread,
      [.owner]], rfl⟩, rfl, rfl, ?_⟩
    rintro ⟨phase, hthread, hphase⟩
    cases hthread
    exact hphase rfl

end CppProj.SoftwareTimer
