import CppProj.ConditionVariable
import CppProj.DualModeTimer
import CppProj.TransitionSystem

/-!
# Can `stop` strand the manager

`DualModeTimer` with its threads: any number of calls of `start`, of additions
and of cancellations, one call of `stop`, and the manager.  The manager tests
`running_` outside the mutex and sleeps on an empty heap without a predicate,
and `stop` empties the heap and notifies without the mutex.  A notification
that comes between the test and the sleep is lost, and with the heap empty
nothing else wakes the manager.

An addition takes the mutex, notifies and releases it in separate steps; a
cancellation, which neither notifies nor reads `running_`, is one step that
needs the mutex free.  What the spawned callbacks do is left out.
-/

universe u

namespace CppProj.DualModeTimer.Shutdown

variable {Callback : Type u}

/-- The position of `managerThread`; `wait` is the sleep on an empty heap,
and `joined` a thread that `stop` has joined. -/
inductive ManagerPhase where
  | absent
  | testRunning
  | lock
  | inspect
  | wait (phase : WaitPhase)
  | waitUntil (wakeTime : ℤ) (phase : WaitPhase)
  | exited
  | joined
  deriving DecidableEq

inductive StartPhase where
  | testRunning
  | storeRunning
  | spawnManager
  | returned
  deriving DecidableEq

inductive StopPhase where
  | notCalled
  | testRunning
  | storeRunning
  | cancelAllTimers
  | notify
  | join
  | returned
  deriving DecidableEq

/-- One call of an addition. -/
inductive AddPhase (Callback : Type u) where
  | lock (duration : ℤ) (promise : Option ℕ) (callback : Callback)
  | notify
  | unlock
  | returned

/-- `terminated` is the end of the program by `std::terminate`. -/
structure State (Callback : Type u) where
  running : Bool
  timers : Timers Callback
  now : ℤ
  manager : ManagerPhase
  starts : List StartPhase
  stop : StopPhase
  adds : List (AddPhase Callback)
  terminated : Bool

def initial (now : ℤ) : State Callback where
  running := false
  timers := .initial
  now := now
  manager := .absent
  starts := []
  stop := .notCalled
  adds := []
  terminated := false

inductive Action (Callback : Type u) where
  | callStart
  | start (index : ℕ)
  | callAdd (duration : ℤ) (promise : Option ℕ) (callback : Callback)
  | add (index : ℕ) (now : ℤ)
  | cancelTimer (timerId : Int32)
  | cancelAllTimers
  | manager (now : ℤ) (top : ℕ)
  | timeout (now : ℤ)
  | callStop
  | stop

def ManagerPhase.holdsMutex : ManagerPhase → Bool
  | .inspect => true
  | .wait phase | .waitUntil _ phase => phase.holdsMutex
  | _ => false

def ManagerPhase.notify : ManagerPhase → ManagerPhase
  | .wait phase => .wait phase.notify
  | .waitUntil wakeTime phase => .waitUntil wakeTime phase.notify
  | phase => phase

def AddPhase.holdsMutex : AddPhase Callback → Bool
  | .notify | .unlock => true
  | .lock _ _ _ | .returned => false

def State.mutexFree (state : State Callback) : Bool :=
  !state.manager.holdsMutex && !state.adds.any AddPhase.holdsMutex

/-- A thread object that is joinable must not be assigned to. -/
def ManagerPhase.joinable : ManagerPhase → Bool
  | .absent | .joined => false
  | _ => true

def startStep (state : State Callback) (index : ℕ) : Option (State Callback) :=
  match state.starts[index]? with
  | some .testRunning =>
      some { state with
        starts := state.starts.set index
          (if state.running then .returned else .storeRunning) }
  | some .storeRunning =>
      some { state with
        running := true
        starts := state.starts.set index .spawnManager }
  | some .spawnManager =>
      if state.manager.joinable then some { state with terminated := true }
      else
        some { state with
          manager := .testRunning
          starts := state.starts.set index .returned }
  | some .returned | none => none

def addStep (state : State Callback) (index : ℕ) (now : ℤ) : Option (State Callback) :=
  match state.adds[index]? with
  | some (.lock duration promise callback) =>
      if state.mutexFree ∧ state.now ≤ now then
        some { state with
          timers := state.timers.addTask duration promise callback now
          now := now
          adds := state.adds.set index .notify }
      else none
  | some .notify =>
      some { state with
        manager := state.manager.notify
        adds := state.adds.set index .unlock }
  | some .unlock => some { state with adds := state.adds.set index .returned }
  | some .returned | none => none

/-- The steps of `managerThread`; an iteration that does not wait releases the
mutex. -/
def managerStep (state : State Callback) (now : ℤ) (top : ℕ) : Option (State Callback) :=
  match state.manager with
  | .testRunning =>
      some { state with manager := if state.running then .lock else .exited }
  | .lock => if state.mutexFree then some { state with manager := .inspect } else none
  | .inspect =>
      if state.now ≤ now then
        match state.timers.managerIteration now top with
        | none => none
        | some (.waitForTask, timers) =>
            some { state with timers := timers, now := now, manager := .wait .blocking }
        | some (.waitUntil wakeTime, timers) =>
            some { state with
              timers := timers
              now := now
              manager := .waitUntil wakeTime .blocking }
        | some (.skipped, timers) | some (.spawned _, timers) =>
            some { state with timers := timers, now := now, manager := .testRunning }
      else none
  | .wait .blocking => some { state with manager := .wait .blocked }
  | .waitUntil wakeTime .blocking =>
      some { state with manager := .waitUntil wakeTime .blocked }
  | .wait .notified | .waitUntil _ .notified =>
      if state.mutexFree then some { state with manager := .testRunning } else none
  | .wait .testing | .wait .blocked | .waitUntil _ .testing | .waitUntil _ .blocked
  | .absent | .exited | .joined => none

def timeoutStep (state : State Callback) (now : ℤ) : Option (State Callback) :=
  match state.manager with
  | .waitUntil wakeTime .blocked =>
      if state.now ≤ now ∧ wakeTime ≤ now then
        some { state with now := now, manager := .waitUntil wakeTime .notified }
      else none
  | _ => none

def stopStep (state : State Callback) : Option (State Callback) :=
  match state.stop with
  | .testRunning =>
      some { state with stop := if state.running then .storeRunning else .returned }
  | .storeRunning => some { state with running := false, stop := .cancelAllTimers }
  | .cancelAllTimers =>
      if state.mutexFree then
        some { state with timers := state.timers.cancelAllTimers, stop := .notify }
      else none
  | .notify => some { state with manager := state.manager.notify, stop := .join }
  | .join =>
      if state.manager.joinable then
        if state.manager = .exited then
          some { state with manager := .joined, stop := .returned }
        else none
      else some { state with stop := .returned }
  | .notCalled | .returned => none

def step (state : State Callback) (action : Action Callback) : Option (State Callback) :=
  if state.terminated then none
  else
    match action with
    | .callStart => some { state with starts := state.starts ++ [.testRunning] }
    | .start index => startStep state index
    | .callAdd duration promise callback =>
        some { state with adds := state.adds ++ [.lock duration promise callback] }
    | .add index now => addStep state index now
    | .cancelTimer timerId =>
        if state.mutexFree then
          some { state with timers := (state.timers.cancelTimer timerId).2 }
        else none
    | .cancelAllTimers =>
        if state.mutexFree then
          some { state with timers := state.timers.cancelAllTimers }
        else none
    | .manager now top => managerStep state now top
    | .timeout now => timeoutStep state now
    | .callStop =>
        if state.stop = .notCalled then some { state with stop := .testRunning } else none
    | .stop => stopStep state

def system (now : ℤ) : TransitionSystem (State Callback) (Action Callback) :=
  ⟨initial now, step⟩

/-! ## The bad state and the condition -/

/-- `stop` has notified and waits to join, the manager sleeps on the empty
heap, and nobody is left to wake it. -/
structure Stranded (state : State Callback) : Prop where
  notified : state.stop = .join
  stopped : state.running = false
  asleep : state.manager = .wait .blocked
  empty : state.timers.tasks = []
  quiet : ∀ add ∈ state.adds, add = .unlock ∨ add = .returned

/-- The manager has found `running_` true and does not sleep yet. -/
def ManagerPhase.inGap : ManagerPhase → Bool
  | .lock | .inspect | .wait .blocking => true
  | _ => false

/-- Once `running_` is false, the notification of `stop` does not meet the
manager in the gap with an empty heap, and nobody empties the heap for a
manager that the notification has met in the gap. -/
def NotifiesOutsideGap (state : State Callback) : Action Callback → Prop
  | .stop =>
      state.stop = .notify → state.running = false → state.timers.tasks.isEmpty = true →
        state.manager.inGap = false
  | .cancelAllTimers =>
      state.stop = .join → state.running = false → state.manager.inGap = false
  | _ => True

instance (state : State Callback) (action : Action Callback) :
    Decidable (NotifiesOutsideGap state action) :=
  match action with
  | .stop => inferInstanceAs (Decidable (_ → _))
  | .cancelAllTimers => inferInstanceAs (Decidable (_ → _))
  | .callStart | .start _ | .callAdd _ _ _ | .add _ _ | .cancelTimer _ | .manager _ _
  | .timeout _ | .callStop => isTrue trivial

/-- The manager sleeps, or is about to, on an empty heap; and after the
notification of `stop` it does not come to that. -/
structure GapInvariant (state : State Callback) : Prop where
  emptied : state.manager = .wait .blocking → state.timers.tasks = []
  filled : state.stop = .join → state.running = false → state.manager.inGap = true →
    state.timers.tasks ≠ []
  awake : state.stop = .join → state.running = false → state.manager ≠ .wait .blocked

theorem initial_gapInvariant (now : ℤ) :
    GapInvariant (initial now : State Callback) := by
  constructor <;> simp [initial]

@[simp] theorem inGap_notify (manager : ManagerPhase) :
    manager.notify.inGap = manager.inGap := by
  cases manager with
  | wait phase => cases phase <;> rfl
  | _ => rfl

theorem notify_ne_blocked (manager : ManagerPhase) : manager.notify ≠ .wait .blocked := by
  cases manager <;> simp [ManagerPhase.notify]

theorem notify_eq_blocking {manager : ManagerPhase}
    (hnotify : manager.notify = .wait .blocking) : manager = .wait .blocking := by
  cases manager with
  | wait phase =>
      rw [ManagerPhase.notify, ManagerPhase.wait.injEq, WaitPhase.notify_eq_blocking_iff]
        at hnotify
      rw [hnotify]
  | _ => cases hnotify

theorem tasks_cancelTimer (timers : Timers Callback) (timerId : Int32) :
    (timers.cancelTimer timerId).2.tasks = timers.tasks := by
  unfold Timers.cancelTimer
  split
  · rfl
  · split_ifs <;> rfl

theorem not_holdsMutex_of_mutexFree {state : State Callback}
    (hfree : state.mutexFree = true) : state.manager.holdsMutex = false := by
  simp only [State.mutexFree, Bool.and_eq_true, Bool.not_eq_true'] at hfree
  exact hfree.1

theorem ne_blocking_of_mutexFree {state : State Callback}
    (hfree : state.mutexFree = true) : state.manager ≠ .wait .blocking := by
  intro hmanager
  have hholds := not_holdsMutex_of_mutexFree hfree
  rw [hmanager] at hholds
  cases hholds

theorem tasks_of_waitForTask {timers next : Timers Callback} {now : ℤ} {top : ℕ}
    (hiteration : timers.managerIteration now top = some (.waitForTask, next)) :
    timers.tasks = [] ∧ next = timers := by
  unfold Timers.managerIteration at hiteration
  split_ifs at hiteration with hempty
  · cases hiteration
    exact ⟨List.isEmpty_iff.mp hempty, rfl⟩
  · split at hiteration
    · cases hiteration
    · split_ifs at hiteration
      · split at hiteration
        · cases hiteration
        · split_ifs at hiteration
          · cases hiteration
          · split at hiteration <;> cases hiteration
      · cases hiteration

variable {state next : State Callback}

/-- Notifying the manager, or nobody, keeps the invariant. -/
theorem GapInvariant.frame (hinv : GapInvariant state)
    (hmanager : next.manager = state.manager ∨ next.manager = state.manager.notify)
    (htasks : next.timers.tasks = state.timers.tasks)
    (hstop : next.stop = .join → state.stop = .join)
    (hrunning : next.running = false → state.running = false) :
    GapInvariant next := by
  have hgap : next.manager.inGap = state.manager.inGap := by
    rcases hmanager with hmanager | hmanager <;> rw [hmanager]
    exact inGap_notify _
  constructor
  case emptied =>
    intro hblocking
    rw [htasks]
    rcases hmanager with hmanager | hmanager
    · exact hinv.emptied (hmanager ▸ hblocking)
    · exact hinv.emptied (notify_eq_blocking (hmanager ▸ hblocking))
  case filled =>
    intro hjoin hstopped hin
    rw [htasks]
    exact hinv.filled (hstop hjoin) (hrunning hstopped) (hgap ▸ hin)
  case awake =>
    intro hjoin hstopped
    rcases hmanager with hmanager | hmanager <;> rw [hmanager]
    · exact hinv.awake (hstop hjoin) (hrunning hstopped)
    · exact notify_ne_blocked _

/-- The manager moves to a phase outside of the gap. -/
theorem gapInvariant_of_outside {manager : ManagerPhase}
    (hgap : manager.inGap = false) (hblocked : manager ≠ .wait .blocked)
    (timers : Timers Callback) (now : ℤ) (starts : List StartPhase) :
    GapInvariant
      { state with timers := timers, now := now, manager := manager, starts := starts } := by
  refine ⟨?_, ?_, fun _ _ => hblocked⟩
  · intro hblocking
    change manager = _ at hblocking
    rw [hblocking] at hgap
    cases hgap
  · intro _ _ hin
    change manager.inGap = true at hin
    rw [hgap] at hin
    cases hin

theorem gapInvariant_start {index : ℕ} (hinv : GapInvariant state)
    (hstep : startStep state index = some next) : GapInvariant next := by
  unfold startStep at hstep
  split at hstep
  next =>
    cases hstep
    exact hinv.frame (Or.inl rfl) rfl id id
  next =>
    cases hstep
    refine ⟨hinv.emptied, ?_, ?_⟩
    · intro _ hstopped
      cases hstopped
    · intro _ hstopped
      cases hstopped
  next =>
    split_ifs at hstep
    · cases hstep
      exact hinv.frame (Or.inl rfl) rfl id id
    · cases hstep
      exact gapInvariant_of_outside rfl (by simp) _ _ _
  all_goals cases hstep

theorem gapInvariant_add {index : ℕ} {now : ℤ} (hinv : GapInvariant state)
    (hstep : addStep state index now = some next) : GapInvariant next := by
  unfold addStep at hstep
  split at hstep
  next duration promise callback hget =>
    split_ifs at hstep with hguard
    cases hstep
    refine ⟨?_, ?_, hinv.awake⟩
    · intro hblocking
      exact (ne_blocking_of_mutexFree hguard.1 hblocking).elim
    · intro _ _ _
      exact List.cons_ne_nil _ _
  next =>
    cases hstep
    exact hinv.frame (Or.inr rfl) rfl id id
  next =>
    cases hstep
    exact hinv.frame (Or.inl rfl) rfl id id
  all_goals cases hstep

theorem gapInvariant_manager {now : ℤ} {top : ℕ} (hinv : GapInvariant state)
    (hstep : managerStep state now top = some next) : GapInvariant next := by
  unfold managerStep at hstep
  split at hstep
  next hmanager =>
    cases hstep
    by_cases hrunning : state.running = true
    · rw [if_pos hrunning]
      constructor
      case emptied =>
        intro hblocking
        cases hblocking
      case filled =>
        intro _ hstopped
        rw [hrunning] at hstopped
        cases hstopped
      case awake =>
        intro _ _ hblocked
        cases hblocked
    · rw [if_neg hrunning]
      exact gapInvariant_of_outside rfl (by simp) _ _ _
  next hmanager =>
    split_ifs at hstep
    cases hstep
    constructor
    case emptied =>
      intro hblocking
      cases hblocking
    case filled =>
      intro hjoin hstopped _
      exact hinv.filled hjoin hstopped (by rw [hmanager]; rfl)
    case awake =>
      intro _ _ hblocked
      cases hblocked
  next hmanager =>
    split_ifs at hstep
    split at hstep
    next => cases hstep
    next timers hiteration =>
      cases hstep
      obtain ⟨hempty, rfl⟩ := tasks_of_waitForTask hiteration
      refine ⟨fun _ => hempty, ?_, ?_⟩
      · intro hjoin hstopped _
        exact hinv.filled hjoin hstopped (by rw [hmanager]; rfl)
      · intro _ _ hblocked
        cases hblocked
    next wakeTime timers hiteration =>
      cases hstep
      exact gapInvariant_of_outside rfl (by simp) _ _ _
    next =>
      cases hstep
      exact gapInvariant_of_outside rfl (by simp) _ _ _
    next =>
      cases hstep
      exact gapInvariant_of_outside rfl (by simp) _ _ _
  next hmanager =>
    cases hstep
    constructor
    case emptied =>
      intro hblocking
      cases hblocking
    case filled =>
      intro _ _ hin
      cases hin
    case awake =>
      intro hjoin hstopped _
      exact hinv.filled hjoin hstopped (by rw [hmanager]; rfl) (hinv.emptied hmanager)
  next =>
    cases hstep
    exact gapInvariant_of_outside rfl (by simp) _ _ _
  next =>
    split_ifs at hstep
    cases hstep
    exact gapInvariant_of_outside rfl (by simp) _ _ _
  next =>
    split_ifs at hstep
    cases hstep
    exact gapInvariant_of_outside rfl (by simp) _ _ _
  all_goals cases hstep

theorem gapInvariant_timeout {now : ℤ}
    (hstep : timeoutStep state now = some next) : GapInvariant next := by
  unfold timeoutStep at hstep
  split at hstep
  next =>
    split_ifs at hstep
    cases hstep
    exact gapInvariant_of_outside rfl (by simp) _ _ _
  next => cases hstep

theorem gapInvariant_stop (hinv : GapInvariant state)
    (hcondition : NotifiesOutsideGap state .stop)
    (hstep : stopStep state = some next) : GapInvariant next := by
  unfold stopStep at hstep
  split at hstep
  next hstop =>
    cases hstep
    refine hinv.frame (Or.inl rfl) rfl ?_ id
    intro hjoin
    cases hrunning : state.running <;> simp [hrunning] at hjoin
  next hstop =>
    cases hstep
    refine ⟨hinv.emptied, ?_, ?_⟩
    · intro hjoin
      cases hjoin
    · intro hjoin
      cases hjoin
  next hstop =>
    split_ifs at hstep
    cases hstep
    refine ⟨fun _ => rfl, ?_, ?_⟩
    · intro hjoin
      cases hjoin
    · intro hjoin
      cases hjoin
  next hstop =>
    cases hstep
    refine ⟨?_, ?_, fun _ _ => notify_ne_blocked _⟩
    · intro hblocking
      exact hinv.emptied (notify_eq_blocking hblocking)
    · intro _ hstopped hin hempty
      rw [inGap_notify] at hin
      rw [hcondition hstop hstopped (List.isEmpty_iff.mpr hempty)] at hin
      cases hin
  next hstop =>
    split_ifs at hstep
    · cases hstep
      constructor
      case emptied =>
        intro hblocking
        cases hblocking
      case filled =>
        intro hjoin
        cases hjoin
      case awake =>
        intro hjoin
        cases hjoin
    · cases hstep
      refine ⟨hinv.emptied, ?_, ?_⟩
      · intro hjoin
        cases hjoin
      · intro hjoin
        cases hjoin
  all_goals cases hstep

theorem gapInvariant_step {action : Action Callback} (hinv : GapInvariant state)
    (hcondition : NotifiesOutsideGap state action)
    (hstep : step state action = some next) : GapInvariant next := by
  have hlive : ¬ state.terminated = true := by
    intro hterminated
    simp [step, hterminated] at hstep
  unfold step at hstep
  rw [if_neg hlive] at hstep
  cases action with
  | callStart =>
      cases hstep
      exact hinv.frame (Or.inl rfl) rfl id id
  | start index => exact gapInvariant_start hinv hstep
  | callAdd duration promise callback =>
      cases hstep
      exact hinv.frame (Or.inl rfl) rfl id id
  | add index now => exact gapInvariant_add hinv hstep
  | cancelTimer timerId =>
      simp only at hstep
      split_ifs at hstep
      cases hstep
      exact hinv.frame (Or.inl rfl) (tasks_cancelTimer _ _) id id
  | cancelAllTimers =>
      simp only at hstep
      split_ifs at hstep with hfree
      cases hstep
      refine ⟨fun _ => rfl, ?_, hinv.awake⟩
      intro hjoin hstopped hin
      rw [hcondition hjoin hstopped] at hin
      cases hin
  | manager now top => exact gapInvariant_manager hinv hstep
  | timeout now => exact gapInvariant_timeout hstep
  | callStop =>
      simp only at hstep
      split_ifs at hstep
      cases hstep
      refine hinv.frame (Or.inl rfl) rfl ?_ id
      intro hjoin
      cases hjoin
  | stop => exact gapInvariant_stop hinv hcondition hstep

/-! ## The result -/

/-- In every run in which the notification of `stop` meets the manager outside
of the gap, or with a heap that keeps it from sleeping, no state strands the
manager. -/
theorem manager_not_stranded {start : ℤ}
    (hreach : (system start).ReachableMeeting NotifiesOutsideGap state) :
    ¬ Stranded state := by
  have hinv : GapInvariant state := by
    apply hreach.invariant GapInvariant (initial_gapInvariant start)
    intro before action after hbefore hcondition hstep
    exact gapInvariant_step hbefore hcondition hstep
  intro hstranded
  exact hinv.awake hstranded.notified hstranded.stopped hstranded.asleep

/-- The manager sleeps when `stop` is called, hears the notification and ends. -/
theorem manager_not_stranded_sleepingRun :
    ∃ state : State Unit, (system 0).ReachableMeeting NotifiesOutsideGap state ∧
      state.stop = .returned ∧ ¬ Stranded state := by
  obtain ⟨state, hrun, hstop⟩ : ∃ state,
      (system 0).run (initial 0 : State Unit)
          (List.flatten [[.callStart, .start 0, .start 0, .start 0],
            List.replicate 4 (.manager 0 0),
            [.callStop, .stop, .stop, .stop, .stop, .manager 0 0, .manager 0 0, .stop]]) =
        some state ∧ state.stop = .returned :=
    ⟨_, rfl, by decide⟩
  have hreach : (system 0).ReachableMeeting NotifiesOutsideGap state :=
    ⟨_, hrun, by decide⟩
  exact ⟨state, hreach, hstop, manager_not_stranded hreach⟩

/-- The manager has tested `running_` when `stop` stores, empties the heap and
notifies: it sleeps for good, and `stop` waits for it. -/
theorem manager_stranded_afterTest :
    ¬ ∀ state : State Unit, (system 0).Reachable state → ¬ Stranded state := by
  intro hall
  obtain ⟨state, hrun, hstop, hrunning, hmanager, hempty, hadds⟩ : ∃ state,
      (system 0).run (initial 0 : State Unit)
          [.callStart, .start 0, .start 0, .start 0, .manager 0 0, .callStop, .stop, .stop,
            .stop, .stop, .manager 0 0, .manager 0 0, .manager 0 0] = some state ∧
        state.stop = .join ∧ state.running = false ∧ state.manager = .wait .blocked ∧
        state.timers.tasks = [] ∧ state.adds = [] :=
    ⟨_, rfl, by decide, by decide, by decide, rfl, rfl⟩
  refine hall state ⟨_, hrun⟩ ⟨hstop, hrunning, hmanager, hempty, ?_⟩
  simp [hadds]

/-! ## The condition is exact -/

/-- The notification is sent, and the manager in the gap will find the heap
empty. -/
structure Doomed (state : State Callback) : Prop where
  live : state.terminated = false
  notified : state.stop = .join
  stopped : state.running = false
  empty : state.timers.tasks = []
  gap : state.manager.inGap = true
  quiet : ∀ add ∈ state.adds, add = .returned

theorem Doomed.adds_free (hdoomed : Doomed state) :
    state.adds.any AddPhase.holdsMutex = false := by
  rw [List.any_eq_false]
  intro add hmem
  rw [hdoomed.quiet add hmem]
  simp [AddPhase.holdsMutex]

/-- The steps of the manager from the gap to its sleep. -/
def ManagerPhase.gapSteps : ManagerPhase → ℕ
  | .lock => 2
  | .inspect => 1
  | _ => 0

/-- The manager goes on through the gap, or falls asleep. -/
theorem Doomed.step_manager (hdoomed : Doomed state) :
    ∃ next, step state (.manager state.now 0) = some next ∧
      (Doomed next ∧ next.manager.gapSteps < state.manager.gapSteps ∨ Stranded next) := by
  have hadds := hdoomed.adds_free
  have hempty := hdoomed.empty
  cases hmanager : state.manager with
  | lock =>
      refine ⟨{ state with manager := .inspect }, ?_, Or.inl ⟨?_, Nat.lt_succ_self 1⟩⟩
      · simp [step, managerStep, hdoomed.live, hmanager, State.mutexFree,
          ManagerPhase.holdsMutex, hadds]
      · exact ⟨hdoomed.live, hdoomed.notified, hdoomed.stopped, hempty, rfl, hdoomed.quiet⟩
  | inspect =>
      refine ⟨{ state with manager := .wait .blocking }, ?_, Or.inl ⟨?_, Nat.zero_lt_one⟩⟩
      · simp [step, managerStep, hdoomed.live, hmanager, Timers.managerIteration, hempty]
      · exact ⟨hdoomed.live, hdoomed.notified, hdoomed.stopped, hempty, rfl, hdoomed.quiet⟩
  | wait phase =>
      have hgap := hdoomed.gap
      rw [hmanager] at hgap
      cases phase with
      | blocking =>
          refine ⟨{ state with manager := .wait .blocked }, ?_, Or.inr ?_⟩
          · simp [step, managerStep, hdoomed.live, hmanager]
          · exact ⟨hdoomed.notified, hdoomed.stopped, rfl, hempty,
              fun add hmem => Or.inr (hdoomed.quiet add hmem)⟩
      | _ => cases hgap
  | _ =>
      have hgap := hdoomed.gap
      rw [hmanager] at hgap
      cases hgap

theorem Doomed.strands (start : ℤ) (hdoomed : Doomed state) :
    ∃ final, (system start).ReachableFrom state final ∧ Stranded final := by
  induction hsteps : state.manager.gapSteps using Nat.strong_induction_on
    generalizing state with
  | h steps ih =>
      obtain ⟨next, hstep, hnext⟩ := hdoomed.step_manager
      have hmanager : (system start).step state (.manager state.now 0) = some next := hstep
      have hfirst := (TransitionSystem.ReachableFrom.refl state).tail hmanager
      rcases hnext with ⟨hdoomedNext, hless⟩ | hstranded
      · obtain ⟨final, ⟨actions, hrun⟩, hstranded⟩ :=
          ih _ (hsteps ▸ hless) hdoomedNext rfl
        exact ⟨final, hfirst.run hrun, hstranded⟩
      · exact ⟨next, hfirst, hstranded⟩

/-- Where the notification of `stop` meets the manager in the gap with an empty
heap, and no addition is under way, the manager alone goes on to strand
itself. -/
theorem strands_of_notify_inGap (start : ℤ) (hlive : state.terminated = false)
    (hstop : state.stop = .notify) (hrunning : state.running = false)
    (hempty : state.timers.tasks = []) (hgap : state.manager.inGap = true)
    (hquiet : ∀ add ∈ state.adds, add = .returned) :
    ∃ final, (system start).ReachableFrom state final ∧ Stranded final := by
  have hnotify : (system start).step state .stop =
      some { state with manager := state.manager.notify, stop := .join } := by
    simp [system, step, stopStep, hlive, hstop]
  have hdoomed : Doomed { state with manager := state.manager.notify, stop := .join } :=
    ⟨hlive, rfl, hrunning, hempty, (inGap_notify _).trans hgap, hquiet⟩
  obtain ⟨final, ⟨actions, hrun⟩, hstranded⟩ := hdoomed.strands start
  have hfirst := (TransitionSystem.ReachableFrom.refl state).tail hnotify
  exact ⟨final, hfirst.run hrun, hstranded⟩

end CppProj.DualModeTimer.Shutdown
