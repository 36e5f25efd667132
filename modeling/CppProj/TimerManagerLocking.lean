import CppProj.MutualExclusion
import CppProj.TimerManagerTasks
import CppProj.TransitionSystem

/-!
# The mutex of `TimerManager.hpp`

Users' threads, the manager thread and the functions that the timer calls run
in any interleaving.  A call of a public operation lies on top of the function
that makes it, which may hold the mutex meanwhile.  A wait on the condition
variable may end at any time, so notifications are left out, and the timer calls
each function that it was given once, at any time or never.
-/

namespace CppProj.TimerManagerLocking

open PriorityQueues TimerManagerTasks

/-- The public operations that take the mutex at their beginning, with the clock readings
that they use. -/
inductive Locked where
  | scheduleOneShot (id : TimerId) (now delay : ℤ) (callback : ℕ) (priority : ℤ)
  | schedulePeriodic (now interval : ℤ) (callback : ℕ)
  | cancel (id : TimerId)
  | nextTaskDelay
  deriving DecidableEq

inductive Request where
  | locked (operation : Locked)
  | start
  | stop
  deriving DecidableEq

/-- Where a call stands. -/
inductive CallPhase where
  | lock (operation : Locked)
  | body (operation : Locked)
  | startTest
  | startSet
  | startThread
  | stopClear
  | stopJoinable
  | stopJoin
  | stopCancelAll
  | stopLock
  | stopBody
  deriving DecidableEq

def Request.begin : Request → CallPhase
  | .locked operation => .lock operation
  | .start => .startTest
  | .stop => .stopClear

/-- Where a thread stands below the call that it makes. -/
inductive Base where
  | user
  | testRunning
  | managerLock
  | testQueues
  | delayed
  | waiting
  | relock
  | loopEnd
  | oneShotCallback (id : TimerId)
  | removeLock (id : TimerId)
  | removeBody (id : TimerId)
  | periodicLock (id : TimerId)
  | periodicFind (id : TimerId)
  | periodicCallback (id : TimerId)
  | periodicReschedule (id : TimerId)
  | finished
  deriving DecidableEq

/-- Where the timer begins a function. -/
def begin : Lambda → Base
  | .oneShot id _ => .oneShotCallback id
  | .periodic id => .periodicLock id

def CallPhase.requests : CallPhase → Bool
  | .lock _ | .stopLock => true
  | _ => false

def CallPhase.holds : CallPhase → Bool
  | .body _ | .stopBody => true
  | _ => false

namespace Base

def requests : Base → Bool
  | .managerLock | .relock | .removeLock _ | .periodicLock _ => true
  | _ => false

def holds : Base → Bool
  | .testQueues | .delayed | .loopEnd | .removeBody _ | .periodicFind _ | .periodicCallback _
  | .periodicReschedule _ => true
  | _ => false

/-- A user's code runs, and may call the operations. -/
def runsUserCode : Base → Bool
  | .user | .oneShotCallback _ | .periodicCallback _ => true
  | _ => false

def inPeriodicCallback : Base → Bool
  | .periodicCallback _ => true
  | _ => false

end Base

structure Thread where
  base : Base
  call : Option CallPhase
  deriving DecidableEq

namespace Thread

/-- The next thing that the thread does is to lock the mutex. -/
def requests (thread : Thread) : Bool :=
  match thread.call with
  | some phase => phase.requests
  | none => thread.base.requests

def holds (thread : Thread) : Bool :=
  thread.base.holds || thread.call.any CallPhase.holds

end Thread

/-- `managerThread` is the thread in `managerThread_`, unless it was joined. -/
structure State (impl : PriorityQueue OneShotTask OneShotTask.lt) where
  tasks : TimerManager impl
  running : Bool
  managerThread : Option ℕ
  /-- The functions that the timer has called, by their place among its calls. -/
  fired : List ℕ
  threads : List Thread

variable {impl : PriorityQueue OneShotTask OneShotTask.lt}

namespace State

def free (state : State impl) : Bool := noneHolds Thread.holds state.threads

def setThread (state : State impl) (index : ℕ) (thread : Thread) : State impl :=
  { state with threads := state.threads.set index thread }

def addThread (state : State impl) (base : Base) : State impl :=
  { state with threads := state.threads ++ [⟨base, none⟩] }

end State

def initial : State impl where
  tasks := TimerManager.initial
  running := false
  managerThread := none
  fired := []
  threads := []

def Locked.apply : Locked → TimerManager impl → TimerManager impl
  | .scheduleOneShot id now delay callback priority, tasks =>
      tasks.scheduleOneShot id now delay callback priority
  | .schedulePeriodic now interval callback, tasks =>
      (tasks.schedulePeriodic now interval callback).2
  | .cancel id, tasks => (tasks.cancel id).2
  | .nextTaskDelay, tasks => tasks

/-- A step of the call that the thread at `index` makes. -/
def callStep (state : State impl) (index : ℕ) (base : Base) : CallPhase → Option (State impl)
  | .lock operation =>
      if state.free then some (state.setThread index ⟨base, some (.body operation)⟩) else none
  | .body operation =>
      some { state.setThread index ⟨base, none⟩ with tasks := operation.apply state.tasks }
  | .startTest =>
      some (state.setThread index ⟨base, if state.running then none else some .startSet⟩)
  | .startSet =>
      some { state.setThread index ⟨base, some .startThread⟩ with running := true }
  | .startThread =>
      -- a thread is not assigned over one that is still joinable: the program is terminated
      if state.managerThread.isSome then none
      else
        some { (state.setThread index ⟨base, none⟩).addThread .testRunning with
          managerThread := some state.threads.length }
  | .stopClear =>
      some { state.setThread index ⟨base, some .stopJoinable⟩ with running := false }
  | .stopJoinable =>
      some (state.setThread index
        ⟨base, some (if state.managerThread.isSome then .stopJoin else .stopCancelAll)⟩)
  | .stopJoin =>
      match state.managerThread with
      -- another call has joined it: `join` throws, and `stop` with it
      | none => some (state.setThread index ⟨base, none⟩)
      | some worker =>
          if state.threads[worker]? = some ⟨.finished, none⟩ then
            some { state.setThread index ⟨base, some .stopCancelAll⟩ with managerThread := none }
          else none
  | .stopCancelAll =>
      some { state.setThread index ⟨base, some .stopLock⟩ with
        tasks := state.tasks.call .cancelAll }
  | .stopLock =>
      if state.free then some (state.setThread index ⟨base, some .stopBody⟩) else none
  | .stopBody =>
      some { state.setThread index ⟨base, none⟩ with tasks := state.tasks.clear }

/-- A step of the thread at `index` that makes no call; `now` is what the clock reads. -/
def baseStep (state : State impl) (index : ℕ) (now : ℤ) : Base → Option (State impl)
  | .user | .finished => none
  | .testRunning =>
      some (state.setThread index ⟨if state.running then .managerLock else .finished, none⟩)
  | .managerLock =>
      if state.free then some (state.setThread index ⟨.testQueues, none⟩) else none
  | .testQueues =>
      some (state.setThread index
        (if state.tasks.hasNoTasks then ⟨.waiting, none⟩
        else ⟨.delayed, some (.lock .nextTaskDelay)⟩))
  | .delayed => some (state.setThread index ⟨.waiting, none⟩)
  | .waiting => some (state.setThread index ⟨.relock, none⟩)
  | .relock => if state.free then some (state.setThread index ⟨.loopEnd, none⟩) else none
  | .loopEnd => some (state.setThread index ⟨.testRunning, none⟩)
  | .oneShotCallback id => some (state.setThread index ⟨.removeLock id, none⟩)
  | .removeLock id =>
      if state.free then some (state.setThread index ⟨.removeBody id, none⟩) else none
  | .removeBody id =>
      some { state.setThread index ⟨.finished, none⟩ with
        tasks := state.tasks.removeOneShotTask id }
  | .periodicLock id =>
      if state.free then some (state.setThread index ⟨.periodicFind id, none⟩) else none
  | .periodicFind id =>
      some (state.setThread index
        ⟨if id ∈ state.tasks.periodicTasks then .periodicCallback id else .finished, none⟩)
  | .periodicCallback id => some (state.setThread index ⟨.periodicReschedule id, none⟩)
  | .periodicReschedule id =>
      some { state.setThread index ⟨.finished, none⟩ with
        tasks := state.tasks.reschedule id now }

inductive Action where
  | spawn
  | invoke (index : ℕ) (request : Request)
  | move (index : ℕ) (now : ℤ)
  | fire (place : ℕ)
  deriving DecidableEq

def moveStep (state : State impl) (index : ℕ) (now : ℤ) (thread : Thread) :
    Option (State impl) :=
  match thread.call with
  | some phase => callStep state index thread.base phase
  | none => baseStep state index now thread.base

def step (state : State impl) : Action → Option (State impl)
  | .spawn => some (state.addThread .user)
  | .invoke index request =>
      state.threads[index]?.bind fun thread =>
        if thread.call = none ∧ thread.base.runsUserCode = true then
          some (state.setThread index ⟨thread.base, some request.begin⟩)
        else none
  | .move index now =>
      state.threads[index]?.bind fun thread => moveStep state index now thread
  | .fire place =>
      match state.tasks.timerCalls[place]? with
      | some (.asyncAfter _ callback) =>
          if place ∈ state.fired then none
          else some { state.addThread (begin callback) with fired := place :: state.fired }
      | _ => none

def system (impl : PriorityQueue OneShotTask OneShotTask.lt) :
    TransitionSystem (State impl) Action where
  initial := initial
  step := step

/-- No thread asks for the mutex while it holds it. -/
def NoSelfRequest (state : State impl) : Prop :=
  ∀ thread ∈ state.threads, thread.requests = true → thread.holds = false

/-- The manager finds no task when it tests the queues, and the callback of a periodic task
makes no call that locks the mutex. -/
def Disciplined (state : State impl) : Action → Prop
  | .invoke index request => ∀ thread, state.threads[index]? = some thread →
      thread.base.inPeriodicCallback = true → request.begin.requests = false
  | .move index _ => ∀ thread, state.threads[index]? = some thread →
      (thread.base = .testQueues → state.tasks.hasNoTasks = true) ∧
        (thread.call = some .stopCancelAll → thread.base.inPeriodicCallback = false)
  | .spawn | .fire _ => True

instance (state : State impl) (action : Action) : Decidable (Disciplined state action) :=
  match action with
  | .invoke _ _ | .move _ _ => inferInstanceAs (Decidable (∀ _, _ → _))
  | .spawn | .fire _ => isTrue trivial

/-! ## One thread -/

theorem Base.not_holds_of_requests {base : Base} (hrequests : base.requests = true) :
    base.holds = false := by
  cases base <;> simp [requests, holds] at hrequests ⊢

theorem CallPhase.not_holds_of_requests {phase : CallPhase} (hrequests : phase.requests = true) :
    phase.holds = false := by
  cases phase <;> simp [requests, holds] at hrequests ⊢

/-- Of the places where a user's code runs, one is under the mutex. -/
theorem Base.holds_of_runsUserCode {base : Base} (huser : base.runsUserCode = true) :
    base.holds = base.inPeriodicCallback := by
  cases base <;> simp [runsUserCode, holds, inPeriodicCallback] at huser ⊢

namespace Thread

/-- Calls are made by users' code only, and none asks for a mutex that the thread holds. -/
structure Orderly (thread : Thread) : Prop where
  runsUserCode : thread.call ≠ none → thread.base.runsUserCode = true
  noSelfRequest : thread.requests = true → thread.holds = false

theorem orderly_of_noCall (base : Base) : Orderly ⟨base, none⟩ := by
  refine ⟨fun hcall => (hcall rfl).elim, ?_⟩
  intro hrequests
  simpa [holds] using Base.not_holds_of_requests hrequests

theorem holds_of_requests {base : Base} {phase : CallPhase} (hrequests : phase.requests = true) :
    holds ⟨base, some phase⟩ = base.holds := by
  simp [holds, CallPhase.not_holds_of_requests hrequests]

theorem orderly_of_call {base : Base} {phase : CallPhase} (huser : base.runsUserCode = true)
    (hfree : phase.requests = true → base.inPeriodicCallback = false) :
    Orderly ⟨base, some phase⟩ := by
  refine ⟨fun _ => huser, ?_⟩
  intro hrequests
  rw [holds_of_requests hrequests, base.holds_of_runsUserCode huser]
  exact hfree hrequests

end Thread

/-! ## The effects of a step -/

/-- A step puts a thread at this index, and may start the manager thread. -/
def Moves (state : State impl) (index : ℕ) (after : Thread) (next : State impl) : Prop :=
  ∃ started, next.threads = state.threads.set index after ++ started ∧
    ∀ thread ∈ started, thread = ⟨.testRunning, none⟩

variable {state next : State impl}

theorem Moves.of_threads {index : ℕ} {after : Thread}
    (hthreads : next.threads = state.threads.set index after) : Moves state index after next :=
  ⟨[], by rw [hthreads, List.append_nil], fun _ hmem => absurd hmem List.not_mem_nil⟩

/-- The call goes on to lock the mutex only in `stop`, after `cancelAll`. -/
theorem callStep_moves {index : ℕ} {base : Base} {phase : CallPhase}
    (hstep : callStep state index base phase = some next) :
    ∃ after : Option CallPhase, Moves state index ⟨base, after⟩ next ∧
      after.any CallPhase.requests = decide (phase = .stopCancelAll) := by
  cases phase with
  | lock operation =>
      simp only [callStep] at hstep
      split_ifs at hstep
      cases hstep
      exact ⟨some (.body operation), .of_threads rfl, rfl⟩
  | body operation =>
      cases hstep
      exact ⟨none, .of_threads rfl, rfl⟩
  | startTest =>
      cases hstep
      refine ⟨_, .of_threads rfl, ?_⟩
      split <;> rfl
  | startSet =>
      cases hstep
      exact ⟨some .startThread, .of_threads rfl, rfl⟩
  | startThread =>
      simp only [callStep] at hstep
      split_ifs at hstep
      cases hstep
      exact ⟨none, ⟨[⟨.testRunning, none⟩], rfl, fun _ => List.mem_singleton.mp⟩, rfl⟩
  | stopClear =>
      cases hstep
      exact ⟨some .stopJoinable, .of_threads rfl, rfl⟩
  | stopJoinable =>
      cases hstep
      refine ⟨_, .of_threads rfl, ?_⟩
      split <;> rfl
  | stopJoin =>
      simp only [callStep] at hstep
      split at hstep
      · cases hstep
        exact ⟨none, .of_threads rfl, rfl⟩
      · split_ifs at hstep
        cases hstep
        exact ⟨some .stopCancelAll, .of_threads rfl, rfl⟩
  | stopCancelAll =>
      cases hstep
      exact ⟨some .stopLock, .of_threads rfl, rfl⟩
  | stopLock =>
      simp only [callStep] at hstep
      split_ifs at hstep
      cases hstep
      exact ⟨some .stopBody, .of_threads rfl, rfl⟩
  | stopBody =>
      cases hstep
      exact ⟨none, .of_threads rfl, rfl⟩

/-- A thread that makes no call makes one when the manager finds a task only. -/
theorem baseStep_moves {index : ℕ} {now : ℤ} {base : Base}
    (hstep : baseStep state index now base = some next) :
    (base = .testQueues ∧ state.tasks.hasNoTasks = false ∧
      Moves state index ⟨.delayed, some (.lock .nextTaskDelay)⟩ next) ∨
    ((base = .testQueues → state.tasks.hasNoTasks = true) ∧
      ∃ after, Moves state index ⟨after, none⟩ next) := by
  cases base with
  | user | finished => cases hstep
  | testQueues =>
      cases hempty : state.tasks.hasNoTasks with
      | false =>
          simp only [baseStep, hempty] at hstep
          cases hstep
          exact .inl ⟨rfl, rfl, .of_threads rfl⟩
      | true =>
          simp only [baseStep, hempty] at hstep
          cases hstep
          exact .inr ⟨fun _ => rfl, .waiting, .of_threads rfl⟩
  | managerLock | relock | removeLock id | periodicLock id =>
      simp only [baseStep] at hstep
      split_ifs at hstep
      cases hstep
      exact .inr ⟨nofun, _, .of_threads rfl⟩
  | testRunning | delayed | waiting | loopEnd | oneShotCallback id | removeBody id
  | periodicFind id | periodicCallback id | periodicReschedule id =>
      cases hstep
      exact .inr ⟨nofun, _, .of_threads rfl⟩

theorem Moves.mem {index : ℕ} {thread after : Thread} (hmoves : Moves state index after next)
    (hget : state.threads[index]? = some thread) : after ∈ next.threads := by
  obtain ⟨started, hthreads, -⟩ := hmoves
  rw [hthreads]
  have hlt := (List.getElem?_eq_some_iff.mp hget).1
  exact List.mem_append_left _ (List.mem_set hlt after)

def Orderly (state : State impl) : Prop := ∀ thread ∈ state.threads, thread.Orderly

theorem Orderly.moves {index : ℕ} {after : Thread} (hinv : Orderly state)
    (hmoves : Moves state index after next) (hafter : after.Orderly) : Orderly next := by
  obtain ⟨started, hthreads, hstarted⟩ := hmoves
  intro thread hmem
  rw [hthreads] at hmem
  rcases List.mem_append.mp hmem with hold | hnew
  · rcases List.mem_or_eq_of_mem_set hold with hold | rfl
    · exact hinv thread hold
    · exact hafter
  · rw [hstarted thread hnew]
    exact Thread.orderly_of_noCall _

theorem Orderly.addThread {base : Base} (hinv : Orderly state)
    (hthreads : next.threads = state.threads ++ [⟨base, none⟩]) : Orderly next := by
  intro thread hmem
  rw [hthreads, List.mem_append, List.mem_singleton] at hmem
  rcases hmem with hold | rfl
  · exact hinv thread hold
  · exact Thread.orderly_of_noCall base

theorem fire_threads {place : ℕ} (hstep : step state (.fire place) = some next) :
    ∃ base, next.threads = state.threads ++ [⟨base, none⟩] := by
  simp only [step] at hstep
  split at hstep
  · split_ifs at hstep
    cases hstep
    exact ⟨_, rfl⟩
  · cases hstep

theorem invoke_moves {index : ℕ} {request : Request}
    (hstep : step state (.invoke index request) = some next) :
    ∃ thread, state.threads[index]? = some thread ∧ thread.base.runsUserCode = true ∧
      Moves state index ⟨thread.base, some request.begin⟩ next := by
  obtain ⟨thread, hget, hstep⟩ := Option.bind_eq_some_iff.mp hstep
  split_ifs at hstep with hguard
  cases hstep
  exact ⟨thread, hget, hguard.2, .of_threads rfl⟩

theorem step_orderly {action : Action} (hinv : Orderly state)
    (hdisciplined : Disciplined state action) (hstep : step state action = some next) :
    Orderly next := by
  cases action with
  | spawn =>
      cases hstep
      exact hinv.addThread rfl
  | fire place =>
      obtain ⟨base, hthreads⟩ := fire_threads hstep
      exact hinv.addThread hthreads
  | invoke index request =>
      obtain ⟨thread, hget, huser, hmoves⟩ := invoke_moves hstep
      refine hinv.moves hmoves (Thread.orderly_of_call huser ?_)
      intro hrequests
      by_contra hperiodic
      have hlocks := hdisciplined thread hget (by simpa using hperiodic)
      simp [hlocks] at hrequests
  | move index now =>
      obtain ⟨thread, hget, hmove⟩ := Option.bind_eq_some_iff.mp hstep
      obtain ⟨hqueues, hcancelAll⟩ := hdisciplined thread hget
      unfold moveStep at hmove
      split at hmove
      next phase hphase =>
        have horderly := hinv thread (List.mem_of_getElem? hget)
        have huser := horderly.runsUserCode (by simp [hphase])
        obtain ⟨after, hmoves, hrequests⟩ := callStep_moves hmove
        refine hinv.moves hmoves ?_
        cases after with
        | none => exact Thread.orderly_of_noCall _
        | some after =>
            refine Thread.orderly_of_call huser ?_
            intro hafter
            refine hcancelAll ?_
            simpa [hafter, hphase] using hrequests
      next hcall =>
        rcases baseStep_moves hmove with ⟨hbase, htasks, -⟩ | ⟨-, after, hmoves⟩
        · simp [hqueues hbase] at htasks
        · exact hinv.moves hmoves (Thread.orderly_of_noCall after)

theorem not_noSelfRequest_of_call {index : ℕ} {thread : Thread} {phase : CallPhase}
    (hget : state.threads[index]? = some thread) (huser : thread.base.runsUserCode = true)
    (hperiodic : thread.base.inPeriodicCallback = true) (hrequests : phase.requests = true)
    (hmoves : Moves state index ⟨thread.base, some phase⟩ next) : ¬ NoSelfRequest next := by
  intro hgood
  have hfree := hgood _ (hmoves.mem hget) hrequests
  rw [Thread.holds_of_requests hrequests, Base.holds_of_runsUserCode huser, hperiodic] at hfree
  cases hfree

/-- A step that does not meet it leads to a thread which asks for the mutex that it holds. -/
theorem step_not_noSelfRequest {action : Action} (hinv : Orderly state)
    (hviolated : ¬ Disciplined state action) (hstep : step state action = some next) :
    ¬ NoSelfRequest next := by
  cases action with
  | spawn | fire place => exact (hviolated trivial).elim
  | invoke index request =>
      obtain ⟨thread, hget, huser, hmoves⟩ := invoke_moves hstep
      simp only [Disciplined, not_forall] at hviolated
      obtain ⟨found, hfound, hperiodic, hrequests⟩ := hviolated
      rw [hget, Option.some.injEq] at hfound
      subst hfound
      exact not_noSelfRequest_of_call hget huser hperiodic (by simpa using hrequests) hmoves
  | move index now =>
      obtain ⟨thread, hget, hmove⟩ := Option.bind_eq_some_iff.mp hstep
      have horderly := hinv thread (List.mem_of_getElem? hget)
      simp only [Disciplined, not_forall] at hviolated
      obtain ⟨found, hfound, hcases⟩ := hviolated
      rw [hget, Option.some.injEq] at hfound
      subst hfound
      unfold moveStep at hmove
      split at hmove
      next phase hphase =>
        have huser := horderly.runsUserCode (by simp [hphase])
        have hqueues : thread.base ≠ .testQueues := by
          intro hbase
          rw [hbase] at huser
          cases huser
        have hcancelAll : ¬ (thread.call = some .stopCancelAll →
            thread.base.inPeriodicCallback = false) :=
          fun hmeets => hcases ⟨fun hbase => (hqueues hbase).elim, hmeets⟩
        simp only [hphase, Option.some.injEq, not_forall] at hcancelAll
        obtain ⟨rfl, hperiodic⟩ := hcancelAll
        obtain ⟨after, hmoves, hrequests⟩ := callStep_moves hmove
        cases after with
        | none => cases hrequests
        | some after =>
            exact not_noSelfRequest_of_call hget huser (by simpa using hperiodic) hrequests hmoves
      next hcall =>
        rcases baseStep_moves hmove with ⟨-, -, hmoves⟩ | ⟨hqueues, -⟩
        · intro hgood
          have hfree := hgood _ (hmoves.mem hget) rfl
          cases hfree
        · exact (hcases ⟨hqueues, by simp [hcall]⟩).elim

/-- In every run, no thread ever asks for the mutex that it holds exactly if the manager
never finds a task and no callback of a periodic task makes a call that locks it. -/
theorem noSelfRequest_iff (impl : PriorityQueue OneShotTask OneShotTask.lt)
    (actions : List Action) (final : State impl)
    (hrun : (system impl).run initial actions = some final) :
    (system impl).Always NoSelfRequest initial actions ↔
      (system impl).StepsMeet Disciplined initial actions := by
  refine TransitionSystem.always_iff_stepsMeet Orderly NoSelfRequest ?_ ?_ ?_ ?_ hrun
  · exact fun state hinv thread hmem => (hinv thread hmem).noSelfRequest
  · exact fun state action next hinv hdisciplined hstep => step_orderly hinv hdisciplined hstep
  · exact fun state action next hinv hviolated hstep =>
      step_not_noSelfRequest hinv hviolated hstep
  · exact fun thread hmem => absurd hmem List.not_mem_nil

/-- The manager waits while there are no tasks; a one-shot task comes and goes, its callback
cancels another, and `stop` finds the queues empty. -/
def oneShotRun : List Action :=
  List.flatten [
    .spawn :: .invoke 0 .start :: List.replicate 3 (.move 0 0), List.replicate 3 (.move 1 0),
    .invoke 0 (.locked (.scheduleOneShot 7 0 5 0 0)) :: List.replicate 2 (.move 0 0),
    .fire 0 :: .invoke 2 (.locked (.cancel 8)) :: List.replicate 5 (.move 2 5),
    .invoke 0 .stop :: List.replicate 2 (.move 0 9), List.replicate 4 (.move 1 9),
    List.replicate 4 (.move 0 9)]

theorem noSelfRequest_iff_oneShot :
    ∃ final, (system (sortedList OneShotTask.lt)).run initial oneShotRun = some final ∧
      (system (sortedList OneShotTask.lt)).Always NoSelfRequest initial oneShotRun := by
  obtain ⟨final, hrun⟩ :
      ∃ final, (system (sortedList OneShotTask.lt)).run initial oneShotRun = some final :=
    ⟨_, rfl⟩
  exact ⟨final, hrun, (noSelfRequest_iff _ oneShotRun final hrun).mpr (by decide)⟩

/-- The manager thread finds a periodic task, and calls `nextTaskDelay`. -/
theorem not_noSelfRequest_periodic :
    ¬ ∀ state, (system (sortedList OneShotTask.lt)).Reachable state → NoSelfRequest state := by
  intro hall
  have hrun : ∃ state, (system (sortedList OneShotTask.lt)).run initial
      (List.flatten [
        .spawn :: .invoke 0 .start :: List.replicate 3 (.move 0 0),
        .invoke 0 (.locked (.schedulePeriodic 0 5 0)) :: List.replicate 2 (.move 0 0),
        List.replicate 3 (.move 1 0)]) = some state ∧
      (⟨.delayed, some (.lock .nextTaskDelay)⟩ : Thread) ∈ state.threads :=
    ⟨_, rfl, by decide⟩
  obtain ⟨state, hrun, hmem⟩ := hrun
  cases hall state ⟨_, hrun⟩ _ hmem rfl

/-! ## What becomes of such a thread -/

theorem Moves.other {index other : ℕ} {thread after : Thread}
    (hmoves : Moves state other after next) (hne : other ≠ index)
    (hget : state.threads[index]? = some thread) :
    next.threads[index]? = some thread := by
  obtain ⟨started, hthreads, -⟩ := hmoves
  rw [hthreads, List.getElem?_append_left, List.getElem?_set_ne hne, hget]
  rw [List.length_set]
  exact (List.getElem?_eq_some_iff.mp hget).1

theorem moveStep_moves {index : ℕ} {now : ℤ} {thread : Thread}
    (hstep : moveStep state index now thread = some next) :
    ∃ after, Moves state index after next := by
  unfold moveStep at hstep
  split at hstep
  next phase hphase =>
    obtain ⟨after, hmoves, -⟩ := callStep_moves hstep
    exact ⟨_, hmoves⟩
  next hcall =>
    rcases baseStep_moves hstep with ⟨-, -, hmoves⟩ | ⟨-, after, hmoves⟩
    · exact ⟨_, hmoves⟩
    · exact ⟨_, hmoves⟩

theorem Thread.call_of_selfRequest {thread : Thread} (hrequests : thread.requests = true)
    (hholds : thread.holds = true) :
    ∃ phase, thread.call = some phase ∧ phase.requests = true := by
  cases hcall : thread.call with
  | none =>
      simp only [requests, hcall] at hrequests
      simp [holds, hcall, Base.not_holds_of_requests hrequests] at hholds
  | some phase =>
      simp only [requests, hcall] at hrequests
      exact ⟨phase, rfl, hrequests⟩

theorem not_free_of_holds {index : ℕ} {thread : Thread}
    (hget : state.threads[index]? = some thread) (hholds : thread.holds = true) :
    state.free = false := by
  by_contra hfree
  have hnone := not_holds_of_noneHolds (by simpa [State.free] using hfree) hget
  rw [hholds] at hnone
  cases hnone

theorem callStep_eq_none {index : ℕ} {base : Base} {phase : CallPhase}
    (hrequests : phase.requests = true) (htaken : state.free = false) :
    callStep state index base phase = none := by
  cases phase <;> simp [CallPhase.requests, callStep, htaken] at hrequests ⊢

/-- No step takes the thread further, and none frees the mutex. -/
theorem step_selfRequest {action : Action} {index : ℕ} {thread : Thread}
    (hget : state.threads[index]? = some thread) (hrequests : thread.requests = true)
    (hholds : thread.holds = true) (hstep : step state action = some next) :
    next.threads[index]? = some thread := by
  obtain ⟨phase, hphase, hlocks⟩ := thread.call_of_selfRequest hrequests hholds
  have hlt := (List.getElem?_eq_some_iff.mp hget).1
  cases action with
  | spawn =>
      cases hstep
      exact (List.getElem?_append_left hlt).trans hget
  | fire place =>
      obtain ⟨base, hthreads⟩ := fire_threads hstep
      rw [hthreads, List.getElem?_append_left hlt, hget]
  | invoke other request =>
      obtain ⟨caller, hcaller, hinvoke⟩ := Option.bind_eq_some_iff.mp hstep
      split_ifs at hinvoke with hguard
      cases hinvoke
      have hne : other ≠ index := by
        rintro rfl
        rw [hget, Option.some.injEq] at hcaller
        subst hcaller
        simp [hphase] at hguard
      exact Moves.other (.of_threads rfl) hne hget
  | move other now =>
      obtain ⟨mover, hmover, hmove⟩ := Option.bind_eq_some_iff.mp hstep
      have hne : other ≠ index := by
        rintro rfl
        rw [hget, Option.some.injEq] at hmover
        subst hmover
        have htaken := not_free_of_holds hget hholds
        simp only [moveStep, hphase, callStep_eq_none hlocks htaken] at hmove
        cases hmove
      obtain ⟨after, hmoves⟩ := moveStep_moves hmove
      exact hmoves.other hne hget

/-- It stands there for ever, and with it the mutex is taken for ever. -/
theorem run_selfRequest {actions : List Action} {index : ℕ} {thread : Thread} {final : State impl}
    (hget : state.threads[index]? = some thread) (hrequests : thread.requests = true)
    (hholds : thread.holds = true) (hrun : (system impl).run state actions = some final) :
    final.threads[index]? = some thread ∧ final.free = false := by
  have hfinal : final.threads[index]? = some thread :=
    TransitionSystem.run_preserves (fun state => state.threads[index]? = some thread)
      (fun _ _ _ hget hstep => step_selfRequest hget hrequests hholds hstep) hget hrun
  exact ⟨hfinal, not_free_of_holds hfinal hholds⟩

end CppProj.TimerManagerLocking
