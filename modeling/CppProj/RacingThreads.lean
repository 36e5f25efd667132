import CppProj.MutualExclusion
import CppProj.TransitionSystem
import Mathlib.Data.List.Perm.Lattice

/-!
# The threads of `cv.cpp` and `condiva.cpp`

The two programs differ in one call: `go` wakes all threads that sleep, or one of
them.  A thread that comes after `ready` has been set does not sleep at all.
-/

namespace CppProj.RacingThreads

/-- The call of `go`, in `cv.cpp` and in `condiva.cpp`. -/
inductive Notify where
  | notifyAll
  | notifyOne
  deriving DecidableEq

inductive Phase where
  | locking
  | testing
  | sleeping
  | printing
  | done
  deriving DecidableEq

/-- `main` runs `go` and then waits for the threads. -/
inductive MainPhase where
  | locking
  | storing
  | notifying
  | unlocking
  | joining
  deriving DecidableEq

def Phase.holdsMutex : Phase → Bool
  | .testing | .printing => true
  | .locking | .sleeping | .done => false

def MainPhase.holdsMutex : MainPhase → Bool
  | .storing | .notifying | .unlocking => true
  | .locking | .joining => false

/-- The numbers of the threads that sleep. -/
def asleep (threads : List Phase) : List ℕ :=
  (List.range threads.length).filter fun index => threads[index]? = some .sleeping

/-- `printed` are the numbers of the threads so far, and `asleepAtGo` are those of
the threads that slept when `go` notified them. -/
structure State where
  threads : List Phase
  main : MainPhase
  ready : Bool
  printed : List ℕ
  asleepAtGo : Option (List ℕ)
  deriving DecidableEq

/-- `notify_one` wakes the sleeping thread at `woken`. -/
inductive Action where
  | thread (index : ℕ)
  | main (woken : ℕ)
  | spuriousWakeup (index : ℕ)
  deriving DecidableEq

def initial (count : ℕ) : State where
  threads := List.replicate count .locking
  main := .locking
  ready := false
  printed := []
  asleepAtGo := none

def mutexFree (state : State) : Bool :=
  noneHolds Phase.holdsMutex state.threads && !state.main.holdsMutex

def threadStep (state : State) (index : ℕ) : Option State :=
  match state.threads[index]? with
  | some .locking =>
      if mutexFree state = true then
        some { state with threads := state.threads.set index .testing }
      else none
  | some .testing =>
      if state.ready = true then
        some { state with threads := state.threads.set index .printing }
      else some { state with threads := state.threads.set index .sleeping }
  | some .printing =>
      some
        { state with
          threads := state.threads.set index .done
          printed := state.printed ++ [index] }
  | some .sleeping | some .done | none => none

def wake : Phase → Phase
  | .sleeping => .locking
  | .locking => .locking
  | .testing => .testing
  | .printing => .printing
  | .done => .done

/-- What the call does to the threads. -/
def notified (threads : List Phase) (woken : ℕ) : Notify → Option (List Phase)
  | .notifyAll => some (threads.map wake)
  | .notifyOne =>
      if .sleeping ∈ threads then
        if threads[woken]? = some .sleeping then some (threads.set woken .locking) else none
      else some threads

def mainStep (call : Notify) (state : State) (woken : ℕ) : Option State :=
  match state.main with
  | .locking => if mutexFree state = true then some { state with main := .storing } else none
  | .storing => some { state with ready := true, main := .notifying }
  | .notifying =>
      (notified state.threads woken call).map fun threads =>
        { state with
          threads := threads
          main := .unlocking
          asleepAtGo := some (asleep state.threads) }
  | .unlocking => some { state with main := .joining }
  | .joining => none

def step (call : Notify) (state : State) : Action → Option State
  | .thread index => threadStep state index
  | .main woken => mainStep call state woken
  | .spuriousWakeup index =>
      if state.threads[index]? = some .sleeping then
        some { state with threads := state.threads.set index .locking }
      else none

def system (call : Notify) (count : ℕ) : TransitionSystem State Action :=
  ⟨initial count, step call⟩

def Action.isSpurious : Action → Bool
  | .thread _ | .main _ => false
  | .spuriousWakeup _ => true

variable {call : Notify} {count : ℕ} {state next : State}

/-! ## What a step does -/

inductive Moves (call : Notify) (state : State) : Action → State → Prop where
  | lock {index : ℕ} (hget : state.threads[index]? = some .locking) :
      Moves call state (.thread index)
        { state with threads := state.threads.set index .testing }
  | pass {index : ℕ} (hget : state.threads[index]? = some .testing) (hready : state.ready = true) :
      Moves call state (.thread index)
        { state with threads := state.threads.set index .printing }
  | sleep {index : ℕ} (hget : state.threads[index]? = some .testing)
      (hready : state.ready = false) :
      Moves call state (.thread index)
        { state with threads := state.threads.set index .sleeping }
  | print {index : ℕ} (hget : state.threads[index]? = some .printing) :
      Moves call state (.thread index)
        { state with
          threads := state.threads.set index .done
          printed := state.printed ++ [index] }
  | go {woken : ℕ} (hmain : state.main = .locking) :
      Moves call state (.main woken) { state with main := .storing }
  | store {woken : ℕ} (hmain : state.main = .storing) :
      Moves call state (.main woken) { state with ready := true, main := .notifying }
  | notify {woken : ℕ} {threads : List Phase} (hmain : state.main = .notifying)
      (hnotified : notified state.threads woken call = some threads) :
      Moves call state (.main woken)
        { state with
          threads := threads
          main := .unlocking
          asleepAtGo := some (asleep state.threads) }
  | unlock {woken : ℕ} (hmain : state.main = .unlocking) :
      Moves call state (.main woken) { state with main := .joining }
  | spuriousWakeup {index : ℕ} (hget : state.threads[index]? = some .sleeping) :
      Moves call state (.spuriousWakeup index)
        { state with threads := state.threads.set index .locking }

theorem moves_of_threadStep {index : ℕ} (hstep : threadStep state index = some next) :
    Moves call state (.thread index) next := by
  unfold threadStep at hstep
  cases hget : state.threads[index]? with
  | none =>
      rw [hget] at hstep
      cases hstep
  | some phase =>
      rw [hget] at hstep
      cases phase with
      | locking =>
          dsimp only at hstep
          split_ifs at hstep with hfree
          cases hstep
          exact .lock hget
      | testing =>
          dsimp only at hstep
          split_ifs at hstep with hready
          · cases hstep
            exact .pass hget hready
          · cases hstep
            exact .sleep hget (Bool.eq_false_iff.mpr hready)
      | sleeping => cases hstep
      | printing =>
          cases hstep
          exact .print hget
      | done => cases hstep

theorem moves_of_mainStep {woken : ℕ} (hstep : mainStep call state woken = some next) :
    Moves call state (.main woken) next := by
  unfold mainStep at hstep
  cases hmain : state.main with
  | locking =>
      rw [hmain] at hstep
      dsimp only at hstep
      split_ifs at hstep with hfree
      cases hstep
      exact .go hmain
  | storing =>
      rw [hmain] at hstep
      cases hstep
      exact .store hmain
  | notifying =>
      rw [hmain] at hstep
      obtain ⟨threads, hnotified, rfl⟩ := Option.map_eq_some_iff.mp hstep
      exact .notify hmain hnotified
  | unlocking =>
      rw [hmain] at hstep
      cases hstep
      exact .unlock hmain
  | joining =>
      rw [hmain] at hstep
      cases hstep

theorem moves_of_step {action : Action} (hstep : step call state action = some next) :
    Moves call state action next := by
  cases action with
  | thread index => exact moves_of_threadStep hstep
  | main woken => exact moves_of_mainStep hstep
  | spuriousWakeup index =>
      dsimp only [step] at hstep
      split_ifs at hstep with hget
      cases hstep
      exact .spuriousWakeup hget

/-! ## The invariant -/

def MainPhase.stored : MainPhase → Bool
  | .locking | .storing => false
  | .notifying | .unlocking | .joining => true

def MainPhase.called : MainPhase → Bool
  | .locking | .storing | .notifying => false
  | .unlocking | .joining => true

/-- Who sleeps after the call. -/
def LeftAsleep (slept : List ℕ) (threads : List Phase) : Notify → Prop
  | .notifyAll => asleep threads = []
  | .notifyOne =>
      slept = [] ∧ asleep threads = [] ∨
        ∃ woken ∈ slept, ∀ index, index ∈ asleep threads ↔ index ∈ slept ∧ index ≠ woken

structure Invariant (count : ℕ) (state : State) : Prop where
  length : state.threads.length = count
  ready : state.ready = state.main.stored
  called : state.asleepAtGo.isSome = state.main.called
  nodup : state.printed.Nodup
  printed : ∀ index, index ∈ state.printed ↔ state.threads[index]? = some .done

/-- Nobody falls asleep after the call. -/
def Exact (call : Notify) (state : State) : Prop :=
  ∀ slept ∈ state.asleepAtGo, LeftAsleep slept state.threads call

theorem initial_invariant : Invariant count (initial count) where
  length := List.length_replicate
  ready := rfl
  called := rfl
  nodup := List.nodup_nil
  printed := by
    intro index
    refine iff_of_false List.not_mem_nil fun hget => ?_
    cases List.eq_of_mem_replicate (List.mem_of_getElem? hget)

theorem mem_asleep {threads : List Phase} {index : ℕ} :
    index ∈ asleep threads ↔ threads[index]? = some .sleeping := by
  rw [asleep, List.mem_filter, List.mem_range, decide_eq_true_eq]
  exact and_iff_right_of_imp fun hget => (List.getElem?_eq_some_iff.mp hget).1

theorem asleep_congr {threads after : List Phase} (hlength : after.length = threads.length)
    (hsame : ∀ index : ℕ, after[index]? = some Phase.sleeping ↔
      threads[index]? = some Phase.sleeping) : asleep after = asleep threads := by
  rw [asleep, asleep, hlength]
  exact List.filter_congr fun index _ => decide_eq_decide.mpr (hsame index)

/-- A thread that moves neither from nor to a phase. -/
theorem phase_set_iff {threads : List Phase} {index : ℕ} {old changed phase : Phase}
    (hget : threads[index]? = some old) (hold : old ≠ phase) (hchanged : changed ≠ phase)
    (other : ℕ) :
    (threads.set index changed)[other]? = some phase ↔ threads[other]? = some phase := by
  by_cases heq : index = other
  · subst heq
    rw [ListUpdate.getElem?_set_self hget, hget, Option.some_inj, Option.some_inj]
    exact iff_of_false hchanged hold
  · rw [ListUpdate.getElem?_set_of_ne heq]

theorem Invariant.moved (hinv : Invariant count state) {index : ℕ} {old changed : Phase}
    (hget : state.threads[index]? = some old) (hold : old ≠ .done) (hchanged : changed ≠ .done) :
    Invariant count { state with threads := state.threads.set index changed } where
  length := List.length_set.trans hinv.length
  ready := hinv.ready
  called := hinv.called
  nodup := hinv.nodup
  printed := fun other =>
    (hinv.printed other).trans (phase_set_iff hget hold hchanged other).symm

theorem wake_eq_done_iff (phase : Phase) : wake phase = .done ↔ phase = .done := by
  cases phase <;> decide

/-- The call wakes threads, and does nothing else to them. -/
theorem notified_spec {threads after : List Phase} {woken : ℕ}
    (hnotified : notified threads woken call = some after) :
    after.length = threads.length ∧ LeftAsleep (asleep threads) after call ∧
      ∀ index : ℕ, after[index]? = some Phase.done ↔ threads[index]? = some Phase.done := by
  cases call with
  | notifyAll =>
      cases hnotified
      refine ⟨List.length_map _, ?_, ?_⟩
      · refine List.eq_nil_iff_forall_not_mem.mpr fun index hmem => ?_
        rw [mem_asleep, List.getElem?_map] at hmem
        obtain ⟨phase, -, hphase⟩ := Option.map_eq_some_iff.mp hmem
        cases phase <;> cases hphase
      · intro index
        rw [List.getElem?_map]
        cases threads[index]? with
        | none => exact Iff.rfl
        | some phase =>
            rw [Option.map_some, Option.some_inj, Option.some_inj]
            exact wake_eq_done_iff phase
  | notifyOne =>
      dsimp only [notified] at hnotified
      split_ifs at hnotified with hmem hget
      · cases hnotified
        refine ⟨List.length_set, Or.inr ⟨woken, mem_asleep.mpr hget, fun index => ?_⟩,
          phase_set_iff hget Phase.noConfusion Phase.noConfusion⟩
        rw [mem_asleep, mem_asleep]
        by_cases heq : woken = index
        · subst heq
          rw [ListUpdate.getElem?_set_self hget]
          exact iff_of_false (fun hsame => Phase.noConfusion (Option.some.inj hsame))
            fun hboth => hboth.2 rfl
        · rw [ListUpdate.getElem?_set_of_ne heq]
          exact (and_iff_left (Ne.symm heq)).symm
      · cases hnotified
        have hnone : asleep threads = [] := by
          refine List.eq_nil_iff_forall_not_mem.mpr fun index hasleep => ?_
          exact hmem (List.mem_of_getElem? (mem_asleep.mp hasleep))
        exact ⟨rfl, Or.inl ⟨hnone, hnone⟩, fun index => Iff.rfl⟩

theorem Invariant.step {action : Action} (hinv : Invariant count state)
    (hmoves : Moves call state action next) : Invariant count next := by
  cases hmoves with
  | lock hget => exact hinv.moved hget Phase.noConfusion Phase.noConfusion
  | pass hget hready => exact hinv.moved hget Phase.noConfusion Phase.noConfusion
  | sleep hget hready => exact hinv.moved hget Phase.noConfusion Phase.noConfusion
  | spuriousWakeup hget => exact hinv.moved hget Phase.noConfusion Phase.noConfusion
  | @print index hget =>
      have hnew : index ∉ state.printed := by
        rw [hinv.printed, hget]
        exact fun hsame => Phase.noConfusion (Option.some.inj hsame)
      refine ⟨List.length_set.trans hinv.length, hinv.ready, hinv.called, ?_, ?_⟩
      · refine List.Nodup.append hinv.nodup (List.nodup_singleton index) ?_
        exact List.disjoint_singleton.mpr hnew
      · intro other
        rw [List.mem_append, List.mem_singleton, hinv.printed]
        by_cases heq : index = other
        · subst heq
          exact iff_of_true (.inr rfl) (ListUpdate.getElem?_set_self hget _)
        · dsimp only
          rw [ListUpdate.getElem?_set_of_ne heq]
          exact or_iff_left (Ne.symm heq)
  | go hmain =>
      have hready := hinv.ready
      have hcalled := hinv.called
      rw [hmain] at hready hcalled
      exact ⟨hinv.length, hready, hcalled, hinv.nodup, hinv.printed⟩
  | store hmain =>
      have hcalled := hinv.called
      rw [hmain] at hcalled
      exact ⟨hinv.length, rfl, hcalled, hinv.nodup, hinv.printed⟩
  | notify hmain hnotified =>
      obtain ⟨hlength, -, hdone⟩ := notified_spec hnotified
      have hready := hinv.ready
      rw [hmain] at hready
      exact ⟨hlength.trans hinv.length, hready, rfl, hinv.nodup,
        fun index => (hinv.printed index).trans (hdone index).symm⟩
  | unlock hmain =>
      have hready := hinv.ready
      have hcalled := hinv.called
      rw [hmain] at hready hcalled
      exact ⟨hinv.length, hready, hcalled, hinv.nodup, hinv.printed⟩

/-- A thread that moves without going to sleep. -/
theorem asleep_set {threads : List Phase} {index : ℕ} {old changed : Phase}
    (hget : threads[index]? = some old) (hold : old ≠ .sleeping) (hchanged : changed ≠ .sleeping) :
    asleep (threads.set index changed) = asleep threads :=
  asleep_congr List.length_set (phase_set_iff hget hold hchanged)

theorem LeftAsleep.of_eq {slept : List ℕ} {threads after : List Phase}
    (hleft : LeftAsleep slept threads call) (hsame : asleep after = asleep threads) :
    LeftAsleep slept after call := by
  cases call with
  | notifyAll => exact hsame.trans hleft
  | notifyOne =>
      dsimp only [LeftAsleep]
      rw [hsame]
      exact hleft

theorem Exact.step {action : Action} (hexact : Exact call state) (hinv : Invariant count state)
    (hwakeup : call = .notifyAll ∨ action.isSpurious = false)
    (hmoves : Moves call state action next) : Exact call next := by
  intro slept hslept
  cases hmoves with
  | lock hget =>
      exact (hexact _ hslept).of_eq (asleep_set hget Phase.noConfusion Phase.noConfusion)
  | pass hget hready =>
      exact (hexact _ hslept).of_eq (asleep_set hget Phase.noConfusion Phase.noConfusion)
  | print hget =>
      exact (hexact _ hslept).of_eq (asleep_set hget Phase.noConfusion Phase.noConfusion)
  | sleep hget hready =>
      -- After the call the flag is set.
      have hcalled := hinv.called
      have hstored := hinv.ready
      rw [Option.isSome_iff_exists.mpr ⟨slept, hslept⟩] at hcalled
      rw [hready] at hstored
      cases hmain : state.main <;> rw [hmain] at hcalled hstored <;> contradiction
  | go hmain => exact hexact slept hslept
  | store hmain => exact hexact slept hslept
  | unlock hmain => exact hexact slept hslept
  | notify hmain hnotified =>
      cases hslept
      exact (notified_spec hnotified).2.1
  | spuriousWakeup hget =>
      rcases hwakeup with rfl | hwakeup
      · have hnone : asleep state.threads = [] := hexact slept hslept
        have hmem := mem_asleep.mpr hget
        rw [hnone] at hmem
        cases hmem
      · cases hwakeup

/-! ## The end -/

/-- Where neither a thread nor `main` can go on, `go` has returned, and the threads
sleep or are done. -/
theorem ended_of_stuck
    (hstuck : ∀ action, action.isSpurious = false → step call state action = none) :
    state.main = .joining ∧ ∀ phase ∈ state.threads, phase = .sleeping ∨ phase = .done := by
  have hthreads : noneHolds Phase.holdsMutex state.threads = true := by
    refine noneHolds_iff.mpr fun phase hmem => ?_
    obtain ⟨index, hget⟩ := List.mem_iff_getElem?.mp hmem
    have hnone := hstuck (.thread index) rfl
    rw [step, threadStep, hget] at hnone
    cases phase with
    | locking => rfl
    | testing =>
        dsimp only at hnone
        split_ifs at hnone
    | sleeping => rfl
    | printing => cases hnone
    | done => rfl
  have hjoining : state.main = .joining := by
    cases hmain : state.main with
    | locking =>
        have hnone := hstuck (.main 0) rfl
        rw [step, mainStep, mutexFree, hthreads, hmain] at hnone
        cases hnone
    | storing =>
        have hnone := hstuck (.main 0) rfl
        rw [step, mainStep, hmain] at hnone
        cases hnone
    | notifying =>
        have hnone (woken : ℕ) : notified state.threads woken call = none := by
          have hstep := hstuck (.main woken) rfl
          rw [step, mainStep, hmain] at hstep
          exact Option.map_eq_none_iff.mp hstep
        cases call with
        | notifyAll => cases hnone 0
        | notifyOne =>
            by_cases hmem : Phase.sleeping ∈ state.threads
            · obtain ⟨woken, hget⟩ := List.mem_iff_getElem?.mp hmem
              have hwoken := hnone woken
              rw [notified, if_pos hmem, if_pos hget] at hwoken
              cases hwoken
            · have hnobody := hnone 0
              rw [notified, if_neg hmem] at hnobody
              cases hnobody
    | unlocking =>
        have hnone := hstuck (.main 0) rfl
        rw [step, mainStep, hmain] at hnone
        cases hnone
    | joining => rfl
  refine ⟨hjoining, fun phase hmem => ?_⟩
  obtain ⟨index, hget⟩ := List.mem_iff_getElem?.mp hmem
  have hholds := not_holds_of_noneHolds hthreads hget
  have hnone := hstuck (.thread index) rfl
  rw [step, threadStep, mutexFree, hthreads, hjoining, hget] at hnone
  cases phase with
  | locking => cases hnone
  | testing => cases hholds
  | sleeping => exact .inl rfl
  | printing => cases hholds
  | done => exact .inr rfl

theorem reached_of_run {actions : List Action} {final : State}
    (hwakeups : call = .notifyAll ∨ ∀ action ∈ actions, action.isSpurious = false)
    (hrun : (system call count).run (initial count) actions = some final) :
    Invariant count final ∧ Exact call final := by
  have hmeets : (system call count).StepsMeet
      (fun _ action => call = .notifyAll ∨ action.isSpurious = false) (initial count) actions := by
    refine TransitionSystem.stepsMeet_of_forall_mem (fun action hmem => ?_) _
    rcases hwakeups with hall | hnone
    · exact .inl hall
    · exact .inr (hnone action hmem)
  refine TransitionSystem.run_preserves_of_stepsMeet
    (fun reached => Invariant count reached ∧ Exact call reached) ?_
    ⟨initial_invariant, fun slept hslept => by cases hslept⟩ hmeets hrun
  intro before action after hbefore hcondition hstep
  have hmoves := moves_of_step hstep
  exact ⟨hbefore.1.step hmoves, hbefore.2.step hbefore.1 hcondition hmoves⟩

/-- In `cv.cpp`, where no step is left, every thread has printed its number, once. -/
theorem printed_of_stuck {actions : List Action} {final : State}
    (hrun : (system .notifyAll count).run (initial count) actions = some final)
    (hstuck : ∀ action, action.isSpurious = false → step .notifyAll final action = none) :
    final.printed.Perm (List.range count) := by
  obtain ⟨hinv, hexact⟩ := reached_of_run (.inl rfl) hrun
  obtain ⟨hmain, hended⟩ := ended_of_stuck hstuck
  have hcalled := hinv.called
  rw [hmain] at hcalled
  obtain ⟨slept, hslept⟩ := Option.isSome_iff_exists.mp hcalled
  have hnobody : asleep final.threads = [] := hexact slept hslept
  refine (List.perm_ext_iff_of_nodup hinv.nodup List.nodup_range).mpr fun index => ?_
  rw [hinv.printed, List.mem_range, ← hinv.length]
  constructor
  · exact fun hget => (List.getElem?_eq_some_iff.mp hget).1
  · intro hlt
    have hget := List.getElem?_eq_getElem hlt
    rcases hended _ (List.getElem_mem hlt) with hsleeping | hdone
    · have hmem := mem_asleep.mpr (hget.trans (congrArg some hsleeping))
      rw [hnobody] at hmem
      cases hmem
    · rw [hget, hdone]

/-- One thread sleeps at the call, and one comes after it. -/
def bothPrint : List Action :=
  List.replicate 2 (.thread 0) ++ List.replicate 4 (.main 0) ++ List.replicate 3 (.thread 1) ++
    List.replicate 3 (.thread 0)

def afterBothPrint : State :=
  ((system .notifyAll 2).run (initial 2) bothPrint).getD (initial 2)

theorem printed_of_stuck_bothPrint :
    afterBothPrint.printed = [1, 0] ∧ afterBothPrint.printed.Perm (List.range 2) := by
  refine ⟨rfl, @printed_of_stuck 2 bothPrint afterBothPrint rfl ?_⟩
  intro action hordinary
  cases action with
  | main woken => rfl
  | spuriousWakeup index => cases hordinary
  | thread index => rcases index with _ | _ | index <;> rfl

/-- In `condiva.cpp`, where only a spurious wakeup could help, all threads but one of
those that slept at the call are asleep still, and the others have printed their
numbers. -/
theorem asleep_of_stuck {actions : List Action} {final : State}
    (hwakeups : ∀ action ∈ actions, action.isSpurious = false)
    (hrun : (system .notifyOne count).run (initial count) actions = some final)
    (hstuck : ∀ action, action.isSpurious = false → step .notifyOne final action = none) :
    ∃ slept, final.asleepAtGo = some slept ∧
      (slept = [] ∧ asleep final.threads = [] ∨ ∃ woken ∈ slept, ∀ index,
        index ∈ asleep final.threads ↔ index ∈ slept ∧ index ≠ woken) ∧
      final.printed.Nodup ∧ ∀ index < count,
        (index ∈ final.printed ↔ index ∉ asleep final.threads) := by
  obtain ⟨hinv, hexact⟩ := reached_of_run (.inr hwakeups) hrun
  obtain ⟨hmain, hended⟩ := ended_of_stuck hstuck
  have hcalled := hinv.called
  rw [hmain] at hcalled
  obtain ⟨slept, hslept⟩ := Option.isSome_iff_exists.mp hcalled
  refine ⟨slept, hslept, hexact slept hslept, hinv.nodup, fun index hlt => ?_⟩
  rw [← hinv.length] at hlt
  have hget := List.getElem?_eq_getElem hlt
  rw [hinv.printed, mem_asleep, hget]
  rcases hended _ (List.getElem_mem hlt) with hsleeping | hdone
  · rw [hsleeping]
    exact iff_of_false (fun hsame => Phase.noConfusion (Option.some.inj hsame))
      (fun hne => hne rfl)
  · rw [hdone]
    exact iff_of_true rfl fun hsame => Phase.noConfusion (Option.some.inj hsame)

/-- Two threads sleep at the call, and the first is left. -/
def oneLeft : List Action :=
  List.replicate 2 (.thread 0) ++ List.replicate 2 (.thread 1) ++ List.replicate 4 (.main 1) ++
    List.replicate 3 (.thread 2) ++ List.replicate 3 (.thread 1)

def afterOneLeft : State :=
  ((system .notifyOne 3).run (initial 3) oneLeft).getD (initial 3)

theorem asleep_of_stuck_oneLeft :
    afterOneLeft.asleepAtGo = some [0, 1] ∧ asleep afterOneLeft.threads = [0] ∧
      ∃ slept, afterOneLeft.asleepAtGo = some slept ∧
        (slept = [] ∧ asleep afterOneLeft.threads = [] ∨ ∃ woken ∈ slept, ∀ index,
          index ∈ asleep afterOneLeft.threads ↔ index ∈ slept ∧ index ≠ woken) ∧
        afterOneLeft.printed.Nodup ∧ ∀ index < 3,
          (index ∈ afterOneLeft.printed ↔ index ∉ asleep afterOneLeft.threads) := by
  refine ⟨rfl, rfl, @asleep_of_stuck 3 oneLeft afterOneLeft (by decide) rfl ?_⟩
  intro action hordinary
  cases action with
  | main woken => rfl
  | spuriousWakeup index => cases hordinary
  | thread index => rcases index with _ | _ | _ | index <;> rfl

end CppProj.RacingThreads
