import Mathlib.Data.List.Basic
import Mathlib.Tactic.Common

/-!
# Labelled transition systems with partial steps

A component is a state, an initial state and a partial step.  The action
resolves every choice of the environment (which thread moves, what the clock
reads, what a callee returns), so a run is a list of actions and a step is a
function.  `none` means that the action is not enabled.

Two rules carry the developments built on this module.  `Reachable.invariant`
takes a property preserved by each step to every reachable state, and
`run_iff_stepsMeet` turns a step-by-step equivalence into an equivalence about
whole runs.
-/

universe u v w

structure TransitionSystem (State : Type u) (Action : Type v) where
  initial : State
  step : State → Action → Option State

namespace TransitionSystem

variable {State : Type u} {Action : Type v}

/-- Execute the actions from left to right; a disabled action ends the run
without a result. -/
def run (system : TransitionSystem State Action) (state : State) :
    List Action → Option State
  | [] => some state
  | action :: rest =>
      match system.step state action with
      | some next => system.run next rest
      | none => none

/-- Every executed step of the run is taken in a state which meets the
condition. -/
def StepsMeet (system : TransitionSystem State Action)
    (condition : State → Action → Prop) (state : State) :
    List Action → Prop
  | [] => True
  | action :: rest =>
      condition state action ∧
        ∀ next, system.step state action = some next →
          system.StepsMeet condition next rest

instance decidableStepsMeet (system : TransitionSystem State Action)
    (condition : State → Action → Prop)
    [∀ state action, Decidable (condition state action)] (state : State) :
    ∀ actions, Decidable (system.StepsMeet condition state actions)
  | [] => isTrue trivial
  | action :: rest =>
      match hstep : system.step state action with
      | none =>
          decidable_of_iff (condition state action) (by simp [StepsMeet, hstep])
      | some next =>
          have : Decidable (system.StepsMeet condition next rest) :=
            decidableStepsMeet system condition next rest
          decidable_of_iff
            (condition state action ∧ system.StepsMeet condition next rest)
            (by simp [StepsMeet, hstep])

/-- The run passes through good states only, its first and last included. -/
def Always (system : TransitionSystem State Action) (Good : State → Prop) (state : State) :
    List Action → Prop
  | [] => Good state
  | action :: rest =>
      Good state ∧
        ∀ next, system.step state action = some next → system.Always Good next rest

def ReachableFrom (system : TransitionSystem State Action)
    (start state : State) : Prop :=
  ∃ actions, system.run start actions = some state

def Reachable (system : TransitionSystem State Action) (state : State) : Prop :=
  system.ReachableFrom system.initial state

/-- The states at the end of runs all of whose steps meet the condition. -/
def ReachableMeeting (system : TransitionSystem State Action)
    (condition : State → Action → Prop) (state : State) : Prop :=
  ∃ actions, system.run system.initial actions = some state ∧
    system.StepsMeet condition system.initial actions

variable {system : TransitionSystem State Action}

@[simp] theorem run_nil (state : State) : system.run state [] = some state := rfl

theorem run_cons_eq_some {state final : State} {action : Action}
    {rest : List Action} :
    system.run state (action :: rest) = some final ↔
      ∃ next, system.step state action = some next ∧
        system.run next rest = some final := by
  cases hstep : system.step state action with
  | none => simp [run, hstep]
  | some next => simp [run, hstep]

theorem run_append_eq_some {state final : State} {before after : List Action} :
    system.run state (before ++ after) = some final ↔
      ∃ middle, system.run state before = some middle ∧
        system.run middle after = some final := by
  induction before generalizing state with
  | nil => simp
  | cons action rest ih =>
      rw [List.cons_append, run_cons_eq_some]
      constructor
      · rintro ⟨next, hstep, hrest⟩
        obtain ⟨middle, hbefore, hafter⟩ := ih.mp hrest
        exact ⟨middle, run_cons_eq_some.mpr ⟨next, hstep, hbefore⟩, hafter⟩
      · rintro ⟨middle, hbefore, hafter⟩
        obtain ⟨next, hstep, hrest⟩ := run_cons_eq_some.mp hbefore
        exact ⟨next, hstep, ih.mpr ⟨middle, hrest, hafter⟩⟩

theorem run_append_singleton {state final : State} {before : List Action}
    {action : Action} :
    system.run state (before ++ [action]) = some final ↔
      ∃ middle, system.run state before = some middle ∧
        system.step middle action = some final := by
  rw [run_append_eq_some]
  simp [run_cons_eq_some]

theorem ReachableFrom.refl (state : State) : system.ReachableFrom state state :=
  ⟨[], rfl⟩

theorem ReachableFrom.tail {start state next : State} {action : Action}
    (hreach : system.ReachableFrom start state)
    (hstep : system.step state action = some next) :
    system.ReachableFrom start next := by
  obtain ⟨actions, hrun⟩ := hreach
  exact ⟨actions ++ [action], run_append_singleton.mpr ⟨state, hrun, hstep⟩⟩

theorem ReachableFrom.run {start state final : State} {actions : List Action}
    (hreach : system.ReachableFrom start state)
    (hrun : system.run state actions = some final) :
    system.ReachableFrom start final := by
  obtain ⟨before, hbefore⟩ := hreach
  exact ⟨before ++ actions, run_append_eq_some.mpr ⟨state, hbefore, hrun⟩⟩

theorem Reachable.initial : system.Reachable system.initial :=
  ReachableFrom.refl _

theorem ReachableMeeting.reachable {condition : State → Action → Prop}
    {state : State} (hreach : system.ReachableMeeting condition state) :
    system.Reachable state := by
  obtain ⟨actions, hrun, _⟩ := hreach
  exact ⟨actions, hrun⟩

/-! ## Invariants of runs -/

theorem run_preserves (Invariant : State → Prop)
    (hpreserved : ∀ state action next, Invariant state →
      system.step state action = some next → Invariant next)
    {actions : List Action} {state final : State}
    (hinv : Invariant state) (hrun : system.run state actions = some final) :
    Invariant final := by
  induction actions generalizing state with
  | nil =>
      simp only [run_nil, Option.some.injEq] at hrun
      exact hrun ▸ hinv
  | cons action rest ih =>
      obtain ⟨next, hstep, hrest⟩ := run_cons_eq_some.mp hrun
      exact ih (hpreserved state action next hinv hstep) hrest

/-- The same when only the steps which meet a condition preserve it. -/
theorem run_preserves_of_stepsMeet (Invariant : State → Prop)
    {condition : State → Action → Prop}
    (hpreserved : ∀ state action next, Invariant state →
      condition state action →
      system.step state action = some next → Invariant next)
    {actions : List Action} {state final : State}
    (hinv : Invariant state)
    (hmeet : system.StepsMeet condition state actions)
    (hrun : system.run state actions = some final) :
    Invariant final := by
  induction actions generalizing state with
  | nil =>
      simp only [run_nil, Option.some.injEq] at hrun
      exact hrun ▸ hinv
  | cons action rest ih =>
      obtain ⟨next, hstep, hrest⟩ := run_cons_eq_some.mp hrun
      obtain ⟨hcondition, htail⟩ := hmeet
      exact ih (hpreserved state action next hinv hcondition hstep)
        (htail next hstep) hrest

/-- A measure that every counted step decreases and no other step increases
bounds the number of counted steps. -/
theorem run_countP_le (Invariant : State → Prop) {condition : State → Action → Prop}
    (measure : State → ℕ) (counted : Action → Bool)
    (hpreserved : ∀ state action next, Invariant state → condition state action →
      system.step state action = some next →
        Invariant next ∧ measure next + (if counted action then 1 else 0) ≤ measure state)
    {actions : List Action} {state final : State} (hinv : Invariant state)
    (hmeet : system.StepsMeet condition state actions)
    (hrun : system.run state actions = some final) :
    measure final + actions.countP counted ≤ measure state := by
  induction actions generalizing state with
  | nil =>
      simp only [run_nil, Option.some.injEq] at hrun
      rw [hrun]
      exact Nat.le_refl _
  | cons action rest ih =>
      obtain ⟨next, hstep, hrest⟩ := run_cons_eq_some.mp hrun
      obtain ⟨hnext, hmeasure⟩ := hpreserved state action next hinv hmeet.1 hstep
      have hlater := ih hnext (hmeet.2 next hstep) hrest
      rw [List.countP_cons]
      omega

/-- A condition on the actions alone. -/
theorem stepsMeet_of_forall_mem {condition : Action → Prop} {actions : List Action}
    (hactions : ∀ action ∈ actions, condition action) (state : State) :
    system.StepsMeet (fun _ action => condition action) state actions := by
  induction actions generalizing state with
  | nil => trivial
  | cons action rest ih =>
      rw [List.forall_mem_cons] at hactions
      exact ⟨hactions.1, fun next _ => ih hactions.2 next⟩

theorem Reachable.invariant (Invariant : State → Prop)
    (hinitial : Invariant system.initial)
    (hpreserved : ∀ state action next, Invariant state →
      system.step state action = some next → Invariant next)
    {state : State} (hreach : system.Reachable state) : Invariant state := by
  obtain ⟨actions, hrun⟩ := hreach
  exact run_preserves Invariant hpreserved hinitial hrun

theorem ReachableMeeting.invariant (Invariant : State → Prop)
    {condition : State → Action → Prop}
    (hinitial : Invariant system.initial)
    (hpreserved : ∀ state action next, Invariant state →
      condition state action →
      system.step state action = some next → Invariant next)
    {state : State} (hreach : system.ReachableMeeting condition state) :
    Invariant state := by
  obtain ⟨actions, hrun, hmeet⟩ := hreach
  exact run_preserves_of_stepsMeet Invariant hpreserved hinitial hmeet hrun

/-! ## Exact conditions on runs -/

/-- If a good state stays good exactly through the steps which meet the
condition, and a bad state stays bad, then a run from a good state ends well
exactly when all its steps meet the condition.  `Invariant` carries the facts
about reached states that the two step lemmas need. -/
theorem run_iff_stepsMeet (Invariant Good : State → Prop)
    {condition : State → Action → Prop}
    (hpreserved : ∀ state action next, Invariant state →
      system.step state action = some next → Invariant next)
    (hgood : ∀ state action next, Invariant state → Good state →
      system.step state action = some next →
        (Good next ↔ condition state action))
    (hbad : ∀ state action next, Invariant state → ¬ Good state →
      system.step state action = some next → ¬ Good next)
    {actions : List Action} {state final : State}
    (hinv : Invariant state) (hstart : Good state)
    (hrun : system.run state actions = some final) :
    Good final ↔ system.StepsMeet condition state actions := by
  induction actions generalizing state with
  | nil =>
      simp only [run_nil, Option.some.injEq] at hrun
      subst hrun
      simp [StepsMeet, hstart]
  | cons action rest ih =>
      obtain ⟨next, hstep, hrest⟩ := run_cons_eq_some.mp hrun
      have hnext := hpreserved state action next hinv hstep
      by_cases hnextGood : Good next
      · have hcondition := (hgood state action next hinv hstart hstep).mp hnextGood
        rw [ih hnext hnextGood hrest]
        constructor
        · intro htail
          refine ⟨hcondition, ?_⟩
          intro other hother
          rw [hstep, Option.some.injEq] at hother
          exact hother ▸ htail
        · exact fun hmeet => hmeet.2 next hstep
      · have hfinalBad : Invariant final ∧ ¬ Good final := by
          refine run_preserves (fun s => Invariant s ∧ ¬ Good s)
            ?_ ⟨hnext, hnextGood⟩ hrest
          intro s a t hs hst
          exact ⟨hpreserved s a t hs.1 hst, hbad s a t hs.1 hs.2 hst⟩
        constructor
        · exact fun hfinal => (hfinalBad.2 hfinal).elim
        · intro hmeet
          exact (hnextGood
            ((hgood state action next hinv hstart hstep).mpr hmeet.1)).elim

theorem stepsMeet_congr (Invariant : State → Prop) {condition other : State → Action → Prop}
    (hpreserved : ∀ state action next, Invariant state →
      system.step state action = some next → Invariant next)
    (hequiv : ∀ state action next, Invariant state →
      system.step state action = some next → (condition state action ↔ other state action))
    {actions : List Action} {state final : State} (hinv : Invariant state)
    (hrun : system.run state actions = some final) :
    system.StepsMeet condition state actions ↔ system.StepsMeet other state actions := by
  induction actions generalizing state with
  | nil => exact Iff.rfl
  | cons action rest ih =>
      obtain ⟨next, hstep, hrest⟩ := run_cons_eq_some.mp hrun
      have htail := ih (hpreserved state action next hinv hstep) hrest
      have hall : ∀ meets : State → Prop,
          (∀ following, system.step state action = some following → meets following) ↔
            meets next := by
        intro meets
        constructor
        · exact fun h => h next hstep
        · intro h following hfollowing
          rw [hstep, Option.some.injEq] at hfollowing
          exact hfollowing ▸ h
      rw [StepsMeet, StepsMeet, hall, hall, hequiv state action next hinv hstep, htail]

theorem Always.head {Good : State → Prop} {state : State} {actions : List Action}
    (halways : system.Always Good state actions) : Good state := by
  cases actions with
  | nil => exact halways
  | cons action rest => exact halways.1

/-- If the steps which meet the condition keep the invariant and all others lead
to a bad state at once, then a run passes through good states only exactly
when all its steps meet the condition. -/
theorem always_iff_stepsMeet (Invariant Good : State → Prop)
    {condition : State → Action → Prop}
    (hgood : ∀ state, Invariant state → Good state)
    (hpreserved : ∀ state action next, Invariant state → condition state action →
      system.step state action = some next → Invariant next)
    (hviolated : ∀ state action next, Invariant state → ¬ condition state action →
      system.step state action = some next → ¬ Good next)
    {actions : List Action} {state final : State}
    (hinv : Invariant state) (hrun : system.run state actions = some final) :
    system.Always Good state actions ↔ system.StepsMeet condition state actions := by
  induction actions generalizing state with
  | nil => simp [Always, StepsMeet, hgood state hinv]
  | cons action rest ih =>
      obtain ⟨next, hstep, hrest⟩ := run_cons_eq_some.mp hrun
      have hnext : ∀ other, system.step state action = some other → other = next := by
        intro other hother
        rw [hstep, Option.some.injEq] at hother
        exact hother.symm
      by_cases hcondition : condition state action
      · have htail := ih (hpreserved state action next hinv hcondition hstep) hrest
        constructor
        · intro halways
          refine ⟨hcondition, ?_⟩
          intro other hother
          rw [hnext other hother]
          exact htail.mp (halways.2 next hstep)
        · intro hmeet
          refine ⟨hgood state hinv, ?_⟩
          intro other hother
          rw [hnext other hother]
          exact htail.mpr (hmeet.2 next hstep)
      · constructor
        · intro halways
          have hbad := hviolated state action next hinv hcondition hstep
          exact (hbad (halways.2 next hstep).head).elim
        · exact fun hmeet => (hcondition hmeet.1).elim

theorem stepsMeet_of_invariant (Invariant : State → Prop) {condition : State → Action → Prop}
    (hpreserved : ∀ state action next, Invariant state →
      system.step state action = some next → Invariant next)
    (hmeets : ∀ state action, Invariant state → condition state action)
    {actions : List Action} {state : State} (hinv : Invariant state) :
    system.StepsMeet condition state actions := by
  induction actions generalizing state with
  | nil => trivial
  | cons action rest ih =>
      refine ⟨hmeets state action hinv, ?_⟩
      intro next hstep
      exact ih (hpreserved state action next hinv hstep)

/-! ## Two systems in lockstep -/

/-- If related states enable the same actions and each leads to related states, then so do
whole runs. -/
theorem run_rel {Other : Type w} {other : TransitionSystem Other Action}
    (Related : State → Other → Prop)
    (hstep : ∀ state matching action, Related state matching →
      Option.Rel Related (system.step state action) (other.step matching action))
    (actions : List Action) {state : State} {matching : Other}
    (hrelated : Related state matching) :
    Option.Rel Related (system.run state actions) (other.run matching actions) := by
  induction actions generalizing state matching with
  | nil => exact .some hrelated
  | cons action rest ih =>
      have hnext := hstep state matching action hrelated
      rw [run, run]
      cases hone : system.step state action with
      | none =>
          cases htwo : other.step matching action with
          | none => exact .none
          | some after =>
              rw [hone, htwo] at hnext
              cases hnext
      | some next =>
          cases htwo : other.step matching action with
          | none =>
              rw [hone, htwo] at hnext
              cases hnext
          | some after =>
              rw [hone, htwo] at hnext
              cases hnext with
              | some hafter => exact ih hafter

end TransitionSystem
