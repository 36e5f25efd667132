import CppProj.ListUpdate
import CppProj.TimeClasses
import CppProj.TransitionSystem

/-!
# The two Time classes side by side

The same operations are applied to the objects of a program compiled with
`mytime1.cpp` and of one compiled with `mytime3.cpp`.
-/

namespace CppProj.TimeClassesAgreement

open CppProj.TimeClasses MachineIntegers

/-- The member functions the two classes have in common. -/
structure TimeClass where
  addMin : Time → ℤ → Option Time
  addHr : Time → ℤ → Option Time
  reset : Time → ℤ → ℤ → Time
  add : Time → Time → Option Time

def mytime1 : TimeClass :=
  { addMin := Time.addMin, addHr := Time.addHr1, reset := Time.reset, add := Time.add }

def mytime3 : TimeClass :=
  { addMin := Time.addMin, addHr := Time.addHr3, reset := Time.reset, add := Time.add }

inductive Operation where
  | reset (object : ℕ) (h m : ℤ)
  | addMin (object : ℕ) (m : ℤ)
  | addHr (object : ℕ) (h : ℤ)
  | add (object t : ℕ)
  deriving DecidableEq

/-- The objects after an operation; a sum is a new object. -/
def TimeClass.perform (timeClass : TimeClass) (objects : List Time) :
    Operation → Option (List Time)
  | .reset object h m => do
      let time ← objects[object]?
      some (objects.set object (timeClass.reset time h m))
  | .addMin object m => do
      let time ← objects[object]?
      let result ← timeClass.addMin time m
      some (objects.set object result)
  | .addHr object h => do
      let time ← objects[object]?
      let result ← timeClass.addHr time h
      some (objects.set object result)
  | .add object t => do
      let time ← objects[object]?
      let other ← objects[t]?
      let sum ← timeClass.add time other
      some (objects ++ [sum])

/-- Both programs, from the same objects. -/
def bothClasses (objects : List Time) :
    TransitionSystem (List Time × List Time) Operation where
  initial := (objects, objects)
  step state operation := do
    let first ← mytime1.perform state.1 operation
    let third ← mytime3.perform state.2 operation
    some (first, third)

def Agree (state : List Time × List Time) : Prop := state.1 = state.2

instance decidableAgree (state : List Time × List Time) : Decidable (Agree state) :=
  inferInstanceAs (Decidable (_ = _))

/-- Hours are added to an object only while it has none. -/
def AddsHoursToNone (state : List Time × List Time) : Operation → Prop
  | .addHr object _ => ∀ time ∈ state.1[object]?, time.hours = 0
  | _ => True

instance decidableAddsHoursToNone (state : List Time × List Time) :
    ∀ operation, Decidable (AddsHoursToNone state operation)
  | .addHr object _ => inferInstanceAs (Decidable (∀ time ∈ state.1[object]?, time.hours = 0))
  | .reset _ _ _ => isTrue trivial
  | .addMin _ _ => isTrue trivial
  | .add _ _ => isTrue trivial

theorem bothClasses_step {objects : List Time} {state next : List Time × List Time}
    {operation : Operation} :
    (bothClasses objects).step state operation = some next ↔
      mytime1.perform state.1 operation = some next.1 ∧
        mytime3.perform state.2 operation = some next.2 := by
  obtain ⟨first, third⟩ := next
  simp [bothClasses, Option.bind_eq_some_iff]

theorem perform_addHr {timeClass : TimeClass} {objects after : List Time} {object : ℕ} {h : ℤ} :
    timeClass.perform objects (.addHr object h) = some after ↔
      ∃ time result, objects[object]? = some time ∧ timeClass.addHr time h = some result ∧
        objects.set object result = after := by
  simp [TimeClass.perform, Option.bind_eq_some_iff]

/-- The classes share every function but `AddHr`. -/
theorem perform_eq_of_not_addHr (objects : List Time) {operation : Operation}
    (hother : ∀ object h, operation ≠ .addHr object h) :
    mytime1.perform objects operation = mytime3.perform objects operation := by
  cases operation with
  | reset object h m => rfl
  | addMin object m => rfl
  | addHr object h => exact absurd rfl (hother object h)
  | add object t => rfl

/-- Both versions of `AddHr` give the same hours exactly to a time that has none. -/
theorem addHr_eq_iff {time first third : Time} {h : ℤ} (hfirst : time.addHr1 h = some first)
    (hthird : time.addHr3 h = some third) : first = third ↔ time.hours = 0 := by
  simp only [Time.addHr1, Option.some.injEq] at hfirst
  simp only [Time.addHr3, Option.bind_eq_bind, Option.bind_eq_some_iff, int_eq_some_iff,
    Option.some.injEq] at hthird
  obtain ⟨_, ⟨_, rfl⟩, rfl⟩ := hthird
  subst hfirst
  simp only [Time.mk.injEq, and_true]
  omega

theorem step_agree_iff {objects : List Time} {state next : List Time × List Time}
    {operation : Operation} (hagree : Agree state)
    (hstep : (bothClasses objects).step state operation = some next) :
    Agree next ↔ AddsHoursToNone state operation := by
  obtain ⟨hfirst, hthird⟩ := bothClasses_step.mp hstep
  rw [← hagree] at hthird
  by_cases hother : ∀ object h, operation ≠ .addHr object h
  · have hmet : AddsHoursToNone state operation := by
      cases operation with
      | addHr object h => exact absurd rfl (hother object h)
      | _ => trivial
    rw [perform_eq_of_not_addHr state.1 hother, hthird, Option.some.injEq] at hfirst
    exact iff_of_true hfirst.symm hmet
  · push Not at hother
    obtain ⟨object, h, rfl⟩ := hother
    obtain ⟨time, first, htime, haddFirst, hfirst⟩ := perform_addHr.mp hfirst
    obtain ⟨same, third, hsame, haddThird, hthird⟩ := perform_addHr.mp hthird
    obtain rfl : time = same := Option.some.inj (htime.symm.trans hsame)
    have hlt := (List.getElem?_eq_some_iff.mp htime).1
    have hresults : Agree next ↔ first = third := by
      rw [Agree, ← hfirst, ← hthird]
      constructor
      · intro hlists
        have hslot := congrArg (fun times => times[object]?) hlists
        simpa [hlt] using hslot
      · exact fun hequal => hequal ▸ rfl
    have hmet : AddsHoursToNone state (.addHr object h) ↔ time.hours = 0 := by
      simp [AddsHoursToNone, htime]
    rw [hresults, hmet]
    exact addHr_eq_iff haddFirst haddThird

/-- The classes agree throughout exactly the runs that never add hours to hours. -/
theorem classes_agree_iff {objects : List Time} {operations : List Operation}
    {final : List Time × List Time}
    (hrun : (bothClasses objects).run (objects, objects) operations = some final) :
    (bothClasses objects).Always Agree (objects, objects) operations ↔
      (bothClasses objects).StepsMeet AddsHoursToNone (objects, objects) operations := by
  refine TransitionSystem.always_iff_stepsMeet Agree Agree ?_ ?_ ?_ rfl hrun
  · exact fun state hagree => hagree
  · intro state operation next hagree hmet hstep
    exact (step_agree_iff hagree hstep).mpr hmet
  · intro state operation next hagree hnot hstep
    exact fun hnext => hnot ((step_agree_iff hagree hstep).mp hnext)

theorem classes_agree_sum :
    (bothClasses [⟨0, 40⟩, ⟨0, 35⟩]).Always Agree ([⟨0, 40⟩, ⟨0, 35⟩], [⟨0, 40⟩, ⟨0, 35⟩])
      [.addHr 0 2, .add 0 1] := by
  have hrun : (bothClasses [⟨0, 40⟩, ⟨0, 35⟩]).run ([⟨0, 40⟩, ⟨0, 35⟩], [⟨0, 40⟩, ⟨0, 35⟩])
      [.addHr 0 2, .add 0 1] =
        some ([⟨2, 40⟩, ⟨0, 35⟩, ⟨3, 15⟩], [⟨2, 40⟩, ⟨0, 35⟩, ⟨3, 15⟩]) := by
    decide
  exact (classes_agree_iff hrun).mpr (by decide)

/-- Adding an hour to one hour gives one hour in `mytime1.cpp` and two in `mytime3.cpp`. -/
theorem not_agree_one_hour :
    (bothClasses [⟨1, 0⟩]).run ([⟨1, 0⟩], [⟨1, 0⟩]) [.addHr 0 1] =
        some ([⟨1, 0⟩], [⟨2, 0⟩]) ∧
      ¬ Agree ([⟨1, 0⟩], [⟨2, 0⟩]) := by
  decide

end CppProj.TimeClassesAgreement
