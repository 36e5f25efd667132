import CppProj.MachineIntegers
import Mathlib.Algebra.Order.Group.Abs
import Mathlib.Algebra.Order.Group.Int
import Mathlib.Tactic.Common

/-!
# The Time classes of chapter 11

`mytime1.cpp` of `11_1` and `mytime3.cpp` of `11_3` keep hours and minutes in an
`int` each; division and remainder round toward zero.  A member function
returns `none` where one of its computations overflows.
-/

namespace CppProj.TimeClasses

open MachineIntegers

structure Time where
  hours : ℤ
  minutes : ℤ
  deriving DecidableEq

namespace Time

def addMin (time : Time) (m : ℤ) : Option Time := do
  let minutes ← int (time.minutes + m)
  let hours ← int (time.hours + minutes.tdiv 60)
  some { hours := hours, minutes := minutes.tmod 60 }

def reset (_ : Time) (h m : ℤ) : Time :=
  { hours := h, minutes := m }

/-- `operator+`. -/
def add (time t : Time) : Option Time := do
  let minutes ← int (time.minutes + t.minutes)
  let both ← int (time.hours + t.hours)
  let hours ← int (both + minutes.tdiv 60)
  some { hours := hours, minutes := minutes.tmod 60 }

/-- `operator-`, of `mytime3.cpp` only. -/
def sub (time t : Time) : Option Time := do
  let tot1 ← int (t.minutes + (← int (60 * t.hours)))
  let tot2 ← int (time.minutes + (← int (time.hours * 60)))
  let difference ← int (tot2 - tot1)
  some { hours := difference.tdiv 60, minutes := difference.tmod 60 }

/-- `AddHr` of `mytime1.cpp`. -/
def addHr1 (time : Time) (h : ℤ) : Option Time :=
  some { time with hours := h }

/-- `AddHr` of `mytime3.cpp`. -/
def addHr3 (time : Time) (h : ℤ) : Option Time := do
  let hours ← int (time.hours + h)
  some { time with hours := hours }

end Time

/-! ## Minutes in all -/

namespace Time

def total (time : Time) : ℤ := 60 * time.hours + time.minutes

/-- Less than an hour of minutes, and no sign against the other. -/
def Normal (time : Time) : Prop :=
  |time.minutes| < 60 ∧
    ((0 ≤ time.hours ∧ 0 ≤ time.minutes) ∨ (time.hours ≤ 0 ∧ time.minutes ≤ 0))

theorem total_of_tdiv_tmod (minutes : ℤ) :
    total { hours := minutes.tdiv 60, minutes := minutes.tmod 60 } = minutes :=
  Int.mul_tdiv_add_tmod minutes 60

theorem normal_of_tdiv_tmod (minutes : ℤ) :
    Normal { hours := minutes.tdiv 60, minutes := minutes.tmod 60 } := by
  constructor
  · exact abs_lt.mpr ⟨Int.lt_tmod_of_pos minutes (by omega),
      Int.tmod_lt_of_pos minutes (by omega)⟩
  · by_cases hsign : 0 ≤ minutes
    · exact Or.inl ⟨Int.tdiv_nonneg hsign (by omega), Int.tmod_nonneg 60 hsign⟩
    · have hpositive : 0 ≤ -minutes := by omega
      have hhours := Int.tdiv_nonneg hpositive (b := 60) (by omega)
      have hminutes := Int.tmod_nonneg 60 hpositive
      rw [Int.neg_tdiv] at hhours
      rw [Int.neg_tmod] at hminutes
      exact Or.inr ⟨Int.neg_nonneg.mp hhours, Int.neg_nonneg.mp hminutes⟩

/-- A number of minutes has one normal form. -/
theorem Normal.eq_of_total_eq {time t : Time} (hnormal : time.Normal) (ht : t.Normal)
    (htotal : time.total = t.total) : time = t := by
  obtain ⟨hours, minutes⟩ := time
  obtain ⟨h, m⟩ := t
  obtain ⟨hbound, hsigns⟩ := hnormal
  obtain ⟨hbound', hsigns'⟩ := ht
  simp only [abs_lt] at hbound hbound' hsigns hsigns'
  simp only [total] at htotal
  have hhours : hours = h := by omega
  have hminutes : minutes = m := by omega
  rw [hhours, hminutes]

/-! ## Results without overflow -/

/-- The computations of `operator+` stay within `int`. -/
def AddFits (time t : Time) : Prop :=
  FitsInt (time.minutes + t.minutes) ∧ FitsInt (time.hours + t.hours) ∧
    FitsInt (time.hours + t.hours + (time.minutes + t.minutes).tdiv 60)

/-- The computations of `operator-`: both times and their difference in minutes. -/
def SubFits (time t : Time) : Prop :=
  FitsInt (60 * t.hours) ∧ FitsInt t.total ∧ FitsInt (60 * time.hours) ∧
    FitsInt time.total ∧ FitsInt (time.total - t.total)

def AddMinFits (time : Time) (m : ℤ) : Prop :=
  FitsInt (time.minutes + m) ∧ FitsInt (time.hours + (time.minutes + m).tdiv 60)

def AddHrFits (time : Time) (h : ℤ) : Prop := FitsInt (time.hours + h)

instance (time t : Time) : Decidable (time.AddFits t) := inferInstanceAs (Decidable (_ ∧ _))

instance (time t : Time) : Decidable (time.SubFits t) := inferInstanceAs (Decidable (_ ∧ _))

instance (time : Time) (m : ℤ) : Decidable (time.AddMinFits m) :=
  inferInstanceAs (Decidable (_ ∧ _))

instance (time : Time) (h : ℤ) : Decidable (time.AddHrFits h) :=
  inferInstanceAs (Decidable (FitsInt _))

instance (time : Time) : Decidable time.Normal := inferInstanceAs (Decidable (_ ∧ _))

/-- The sum over the integers. -/
def plus (time t : Time) : Time where
  hours := time.hours + t.hours + (time.minutes + t.minutes).tdiv 60
  minutes := (time.minutes + t.minutes).tmod 60

/-- The difference over the integers. -/
def minus (time t : Time) : Time where
  hours := (time.total - t.total).tdiv 60
  minutes := (time.total - t.total).tmod 60

theorem plus_total (time t : Time) : (time.plus t).total = time.total + t.total := by
  have hsum := Int.mul_tdiv_add_tmod (time.minutes + t.minutes) 60
  simp only [plus, total]
  omega

theorem minus_total (time t : Time) : (time.minus t).total = time.total - t.total :=
  total_of_tdiv_tmod _

theorem minus_normal (time t : Time) : (time.minus t).Normal :=
  normal_of_tdiv_tmod _

theorem minus_of_plus {time t : Time} (hnormal : time.Normal) :
    (time.plus t).minus t = time := by
  refine (minus_normal _ _).eq_of_total_eq hnormal ?_
  rw [minus_total, plus_total]
  omega

theorem add_eq_some_iff {time t result : Time} :
    time.add t = some result ↔ time.AddFits t ∧ time.plus t = result := by
  simp only [add, Option.bind_eq_bind, Option.bind_eq_some_iff, int_eq_some_iff,
    Option.some.injEq]
  constructor
  · rintro ⟨minutes, ⟨hminutes, rfl⟩, both, ⟨hboth, rfl⟩, hours, ⟨hhours, rfl⟩, rfl⟩
    exact ⟨⟨hminutes, hboth, hhours⟩, rfl⟩
  · rintro ⟨⟨hminutes, hboth, hhours⟩, rfl⟩
    exact ⟨_, ⟨hminutes, rfl⟩, _, ⟨hboth, rfl⟩, _, ⟨hhours, rfl⟩, rfl⟩

theorem sub_eq_some_iff {time t result : Time} :
    time.sub t = some result ↔ time.SubFits t ∧ time.minus t = result := by
  have htime : time.minutes + time.hours * 60 = time.total := by
    rw [total, Int.mul_comm, Int.add_comm]
  have ht : t.minutes + 60 * t.hours = t.total := Int.add_comm _ _
  simp only [sub, Option.bind_eq_bind, Option.bind_eq_some_iff, int_eq_some_iff,
    Option.some.injEq]
  constructor
  · rintro ⟨_, ⟨h, rfl⟩, tot1, ⟨htot1, rfl⟩, _, ⟨hours, rfl⟩, tot2, ⟨htot2, rfl⟩,
      difference, ⟨hdifference, rfl⟩, rfl⟩
    rw [ht] at htot1
    rw [htime] at htot2
    rw [Int.mul_comm] at hours
    rw [ht, htime] at hdifference
    exact ⟨⟨h, htot1, hours, htot2, hdifference⟩, by rw [ht, htime, minus]⟩
  · rintro ⟨⟨h, htot1, hours, htot2, hdifference⟩, rfl⟩
    rw [Int.mul_comm] at hours
    refine ⟨_, ⟨h, rfl⟩, t.total, ⟨by rwa [ht], ht⟩, _, ⟨hours, rfl⟩, time.total,
      ⟨by rwa [htime], htime⟩, _, ⟨hdifference, rfl⟩, rfl⟩

theorem addMin_eq_some_iff {time result : Time} {m : ℤ} :
    time.addMin m = some result ↔
      time.AddMinFits m ∧ time.plus { hours := 0, minutes := m } = result := by
  simp only [addMin, Option.bind_eq_bind, Option.bind_eq_some_iff, int_eq_some_iff,
    Option.some.injEq, plus, Int.add_zero]
  constructor
  · rintro ⟨minutes, ⟨hminutes, rfl⟩, hours, ⟨hhours, rfl⟩, rfl⟩
    exact ⟨⟨hminutes, hhours⟩, rfl⟩
  · rintro ⟨⟨hminutes, hhours⟩, rfl⟩
    exact ⟨_, ⟨hminutes, rfl⟩, _, ⟨hhours, rfl⟩, rfl⟩

theorem addHr3_eq_some_iff {time result : Time} {h : ℤ} :
    time.addHr3 h = some result ↔
      time.AddHrFits h ∧ { time with hours := time.hours + h } = result := by
  simp only [addHr3, Option.bind_eq_bind, Option.bind_eq_some_iff, int_eq_some_iff,
    Option.some.injEq]
  constructor
  · rintro ⟨hours, ⟨hhours, rfl⟩, rfl⟩
    exact ⟨hhours, rfl⟩
  · rintro ⟨hhours, rfl⟩
    exact ⟨_, ⟨hhours, rfl⟩, rfl⟩

example : sub { hours := 1, minutes := 10 } { hours := 2, minutes := 0 } =
    some { hours := 0, minutes := -50 } := by
  decide

end Time

/-- The operators of `mytime3.cpp` on two times and two amounts have a result wherever
their computations stay within `int`, and it is that of minutes. -/
structure MinuteArithmetic (a b : Time) (m h : ℤ) : Prop where
  sum : a.AddFits b → ∃ result, a.add b = some result ∧ result.total = a.total + b.total
  difference : a.SubFits b →
    ∃ result, a.sub b = some result ∧ result.total = a.total - b.total ∧ result.Normal
  addedMinutes : a.AddMinFits m →
    ∃ result, a.addMin m = some result ∧ result.total = a.total + m
  addedHours : a.AddHrFits h →
    ∃ result, a.addHr3 h = some result ∧ result.total = a.total + 60 * h
  cancel : a.Normal → a.AddFits b → (a.plus b).SubFits b →
    ∃ sum, a.add b = some sum ∧ sum.sub b = some a
  /-- Elsewhere an operator overflows. -/
  overflows :
    (¬ a.AddFits b → a.add b = none) ∧ (¬ a.SubFits b → a.sub b = none) ∧
      (¬ a.AddMinFits m → a.addMin m = none) ∧ (¬ a.AddHrFits h → a.addHr3 h = none)

theorem minuteArithmetic (a b : Time) (m h : ℤ) : MinuteArithmetic a b m h where
  sum hfits := ⟨a.plus b, Time.add_eq_some_iff.mpr ⟨hfits, rfl⟩, a.plus_total b⟩
  difference hfits :=
    ⟨a.minus b, Time.sub_eq_some_iff.mpr ⟨hfits, rfl⟩, a.minus_total b, a.minus_normal b⟩
  addedMinutes hfits := by
    refine ⟨_, Time.addMin_eq_some_iff.mpr ⟨hfits, rfl⟩, ?_⟩
    rw [Time.plus_total]
    simp only [Time.total]
    omega
  addedHours hfits := by
    refine ⟨_, Time.addHr3_eq_some_iff.mpr ⟨hfits, rfl⟩, ?_⟩
    simp only [Time.total]
    omega
  cancel hnormal hfits hback :=
    ⟨a.plus b, Time.add_eq_some_iff.mpr ⟨hfits, rfl⟩,
      Time.sub_eq_some_iff.mpr ⟨hback, Time.minus_of_plus hnormal⟩⟩
  overflows := by
    refine ⟨fun hfits => ?_, fun hfits => ?_, fun hfits => ?_, fun hfits => ?_⟩
    · exact Option.eq_none_iff_forall_ne_some.mpr fun _ hsome =>
        hfits (Time.add_eq_some_iff.mp hsome).1
    · exact Option.eq_none_iff_forall_ne_some.mpr fun _ hsome =>
        hfits (Time.sub_eq_some_iff.mp hsome).1
    · exact Option.eq_none_iff_forall_ne_some.mpr fun _ hsome =>
        hfits (Time.addMin_eq_some_iff.mp hsome).1
    · exact Option.eq_none_iff_forall_ne_some.mpr fun _ hsome =>
        hfits (Time.addHr3_eq_some_iff.mp hsome).1

/-- Minus 1:50 and 2:30, of which the first is in normal form, with minus 200 minutes and
three hours. -/
theorem minuteArithmetic_mixedSigns :
    let a : Time := { hours := -1, minutes := -50 }
    let b : Time := { hours := 2, minutes := 30 }
    (∃ result, a.add b = some result ∧ result.total = a.total + b.total) ∧
      (∃ result, a.sub b = some result ∧ result.total = a.total - b.total ∧ result.Normal) ∧
      (∃ result, a.addMin (-200) = some result ∧ result.total = a.total + -200) ∧
      (∃ result, a.addHr3 3 = some result ∧ result.total = a.total + 60 * 3) ∧
      ∃ sum, a.add b = some sum ∧ sum.sub b = some a := by
  intro a b
  have harithmetic := minuteArithmetic a b (-200) 3
  exact ⟨harithmetic.sum (by decide), harithmetic.difference (by decide),
    harithmetic.addedMinutes (by decide), harithmetic.addedHours (by decide),
    harithmetic.cancel (by decide) (by decide) (by decide)⟩

end CppProj.TimeClasses
