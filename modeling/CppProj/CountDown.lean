import CppProj.MachineIntegers
import Mathlib.Data.Nat.Find
import Mathlib.Order.BooleanAlgebra.Basic
import Mathlib.Order.Monotone.Defs

/-!
# The count-down `test` of `twomodestimer.cpp`

The loop counts down while `slp_stop` is false, and an iteration that reads it
as true stores the count of one part in ten again.  The waits of an iteration
are left out.
-/

namespace CppProj.CountDown

open MachineIntegers

def intervals (ktime factor : ℤ) : Option ℤ := do
  let seconds ← int (ktime * factor)
  let milliseconds ← int (seconds * 1000)
  some (milliseconds.tdiv 100)

/-- An iteration of the loop, with what it reads from `slp_stop`. -/
def iteration (ktime count : ℤ) (slpStop : Bool) : Option ℤ :=
  if slpStop then intervals ktime 1 else int (count - 1)

/-- The count after so many iterations; it stays where the loop has ended. -/
def test (ktime : ℤ) (slpStop : ℕ → Bool) : ℕ → Option ℤ
  | 0 => intervals ktime 10
  | n + 1 => do
      let count ← test ktime slpStop n
      if count = 0 then some 0 else iteration ktime count (slpStop n)

/-- The loop ends, and no computation on the way overflows. -/
def Terminates (ktime : ℤ) (slpStop : ℕ → Bool) : Prop :=
  ∃ n, test ktime slpStop n = some 0

theorem intervals_eq {ktime factor : ℤ} (hktime : 0 ≤ ktime * factor) :
    intervals ktime factor =
      if FitsInt (ktime * factor * 1000) then some (ktime * factor * 10) else none := by
  have hdivide : (ktime * factor * 1000).tdiv 100 = ktime * factor * 10 := by
    rw [Int.tdiv_eq_ediv_of_nonneg (by omega)]
    omega
  by_cases hfits : FitsInt (ktime * factor * 1000)
  · have hseconds : FitsInt (ktime * factor) := by
      rw [FitsInt] at hfits ⊢
      omega
    rw [intervals, int_of_fits hseconds, Option.bind_eq_bind, Option.bind_some, int_of_fits hfits,
      Option.bind_some, hdivide, if_pos hfits]
  · have hoverflow : int (ktime * factor * 1000) = none := int_eq_none_iff.mpr hfits
    rw [if_neg hfits, intervals]
    cases hseconds : int (ktime * factor) with
    | none => rfl
    | some seconds =>
        obtain ⟨_, rfl⟩ := int_eq_some_iff.mp hseconds
        rw [Option.bind_eq_bind, Option.bind_some, hoverflow]
        rfl

theorem intervals_ten {ktime : ℤ} (hktime : 0 ≤ ktime) (hfits : FitsInt (ktime * 10 * 1000)) :
    intervals ktime 10 = some (100 * ktime) := by
  rw [intervals_eq (by omega), if_pos hfits, Option.some.injEq]
  omega

theorem intervals_one {ktime : ℤ} (hktime : 0 ≤ ktime) (hfits : FitsInt (ktime * 10 * 1000)) :
    intervals ktime 1 = some (10 * ktime) := by
  have hsmaller : FitsInt (ktime * 1 * 1000) := by
    rw [FitsInt] at hfits ⊢
    omega
  rw [intervals_eq (by omega), if_pos hsmaller, Option.some.injEq]
  omega

section Runs

variable {ktime : ℤ} {slpStop : ℕ → Bool}

theorem test_succ {n : ℕ} {count : ℤ} (htest : test ktime slpStop n = some count)
    (hcount : count ≠ 0) : test ktime slpStop (n + 1) = iteration ktime count (slpStop n) := by
  rw [test, htest, Option.bind_eq_bind, Option.bind_some, if_neg hcount]

theorem test_eq_none (hoverflow : intervals ktime 10 = none) (n : ℕ) :
    test ktime slpStop n = none := by
  induction n with
  | zero => exact hoverflow
  | succ n ih =>
      rw [test, ih]
      rfl

theorem test_counting (hktime : 0 ≤ ktime) (hfits : FitsInt (ktime * 10 * 1000)) {n : ℕ}
    (hwithin : (n : ℤ) ≤ 100 * ktime) (hrunning : ∀ m < n, slpStop m = false) :
    test ktime slpStop n = some (100 * ktime - n) := by
  induction n with
  | zero =>
      rw [test, intervals_ten hktime hfits, Nat.cast_zero, Int.sub_zero]
  | succ n ih =>
      have hbefore := ih (by omega) (fun m hm => hrunning m (Nat.lt_succ_of_lt hm))
      have hint : FitsInt (100 * ktime - n - 1) := by
        rw [FitsInt] at hfits ⊢
        omega
      rw [test_succ hbefore (by omega), hrunning n (Nat.lt_succ_self n), iteration,
        if_neg Bool.false_ne_true, int_of_fits hint, Option.some.injEq]
      omega

theorem test_stopped (hktime : 1 ≤ ktime) (hfits : FitsInt (ktime * 10 * 1000)) {first n : ℕ}
    (hfirst : (first : ℤ) < 100 * ktime) (hbefore : ∀ m < first, slpStop m = false)
    (hafter : ∀ m, first ≤ m → slpStop m = true) (hlater : first < n) :
    test ktime slpStop n = some (10 * ktime) := by
  have hreload : intervals ktime 1 = some (10 * ktime) := intervals_one (by omega) hfits
  induction n with
  | zero => omega
  | succ n ih =>
      have hstop := hafter n (by omega)
      by_cases hnow : first = n
      · subst hnow
        have hcounting := test_counting (by omega) hfits hfirst.le hbefore
        rw [test_succ hcounting (by omega), iteration, if_pos hstop, hreload]
      · rw [test_succ (ih (by omega)) (by omega), iteration, if_pos hstop, hreload]

theorem not_terminates_of_stop (hktime : 1 ≤ ktime) (hfits : FitsInt (ktime * 10 * 1000))
    (honce : Monotone slpStop) {stop : ℕ} (hwithin : (stop : ℤ) < 100 * ktime)
    (hstop : slpStop stop = true) : ¬ Terminates ktime slpStop := by
  have hset : ∃ n, slpStop n = true := ⟨stop, hstop⟩
  have hfirst : Nat.find hset ≤ stop := Nat.find_min' hset hstop
  have hbefore : ∀ m < Nat.find hset, slpStop m = false :=
    fun m hm => Bool.not_eq_true _ ▸ Nat.find_min hset hm
  have hafter : ∀ m, Nat.find hset ≤ m → slpStop m = true :=
    fun m hm => Bool.eq_true_of_true_le (Nat.find_spec hset ▸ honce hm)
  rintro ⟨last, hended⟩
  by_cases hlater : Nat.find hset < last
  · rw [test_stopped hktime hfits (by omega) hbefore hafter hlater, Option.some.injEq] at hended
    omega
  · have hcounting : test ktime slpStop last = some (100 * ktime - last) :=
      test_counting (by omega) hfits (by omega) (fun m hm => hbefore m (by omega))
    rw [hcounting, Option.some.injEq] at hended
    omega

/-- The loop ends exactly when the flag stays false for the whole count-down and the count
can be computed. -/
theorem terminates_iff (ktime : ℤ) (slpStop : ℕ → Bool) (hktime : 1 ≤ ktime)
    (honce : Monotone slpStop) :
    Terminates ktime slpStop ↔
      FitsInt (ktime * 10 * 1000) ∧ ∀ n : ℕ, (n : ℤ) < 100 * ktime → slpStop n = false := by
  by_cases hfits : FitsInt (ktime * 10 * 1000)
  · rw [and_iff_right hfits]
    constructor
    · intro hends n hwithin
      by_contra hstop
      exact not_terminates_of_stop hktime hfits honce hwithin (Bool.not_eq_false _ ▸ hstop) hends
    · intro hrunning
      refine ⟨(100 * ktime).toNat, ?_⟩
      have hcast : ((100 * ktime).toNat : ℤ) = 100 * ktime := Int.toNat_of_nonneg (by omega)
      rw [test_counting (by omega) hfits hcast.le (fun m hm => hrunning m (by omega)), hcast,
        Int.sub_self]
  · have hoverflow : intervals ktime 10 = none := by
      rw [intervals_eq (by omega), if_neg hfits]
    refine iff_of_false ?_ (fun h => hfits h.1)
    rintro ⟨last, hended⟩
    rw [test_eq_none hoverflow] at hended
    cases hended

end Runs

theorem monotone_setFrom (first : ℕ) : Monotone fun n : ℕ => decide (first ≤ n) := by
  intro earlier later hle
  rw [Bool.le_iff_imp]
  simp only [decide_eq_true_iff]
  exact fun h => h.trans hle

/-- `main` with a flag that is set after the count-down. -/
theorem terminates_setLate : Terminates 1 fun n => decide (100 ≤ n) := by
  refine (terminates_iff 1 _ (by decide) (monotone_setFrom 100)).mpr ⟨by decide, ?_⟩
  intro n hlt
  rw [decide_eq_false_iff_not]
  omega

/-- `main` with a flag that is set before the last iteration. -/
theorem not_terminates_setEarly :
    Monotone (fun n : ℕ => decide (99 ≤ n)) ∧ ¬ Terminates 1 fun n => decide (99 ≤ n) :=
  ⟨monotone_setFrom 99, not_terminates_of_stop (by decide) (by decide) (monotone_setFrom 99)
    (show ((99 : ℕ) : ℤ) < 100 * 1 by decide) (by decide)⟩

end CppProj.CountDown
