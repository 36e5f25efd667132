import CppProj.MachineIntegers
import Mathlib.Data.List.Basic

/-!
# The polled timer of `timer_c.c`

`timer_init` and `timer_check` carry seconds and nanoseconds by hand.  The
nanoseconds are of the type `long`, and the seconds are unbounded.
-/

namespace CppProj.TimerTrigger

open MachineIntegers

/-- `struct timespec` -/
structure Timespec where
  tvSec : ℤ
  tvNsec : ℤ
  deriving DecidableEq

namespace Timespec

def nanoseconds (time : Timespec) : ℤ := time.tvSec * 1000000000 + time.tvNsec

def Normalised (time : Timespec) : Prop := 0 ≤ time.tvNsec ∧ time.tvNsec < 1000000000

instance (time : Timespec) : Decidable time.Normalised := inferInstanceAs (Decidable (_ ∧ _))

/-- The carry of one second, as both functions have it. -/
def carry (time : Timespec) : Timespec :=
  if 1000000000 ≤ time.tvNsec then ⟨time.tvSec + 1, time.tvNsec - 1000000000⟩ else time

@[simp] theorem nanoseconds_carry (time : Timespec) :
    time.carry.nanoseconds = time.nanoseconds := by
  rw [carry]
  split_ifs
  · simp only [nanoseconds]
    omega
  · rfl

theorem normalised_carry_iff {time : Timespec} (hnonneg : 0 ≤ time.tvNsec) :
    time.carry.Normalised ↔ time.tvNsec < 2000000000 := by
  rw [carry, Normalised]
  split_ifs
  · simp only
    omega
  · omega

end Timespec

/-- What `clock_gettime` gives. -/
structure Reading extends Timespec where
  normalised : toTimespec.Normalised

structure SoftwareTimer where
  count : ℤ
  maxCount : ℤ
  interval : Timespec
  nextTime : Timespec
  deriving DecidableEq

def timerInit (maxCount intervalNs : ℤ) (now : Reading) : Option SoftwareTimer := do
  let tvNsec ← long (now.tvNsec + intervalNs)
  some {
    count := 0
    maxCount := maxCount
    interval := ⟨intervalNs.tdiv 1000000000, intervalNs.tmod 1000000000⟩
    nextTime := Timespec.carry ⟨now.tvSec, tvNsec⟩ }

def Due (timer : SoftwareTimer) (currentTime : Reading) : Prop :=
  currentTime.tvSec > timer.nextTime.tvSec ∨
    currentTime.tvSec = timer.nextTime.tvSec ∧ currentTime.tvNsec ≥ timer.nextTime.tvNsec

instance (timer : SoftwareTimer) (currentTime : Reading) : Decidable (Due timer currentTime) :=
  inferInstanceAs (Decidable (_ ∨ _))

/-- `timer_check`, with the reading that it takes: the timer after it, and whether it has
returned 1. -/
def timerCheck (timer : SoftwareTimer) (currentTime : Reading) : Option (SoftwareTimer × Bool) :=
  if Due timer currentTime then do
    let tvNsec ← long (timer.nextTime.tvNsec + timer.interval.tvNsec)
    some ({ timer with
      nextTime := Timespec.carry ⟨timer.nextTime.tvSec + timer.interval.tvSec, tvNsec⟩ }, true)
  else some (timer, false)

/-! ## The schedule -/

section Schedule

variable (start : Reading) (intervalNs : ℤ)

/-- After so many triggers, the next time is that many intervals and one more after the
start. -/
structure OnSchedule (triggers : ℕ) (timer : SoftwareTimer) : Prop where
  normalised : timer.nextTime.Normalised
  nextTime : timer.nextTime.nanoseconds = start.nanoseconds + (triggers + 1) * intervalNs

/-- Each of the checks keeps the schedule, and triggers no earlier than it says. -/
def ChecksOnSchedule : ℕ → SoftwareTimer → List Reading → Prop
  | _, _, [] => True
  | triggers, timer, now :: readings =>
      ∃ next triggered, timerCheck timer now = some (next, triggered) ∧
        (triggered = true → start.nanoseconds + (triggers + 1) * intervalNs ≤ now.nanoseconds) ∧
        OnSchedule start intervalNs (if triggered then triggers + 1 else triggers) next ∧
        ChecksOnSchedule (if triggered then triggers + 1 else triggers) next readings

def KeepsSchedule (maxCount : ℤ) (readings : List Reading) : Prop :=
  ∃ timer, timerInit maxCount intervalNs start = some timer ∧
    OnSchedule start intervalNs 0 timer ∧ ChecksOnSchedule start intervalNs 0 timer readings

end Schedule

section Steps

variable {start : Reading} {intervalNs : ℤ} {timer : SoftwareTimer}

def HasInterval (intervalNs : ℤ) (timer : SoftwareTimer) : Prop :=
  timer.interval.Normalised ∧ timer.interval.nanoseconds = intervalNs

theorem timerInit_hasInterval {maxCount : ℤ} (hpos : 0 < intervalNs)
    (hinit : timerInit maxCount intervalNs start = some timer) : HasInterval intervalNs timer := by
  obtain ⟨tvNsec, _, hsome⟩ := Option.bind_eq_some_iff.mp hinit
  cases hsome
  rw [HasInterval, Timespec.Normalised, Timespec.nanoseconds]
  have hnonneg := Int.le_of_lt hpos
  simp only [Int.tdiv_eq_ediv_of_nonneg hnonneg, Int.tmod_eq_emod_of_nonneg hnonneg]
  omega

theorem due_iff (hnormalised : timer.nextTime.Normalised) (now : Reading) :
    Due timer now ↔ timer.nextTime.nanoseconds ≤ now.nanoseconds := by
  have hnow := now.normalised
  rw [Timespec.Normalised] at hnormalised hnow
  rw [Due, Timespec.nanoseconds, Timespec.nanoseconds]
  omega

theorem timerCheck_onSchedule {triggers : ℕ} (hinterval : HasInterval intervalNs timer)
    (hschedule : OnSchedule start intervalNs triggers timer) (now : Reading) :
    ∃ next triggered, timerCheck timer now = some (next, triggered) ∧
      (triggered = true → start.nanoseconds + (triggers + 1) * intervalNs ≤ now.nanoseconds) ∧
      OnSchedule start intervalNs (if triggered then triggers + 1 else triggers) next ∧
      HasInterval intervalNs next := by
  have hdue := due_iff hschedule.normalised now
  rw [timerCheck]
  by_cases h : Due timer now
  · obtain ⟨hnonneg, hlt⟩ := hschedule.normalised
    obtain ⟨⟨hnonneg', hlt'⟩, hlength⟩ := hinterval
    have hlong : FitsLong (timer.nextTime.tvNsec + timer.interval.tvNsec) := by
      rw [FitsLong]
      omega
    rw [if_pos h, long_of_fits hlong]
    refine ⟨_, true, rfl, ?_, ⟨?_, ?_⟩, ⟨hnonneg', hlt'⟩, hlength⟩
    · intro _
      rw [← hschedule.nextTime]
      exact hdue.mp h
    · refine (Timespec.normalised_carry_iff ?_).mpr ?_
      · exact Int.add_nonneg hnonneg hnonneg'
      · simp only
        omega
    · have hbefore := hschedule.nextTime
      rw [Timespec.nanoseconds] at hbefore hlength
      rw [Timespec.nanoseconds_carry, if_pos rfl, Timespec.nanoseconds, Nat.cast_add, Nat.cast_one,
        Int.add_mul _ 1, Int.one_mul]
      simp only
      omega
  · rw [if_neg h]
    exact ⟨timer, false, rfl, nofun, hschedule, hinterval⟩

theorem checksOnSchedule {triggers : ℕ} (hinterval : HasInterval intervalNs timer)
    (hschedule : OnSchedule start intervalNs triggers timer) (readings : List Reading) :
    ChecksOnSchedule start intervalNs triggers timer readings := by
  induction readings generalizing timer triggers with
  | nil => trivial
  | cons now readings ih =>
      obtain ⟨next, triggered, hcheck, htime, hafter, hkept⟩ :=
        timerCheck_onSchedule hinterval hschedule now
      exact ⟨next, triggered, hcheck, htime, hafter, ih hkept hafter⟩

theorem timerInit_onSchedule_iff (maxCount : ℤ) (hpos : 0 < intervalNs) :
    (∃ timer, timerInit maxCount intervalNs start = some timer ∧
      OnSchedule start intervalNs 0 timer) ↔ start.tvNsec + intervalNs < 2000000000 := by
  have hstart := start.normalised
  rw [Timespec.Normalised] at hstart
  constructor
  · rintro ⟨timer, hinit, hschedule⟩
    obtain ⟨tvNsec, hlong, hsome⟩ := Option.bind_eq_some_iff.mp hinit
    obtain ⟨_, rfl⟩ := long_eq_some_iff.mp hlong
    cases hsome
    exact (Timespec.normalised_carry_iff (by simp only; omega)).mp hschedule.normalised
  · intro hsmall
    have hlong : FitsLong (start.tvNsec + intervalNs) := by
      rw [FitsLong]
      omega
    rw [timerInit, long_of_fits hlong]
    refine ⟨_, rfl, (Timespec.normalised_carry_iff (by simp only; omega)).mpr hsmall, ?_⟩
    rw [Timespec.nanoseconds_carry, Timespec.nanoseconds, Timespec.nanoseconds, Nat.cast_zero]
    simp only
    omega

end Steps

/-- The timer keeps its schedule exactly when the first time needs at most one second of
carry. -/
theorem keepsSchedule_iff (start : Reading) (maxCount intervalNs : ℤ) (hpos : 0 < intervalNs)
    (readings : List Reading) :
    KeepsSchedule start intervalNs maxCount readings ↔
      start.tvNsec + intervalNs < 2000000000 := by
  rw [← timerInit_onSchedule_iff maxCount hpos]
  constructor
  · rintro ⟨timer, hinit, hschedule, _⟩
    exact ⟨timer, hinit, hschedule⟩
  · rintro ⟨timer, hinit, hschedule⟩
    exact ⟨timer, hinit, hschedule,
      checksOnSchedule (timerInit_hasInterval hpos hinit) hschedule readings⟩

/-- The interval of `main`, started half a second after a full one. -/
theorem keepsSchedule_main :
    KeepsSchedule ⟨⟨7, 500000000⟩, by decide⟩ 1000000000 10
      [⟨⟨8, 400000000⟩, by decide⟩, ⟨⟨8, 600000000⟩, by decide⟩] :=
  (keepsSchedule_iff _ _ _ (by decide) _).mpr (by decide)

/-- Two seconds and a half: the first time is not normalised, and a check triggers half a
second too early. -/
theorem not_keepsSchedule_long :
    ∃ timer, timerInit 10 2500000000 ⟨⟨7, 0⟩, by decide⟩ = some timer ∧
      timer.nextTime = ⟨8, 1500000000⟩ ∧ Due timer ⟨⟨9, 0⟩, by decide⟩ ∧
      ¬ KeepsSchedule ⟨⟨7, 0⟩, by decide⟩ 2500000000 10 [⟨⟨9, 0⟩, by decide⟩] := by
  refine ⟨_, rfl, rfl, by decide, ?_⟩
  rintro ⟨timer, hinit, hschedule, _⟩
  cases hinit
  exact absurd hschedule.normalised (by decide)

end CppProj.TimerTrigger
