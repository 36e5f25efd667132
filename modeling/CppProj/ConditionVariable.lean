import Mathlib.Data.Bool.Basic
import Mathlib.Tactic.Common

/-!
# Waiting on a condition variable

A predicated wait checks its predicate with the mutex held, then releases the
mutex and falls asleep in one step, and after a notification takes the mutex
and checks again.  The gap between the check and the sleep is a phase of its
own: a notification that is sent in it reaches nobody.
-/

/-- Where a thread stands inside `cv.wait(lock, predicate)`. -/
inductive WaitPhase where
  | testing
  | blocking
  | blocked
  | notified
  deriving DecidableEq

namespace WaitPhase

/-- The mutex is held while the predicate is evaluated and until the thread
sleeps. -/
def holdsMutex : WaitPhase → Bool
  | .testing | .blocking => true
  | .blocked | .notified => false

/-- The effect of `notify_all` on one waiter: only a sleeping thread hears
it. -/
def notify : WaitPhase → WaitPhase
  | .blocked => .notified
  | phase => phase

@[simp] theorem notify_ne_blocked (phase : WaitPhase) :
    phase.notify ≠ .blocked := by
  cases phase <;> simp [notify]

theorem notify_eq_blocking_iff {phase : WaitPhase} :
    phase.notify = .blocking ↔ phase = .blocking := by
  cases phase <;> simp [notify]

/-- A step of the wait that does not leave it: the predicate is checked and does
not hold, the thread falls asleep, or it wakes up. -/
inductive Waits (predicate : Prop) : WaitPhase → WaitPhase → Prop where
  | block (hnot : ¬ predicate) : Waits predicate .testing .blocking
  | sleep : Waits predicate .blocking .blocked
  | wake : Waits predicate .notified .testing

/-- The steps that a thread can take until it sleeps. -/
def steps : WaitPhase → ℕ
  | .notified => 3
  | .testing => 2
  | .blocking => 1
  | .blocked => 0

theorem Waits.steps_lt {predicate : Prop} {phase next : WaitPhase}
    (hwaits : Waits predicate phase next) : next.steps < phase.steps := by
  cases hwaits <;> decide

theorem steps_notify_le (phase : WaitPhase) : phase.notify.steps ≤ phase.steps + 3 := by
  cases phase <;> decide

end WaitPhase

/-- A thread that falls or has fallen asleep while the flag it waits for is
raised still has a notification to come. -/
def WakeupPending (flag : Bool) (notifications : ℕ) (phase : WaitPhase) : Prop :=
  flag = true → phase = .blocking ∨ phase = .blocked → 0 < notifications

namespace WakeupPending

variable {flag : Bool} {notifications : ℕ} {phase : WaitPhase}

theorem raise : WakeupPending true (notifications + 1) phase :=
  fun _ _ => Nat.succ_pos notifications

theorem lowered : WakeupPending false notifications phase := by
  intro hflag
  contradiction

theorem awake (hblocking : phase ≠ .blocking) (hblocked : phase ≠ .blocked) :
    WakeupPending flag notifications phase := by
  intro _ hphase
  rcases hphase with hphase | hphase
  · exact (hblocking hphase).elim
  · exact (hblocked hphase).elim

/-- Falling asleep keeps the promise made when the predicate was checked. -/
theorem block (hpending : WakeupPending flag notifications .blocking) :
    WakeupPending flag notifications .blocked :=
  fun hflag _ => hpending hflag (Or.inl rfl)

theorem waits {next : WaitPhase} (hpending : WakeupPending flag notifications phase)
    (hwaits : phase.Waits (flag = true) next) : WakeupPending flag notifications next := by
  cases hwaits with
  | block hnot => exact fun hflag => absurd hflag hnot
  | sleep => exact hpending.block
  | wake => exact awake WaitPhase.noConfusion WaitPhase.noConfusion

/-- A notification that finds no thread in the gap leaves none asleep, so it
may be used up. -/
theorem notify (hphase : phase ≠ .blocking) :
    WakeupPending flag notifications phase.notify :=
  awake (fun h => hphase (WaitPhase.notify_eq_blocking_iff.mp h))
    (WaitPhase.notify_ne_blocked phase)

end WakeupPending
