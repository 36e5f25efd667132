import CppProj.ConditionVariable
import CppProj.TransitionSystem
import Mathlib.Logic.Function.Basic

/-!
# The four flags of `producer_consumer.cpp`

Both threads go round the flags for ever.  The producer raises a flag that it
finds down; the consumer waits for the flag of its turn and is to lower it
again.  What it stores is a string literal, whose conversion to `bool` is the
test of a pointer.
-/

namespace CppProj.ProducerConsumerFlags

inductive Flag where
  | flag1
  | flag2
  | flag3
  | flag4
  deriving DecidableEq

/-- `i++`, and back to zero after the last flag. -/
def Flag.next : Flag → Flag
  | .flag1 => .flag2
  | .flag2 => .flag3
  | .flag3 => .flag4
  | .flag4 => .flag1

/-- A string literal where a `bool` is expected: its address, which is never
null. -/
def boolOfLiteral (_literal : String) : Bool := true

inductive ProducerPhase where
  | locking
  | testing
  | storing
  | unlocking
  | notifying
  | sleeping
  deriving DecidableEq

inductive ConsumerPhase where
  | locking
  | wait (phase : WaitPhase)
  | printing
  | storing
  | unlocking
  | sleeping
  deriving DecidableEq

def ProducerPhase.holdsMutex : ProducerPhase → Bool
  | .testing | .storing | .unlocking => true
  | .locking | .notifying | .sleeping => false

namespace ConsumerPhase

def holdsMutex : ConsumerPhase → Bool
  | .wait phase => phase.holdsMutex
  | .printing | .storing | .unlocking => true
  | .locking | .sleeping => false

/-- The consumer is the only thread that waits, so `notify_one` wakes it. -/
def notify : ConsumerPhase → ConsumerPhase
  | .wait phase => .wait phase.notify
  | phase => phase

/-- The wait is over and the store is still to come. -/
def passed : ConsumerPhase → Bool
  | .printing | .storing => true
  | .locking | .wait _ | .unlocking | .sleeping => false

@[simp] theorem passed_notify (phase : ConsumerPhase) : phase.notify.passed = phase.passed := by
  cases phase <;> rfl

end ConsumerPhase

/-- `producerTurn` and `consumerTurn` are the loop variables `i`.  The last three
fields record, flag by flag, the changes from false to true by the producer, the
waits that the consumer has passed, and its stores. -/
structure State where
  producerTurn : Flag
  producer : ProducerPhase
  consumerTurn : Flag
  consumer : ConsumerPhase
  flags : Flag → Bool
  productions : Flag → ℕ
  passes : Flag → ℕ
  stores : Flag → ℕ

inductive Action where
  | producer
  | consumer
  | spuriousWakeup
  deriving DecidableEq

def initial : State where
  producerTurn := .flag1
  producer := .locking
  consumerTurn := .flag1
  consumer := .locking
  flags := fun _ => false
  productions := fun _ => 0
  passes := fun _ => 0
  stores := fun _ => 0

def mutexFree (state : State) : Bool :=
  !state.producer.holdsMutex && !state.consumer.holdsMutex

def tally (counts : Flag → ℕ) (flag : Flag) : Flag → ℕ :=
  Function.update counts flag (counts flag + 1)

def producerStep (state : State) : Option State :=
  match state.producer with
  | .locking => if mutexFree state then some { state with producer := .testing } else none
  | .testing =>
      some { state with
        producer := if state.flags state.producerTurn then .unlocking else .storing }
  | .storing =>
      some { state with
        flags := Function.update state.flags state.producerTurn true
        productions := tally state.productions state.producerTurn
        producer := .unlocking }
  | .unlocking => some { state with producer := .notifying }
  | .notifying => some { state with consumer := state.consumer.notify, producer := .sleeping }
  | .sleeping =>
      some { state with producerTurn := state.producerTurn.next, producer := .locking }

def consumerStep (state : State) : Option State :=
  match state.consumer with
  | .locking => if mutexFree state then some { state with consumer := .wait .testing } else none
  | .wait .testing =>
      if state.flags state.consumerTurn then
        some { state with
          passes := tally state.passes state.consumerTurn
          consumer := .printing }
      else some { state with consumer := .wait .blocking }
  | .wait .blocking => some { state with consumer := .wait .blocked }
  | .wait .blocked => none
  | .wait .notified =>
      if mutexFree state then some { state with consumer := .wait .testing } else none
  | .printing => some { state with consumer := .storing }
  | .storing =>
      some { state with
        flags := Function.update state.flags state.consumerTurn (boolOfLiteral "false")
        stores := tally state.stores state.consumerTurn
        consumer := .unlocking }
  | .unlocking => some { state with consumer := .sleeping }
  | .sleeping =>
      some { state with consumerTurn := state.consumerTurn.next, consumer := .locking }

def step (state : State) : Action → Option State
  | .producer => producerStep state
  | .consumer => consumerStep state
  | .spuriousWakeup =>
      if state.consumer = .wait .blocked then some { state with consumer := .wait .notified }
      else none

def system : TransitionSystem State Action where
  initial := initial
  step := step

@[simp] theorem tally_self (counts : Flag → ℕ) (flag : Flag) :
    tally counts flag flag = counts flag + 1 :=
  Function.update_self ..

theorem tally_of_ne (counts : Flag → ℕ) {flag other : Flag} (hne : other ≠ flag) :
    tally counts flag other = counts other :=
  Function.update_of_ne hne ..

/-! ## How often a flag is consumed -/

/-- Each production is consumed at most once. -/
def ConsumedOnce (state : State) : Prop :=
  ∀ flag, state.passes flag ≤ state.productions flag

/-- The consumer passes no wait on a flag after its own store to that flag. -/
def PassesBeforeStore (state : State) : Action → Prop
  | .consumer => state.consumer = .wait .testing → state.flags state.consumerTurn = true →
      state.stores state.consumerTurn = 0
  | .producer | .spuriousWakeup => True

instance (state : State) (action : Action) : Decidable (PassesBeforeStore state action) :=
  match action with
  | .consumer => inferInstanceAs (Decidable (_ → _ → _))
  | .producer | .spuriousWakeup => isTrue trivial

/-- The passes of the flag whose store is still to come. -/
def pending (state : State) (flag : Flag) : ℕ :=
  if state.consumerTurn = flag ∧ state.consumer.passed = true then 1 else 0

/-- A flag is raised once and stays up: the consumer's store changes nothing. -/
structure FlagInvariant (state : State) : Prop where
  produced : ∀ flag, state.productions flag = (state.flags flag).toNat
  lowered : state.producer = .storing → state.flags state.producerTurn = false
  raised : state.consumer.passed = true → state.flags state.consumerTurn = true
  stored : ∀ flag, state.passes flag = state.stores flag + pending state flag
  once : ConsumedOnce state

theorem initial_flagInvariant : FlagInvariant initial := by
  constructor <;> simp [initial, pending, ConsumerPhase.passed, ConsumedOnce]

theorem pending_of_not_passed {state : State} (hpassed : state.consumer.passed = false)
    (flag : Flag) : pending state flag = 0 := by
  rw [pending, if_neg]
  rintro ⟨_, htrue⟩
  exact Bool.false_ne_true (hpassed.symm.trans htrue)

namespace FlagInvariant

variable {state next : State}

theorem moveConsumer (hinv : FlagInvariant state) (turn : Flag) (after : ConsumerPhase)
    (hafter : after.passed = false) (hbefore : state.consumer.passed = false) :
    FlagInvariant { state with consumerTurn := turn, consumer := after } := by
  constructor
  · exact hinv.produced
  · exact hinv.lowered
  · intro hpassed
    exact (Bool.false_ne_true (hafter.symm.trans hpassed)).elim
  · intro flag
    have hstored := hinv.stored flag
    rw [pending_of_not_passed hbefore] at hstored
    rw [pending_of_not_passed hafter]
    exact hstored
  · exact hinv.once

theorem moveProducer (hinv : FlagInvariant state) (turn : Flag) (after : ProducerPhase)
    (hafter : after = .storing → state.flags turn = false) :
    FlagInvariant { state with producerTurn := turn, producer := after } := by
  constructor
  · exact hinv.produced
  · exact hafter
  · exact hinv.raised
  · exact hinv.stored
  · exact hinv.once

theorem produce (hinv : FlagInvariant state) (hphase : state.producer = .storing) :
    FlagInvariant { state with
      flags := Function.update state.flags state.producerTurn true
      productions := tally state.productions state.producerTurn
      producer := .unlocking } := by
  have hlowered := hinv.lowered hphase
  constructor
  · intro flag
    by_cases heq : flag = state.producerTurn
    · subst heq
      have hproduced := hinv.produced state.producerTurn
      rw [hlowered] at hproduced
      simp [hproduced]
    · simp only [tally_of_ne _ heq, Function.update_of_ne heq]
      exact hinv.produced flag
  · simp
  · intro hpassed
    by_cases heq : state.consumerTurn = state.producerTurn
    · simp [heq]
    · simp only [Function.update_of_ne heq]
      exact hinv.raised hpassed
  · exact hinv.stored
  · intro flag
    have honce := hinv.once flag
    by_cases heq : flag = state.producerTurn
    · subst heq
      simp only [tally_self]
      omega
    · simp only [tally_of_ne _ heq]
      exact honce

/-- The flag is up, so it has been raised once; nothing of it was consumed. -/
theorem pass (hinv : FlagInvariant state) (hphase : state.consumer = .wait .testing)
    (hflag : state.flags state.consumerTurn = true)
    (hfirst : state.stores state.consumerTurn = 0) :
    FlagInvariant { state with
      passes := tally state.passes state.consumerTurn
      consumer := .printing } := by
  have hbefore : ∀ flag, state.passes flag = state.stores flag := by
    intro flag
    have hstored := hinv.stored flag
    rwa [pending_of_not_passed (by rw [hphase]; rfl), Nat.add_zero] at hstored
  constructor
  · exact hinv.produced
  · exact hinv.lowered
  · intro _
    exact hflag
  · intro flag
    by_cases heq : flag = state.consumerTurn
    · subst heq
      simp [pending, ConsumerPhase.passed, hbefore]
    · simp [tally_of_ne _ heq, pending, Ne.symm heq, hbefore]
  · intro flag
    by_cases heq : flag = state.consumerTurn
    · subst heq
      have hproduced := hinv.produced state.consumerTurn
      rw [hflag] at hproduced
      simp [hbefore, hfirst, hproduced]
    · simp only [tally_of_ne _ heq]
      exact hinv.once flag

theorem store (hinv : FlagInvariant state) (hphase : state.consumer = .storing) :
    FlagInvariant { state with
      flags := Function.update state.flags state.consumerTurn (boolOfLiteral "false")
      stores := tally state.stores state.consumerTurn
      consumer := .unlocking } := by
  have hraised : state.flags state.consumerTurn = true := hinv.raised (by rw [hphase]; rfl)
  have hflags :
      Function.update state.flags state.consumerTurn (boolOfLiteral "false") = state.flags := by
    rw [boolOfLiteral, ← hraised]
    exact Function.update_eq_self ..
  rw [hflags]
  constructor
  · exact hinv.produced
  · exact hinv.lowered
  · intro hpassed
    cases hpassed
  · intro flag
    have hstored := hinv.stored flag
    rw [pending_of_not_passed rfl]
    by_cases heq : flag = state.consumerTurn
    · subst heq
      simpa [pending, hphase, ConsumerPhase.passed] using hstored
    · simpa [tally_of_ne _ heq, pending, Ne.symm heq] using hstored
  · exact hinv.once

theorem producerStep (hinv : FlagInvariant state) (hstep : producerStep state = some next) :
    FlagInvariant next := by
  unfold ProducerConsumerFlags.producerStep at hstep
  cases hphase : state.producer with
  | locking =>
      rw [hphase] at hstep
      simp only [Option.ite_none_right_eq_some] at hstep
      obtain ⟨_, ⟨⟩⟩ := hstep
      exact hinv.moveProducer state.producerTurn .testing (by simp)
  | testing =>
      rw [hphase] at hstep
      cases hstep
      apply hinv.moveProducer state.producerTurn
      intro hstoring
      by_contra hflag
      simp [hflag] at hstoring
  | storing =>
      rw [hphase] at hstep
      cases hstep
      exact hinv.produce hphase
  | unlocking =>
      rw [hphase] at hstep
      cases hstep
      exact hinv.moveProducer state.producerTurn .notifying (by simp)
  | notifying =>
      rw [hphase] at hstep
      cases hstep
      constructor
      · exact hinv.produced
      · simp
      · intro hpassed
        rw [ConsumerPhase.passed_notify] at hpassed
        exact hinv.raised hpassed
      · intro flag
        simp only [pending, ConsumerPhase.passed_notify]
        exact hinv.stored flag
      · exact hinv.once
  | sleeping =>
      rw [hphase] at hstep
      cases hstep
      exact hinv.moveProducer state.producerTurn.next .locking (by simp)

theorem consumerStep (hinv : FlagInvariant state)
    (hfirst : PassesBeforeStore state .consumer)
    (hstep : consumerStep state = some next) : FlagInvariant next := by
  unfold ProducerConsumerFlags.consumerStep at hstep
  have hmove := fun turn after hafter hbefore => hinv.moveConsumer turn after hafter hbefore
  cases hphase : state.consumer with
  | locking =>
      rw [hphase] at hstep
      simp only [Option.ite_none_right_eq_some] at hstep
      obtain ⟨_, ⟨⟩⟩ := hstep
      exact hmove state.consumerTurn _ rfl (by rw [hphase]; rfl)
  | wait phase =>
      have hbefore : state.consumer.passed = false := by rw [hphase]; rfl
      cases phase with
      | testing =>
          rw [hphase] at hstep
          by_cases hflag : state.flags state.consumerTurn = true
          · simp only [hflag, if_true, Option.some.injEq] at hstep
            subst hstep
            exact hinv.pass hphase hflag (hfirst hphase hflag)
          · simp only [hflag, Bool.false_eq_true, if_false, Option.some.injEq] at hstep
            subst hstep
            exact hmove state.consumerTurn _ rfl hbefore
      | blocking =>
          rw [hphase] at hstep
          cases hstep
          exact hmove state.consumerTurn _ rfl hbefore
      | blocked =>
          rw [hphase] at hstep
          cases hstep
      | notified =>
          rw [hphase] at hstep
          simp only [Option.ite_none_right_eq_some] at hstep
          obtain ⟨_, ⟨⟩⟩ := hstep
          exact hmove state.consumerTurn _ rfl hbefore
  | printing =>
      rw [hphase] at hstep
      cases hstep
      constructor
      · exact hinv.produced
      · exact hinv.lowered
      · intro _
        exact hinv.raised (by rw [hphase]; rfl)
      · intro flag
        have hstored := hinv.stored flag
        simpa [pending, hphase, ConsumerPhase.passed] using hstored
      · exact hinv.once
  | storing =>
      rw [hphase] at hstep
      cases hstep
      exact hinv.store hphase
  | unlocking =>
      rw [hphase] at hstep
      cases hstep
      exact hmove state.consumerTurn _ rfl (by rw [hphase]; rfl)
  | sleeping =>
      rw [hphase] at hstep
      cases hstep
      exact hmove state.consumerTurn.next _ rfl (by rw [hphase]; rfl)

theorem step (hinv : FlagInvariant state) {action : Action}
    (hfirst : PassesBeforeStore state action) (hstep : step state action = some next) :
    FlagInvariant next := by
  cases action with
  | producer => exact hinv.producerStep hstep
  | consumer => exact hinv.consumerStep hfirst hstep
  | spuriousWakeup =>
      simp only [ProducerConsumerFlags.step, Option.ite_none_right_eq_some] at hstep
      obtain ⟨hphase, ⟨⟩⟩ := hstep
      exact hinv.moveConsumer state.consumerTurn _ rfl (by rw [hphase]; rfl)

/-- A pass after a store is a second pass of a flag that was raised once. -/
theorem not_consumedOnce (hinv : FlagInvariant state) {action : Action}
    (hviolated : ¬ PassesBeforeStore state action)
    (hstep : ProducerConsumerFlags.step state action = some next) : ¬ ConsumedOnce next := by
  cases action with
  | producer => exact (hviolated trivial).elim
  | spuriousWakeup => exact (hviolated trivial).elim
  | consumer =>
      simp only [PassesBeforeStore, Classical.not_imp] at hviolated
      obtain ⟨hphase, hflag, hstored⟩ := hviolated
      simp only [ProducerConsumerFlags.step, ProducerConsumerFlags.consumerStep, hphase, hflag,
        if_true, Option.some.injEq] at hstep
      subst hstep
      intro honce
      have hturn := honce state.consumerTurn
      have hproduced := hinv.produced state.consumerTurn
      have hpasses := hinv.stored state.consumerTurn
      rw [hflag, Bool.toNat_true] at hproduced
      simp only [tally_self, hproduced] at hturn
      omega

end FlagInvariant

/-- In a run every production is consumed at most once, in all its states, exactly
when no wait on a flag is passed after a store to the flag. -/
theorem consumedOnce_iff {actions : List Action} {final : State}
    (hrun : system.run initial actions = some final) :
    system.Always ConsumedOnce initial actions ↔
      system.StepsMeet PassesBeforeStore initial actions :=
  TransitionSystem.always_iff_stepsMeet FlagInvariant ConsumedOnce
    (fun _ hinv => hinv.once)
    (fun _ _ _ hinv hfirst hstep => hinv.step hfirst hstep)
    (fun _ _ _ hinv hviolated hstep => hinv.not_consumedOnce hviolated hstep)
    initial_flagInvariant hrun

def producerTurnActions : List Action := List.replicate 6 .producer

def consumerTurnActions : List Action := List.replicate 6 .consumer

theorem consumedOnce_firstTurn :
    system.Always ConsumedOnce initial (producerTurnActions ++ consumerTurnActions) :=
  (consumedOnce_iff rfl).mpr (by decide)

/-- The producer raises each flag once and then finds all of them up; the consumer
passes its second wait on `flag1`. -/
theorem flag1_consumed_twice :
    ∃ final, system.run initial
        (List.flatten [List.replicate 18 .producer, List.replicate 6 .producer,
          List.replicate 24 .consumer, List.replicate 2 .consumer]) = some final ∧
      final.productions .flag1 = 1 ∧ final.passes .flag1 = 2 ∧ ¬ ConsumedOnce final := by
  refine ⟨_, rfl, rfl, rfl, ?_⟩
  intro honce
  exact absurd (honce .flag1) (by decide)

end CppProj.ProducerConsumerFlags
