import CppProj.ConditionVariable
import CppProj.TransitionSystem
import Mathlib.Algebra.Ring.Int.Defs
import Mathlib.Algebra.Ring.Nat
import Mathlib.Order.Lattice

/-!
# The one-slot hand-off of `con_pred.cpp`

`main` polls `shipment` without the mutex until the slot `num` is empty, and
then stores the next number under the mutex and notifies.  `consumer` waits with
the predicate `shipment`, prints the number and empties the slot, all under the
mutex.  Both loops run for the same count, an `int` of either sign.

The slot is filled only by `main` and emptied only by the consumer, so the
numbers of stores and of clearings determine what it holds.
-/

namespace CppProj.OneSlotHandOff

/-- Where `main` stands.  `testLoop` evaluates the condition of its loop, and
`joining` waits for the end of the consumer. -/
inductive ProducerPhase where
  | testLoop
  | polling
  | locking
  | storing
  | notifying
  | unlocking
  | joining
  | returned
  deriving DecidableEq

inductive ConsumerPhase where
  | testLoop
  | locking
  | wait (phase : WaitPhase)
  | printing
  | clearing
  | unlocking
  | returned
  deriving DecidableEq

namespace ProducerPhase

def holdsMutex : ProducerPhase → Bool
  | .storing | .notifying | .unlocking => true
  | _ => false

def loopEnded : ProducerPhase → Bool
  | .joining | .returned => true
  | _ => false

/-- The store of the current iteration is done. -/
def stored : ProducerPhase → ℕ
  | .notifying | .unlocking => 1
  | _ => 0

end ProducerPhase

namespace ConsumerPhase

def holdsMutex : ConsumerPhase → Bool
  | .wait phase => phase.holdsMutex
  | .printing | .clearing | .unlocking => true
  | _ => false

def notify : ConsumerPhase → ConsumerPhase
  | .wait phase => .wait phase.notify
  | phase => phase

def printed : ConsumerPhase → ℕ
  | .clearing | .unlocking => 1
  | _ => 0

def cleared : ConsumerPhase → ℕ
  | .unlocking => 1
  | _ => 0

end ConsumerPhase

/-- `producerIndex` and `consumerIndex` are the loop variables.  `observed`
lists what the consumer has printed and `overwritten` is set by a store into a
slot that is not empty. -/
structure State where
  num : ℤ
  producerIndex : ℕ
  producer : ProducerPhase
  consumerIndex : ℕ
  consumer : ConsumerPhase
  observed : List (ℕ × ℤ)
  overwritten : Bool
  deriving DecidableEq

inductive Action where
  | producer
  | consumer
  | spuriousWakeup
  deriving DecidableEq

def initial : State where
  num := 0
  producerIndex := 0
  producer := .testLoop
  consumerIndex := 0
  consumer := .testLoop
  observed := []
  overwritten := false

namespace State

def mutexFree (state : State) : Bool :=
  !state.producer.holdsMutex && !state.consumer.holdsMutex

def shipment (state : State) : Bool :=
  state.num != 0

def BothLoopsEnded (state : State) : Prop :=
  state.producer.loopEnded = true ∧ state.consumer = .returned

instance (state : State) : Decidable state.BothLoopsEnded :=
  inferInstanceAs (Decidable (_ ∧ _))

end State

def producerStep (count : ℤ) (state : State) : Option State :=
  match state.producer with
  | .testLoop =>
      some { state with
        producer := if (state.producerIndex : ℤ) < count then .polling else .joining }
  | .polling =>
      some { state with producer := if state.shipment then .polling else .locking }
  | .locking => if state.mutexFree then some { state with producer := .storing } else none
  | .storing =>
      some { state with
        num := state.producerIndex + 1
        overwritten := state.overwritten || state.shipment
        producer := .notifying }
  | .notifying =>
      some { state with consumer := state.consumer.notify, producer := .unlocking }
  | .unlocking =>
      some { state with producerIndex := state.producerIndex + 1, producer := .testLoop }
  | .joining =>
      if state.consumer = .returned then some { state with producer := .returned } else none
  | .returned => none

def consumerStep (count : ℤ) (state : State) : Option State :=
  match state.consumer with
  | .testLoop =>
      some { state with
        consumer := if (state.consumerIndex : ℤ) < count then .locking else .returned }
  | .locking =>
      if state.mutexFree then some { state with consumer := .wait .testing } else none
  | .wait .testing =>
      some { state with consumer := if state.shipment then .printing else .wait .blocking }
  | .wait .blocking => some { state with consumer := .wait .blocked }
  | .wait .blocked => none
  | .wait .notified =>
      if state.mutexFree then some { state with consumer := .wait .testing } else none
  | .printing =>
      some { state with
        observed := state.observed ++ [(state.consumerIndex, state.num)]
        consumer := .clearing }
  | .clearing => some { state with num := 0, consumer := .unlocking }
  | .unlocking =>
      some { state with consumerIndex := state.consumerIndex + 1, consumer := .testLoop }
  | .returned => none

def step (count : ℤ) (state : State) : Action → Option State
  | .producer => producerStep count state
  | .consumer => consumerStep count state
  | .spuriousWakeup =>
      if state.consumer = .wait .blocked then
        some { state with consumer := .wait .notified }
      else none

def system (count : ℤ) : TransitionSystem State Action where
  initial := initial
  step := step count

namespace State

def stores (state : State) : ℕ :=
  state.producerIndex + state.producer.stored

def clearings (state : State) : ℕ :=
  state.consumerIndex + state.consumer.cleared

def printings (state : State) : ℕ :=
  state.consumerIndex + state.consumer.printed

end State

/-! ## What the two threads know about the slot -/

/-- The slot is empty, or it holds the last number stored. -/
def SlotHolds (num : ℤ) (stores clearings : ℕ) : Prop :=
  (num = 0 ∧ stores = clearings) ∨ (num = stores ∧ stores = clearings + 1)

def ProducerHolds (count num : ℤ) (index : ℕ) : ProducerPhase → Prop
  | .testLoop => True
  | .polling | .notifying | .unlocking => (index : ℤ) < count
  -- the poll was not under the mutex, but nobody else fills the slot
  | .locking | .storing => (index : ℤ) < count ∧ num = 0
  | .joining | .returned => count ≤ index

/-- A consumer that sleeps although the slot is full is about to be notified. -/
def ConsumerHolds (count num : ℤ) (index : ℕ) (producer : ProducerPhase) :
    ConsumerPhase → Prop
  | .testLoop => True
  | .locking | .wait .testing | .wait .notified | .unlocking => (index : ℤ) < count
  | .wait .blocking => (index : ℤ) < count ∧ num = 0
  | .wait .blocked => (index : ℤ) < count ∧ (num = 0 ∨ producer = .notifying)
  | .printing | .clearing => (index : ℤ) < count ∧ num ≠ 0
  | .returned => count ≤ index

/-- What the consumer prints in its first iterations. -/
def expected (iterations : ℕ) : List (ℕ × ℤ) :=
  (List.range iterations).map fun index => (index, (index : ℤ) + 1)

structure HandOffInvariant (count : ℤ) (state : State) : Prop where
  slot : SlotHolds state.num state.stores state.clearings
  exclusive : state.producer.holdsMutex = false ∨ state.consumer.holdsMutex = false
  producer : ProducerHolds count state.num state.producerIndex state.producer
  consumer : ConsumerHolds count state.num state.consumerIndex state.producer state.consumer
  observed : state.observed = expected state.printings
  kept : state.overwritten = false

theorem initial_handOffInvariant (count : ℤ) : HandOffInvariant count initial :=
  ⟨Or.inl ⟨rfl, rfl⟩, Or.inl rfl, trivial, trivial, rfl, rfl⟩

theorem expected_succ (iterations : ℕ) :
    expected (iterations + 1) = expected iterations ++ [(iterations, (iterations : ℤ) + 1)] := by
  simp [expected, List.range_succ]

theorem ConsumerHolds.producer {count num : ℤ} {index : ℕ} {before after : ProducerPhase}
    {consumer : ConsumerPhase} (hholds : ConsumerHolds count num index before consumer)
    (hbefore : before ≠ .notifying) :
    ConsumerHolds count num index after consumer := by
  cases consumer with
  | wait phase =>
      cases phase with
      | blocked =>
          obtain ⟨hindex, hnum⟩ := hholds
          exact ⟨hindex, Or.inl (hnum.resolve_right hbefore)⟩
      | _ => exact hholds
  | _ => exact hholds

theorem ConsumerHolds.notify {count num : ℤ} {index : ℕ} {before after : ProducerPhase}
    {consumer : ConsumerPhase} (hholds : ConsumerHolds count num index before consumer) :
    ConsumerHolds count num index after consumer.notify := by
  cases consumer with
  | wait phase =>
      cases phase with
      | blocked => exact hholds.1
      | _ => exact hholds
  | _ => exact hholds

theorem ConsumerHolds.store {count num stored : ℤ} {index : ℕ} {before : ProducerPhase}
    {consumer : ConsumerPhase} (hholds : ConsumerHolds count num index before consumer)
    (houtside : consumer.holdsMutex = false) :
    ConsumerHolds count stored index .notifying consumer := by
  cases consumer with
  | wait phase =>
      cases phase with
      | blocked => exact ⟨hholds.1, Or.inr rfl⟩
      | notified => exact hholds
      | testing | blocking => cases houtside
  | printing | clearing | unlocking => cases houtside
  | _ => exact hholds

@[simp] theorem ConsumerPhase.notify_counts (consumer : ConsumerPhase) :
    consumer.notify.cleared = consumer.cleared ∧
      consumer.notify.printed = consumer.printed ∧
      consumer.notify.holdsMutex = consumer.holdsMutex := by
  cases consumer with
  | wait phase => cases phase <;> exact ⟨rfl, rfl, rfl⟩
  | _ => exact ⟨rfl, rfl, rfl⟩

/-! ## The steps keep what the threads know -/

theorem mutexFree_iff {state : State} :
    state.mutexFree = true ↔
      state.producer.holdsMutex = false ∧ state.consumer.holdsMutex = false := by
  simp [State.mutexFree]

theorem producerStep_handOffInvariant {count : ℤ} {state next : State}
    (hinv : HandOffInvariant count state) (hstep : producerStep count state = some next) :
    HandOffInvariant count next := by
  obtain ⟨hslot, hexclusive, hproducer, hconsumer, hobserved, hkept⟩ := hinv
  unfold producerStep at hstep
  obtain ⟨num, index, phase, consumerIndex, consumer, observed, overwritten⟩ := state
  cases phase with
  | testLoop =>
      cases hstep
      by_cases hloop : (index : ℤ) < count
      · simp only [if_pos hloop]
        exact ⟨hslot, Or.inl rfl, hloop, hconsumer.producer (by simp), hobserved, hkept⟩
      · simp only [if_neg hloop]
        exact ⟨hslot, Or.inl rfl, not_lt.mp hloop, hconsumer.producer (by simp), hobserved,
          hkept⟩
  | polling =>
      cases hstep
      by_cases hnum : num = 0
      · have hempty : (num != 0) = false := by simp [hnum]
        simp only [State.shipment, hempty]
        exact ⟨hslot, Or.inl rfl, ⟨hproducer, hnum⟩, hconsumer.producer (by simp), hobserved,
          hkept⟩
      · have hfull : (num != 0) = true := by simp [hnum]
        simp only [State.shipment, hfull]
        exact ⟨hslot, Or.inl rfl, hproducer, hconsumer, hobserved, hkept⟩
  | locking =>
      simp only [] at hstep
      split_ifs at hstep with hfree
      cases hstep
      exact ⟨hslot, Or.inr (mutexFree_iff.mp hfree).2, hproducer,
        hconsumer.producer (by simp), hobserved, hkept⟩
  | storing =>
      cases hstep
      have houtside : consumer.holdsMutex = false := by
        rcases hexclusive with hfree | hfree
        · cases hfree
        · exact hfree
      obtain ⟨hindex, hnum⟩ := hproducer
      have hempty : (overwritten || num != 0) = false := by
        rw [show overwritten = false from hkept, show num = 0 from hnum]
        rfl
      refine ⟨?_, Or.inr houtside, hindex, hconsumer.store houtside, hobserved, hempty⟩
      -- the slot was empty, so all numbers stored before are cleared
      rcases hslot with ⟨_, hcounts⟩ | ⟨hstored, hcounts⟩
      · refine Or.inr ⟨by simp [State.stores, ProducerPhase.stored], ?_⟩
        simp only [State.stores, State.clearings, ProducerPhase.stored] at hcounts ⊢
        omega
      · simp only at hnum hstored
        omega
  | notifying =>
      cases hstep
      have hcounts := consumer.notify_counts
      refine ⟨?_, ?_, hproducer, hconsumer.notify, ?_, hkept⟩
      · simpa [State.stores, State.clearings, ProducerPhase.stored, hcounts] using hslot
      · simpa [ProducerPhase.holdsMutex, hcounts] using hexclusive
      · simpa [State.printings, hcounts] using hobserved
  | unlocking =>
      cases hstep
      exact ⟨hslot, Or.inl rfl, trivial, hconsumer.producer (by simp), hobserved, hkept⟩
  | joining =>
      simp only [] at hstep
      split_ifs at hstep with hreturned
      cases hstep
      exact ⟨hslot, Or.inl rfl, hproducer, hconsumer.producer (by simp), hobserved, hkept⟩
  | returned => cases hstep

theorem consumerStep_handOffInvariant {count : ℤ} {state next : State}
    (hinv : HandOffInvariant count state) (hstep : consumerStep count state = some next) :
    HandOffInvariant count next := by
  obtain ⟨hslot, hexclusive, hproducer, hconsumer, hobserved, hkept⟩ := hinv
  unfold consumerStep at hstep
  obtain ⟨num, producerIndex, producer, index, phase, observed, overwritten⟩ := state
  cases phase with
  | testLoop =>
      cases hstep
      by_cases hloop : (index : ℤ) < count
      · simp only [if_pos hloop]
        exact ⟨hslot, Or.inr rfl, hproducer, hloop, hobserved, hkept⟩
      · simp only [if_neg hloop]
        exact ⟨hslot, Or.inr rfl, hproducer, not_lt.mp hloop, hobserved, hkept⟩
  | locking =>
      simp only [] at hstep
      split_ifs at hstep with hfree
      cases hstep
      exact ⟨hslot, Or.inl (mutexFree_iff.mp hfree).1, hproducer, hconsumer, hobserved, hkept⟩
  | wait waiting =>
      cases waiting with
      | testing =>
          cases hstep
          by_cases hnum : num = 0
          · have hempty : (num != 0) = false := by simp [hnum]
            simp only [State.shipment, hempty]
            exact ⟨hslot, hexclusive, hproducer, ⟨hconsumer, hnum⟩, hobserved, hkept⟩
          · have hfull : (num != 0) = true := by simp [hnum]
            simp only [State.shipment, hfull]
            exact ⟨hslot, hexclusive, hproducer, ⟨hconsumer, hnum⟩, hobserved, hkept⟩
      | blocking =>
          cases hstep
          obtain ⟨hindex, hnum⟩ := hconsumer
          exact ⟨hslot, Or.inr rfl, hproducer, ⟨hindex, Or.inl hnum⟩, hobserved, hkept⟩
      | blocked => cases hstep
      | notified =>
          simp only [] at hstep
          split_ifs at hstep with hfree
          cases hstep
          exact ⟨hslot, Or.inl (mutexFree_iff.mp hfree).1, hproducer, hconsumer, hobserved,
            hkept⟩
  | printing =>
      cases hstep
      refine ⟨hslot, hexclusive, hproducer, hconsumer, ?_, hkept⟩
      have hnum : num = index + 1 := by
        rcases hslot with ⟨hempty, _⟩ | ⟨hnum, hcounts⟩
        · exact (hconsumer.2 hempty).elim
        · simp only [State.clearings, ConsumerPhase.cleared] at hnum hcounts
          omega
      have hobserved : observed = expected index := hobserved
      simp only [State.printings, ConsumerPhase.printed, expected_succ, hobserved, hnum]
  | clearing =>
      cases hstep
      refine ⟨?_, hexclusive, ?_, hconsumer.1, hobserved, hkept⟩
      · -- the slot was full, so exactly one number is not cleared yet
        rcases hslot with ⟨hempty, _⟩ | ⟨_, hcounts⟩
        · exact (hconsumer.2 hempty).elim
        · exact Or.inl ⟨rfl, hcounts⟩
      · cases producer with
        | locking | storing => exact ⟨hproducer.1, rfl⟩
        | _ => exact hproducer
  | unlocking =>
      cases hstep
      exact ⟨hslot, Or.inr rfl, hproducer, trivial, hobserved, hkept⟩
  | returned => cases hstep

theorem step_handOffInvariant {count : ℤ} {state next : State} {action : Action}
    (hinv : HandOffInvariant count state) (hstep : step count state action = some next) :
    HandOffInvariant count next := by
  cases action with
  | producer => exact producerStep_handOffInvariant hinv hstep
  | consumer => exact consumerStep_handOffInvariant hinv hstep
  | spuriousWakeup =>
      simp only [step] at hstep
      split_ifs at hstep with hblocked
      cases hstep
      have hconsumer := hinv.consumer
      have hslot := hinv.slot
      have hobserved := hinv.observed
      rw [hblocked] at hconsumer
      simp only [State.clearings, State.printings, hblocked] at hslot hobserved
      exact ⟨hslot, Or.inr rfl, hinv.producer, hconsumer.1, hobserved, hinv.kept⟩

theorem handOffInvariant_of_reachable {count : ℤ} {state : State}
    (hreach : (system count).Reachable state) : HandOffInvariant count state := by
  apply hreach.invariant (HandOffInvariant count) (initial_handOffInvariant count)
  intro state action next hinv hstep
  exact step_handOffInvariant hinv hstep

/-! ## Some thread makes progress -/

/-- A thread of the program takes a step that is not one more poll of a full
slot. -/
def Progresses (count : ℤ) (state : State) : Prop :=
  ∃ action next, action ≠ .spuriousWakeup ∧ step count state action = some next ∧ next ≠ state

theorem progresses_of_producerStep {count : ℤ} {state next : State}
    (hstep : producerStep count state = some next) (hphase : next.producer ≠ state.producer) :
    Progresses count state := by
  refine ⟨.producer, next, by simp, hstep, ?_⟩
  intro heq
  exact hphase (congrArg State.producer heq)

theorem progresses_of_consumerStep {count : ℤ} {state next : State}
    (hstep : consumerStep count state = some next) (hphase : next.consumer ≠ state.consumer) :
    Progresses count state := by
  refine ⟨.consumer, next, by simp, hstep, ?_⟩
  intro heq
  exact hphase (congrArg State.consumer heq)

theorem progresses_of_consumer_holdsMutex {count : ℤ} {state : State}
    (hholds : state.consumer.holdsMutex = true) : Progresses count state := by
  cases hphase : state.consumer with
  | testLoop | locking | returned => rw [hphase] at hholds; cases hholds
  | wait waiting =>
      cases waiting with
      | blocked | notified => rw [hphase] at hholds; cases hholds
      | testing =>
          apply progresses_of_consumerStep (by rw [consumerStep, hphase])
          simp only [hphase]
          split_ifs <;> simp
      | blocking =>
          exact progresses_of_consumerStep (by rw [consumerStep, hphase]) (by simp [hphase])
  | printing | clearing | unlocking =>
      exact progresses_of_consumerStep (by rw [consumerStep, hphase]) (by simp [hphase])

theorem progresses_of_consumer_awake {count : ℤ} {state : State}
    (hproducer : state.producer.holdsMutex = false)
    (hawake : state.consumer ≠ .wait .blocked) (hreturned : state.consumer ≠ .returned) :
    Progresses count state := by
  by_cases hholds : state.consumer.holdsMutex = true
  · exact progresses_of_consumer_holdsMutex hholds
  · have hfree : state.mutexFree = true :=
      mutexFree_iff.mpr ⟨hproducer, by simpa using hholds⟩
    cases hphase : state.consumer with
    | testLoop =>
        apply progresses_of_consumerStep (by rw [consumerStep, hphase])
        simp only [hphase]
        split_ifs <;> simp
    | locking =>
        apply progresses_of_consumerStep (by rw [consumerStep, hphase, if_pos hfree])
        simp [hphase]
    | wait waiting =>
        cases waiting with
        | blocked => exact (hawake hphase).elim
        | notified =>
            apply progresses_of_consumerStep (by rw [consumerStep, hphase, if_pos hfree])
            simp [hphase]
        | testing | blocking =>
            simp [hphase, ConsumerPhase.holdsMutex, WaitPhase.holdsMutex] at hholds
    | printing | clearing | unlocking => simp [hphase, ConsumerPhase.holdsMutex] at hholds
    | returned => exact (hreturned hphase).elim

theorem HandOffInvariant.not_blocked {count : ℤ} {state : State}
    (hinv : HandOffInvariant count state) (hnum : state.num ≠ 0)
    (hproducer : state.producer ≠ .notifying) : state.consumer ≠ .wait .blocked := by
  intro hblocked
  have hconsumer := hinv.consumer
  rw [hblocked] at hconsumer
  exact hconsumer.2.elim hnum hproducer

theorem HandOffInvariant.not_returned {count : ℤ} {state : State}
    (hinv : HandOffInvariant count state) (hnum : state.num ≠ 0)
    (hindex : (state.producerIndex : ℤ) < count) (hstored : state.producer.stored = 0) :
    state.consumer ≠ .returned := by
  intro hreturned
  have hconsumer := hinv.consumer
  have hslot := hinv.slot
  rw [hreturned] at hconsumer
  have hcount : count ≤ state.consumerIndex := hconsumer
  rcases hslot with ⟨hempty, _⟩ | ⟨_, hcounts⟩
  · exact hnum hempty
  · simp only [State.stores, State.clearings, hstored, hreturned, ConsumerPhase.cleared]
      at hcounts
    omega

/-- Once the producer's loop has ended, a sleeping consumer would have slept
through the last number. -/
theorem HandOffInvariant.not_blocked_of_loopEnded {count : ℤ} {state : State}
    (hinv : HandOffInvariant count state) (hended : state.producer.loopEnded = true) :
    state.consumer ≠ .wait .blocked := by
  intro hblocked
  have hproducer := hinv.producer
  have hconsumer := hinv.consumer
  have hslot := hinv.slot
  rw [hblocked] at hconsumer
  have hstored : state.producer.stored = 0 ∧ state.producer ≠ .notifying ∧
      count ≤ state.producerIndex := by
    cases hphase : state.producer with
    | joining | returned =>
        rw [hphase] at hproducer
        exact ⟨rfl, by simp, hproducer⟩
    | _ =>
        rw [hphase] at hended
        cases hended
  obtain ⟨hstored, hnotifying, hcount⟩ := hstored
  have hempty : state.num = 0 := hconsumer.2.resolve_right hnotifying
  have hindex : (state.consumerIndex : ℤ) < count := hconsumer.1
  rcases hslot with ⟨_, hcounts⟩ | ⟨hnum, hcounts⟩
  · simp only [State.stores, State.clearings, hstored, hblocked, ConsumerPhase.cleared]
      at hcounts
    omega
  · omega

theorem progresses_of_loop {count : ℤ} {state : State} (hinv : HandOffInvariant count state)
    (hnotBoth : ¬ state.BothLoopsEnded) : Progresses count state := by
  have hproducer := hinv.producer
  have hended : state.producer.loopEnded = true → Progresses count state := by
    intro hended
    have hawake := hinv.not_blocked_of_loopEnded hended
    have hreturned : state.consumer ≠ .returned := fun h => hnotBoth ⟨hended, h⟩
    refine progresses_of_consumer_awake ?_ hawake hreturned
    cases hphase : state.producer <;> rw [hphase] at hended <;>
      first | rfl | cases hended
  cases hphase : state.producer with
  | testLoop =>
      apply progresses_of_producerStep (by rw [producerStep, hphase])
      simp only [hphase]
      split_ifs <;> simp
  | polling =>
      by_cases hnum : state.num = 0
      · apply progresses_of_producerStep (by rw [producerStep, hphase])
        simp [hphase, State.shipment, hnum]
      · rw [hphase] at hproducer
        refine progresses_of_consumer_awake (by rw [hphase]; rfl)
          (hinv.not_blocked hnum (by simp [hphase])) ?_
        exact hinv.not_returned hnum hproducer (by rw [hphase]; rfl)
  | locking =>
      by_cases hholds : state.consumer.holdsMutex = true
      · exact progresses_of_consumer_holdsMutex hholds
      · have hfree : state.mutexFree = true :=
          mutexFree_iff.mpr ⟨by rw [hphase]; rfl, by simpa using hholds⟩
        apply progresses_of_producerStep (by rw [producerStep, hphase, if_pos hfree])
        simp [hphase]
  | storing | notifying | unlocking =>
      exact progresses_of_producerStep (by rw [producerStep, hphase]) (by simp [hphase])
  | joining | returned => exact hended (by rw [hphase]; rfl)

/-- In every reachable state the iterations of the consumer have printed the
numbers `1, 2, …` in this order, no store has met a full slot, and until both
loops have ended some thread can take a step other than polling a full slot. -/
theorem handOff (count : ℤ) {state : State} (hreach : (system count).Reachable state) :
    state.observed = expected state.printings ∧ state.overwritten = false ∧
      (¬ state.BothLoopsEnded → Progresses count state) := by
  have hinv := handOffInvariant_of_reachable hreach
  exact ⟨hinv.observed, hinv.kept, progresses_of_loop hinv⟩

/-- The consumer sleeps before each of the two numbers; in its second sleep the
first number is printed and the second one stored. -/
theorem handOff_secondSleep :
    ∃ state, (system 2).Reachable state ∧ state.consumer = .wait .blocked ∧
      state.num = 2 ∧ state.observed = expected 1 ∧ state.overwritten = false ∧
      Progresses 2 state := by
  obtain ⟨state, hrun, hsleep, hnum, hprintings, hnotBoth⟩ :
      ∃ state, (system 2).run initial
          (List.flatten [List.replicate 4 .consumer, List.replicate 6 .producer,
            List.replicate 9 .consumer, List.replicate 4 .producer]) = some state ∧
        state.consumer = .wait .blocked ∧ state.num = 2 ∧ state.printings = 1 ∧
        ¬ state.BothLoopsEnded :=
    ⟨_, rfl, by decide, by decide, by decide, by decide⟩
  obtain ⟨hobserved, hkept, hprogress⟩ := handOff 2 ⟨_, hrun⟩
  exact ⟨state, ⟨_, hrun⟩, hsleep, hnum, hprintings ▸ hobserved, hkept, hprogress hnotBoth⟩

end CppProj.OneSlotHandOff
