import CppProj.MutualExclusion
import CppProj.TransitionSystem
import CppProj.WeightedLists

/-!
# The producers and consumers of `condition_usage.cpp`

Each producer pushes five products, and each consumer waits for products for ever.
`notify_one` wakes one consumer, if any sleeps, and is called with the mutex held.
No consumer is left asleep while there are products, so every run comes to an end in
which all have been consumed.  By then all consumers sleep: `main` waits for them in
vain.
-/

namespace CppProj.ConditionUsage

open WeightedLists

inductive ProducerPhase where
  | locking
  | pushing
  | notifying
  | unlocking
  deriving DecidableEq

/-- In `testing` the predicate of the wait is evaluated. -/
inductive ConsumerPhase where
  | locking
  | testing
  | sleeping
  | consuming
  | unlocking
  deriving DecidableEq

/-- `i` is the loop variable of the producer. -/
inductive Thread where
  | producer (id i : ℕ) (phase : ProducerPhase)
  | consumer (phase : ConsumerPhase)
  deriving DecidableEq

def Thread.holdsMutex : Thread → Bool
  | .producer _ _ .locking | .consumer .locking | .consumer .sleeping => false
  | .producer _ _ .pushing | .producer _ _ .notifying | .producer _ _ .unlocking => true
  | .consumer .testing | .consumer .consuming | .consumer .unlocking => true

/-- `produced` and `consumed` list what has been pushed and popped so far. -/
structure State where
  threads : List Thread
  product : List ℕ
  produced : List ℕ
  consumed : List ℕ
  deriving DecidableEq

/-- Of the sleeping consumers, `notify_one` wakes the one at `woken`. -/
inductive Action where
  | thread (index woken : ℕ)
  | spuriousWakeup (index : ℕ)
  deriving DecidableEq

def initial (producers consumers : ℕ) : State where
  threads := (List.range producers).map (fun i => .producer (i + 1) 0 .locking) ++
    List.replicate consumers (.consumer .locking)
  product := []
  produced := []
  consumed := []

def State.moved (state : State) (index : ℕ) (thread : Thread) : State :=
  { state with threads := state.threads.set index thread }

def mutexFree (state : State) : Bool := noneHolds Thread.holdsMutex state.threads

def notifyOne (state : State) (woken : ℕ) : Option State :=
  if .consumer .sleeping ∈ state.threads then
    if state.threads[woken]? = some (.consumer .sleeping) then
      some (state.moved woken (.consumer .locking))
    else none
  else some state

def producerStep (state : State) (index woken id i : ℕ) : ProducerPhase → Option State
  | .locking =>
      if i < 5 ∧ mutexFree state = true then some (state.moved index (.producer id i .pushing))
      else none
  | .pushing =>
      some
        { state.moved index (.producer id i .notifying) with
          product := state.product ++ [id * 100 + i]
          produced := state.produced ++ [id * 100 + i] }
  | .notifying =>
      (notifyOne state woken).map fun next => next.moved index (.producer id i .unlocking)
  | .unlocking => some (state.moved index (.producer id (i + 1) .locking))

def consumerStep (state : State) (index : ℕ) : ConsumerPhase → Option State
  | .locking =>
      if mutexFree state = true then some (state.moved index (.consumer .testing)) else none
  | .testing =>
      if state.product.isEmpty then some (state.moved index (.consumer .sleeping))
      else some (state.moved index (.consumer .consuming))
  | .sleeping => none
  | .consuming =>
      match state.product with
      | prod :: rest =>
          some
            { state.moved index (.consumer .unlocking) with
              product := rest
              consumed := state.consumed ++ [prod] }
      | [] => some (state.moved index (.consumer .unlocking))
  | .unlocking => some (state.moved index (.consumer .locking))

def step (state : State) : Action → Option State
  | .thread index woken =>
      match state.threads[index]? with
      | some (.producer id i phase) => producerStep state index woken id i phase
      | some (.consumer phase) => consumerStep state index phase
      | none => none
  | .spuriousWakeup index =>
      if state.threads[index]? = some (.consumer .sleeping) then
        some (state.moved index (.consumer .locking))
      else none

def system (producers consumers : ℕ) : TransitionSystem State Action :=
  ⟨initial producers consumers, step⟩

/-! ## What a step does -/

inductive Moves (state : State) : Action → State → Prop where
  | lock {index woken id i : ℕ} (hget : state.threads[index]? = some (.producer id i .locking))
      (hlt : i < 5) (hfree : mutexFree state = true) :
      Moves state (.thread index woken) (state.moved index (.producer id i .pushing))
  | push {index woken id i : ℕ} (hget : state.threads[index]? = some (.producer id i .pushing)) :
      Moves state (.thread index woken)
        { state.moved index (.producer id i .notifying) with
          product := state.product ++ [id * 100 + i]
          produced := state.produced ++ [id * 100 + i] }
  | notify {index woken id i : ℕ}
      (hget : state.threads[index]? = some (.producer id i .notifying))
      (hwoken : state.threads[woken]? = some (.consumer .sleeping)) :
      Moves state (.thread index woken)
        ((state.moved woken (.consumer .locking)).moved index (.producer id i .unlocking))
  | notifyNobody {index woken id i : ℕ}
      (hget : state.threads[index]? = some (.producer id i .notifying))
      (hnobody : .consumer .sleeping ∉ state.threads) :
      Moves state (.thread index woken) (state.moved index (.producer id i .unlocking))
  | unlock {index woken id i : ℕ}
      (hget : state.threads[index]? = some (.producer id i .unlocking)) :
      Moves state (.thread index woken) (state.moved index (.producer id (i + 1) .locking))
  | wait {index woken : ℕ} (hget : state.threads[index]? = some (.consumer .locking))
      (hfree : mutexFree state = true) :
      Moves state (.thread index woken) (state.moved index (.consumer .testing))
  | sleep {index woken : ℕ} (hget : state.threads[index]? = some (.consumer .testing))
      (hempty : state.product = []) :
      Moves state (.thread index woken) (state.moved index (.consumer .sleeping))
  | take {index woken : ℕ} (hget : state.threads[index]? = some (.consumer .testing))
      (hproduct : state.product ≠ []) :
      Moves state (.thread index woken) (state.moved index (.consumer .consuming))
  | consume {index woken prod : ℕ} {rest : List ℕ}
      (hget : state.threads[index]? = some (.consumer .consuming))
      (hproduct : state.product = prod :: rest) :
      Moves state (.thread index woken)
        { state.moved index (.consumer .unlocking) with
          product := rest
          consumed := state.consumed ++ [prod] }
  | skip {index woken : ℕ} (hget : state.threads[index]? = some (.consumer .consuming))
      (hempty : state.product = []) :
      Moves state (.thread index woken) (state.moved index (.consumer .unlocking))
  | leave {index woken : ℕ} (hget : state.threads[index]? = some (.consumer .unlocking)) :
      Moves state (.thread index woken) (state.moved index (.consumer .locking))
  | spuriousWakeup {index : ℕ} (hget : state.threads[index]? = some (.consumer .sleeping)) :
      Moves state (.spuriousWakeup index) (state.moved index (.consumer .locking))

variable {producers consumers : ℕ} {state next : State}

theorem moves_of_producerStep {index woken id i : ℕ} {phase : ProducerPhase}
    (hget : state.threads[index]? = some (.producer id i phase))
    (hstep : producerStep state index woken id i phase = some next) :
    Moves state (.thread index woken) next := by
  cases phase with
  | locking =>
      dsimp only [producerStep] at hstep
      split_ifs at hstep with hfree
      cases hstep
      exact .lock hget hfree.1 hfree.2
  | pushing =>
      cases hstep
      exact .push hget
  | notifying =>
      obtain ⟨notified, hnotified, rfl⟩ := Option.map_eq_some_iff.mp hstep
      unfold notifyOne at hnotified
      split_ifs at hnotified with hsleeping hwoken
      · cases hnotified
        exact .notify hget hwoken
      · cases hnotified
        exact .notifyNobody hget hsleeping
  | unlocking =>
      cases hstep
      exact .unlock hget

theorem moves_of_consumerStep {index woken : ℕ} {phase : ConsumerPhase}
    (hget : state.threads[index]? = some (.consumer phase))
    (hstep : consumerStep state index phase = some next) :
    Moves state (.thread index woken) next := by
  cases phase with
  | locking =>
      dsimp only [consumerStep] at hstep
      split_ifs at hstep with hfree
      cases hstep
      exact .wait hget hfree
  | testing =>
      dsimp only [consumerStep] at hstep
      split_ifs at hstep with hempty
      · cases hstep
        exact .sleep hget (List.isEmpty_iff.mp hempty)
      · cases hstep
        exact .take hget (fun hnil => hempty (List.isEmpty_iff.mpr hnil))
  | sleeping => cases hstep
  | consuming =>
      dsimp only [consumerStep] at hstep
      split at hstep
      next prod rest hproduct =>
        cases hstep
        exact .consume hget hproduct
      next hempty =>
        cases hstep
        exact .skip hget hempty
  | unlocking =>
      cases hstep
      exact .leave hget

theorem moves_of_step {action : Action} (hstep : step state action = some next) :
    Moves state action next := by
  cases action with
  | thread index woken =>
      dsimp only [step] at hstep
      split at hstep
      next id i phase hget => exact moves_of_producerStep hget hstep
      next phase hget => exact moves_of_consumerStep hget hstep
      next => cases hstep
  | spuriousWakeup index =>
      dsimp only [step] at hstep
      split_ifs at hstep with hget
      cases hstep
      exact .spuriousWakeup hget

/-! ## The invariant -/

def Thread.role : Thread → Option ℕ
  | .producer id _ _ => some id
  | .consumer _ => none

/-- The producer that made a product. -/
def madeBy (id value : ℕ) : Bool := value / 100 = id

def Thread.made (i : ℕ) : ProducerPhase → ℕ
  | .locking | .pushing => i
  | .notifying | .unlocking => i + 1

/-- A thread that is going to look for products, or to wake one that is. -/
def Thread.stirs : Thread → Bool
  | .producer _ _ .notifying => true
  | .producer _ _ .locking | .producer _ _ .pushing | .producer _ _ .unlocking => false
  | .consumer .sleeping => false
  | .consumer .locking | .consumer .testing | .consumer .consuming | .consumer .unlocking => true

/-- Where a producer stands, and what it has pushed. -/
def Counts (produced : List ℕ) : Thread → Prop
  | .producer id i phase =>
      i ≤ 5 ∧ (phase ≠ .locking → i < 5) ∧
        produced.filter (madeBy id) =
          (List.range (Thread.made i phase)).map fun number => id * 100 + number
  | .consumer _ => True

structure Invariant (producers consumers : ℕ) (state : State) : Prop where
  roles : state.threads.map Thread.role =
    (List.range producers).map (fun i => some (i + 1)) ++ List.replicate consumers none
  exclusive : MutuallyExclusive Thread.holdsMutex state.threads
  fifo : state.consumed ++ state.product = state.produced
  counts : ∀ thread ∈ state.threads, Counts state.produced thread
  sources : ∀ value ∈ state.produced, 1 ≤ value / 100 ∧ value / 100 ≤ producers
  consuming : .consumer .consuming ∈ state.threads → state.product ≠ []
  stirring : state.product ≠ [] → ∃ thread ∈ state.threads, thread.stirs = true

theorem counts_initial {thread : Thread} (hmem : thread ∈ (initial producers consumers).threads) :
    Counts [] thread ∧ thread.holdsMutex = false ∧ thread ≠ .consumer .consuming := by
  rcases List.mem_append.mp hmem with hproducer | hconsumer
  · obtain ⟨i, _, rfl⟩ := List.mem_map.mp hproducer
    exact ⟨⟨Nat.zero_le 5, fun hne => absurd rfl hne, rfl⟩, rfl, Thread.noConfusion⟩
  · rw [List.eq_of_mem_replicate hconsumer]
    exact ⟨trivial, rfl, by decide⟩

theorem initial_invariant : Invariant producers consumers (initial producers consumers) where
  roles := by
    rw [initial, List.map_append, List.map_map, List.map_replicate]
    rfl
  exclusive := by
    intro left right first second hfirst hsecond hholds
    rw [(counts_initial (List.mem_of_getElem? hfirst)).2.1] at hholds
    cases hholds
  fifo := rfl
  counts := fun thread hmem => (counts_initial hmem).1
  sources := List.forall_mem_nil _
  consuming := fun hmem => absurd rfl (counts_initial hmem).2.2
  stirring := fun hne => absurd rfl hne

theorem mem_moved {index : ℕ} {old : Thread} (hget : state.threads[index]? = some old)
    (thread : Thread) : thread ∈ (state.moved index thread).threads :=
  List.mem_of_getElem? (ListUpdate.getElem?_set_self hget thread)

/-- Who is woken is not who notifies. -/
theorem getElem?_woken {index woken id i : ℕ} {phase : ProducerPhase}
    (hget : state.threads[index]? = some (.producer id i phase))
    (hwoken : state.threads[woken]? = some (.consumer .sleeping)) :
    (state.moved woken (.consumer .locking)).threads[index]? = some (.producer id i phase) := by
  refine (ListUpdate.getElem?_set_of_ne ?_ _).trans hget
  rintro rfl
  rw [hget] at hwoken
  cases hwoken

namespace Invariant

/-- The producers come first, in the order of their numbers. -/
theorem id_eq (hinv : Invariant producers consumers state) {index id i : ℕ}
    {phase : ProducerPhase} (hget : state.threads[index]? = some (.producer id i phase)) :
    id = index + 1 ∧ index < producers := by
  have hrole : (state.threads.map Thread.role)[index]? = some (some id) := by
    rw [List.getElem?_map, hget]
    rfl
  rw [hinv.roles] at hrole
  by_cases hlt : index < producers
  · rw [List.getElem?_append_left (by rw [List.length_map, List.length_range]; exact hlt),
      List.getElem?_map, List.getElem?_range hlt] at hrole
    cases hrole
    exact ⟨rfl, hlt⟩
  · have hmem : some id ∈ List.replicate consumers (none : Option ℕ) := by
      rw [List.getElem?_append_right (by rw [List.length_map, List.length_range]; omega),
        List.length_map, List.length_range] at hrole
      exact List.mem_of_getElem? hrole
    cases List.eq_of_mem_replicate hmem

/-- A thread other than the producer keeps its counts when that one pushes. -/
theorem counts_push (hinv : Invariant producers consumers state) {index other id i : ℕ}
    {thread : Thread} (hget : state.threads[index]? = some (.producer id i .pushing))
    (hother : state.threads[other]? = some thread) (hne : index ≠ other) :
    Counts (state.produced ++ [id * 100 + i]) thread := by
  have hcounts := hinv.counts _ (List.mem_of_getElem? hother)
  have hlt := (hinv.counts _ (List.mem_of_getElem? hget)).2.1 ProducerPhase.noConfusion
  cases thread with
  | consumer phase => trivial
  | producer otherId otherI phase =>
      obtain ⟨hupper, hrunning, hmade⟩ := hcounts
      have hid : madeBy otherId (id * 100 + i) = false := by
        have hleft := (hinv.id_eq hget).1
        have hright := (hinv.id_eq hother).1
        exact decide_eq_false (by omega)
      refine ⟨hupper, hrunning, ?_⟩
      rw [List.filter_append, hmade,
        List.filter_cons_of_neg (by rw [hid]; exact Bool.false_ne_true), List.filter_nil,
        List.append_nil]

theorem roles_set (hinv : Invariant producers consumers state) {index : ℕ} {old : Thread}
    (hget : state.threads[index]? = some old) (thread : Thread) (hrole : thread.role = old.role) :
    (state.threads.set index thread).map Thread.role =
      (List.range producers).map (fun i => some (i + 1)) ++ List.replicate consumers none :=
  (ListUpdate.map_set_of_eq hget hrole).trans hinv.roles

/-- A step that moves one thread and leaves the products alone. -/
theorem moved (hinv : Invariant producers consumers state) {index : ℕ} {old thread : Thread}
    (hget : state.threads[index]? = some old) (hrole : thread.role = old.role)
    (hmutex : thread.holdsMutex = true → old.holdsMutex = true ∨ mutexFree state = true)
    (hcounts : Counts state.produced thread)
    (hconsuming : thread = .consumer .consuming → state.product ≠ [])
    (hstirs : state.product ≠ [] → old.stirs = true → thread.stirs = true ∨
      ∃ other ∈ state.threads, other ≠ old ∧ other.stirs = true) :
    Invariant producers consumers (state.moved index thread) where
  roles := hinv.roles_set hget thread hrole
  exclusive := by
    change MutuallyExclusive Thread.holdsMutex (state.threads.set index thread)
    cases hholds : thread.holdsMutex with
    | false => exact hinv.exclusive.set_released index hholds
    | true =>
        rcases hmutex hholds with hheld | hfree
        · exact hinv.exclusive.set_held hget hheld thread
        · exact .set_acquired hfree index thread
  fifo := hinv.fifo
  counts := by
    intro other hmem
    rcases List.mem_or_eq_of_mem_set hmem with hold | rfl
    · exact hinv.counts other hold
    · exact hcounts
  sources := hinv.sources
  consuming := by
    intro hmem
    rcases List.mem_or_eq_of_mem_set hmem with hold | hself
    · exact hinv.consuming hold
    · exact hconsuming hself.symm
  stirring := by
    intro hproduct
    obtain ⟨stirring, hmem, hstirring⟩ := hinv.stirring hproduct
    by_cases hold : stirring = old
    · rw [hold] at hstirring
      rcases hstirs hproduct hstirring with hthread | ⟨other, hother, hne, hstirs⟩
      · exact ⟨thread, mem_moved hget thread, hthread⟩
      · exact ⟨other, ListUpdate.mem_set_of_ne hget hother hne thread, hstirs⟩
    · exact ⟨stirring, ListUpdate.mem_set_of_ne hget hmem hold thread, hstirring⟩

theorem push (hinv : Invariant producers consumers state) {index id i : ℕ}
    (hget : state.threads[index]? = some (.producer id i .pushing)) :
    Invariant producers consumers
      { state.moved index (.producer id i .notifying) with
        product := state.product ++ [id * 100 + i]
        produced := state.produced ++ [id * 100 + i] } where
  roles := hinv.roles_set hget (.producer id i .notifying) rfl
  exclusive := hinv.exclusive.set_held hget rfl _
  fifo := by
    dsimp only [State.moved]
    rw [← List.append_assoc, hinv.fifo]
  counts := by
    intro thread hmem
    obtain ⟨other, hother⟩ := List.mem_iff_getElem?.mp hmem
    rcases ListUpdate.getElem?_set_cases hother with ⟨_, rfl⟩ | ⟨hne, hbefore⟩
    · obtain ⟨hupper, hrunning, hmade⟩ := hinv.counts _ (List.mem_of_getElem? hget)
      have hlt := hrunning ProducerPhase.noConfusion
      refine ⟨hupper, fun _ => hlt, ?_⟩
      have hid : madeBy id (id * 100 + i) = true := decide_eq_true (by omega)
      change (state.produced ++ [id * 100 + i]).filter (madeBy id) =
        (List.range (i + 1)).map fun number => id * 100 + number
      rw [List.filter_append, hmade, List.filter_cons_of_pos hid, List.range_succ, List.map_append]
      rfl
    · exact hinv.counts_push hget hbefore hne
  sources := by
    intro value hmem
    rcases List.mem_append.mp hmem with hold | hnew
    · exact hinv.sources value hold
    · have hid := hinv.id_eq hget
      have hlt := (hinv.counts _ (List.mem_of_getElem? hget)).2.1 ProducerPhase.noConfusion
      rw [List.mem_singleton.mp hnew]
      omega
  consuming := fun _ hnil => List.cons_ne_nil _ _ (List.append_eq_nil_iff.mp hnil).2
  stirring := fun _ => ⟨_, mem_moved hget _, rfl⟩

theorem consume (hinv : Invariant producers consumers state) {index prod : ℕ} {rest : List ℕ}
    (hget : state.threads[index]? = some (.consumer .consuming))
    (hproduct : state.product = prod :: rest) :
    Invariant producers consumers
      { state.moved index (.consumer .unlocking) with
        product := rest
        consumed := state.consumed ++ [prod] } where
  roles := hinv.roles_set hget (.consumer .unlocking) rfl
  exclusive := hinv.exclusive.set_held hget rfl _
  fifo := by
    dsimp only [State.moved]
    rw [← hinv.fifo, hproduct, List.append_assoc]
    rfl
  counts := by
    intro thread hmem
    rcases List.mem_or_eq_of_mem_set hmem with hold | rfl
    · exact hinv.counts thread hold
    · trivial
  sources := hinv.sources
  consuming := by
    intro hmem
    obtain ⟨other, hother⟩ := List.mem_iff_getElem?.mp hmem
    rcases ListUpdate.getElem?_set_cases hother with ⟨_, hself⟩ | ⟨hne, hbefore⟩
    · cases hself
    · exact absurd (hinv.exclusive index other _ _ hget hbefore rfl rfl) hne
  stirring := fun _ => ⟨_, mem_moved hget _, rfl⟩

/-- A notification that finds no sleeping consumer finds one that is awake. -/
theorem exists_awake (hinv : Invariant producers consumers state) (hconsumers : 0 < consumers)
    (hnobody : .consumer .sleeping ∉ state.threads) :
    ∃ phase, .consumer phase ∈ state.threads ∧ (Thread.consumer phase).stirs = true := by
  have hnone : none ∈ state.threads.map Thread.role := by
    rw [hinv.roles]
    exact List.mem_append_right _ (List.mem_replicate.mpr ⟨Nat.ne_of_gt hconsumers, rfl⟩)
  obtain ⟨thread, hmem, hrole⟩ := List.mem_map.mp hnone
  cases thread with
  | producer id i phase => cases hrole
  | consumer phase =>
      refine ⟨phase, hmem, ?_⟩
      cases phase with
      | sleeping => exact absurd hmem hnobody
      | locking => rfl
      | testing => rfl
      | consuming => rfl
      | unlocking => rfl

theorem wake (hinv : Invariant producers consumers state) {index : ℕ}
    (hget : state.threads[index]? = some (.consumer .sleeping)) :
    Invariant producers consumers (state.moved index (.consumer .locking)) :=
  hinv.moved hget rfl Bool.noConfusion trivial
        (fun hself => absurd hself (by decide)) fun _ => Bool.noConfusion

theorem notified (hinv : Invariant producers consumers state) {index id i : ℕ}
    (hget : state.threads[index]? = some (.producer id i .notifying))
    (hawake : ∃ phase, .consumer phase ∈ state.threads ∧
      (Thread.consumer phase).stirs = true) :
    Invariant producers consumers (state.moved index (.producer id i .unlocking)) := by
  obtain ⟨phase, hmem, hstirs⟩ := hawake
  obtain ⟨hupper, hrunning, hmade⟩ := hinv.counts _ (List.mem_of_getElem? hget)
  refine hinv.moved hget rfl (fun _ => .inl rfl) ?_ Thread.noConfusion ?_
  · exact ⟨hupper, fun _ => hrunning ProducerPhase.noConfusion, hmade⟩
  · exact fun _ _ => .inr ⟨.consumer phase, hmem, Thread.noConfusion, hstirs⟩

theorem notify (hinv : Invariant producers consumers state) {index woken id i : ℕ}
    (hget : state.threads[index]? = some (.producer id i .notifying))
    (hwoken : state.threads[woken]? = some (.consumer .sleeping)) :
    Invariant producers consumers
      ((state.moved woken (.consumer .locking)).moved index (.producer id i .unlocking)) :=
  (hinv.wake hwoken).notified (getElem?_woken hget hwoken) ⟨.locking, mem_moved hwoken _, rfl⟩

theorem step {action : Action} (hinv : Invariant producers consumers state)
    (hconsumers : 0 < consumers) (hmoves : Moves state action next) :
    Invariant producers consumers next := by
  cases hmoves with
  | lock hget hlt hfree =>
      obtain ⟨hupper, -, hmade⟩ := hinv.counts _ (List.mem_of_getElem? hget)
      exact hinv.moved hget rfl (fun _ => .inr hfree) ⟨hupper, fun _ => hlt, hmade⟩
        Thread.noConfusion fun _ => Bool.noConfusion
  | push hget => exact hinv.push hget
  | notify hget hwoken => exact hinv.notify hget hwoken
  | notifyNobody hget hnobody =>
      exact hinv.notified hget (hinv.exists_awake hconsumers hnobody)
  | unlock hget =>
      obtain ⟨-, hrunning, hmade⟩ := hinv.counts _ (List.mem_of_getElem? hget)
      have hlt := hrunning ProducerPhase.noConfusion
      exact hinv.moved hget rfl Bool.noConfusion ⟨hlt, fun hne => absurd rfl hne, hmade⟩
        Thread.noConfusion fun _ => Bool.noConfusion
  | wait hget hfree =>
      exact hinv.moved hget rfl (fun _ => .inr hfree) trivial
        (fun hself => absurd hself (by decide)) fun _ _ => .inl rfl
  | sleep hget hempty =>
      exact hinv.moved hget rfl Bool.noConfusion trivial
        (fun hself => absurd hself (by decide)) fun hne => absurd hempty hne
  | take hget hproduct =>
      exact hinv.moved hget rfl (fun _ => .inl rfl) trivial (fun _ => hproduct)
        fun _ _ => .inl rfl
  | consume hget hproduct => exact hinv.consume hget hproduct
  | skip hget hempty =>
      exact hinv.moved hget rfl (fun _ => .inl rfl) trivial
        (fun hself => absurd hself (by decide)) fun _ _ => .inl rfl
  | leave hget =>
      exact hinv.moved hget rfl Bool.noConfusion trivial
        (fun hself => absurd hself (by decide)) fun _ _ => .inl rfl
  | spuriousWakeup hget => exact hinv.wake hget

theorem of_run (hconsumers : 0 < consumers) {actions : List Action} {final : State}
    (hrun : (system producers consumers).run (initial producers consumers) actions =
      some final) : Invariant producers consumers final :=
  TransitionSystem.run_preserves (Invariant producers consumers)
    (fun _ _ _ hinv hstep => hinv.step hconsumers (moves_of_step hstep)) initial_invariant hrun

end Invariant

/-! ## The order of the products -/

theorem Invariant.exists_producer (hinv : Invariant producers consumers state) {id : ℕ}
    (hlower : 1 ≤ id) (hupper : id ≤ producers) :
    ∃ i phase, .producer id i phase ∈ state.threads := by
  have hrole : some id ∈ state.threads.map Thread.role := by
    rw [hinv.roles]
    refine List.mem_append_left _ (List.mem_map.mpr ⟨id - 1, List.mem_range.mpr (by omega), ?_⟩)
    rw [Nat.sub_add_cancel hlower]
  obtain ⟨thread, hmem, hthread⟩ := List.mem_map.mp hrole
  cases thread with
  | consumer phase => cases hthread
  | producer other i phase =>
      cases hthread
      exact ⟨i, phase, hmem⟩

theorem made_le {i : ℕ} {phase : ProducerPhase} (hupper : i ≤ 5)
    (hrunning : phase ≠ .locking → i < 5) : Thread.made i phase ≤ 5 := by
  cases phase with
  | locking => exact hupper
  | pushing => exact hupper
  | notifying => exact hrunning ProducerPhase.noConfusion
  | unlocking => exact hrunning ProducerPhase.noConfusion

/-- Whatever the threads do, products are consumed in the order in which they were
pushed, and of each producer the first ones of its five. -/
theorem consumed_of_run (hconsumers : 0 < consumers) {actions : List Action} {final : State}
    (hrun : (system producers consumers).run (initial producers consumers) actions =
      some final) :
    final.consumed <+: final.produced ∧
      (∀ value ∈ final.consumed, 1 ≤ value / 100 ∧ value / 100 ≤ producers) ∧
      ∀ id, 1 ≤ id → id ≤ producers → final.consumed.filter (madeBy id) <+:
        (List.range 5).map fun number => id * 100 + number := by
  have hinv := Invariant.of_run hconsumers hrun
  have hconsumed : final.consumed <+: final.produced := ⟨final.product, hinv.fifo⟩
  refine ⟨hconsumed, fun value hmem => hinv.sources value (hconsumed.subset hmem), ?_⟩
  intro id hlower hupper
  obtain ⟨i, phase, hmem⟩ := hinv.exists_producer hlower hupper
  obtain ⟨hi, hrunning, hmade⟩ := hinv.counts _ hmem
  have hrange : List.range (Thread.made i phase) <+: List.range 5 := by
    have htake := List.take_prefix (Thread.made i phase) (List.range 5)
    rw [List.take_range, Nat.min_eq_left (made_le hi hrunning)] at htake
    exact htake
  have hfilter := hconsumed.filter (madeBy id)
  rw [hmade] at hfilter
  exact hfilter.trans (hrange.map _)

/-- One producer and one consumer, which is asleep whenever a product comes. -/
def oneEach : List Action :=
  [.thread 1 0, .thread 1 0] ++
    (List.replicate 5 (List.replicate 4 (.thread 0 1) ++ List.replicate 6 (.thread 1 0))).flatten

def afterOneEach : State := ((system 1 1).run (initial 1 1) oneEach).getD (initial 1 1)

theorem consumed_of_run_oneEach :
    afterOneEach.consumed <+: afterOneEach.produced ∧
      (∀ value ∈ afterOneEach.consumed, 1 ≤ value / 100 ∧ value / 100 ≤ 1) ∧
      ∀ id, 1 ≤ id → id ≤ 1 → afterOneEach.consumed.filter (madeBy id) <+:
        (List.range 5).map fun number => id * 100 + number :=
  @consumed_of_run 1 1 Nat.one_pos oneEach afterOneEach rfl

/-! ## The end -/

def Action.isSpurious : Action → Bool
  | .thread _ _ => false
  | .spuriousWakeup _ => true

/-- The steps that a thread may take, apart from those that each product costs its
consumer. -/
def threadSteps : Thread → ℕ
  | .producer _ i .locking => 10 * (5 - i)
  | .producer _ i .pushing => 10 * (5 - i) - 1
  | .producer _ i .notifying => 10 * (5 - i) - 6
  | .producer _ i .unlocking => 10 * (5 - i) - 9
  | .consumer .locking => 2
  | .consumer .testing => 1
  | .consumer .sleeping | .consumer .consuming => 0
  | .consumer .unlocking => 3

def State.stepsLeft (state : State) : ℕ :=
  weight threadSteps state.threads + 4 * state.product.length

theorem stepsLeft_initial :
    (initial producers consumers).stepsLeft ≤ 50 * producers + 2 * consumers := by
  have hproducers : weight threadSteps ((List.range producers).map fun i =>
      .producer (i + 1) 0 .locking) ≤ 50 * ((List.range producers).map fun i =>
      Thread.producer (i + 1) 0 .locking).length := by
    refine weight_le_mul_length fun thread hmem => ?_
    obtain ⟨i, _, rfl⟩ := List.mem_map.mp hmem
    exact Nat.le_refl 50
  have hconsumers : weight threadSteps (List.replicate consumers (.consumer .locking)) ≤
      2 * (List.replicate consumers (Thread.consumer .locking)).length := by
    refine weight_le_mul_length fun thread hmem => ?_
    rw [List.eq_of_mem_replicate hmem]
    exact Nat.le_refl 2
  rw [List.length_map, List.length_range] at hproducers
  rw [List.length_replicate] at hconsumers
  change weight threadSteps (_ ++ _) + 0 ≤ _
  rw [weight_append]
  omega

/-- A thread that moves changes what is left by its own share. -/
theorem stepsLeft_moved {index : ℕ} {old : Thread} (hget : state.threads[index]? = some old)
    (thread : Thread) :
    (state.moved index thread).stepsLeft + threadSteps old =
      state.stepsLeft + threadSteps thread := by
  have hset := weight_set threadSteps hget thread
  dsimp only [State.stepsLeft, State.moved]
  omega

/-- Each step of a thread lowers what is left. -/
theorem stepsLeft_step {index woken : ℕ} (hinv : Invariant producers consumers state)
    (hmoves : Moves state (.thread index woken) next) : next.stepsLeft + 1 ≤ state.stepsLeft := by
  have hrunning {id i : ℕ} {phase : ProducerPhase}
      (hget : state.threads[index]? = some (.producer id i phase)) (hphase : phase ≠ .locking) :
      i < 5 := (hinv.counts _ (List.mem_of_getElem? hget)).2.1 hphase
  cases hmoves with
  | @lock _ _ id i hget hlt hfree =>
      have hmoved := stepsLeft_moved hget (.producer id i .pushing)
      dsimp only [threadSteps] at hmoved
      omega
  | @push _ _ id i hget =>
      have hlt := hrunning hget ProducerPhase.noConfusion
      have hset := weight_set threadSteps hget (.producer id i .notifying)
      dsimp only [threadSteps, State.stepsLeft, State.moved] at hset ⊢
      rw [List.length_append, List.length_singleton]
      omega
  | @notify _ _ id i hget hwoken =>
      have hlt := hrunning hget ProducerPhase.noConfusion
      have hwake := stepsLeft_moved hwoken (.consumer .locking)
      have hmoved := stepsLeft_moved (getElem?_woken hget hwoken) (.producer id i .unlocking)
      dsimp only [threadSteps] at hwake hmoved
      omega
  | @notifyNobody _ _ id i hget hnobody =>
      have hlt := hrunning hget ProducerPhase.noConfusion
      have hmoved := stepsLeft_moved hget (.producer id i .unlocking)
      dsimp only [threadSteps] at hmoved
      omega
  | @unlock _ _ id i hget =>
      have hlt := hrunning hget ProducerPhase.noConfusion
      have hmoved := stepsLeft_moved hget (.producer id (i + 1) .locking)
      dsimp only [threadSteps] at hmoved
      omega
  | wait hget hfree =>
      have hmoved := stepsLeft_moved hget (.consumer .testing)
      dsimp only [threadSteps] at hmoved
      omega
  | sleep hget hempty =>
      have hmoved := stepsLeft_moved hget (.consumer .sleeping)
      dsimp only [threadSteps] at hmoved
      omega
  | take hget hproduct =>
      have hmoved := stepsLeft_moved hget (.consumer .consuming)
      dsimp only [threadSteps] at hmoved
      omega
  | consume hget hproduct =>
      have hset := weight_set threadSteps hget (.consumer .unlocking)
      dsimp only [threadSteps, State.stepsLeft, State.moved] at hset ⊢
      rw [hproduct, List.length_cons]
      omega
  | skip hget hempty => exact absurd hempty (hinv.consuming (List.mem_of_getElem? hget))
  | leave hget =>
      have hmoved := stepsLeft_moved hget (.consumer .locking)
      dsimp only [threadSteps] at hmoved
      omega

/-- The thread that holds the mutex can go on. -/
theorem exists_step_of_holds {index : ℕ} {thread : Thread}
    (hget : state.threads[index]? = some thread) (hholds : thread.holdsMutex = true) :
    ∃ woken next, step state (.thread index woken) = some next := by
  cases thread with
  | producer id i phase =>
      cases phase with
      | locking => cases hholds
      | pushing => exact ⟨0, _, by rw [step, hget]; rfl⟩
      | notifying =>
          by_cases hsleeping : .consumer .sleeping ∈ state.threads
          · obtain ⟨woken, hwoken⟩ := List.mem_iff_getElem?.mp hsleeping
            refine ⟨woken,
              (state.moved woken (.consumer .locking)).moved index (.producer id i .unlocking), ?_⟩
            rw [step, hget]
            dsimp only [producerStep, notifyOne]
            rw [if_pos hsleeping, if_pos hwoken]
            rfl
          · refine ⟨0, state.moved index (.producer id i .unlocking), ?_⟩
            rw [step, hget]
            dsimp only [producerStep, notifyOne]
            rw [if_neg hsleeping]
            rfl
      | unlocking => exact ⟨0, _, by rw [step, hget]; rfl⟩
  | consumer phase =>
      cases phase with
      | locking => cases hholds
      | sleeping => cases hholds
      | testing =>
          by_cases hempty : state.product.isEmpty = true
          · exact ⟨0, _, by rw [step, hget]; exact if_pos hempty⟩
          · exact ⟨0, _, by rw [step, hget]; exact if_neg hempty⟩
      | consuming =>
          cases hproduct : state.product with
          | nil => exact ⟨0, _, by rw [step, hget]; dsimp only [consumerStep]; rw [hproduct]⟩
          | cons prod rest =>
              exact ⟨0, _, by rw [step, hget]; dsimp only [consumerStep]; rw [hproduct]⟩
      | unlocking => exact ⟨0, _, by rw [step, hget]; rfl⟩

/-- Where no thread can go on, the producers are done and the consumers sleep. -/
theorem ended_of_stuck (hinv : Invariant producers consumers state)
    (hstuck : ∀ index woken, step state (.thread index woken) = none) :
    ∀ thread ∈ state.threads,
      thread = .consumer .sleeping ∨ ∃ id, thread = .producer id 5 .locking := by
  have hfree : mutexFree state = true := by
    refine noneHolds_iff.mpr fun thread hmem => Bool.eq_false_iff.mpr fun hholds => ?_
    obtain ⟨index, hget⟩ := List.mem_iff_getElem?.mp hmem
    obtain ⟨woken, next, hstep⟩ := exists_step_of_holds hget hholds
    rw [hstuck] at hstep
    cases hstep
  intro thread hmem
  obtain ⟨index, hget⟩ := List.mem_iff_getElem?.mp hmem
  have hholds := not_holds_of_noneHolds hfree hget
  have hnone := hstuck index 0
  rw [step, hget] at hnone
  cases thread with
  | producer id i phase =>
      cases phase with
      | locking =>
          have hupper := (hinv.counts _ hmem).1
          have hdone : ¬ i < 5 := by
            intro hlt
            dsimp only [producerStep] at hnone
            rw [if_pos ⟨hlt, hfree⟩] at hnone
            cases hnone
          have hfive : i = 5 := by omega
          exact .inr ⟨id, by rw [hfive]⟩
      | pushing => cases hholds
      | notifying => cases hholds
      | unlocking => cases hholds
  | consumer phase =>
      cases phase with
      | locking =>
          dsimp only [consumerStep] at hnone
          rw [if_pos hfree] at hnone
          cases hnone
      | sleeping => exact .inl rfl
      | testing => cases hholds
      | consuming => cases hholds
      | unlocking => cases hholds

/-- Without spurious wakeups every run ends, and where no thread can go on, all
products have been consumed and all consumers sleep. -/
theorem ended_of_run (hconsumers : 0 < consumers) {actions : List Action} {final : State}
    (hwakeups : ∀ action ∈ actions, action.isSpurious = false)
    (hrun : (system producers consumers).run (initial producers consumers) actions =
      some final) :
    actions.length ≤ 50 * producers + 2 * consumers ∧
      ((∀ index woken, step final (.thread index woken) = none) →
        final.product = [] ∧
          (∀ thread ∈ final.threads,
            thread = .consumer .sleeping ∨ ∃ id, thread = .producer id 5 .locking) ∧
          ∀ id, 1 ≤ id → id ≤ producers → final.consumed.filter (madeBy id) =
            (List.range 5).map fun number => id * 100 + number) := by
  constructor
  · have hcount := TransitionSystem.run_countP_le (Invariant producers consumers)
      State.stepsLeft (fun _ => true)
      (fun before action after hbefore hcondition hstep => by
        refine ⟨hbefore.step hconsumers (moves_of_step hstep), ?_⟩
        cases action with
        | thread index woken => exact stepsLeft_step hbefore (moves_of_step hstep)
        | spuriousWakeup index => cases hcondition)
      initial_invariant (TransitionSystem.stepsMeet_of_forall_mem hwakeups _) hrun
    have hinitial := @stepsLeft_initial producers consumers
    rw [List.countP_true] at hcount
    omega
  · intro hstuck
    have hinv := Invariant.of_run hconsumers hrun
    have hended := ended_of_stuck hinv hstuck
    have hproduct : final.product = [] := by
      by_contra hne
      obtain ⟨thread, hmem, hstirs⟩ := hinv.stirring hne
      rcases hended thread hmem with rfl | ⟨id, rfl⟩
      · cases hstirs
      · cases hstirs
    refine ⟨hproduct, hended, ?_⟩
    intro id hlower hupper
    obtain ⟨i, phase, hmem⟩ := hinv.exists_producer hlower hupper
    have hmade := (hinv.counts _ hmem).2.2
    have hfifo := hinv.fifo
    rw [hproduct, List.append_nil] at hfifo
    rcases hended _ hmem with hsleeping | ⟨_, hdone⟩
    · cases hsleeping
    · cases hdone
      rw [hfifo]
      exact hmade

theorem ended_of_run_oneEach :
    oneEach.length = 52 ∧ 52 ≤ 50 * 1 + 2 * 1 ∧ afterOneEach.product = [] ∧
      (∀ thread ∈ afterOneEach.threads,
        thread = .consumer .sleeping ∨ ∃ id, thread = .producer id 5 .locking) ∧
      ∀ id, 1 ≤ id → id ≤ 1 → afterOneEach.consumed.filter (madeBy id) =
        (List.range 5).map fun number => id * 100 + number := by
  have hended := @ended_of_run 1 1 Nat.one_pos oneEach afterOneEach (by decide) rfl
  refine ⟨rfl, hended.1, hended.2 ?_⟩
  intro index woken
  rcases index with _ | _ | index
  · rfl
  · rfl
  · rfl

end CppProj.ConditionUsage
