import CppProj.SmartPtrHeap

/-!
# When the counts of `SmartPtr` are right

Each operation releases one object and adds one, or does one of the two.  The
counts stay right as long as `Detach` finds no payload, the 32-bit result of
`Release` is zero only for the last object, and the count does not wrap around.
Any other operation breaks them at once.
-/

namespace CppProj.SmartPtr

/-- What holds after every operation. -/
structure Sound (state : State) : Prop where
  defined : state.undefined = false
  counted : ∀ reference counter, state.counters[reference]? = some counter →
    (counter.freed = 0 → counter.count.toNat = referrers (live state.objects) reference) ∧
    (counter.freed ≠ 0 → referrers (live state.objects) reference = 0)
  deletedOnce : state.deleted.Nodup
  kept : ∀ object ∈ live state.objects, ∀ address, object.data = some address →
    address ∉ state.deleted
  released : live state.objects = [] →
    (∀ address ∈ state.given, address ∉ state.detached → address ∈ state.deleted) ∧
    ∀ counter ∈ state.counters, counter.freed = 1

/-- `Release` returns zero only for the last object of the counter. -/
def ReleasesExactly (state : State) (object : Object) : Prop :=
  ∀ counter ∈ state.counters[object.reference]?, counter.released = 0 → counter.count = 1

def HasRoom (state : State) (object : Object) : Prop :=
  ∀ counter ∈ state.counters[object.reference]?, counter.count + 1 ≠ 0

instance (state : State) (object : Object) : Decidable (ReleasesExactly state object) :=
  inferInstanceAs (Decidable (∀ counter ∈ state.counters[object.reference]?,
    counter.released = 0 → counter.count = 1))

instance (state : State) (object : Object) : Decidable (HasRoom state object) :=
  inferInstanceAs (Decidable (∀ counter ∈ state.counters[object.reference]?,
    counter.count + 1 ≠ 0))

def KeepsCounts (state : State) : Action → Prop
  | .construct | .constructRaw _ => True
  | .constructCopy source => ∀ object ∈ state.object source, HasRoom state object
  | .assign target source =>
      target ≠ source → ∀ object ∈ state.object target, ∀ other ∈ state.object source,
        ReleasesExactly state object ∧
          (object.reference ≠ other.reference → HasRoom state other)
  | .assignRaw target _ | .attach target _ | .destroy target =>
      ∀ object ∈ state.object target, ReleasesExactly state object
  | .detach target => ∀ object ∈ state.object target, object.data = none

instance (state : State) (action : Action) : Decidable (KeepsCounts state action) := by
  cases action <;> unfold KeepsCounts <;> infer_instance

structure PointerInvariant (state : State) : Prop where
  defined : state.undefined = false
  heap : HeapInvariant (live state.objects) state.counters state.deleted state.given
  detached : state.detached = []

theorem initial_pointerInvariant : PointerInvariant initial := by
  refine ⟨rfl, ?_, rfl⟩
  constructor <;> simp [initial, live]

theorem PointerInvariant.sound {state : State} (hinv : PointerInvariant state) : Sound state := by
  refine ⟨hinv.defined, ?_, hinv.heap.once, ?_, ?_⟩
  · intro reference counter hcounter
    rcases hinv.heap.counted reference counter hcounter with ⟨hlive, hcounted, _⟩ |
      ⟨hfreed, hnone⟩
    · exact ⟨fun _ => hcounted, fun h => (h hlive).elim⟩
    · exact ⟨fun h => by omega, fun _ => hnone⟩
  · exact fun object hmem address hdata => (hinv.heap.kept object hmem address hdata).2
  · intro hnobody
    constructor
    · intro address hgiven _
      apply (hinv.heap.accounted address hgiven).resolve_right
      rw [hnobody]
      simp
    · intro counter hmem
      obtain ⟨reference, hget⟩ := List.mem_iff_getElem?.mp hmem
      rcases hinv.heap.counted reference counter hget with ⟨_, _, hpos⟩ | ⟨hfreed, _⟩
      · rw [hnobody] at hpos
        exact (Nat.lt_irrefl 0 hpos).elim
      · exact hfreed

theorem forall_mem_of_eq_some {α : Type} {p : α → Prop} {option : Option α} {value : α}
    (hvalue : option = some value) (hholds : p value) : ∀ found ∈ option, p found := by
  intro found hfound
  exact Option.mem_unique hvalue hfound ▸ hholds

/-! ## Releasing an object -/

variable {state next : State} {object other : Object} {rest : List Object}

theorem object_eq_some_iff {index : ℕ} :
    state.object index = some object ↔ state.objects[index]? = some (some object) := by
  rw [State.object, Option.join_eq_some_iff]

theorem release_objects (state : State) (object : Object) :
    (state.release object).objects = state.objects ∧
      (state.release object).given = state.given ∧
      (state.release object).detached = state.detached := by
  unfold State.release
  split
  · split_ifs <;> exact ⟨rfl, rfl, rfl⟩
  · exact ⟨rfl, rfl, rfl⟩

theorem release_of_exact (hheap : HeapInvariant (object :: rest) state.counters state.deleted
      state.given) (hexact : ReleasesExactly state object) :
    HeapInvariant rest (state.release object).counters (state.release object).deleted
        state.given ∧
      (state.release object).undefined = state.undefined := by
  obtain ⟨counter, hget, hlive⟩ := hheap.referred object List.mem_cons_self
  by_cases hcount : counter.count = 1
  · have hreleased : counter.released = 0 := by
      rw [KRefCount.released, hcount]
      rfl
    simp only [State.release, hget, hlive, if_true, hreleased]
    exact ⟨hlive ▸ hheap.releaseLast hget hlive hcount, trivial⟩
  · have hreleased : counter.released ≠ 0 := fun h => hcount (hexact counter hget h)
    simp only [State.release, hget, hlive, if_true, if_neg hreleased]
    exact ⟨hlive ▸ hheap.releaseShared hget hlive hcount, trivial⟩

/-- A zero that `Release` returns too early frees the counter under the other
objects. -/
theorem release_of_not_exact (hheap : HeapInvariant (object :: rest) state.counters
      state.deleted state.given) (hnotExact : ¬ ReleasesExactly state object) :
    0 < referrers rest object.reference ∧
      ∃ counter, (state.release object).counters[object.reference]? = some counter ∧
        counter.freed = 1 := by
  obtain ⟨counter, hget, hlive⟩ := hheap.referred object List.mem_cons_self
  have hearly : counter.released = 0 ∧ counter.count ≠ 1 := by
    by_contra hnone
    refine hnotExact (forall_mem_of_eq_some hget ?_)
    intro hreleased
    by_contra hcount
    exact hnone ⟨hreleased, hcount⟩
  constructor
  · rcases hheap.counted _ counter hget with ⟨_, hcounted, _⟩ | ⟨hfreed, _⟩
    · rw [referrers_cons, if_pos rfl] at hcounted
      by_contra hnone
      apply hearly.2
      rw [← UInt64.toNat_inj, hcounted]
      have hone : (1 : UInt64).toNat = 1 := rfl
      omega
    · omega
  · simp only [State.release, hget, hlive, if_true, hearly.1]
    exact ⟨_, ListUpdate.getElem?_set_self hget _, rfl⟩

theorem heap_of_object (hinv : PointerInvariant state) {index : ℕ}
    (hget : state.object index = some object) :
    HeapInvariant (object :: live (state.objects.set index none)) state.counters state.deleted
      state.given :=
  hinv.heap.perm (live_set_none (object_eq_some_iff.mp hget))

theorem mem_live_set_none {index source : ℕ} (hne : index ≠ source)
    (hget : state.object source = some other) : other ∈ live (state.objects.set index none) := by
  rw [mem_live]
  apply List.mem_of_getElem? (i := source)
  rw [ListUpdate.getElem?_set_of_ne hne]
  exact object_eq_some_iff.mp hget

theorem length_of_object {index : ℕ} (hget : state.object index = some object) :
    index < state.objects.length :=
  (List.getElem?_eq_some_iff.mp (object_eq_some_iff.mp hget)).1

/-- `AddRef` for an object that another one shares its counter with. -/
theorem addRef_of_room (hheap : HeapInvariant rest state.counters state.deleted state.given)
    (hmem : object ∈ rest) (hroom : HasRoom state object) :
    HeapInvariant (object :: rest) (state.addRef object.reference).counters
        (state.addRef object.reference).deleted (state.addRef object.reference).given ∧
      (state.addRef object.reference).undefined = state.undefined ∧
      (state.addRef object.reference).detached = state.detached := by
  obtain ⟨counter, hget, hlive⟩ := hheap.referred object hmem
  simp only [State.addRef, hget, hlive, if_true]
  exact ⟨hlive ▸ hheap.copy hmem hget (hroom counter hget), trivial, trivial⟩

theorem addRef_objects (state : State) (reference : ℕ) :
    (state.addRef reference).objects = state.objects := by
  unfold State.addRef
  split
  · split_ifs <;> rfl
  · rfl

/-! ## The operations -/

theorem PointerInvariant.constructFrom (hinv : PointerInvariant state) {value : Option ℕ}
    (hfresh : state.Fresh value) : PointerInvariant (state.constructFrom value) := by
  refine ⟨hinv.defined, ?_, hinv.detached⟩
  exact (hinv.heap.fresh hfresh).perm (live_append _ _).symm

theorem PointerInvariant.constructCopy (hinv : PointerInvariant state) {source : ℕ}
    (hget : state.object source = some object) (hroom : HasRoom state object) :
    PointerInvariant ((state.addObject object).addRef object.reference) := by
  have hmem : object ∈ live state.objects := by
    rw [mem_live]
    exact List.mem_of_getElem? (object_eq_some_iff.mp hget)
  have hheap : HeapInvariant (live state.objects) (state.addObject object).counters
      (state.addObject object).deleted (state.addObject object).given := hinv.heap
  obtain ⟨hcopied, hdefined, hdetached⟩ := addRef_of_room hheap hmem hroom
  refine ⟨hdefined.trans hinv.defined, ?_, hdetached.trans hinv.detached⟩
  rw [addRef_objects]
  exact hcopied.perm (live_append _ _).symm

theorem PointerInvariant.destroy (hinv : PointerInvariant state) {target : ℕ}
    (hget : state.object target = some object) (hexact : ReleasesExactly state object) :
    PointerInvariant ((state.release object).setObject target none) := by
  obtain ⟨hobjects, hgiven, hdetached⟩ := release_objects state object
  obtain ⟨hheap, hdefined⟩ := release_of_exact (heap_of_object hinv hget) hexact
  refine ⟨hdefined.trans hinv.defined, ?_, hdetached.trans hinv.detached⟩
  simp only [State.setObject, hobjects, hgiven]
  exact hheap

theorem PointerInvariant.replaceRaw (hinv : PointerInvariant state) {target : ℕ}
    {value : Option ℕ} (hget : state.object target = some object)
    (hexact : ReleasesExactly state object) (hfresh : state.Fresh value) :
    PointerInvariant (state.replaceRaw target object value) := by
  obtain ⟨hobjects, hgiven, hdetached⟩ := release_objects state object
  obtain ⟨hheap, hdefined⟩ := release_of_exact (heap_of_object hinv hget) hexact
  refine ⟨hdefined.trans hinv.defined, ?_, hdetached.trans hinv.detached⟩
  simp only [State.replaceRaw, State.setObject, State.newReference, hobjects, hgiven]
  exact (hheap.fresh hfresh).perm (live_set_some (length_of_object hget) _).symm

/-- After the release of another object the counter has still room. -/
theorem hasRoom_release (hheap : HeapInvariant (object :: rest) state.counters state.deleted
      state.given)
    (hroom : object.reference ≠ other.reference → HasRoom state other) :
    HasRoom (state.release object) other := by
  obtain ⟨counter, hget, hlive⟩ := hheap.referred object List.mem_cons_self
  have hpos : 0 < counter.count.toNat := by
    rcases hheap.counted _ counter hget with ⟨_, hcounted, hreferred⟩ | ⟨hfreed, _⟩
    · omega
    · omega
  have hback : counter.count - 1 + 1 ≠ 0 := by
    rw [UInt64.sub_add_cancel]
    rintro hzero
    rw [hzero] at hpos
    exact Nat.lt_irrefl 0 hpos
  have hset : ∀ changed : KRefCount, changed.count = counter.count - 1 →
      ∀ found ∈ (state.counters.set object.reference changed)[other.reference]?,
        found.count + 1 ≠ 0 := by
    intro changed hchanged found hfound
    rcases ListUpdate.getElem?_set_cases hfound with ⟨_, rfl⟩ | ⟨hne, hold⟩
    · rw [hchanged]
      exact hback
    · exact hroom hne found hold
  intro found hfound
  simp only [State.release, hget, hlive, if_true] at hfound
  split_ifs at hfound
  · exact hset _ rfl found hfound
  · exact hset _ rfl found hfound

theorem PointerInvariant.replaceCopy (hinv : PointerInvariant state) {target source : ℕ}
    (hne : target ≠ source) (hget : state.object target = some object)
    (hsource : state.object source = some other) (hexact : ReleasesExactly state object)
    (hroom : object.reference ≠ other.reference → HasRoom state other) :
    PointerInvariant (state.replaceCopy target object other) := by
  have hbefore := heap_of_object hinv hget
  obtain ⟨hobjects, hgiven, hdetached⟩ := release_objects state object
  obtain ⟨hheap, hdefined⟩ := release_of_exact hbefore hexact
  have hmem := mem_live_set_none hne hsource
  let placed : State := (state.release object).setObject target (some other)
  have hplaced : HeapInvariant (live (state.objects.set target none)) placed.counters
      placed.deleted placed.given := by
    simp only [placed, State.setObject, hgiven]
    exact hheap
  have hplacedRoom : HasRoom placed other := hasRoom_release hbefore hroom
  obtain ⟨hcopied, hkeptDefined, hkeptDetached⟩ := addRef_of_room hplaced hmem hplacedRoom
  refine ⟨hkeptDefined.trans (hdefined.trans hinv.defined), ?_,
    hkeptDetached.trans (hdetached.trans hinv.detached)⟩
  simp only [State.replaceCopy, addRef_objects]
  rw [show ((state.release object).setObject target (some other)).objects =
      state.objects.set target (some other) by rw [State.setObject, hobjects]]
  exact hcopied.perm (live_set_some (length_of_object hget) _).symm

theorem step_pointerInvariant {action : Action} (hinv : PointerInvariant state)
    (hkeeps : KeepsCounts state action) (hstep : step state action = some next) :
    PointerInvariant next := by
  unfold step at hstep
  rw [if_neg (by simp [hinv.defined])] at hstep
  cases action with
  | construct =>
      cases hstep
      exact hinv.constructFrom (by simp [State.Fresh])
  | constructRaw value =>
      simp only at hstep
      split_ifs at hstep with hfresh
      cases hstep
      exact hinv.constructFrom hfresh
  | constructCopy source =>
      obtain ⟨object, hget, rfl⟩ := Option.map_eq_some_iff.mp hstep
      exact hinv.constructCopy hget (hkeeps object hget)
  | assign target source =>
      simp only at hstep
      split at hstep
      next object other hget hsource =>
        cases hstep
        split_ifs with hsame
        · exact hinv
        · obtain ⟨hexact, hroom⟩ := hkeeps hsame object hget other hsource
          exact hinv.replaceCopy hsame hget hsource hexact hroom
      next => cases hstep
  | assignRaw target value | attach target value =>
      simp only at hstep
      split_ifs at hstep with hfresh
      obtain ⟨object, hget, rfl⟩ := Option.map_eq_some_iff.mp hstep
      exact hinv.replaceRaw hget (hkeeps object hget) hfresh
  | detach target =>
      obtain ⟨object, hget, rfl⟩ := Option.map_eq_some_iff.mp hstep
      rw [show object.data = none from hkeeps object hget]
      exact hinv
  | destroy target =>
      obtain ⟨object, hget, rfl⟩ := Option.map_eq_some_iff.mp hstep
      exact hinv.destroy hget (hkeeps object hget)

end CppProj.SmartPtr
