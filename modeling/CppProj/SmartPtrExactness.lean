import CppProj.SmartPtrCounts

/-!
# The operations that break the counts

A counter that is freed, or whose count is zero, while an object still refers to
it.  `Detach` of a payload leaves such a counter behind, `Release` when its
32-bit result is zero for a count of two or more, and `AddRef` when the count
wraps around.
-/

namespace CppProj.SmartPtr

variable {state next : State} {object other : Object} {counter : KRefCount} {target source : ℕ}

theorem not_sound_of_freed {reference : ℕ} (hget : next.counters[reference]? = some counter)
    (hfreed : counter.freed ≠ 0) (hreferred : 0 < referrers (live next.objects) reference) :
    ¬ Sound next := by
  intro hsound
  have hnone := (hsound.counted reference counter hget).2 hfreed
  omega

theorem not_sound_of_zero {reference : ℕ} (hget : next.counters[reference]? = some counter)
    (hlive : counter.freed = 0) (hzero : counter.count = 0)
    (hreferred : 0 < referrers (live next.objects) reference) : ¬ Sound next := by
  intro hsound
  have hcounted := (hsound.counted reference counter hget).1 hlive
  have hcount : counter.count.toNat = 0 := by
    rw [hzero]
    rfl
  omega

theorem counter_eq_of_not_hasRoom (hnoRoom : ¬ HasRoom state object)
    (hget : state.counters[object.reference]? = some counter) : counter.count + 1 = 0 := by
  by_contra hroom
  exact hnoRoom (forall_mem_of_eq_some hget hroom)

theorem addRef_freed {reference : ℕ} (added : ℕ)
    (hget : state.counters[reference]? = some counter) (hfreed : counter.freed ≠ 0) :
    (state.addRef added).counters[reference]? = some counter := by
  unfold State.addRef
  split
  next found hfound =>
    split_ifs with hlive
    · have hne : added ≠ reference := by
        rintro rfl
        rw [hget, Option.some.injEq] at hfound
        exact hfreed (hfound ▸ hlive)
      exact (ListUpdate.getElem?_set_of_ne hne _).trans hget
    · exact hget
  next => exact hget

theorem addRef_wraps {reference : ℕ} (hget : state.counters[reference]? = some counter)
    (hlive : counter.freed = 0) :
    (state.addRef reference).counters[reference]? =
      some { counter with count := counter.count + 1 } := by
  simp only [State.addRef, hget, hlive, if_true]
  exact ListUpdate.getElem?_set_self hget _

theorem referrers_set (hget : state.object target = some object) (changed : Object)
    (reference : ℕ) :
    referrers (live (state.objects.set target none)) reference ≤
      referrers (live (state.objects.set target (some changed))) reference := by
  rw [referrers_perm (live_set_some (length_of_object hget) changed), referrers_cons]
  exact Nat.le_add_right _ _

theorem referrers_set_self (hget : state.object target = some object) (changed : Object) :
    0 < referrers (live (state.objects.set target (some changed))) changed.reference := by
  rw [referrers_perm (live_set_some (length_of_object hget) changed)]
  exact referrers_pos List.mem_cons_self

/-! ## One operation -/

theorem constructCopy_not_sound (hinv : PointerInvariant state)
    (hget : state.object source = some object) (hnoRoom : ¬ HasRoom state object) :
    ¬ Sound ((state.addObject object).addRef object.reference) := by
  have hmem : object ∈ live state.objects :=
    mem_live.mpr (List.mem_of_getElem? (object_eq_some_iff.mp hget))
  obtain ⟨counter, hcounter, hlive⟩ := hinv.heap.referred object hmem
  refine not_sound_of_zero (addRef_wraps hcounter hlive) hlive
    (counter_eq_of_not_hasRoom hnoRoom hcounter) ?_
  rw [addRef_objects, State.addObject, referrers_perm (live_append _ _)]
  exact referrers_pos List.mem_cons_self

theorem destroy_not_sound (hinv : PointerInvariant state)
    (hget : state.object target = some object) (hearly : ¬ ReleasesExactly state object) :
    ¬ Sound ((state.release object).setObject target none) := by
  obtain ⟨hreferred, counter, hcounter, hfreed⟩ :=
    release_of_not_exact (heap_of_object hinv hget) hearly
  refine not_sound_of_freed hcounter (by omega) ?_
  rw [State.setObject, (release_objects state object).1]
  exact hreferred

theorem replaceRaw_not_sound (hinv : PointerInvariant state) (value : Option ℕ)
    (hget : state.object target = some object) (hearly : ¬ ReleasesExactly state object) :
    ¬ Sound (state.replaceRaw target object value) := by
  obtain ⟨hreferred, counter, hcounter, hfreed⟩ :=
    release_of_not_exact (heap_of_object hinv hget) hearly
  have hkept : (state.replaceRaw target object value).counters[object.reference]? =
      some counter := ListUpdate.getElem?_append_of_eq_some hcounter _
  apply not_sound_of_freed hkept (by omega)
  simp only [State.replaceRaw, State.setObject, State.newReference,
    (release_objects state object).1]
  exact lt_of_lt_of_le hreferred (referrers_set hget _ _)

theorem replaceCopy_not_sound_of_early (hinv : PointerInvariant state)
    (hget : state.object target = some object) (other : Object)
    (hearly : ¬ ReleasesExactly state object) :
    ¬ Sound (state.replaceCopy target object other) := by
  obtain ⟨hreferred, counter, hcounter, hfreed⟩ :=
    release_of_not_exact (heap_of_object hinv hget) hearly
  have hkept : (state.replaceCopy target object other).counters[object.reference]? =
      some counter := addRef_freed _ hcounter (by omega)
  apply not_sound_of_freed hkept (by omega)
  simp only [State.replaceCopy, addRef_objects, State.setObject, (release_objects state object).1]
  exact lt_of_lt_of_le hreferred (referrers_set hget _ _)

theorem release_of_ne (hne : object.reference ≠ other.reference) :
    (state.release object).counters[other.reference]? = state.counters[other.reference]? := by
  unfold State.release
  split
  · split_ifs
    · exact ListUpdate.getElem?_set_of_ne hne _
    · exact ListUpdate.getElem?_set_of_ne hne _
    · rfl
  · rfl

theorem replaceCopy_not_sound_of_full (hinv : PointerInvariant state) (hne : target ≠ source)
    (hget : state.object target = some object) (hsource : state.object source = some other)
    (hapart : object.reference ≠ other.reference) (hnoRoom : ¬ HasRoom state other) :
    ¬ Sound (state.replaceCopy target object other) := by
  obtain ⟨counter, hcounter, hlive⟩ := (heap_of_object hinv hget).referred other
    (List.mem_cons_of_mem _ (mem_live_set_none hne hsource))
  have hplaced : ((state.release object).setObject target
      (some other)).counters[other.reference]? = some counter :=
    (release_of_ne hapart).trans hcounter
  refine not_sound_of_zero (addRef_wraps hplaced hlive) hlive
    (counter_eq_of_not_hasRoom hnoRoom hcounter) ?_
  simp only [State.replaceCopy, addRef_objects, State.setObject, (release_objects state object).1]
  exact referrers_set_self hget other

theorem detach_not_sound (hinv : PointerInvariant state)
    (hget : state.object target = some object) (address : ℕ) :
    ¬ Sound (state.detachData target object address) := by
  obtain ⟨counter, hcounter, hlive⟩ :=
    (heap_of_object hinv hget).referred object List.mem_cons_self
  have hreset : (state.detachData target object address).counters[object.reference]? =
      some { counter with count := 0 } := by
    simp only [State.detachData, State.reset, State.setObject, hcounter, hlive, if_true]
    exact ListUpdate.getElem?_set_self hcounter _
  apply not_sound_of_zero hreset hlive rfl
  simp only [State.detachData, State.reset, State.setObject, hcounter, hlive, if_true]
  exact referrers_set_self hget { object with data := none }

theorem step_not_sound {action : Action} (hinv : PointerInvariant state)
    (hbreaks : ¬ KeepsCounts state action) (hstep : step state action = some next) :
    ¬ Sound next := by
  unfold step at hstep
  rw [if_neg (by simp [hinv.defined])] at hstep
  cases action with
  | construct => exact (hbreaks trivial).elim
  | constructRaw value => exact (hbreaks trivial).elim
  | constructCopy source =>
      obtain ⟨object, hget, rfl⟩ := Option.map_eq_some_iff.mp hstep
      apply constructCopy_not_sound hinv hget
      intro hroom
      exact hbreaks (forall_mem_of_eq_some hget hroom)
  | assign target source =>
      simp only at hstep
      split at hstep
      next object other hget hsource =>
        cases hstep
        have hbroken : target ≠ source ∧ ¬ (ReleasesExactly state object ∧
            (object.reference ≠ other.reference → HasRoom state other)) := by
          by_contra hnone
          apply hbreaks
          intro hne
          refine forall_mem_of_eq_some hget (forall_mem_of_eq_some hsource ?_)
          by_contra hfails
          exact hnone ⟨hne, hfails⟩
        obtain ⟨hne, hfails⟩ := hbroken
        rw [if_neg hne]
        by_cases hexact : ReleasesExactly state object
        · have hfull : object.reference ≠ other.reference ∧ ¬ HasRoom state other := by
            by_contra hnone
            refine hfails ⟨hexact, ?_⟩
            intro hapart
            by_contra hnoRoom
            exact hnone ⟨hapart, hnoRoom⟩
          exact replaceCopy_not_sound_of_full hinv hne hget hsource hfull.1 hfull.2
        · exact replaceCopy_not_sound_of_early hinv hget other hexact
      next => cases hstep
  | assignRaw target value | attach target value =>
      simp only at hstep
      split_ifs at hstep with hfresh
      obtain ⟨object, hget, rfl⟩ := Option.map_eq_some_iff.mp hstep
      apply replaceRaw_not_sound hinv value hget
      intro hexact
      exact hbreaks (forall_mem_of_eq_some hget hexact)
  | detach target =>
      obtain ⟨object, hget, rfl⟩ := Option.map_eq_some_iff.mp hstep
      cases hdata : object.data with
      | some address => exact detach_not_sound hinv hget address
      | none => exact (hbreaks (forall_mem_of_eq_some hget hdata)).elim
  | destroy target =>
      obtain ⟨object, hget, rfl⟩ := Option.map_eq_some_iff.mp hstep
      apply destroy_not_sound hinv hget
      intro hexact
      exact hbreaks (forall_mem_of_eq_some hget hexact)

/-! ## Runs -/

theorem counts_right {actions : List Action} {final : State}
    (hrun : system.run initial actions = some final) :
    system.Always Sound initial actions ↔ system.StepsMeet KeepsCounts initial actions :=
  TransitionSystem.always_iff_stepsMeet PointerInvariant Sound
    (fun _ hinv => hinv.sound)
    (fun _ _ _ hinv hkeeps hstep => step_pointerInvariant hinv hkeeps hstep)
    (fun _ _ _ hinv hbreaks hstep => step_not_sound hinv hbreaks hstep)
    initial_pointerInvariant hrun

/-- The operations of `main`, whose objects go in the opposite order of their
construction. -/
def mainOperations : List Action :=
  [.constructRaw (some 10), .constructRaw (some 20), .assign 0 1, .destroy 1, .destroy 0]

theorem counts_right_main : system.Always Sound initial mainOperations :=
  (counts_right rfl).mpr (by decide : system.StepsMeet KeepsCounts initial mainOperations)

/-- A detached object goes on referring to a counter whose count is zero; when the
object is destroyed, the count wraps around and the counter is never freed. -/
theorem detach_leaks_counter :
    (∃ final, system.run initial [.constructRaw (some 10), .detach 0] = some final ∧
      ¬ Sound final) ∧
    ∃ final, system.run initial [.constructRaw (some 10), .detach 0, .destroy 0] = some final ∧
      live final.objects = [] ∧ final.counters = [⟨0 - 1, 0⟩] := by
  refine ⟨⟨_, rfl, ?_⟩, _, rfl, rfl, rfl⟩
  intro hsound
  have hcounted := (hsound.counted 0 ⟨0, 0⟩ rfl).1 rfl
  exact absurd hcounted (by decide)

end CppProj.SmartPtr
