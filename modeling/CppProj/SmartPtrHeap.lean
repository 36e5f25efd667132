import CppProj.ListUpdate
import CppProj.SmartPtr
import Mathlib.Data.List.Perm.Basic

/-!
# Counters and the objects that refer to them

The invariant is about the live objects as a list up to order, so that adding or
removing one object is a `cons`.  Objects that share a counter share its payload,
and no payload belongs to two counters; a counter is freed when its last object
has gone.
-/

namespace CppProj.SmartPtr

def live (objects : List (Option Object)) : List Object :=
  objects.filterMap id

def referrers (handles : List Object) (reference : ℕ) : ℕ :=
  handles.countP fun object => object.reference = reference

structure HeapInvariant (handles : List Object) (counters : List KRefCount)
    (deleted given : List ℕ) : Prop where
  referred : ∀ object ∈ handles, ∃ counter, counters[object.reference]? = some counter ∧
    counter.freed = 0
  counted : ∀ reference counter, counters[reference]? = some counter →
    counter.freed = 0 ∧ counter.count.toNat = referrers handles reference ∧
        0 < referrers handles reference ∨
      counter.freed = 1 ∧ referrers handles reference = 0
  shared : ∀ first ∈ handles, ∀ second ∈ handles, first.reference = second.reference →
    first.data = second.data
  owned : ∀ first ∈ handles, ∀ second ∈ handles, ∀ address, first.data = some address →
    second.data = some address → first.reference = second.reference
  kept : ∀ object ∈ handles, ∀ address, object.data = some address →
    address ∈ given ∧ address ∉ deleted
  handed : ∀ address ∈ deleted, address ∈ given
  accounted : ∀ address ∈ given, address ∈ deleted ∨
    ∃ object ∈ handles, object.data = some address
  once : deleted.Nodup

/-! ## Live objects -/

theorem mem_live {objects : List (Option Object)} {object : Object} :
    object ∈ live objects ↔ some object ∈ objects := by
  simp [live]

theorem live_append (objects : List (Option Object)) (object : Object) :
    (live (objects ++ [some object])).Perm (object :: live objects) := by
  simp only [live, List.filterMap_append]
  exact List.perm_append_singleton object _

theorem live_set_none {objects : List (Option Object)} {index : ℕ} {object : Object}
    (hget : objects[index]? = some (some object)) :
    (live objects).Perm (object :: live (objects.set index none)) := by
  induction objects generalizing index with
  | nil => cases hget
  | cons head tail ih =>
      cases index with
      | zero =>
          cases hget
          exact List.Perm.refl _
      | succ index =>
          have htail := ih hget
          cases head with
          | none => exact htail
          | some first =>
              simp only [live, List.set_cons_succ, List.filterMap_cons] at htail ⊢
              exact (htail.cons first).trans (List.Perm.swap object first _)

theorem live_set_some {objects : List (Option Object)} {index : ℕ} (hlt : index < objects.length)
    (object : Object) :
    (live (objects.set index (some object))).Perm (object :: live (objects.set index none)) := by
  have hget : (objects.set index (some object))[index]? = some (some object) := by simp [hlt]
  have hperm := live_set_none hget
  rwa [List.set_set] at hperm

theorem referrers_cons (object : Object) (handles : List Object) (reference : ℕ) :
    referrers (object :: handles) reference =
      referrers handles reference + if object.reference = reference then 1 else 0 := by
  simp [referrers, List.countP_cons]

theorem referrers_perm {left right : List Object} (hperm : left.Perm right) (reference : ℕ) :
    referrers left reference = referrers right reference :=
  hperm.countP_eq _

theorem referrers_pos {handles : List Object} {object : Object} (hmem : object ∈ handles) :
    0 < referrers handles object.reference := by
  rw [referrers, List.countP_pos_iff]
  exact ⟨object, hmem, by simp⟩

theorem exists_of_referrers_pos {handles : List Object} {reference : ℕ}
    (hpos : 0 < referrers handles reference) :
    ∃ object ∈ handles, object.reference = reference := by
  rw [referrers, List.countP_pos_iff] at hpos
  simpa using hpos

theorem HeapInvariant.perm {left right : List Object} {counters : List KRefCount}
    {deleted given : List ℕ} (hinv : HeapInvariant left counters deleted given)
    (hperm : left.Perm right) : HeapInvariant right counters deleted given := by
  have hmem : ∀ {object}, object ∈ right → object ∈ left := fun h => hperm.mem_iff.mpr h
  constructor
  case referred => exact fun object h => hinv.referred object (hmem h)
  case counted =>
    intro reference counter hcounter
    have hcounted := hinv.counted reference counter hcounter
    rwa [referrers_perm hperm] at hcounted
  case shared =>
    exact fun first hfirst second hsecond =>
      hinv.shared first (hmem hfirst) second (hmem hsecond)
  case owned =>
    exact fun first hfirst second hsecond =>
      hinv.owned first (hmem hfirst) second (hmem hsecond)
  case kept => exact fun object h => hinv.kept object (hmem h)
  case handed => exact hinv.handed
  case accounted =>
    intro address hgiven
    rcases hinv.accounted address hgiven with hdeleted | ⟨object, hobject, hdata⟩
    · exact Or.inl hdeleted
    · exact Or.inr ⟨object, hperm.mem_iff.mp hobject, hdata⟩
  case once => exact hinv.once

/-! ## The count as a number -/

theorem toNat_sub_one {count : UInt64} (hpos : 0 < count.toNat) :
    (count - 1).toNat = count.toNat - 1 := by
  have hle : (1 : UInt64) ≤ count := by
    rw [UInt64.le_iff_toNat_le]
    exact hpos
  rw [UInt64.toNat_sub_of_le _ _ hle]
  rfl

theorem toNat_add_one {count : UInt64} (hroom : count + 1 ≠ 0) :
    (count + 1).toNat = count.toNat + 1 := by
  have hlt : count.toNat + 1 < 2 ^ 64 := by
    by_contra hfull
    apply hroom
    have hbound := count.toNat_lt
    rw [← UInt64.toNat_inj, UInt64.toNat_add]
    have hcount : count.toNat = 2 ^ 64 - 1 := by omega
    rw [hcount]
    rfl
  rw [UInt64.toNat_add]
  exact Nat.mod_eq_of_lt hlt

/-! ## One object more or less -/

namespace HeapInvariant

variable {handles : List Object} {counters : List KRefCount} {deleted given : List ℕ}
  {object : Object} {counter : KRefCount}

theorem releaseLast (hinv : HeapInvariant (object :: handles) counters deleted given)
    (hget : counters[object.reference]? = some counter) (hlive : counter.freed = 0)
    (hcount : counter.count = 1) :
    HeapInvariant handles
      (counters.set object.reference ⟨counter.count - 1, counter.freed + 1⟩)
      (deleted ++ object.data.toList) given := by
  have hnone : referrers handles object.reference = 0 := by
    rcases hinv.counted _ counter hget with ⟨_, hcounted, _⟩ | ⟨hfreed, _⟩
    · rw [referrers_cons, if_pos rfl, hcount] at hcounted
      have hone : (1 : UInt64).toNat = 1 := rfl
      omega
    · omega
  have hapart : ∀ other ∈ handles, object.reference ≠ other.reference := by
    intro other hmem heq
    have hpos := referrers_pos hmem
    rw [← heq, hnone] at hpos
    omega
  constructor
  case referred =>
    intro other hmem
    obtain ⟨found, hfound, hfreed⟩ := hinv.referred other (List.mem_cons_of_mem _ hmem)
    exact ⟨found, (ListUpdate.getElem?_set_of_ne (hapart other hmem) _).trans hfound, hfreed⟩
  case counted =>
    intro reference found hfound
    rcases ListUpdate.getElem?_set_cases hfound with ⟨rfl, rfl⟩ | ⟨hne, hold⟩
    · exact Or.inr ⟨by simp [hlive], hnone⟩
    · have hcounted := hinv.counted reference found hold
      rwa [referrers_cons, if_neg hne, Nat.add_zero] at hcounted
  case shared =>
    exact fun first hfirst second hsecond => hinv.shared first (List.mem_cons_of_mem _ hfirst)
      second (List.mem_cons_of_mem _ hsecond)
  case owned =>
    exact fun first hfirst second hsecond => hinv.owned first (List.mem_cons_of_mem _ hfirst)
      second (List.mem_cons_of_mem _ hsecond)
  case kept =>
    intro other hmem address hdata
    obtain ⟨hgiven, hkept⟩ := hinv.kept other (List.mem_cons_of_mem _ hmem) address hdata
    refine ⟨hgiven, ?_⟩
    rw [List.mem_append, not_or]
    refine ⟨hkept, ?_⟩
    intro hsame
    -- a payload of two objects belongs to one counter
    exact hapart other hmem (hinv.owned object List.mem_cons_self other
      (List.mem_cons_of_mem _ hmem) address (by simpa using hsame) hdata)
  case handed =>
    intro address hmem
    rcases List.mem_append.mp hmem with hold | hnew
    · exact hinv.handed address hold
    · exact (hinv.kept object List.mem_cons_self address (by simpa using hnew)).1
  case accounted =>
    intro address hgiven
    rcases hinv.accounted address hgiven with hdeleted | ⟨other, hmem, hdata⟩
    · exact Or.inl (List.mem_append_left _ hdeleted)
    · rcases List.mem_cons.mp hmem with rfl | hmem
      · exact Or.inl (List.mem_append_right _ (by simpa using hdata))
      · exact Or.inr ⟨other, hmem, hdata⟩
  case once =>
    rw [List.nodup_append]
    refine ⟨hinv.once, by cases object.data <;> simp, ?_⟩
    rintro address hold other hnew rfl
    exact (hinv.kept object List.mem_cons_self address (by simpa using hnew)).2 hold

theorem releaseShared (hinv : HeapInvariant (object :: handles) counters deleted given)
    (hget : counters[object.reference]? = some counter) (hlive : counter.freed = 0)
    (hcount : counter.count ≠ 1) :
    HeapInvariant handles
      (counters.set object.reference { counter with count := counter.count - 1 })
      deleted given := by
  have hcounted : counter.count.toNat = referrers handles object.reference + 1 := by
    rcases hinv.counted _ counter hget with ⟨_, hcounted, _⟩ | ⟨hfreed, _⟩
    · rwa [referrers_cons, if_pos rfl] at hcounted
    · omega
  have hothers : 0 < referrers handles object.reference := by
    by_contra hnone
    apply hcount
    rw [← UInt64.toNat_inj, hcounted]
    have hone : (1 : UInt64).toNat = 1 := rfl
    omega
  constructor
  case referred =>
    intro other hmem
    obtain ⟨found, hfound, hfreed⟩ := hinv.referred other (List.mem_cons_of_mem _ hmem)
    by_cases hsame : object.reference = other.reference
    · rw [← hsame]
      exact ⟨_, ListUpdate.getElem?_set_self hget _, hlive⟩
    · exact ⟨found, (ListUpdate.getElem?_set_of_ne hsame _).trans hfound, hfreed⟩
  case counted =>
    intro reference found hfound
    rcases ListUpdate.getElem?_set_cases hfound with ⟨rfl, rfl⟩ | ⟨hne, hold⟩
    · refine Or.inl ⟨hlive, ?_, hothers⟩
      rw [toNat_sub_one (by omega), hcounted]
      rfl
    · have hold := hinv.counted reference found hold
      rwa [referrers_cons, if_neg hne, Nat.add_zero] at hold
  case shared =>
    exact fun first hfirst second hsecond => hinv.shared first (List.mem_cons_of_mem _ hfirst)
      second (List.mem_cons_of_mem _ hsecond)
  case owned =>
    exact fun first hfirst second hsecond => hinv.owned first (List.mem_cons_of_mem _ hfirst)
      second (List.mem_cons_of_mem _ hsecond)
  case kept => exact fun other hmem => hinv.kept other (List.mem_cons_of_mem _ hmem)
  case handed => exact hinv.handed
  case accounted =>
    intro address hgiven
    rcases hinv.accounted address hgiven with hdeleted | ⟨other, hmem, hdata⟩
    · exact Or.inl hdeleted
    · rcases List.mem_cons.mp hmem with rfl | hmem
      · obtain ⟨heir, hheir, href⟩ := exists_of_referrers_pos hothers
        refine Or.inr ⟨heir, hheir, ?_⟩
        exact (hinv.shared heir (List.mem_cons_of_mem _ hheir) other List.mem_cons_self
          href).trans hdata
      · exact Or.inr ⟨other, hmem, hdata⟩
  case once => exact hinv.once

theorem copy (hinv : HeapInvariant handles counters deleted given) (hmem : object ∈ handles)
    (hget : counters[object.reference]? = some counter) (hroom : counter.count + 1 ≠ 0) :
    HeapInvariant (object :: handles)
      (counters.set object.reference { counter with count := counter.count + 1 })
      deleted given := by
  have hback : ∀ other ∈ object :: handles, other ∈ handles := by
    intro other hother
    rcases List.mem_cons.mp hother with rfl | hother
    · exact hmem
    · exact hother
  have hpos := referrers_pos hmem
  obtain ⟨hlive, hcounted⟩ : counter.freed = 0 ∧
      counter.count.toNat = referrers handles object.reference := by
    rcases hinv.counted _ counter hget with ⟨hlive, hcounted, _⟩ | ⟨_, hnone⟩
    · exact ⟨hlive, hcounted⟩
    · omega
  constructor
  case referred =>
    intro other hother
    obtain ⟨found, hfound, hfreed⟩ := hinv.referred other (hback other hother)
    by_cases hsame : object.reference = other.reference
    · rw [← hsame]
      exact ⟨_, ListUpdate.getElem?_set_self hget _, hlive⟩
    · exact ⟨found, (ListUpdate.getElem?_set_of_ne hsame _).trans hfound, hfreed⟩
  case counted =>
    intro reference found hfound
    rw [referrers_cons]
    rcases ListUpdate.getElem?_set_cases hfound with ⟨rfl, rfl⟩ | ⟨hne, hold⟩
    · refine Or.inl ⟨hlive, ?_, by omega⟩
      rw [if_pos rfl, toNat_add_one hroom, hcounted]
    · rw [if_neg hne, Nat.add_zero]
      exact hinv.counted reference found hold
  case shared =>
    exact fun first hfirst second hsecond =>
      hinv.shared first (hback first hfirst) second (hback second hsecond)
  case owned =>
    exact fun first hfirst second hsecond =>
      hinv.owned first (hback first hfirst) second (hback second hsecond)
  case kept => exact fun other hother => hinv.kept other (hback other hother)
  case handed => exact hinv.handed
  case accounted =>
    intro address hgiven
    rcases hinv.accounted address hgiven with hdeleted | ⟨other, hother, hdata⟩
    · exact Or.inl hdeleted
    · exact Or.inr ⟨other, List.mem_cons_of_mem _ hother, hdata⟩
  case once => exact hinv.once

theorem fresh (hinv : HeapInvariant handles counters deleted given) {value : Option ℕ}
    (hfresh : ∀ address ∈ value, address ∉ given) :
    HeapInvariant (⟨value, counters.length⟩ :: handles) (counters ++ [.first]) deleted
      (given ++ value.toList) := by
  have hold : ∀ other ∈ handles, other.reference < counters.length := by
    intro other hmem
    obtain ⟨found, hfound, _⟩ := hinv.referred other hmem
    exact (List.getElem?_eq_some_iff.mp hfound).1
  have hnone : referrers handles counters.length = 0 := by
    by_contra hsome
    obtain ⟨other, hmem, href⟩ := exists_of_referrers_pos (Nat.pos_of_ne_zero hsome)
    have hlt := hold other hmem
    omega
  have hnew : (counters ++ [KRefCount.first])[counters.length]? = some .first := by simp
  constructor
  case referred =>
    intro other hmem
    rcases List.mem_cons.mp hmem with rfl | hmem
    · exact ⟨_, hnew, rfl⟩
    · obtain ⟨found, hfound, hfreed⟩ := hinv.referred other hmem
      exact ⟨found, ListUpdate.getElem?_append_of_eq_some hfound _, hfreed⟩
  case counted =>
    intro reference found hfound
    rw [referrers_cons]
    by_cases hlt : reference < counters.length
    · rw [List.getElem?_append_left hlt] at hfound
      rw [if_neg (by simp only; omega), Nat.add_zero]
      exact hinv.counted reference found hfound
    · have hreference : reference = counters.length := by
        have hbound := (List.getElem?_eq_some_iff.mp hfound).1
        rw [List.length_append, List.length_singleton] at hbound
        omega
      subst hreference
      rw [hnew] at hfound
      cases hfound
      rw [if_pos rfl, hnone]
      exact Or.inl ⟨rfl, rfl, Nat.one_pos⟩
  case shared =>
    intro first hfirst second hsecond href
    rcases List.mem_cons.mp hfirst with rfl | hfirst <;>
      rcases List.mem_cons.mp hsecond with rfl | hsecond
    · rfl
    · have hlt := hold second hsecond
      simp only at href
      omega
    · have hlt := hold first hfirst
      simp only at href
      omega
    · exact hinv.shared first hfirst second hsecond href
  case owned =>
    have hdistinct : ∀ other ∈ handles, ∀ address, value = some address →
        other.data ≠ some address := by
      intro other hmem address hvalue hdata
      exact hfresh address hvalue (hinv.kept other hmem address hdata).1
    intro first hfirst second hsecond address hdata hother
    rcases List.mem_cons.mp hfirst with rfl | hfirst <;>
      rcases List.mem_cons.mp hsecond with rfl | hsecond
    · rfl
    · exact (hdistinct second hsecond address hdata hother).elim
    · exact (hdistinct first hfirst address hother hdata).elim
    · exact hinv.owned first hfirst second hsecond address hdata hother
  case kept =>
    intro other hmem address hdata
    rcases List.mem_cons.mp hmem with rfl | hmem
    · refine ⟨List.mem_append_right _ (by simpa using hdata), ?_⟩
      intro hdeleted
      exact hfresh address hdata (hinv.handed address hdeleted)
    · obtain ⟨hgiven, hkept⟩ := hinv.kept other hmem address hdata
      exact ⟨List.mem_append_left _ hgiven, hkept⟩
  case handed => exact fun address hmem => List.mem_append_left _ (hinv.handed address hmem)
  case accounted =>
    intro address hmem
    rcases List.mem_append.mp hmem with hgiven | hvalue
    · rcases hinv.accounted address hgiven with hdeleted | ⟨other, hother, hdata⟩
      · exact Or.inl hdeleted
      · exact Or.inr ⟨other, List.mem_cons_of_mem _ hother, hdata⟩
    · exact Or.inr ⟨_, List.mem_cons_self, by simpa using hvalue⟩
  case once => exact hinv.once

end HeapInvariant

end CppProj.SmartPtr
