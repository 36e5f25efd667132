import CppProj.ListUpdate

/-!
# At most one thread holds a mutex

The threads are a list, and whether a thread holds the mutex is read off where
it stands.  The mutex is free when no thread holds it; a thread that takes it
finds it free, so two holders are one thread.
-/

universe u

def noneHolds {Thread : Type u} (holds : Thread → Bool) (threads : List Thread) : Bool :=
  threads.all fun thread => !holds thread

/-- Two threads that hold the mutex are the same one. -/
def MutuallyExclusive {Thread : Type u} (holds : Thread → Bool) (threads : List Thread) : Prop :=
  ∀ (left right : ℕ) (first second : Thread),
    threads[left]? = some first → threads[right]? = some second →
    holds first = true → holds second = true → left = right

section

variable {Thread : Type u} {holds : Thread → Bool} {threads : List Thread}

theorem noneHolds_iff :
    noneHolds holds threads = true ↔
    ∀ thread ∈ threads, holds thread = false := by
  simp [noneHolds]

theorem not_holds_of_noneHolds (hfree : noneHolds holds threads = true) {index : ℕ}
    {thread : Thread} (hget : threads[index]? = some thread) : holds thread = false :=
  noneHolds_iff.mp hfree thread (List.mem_of_getElem? hget)

end

namespace MutuallyExclusive

variable {Thread : Type u} {holds : Thread → Bool} {threads : List Thread}

theorem nil : MutuallyExclusive holds [] := by
  intro left right first second hfirst
  cases hfirst

theorem set_released (hexclusive : MutuallyExclusive holds threads) (index : ℕ) {thread : Thread}
    (hreleased : holds thread = false) :
    MutuallyExclusive holds (threads.set index thread) := by
  intro left right first second hfirst hsecond hholdsFirst hholdsSecond
  rcases ListUpdate.getElem?_set_cases hfirst with ⟨_, rfl⟩ | ⟨_, hfirst⟩
  · rw [hreleased] at hholdsFirst
    cases hholdsFirst
  · rcases ListUpdate.getElem?_set_cases hsecond with ⟨_, rfl⟩ | ⟨_, hsecond⟩
    · rw [hreleased] at hholdsSecond
      cases hholdsSecond
    · exact hexclusive left right first second hfirst hsecond hholdsFirst hholdsSecond

theorem set_held (hexclusive : MutuallyExclusive holds threads) {index : ℕ} {old : Thread}
    (hget : threads[index]? = some old) (hholds : holds old = true) (thread : Thread) :
    MutuallyExclusive holds (threads.set index thread) := by
  intro left right first second hfirst hsecond hholdsFirst hholdsSecond
  rcases ListUpdate.getElem?_set_cases hfirst with ⟨hleft, _⟩ | ⟨hleft, hfirst⟩ <;>
    rcases ListUpdate.getElem?_set_cases hsecond with ⟨hright, _⟩ | ⟨hright, hsecond⟩
  · exact hleft.symm.trans hright
  · exact (hright (hexclusive index right old second hget hsecond hholds hholdsSecond)).elim
  · exact (hleft (hexclusive index left old first hget hfirst hholds hholdsFirst)).elim
  · exact hexclusive left right first second hfirst hsecond hholdsFirst hholdsSecond

theorem set_acquired (hfree : noneHolds holds threads = true) (index : ℕ) (thread : Thread) :
    MutuallyExclusive holds (threads.set index thread) := by
  intro left right first second hfirst hsecond hholdsFirst hholdsSecond
  have hindex : ∀ (position : ℕ) (found : Thread),
      (threads.set index thread)[position]? = some found →
        holds found = true → index = position := by
    intro position found hfound hholds
    rcases ListUpdate.getElem?_set_cases hfound with ⟨heq, _⟩ | ⟨_, hold⟩
    · exact heq
    · rw [not_holds_of_noneHolds hfree hold] at hholds
      cases hholds
  exact (hindex left first hfirst hholdsFirst).symm.trans
    (hindex right second hsecond hholdsSecond)

theorem append_released (hexclusive : MutuallyExclusive holds threads) {thread : Thread}
    (hreleased : holds thread = false) :
    MutuallyExclusive holds (threads ++ [thread]) := by
  have hold : ∀ (position : ℕ) (found : Thread), (threads ++ [thread])[position]? = some found →
      holds found = true → threads[position]? = some found := by
    intro position found hfound hholds
    rw [List.getElem?_append] at hfound
    split_ifs at hfound with hlt
    · exact hfound
    · obtain ⟨_, rfl⟩ := List.getElem?_eq_some_iff.mp hfound
      simp [hreleased] at hholds
  intro left right first second hfirst hsecond hholdsFirst hholdsSecond
  exact hexclusive left right first second (hold left first hfirst hholdsFirst)
    (hold right second hsecond hholdsSecond) hholdsFirst hholdsSecond

/-- A change of the threads that passes the mutex to nobody. -/
theorem map (hexclusive : MutuallyExclusive holds threads) {change : Thread → Thread}
    (hchange : ∀ thread, holds (change thread) = holds thread) :
    MutuallyExclusive holds (threads.map change) := by
  have hold : ∀ (position : ℕ) (found : Thread), (threads.map change)[position]? = some found →
      holds found = true → ∃ thread, threads[position]? = some thread ∧ holds thread = true := by
    intro position found hfound hholds
    rw [List.getElem?_map, Option.map_eq_some_iff] at hfound
    obtain ⟨thread, hget, rfl⟩ := hfound
    exact ⟨thread, hget, (hchange thread).symm.trans hholds⟩
  intro left right first second hfirst hsecond hholdsFirst hholdsSecond
  obtain ⟨leftThread, hleft, hholdsLeft⟩ := hold left first hfirst hholdsFirst
  obtain ⟨rightThread, hright, hholdsRight⟩ := hold right second hsecond hholdsSecond
  exact hexclusive left right leftThread rightThread hleft hright hholdsLeft hholdsRight

theorem not_holds_of_ne (hexclusive : MutuallyExclusive holds threads) {index other : ℕ}
    {thread found : Thread} (hget : threads[index]? = some thread) (hholds : holds thread = true)
    (hother : threads[other]? = some found) (hne : index ≠ other) : holds found = false := by
  by_contra hfound
  exact hne (hexclusive index other thread found hget hother hholds (by simpa using hfound))

end MutuallyExclusive
