import Mathlib.Data.List.Sort
import Mathlib.Data.Multiset.Filter
import Mathlib.Order.Defs.Unbundled

/-!
# Priority queues

A queue over `lt` is known by its contents, and by its top being an entry that is
less than no other.  Which of several such entries is the top stays open, and
so does the order of the entries that come out when none is less than another.
-/

namespace CppProj.PriorityQueues

structure PriorityQueue (α : Type) (lt : α → α → Prop) where
  Queue : Type
  empty : Queue
  push : α → Queue → Queue
  top? : Queue → Option α
  pop : Queue → Queue
  contents : Queue → Multiset α
  contents_empty : contents empty = 0
  contents_push : ∀ entry queue, contents (push entry queue) = entry ::ₘ contents queue
  contents_of_top?_none : ∀ {queue}, top? queue = none → contents queue = 0
  contents_of_top?_some : ∀ {queue entry}, top? queue = some entry →
    contents queue = entry ::ₘ contents (pop queue)
  not_lt_of_top? : ∀ {queue entry}, top? queue = some entry →
    ∀ other ∈ contents queue, ¬ lt entry other

namespace PriorityQueue

variable {α σ : Type} {lt : α → α → Prop} (impl : PriorityQueue α lt)

/-- So many iterations of `while (!queue.empty())`, whose body takes the top, pops it and
goes on with `body`. -/
def drainFor (body : σ → α → σ) : ℕ → impl.Queue → σ → impl.Queue × σ
  | 0, queue, state => (queue, state)
  | fuel + 1, queue, state =>
      match impl.top? queue with
      | none => (queue, state)
      | some entry => drainFor body fuel (impl.pop queue) (body state entry)

/-- The whole loop: one iteration an entry. -/
def drain (body : σ → α → σ) (queue : impl.Queue) (state : σ) : impl.Queue × σ :=
  impl.drainFor body (impl.contents queue).card queue state

/-- The entries in the order in which the top gives them. -/
def taken (queue : impl.Queue) : List α :=
  (impl.drain (fun entries entry => entries ++ [entry]) queue []).2

variable {impl}

theorem card_pop {queue : impl.Queue} {entry : α} (htop : impl.top? queue = some entry) :
    (impl.contents queue).card = (impl.contents (impl.pop queue)).card + 1 := by
  rw [impl.contents_of_top?_some htop, Multiset.card_cons]

/-- The loop ends, as the queue is empty after it. -/
theorem contents_drain (body : σ → α → σ) (queue : impl.Queue) (state : σ) :
    impl.contents (impl.drain body queue state).1 = 0 := by
  unfold drain
  induction hfuel : (impl.contents queue).card generalizing queue state with
  | zero => exact Multiset.card_eq_zero.mp hfuel
  | succ fuel ih =>
      unfold drainFor
      split
      next htop => exact impl.contents_of_top?_none htop
      next entry htop =>
        have hcard := card_pop htop
        exact ih _ _ (by omega)

/-- What the loop computes is a fold over one arrangement of the entries, in which
no entry is less than a later one. -/
theorem exists_drain_eq_foldl (queue : impl.Queue) :
    ∃ entries : List α, (entries : Multiset α) = impl.contents queue ∧
      entries.Pairwise (fun first second => ¬ lt first second) ∧
      ∀ (σ : Type) (body : σ → α → σ) (state : σ),
        (impl.drain body queue state).2 = entries.foldl body state := by
  unfold drain
  induction hfuel : (impl.contents queue).card generalizing queue with
  | zero =>
      have hempty := Multiset.card_eq_zero.mp hfuel
      exact ⟨[], by simpa using hempty.symm, .nil, fun _ _ _ => rfl⟩
  | succ fuel ih =>
      cases htop : impl.top? queue with
      | none =>
          refine ⟨[], by simpa using (impl.contents_of_top?_none htop).symm, .nil, ?_⟩
          intro σ body state
          simp [drainFor, htop]
      | some entry =>
          have hcard := card_pop htop
          obtain ⟨entries, hcontents, hpairwise, hfold⟩ := ih (impl.pop queue) (by omega)
          have hall : ((entry :: entries : List α) : Multiset α) = impl.contents queue := by
            rw [impl.contents_of_top?_some htop, ← hcontents]
            rfl
          refine ⟨entry :: entries, hall, List.pairwise_cons.mpr ⟨?_, hpairwise⟩, ?_⟩
          · intro other hother
            refine impl.not_lt_of_top? htop other ?_
            rw [← hall]
            exact List.mem_cons_of_mem _ hother
          · intro σ body state
            simp only [drainFor, htop, List.foldl_cons]
            exact hfold σ body _

theorem taken_eq_of_foldl {queue : impl.Queue} {entries : List α}
    (hfold : ∀ (σ : Type) (body : σ → α → σ) (state : σ),
      (impl.drain body queue state).2 = entries.foldl body state) :
    impl.taken queue = entries := by
  rw [taken, hfold, List.foldl_append_eq_append (f := fun entry => [entry]), ← List.flatMap_def,
    List.flatMap_singleton', List.nil_append]

theorem drain_eq_foldl (body : σ → α → σ) (queue : impl.Queue) (state : σ) :
    (impl.drain body queue state).2 = (impl.taken queue).foldl body state := by
  obtain ⟨entries, -, -, hfold⟩ := impl.exists_drain_eq_foldl queue
  rw [hfold, taken_eq_of_foldl hfold]

variable (impl)

theorem coe_taken (queue : impl.Queue) :
    (impl.taken queue : Multiset α) = impl.contents queue := by
  obtain ⟨entries, hcontents, -, hfold⟩ := impl.exists_drain_eq_foldl queue
  rw [taken_eq_of_foldl hfold]
  exact hcontents

theorem mem_taken {queue : impl.Queue} {entry : α} :
    entry ∈ impl.taken queue ↔ entry ∈ impl.contents queue := by
  rw [← coe_taken, Multiset.mem_coe]

theorem pairwise_taken (queue : impl.Queue) :
    (impl.taken queue).Pairwise fun first second => ¬ lt first second := by
  obtain ⟨entries, -, hpairwise, hfold⟩ := impl.exists_drain_eq_foldl queue
  rw [taken_eq_of_foldl hfold]
  exact hpairwise

variable {impl}

theorem contents_foldl_push (keep : α → Prop) [DecidablePred keep] (entries : List α)
    (kept : impl.Queue) :
    impl.contents
        (entries.foldl (fun kept entry => if keep entry then impl.push entry kept else kept) kept) =
      impl.contents kept + (entries : Multiset α).filter keep := by
  induction entries generalizing kept with
  | nil => simp
  | cons entry entries ih =>
      rw [List.foldl_cons, ih, ← Multiset.cons_coe]
      split
      next hkeep =>
        rw [impl.contents_push, Multiset.filter_cons_of_pos _ hkeep, Multiset.cons_add,
          Multiset.add_cons]
      next hdrop => rw [Multiset.filter_cons_of_neg _ hdrop]

theorem contents_rebuild (keep : α → Prop) [DecidablePred keep] (queue : impl.Queue) :
    impl.contents
        ((impl.taken queue).foldl
          (fun kept entry => if keep entry then impl.push entry kept else kept) impl.empty) =
      (impl.contents queue).filter keep := by
  rw [contents_foldl_push, impl.contents_empty, impl.coe_taken, Multiset.zero_add]

end PriorityQueue

section SortedList

variable {α : Type} (lt : α → α → Prop) [IsStrictWeakOrder α lt]

instance isTrans_not : IsTrans α fun first second => ¬ lt first second where
  trans first second third hfirst hsecond hlt := by
    by_cases hback : lt second first
    · exact hsecond (trans_of lt hback hlt)
    · by_cases hthird : lt third second
      · exact hfirst (trans_of lt hlt hthird)
      · have hincomparable := IsStrictWeakOrder.incomp_trans first second third
          ⟨hfirst, hback⟩ ⟨hsecond, hthird⟩
        exact hincomparable.1 hlt

instance total_not : Std.Total fun first second => ¬ lt first second where
  total first second := by
    by_cases hlt : lt first second
    · exact .inr fun hback => irrefl_of lt first (trans_of lt hlt hback)
    · exact .inl hlt

variable [DecidableRel lt]

/-- The queue that keeps its entries in a list, in the order in which they come out. -/
def sortedList : PriorityQueue α lt where
  Queue := { entries : List α // entries.Pairwise fun first second => ¬ lt first second }
  empty := ⟨[], .nil⟩
  push entry queue :=
    ⟨queue.1.orderedInsert (fun first second => ¬ lt first second) entry,
      queue.2.orderedInsert entry _⟩
  top? queue := queue.1.head?
  pop queue := ⟨queue.1.tail, queue.2.tail⟩
  contents queue := queue.1
  contents_empty := rfl
  contents_push entry queue := Multiset.coe_eq_coe.mpr (List.perm_orderedInsert _ entry queue.1)
  contents_of_top?_none htop := by simpa using htop
  contents_of_top?_some {queue entry} htop := by
    have hcons : queue.1 = entry :: queue.1.tail := List.eq_cons_of_mem_head? htop
    rw [Multiset.cons_coe, ← hcons]
  not_lt_of_top? {queue entry} htop other hother := by
    have hcons : queue.1 = entry :: queue.1.tail := List.eq_cons_of_mem_head? htop
    have hpairwise := queue.2
    rw [hcons, List.pairwise_cons] at hpairwise
    rw [Multiset.mem_coe, hcons, List.mem_cons] at hother
    rcases hother with rfl | hother
    · exact irrefl_of lt other
    · exact hpairwise.1 other hother

end SortedList
end CppProj.PriorityQueues
