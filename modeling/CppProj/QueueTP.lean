import CppProj.SinglyLinked
import CppProj.TransitionSystem
import Mathlib.Algebra.Ring.Int.Defs

/-!
# The queue template of `queuetp.h`

A `QueueTP` keeps its items in linked nodes between `front` and `rear`.  A node
has the number of its allocation for an address, so that no address comes
twice.  Allocations succeed.
-/

universe u

namespace CppProj.QueueTP

open SinglyLinked

variable {Item : Type u}

/-- The nodes that exist, how many were allocated, and the deleted ones in their order. -/
structure Memory (Item : Type u) where
  nodes : Heap ℕ Item
  allocations : ℕ
  deleted : List ℕ

namespace Memory

def empty : Memory Item := ⟨fun _ => none, 0, []⟩

def newNode (memory : Memory Item) (i : Item) : Memory Item :=
  { memory with
    nodes := Function.update memory.nodes memory.allocations (some ⟨i, none⟩)
    allocations := memory.allocations + 1 }

def delete (memory : Memory Item) (address : ℕ) : Except Fault (Memory Item) :=
  match memory.nodes address with
  | none => .error .deletedDereference
  | some _ =>
      .ok { memory with
        nodes := Function.update memory.nodes address none
        deleted := memory.deleted ++ [address] }

end Memory

structure Queue where
  front : Option ℕ
  rear : Option ℕ
  items : ℤ
  qsize : ℤ
  deriving DecidableEq

namespace Queue

def new (qs : ℤ) : Queue := { front := none, rear := none, items := 0, qsize := qs }

def isempty (queue : Queue) : Bool := queue.items == 0

def isfull (queue : Queue) : Bool := queue.items == queue.qsize

def queuecount (queue : Queue) : ℤ := queue.items

def enqueue (memory : Memory Item) (queue : Queue) (item : Item) :
    Except Fault (Memory Item × Queue × Bool) :=
  if queue.isfull then .ok (memory, queue, false)
  else do
    let add := memory.allocations
    let created := memory.newNode item
    let counted := { queue with items := queue.items + 1 }
    if queue.front = none then
      .ok (created, { counted with front := some add, rear := some add }, true)
    else
      let linked ← setNext created.nodes queue.rear (some add)
      .ok ({ created with nodes := linked }, { counted with rear := some add }, true)

/-- The item that is stored through the reference, when there is one. -/
def dequeue (memory : Memory Item) (queue : Queue) :
    Except Fault (Memory Item × Queue × Option Item) :=
  match queue.front with
  | none => .ok (memory, queue, none)
  | some temp => do
      let node ← dereference memory.nodes (some temp)
      let items := queue.items - 1
      let remaining ← memory.delete temp
      .ok (remaining,
        { queue with
          front := node.next
          rear := if items = 0 then none else queue.rear
          items := items }, some node.value)

/-- The loop of the destructor. -/
def destroy : ℕ → Memory Item → Option ℕ → Except Fault (Memory Item)
  | _, memory, none => .ok memory
  | 0, _, some _ => .error .outOfFuel
  | fuel + 1, memory, some temp => do
      let node ← dereference memory.nodes (some temp)
      let remaining ← memory.delete temp
      destroy fuel remaining node.next

end Queue

/-! ## A queue with a bound -/

/-- The contents with the oldest first. -/
structure BoundedQueue (Item : Type u) where
  capacity : ℕ
  contents : List Item
  bounded : contents.length ≤ capacity

namespace BoundedQueue

def empty (capacity : ℕ) : BoundedQueue Item := ⟨capacity, [], Nat.zero_le _⟩

def enqueue (queue : BoundedQueue Item) (item : Item) : BoundedQueue Item × Bool :=
  if hroom : queue.contents.length < queue.capacity then
    (⟨queue.capacity, queue.contents ++ [item], by
      rw [List.length_append, List.length_singleton]
      exact hroom⟩, true)
  else (queue, false)

def dequeue (queue : BoundedQueue Item) : BoundedQueue Item × Option Item :=
  (⟨queue.capacity, queue.contents.tail, by
    have hbounded := queue.bounded
    rw [List.length_tail]
    omega⟩, queue.contents.head?)

end BoundedQueue

/-! ## Calls -/

inductive Call (Item : Type u) where
  | enqueue (item : Item)
  | dequeue
  | isempty
  | isfull
  | queuecount
  deriving DecidableEq

inductive Reply (Item : Type u) where
  | answer (result : Bool)
  | dequeued (item : Option Item)
  | count (items : ℤ)
  deriving DecidableEq

structure State (Item : Type u) where
  memory : Memory Item
  queue : Queue
  replies : List (Reply Item)
  fault : Option Fault

def perform (memory : Memory Item) (queue : Queue) :
    Call Item → Except Fault (Memory Item × Queue × Reply Item)
  | .enqueue item => do
      let result ← queue.enqueue memory item
      .ok (result.1, result.2.1, .answer result.2.2)
  | .dequeue => do
      let result ← queue.dequeue memory
      .ok (result.1, result.2.1, .dequeued result.2.2)
  | .isempty => .ok (memory, queue, .answer queue.isempty)
  | .isfull => .ok (memory, queue, .answer queue.isfull)
  | .queuecount => .ok (memory, queue, .count queue.queuecount)

def queueProgram (qs : ℤ) : TransitionSystem (State Item) (Call Item) where
  initial := ⟨.empty, .new qs, [], none⟩
  step state call :=
    match perform state.memory state.queue call with
    | .ok (memory, queue, reply) =>
        some { state with memory := memory, queue := queue, replies := state.replies ++ [reply] }
    | .error fault => some { state with fault := some fault }

/-- The bounded queue and the replies. -/
structure Spec (Item : Type u) where
  queue : BoundedQueue Item
  replies : List (Reply Item)

def performBounded (queue : BoundedQueue Item) : Call Item → BoundedQueue Item × Reply Item
  | .enqueue item => ((queue.enqueue item).1, .answer (queue.enqueue item).2)
  | .dequeue => (queue.dequeue.1, .dequeued queue.dequeue.2)
  | .isempty => (queue, .answer (queue.contents.length == 0))
  | .isfull => (queue, .answer (queue.contents.length == queue.capacity))
  | .queuecount => (queue, .count queue.contents.length)

def boundedQueue (capacity : ℕ) : TransitionSystem (Spec Item) (Call Item) where
  initial := ⟨.empty capacity, []⟩
  step state call :=
    some ⟨(performBounded state.queue call).1,
      state.replies ++ [(performBounded state.queue call).2]⟩

/-! ## Nodes from front to rear -/

/-- The queue has these nodes, they are the ones that exist, and every other node that was
allocated has been deleted once, the oldest first. -/
structure Holds (memory : Memory Item) (queue : Queue) (nodes : List (ℕ × Item)) : Prop where
  chain : Segment memory.nodes queue.front nodes none
  rear : queue.rear = nodes.getLast?.map Prod.fst
  items : queue.items = nodes.length
  bounded : queue.items ≤ queue.qsize
  accounted : memory.deleted ++ nodes.map Prod.fst = List.range memory.allocations
  live : ∀ address, memory.nodes address ≠ none → address ∈ nodes.map Prod.fst

section Members

variable {memory : Memory Item} {queue : Queue} {nodes : List (ℕ × Item)}

theorem Holds.distinct (hholds : Holds memory queue nodes) : (nodes.map Prod.fst).Nodup := by
  have hall := List.nodup_range (n := memory.allocations)
  rw [← hholds.accounted] at hall
  exact hall.of_append_right

theorem Holds.new_not_mem (hholds : Holds memory queue nodes) :
    memory.allocations ∉ nodes.map Prod.fst := by
  intro hmem
  have hrange : memory.allocations ∈ List.range memory.allocations := by
    rw [← hholds.accounted]
    exact List.mem_append_right _ hmem
  exact absurd (List.mem_range.mp hrange) (Nat.lt_irrefl _)

theorem Holds.front_eq_none_iff (hholds : Holds memory queue nodes) :
    queue.front = none ↔ nodes = [] :=
  hholds.chain.start_eq_none_iff

theorem Holds.isfull_iff (hholds : Holds memory queue nodes) :
    queue.isfull = true ↔ ¬ queue.items < queue.qsize := by
  have hbounded := hholds.bounded
  simp only [Queue.isfull, beq_iff_eq]
  omega

/-- The memory with a node more, and what is counted of it. -/
structure Created (memory next : Memory Item) (nodes : List (ℕ × Item)) (item : Item) : Prop where
  accounted : next.deleted ++ (nodes ++ [(memory.allocations, item)]).map Prod.fst =
    List.range next.allocations
  live : ∀ address, next.nodes address ≠ none →
    address ∈ (nodes ++ [(memory.allocations, item)]).map Prod.fst

theorem Holds.created (hholds : Holds memory queue nodes) (item : Item) :
    Created memory (memory.newNode item) nodes item where
  accounted := by
    rw [List.map_append, ← List.append_assoc, Memory.newNode, hholds.accounted, List.range_succ]
    rfl
  live address haddress := by
    rw [List.map_append, List.mem_append]
    by_cases heq : address = memory.allocations
    · exact Or.inr (by simp [heq])
    · simp only [Memory.newNode, Function.update_of_ne heq] at haddress
      exact Or.inl (hholds.live address haddress)

theorem Holds.count_succ (hholds : Holds memory queue nodes) (node : ℕ × Item) :
    queue.items + 1 = (nodes ++ [node]).length := by
  rw [hholds.items, List.length_append, List.length_singleton]
  rfl

theorem Holds.enqueue_empty (hholds : Holds memory queue []) (hroom : queue.items < queue.qsize)
    (item : Item) :
    Holds (memory.newNode item)
      { queue with
        front := some memory.allocations
        rear := some memory.allocations
        items := queue.items + 1 } [(memory.allocations, item)] where
  chain := Segment.singleton_iff.mpr ⟨rfl, Function.update_self ..⟩
  rear := rfl
  items := hholds.count_succ (memory.allocations, item)
  bounded := hroom
  accounted := (hholds.created item).accounted
  live := (hholds.created item).live

theorem Holds.enqueue_rear {before : List (ℕ × Item)} {last : ℕ} {value : Item}
    (hholds : Holds memory queue (before ++ [(last, value)]))
    (hroom : queue.items < queue.qsize) (item : Item) :
    ∃ linked, setNext (memory.newNode item).nodes queue.rear (some memory.allocations) =
        .ok linked ∧
      Holds { memory.newNode item with nodes := linked }
        { queue with rear := some memory.allocations, items := queue.items + 1 }
        (before ++ [(last, value)] ++ [(memory.allocations, item)]) := by
  have hkept : Segment (memory.newNode item).nodes queue.front (before ++ [(last, value)]) none :=
    hholds.chain.update_of_notMem hholds.new_not_mem _
  have hrear : queue.rear = some last := by
    rw [hholds.rear]
    simp
  obtain ⟨middle, _, hlast⟩ := Segment.append_iff.mp hkept
  obtain ⟨_, hnode⟩ := Segment.singleton_iff.mp hlast
  have hne : memory.allocations ≠ last := by
    rintro rfl
    exact hholds.new_not_mem (by simp)
  refine ⟨_, by rw [hrear]; exact setNext_some hnode (some memory.allocations), ?_⟩
  constructor
  · refine Segment.append_iff.mpr
      ⟨_, hkept.relink hholds.distinct (some memory.allocations), ?_⟩
    refine Segment.singleton_iff.mpr ⟨rfl, ?_⟩
    simp only [Function.update_of_ne hne]
    exact Function.update_self ..
  · simp
  · exact hholds.count_succ (memory.allocations, item)
  · exact hroom
  · exact (hholds.created item).accounted
  · intro address haddress
    by_cases heq : address = last
    · subst heq
      simp
    · simp only [Function.update_of_ne heq] at haddress
      exact (hholds.created item).live address haddress

/-- The new node comes behind the last one, or alone. -/
theorem Holds.enqueue (hholds : Holds memory queue nodes) (hroom : queue.items < queue.qsize)
    (item : Item) :
    ∃ next after, queue.enqueue memory item = .ok (next, after, true) ∧
      Holds next after (nodes ++ [(memory.allocations, item)]) ∧ after.qsize = queue.qsize := by
  have hnot : ¬ queue.isfull = true := fun hfull => hholds.isfull_iff.mp hfull hroom
  rcases List.eq_nil_or_concat' nodes with rfl | ⟨before, ⟨last, value⟩, rfl⟩
  · have hfront : queue.front = none := hholds.front_eq_none_iff.mpr rfl
    refine ⟨_, _, ?_, hholds.enqueue_empty hroom item, rfl⟩
    rw [Queue.enqueue, if_neg hnot, if_pos hfront]
  · have hfront : queue.front ≠ none := by
      rw [Ne, hholds.front_eq_none_iff]
      simp
    obtain ⟨linked, hlinked, hafter⟩ := hholds.enqueue_rear hroom item
    refine ⟨_, _, ?_, hafter, rfl⟩
    rw [Queue.enqueue, if_neg hnot, if_neg hfront, hlinked]
    rfl

theorem enqueue_of_full (hholds : Holds memory queue nodes) (hfull : ¬ queue.items < queue.qsize)
    (item : Item) : queue.enqueue memory item = .ok (memory, queue, false) :=
  if_pos (hholds.isfull_iff.mpr hfull)

theorem delete_of_node {address : ℕ} {node : Node ℕ Item}
    (hnode : memory.nodes address = some node) :
    memory.delete address =
      .ok { memory with
        nodes := Function.update memory.nodes address none
        deleted := memory.deleted ++ [address] } := by
  simp [Memory.delete, hnode]

theorem live_of_deleted {heap : Heap ℕ Item} {address : ℕ} {item : Item}
    {rest : List (ℕ × Item)}
    (hlive : ∀ other, heap other ≠ none → other ∈ ((address, item) :: rest).map Prod.fst) :
    ∀ other, Function.update heap address none other ≠ none → other ∈ rest.map Prod.fst := by
  intro other hother
  have hne : other ≠ address := by
    rintro rfl
    simp at hother
  rw [Function.update_of_ne hne] at hother
  have hmem := hlive other hother
  rw [List.map_cons, List.mem_cons] at hmem
  exact hmem.resolve_left hne

theorem dequeue_of_empty (hholds : Holds memory queue []) :
    queue.dequeue memory = .ok (memory, queue, none) := by
  rw [Queue.dequeue, hholds.front_eq_none_iff.mpr rfl]

/-- The front node is deleted, and `rear` with the last one. -/
theorem Holds.dequeue {address : ℕ} {item : Item} {rest : List (ℕ × Item)}
    (hholds : Holds memory queue ((address, item) :: rest)) :
    ∃ next after, queue.dequeue memory = .ok (next, after, some item) ∧ Holds next after rest ∧
      after.qsize = queue.qsize := by
  obtain ⟨hfront, following, hnode, hrest⟩ := Segment.cons_iff.mp hholds.chain
  have hdistinct := hholds.distinct
  rw [List.map_cons, List.nodup_cons] at hdistinct
  have hitems : queue.items - 1 = rest.length := by
    rw [hholds.items, List.length_cons]
    omega
  refine ⟨{ memory with
      nodes := Function.update memory.nodes address none
      deleted := memory.deleted ++ [address] },
    { queue with
      front := following
      rear := if queue.items - 1 = 0 then none else queue.rear
      items := queue.items - 1 }, ?_, ?_, rfl⟩
  · rw [Queue.dequeue, hfront]
    simp only [dereference_some hnode, ok_bind, delete_of_node hnode]
  · constructor
    · exact hrest.update_of_notMem hdistinct.1 none
    · cases rest with
      | nil => simp [hitems]
      | cons second others =>
          have hmore : queue.items - 1 ≠ 0 := by
            rw [hitems, List.length_cons]
            omega
          simp only [if_neg hmore]
          rw [hholds.rear, List.getLast?_cons_cons]
    · exact hitems
    · have hbounded := hholds.bounded
      simp only
      omega
    · have haccounted := hholds.accounted
      rw [List.map_cons] at haccounted
      rw [List.append_assoc, List.singleton_append]
      exact haccounted
    · exact live_of_deleted hholds.live

/-- The destructor deletes the nodes one after the other and ends. -/
theorem destroy_spec (nodes : List (ℕ × Item)) : ∀ (fuel : ℕ) (memory : Memory Item)
    (front : Option ℕ), Segment memory.nodes front nodes none → (nodes.map Prod.fst).Nodup →
    (∀ address, memory.nodes address ≠ none → address ∈ nodes.map Prod.fst) →
    nodes.length ≤ fuel →
    ∃ final, Queue.destroy fuel memory front = .ok final ∧
      final.deleted = memory.deleted ++ nodes.map Prod.fst ∧
      ∀ address, final.nodes address = none := by
  induction nodes with
  | nil =>
      intro fuel memory front hchain _ hlive _
      have hfront : front = none := hchain
      refine ⟨memory, ?_, (List.append_nil _).symm, ?_⟩
      · rw [hfront, Queue.destroy]
      · intro address
        by_contra hsome
        exact absurd (hlive address hsome) List.not_mem_nil
  | cons node rest ih =>
      obtain ⟨address, item⟩ := node
      intro fuel memory front hchain hdistinct hlive hfuel
      obtain ⟨rfl, following, hnode, hrest⟩ := Segment.cons_iff.mp hchain
      rw [List.map_cons, List.nodup_cons] at hdistinct
      obtain ⟨fuel, rfl⟩ : ∃ less, fuel = less + 1 := by
        rw [List.length_cons] at hfuel
        exact ⟨fuel - 1, by omega⟩
      obtain ⟨final, hdone, hdeleted, hnone⟩ := ih fuel
        { memory with
          nodes := Function.update memory.nodes address none
          deleted := memory.deleted ++ [address] } following
        (hrest.update_of_notMem hdistinct.1 none) hdistinct.2
        (live_of_deleted hlive) (Nat.le_of_succ_le_succ hfuel)
      refine ⟨final, ?_, ?_, hnone⟩
      · rw [Queue.destroy, dereference_some hnode, ok_bind, delete_of_node hnode, ok_bind]
        exact hdone
      · rw [hdeleted, List.map_cons, List.append_assoc, List.singleton_append]

end Members

/-! ## Sequences of calls -/

/-- The destructor ends without a fault; all remaining nodes are deleted by it, and with
them every node that was ever allocated has been deleted exactly once. -/
def Destructs (memory : Memory Item) (queue : Queue) (nodes : List (ℕ × Item)) : Prop :=
  ∀ fuel ≥ nodes.length, ∃ final, Queue.destroy fuel memory queue.front = .ok final ∧
    final.deleted = memory.deleted ++ nodes.map Prod.fst ∧
    final.deleted = List.range memory.allocations ∧ ∀ address, final.nodes address = none

/-- No node is used that does not exist, the replies are those of the bounded queue, and
the nodes hold its contents. -/
structure Refines (state : State Item) (spec : Spec Item) : Prop where
  noFault : state.fault = none
  replies : state.replies = spec.replies
  size : state.queue.qsize = spec.queue.capacity
  rear_eq_none_iff : state.queue.rear = none ↔ state.queue.items = 0
  nodes : ∃ nodes, Holds state.memory state.queue nodes ∧
    nodes.map Prod.snd = spec.queue.contents ∧ Destructs state.memory state.queue nodes

structure Invariant (state : State Item) (spec : Spec Item) : Prop where
  noFault : state.fault = none
  replies : state.replies = spec.replies
  size : state.queue.qsize = spec.queue.capacity
  nodes : ∃ nodes, Holds state.memory state.queue nodes ∧
    nodes.map Prod.snd = spec.queue.contents

theorem Holds.destructs {memory : Memory Item} {queue : Queue} {nodes : List (ℕ × Item)}
    (hholds : Holds memory queue nodes) : Destructs memory queue nodes := by
  intro fuel hfuel
  obtain ⟨final, hdone, hdeleted, hnone⟩ :=
    destroy_spec nodes fuel memory queue.front hholds.chain hholds.distinct hholds.live hfuel
  exact ⟨final, hdone, hdeleted, hdeleted.trans hholds.accounted, hnone⟩

theorem Invariant.refines {state : State Item} {spec : Spec Item} (hinv : Invariant state spec) :
    Refines state spec := by
  obtain ⟨nodes, hholds, hcontents⟩ := hinv.nodes
  refine ⟨hinv.noFault, hinv.replies, hinv.size, ?_, nodes, hholds, hcontents, hholds.destructs⟩
  rw [hholds.rear, hholds.items, Option.map_eq_none_iff, List.getLast?_eq_none_iff]
  simp

theorem perform_spec {memory : Memory Item} {queue : Queue} {nodes : List (ℕ × Item)}
    {bounded : BoundedQueue Item} (hholds : Holds memory queue nodes)
    (hcontents : nodes.map Prod.snd = bounded.contents) (hsize : queue.qsize = bounded.capacity)
    (call : Call Item) :
    ∃ next after nodes', perform memory queue call =
        .ok (next, after, (performBounded bounded call).2) ∧ Holds next after nodes' ∧
      nodes'.map Prod.snd = (performBounded bounded call).1.contents ∧
      after.qsize = (performBounded bounded call).1.capacity := by
  have hcount : queue.items = bounded.contents.length := by
    rw [hholds.items, ← hcontents, List.length_map]
  cases call with
  | enqueue item =>
      by_cases hroom : queue.items < queue.qsize
      · have hfits : bounded.contents.length < bounded.capacity := by
          rw [hcount, hsize] at hroom
          exact Int.ofNat_lt.mp hroom
        obtain ⟨next, after, hdone, hafter, hkept⟩ := hholds.enqueue hroom item
        refine ⟨next, after, _, ?_, hafter, ?_, ?_⟩
        · simp [perform, hdone, performBounded, BoundedQueue.enqueue, hfits]
        · simp [performBounded, BoundedQueue.enqueue, hfits, hcontents]
        · simp [performBounded, BoundedQueue.enqueue, hfits, hkept, hsize]
      · have hfull : ¬ bounded.contents.length < bounded.capacity := by
          rw [hcount, hsize] at hroom
          exact fun hfits => hroom (Int.ofNat_lt.mpr hfits)
        refine ⟨memory, queue, nodes, ?_, hholds, ?_, ?_⟩
        · simp [perform, enqueue_of_full hholds hroom, performBounded, BoundedQueue.enqueue, hfull]
        · simp [performBounded, BoundedQueue.enqueue, hfull, hcontents]
        · simp [performBounded, BoundedQueue.enqueue, hfull, hsize]
  | dequeue =>
      cases nodes with
      | nil =>
          have hempty : bounded.contents = [] := hcontents.symm
          refine ⟨memory, queue, [], ?_, hholds, ?_, ?_⟩
          · simp [perform, dequeue_of_empty hholds, performBounded, BoundedQueue.dequeue, hempty]
          · simp [performBounded, BoundedQueue.dequeue, hempty]
          · simp [performBounded, BoundedQueue.dequeue, hsize]
      | cons node rest =>
          obtain ⟨address, item⟩ := node
          have hfirst : bounded.contents = item :: rest.map Prod.snd := hcontents.symm
          obtain ⟨next, after, hdone, hafter, hkept⟩ := hholds.dequeue
          refine ⟨next, after, rest, ?_, hafter, ?_, ?_⟩
          · simp [perform, hdone, performBounded, BoundedQueue.dequeue, hfirst]
          · simp [performBounded, BoundedQueue.dequeue, hfirst]
          · simp [performBounded, BoundedQueue.dequeue, hkept, hsize]
  | isempty =>
      refine ⟨memory, queue, nodes, ?_, hholds, hcontents, hsize⟩
      simp [perform, performBounded, Queue.isempty, hcount]
  | isfull =>
      refine ⟨memory, queue, nodes, ?_, hholds, hcontents, hsize⟩
      simp [perform, performBounded, Queue.isfull, hcount, hsize]
  | queuecount =>
      refine ⟨memory, queue, nodes, ?_, hholds, hcontents, hsize⟩
      simp [perform, performBounded, Queue.queuecount, hcount]

theorem initial_invariant (qs : ℕ) :
    Invariant ((queueProgram qs).initial : State Item) (boundedQueue qs).initial := by
  refine ⟨rfl, rfl, rfl, [], ⟨rfl, rfl, rfl, ?_, rfl, ?_⟩, rfl⟩
  · exact Int.natCast_nonneg qs
  · exact fun _ hnode => absurd rfl hnode

theorem Invariant.step {state : State Item} {spec : Spec Item} (hinv : Invariant state spec)
    (qs : ℕ) (call : Call Item) :
    Option.Rel Invariant ((queueProgram qs).step state call)
      ((boundedQueue qs).step spec call) := by
  obtain ⟨nodes, hholds, hcontents⟩ := hinv.nodes
  obtain ⟨next, after, nodes', hperform, hafter, hkept, hsize⟩ :=
    perform_spec hholds hcontents hinv.size call
  simp only [queueProgram, boundedQueue, hperform]
  refine .some ⟨hinv.noFault, ?_, hsize, nodes', hafter, hkept⟩
  simp only
  rw [hinv.replies]

theorem boundedQueue_run (qs : ℕ) (calls : List (Call Item)) :
    ∀ spec, ∃ final, (boundedQueue qs).run spec calls = some final := by
  induction calls with
  | nil => exact fun spec => ⟨spec, rfl⟩
  | cons call calls ih => exact fun spec => ih _

/-- Any sequence of calls is that of a bounded queue. -/
theorem queue_refines (qs : ℕ) (calls : List (Call Item)) :
    ∃ state spec, (queueProgram qs).run (queueProgram qs).initial calls = some state ∧
      (boundedQueue qs).run (boundedQueue qs).initial calls = some spec ∧ Refines state spec := by
  have hinitial : Invariant ((queueProgram qs).initial : State Item) (boundedQueue qs).initial :=
    initial_invariant qs
  have hrun := TransitionSystem.run_rel Invariant (fun _ _ call hinv => hinv.step qs call)
    calls hinitial
  obtain ⟨spec, hspec⟩ := boundedQueue_run qs calls (boundedQueue qs).initial
  rw [hspec] at hrun
  generalize hfinal : (queueProgram qs).run (queueProgram qs).initial calls = final at hrun
  cases hrun with
  | some hinv => exact ⟨_, spec, rfl, hspec, hinv.refines⟩

example : ((queueProgram 1).run (queueProgram 1).initial
      [.dequeue, .enqueue 5, .enqueue 6, .dequeue, .enqueue 7]).map
        (fun state : State ℕ => state.replies) =
    some [.dequeued none, .answer true, .answer false, .dequeued (some 5), .answer true] := by
  decide

end CppProj.QueueTP
