import CppProj.OwnedBuffers
import CppProj.TransitionSystem
import Mathlib.Data.Option.Basic

/-!
# The stack template of `stcktp1.h`

Every `Stack` keeps its items in an array of its own, which copies and assignments
allocate anew.  Objects are named by their positions and a destroyed one leaves its
position empty.  Allocations succeed.
-/

universe u

namespace CppProj.StackTemplate

open OwnedBuffers ListUpdate

variable {α : Type u}

structure Stack where
  stacksize : ℕ
  items : ℕ
  top : ℕ
  deriving DecidableEq

namespace Stack

def isempty (self : Stack) : Bool := self.top == 0

def isfull (self : Stack) : Bool := self.top == self.stacksize

section Members

variable (heap : Heap α)

def construct (ss : ℕ) : Heap α × Stack :=
  (heap.allocate ss, { stacksize := ss, items := heap.fresh, top := 0 })

def constructCopy (st : Stack) : Except Fault (Heap α × Stack) := do
  let items := heap.fresh
  let copied ← copyLoop (some st.items) items 0 st.top 0 (heap.allocate st.stacksize)
  .ok (copied, { stacksize := st.stacksize, items := items, top := st.top })

def destroy (self : Stack) : Except Fault (Heap α) :=
  heap.release (some self.items)

def push (self : Stack) (item : α) : Except Fault (Heap α × Stack × Bool) :=
  if self.top < self.stacksize then do
    let written ← heap.write self.items self.top (some item)
    .ok (written, { self with top := self.top + 1 }, true)
  else .ok (heap, self, false)

/-- The item that is stored through the reference, when there is one. -/
def pop (self : Stack) : Except Fault (Stack × Option α) :=
  if 0 < self.top then do
    let cell ← heap.read (some self.items) (self.top - 1)
    match cell with
    | some item => .ok ({ self with top := self.top - 1 }, some item)
    | none => .error .indeterminate
  else .ok (self, none)

/-- Assignment from another object. -/
def assign (self st : Stack) : Except Fault (Heap α × Stack) := do
  let released ← heap.release (some self.items)
  let items := released.fresh
  let copied ← copyLoop (some st.items) items 0 st.top 0 (released.allocate st.stacksize)
  .ok (copied, { stacksize := st.stacksize, items := items, top := st.top })

end Members

end Stack

/-! ## A stack with a bound -/

/-- The items with the last pushed first. -/
structure BoundedStack (α : Type u) where
  capacity : ℕ
  items : List α
  bounded : items.length ≤ capacity

namespace BoundedStack

def empty (capacity : ℕ) : BoundedStack α := ⟨capacity, [], Nat.zero_le _⟩

def push (stack : BoundedStack α) (item : α) : BoundedStack α × Bool :=
  if hroom : stack.items.length < stack.capacity then
    (⟨stack.capacity, item :: stack.items, hroom⟩, true)
  else (stack, false)

def pop (stack : BoundedStack α) : BoundedStack α × Option α :=
  match hitems : stack.items with
  | [] => (stack, none)
  | item :: rest =>
      (⟨stack.capacity, rest, by
        have hbounded := stack.bounded
        rw [hitems, List.length_cons] at hbounded
        omega⟩, some item)

theorem pop_nil {stack : BoundedStack α} (hitems : stack.items = []) :
    stack.pop = (stack, none) := by
  unfold pop
  split
  · rfl
  · rename_i item rest hcons
    rw [hitems] at hcons
    cases hcons

theorem pop_cons {stack : BoundedStack α} {item : α} {rest : List α}
    (hitems : stack.items = item :: rest) :
    stack.pop.1.capacity = stack.capacity ∧ stack.pop.1.items = rest ∧
      stack.pop.2 = some item := by
  unfold pop
  split
  · rename_i hnil
    rw [hitems] at hnil
    cases hnil
  · rename_i first others hcons
    rw [hitems] at hcons
    cases hcons
    exact ⟨rfl, rfl, rfl⟩

end BoundedStack

/-! ## Sequences of operations -/

inductive Action (α : Type u) where
  | construct (ss : ℕ)
  | constructCopy (st : ℕ)
  | assign (self st : ℕ)
  | push (self : ℕ) (item : α)
  | pop (self : ℕ)
  | isempty (self : ℕ)
  | isfull (self : ℕ)
  | destroy (self : ℕ)
  deriving DecidableEq

inductive Reply (α : Type u) where
  | done
  | answer (result : Bool)
  | popped (item : Option α)
  deriving DecidableEq

structure State (α : Type u) where
  objects : List (Option Stack)
  heap : Heap α
  replies : List (Reply α)
  fault : Option Fault
  deriving DecidableEq

/-- What the operation makes of the heap and the objects; `none` for an object that does
not exist. -/
def perform (heap : Heap α) (objects : List (Option Stack)) :
    Action α → Option (Except Fault (Heap α × List (Option Stack) × Reply α))
  | .construct ss =>
      let result := Stack.construct heap ss
      some (.ok (result.1, objects ++ [some result.2], .done))
  | .constructCopy st =>
      match slot objects st with
      | some source =>
          some (do
            let result ← Stack.constructCopy heap source
            .ok (result.1, objects ++ [some result.2], .done))
      | none => none
  | .assign self st =>
      match slot objects self, slot objects st with
      | some target, some source =>
          if self = st then some (.ok (heap, objects, .done))
          else
            some (do
              let result ← Stack.assign heap target source
              .ok (result.1, objects.set self (some result.2), .done))
      | _, _ => none
  | .push self item =>
      match slot objects self with
      | some stack =>
          some (do
            let result ← stack.push heap item
            .ok (result.1, objects.set self (some result.2.1), .answer result.2.2))
      | none => none
  | .pop self =>
      match slot objects self with
      | some stack =>
          some (do
            let result ← stack.pop heap
            .ok (heap, objects.set self (some result.1), .popped result.2))
      | none => none
  | .isempty self =>
      match slot objects self with
      | some stack => some (.ok (heap, objects, .answer stack.isempty))
      | none => none
  | .isfull self =>
      match slot objects self with
      | some stack => some (.ok (heap, objects, .answer stack.isfull))
      | none => none
  | .destroy self =>
      match slot objects self with
      | some stack =>
          some (do
            let released ← stack.destroy heap
            .ok (released, objects.set self none, .done))
      | none => none

def stackProgram : TransitionSystem (State α) (Action α) where
  initial := ⟨[], [], [], none⟩
  step state action :=
    match perform state.heap state.objects action with
    | none => none
    | some (.ok (heap, objects, reply)) =>
        some { state with heap := heap, objects := objects, replies := state.replies ++ [reply] }
    | some (.error fault) => some { state with fault := some fault }

/-- The bounded stacks, each in place of an object, and the replies. -/
structure Stacks (α : Type u) where
  entries : List (Option (BoundedStack α))
  replies : List (Reply α)

def performBounded (entries : List (Option (BoundedStack α))) :
    Action α → Option (List (Option (BoundedStack α)) × Reply α)
  | .construct ss => some (entries ++ [some (.empty ss)], .done)
  | .constructCopy st => do
      let source ← slot entries st
      some (entries ++ [some source], .done)
  | .assign self st => do
      let _target ← slot entries self
      let source ← slot entries st
      some (entries.set self (some source), .done)
  | .push self item => do
      let stack ← slot entries self
      some (entries.set self (some (stack.push item).1), .answer (stack.push item).2)
  | .pop self => do
      let stack ← slot entries self
      some (entries.set self (some stack.pop.1), .popped stack.pop.2)
  | .isempty self => do
      let stack ← slot entries self
      some (entries, .answer (stack.items.length == 0))
  | .isfull self => do
      let stack ← slot entries self
      some (entries, .answer (stack.items.length == stack.capacity))
  | .destroy self => do
      let _stack ← slot entries self
      some (entries.set self none, .done)

def boundedStacks : TransitionSystem (Stacks α) (Action α) where
  initial := ⟨[], []⟩
  step state action := do
    let result ← performBounded state.entries action
    some ⟨result.1, state.replies ++ [result.2]⟩

/-! ## The members -/

/-- The first cells are the items, with the last pushed in front of the free cells. -/
structure Describes (cells : Cells α) (stack : Stack) (bounded : BoundedStack α) : Prop where
  size : stack.stacksize = bounded.capacity
  top : stack.top = bounded.items.length
  count : cells.length = stack.stacksize
  items : ∃ free, cells = bounded.items.reverse.map some ++ free

section MemberSpecs

variable {heap : Heap α} {cells : Cells α} {stack : Stack} {bounded : BoundedStack α}

theorem Describes.top_le (hdescribes : Describes cells stack bounded) :
    stack.top ≤ stack.stacksize := by
  rw [hdescribes.top, hdescribes.size]
  exact bounded.bounded

theorem construct_describes (ss : ℕ) (items : ℕ) :
    Describes (List.replicate ss none) { stacksize := ss, items := items, top := 0 }
      (BoundedStack.empty ss : BoundedStack α) where
  size := rfl
  top := rfl
  count := List.length_replicate
  items := ⟨List.replicate ss none, rfl⟩

theorem constructCopy_spec (hlookup : heap.lookup stack.items = some cells)
    (hdescribes : Describes cells stack bounded) :
    ∃ next after copied, stack.constructCopy heap = .ok (next, after) ∧
      NewBuffer heap next copied ∧ after.items = heap.fresh ∧ Describes copied after bounded := by
  obtain ⟨free, hcells⟩ := hdescribes.items
  have hnew := NewBuffer.allocate heap stack.stacksize
  have htop : (bounded.items.reverse.map some).length = stack.top := by
    rw [List.length_map, List.length_reverse, hdescribes.top]
  have hsplit : (heap.allocate stack.stacksize).lookup heap.fresh =
      some ([] ++ (List.replicate stack.top none ++
        List.replicate (stack.stacksize - stack.top) none)) := by
    rw [List.nil_append, ← List.replicate_add, Nat.add_sub_cancel' hdescribes.top_le]
    exact hnew.lookup_new
  have hne : some stack.items ≠ some heap.fresh :=
    fun hsame => Heap.ne_fresh_of_lookup hlookup (Option.some.inj hsame)
  have hreads : Reads (heap.allocate stack.stacksize) (some stack.items) 0
      (bounded.items.reverse.map some) := by
    rw [hcells] at hlookup
    refine (Reads.of_lookup hlookup).left.congr ?_
    intro address haddress
    cases haddress
    exact hnew.lookup_other _ (Heap.ne_fresh_of_lookup hlookup)
  have hloop := copyLoop_spec (bounded.items.reverse.map some) [] (List.replicate stack.top none)
    (List.replicate (stack.stacksize - stack.top) none) 0 _ hsplit
    (by rw [List.length_replicate, htop]) (Nat.le_refl 0) hne hreads
  rw [htop, List.length_nil, List.nil_append] at hloop
  refine ⟨_, { stacksize := stack.stacksize, items := heap.fresh, top := stack.top },
    bounded.items.reverse.map some ++ List.replicate (stack.stacksize - stack.top) none, ?_,
    hnew.store _, rfl, ?_⟩
  · rw [Stack.constructCopy, hloop]
    rfl
  · refine ⟨hdescribes.size, hdescribes.top, ?_, ⟨_, rfl⟩⟩
    have hle := hdescribes.top_le
    rw [List.length_append, htop, List.length_replicate]
    simp only
    omega

/-- A push that is refused stores the same cells. -/
theorem push_spec (hlookup : heap.lookup stack.items = some cells)
    (hdescribes : Describes cells stack bounded) (item : α) :
    ∃ after stored,
      stack.push heap item = .ok (heap.store stack.items stored, after, (bounded.push item).2) ∧
        after.items = stack.items ∧ Describes stored after (bounded.push item).1 := by
  obtain ⟨free, hcells⟩ := hdescribes.items
  have htop : (bounded.items.reverse.map some).length = stack.top := by
    rw [List.length_map, List.length_reverse, hdescribes.top]
  by_cases hroom : stack.top < stack.stacksize
  · have hbounded : bounded.items.length < bounded.capacity := by
      rw [← hdescribes.top, ← hdescribes.size]
      exact hroom
    have hfree : free ≠ [] := by
      rintro rfl
      have hcount := hdescribes.count
      rw [hcells, List.append_nil, htop] at hcount
      omega
    obtain ⟨old, rest, rfl⟩ := List.exists_cons_of_ne_nil hfree
    rw [hcells] at hlookup
    have hwrite := write_next hlookup (some item)
    rw [htop] at hwrite
    refine ⟨{ stack with top := stack.top + 1 },
      bounded.items.reverse.map some ++ some item :: rest, ?_, rfl, ?_⟩
    · rw [Stack.push, if_pos hroom, hwrite, BoundedStack.push, dif_pos hbounded]
      rfl
    · rw [BoundedStack.push, dif_pos hbounded]
      refine ⟨hdescribes.size, ?_, ?_, ⟨rest, ?_⟩⟩
      · simp [hdescribes.top]
      · have hcount := hdescribes.count
        rw [hcells] at hcount
        simpa using hcount
      · simp
  · have hbounded : ¬ bounded.items.length < bounded.capacity := by
      rw [← hdescribes.top, ← hdescribes.size]
      exact hroom
    refine ⟨stack, cells, ?_, rfl, ?_⟩
    · rw [Stack.push, if_neg hroom, Heap.store_of_lookup hlookup, BoundedStack.push,
        dif_neg hbounded]
    · rw [BoundedStack.push, dif_neg hbounded]
      exact hdescribes

theorem pop_spec (hlookup : heap.lookup stack.items = some cells)
    (hdescribes : Describes cells stack bounded) :
    ∃ after, stack.pop heap = .ok (after, bounded.pop.2) ∧ after.items = stack.items ∧
      Describes cells after bounded.pop.1 := by
  obtain ⟨free, hcells⟩ := hdescribes.items
  cases hitems : bounded.items with
  | nil =>
      have hempty : ¬ 0 < stack.top := by
        rw [hdescribes.top, hitems]
        exact Nat.lt_irrefl 0
      refine ⟨stack, ?_, rfl, ?_⟩
      · rw [Stack.pop, if_neg hempty, BoundedStack.pop_nil hitems]
      · rw [BoundedStack.pop_nil hitems]
        exact hdescribes
  | cons item rest =>
      obtain ⟨hcapacity, hrest, hpopped⟩ := BoundedStack.pop_cons hitems
      have htop : stack.top = rest.length + 1 := by
        rw [hdescribes.top, hitems, List.length_cons]
      have hsplit : cells = rest.reverse.map some ++ some item :: free := by
        rw [hcells, hitems]
        simp
      have hcell : cells[stack.top - 1]? = some (some item) := by
        rw [hsplit, htop, Nat.add_sub_cancel, List.getElem?_append_right (by simp)]
        simp
      refine ⟨{ stack with top := stack.top - 1 }, ?_, rfl, ?_⟩
      · rw [Stack.pop, if_pos (by omega), Heap.read_of_lookup hlookup hcell, hpopped]
        rfl
      · refine ⟨?_, ?_, hdescribes.count, ⟨some item :: free, ?_⟩⟩
        · rw [hcapacity]
          exact hdescribes.size
        · rw [hrest]
          simp only
          omega
        · rw [hrest]
          exact hsplit

end MemberSpecs

/-! ## One operation -/

abbrev StacksRepresent (objects : List (Option Stack)) (entries : List (Option (BoundedStack α)))
    (heap : Heap α) : Prop :=
  Represents Stack.items Describes objects entries heap

/-- The operation is refused on both sides, or gives the same reply and matching stacks. -/
inductive SameResult :
    Option (Except Fault (Heap α × List (Option Stack) × Reply α)) →
      Option (List (Option (BoundedStack α)) × Reply α) → Prop where
  | inapplicable : SameResult none none
  | done {heap : Heap α} {objects : List (Option Stack)}
      {entries : List (Option (BoundedStack α))} {reply : Reply α}
      (hrep : StacksRepresent objects entries heap) :
      SameResult (some (.ok (heap, objects, reply))) (some (entries, reply))

section Performing

variable {heap : Heap α} {objects : List (Option Stack)} {entries : List (Option (BoundedStack α))}

theorem assign_represents (hrep : StacksRepresent objects entries heap) {self st : ℕ}
    {target source : Stack} (htarget : slot objects self = some target)
    (hsource : slot objects st = some source) (hne : self ≠ st) :
    ∃ next after, target.assign heap source = .ok (next, after) ∧
      StacksRepresent (objects.set self (some after)) (entries.set self (slot entries st))
        next := by
  have hlt := lt_length_of_slot htarget
  obtain ⟨released, hrelease, hafter⟩ := hrep.release htarget
  have hfound : slot (objects.set self none) st = some source := by
    rw [slot_set_of_ne hne, hsource]
  obtain ⟨bounded, cells, hvalue, hlookup, hdescribes⟩ := hafter.described hfound
  rw [slot_set_of_ne hne] at hvalue
  obtain ⟨next, after, copied, hcopy, hnew, haddress, hcopied⟩ :=
    constructCopy_spec hlookup hdescribes
  have hput := hafter.put_new (by simpa using hlt) (slot_set_self hlt _) hnew haddress hcopied
  rw [List.set_set, List.set_set, ← hvalue] at hput
  refine ⟨next, after, ?_, hput⟩
  rw [Stack.assign, hrelease, ok_bind]
  exact hcopy

theorem perform_same (hrep : StacksRepresent objects entries heap) (action : Action α) :
    SameResult (perform heap objects action) (performBounded entries action) := by
  cases action with
  | construct ss =>
      exact .done (hrep.add_new (NewBuffer.allocate heap ss) rfl (construct_describes ss _))
  | constructCopy st =>
      cases hst : slot objects st with
      | none => simpa [perform, performBounded, hst, hrep.vacant hst] using .inapplicable
      | some source =>
          obtain ⟨bounded, cells, hvalue, hlookup, hdescribes⟩ := hrep.described hst
          obtain ⟨next, after, copied, hcopy, hnew, haddress, hcopied⟩ :=
            constructCopy_spec hlookup hdescribes
          simpa [perform, performBounded, hst, hvalue, hcopy] using
            .done (hrep.add_new hnew haddress hcopied)
  | assign self st =>
      cases hself : slot objects self with
      | none => simpa [perform, performBounded, hself, hrep.vacant hself] using .inapplicable
      | some target =>
          obtain ⟨_, _, htarget, _, _⟩ := hrep.described hself
          cases hst : slot objects st with
          | none =>
              simpa [perform, performBounded, hself, hst, htarget, hrep.vacant hst] using
                .inapplicable
          | some source =>
              obtain ⟨bounded, _, hvalue, _, _⟩ := hrep.described hst
              by_cases heq : self = st
              · subst heq
                have hkept : entries.set self (some bounded) = entries := by
                  rw [← hvalue, set_slot]
                simpa [perform, performBounded, hself, hvalue, hkept] using .done hrep
              · obtain ⟨next, after, hassign, hafter⟩ :=
                  assign_represents hrep hself hst heq
                rw [hvalue] at hafter
                simpa [perform, performBounded, hself, hst, htarget, hvalue, heq, hassign] using
                  .done hafter
  | push self item =>
      cases hself : slot objects self with
      | none => simpa [perform, performBounded, hself, hrep.vacant hself] using .inapplicable
      | some stack =>
          obtain ⟨bounded, cells, hvalue, hlookup, hdescribes⟩ := hrep.described hself
          obtain ⟨after, stored, hpush, haddress, hstored⟩ := push_spec hlookup hdescribes item
          simpa [perform, performBounded, hself, hvalue, hpush] using
            .done (hrep.store hself haddress hstored)
  | pop self =>
      cases hself : slot objects self with
      | none => simpa [perform, performBounded, hself, hrep.vacant hself] using .inapplicable
      | some stack =>
          obtain ⟨bounded, cells, hvalue, hlookup, hdescribes⟩ := hrep.described hself
          obtain ⟨after, hpop, haddress, hafter⟩ := pop_spec hlookup hdescribes
          have hstored := hrep.store hself haddress hafter
          rw [Heap.store_of_lookup hlookup] at hstored
          simpa [perform, performBounded, hself, hvalue, hpop] using .done hstored
  | isempty self =>
      cases hself : slot objects self with
      | none => simpa [perform, performBounded, hself, hrep.vacant hself] using .inapplicable
      | some stack =>
          obtain ⟨bounded, _, hvalue, _, hdescribes⟩ := hrep.described hself
          simpa [perform, performBounded, hself, hvalue, Stack.isempty, hdescribes.top] using
            .done hrep
  | isfull self =>
      cases hself : slot objects self with
      | none => simpa [perform, performBounded, hself, hrep.vacant hself] using .inapplicable
      | some stack =>
          obtain ⟨bounded, _, hvalue, _, hdescribes⟩ := hrep.described hself
          simpa [perform, performBounded, hself, hvalue, Stack.isfull, hdescribes.top,
            hdescribes.size] using .done hrep
  | destroy self =>
      cases hself : slot objects self with
      | none => simpa [perform, performBounded, hself, hrep.vacant hself] using .inapplicable
      | some stack =>
          obtain ⟨_, _, hvalue, _, _⟩ := hrep.described hself
          obtain ⟨released, hrelease, hafter⟩ := hrep.release hself
          simpa [perform, performBounded, hself, hvalue, Stack.destroy, hrelease] using
            .done hafter

end Performing

/-! ## Sequences of operations -/

/-- The size of a stack and its items, the first pushed first. -/
def held (state : State α) (index : ℕ) : Option (ℕ × Cells α) :=
  (slot state.objects index).map fun stack =>
    (stack.stacksize, ((state.heap.lookup stack.items).getD []).take stack.top)

/-- No access was undefined, out of bounds or of a cell without an item; the replies and
contents are those of the bounded stacks; the arrays are owned one to one and each has
`stacksize` cells. -/
structure Refines (state : State α) (spec : Stacks α) : Prop where
  noFault : state.fault = none
  replies : state.replies = spec.replies
  held : ∀ index, held state index =
    (slot spec.entries index).map fun stack => (stack.capacity, stack.items.reverse.map some)
  ownership : SoleOwnership (fun index => (slot state.objects index).bind (some ∘ Stack.items))
    state.heap.Live
  allocated : ∀ index stack, slot state.objects index = some stack →
    ∃ cells, state.heap.lookup stack.items = some cells ∧ cells.length = stack.stacksize

structure Invariant (state : State α) (spec : Stacks α) : Prop where
  noFault : state.fault = none
  replies : state.replies = spec.replies
  represents : StacksRepresent state.objects spec.entries state.heap

theorem Invariant.held {state : State α} {spec : Stacks α} (hinv : Invariant state spec)
    (index : ℕ) : held state index = (slot spec.entries index).map fun stack =>
      (stack.capacity, stack.items.reverse.map some) := by
  unfold StackTemplate.held
  cases hobject : slot state.objects index with
  | none =>
      rw [hinv.represents.vacant hobject]
      rfl
  | some stack =>
      obtain ⟨bounded, cells, hvalue, hlookup, hdescribes⟩ :=
        hinv.represents.described hobject
      obtain ⟨free, hcells⟩ := hdescribes.items
      have htop : stack.top = (bounded.items.reverse.map some).length := by
        rw [List.length_map, List.length_reverse, hdescribes.top]
      rw [hvalue, Option.map_some, Option.map_some, hlookup, Option.getD_some, hcells, htop,
        List.take_left, hdescribes.size]

theorem Invariant.refines {state : State α} {spec : Stacks α} (hinv : Invariant state spec) :
    Refines state spec where
  noFault := hinv.noFault
  replies := hinv.replies
  held := hinv.held
  ownership := hinv.represents.ownership
  allocated index stack hobject := by
    obtain ⟨_, cells, _, hlookup, hdescribes⟩ := hinv.represents.described hobject
    exact ⟨cells, hlookup, hdescribes.count⟩

theorem initial_invariant :
    Invariant (stackProgram.initial : State α) (boundedStacks.initial : Stacks α) :=
  ⟨rfl, rfl, .nil⟩

theorem Invariant.step {state : State α} {spec : Stacks α} (hinv : Invariant state spec)
    (action : Action α) :
    Option.Rel Invariant (stackProgram.step state action) (boundedStacks.step spec action) := by
  have hsame := perform_same hinv.represents action
  simp only [stackProgram, boundedStacks]
  generalize perform state.heap state.objects action = result at hsame ⊢
  generalize performBounded spec.entries action = bounded at hsame ⊢
  cases hsame with
  | inapplicable => exact .none
  | done hrep =>
      refine .some ⟨hinv.noFault, ?_, hrep⟩
      simp only
      rw [hinv.replies]

/-- The object that the operation makes or changes. -/
def Action.target (state : State α) : Action α → ℕ
  | .construct _ => state.objects.length
  | .constructCopy _ => state.objects.length
  | .assign self _ => self
  | .push self _ => self
  | .pop self => self
  | .isempty self => self
  | .isfull self => self
  | .destroy self => self

theorem performBounded_others {entries after : List (Option (BoundedStack α))} {action : Action α}
    {reply : Reply α} {state : State α} (hlength : entries.length = state.objects.length)
    (hperform : performBounded entries action = some (after, reply)) {other : ℕ}
    (hother : other ≠ action.target state) : slot after other = slot entries other := by
  cases action with
  | construct ss =>
      cases hperform
      exact slot_append_of_ne _ (by rw [hlength]; exact hother)
  | constructCopy st =>
      simp only [performBounded, Option.bind_eq_bind, Option.bind_eq_some_iff, Option.some.injEq,
        Prod.mk.injEq] at hperform
      obtain ⟨source, _, rfl, _⟩ := hperform
      exact slot_append_of_ne _ (by rw [hlength]; exact hother)
  | assign self st =>
      simp only [performBounded, Option.bind_eq_bind, Option.bind_eq_some_iff, Option.some.injEq,
        Prod.mk.injEq] at hperform
      obtain ⟨_, _, source, _, rfl, _⟩ := hperform
      exact slot_set_of_ne (Ne.symm hother) _
  | push self item =>
      simp only [performBounded, Option.bind_eq_bind, Option.bind_eq_some_iff, Option.some.injEq,
        Prod.mk.injEq] at hperform
      obtain ⟨stack, _, rfl, _⟩ := hperform
      exact slot_set_of_ne (Ne.symm hother) _
  | pop self =>
      simp only [performBounded, Option.bind_eq_bind, Option.bind_eq_some_iff, Option.some.injEq,
        Prod.mk.injEq] at hperform
      obtain ⟨stack, _, rfl, _⟩ := hperform
      exact slot_set_of_ne (Ne.symm hother) _
  | isempty self =>
      simp only [performBounded, Option.bind_eq_bind, Option.bind_eq_some_iff, Option.some.injEq,
        Prod.mk.injEq] at hperform
      obtain ⟨stack, _, rfl, _⟩ := hperform
      rfl
  | isfull self =>
      simp only [performBounded, Option.bind_eq_bind, Option.bind_eq_some_iff, Option.some.injEq,
        Prod.mk.injEq] at hperform
      obtain ⟨stack, _, rfl, _⟩ := hperform
      rfl
  | destroy self =>
      simp only [performBounded, Option.bind_eq_bind, Option.bind_eq_some_iff, Option.some.injEq,
        Prod.mk.injEq] at hperform
      obtain ⟨stack, _, rfl, _⟩ := hperform
      exact slot_set_of_ne (Ne.symm hother) _

/-- The other stacks keep their size and items. -/
def LeavesOthers (state : State α) (action : Action α) : Prop :=
  ∀ next, stackProgram.step state action = some next →
    ∀ other, other ≠ action.target state → held next other = held state other

theorem Invariant.next {state next : State α} {spec : Stacks α} {action : Action α}
    (hinv : Invariant state spec) (hstep : stackProgram.step state action = some next) :
    ∃ after, boundedStacks.step spec action = some after ∧ Invariant next after := by
  have hrel := hinv.step action
  rw [hstep] at hrel
  cases hafter : boundedStacks.step spec action with
  | none =>
      rw [hafter] at hrel
      cases hrel
  | some after =>
      rw [hafter] at hrel
      cases hrel with
      | some hnext => exact ⟨after, rfl, hnext⟩

theorem Invariant.leavesOthers {state : State α} {spec : Stacks α} (hinv : Invariant state spec)
    (action : Action α) : LeavesOthers state action := by
  intro next hstep other hother
  obtain ⟨after, hafter, hnext⟩ := hinv.next hstep
  simp only [boundedStacks, Option.bind_eq_bind, Option.bind_eq_some_iff,
    Option.some.injEq] at hafter
  obtain ⟨⟨entries, reply⟩, hperform, rfl⟩ := hafter
  rw [hnext.held, hinv.held, performBounded_others hinv.represents.length hperform hother]

/-- Any sequence of operations is that of independent bounded stacks. -/
theorem stacks_refine (actions : List (Action α)) :
    Option.Rel Refines (stackProgram.run stackProgram.initial actions)
        (boundedStacks.run boundedStacks.initial actions) ∧
      stackProgram.StepsMeet LeavesOthers stackProgram.initial actions := by
  constructor
  · have hrun := TransitionSystem.run_rel Invariant (fun _ _ action hinv => hinv.step action)
      actions (initial_invariant (α := α))
    generalize stackProgram.run stackProgram.initial actions = final at hrun ⊢
    generalize boundedStacks.run boundedStacks.initial actions = spec at hrun ⊢
    cases hrun with
    | none => exact .none
    | some hinv => exact .some hinv.refines
  · refine TransitionSystem.stepsMeet_of_invariant (fun state => ∃ spec, Invariant state spec)
      ?_ ?_ ⟨_, initial_invariant⟩
    · rintro state action next ⟨spec, hinv⟩ hstep
      obtain ⟨after, _, hnext⟩ := hinv.next hstep
      exact ⟨after, hnext⟩
    · rintro state action ⟨spec, hinv⟩
      exact hinv.leavesOthers action

example : (stackProgram.run stackProgram.initial
      [.construct 1, .push 0 7, .construct 2, .assign 1 0, .push 1 8, .pop 0, .pop 1]).map
        State.replies =
    some [.done, .answer true, .done, .done, .answer false, .popped (some 7),
      .popped (some 7)] := by
  decide

end CppProj.StackTemplate
