import CppProj.ListUpdate
import CppProj.OwnedTrees
import CppProj.TransitionSystem
import Mathlib.Data.List.Perm.Subperm

/-!
# The composite of `component.cpp`

A composite owns the components in its vector: its destructor deletes them, and `Remove`
deletes one of them.  Components are named by their addresses, the pointers handed to the
class are not null.  What is printed is left out.
-/

namespace CppProj.Composite

open ListUpdate OwnedTrees

inductive Component where
  | leaf (name : String)
  | composite (name : String) (vecComp : List ℕ)
  deriving DecidableEq

namespace Component

def getName : Component → String
  | leaf name => name
  | composite name _ => name

/-- What the destructor deletes. -/
def children : Component → List ℕ
  | leaf _ => []
  | composite _ vecComp => vecComp

/-- `Add`; a leaf does nothing. -/
def add (pComponent : ℕ) : Component → Component
  | leaf name => leaf name
  | composite name vecComp => composite name (vecComp ++ [pComponent])

end Component

/-- A deleted component leaves its address empty. -/
abbrev Heap := List (Option Component)

inductive Fault where
  | deletedDereference
  | outOfFuel
  deriving DecidableEq

@[simp] theorem ok_bind {β γ : Type} (result : β) (next : β → Except Fault γ) :
    (Except.ok result >>= next) = next result := rfl

def getName (heap : Heap) (address : ℕ) : Except Fault String :=
  match slot heap address with
  | none => .error .deletedDereference
  | some component => .ok component.getName

/-- The loop of the destructor, with the heap and the components deleted by it.  To delete
a component is to run this loop for its own children first. -/
def destroyLoop : ℕ → Heap → List ℕ → Except Fault (Heap × List ℕ)
  | 0, _, _ => .error .outOfFuel
  | _ + 1, heap, [] => .ok (heap, [])
  | fuel + 1, heap, it :: rest =>
      match slot heap it with
      | none => .error .deletedDereference
      | some component => do
          let below ← destroyLoop fuel heap component.children
          let others ← destroyLoop fuel (below.1.set it none) rest
          .ok (others.1, below.2 ++ it :: others.2)

/-- `delete`.  The recursion cannot go deeper than there are components. -/
def deleteComponent (heap : Heap) (pComponent : ℕ) : Except Fault (Heap × List ℕ) :=
  destroyLoop (heap.length + 1) heap [pComponent]

/-- The loop of `Remove` over the vector, of which it has passed the first part. -/
def removeLoop (heap : Heap) (pComponent : ℕ) (passed : List ℕ) :
    List ℕ → Except Fault (Heap × List ℕ × List ℕ)
  | [] => .ok (heap, passed, [])
  | it :: rest => do
      let itName ← getName heap it
      let name ← getName heap pComponent
      if itName = name then do
        let result ← deleteComponent heap it
        .ok (result.1, passed ++ rest, result.2)
      else removeLoop heap pComponent (passed ++ [it]) rest

def remove (heap : Heap) (self pComponent : ℕ) : Except Fault (Heap × List ℕ) :=
  match slot heap self with
  | none => .error .deletedDereference
  | some (.leaf _) => .ok (heap, [])
  | some (.composite name vecComp) => do
      let result ← removeLoop heap pComponent [] vecComp
      .ok (result.1.set self (some (.composite name result.2.1)), result.2.2)

/-! ## Sequences of operations -/

/-- No component has the address in its vector. -/
def Orphan (heap : Heap) (address : ℕ) : Prop :=
  ∀ component ∈ heap, ∀ found ∈ component, address ∉ Component.children found

instance (heap : Heap) (address : ℕ) : Decidable (Orphan heap address) :=
  inferInstanceAs (Decidable (∀ component ∈ heap, ∀ found ∈ component,
    address ∉ Component.children found))

/-- The components of some trees, children before their parent. -/
def collect (heap : Heap) : ℕ → List ℕ → List ℕ
  | 0, _ => []
  | _ + 1, [] => []
  | fuel + 1, address :: rest =>
      match slot heap address with
      | none => collect heap fuel rest
      | some component =>
          collect heap fuel component.children ++ address :: collect heap fuel rest

inductive Action where
  | newLeaf (name : String)
  | newComposite (name : String)
  | add (self pComponent : ℕ)
  | remove (self pComponent : ℕ)
  | destroy (root : ℕ)
  deriving DecidableEq

structure State where
  heap : Heap
  deleted : List ℕ
  fault : Option Fault
  deriving DecidableEq

def State.after (state : State) : Except Fault (Heap × List ℕ) → State
  | .ok (heap, deleted) => { state with heap := heap, deleted := state.deleted ++ deleted }
  | .error fault => { state with fault := some fault }

/-- A component is added once, and not to a component under itself; a child is removed from
its composite; a component without a parent is destroyed as a root. -/
def step (state : State) : Action → Option State
  | .newLeaf name => some { state with heap := state.heap ++ [some (.leaf name)] }
  | .newComposite name => some { state with heap := state.heap ++ [some (.composite name [])] }
  | .add self pComponent =>
      match slot state.heap self, slot state.heap pComponent with
      | some component, some _ =>
          if Orphan state.heap pComponent ∧
              self ∉ collect state.heap (state.heap.length + 1) [pComponent] then
            some { state with heap := state.heap.set self (some (component.add pComponent)) }
          else none
      | _, _ => none
  | .remove self pComponent =>
      match slot state.heap self with
      | some component =>
          if pComponent ∈ component.children then
            some (state.after (remove state.heap self pComponent))
          else none
      | none => none
  | .destroy root =>
      match slot state.heap root with
      | some _ =>
          if Orphan state.heap root then some (state.after (deleteComponent state.heap root))
          else none
      | none => none

def compositeProgram : TransitionSystem State Action where
  initial := ⟨[], [], none⟩
  step := step

abbrev IsChildOf (heap : Heap) := IsChild Component.children (slot heap)

abbrev BelowOf (heap : Heap) := Below Component.children (slot heap)

abbrev OwnedHeap (heap : Heap) : Prop := Owned Component.children (slot heap)

def nameOf (heap : Heap) (address : ℕ) : Option String :=
  (slot heap address).map Component.getName

def childrenOf (heap : Heap) (address : ℕ) : List ℕ :=
  (slot heap address).elim [] Component.children

/-- Exactly these components have been deleted, each of them once. -/
structure Deletes (heap next : Heap) (root : ℕ) (deleted : List ℕ) : Prop where
  length : next.length = heap.length
  nodup : deleted.Nodup
  mem_iff : ∀ address, address ∈ deleted ↔ BelowOf heap root address
  slots : ∀ address, slot next address = if address ∈ deleted then none else slot heap address

/-- A child has been deleted with its tree, and the composite has lost just that child. -/
structure Removes (heap next : Heap) (parent victim : ℕ) (deleted : List ℕ) : Prop where
  length : next.length = heap.length
  nodup : deleted.Nodup
  mem_iff : ∀ address, address ∈ deleted ↔ BelowOf heap victim address
  slots : ∀ address, slot next address =
    if address ∈ deleted then none
    else if address = parent then (slot heap parent).map fun component =>
      .composite component.getName (component.children.erase victim)
    else slot heap address

def RemovesExactly (heap : Heap) (self pComponent : ℕ) : Prop :=
  ∃ next deleted, remove heap self pComponent = .ok (next, deleted) ∧
    Removes heap next self pComponent deleted

def RemoveExact (state : State) : Action → Prop
  | .remove self pComponent => RemovesExactly state.heap self pComponent
  | .newLeaf _ | .newComposite _ | .add _ _ | .destroy _ => True

/-- To destroy the root deletes its tree, none of it a second time, and leaves nothing
behind if the root is the only one. -/
def DestroysTree (state : State) (root : ℕ) : Prop :=
  ∃ next deleted, deleteComponent state.heap root = .ok (next, deleted) ∧
    Deletes state.heap next root deleted ∧ (state.deleted ++ deleted).Nodup ∧
    ((∀ other, slot state.heap other ≠ none → Orphan state.heap other → other = root) →
      ∀ address, slot next address = none)

def OwnsExactly (actions : List Action) (final : State) : Prop :=
  compositeProgram.StepsMeet RemoveExact compositeProgram.initial actions ∧
    final.fault = none ∧
    ∀ root, slot final.heap root ≠ none → Orphan final.heap root → DestroysTree final root

/-- No sibling before the child to be removed has its name. -/
def FirstOfItsName (state : State) : Action → Prop
  | .remove self pComponent =>
      ∀ sibling ∈ (childrenOf state.heap self).takeWhile (· ≠ pComponent),
        nameOf state.heap sibling ≠ nameOf state.heap pComponent
  | .newLeaf _ | .newComposite _ | .add _ _ | .destroy _ => True

instance (state : State) (action : Action) : Decidable (FirstOfItsName state action) :=
  match action with
  | .remove self pComponent => inferInstanceAs (Decidable
      (∀ sibling ∈ (childrenOf state.heap self).takeWhile (· ≠ pComponent),
        nameOf state.heap sibling ≠ nameOf state.heap pComponent))
  | .newLeaf _ | .newComposite _ | .add _ _ | .destroy _ => isTrue trivial

/-! ## Deleting a tree -/

def freeAll (heap : Heap) (addresses : List ℕ) : Heap :=
  addresses.foldl (fun heap address => heap.set address none) heap

theorem slot_set_none_self (heap : Heap) (address : ℕ) :
    slot (heap.set address none) address = none := by
  by_cases hlt : address < heap.length
  · exact slot_set_self hlt none
  · rw [List.set_eq_of_length_le (Nat.not_lt.mp hlt), slot,
      List.getElem?_eq_none (Nat.not_lt.mp hlt)]
    rfl

theorem slot_freeAll (addresses : List ℕ) (heap : Heap) (address : ℕ) :
    slot (freeAll heap addresses) address =
      if address ∈ addresses then none else slot heap address := by
  induction addresses generalizing heap with
  | nil => rfl
  | cons first rest ih =>
      have hrest := ih (heap.set first none)
      refine hrest.trans ?_
      by_cases heq : address = first
      · subst heq
        simp [slot_set_none_self]
      · simp [heq, slot_set_of_ne (Ne.symm heq)]

theorem freeAll_length (addresses : List ℕ) (heap : Heap) :
    (freeAll heap addresses).length = heap.length := by
  induction addresses generalizing heap with
  | nil => rfl
  | cons first rest ih => exact (ih _).trans (List.length_set ..)

theorem freeAll_append (heap : Heap) (first second : List ℕ) :
    freeAll heap (first ++ second) = freeAll (freeAll heap first) second :=
  List.foldl_append

theorem destroyLoop_spec {nodes : ℕ → Option Component} {roots all : List ℕ}
    (hforest : Forest Component.children nodes roots all) :
    ∀ (heap : Heap) (fuel : ℕ), (∀ address ∈ all, slot heap address = nodes address) →
      all.Nodup → all.length < fuel →
        destroyLoop fuel heap roots = .ok (freeAll heap all, all) := by
  induction hforest with
  | nil =>
      intro heap fuel _ _ hfuel
      cases fuel with
      | zero => exact absurd hfuel (Nat.not_lt_zero _)
      | succ fuel => rfl
  | @cons it rest below others node hnode _ _ ihbelow ihothers =>
      intro heap fuel hagree hnodup hfuel
      rw [List.length_append, List.length_cons] at hfuel
      obtain ⟨fuel, rfl⟩ : ∃ less, fuel = less + 1 := ⟨fuel - 1, by omega⟩
      obtain ⟨hbelowNodup, hlaterNodup, hdisjoint⟩ := List.nodup_append.mp hnodup
      obtain ⟨hitFresh, hothersNodup⟩ := List.nodup_cons.mp hlaterNodup
      have hslot : slot heap it = some node := (hagree it (by simp)).trans hnode
      have hfirst := ihbelow heap fuel (fun address hmem => hagree address (by simp [hmem]))
        hbelowNodup (by omega)
      have hkept : ∀ address ∈ others,
          slot ((freeAll heap below).set it none) address = nodes address := by
        intro address hmem
        have hneIt : it ≠ address := by
          rintro rfl
          exact hitFresh hmem
        have hnotBelow : address ∉ below :=
          fun h => hdisjoint address h address (List.mem_cons_of_mem _ hmem) rfl
        rw [slot_set_of_ne hneIt, slot_freeAll, if_neg hnotBelow]
        exact hagree address (by simp [hmem])
      have hsecond := ihothers ((freeAll heap below).set it none) fuel hkept hothersNodup
        (by omega)
      simp only [destroyLoop, hslot]
      rw [hfirst, ok_bind, hsecond, ok_bind, freeAll_append]
      rfl

theorem length_le_of_forest {heap : Heap} {roots all : List ℕ}
    (hforest : Forest Component.children (slot heap) roots all) (hnodup : all.Nodup)
    (howned : OwnedHeap heap) (hlive : ∀ root ∈ roots, slot heap root ≠ none) :
    all.length ≤ heap.length := by
  have hsubset : all ⊆ List.range heap.length := by
    intro address hmem
    obtain ⟨root, hroot, hbelow⟩ := (hforest.mem_iff address).mp hmem
    obtain ⟨component, hcomponent⟩ :=
      Option.ne_none_iff_exists'.mp (below_live howned (hlive root hroot) hbelow)
    exact List.mem_range.mpr (lt_length_of_slot hcomponent)
  have hlength := (List.subperm_of_subset hnodup hsubset).length_le
  rwa [List.length_range] at hlength

theorem deleteComponent_spec {heap : Heap} (howned : OwnedHeap heap) {root : ℕ}
    (hroot : slot heap root ≠ none) :
    ∃ deleted, deleteComponent heap root = .ok (freeAll heap deleted, deleted) ∧
      Deletes heap (freeAll heap deleted) root deleted := by
  obtain ⟨all, hforest, hnodup, hmem⟩ := Forest.exists_single howned hroot
  have hlength := length_le_of_forest hforest hnodup howned (by simpa using hroot)
  refine ⟨all, ?_, freeAll_length all heap, hnodup, hmem, slot_freeAll all heap⟩
  exact destroyLoop_spec hforest heap _ (fun _ _ => rfl) hnodup (by omega)

theorem collect_eq {heap : Heap} {roots all : List ℕ}
    (hforest : Forest Component.children (slot heap) roots all) :
    ∀ fuel, all.length < fuel → collect heap fuel roots = all := by
  induction hforest with
  | nil =>
      intro fuel hfuel
      cases fuel with
      | zero => exact absurd hfuel (Nat.not_lt_zero _)
      | succ fuel => rfl
  | @cons address rest below others node hnode _ _ ihbelow ihothers =>
      intro fuel hfuel
      rw [List.length_append, List.length_cons] at hfuel
      obtain ⟨fuel, rfl⟩ : ∃ less, fuel = less + 1 := ⟨fuel - 1, by omega⟩
      simp only [collect, hnode]
      rw [ihbelow fuel (by omega), ihothers fuel (by omega)]

theorem mem_collect_iff {heap : Heap} (howned : OwnedHeap heap) {root : ℕ}
    (hroot : slot heap root ≠ none) (address : ℕ) :
    address ∈ collect heap (heap.length + 1) [root] ↔ BelowOf heap root address := by
  obtain ⟨all, hforest, hnodup, hmem⟩ := Forest.exists_single howned hroot
  have hlength := length_le_of_forest hforest hnodup howned (by simpa using hroot)
  rw [collect_eq hforest _ (by omega)]
  exact hmem address

/-! ## What `Remove` does -/

theorem getName_of_slot {heap : Heap} {address : ℕ} {component : Component}
    (hslot : slot heap address = some component) :
    getName heap address = .ok component.getName := by
  rw [getName, hslot]

theorem removeLoop_spec {heap : Heap} {pComponent victim : ℕ} {before after : List ℕ}
    (hlive : ∀ child ∈ before ++ victim :: after, slot heap child ≠ none)
    (hcomponent : slot heap pComponent ≠ none)
    (hbefore : ∀ child ∈ before, nameOf heap child ≠ nameOf heap pComponent)
    (hvictim : nameOf heap victim = nameOf heap pComponent) (passed : List ℕ) :
    removeLoop heap pComponent passed (before ++ victim :: after) =
      deleteComponent heap victim >>= fun result =>
        .ok (result.1, passed ++ before ++ after, result.2) := by
  obtain ⟨component, hslot⟩ := Option.ne_none_iff_exists'.mp hcomponent
  have hname : nameOf heap pComponent = some component.getName := by
    rw [nameOf, hslot]
    rfl
  induction before generalizing passed with
  | nil =>
      obtain ⟨found, hfound⟩ := Option.ne_none_iff_exists'.mp (hlive victim (by simp))
      have hsame : found.getName = component.getName := by
        rw [hname, nameOf, hfound] at hvictim
        exact Option.some.inj hvictim
      rw [List.nil_append, removeLoop, getName_of_slot hfound, ok_bind, getName_of_slot hslot,
        ok_bind, if_pos hsame, List.append_nil]
  | cons child before ih =>
      obtain ⟨found, hfound⟩ := Option.ne_none_iff_exists'.mp (hlive child (by simp))
      have hother : found.getName ≠ component.getName := by
        intro heq
        refine hbefore child List.mem_cons_self ?_
        rw [hname, nameOf, hfound, ← heq]
        rfl
      have hrest := ih (fun other hmem => hlive other (List.mem_cons_of_mem _ hmem))
        (fun other hmem => hbefore other (List.mem_cons_of_mem _ hmem)) (passed ++ [child])
      rw [List.append_assoc passed [child] before] at hrest
      rw [List.cons_append, removeLoop, getName_of_slot hfound, ok_bind, getName_of_slot hslot,
        ok_bind, if_neg hother, hrest]
      rfl

theorem remove_spec {heap : Heap} (howned : OwnedHeap heap) {self pComponent victim : ℕ}
    {name : String} {before after : List ℕ}
    (hself : slot heap self = some (.composite name (before ++ victim :: after)))
    (hcomponent : slot heap pComponent ≠ none)
    (hbefore : ∀ child ∈ before, nameOf heap child ≠ nameOf heap pComponent)
    (hvictim : nameOf heap victim = nameOf heap pComponent) :
    ∃ next deleted, remove heap self pComponent = .ok (next, deleted) ∧
      Removes heap next self victim deleted := by
  have hchild : ∀ child ∈ before ++ victim :: after, IsChildOf heap self child :=
    fun child hmem => ⟨_, hself, hmem⟩
  have hlive : ∀ child ∈ before ++ victim :: after, slot heap child ≠ none :=
    fun child hmem => howned.live self child (hchild child hmem)
  obtain ⟨deleted, hdelete, hdeletes⟩ := deleteComponent_spec howned (hlive victim (by simp))
  have hloop := removeLoop_spec hlive hcomponent hbefore hvictim []
  rw [hdelete, ok_bind, List.nil_append] at hloop
  have hnotDeleted : self ∉ deleted := fun hmem =>
    howned.not_below_parent (hchild victim (by simp)) ((hdeletes.mem_iff self).mp hmem)
  have hlt : self < (freeAll heap deleted).length := by
    rw [freeAll_length]
    exact lt_length_of_slot hself
  refine ⟨(freeAll heap deleted).set self (some (.composite name (before ++ after))), deleted,
    ?_, ?_, hdeletes.nodup, hdeletes.mem_iff, ?_⟩
  · simp only [remove, hself]
    rw [hloop]
    rfl
  · rw [List.length_set, freeAll_length]
  · have hnotBefore : victim ∉ before := by
      intro hmem
      have hnodup := howned.nodup self _ hself
      exact List.disjoint_of_nodup_append hnodup hmem List.mem_cons_self
    intro address
    by_cases heq : address = self
    · subst heq
      rw [slot_set_self hlt, if_neg hnotDeleted, if_pos rfl, hself]
      simp [Component.getName, Component.children, List.erase_append_right _ hnotBefore]
    · rw [slot_set_of_ne (Ne.symm heq), slot_freeAll, if_neg heq]

theorem orphan_iff (heap : Heap) (address : ℕ) :
    Orphan heap address ↔ ∀ parent, ¬ IsChildOf heap parent address := by
  constructor
  · rintro horphan parent ⟨component, hslot, hmem⟩
    have hget : heap[parent]? = some (some component) := Option.join_eq_some_iff.mp hslot
    exact horphan _ (List.mem_of_getElem? hget) component rfl hmem
  · intro hnone component hcomponent found hfound hmem
    obtain ⟨parent, hget⟩ := List.mem_iff_getElem?.mp hcomponent
    refine hnone parent ⟨found, ?_, hmem⟩
    rw [slot, hget]
    exact hfound

/-! ## The trees stay trees -/

theorem Deletes.owned {heap next : Heap} {root : ℕ} {deleted : List ℕ}
    (hdeletes : Deletes heap next root deleted) (howned : OwnedHeap heap)
    (horphan : ∀ parent, ¬ IsChildOf heap parent root) : OwnedHeap next := by
  have hless : ∀ address component, slot next address = some component →
      slot heap address = some component ∧ address ∉ deleted := by
    intro address component hslot
    rw [hdeletes.slots] at hslot
    split at hslot
    · cases hslot
    · rename_i hkept
      exact ⟨hslot, hkept⟩
  refine howned.shrink ?_ ?_
  · intro address component hslot
    exact ⟨component, (hless address component hslot).1, List.Sublist.refl _⟩
  · rintro parent child ⟨component, hslot, hmem⟩
    obtain ⟨hparent, hkept⟩ := hless parent component hslot
    have hchild : IsChildOf heap parent child := ⟨component, hparent, hmem⟩
    have hchildKept : child ∉ deleted := by
      intro hdeleted
      rcases below_tail_cases ((hdeletes.mem_iff child).mp hdeleted) with rfl | ⟨q, hq, hlast⟩
      · exact horphan parent hchild
      · rw [howned.unique _ _ _ hlast hchild] at hq
        exact hkept ((hdeletes.mem_iff parent).mpr hq)
    rw [hdeletes.slots, if_neg hchildKept]
    exact howned.live parent child hchild

theorem Removes.owned {heap next : Heap} {self victim : ℕ} {deleted : List ℕ}
    (hremoves : Removes heap next self victim deleted) (howned : OwnedHeap heap)
    (hvictim : IsChildOf heap self victim) : OwnedHeap next := by
  have hless : ∀ address component, slot next address = some component →
      address ∉ deleted ∧ ∃ old, slot heap address = some old ∧
        component.children.Sublist old.children ∧
        (address = self → component.children = old.children.erase victim) := by
    intro address component hslot
    rw [hremoves.slots] at hslot
    split at hslot
    · cases hslot
    · rename_i hkept
      refine ⟨hkept, ?_⟩
      split at hslot
      · rename_i hself
        obtain ⟨old, hold, heq⟩ := Option.map_eq_some_iff.mp hslot
        subst hself heq
        exact ⟨old, hold, List.erase_sublist, fun _ => rfl⟩
      · rename_i hne
        exact ⟨component, hslot, List.Sublist.refl _, fun h => (hne h).elim⟩
  refine howned.shrink ?_ ?_
  · intro address component hslot
    obtain ⟨_, old, hold, hsublist, _⟩ := hless address component hslot
    exact ⟨old, hold, hsublist⟩
  · rintro parent child ⟨component, hslot, hmem⟩
    obtain ⟨hkept, old, hold, hsublist, herased⟩ := hless parent component hslot
    have hchild : IsChildOf heap parent child := ⟨old, hold, hsublist.subset hmem⟩
    have hchildKept : child ∉ deleted := by
      intro hdeleted
      rcases below_tail_cases ((hremoves.mem_iff child).mp hdeleted) with rfl | ⟨q, hq, hlast⟩
      · rw [herased (howned.unique _ _ _ hchild hvictim)] at hmem
        exact (List.Nodup.not_mem_erase (howned.nodup parent old hold)) hmem
      · rw [howned.unique _ _ _ hlast hchild] at hq
        exact hkept ((hremoves.mem_iff parent).mpr hq)
    have hlive := howned.live parent child hchild
    rw [hremoves.slots, if_neg hchildKept]
    split
    · rename_i hself
      obtain ⟨found, hfound⟩ := Option.ne_none_iff_exists'.mp (hself ▸ hlive)
      rw [hfound]
      exact Option.some_ne_none _
    · exact hlive

/-- The components are trees, and the deleted ones are those that are not there any more. -/
structure Invariant (state : State) : Prop where
  noFault : state.fault = none
  owned : OwnedHeap state.heap
  nodup : state.deleted.Nodup
  mem_deleted_iff : ∀ address, address ∈ state.deleted ↔
    address < state.heap.length ∧ slot state.heap address = none

theorem initial_invariant : Invariant compositeProgram.initial := by
  have hnone : ∀ parent child, ¬ IsChildOf [] parent child := by
    rintro parent child ⟨component, hslot, _⟩
    cases hslot
  refine ⟨rfl, ⟨?_, ?_, ?_, fun _ => 0, ?_⟩, List.nodup_nil, ?_⟩
  · exact fun parent child h => (hnone parent child h).elim
  · intro parent component hslot
    cases hslot
  · exact fun first second child h => (hnone first child h).elim
  · exact fun parent child h => (hnone parent child h).elim
  · intro address
    simp [compositeProgram]

theorem slot_append_of_ne {heap : Heap} {component : Component} {address : ℕ}
    (hne : address ≠ heap.length) :
    slot (heap ++ [some component]) address = slot heap address := by
  rw [append_eq_set, slot_set_of_ne (Ne.symm hne), slot_append_none]

theorem Invariant.create {state : State} (hinv : Invariant state) {component : Component}
    (hchildren : component.children = []) :
    Invariant { state with heap := state.heap ++ [some component] } := by
  have hfresh : slot state.heap state.heap.length = none := by
    rw [slot, List.getElem?_eq_none (Nat.le_refl _)]
    rfl
  have hself : slot (state.heap ++ [some component]) state.heap.length = some component := by
    rw [append_eq_set]
    exact slot_set_self (by simp) _
  refine ⟨hinv.noFault, ?_, hinv.nodup, ?_⟩
  · exact hinv.owned.insert hfresh hself hchildren fun other hne => slot_append_of_ne hne
  · intro address
    rw [hinv.mem_deleted_iff]
    by_cases heq : address = state.heap.length
    · subst heq
      simp [hself]
    · rw [slot_append_of_ne heq]
      simp only [List.length_append, List.length_singleton]
      constructor
      · exact fun h => ⟨by omega, h.2⟩
      · exact fun h => ⟨by omega, h.2⟩

theorem Invariant.add {state : State} (hinv : Invariant state) {self pComponent : ℕ}
    {component : Component} (hself : slot state.heap self = some component)
    (hlive : slot state.heap pComponent ≠ none) (horphan : Orphan state.heap pComponent)
    (houtside : self ∉ collect state.heap (state.heap.length + 1) [pComponent]) :
    Invariant { state with
      heap := state.heap.set self (some (component.add pComponent)) } := by
  have hlt := lt_length_of_slot hself
  have hnotBelow : ¬ BelowOf state.heap pComponent self :=
    fun h => houtside ((mem_collect_iff hinv.owned hlive self).mpr h)
  have hafter := slot_set_self hlt (some (component.add pComponent))
  have hother : ∀ other, other ≠ self →
      slot (state.heap.set self (some (component.add pComponent))) other =
        slot state.heap other :=
    fun other hne => slot_set_of_ne (Ne.symm hne) _
  refine ⟨hinv.noFault, ?_, hinv.nodup, ?_⟩
  · cases component with
    | leaf name =>
        -- a leaf is written back as it was
        have hsame : state.heap.set self (some (Component.leaf name)) = state.heap := by
          rw [← hself]
          exact set_slot state.heap self
        have hadd : (Component.leaf name).add pComponent = .leaf name := rfl
        show OwnedHeap (state.heap.set self (some ((Component.leaf name).add pComponent)))
        rw [hadd, hsame]
        exact hinv.owned
    | composite name vecComp =>
        exact hinv.owned.link hlive ((orphan_iff _ _).mp horphan) hnotBelow hself hafter rfl
          hother
  · intro address
    rw [hinv.mem_deleted_iff, List.length_set]
    by_cases heq : address = self
    · subst heq
      rw [hafter, hself]
      simp
    · rw [hother address heq]

/-- Components that were there have been deleted, and nothing else has gone. -/
theorem Invariant.afterDeletion {state : State} (hinv : Invariant state) {next : Heap}
    {deleted : List ℕ} (howned : OwnedHeap next) (hlength : next.length = state.heap.length)
    (hnodup : deleted.Nodup) (hlive : ∀ address ∈ deleted, slot state.heap address ≠ none)
    (hnone : ∀ address, slot next address = none ↔
      address ∈ deleted ∨ slot state.heap address = none) :
    Invariant (state.after (.ok (next, deleted))) := by
  refine ⟨hinv.noFault, howned, ?_, ?_⟩
  · refine List.Nodup.append hinv.nodup hnodup ?_
    intro address hbefore hnow
    exact hlive address hnow ((hinv.mem_deleted_iff address).mp hbefore).2
  · intro address
    simp only [State.after]
    rw [List.mem_append, hinv.mem_deleted_iff, hlength, hnone]
    constructor
    · rintro (⟨hlt, hgone⟩ | hnow)
      · exact ⟨hlt, .inr hgone⟩
      · obtain ⟨component, hslot⟩ := Option.ne_none_iff_exists'.mp (hlive address hnow)
        exact ⟨lt_length_of_slot hslot, .inl hnow⟩
    · rintro ⟨hlt, hnow | hgone⟩
      · exact .inr hnow
      · exact .inl ⟨hlt, hgone⟩

theorem Invariant.deletes {state : State} (hinv : Invariant state) {next : Heap} {root : ℕ}
    {deleted : List ℕ} (hdeletes : Deletes state.heap next root deleted)
    (hroot : slot state.heap root ≠ none) (horphan : Orphan state.heap root) :
    Invariant (state.after (.ok (next, deleted))) := by
  refine hinv.afterDeletion (hdeletes.owned hinv.owned ((orphan_iff _ _).mp horphan))
    hdeletes.length hdeletes.nodup ?_ ?_
  · exact fun address hmem => below_live hinv.owned hroot ((hdeletes.mem_iff address).mp hmem)
  · intro address
    rw [hdeletes.slots]
    split
    · rename_i hmem
      simp [hmem]
    · rename_i hkept
      simp [hkept]

theorem Invariant.removes {state : State} (hinv : Invariant state) {next : Heap}
    {self victim : ℕ} {deleted : List ℕ} (hremoves : Removes state.heap next self victim deleted)
    (hvictim : IsChildOf state.heap self victim) :
    Invariant (state.after (.ok (next, deleted))) := by
  have hlive := hinv.owned.live self victim hvictim
  refine hinv.afterDeletion (hremoves.owned hinv.owned hvictim) hremoves.length hremoves.nodup
    ?_ ?_
  · exact fun address hmem => below_live hinv.owned hlive ((hremoves.mem_iff address).mp hmem)
  · intro address
    rw [hremoves.slots]
    split
    · rename_i hmem
      simp [hmem]
    · rename_i hkept
      split
      · rename_i hself
        subst hself
        simp [hkept]
      · simp [hkept]

theorem childrenOf_eq {heap : Heap} {address : ℕ} {component : Component}
    (hslot : slot heap address = some component) :
    childrenOf heap address = component.children := by
  rw [childrenOf, hslot]
  rfl

/-- `Remove` of a child deletes some child of its name: the child itself exactly if none
before it has the name. -/
theorem remove_of_child {heap : Heap} (howned : OwnedHeap heap) {self pComponent : ℕ}
    (hchild : IsChildOf heap self pComponent) :
    ∃ victim next deleted, remove heap self pComponent = .ok (next, deleted) ∧
      Removes heap next self victim deleted ∧ IsChildOf heap self victim ∧
      (victim = pComponent ↔
        ∀ sibling ∈ (childrenOf heap self).takeWhile (· ≠ pComponent),
          nameOf heap sibling ≠ nameOf heap pComponent) := by
  obtain ⟨component, hself, hmem⟩ := hchild
  have hlive := howned.live self pComponent ⟨component, hself, hmem⟩
  rw [childrenOf_eq hself]
  cases component with
  | leaf name => cases hmem
  | composite name vecComp =>
      change pComponent ∈ vecComp at hmem
      show ∃ victim next deleted, _ ∧ _ ∧ _ ∧ (_ ↔ ∀ sibling ∈ vecComp.takeWhile _, _)
      have hfound : (vecComp.find? fun child =>
          nameOf heap child = nameOf heap pComponent).isSome := by
        rw [List.find?_isSome]
        exact ⟨pComponent, hmem, by simp⟩
      obtain ⟨victim, hvictim⟩ := Option.isSome_iff_exists.mp hfound
      obtain ⟨hname, before, after, rfl, hbefore⟩ := List.find?_eq_some_iff_append.mp hvictim
      have hother : ∀ child ∈ before, nameOf heap child ≠ nameOf heap pComponent := by
        simpa using hbefore
      have hbeforeNe : ∀ child ∈ before, child ≠ pComponent := by
        rintro child hin rfl
        exact hother child hin rfl
      obtain ⟨next, deleted, hremove, hremoves⟩ :=
        remove_spec howned hself hlive hother (by simpa using hname)
      refine ⟨victim, next, deleted, hremove, hremoves, ⟨_, hself, by simp [Component.children]⟩,
        ?_⟩
      rw [List.takeWhile_append_of_pos (by simpa using hbeforeNe)]
      constructor
      · rintro rfl sibling hsibling
        simp only [List.takeWhile_cons, ne_eq, not_true_eq_false, decide_false,
          Bool.false_eq_true, if_false, List.append_nil] at hsibling
        exact hother sibling hsibling
      · intro hfirst
        by_contra hne
        refine hfirst victim ?_ (by simpa using hname)
        simp [hne]

theorem Removes.victim_eq {heap next : Heap} (howned : OwnedHeap heap)
    {self victim other : ℕ} {deleted : List ℕ}
    (hvictim : IsChildOf heap self victim) (hother : IsChildOf heap self other)
    (hremoves : Removes heap next self victim deleted)
    (hclaimed : Removes heap next self other deleted) : victim = other := by
  by_contra hne
  have hdeleted : other ∈ deleted := (hclaimed.mem_iff other).mpr .refl
  exact howned.not_below_sibling hvictim hother hne ((hremoves.mem_iff other).mp hdeleted)

theorem removesExactly_iff {heap : Heap} (howned : OwnedHeap heap) {self pComponent : ℕ}
    (hchild : IsChildOf heap self pComponent) :
    RemovesExactly heap self pComponent ↔
      ∀ sibling ∈ (childrenOf heap self).takeWhile (· ≠ pComponent),
        nameOf heap sibling ≠ nameOf heap pComponent := by
  obtain ⟨victim, next, deleted, hremove, hremoves, hvictim, hiff⟩ :=
    remove_of_child howned hchild
  rw [← hiff]
  constructor
  · rintro ⟨claimed, claimedDeleted, hclaimed, hexact⟩
    rw [hremove] at hclaimed
    cases hclaimed
    exact hremoves.victim_eq howned hvictim hchild hexact
  · rintro rfl
    exact ⟨next, deleted, hremove, hremoves⟩

/-! ## Runs -/

theorem Invariant.step {state next : State} {action : Action} (hinv : Invariant state)
    (hstep : step state action = some next) : Invariant next := by
  cases action with
  | newLeaf name =>
      cases hstep
      exact hinv.create rfl
  | newComposite name =>
      cases hstep
      exact hinv.create rfl
  | add self pComponent =>
      simp only [Composite.step] at hstep
      split at hstep
      · rename_i component child hself hchild
        split at hstep
        · rename_i hguard
          cases hstep
          exact hinv.add hself (by rw [hchild]; exact Option.some_ne_none _) hguard.1 hguard.2
        · cases hstep
      · cases hstep
  | remove self pComponent =>
      simp only [Composite.step] at hstep
      split at hstep
      · rename_i component hself
        split at hstep
        · rename_i hmem
          obtain ⟨victim, heap, deleted, hremove, hremoves, hvictim, _⟩ :=
            remove_of_child hinv.owned ⟨component, hself, hmem⟩
          rw [hremove] at hstep
          cases hstep
          exact hinv.removes hremoves hvictim
        · cases hstep
      · cases hstep
  | destroy root =>
      simp only [Composite.step] at hstep
      split at hstep
      · rename_i component hroot
        have hlive : slot state.heap root ≠ none := by
          rw [hroot]
          exact Option.some_ne_none _
        split at hstep
        · rename_i horphan
          obtain ⟨deleted, hdelete, hdeletes⟩ := deleteComponent_spec hinv.owned hlive
          rw [hdelete] at hstep
          cases hstep
          exact hinv.deletes hdeletes hlive horphan
        · cases hstep
      · cases hstep

theorem Invariant.destroysTree {state : State} (hinv : Invariant state) {root : ℕ}
    (hroot : slot state.heap root ≠ none) (horphan : Orphan state.heap root) :
    DestroysTree state root := by
  obtain ⟨deleted, hdelete, hdeletes⟩ := deleteComponent_spec hinv.owned hroot
  refine ⟨_, deleted, hdelete, hdeletes, (hinv.deletes hdeletes hroot horphan).nodup, ?_⟩
  intro honly address
  rw [hdeletes.slots]
  split
  · rfl
  · rename_i hkept
    by_contra hlive
    have hall : ∀ other, slot state.heap other ≠ none →
        other ∈ List.range state.heap.length := by
      intro other hother
      obtain ⟨component, hslot⟩ := Option.ne_none_iff_exists'.mp hother
      exact List.mem_range.mpr (lt_length_of_slot hslot)
    obtain ⟨top, htop, hnoParent, hbelow⟩ := hinv.owned.exists_root hall hlive
    rw [honly top htop ((orphan_iff _ _).mpr hnoParent)] at hbelow
    exact hkept ((hdeletes.mem_iff address).mpr hbelow)

theorem removeExact_iff_first {state next : State} {action : Action} (hinv : Invariant state)
    (hstep : step state action = some next) :
    RemoveExact state action ↔ FirstOfItsName state action := by
  cases action with
  | remove self pComponent =>
      simp only [Composite.step] at hstep
      split at hstep
      · rename_i component hself
        split at hstep
        · rename_i hmem
          exact removesExactly_iff hinv.owned ⟨component, hself, hmem⟩
        · cases hstep
      · cases hstep
  | newLeaf name => exact Iff.rfl
  | newComposite name => exact Iff.rfl
  | add self pComponent => exact Iff.rfl
  | destroy root => exact Iff.rfl

/-- A composite owns its trees exactly if no child is removed that comes after a sibling of
its own name. -/
theorem ownsExactly_iff {actions : List Action} {final : State}
    (hrun : compositeProgram.run compositeProgram.initial actions = some final) :
    OwnsExactly actions final ↔
      compositeProgram.StepsMeet FirstOfItsName compositeProgram.initial actions := by
  have hpreserved : ∀ state action next, Invariant state →
      compositeProgram.step state action = some next → Invariant next :=
    fun _ _ _ hinv hstep => hinv.step hstep
  have hequiv := TransitionSystem.stepsMeet_congr Invariant hpreserved
    (fun _ _ _ hinv hstep => removeExact_iff_first hinv hstep) initial_invariant hrun
  have hfinal : Invariant final :=
    TransitionSystem.run_preserves Invariant hpreserved initial_invariant hrun
  rw [← hequiv]
  constructor
  · exact fun howns => howns.1
  · exact fun hexact => ⟨hexact, hfinal.noFault, fun root hroot horphan =>
      hfinal.destroysTree hroot horphan⟩

def exampleActions : List Action :=
  [.newComposite "BJ head office", .newComposite "HR", .newComposite "SH", .newComposite "CD",
    .newComposite "BT", .add 0 1, .add 0 3, .add 0 2, .add 0 4, .newLeaf "SH HR",
    .newLeaf "SH Purching Department", .newLeaf "SH Sales Department",
    .newLeaf "SH QA Department", .add 3 5, .add 3 6, .add 3 7, .add 3 8, .remove 3 8]

theorem ownsExactly_exampleActions : OwnsExactly exampleActions
    ⟨[some (.composite "BJ head office" [1, 3, 2, 4]), some (.composite "HR" []),
      some (.composite "SH" []), some (.composite "CD" [5, 6, 7]), some (.composite "BT" []),
      some (.leaf "SH HR"), some (.leaf "SH Purching Department"),
      some (.leaf "SH Sales Department"), none], [8], none⟩ :=
  (ownsExactly_iff (by decide)).mpr (by decide)

/-- A composite with two children of one name. -/
def twins : Heap := [some (.composite "HR" [1, 2]), some (.leaf "A"), some (.leaf "A")]

theorem not_removesExactly_twins : ¬ RemovesExactly twins 0 2 := by
  rintro ⟨next, deleted, hremove, hremoves⟩
  have hcode : remove twins 0 2 =
      .ok ([some (.composite "HR" [2]), none, some (.leaf "A")], [1]) := by
    decide
  rw [hcode] at hremove
  cases hremove
  have hdeleted : 2 ∈ [1] := (hremoves.mem_iff 2).mpr .refl
  exact absurd hdeleted (by decide)

theorem not_ownsExactly_equal_names :
    compositeProgram.run compositeProgram.initial
        [.newComposite "HR", .newLeaf "A", .newLeaf "A", .add 0 1, .add 0 2, .remove 0 2] =
      some ⟨[some (.composite "HR" [2]), none, some (.leaf "A")], [1], none⟩ ∧
      ¬ OwnsExactly
        [.newComposite "HR", .newLeaf "A", .newLeaf "A", .add 0 1, .add 0 2, .remove 0 2]
        ⟨[some (.composite "HR" [2]), none, some (.leaf "A")], [1], none⟩ := by
  refine ⟨by decide, ?_⟩
  rintro ⟨hsteps, _⟩
  obtain ⟨_, hsteps⟩ := hsteps.2 _ rfl
  obtain ⟨_, hsteps⟩ := hsteps _ rfl
  obtain ⟨_, hsteps⟩ := hsteps _ rfl
  obtain ⟨_, hsteps⟩ := hsteps _ rfl
  exact not_removesExactly_twins (hsteps _ rfl).1

end CppProj.Composite
