import CppProj.JTListRepresentation

/-!
# `JTListIterator` of `iterator.cc`

The traversal of `main`: `First`, then `Next` until `IsDone`.  `IsDone` compares
with the successor of the list's last node, which it reads through the pointer
of `Last`, whether there is a last node or not.
-/

namespace CppProj

open SinglyLinked (Fault Segment dereference)

/-- `list` is what `m_pJTList` points to. -/
structure JTListIterator where
  list : JTList
  pCurrent : Option ℕ

namespace JTListIterator

def new (list : JTList) : JTListIterator where
  list := list
  pCurrent := none

def first (iterator : JTListIterator) : JTListIterator :=
  { iterator with pCurrent := iterator.list.first }

def next (iterator : JTListIterator) : Except Fault JTListIterator := do
  let node ← dereference iterator.list.heap iterator.pCurrent
  .ok { iterator with pCurrent := node.next }

def isDone (iterator : JTListIterator) : Except Fault Bool := do
  let last ← dereference iterator.list.heap iterator.list.last
  .ok (iterator.pCurrent = last.next)

def currentItem (iterator : JTListIterator) : Option ℕ := iterator.pCurrent

/-- The items of the passes of the loop, in order. -/
def traverseLoop : ℕ → JTListIterator → Except Fault (List (Option ℕ))
  | 0, _ => .error .outOfFuel
  | fuel + 1, iterator => do
      let done ← iterator.isDone
      if done then .ok []
      else
        let following ← iterator.next
        let items ← traverseLoop fuel following
        .ok (iterator.currentItem :: items)

def traverse (fuel : ℕ) (list : JTList) : Except Fault (List (Option ℕ)) :=
  traverseLoop fuel (new list).first

/-- The loop ends, and its items are the nodes of the list in their order. -/
def Visits (list : JTList) (contents : List (ℕ × ℤ)) : Prop :=
  ∀ fuel, contents.length < fuel →
    traverse fuel list = .ok (contents.map fun node => some node.1)

section

variable {list : JTList} {last : ℕ} {value : ℤ}

theorem isDone_eq (hlast : list.pTail = some last) (hnode : list.heap last = some ⟨value, none⟩)
    (pCurrent : Option ℕ) :
    (JTListIterator.mk list pCurrent).isDone = .ok (decide (pCurrent = none)) := by
  rw [isDone, JTList.last, hlast, SinglyLinked.dereference_some hnode]
  rfl

/-- Where the successor of the last node is null, the loop runs to the end of the
nodes that are left. -/
theorem traverseLoop_of_segment (hlast : list.pTail = some last)
    (hnode : list.heap last = some ⟨value, none⟩) {pCurrent : Option ℕ}
    {remaining : List (ℕ × ℤ)} (hremaining : Segment list.heap pCurrent remaining none)
    {fuel : ℕ} (hfuel : remaining.length < fuel) :
    traverseLoop fuel ⟨list, pCurrent⟩ = .ok (remaining.map fun node => some node.1) := by
  induction remaining generalizing pCurrent fuel with
  | nil =>
      obtain ⟨fuel, rfl⟩ := Nat.exists_eq_add_one.mpr (Nat.zero_lt_of_lt hfuel)
      rw [traverseLoop, isDone_eq hlast hnode, Segment.nil_iff.mp hremaining]
      rfl
  | cons node rest ih =>
      obtain ⟨fuel, rfl⟩ := Nat.exists_eq_add_one.mpr (Nat.zero_lt_of_lt hfuel)
      obtain ⟨rfl, following, hcurrent, hrest⟩ := Segment.cons_iff.mp hremaining
      have hitems := ih hrest (by simpa using hfuel)
      rw [traverseLoop, isDone_eq hlast hnode, SinglyLinked.ok_bind, if_neg (by simp),
        next, SinglyLinked.dereference_some hcurrent, SinglyLinked.ok_bind, SinglyLinked.ok_bind,
        hitems]
      rfl

/-- On a list without nodes the first `IsDone` reads through null or through the
pointer to the node that was removed last. -/
theorem traverse_of_no_nodes (hempty : ∀ address, list.heap address = none) {fuel : ℕ}
    (hfuel : 0 < fuel) (items : List (Option ℕ)) : traverse fuel list ≠ .ok items := by
  obtain ⟨fuel, rfl⟩ := Nat.exists_eq_add_one.mpr (Nat.zero_lt_of_lt hfuel)
  have hfault : ∃ fault, dereference list.heap list.last = .error fault := by
    cases hlast : list.last with
    | none => exact ⟨_, rfl⟩
    | some address => exact ⟨_, SinglyLinked.dereference_deleted (hempty address)⟩
  obtain ⟨fault, hfault⟩ := hfault
  rw [traverse, traverseLoop, isDone, first, new, hfault]
  intro hitems
  cases hitems

end

theorem visits_iff_of_listInvariant {garbage : BitVec 64} {list : JTList}
    {contents : List (ℕ × ℤ)} (hinv : JTList.ListInvariant garbage list contents) :
    Visits list contents ↔ contents ≠ [] := by
  rcases List.eq_nil_or_concat' contents with rfl | ⟨before, ⟨last, value⟩, rfl⟩
  · constructor
    · intro hvisits
      have hempty : ∀ address, list.heap address = none :=
        fun address => hinv.deleted address (by simp)
      exact (traverse_of_no_nodes hempty Nat.one_pos _ (hvisits 1 (by simp))).elim
    · exact fun hne => (hne rfl).elim
  · constructor
    · intro _
      simp
    · intro _ fuel hfuel
      exact traverseLoop_of_segment hinv.pTail_eq hinv.last_node hinv.chain hfuel

/-- For every list that `Append` and `Remove` can build, whatever its count says,
the traversal is right exactly when the list has a node. -/
theorem visits_iff (garbage : BitVec 64) {operations : List JTList.Operation}
    (hadmissible : JTList.AllAdmissible [] operations) :
    ∃ list, (∀ fuel, operations.length ≤ fuel →
        JTList.run fuel (JTList.new garbage) operations = .ok list) ∧
      Segment list.heap list.pHead (JTList.contentsAfter [] operations) none ∧
      (Visits list (JTList.contentsAfter [] operations) ↔
        JTList.contentsAfter [] operations ≠ []) := by
  obtain ⟨list, hrun, hinv, _⟩ := (JTList.new_listInvariant garbage).run hadmissible
  refine ⟨list, fun fuel hfuel => hrun fuel (by simpa using hfuel), hinv.chain, ?_⟩
  exact visits_iff_of_listInvariant hinv

/-- `main` removes the last node of the list and goes through it again. -/
def tailRemoved : List JTList.Operation :=
  [.append 10 0, .append 20 1, .append 30 2, .remove 2]

theorem visits_tailRemoved :
    ∃ list, JTList.run 4 (JTList.new 0) tailRemoved = .ok list ∧
      Visits list [(0, 10), (1, 20)] := by
  obtain ⟨list, hrun, _, hiff⟩ :=
    visits_iff 0 (by decide : JTList.AllAdmissible [] tailRemoved)
  have hcontents : JTList.contentsAfter [] tailRemoved = [(0, 10), (1, 20)] := rfl
  refine ⟨list, hrun 4 (by decide), ?_⟩
  rw [← hcontents]
  exact hiff.mpr (by simp [hcontents])

/-- A fresh list, and one that `Remove` has emptied. -/
theorem traverse_faults :
    traverse 1 (JTList.new 0) = .error .nullDereference ∧
    ∃ list, JTList.run 2 (JTList.new 0) [.append 10 0, .remove 0] = .ok list ∧
      traverse 1 list = .error .deletedDereference :=
  ⟨rfl, _, rfl, rfl⟩

end JTListIterator

end CppProj
