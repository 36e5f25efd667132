import CppProj.SinglyLinked
import Mathlib.Algebra.Ring.Int.Defs
import Mathlib.Algebra.Ring.Nat
import Mathlib.Order.Lattice

/-!
# `JTList` of `iterator.cc`

A list with a pointer to its head and one to its tail.  `Append` gives every
node to the list at an address that `new` takes from the free ones, and
`Remove` unlinks a node and deletes it.  The loops over the nodes carry a bound
on their passes; `outOfFuel` says that a loop has not ended within it.
-/

namespace CppProj

open SinglyLinked (Fault Segment dereference)

/-- `lCount` is a `long`.  The heap holds the nodes of the list. -/
structure JTList where
  heap : SinglyLinked.Heap ℕ ℤ
  pHead : Option ℕ
  pTail : Option ℕ
  lCount : BitVec 64

namespace JTList

/-- The constructor sets the two pointers; `m_lCount` keeps what was in its
memory before. -/
def new (garbage : BitVec 64) : JTList where
  heap := fun _ => none
  pHead := none
  pTail := none
  lCount := garbage

def getCount (list : JTList) : BitVec 64 := list.lCount

def first (list : JTList) : Option ℕ := list.pHead

def last (list : JTList) : Option ℕ := list.pTail

def intMax : ℤ := 2 ^ 31 - 1

/-- `iPosTemp++` is evaluated for each node, also for the one that is found. -/
def getLoop (heap : SinglyLinked.Heap ℕ ℤ) (index : ℤ) :
    ℕ → ℤ → Option ℕ → Except Fault (Option ℕ)
  | 0, _, _ => .error .outOfFuel
  | _ + 1, _, none => .ok none
  | fuel + 1, iPosTemp, some address => do
      if iPosTemp = intMax then .error .overflow
      else if index = iPosTemp then .ok (some address)
      else
        let node ← dereference heap (some address)
        getLoop heap index fuel (iPosTemp + 1) node.next

def get (fuel : ℕ) (list : JTList) (index : ℤ) : Except Fault (Option ℕ) :=
  if (list.lCount - 1).toInt < index ∨ index < 0 then .ok none
  else getLoop list.heap index fuel 0 list.pHead

def assignNext (heap : SinglyLinked.Heap ℕ ℤ) (pointer target : Option ℕ) :
    Except Fault (SinglyLinked.Heap ℕ ℤ) := do
  let node ← dereference heap pointer
  match pointer with
  | none => .error .nullDereference
  | some address => .ok (Function.update heap address (some { node with next := target }))

/-- `address` is where `new` puts the node. -/
def append (list : JTList) (value : ℤ) (address : ℕ) : Except Fault JTList := do
  let heap := Function.update list.heap address (some ⟨value, none⟩)
  if list.pHead = none then
    .ok { heap, pHead := some address, pTail := some address, lCount := list.lCount + 1 }
  else
    let linked ← assignNext heap list.pTail (some address)
    .ok { list with heap := linked, pTail := some address, lCount := list.lCount + 1 }

/-- The search for the node before `pNode`. -/
def removeLoop (heap : SinglyLinked.Heap ℕ ℤ) (pNode : ℕ) :
    ℕ → Option ℕ → Option ℕ → Except Fault (Option ℕ)
  | 0, _, _ => .error .outOfFuel
  | _ + 1, pPreviousNode, none => .ok pPreviousNode
  | fuel + 1, _, some address => do
      let node ← dereference heap (some address)
      if node.next = some pNode then .ok (some address)
      else removeLoop heap pNode fuel (some address) node.next

/-- Nothing is done for a null `pNode`, so the argument is an address. -/
def remove (fuel : ℕ) (list : JTList) (pNode : ℕ) : Except Fault JTList := do
  if list.pHead = none ∨ list.pTail = none then .ok list
  else if some pNode = list.pHead then
    let head ← dereference list.heap list.pHead
    .ok { list with
      heap := Function.update list.heap pNode none
      pHead := head.next
      lCount := list.lCount - 1 }
  else
    let pPreviousNode ← removeLoop list.heap pNode fuel none list.pHead
    let node ← dereference list.heap (some pNode)
    let pTail := if node.next = none then pPreviousNode else list.pTail
    let unlinked ← assignNext list.heap pPreviousNode node.next
    .ok { list with
      heap := Function.update unlinked pNode none
      pTail
      lCount := list.lCount - 1 }

inductive Operation where
  | append (value : ℤ) (address : ℕ)
  | remove (pNode : ℕ)
  deriving DecidableEq

namespace Operation

def apply (fuel : ℕ) (list : JTList) : Operation → Except Fault JTList
  | .append value address => list.append value address
  | .remove pNode => list.remove fuel pNode

/-- What the operation does to the sequence of nodes. -/
def change (contents : List (ℕ × ℤ)) : Operation → List (ℕ × ℤ)
  | .append value address => contents ++ [(address, value)]
  | .remove pNode => contents.eraseP fun node => node.1 = pNode

/-- `new` returns no address that is in use, and only nodes of the list are
removed. -/
def Admissible (contents : List (ℕ × ℤ)) : Operation → Prop
  | .append _ address => address ∉ contents.map Prod.fst
  | .remove pNode => pNode ∈ contents.map Prod.fst

instance (contents : List (ℕ × ℤ)) (operation : Operation) :
    Decidable (operation.Admissible contents) :=
  match operation with
  | .append _ _ => inferInstanceAs (Decidable (¬ _ ∈ _))
  | .remove _ => inferInstanceAs (Decidable (_ ∈ _))

end Operation

def run (fuel : ℕ) (list : JTList) : List Operation → Except Fault JTList
  | [] => .ok list
  | operation :: rest => do
      let next ← operation.apply fuel list
      run fuel next rest

def contentsAfter (contents : List (ℕ × ℤ)) : List Operation → List (ℕ × ℤ)
  | [] => contents
  | operation :: rest => contentsAfter (operation.change contents) rest

def AllAdmissible (contents : List (ℕ × ℤ)) : List Operation → Prop
  | [] => True
  | operation :: rest =>
      operation.Admissible contents ∧ AllAdmissible (operation.change contents) rest

instance decidableAllAdmissible (contents : List (ℕ × ℤ)) :
    ∀ operations, Decidable (AllAdmissible contents operations)
  | [] => isTrue trivial
  | operation :: rest =>
      have : Decidable (AllAdmissible (operation.change contents) rest) :=
        decidableAllAdmissible (operation.change contents) rest
      inferInstanceAs (Decidable (_ ∧ _))

/-! ## What the loops find in a proper list -/

section

variable {heap : SinglyLinked.Heap ℕ ℤ} {start : Option ℕ} {nodes : List (ℕ × ℤ)}

theorem getLoop_of_segment (hsegment : Segment heap start nodes none) {fuel : ℕ}
    (hfuel : nodes.length < fuel) {index position : ℤ} (hle : position ≤ index)
    (hfits : position + nodes.length ≤ intMax) :
    getLoop heap index fuel position start =
      .ok (nodes[(index - position).toNat]?.map Prod.fst) := by
  induction nodes generalizing start fuel position with
  | nil =>
      obtain ⟨fuel, rfl⟩ := Nat.exists_eq_add_one.mpr (Nat.zero_lt_of_lt hfuel)
      rw [Segment.nil_iff.mp hsegment]
      simp [getLoop]
  | cons node rest ih =>
      obtain ⟨hstart, next, hnode, hrest⟩ := Segment.cons_iff.mp hsegment
      obtain ⟨fuel, rfl⟩ := Nat.exists_eq_add_one.mpr (Nat.zero_lt_of_lt hfuel)
      rw [List.length_cons] at hfuel hfits
      subst hstart
      rw [getLoop, if_neg (by omega)]
      by_cases hfound : index = position
      · simp [hfound]
      · have hposition : (index - position).toNat = (index - (position + 1)).toNat + 1 := by omega
        rw [if_neg hfound, SinglyLinked.dereference_some hnode, hposition, List.getElem?_cons_succ]
        exact ih hrest (by omega) (by omega) (by push_cast at hfits; omega)

/-- A list that is long enough takes the position beyond `int`. -/
theorem getLoop_overflow (hsegment : Segment heap start nodes none) {fuel : ℕ}
    (hfuel : nodes.length < fuel) {index position : ℤ} (hindex : intMax ≤ index)
    (hle : position ≤ intMax) (hlong : intMax < position + nodes.length) :
    getLoop heap index fuel position start = .error .overflow := by
  induction nodes generalizing start fuel position with
  | nil =>
      rw [List.length_nil] at hlong
      omega
  | cons node rest ih =>
      obtain ⟨hstart, next, hnode, hrest⟩ := Segment.cons_iff.mp hsegment
      obtain ⟨fuel, rfl⟩ := Nat.exists_eq_add_one.mpr (Nat.zero_lt_of_lt hfuel)
      rw [List.length_cons] at hfuel hlong
      subst hstart
      rw [getLoop]
      by_cases hmax : position = intMax
      · rw [if_pos hmax]
      · rw [if_neg hmax, if_neg (by omega), SinglyLinked.dereference_some hnode]
        exact ih hrest (by omega) (by omega) (by push_cast at hlong; omega)

theorem removeLoop_of_segment {before : List (ℕ × ℤ)} {previous pNode : ℕ} {value : ℤ}
    (hsegment : Segment heap start (before ++ [(previous, value)]) (some pNode))
    (hfresh : pNode ∉ (before ++ [(previous, value)]).map Prod.fst) {fuel : ℕ}
    (hfuel : before.length < fuel) (pPreviousNode : Option ℕ) :
    removeLoop heap pNode fuel pPreviousNode start = .ok (some previous) := by
  induction before generalizing start fuel pPreviousNode with
  | nil =>
      obtain ⟨fuel, rfl⟩ := Nat.exists_eq_add_one.mpr (Nat.zero_lt_of_lt hfuel)
      obtain ⟨hstart, hnode⟩ := Segment.singleton_iff.mp hsegment
      subst hstart
      rw [removeLoop, SinglyLinked.dereference_some hnode]
      simp
  | cons node rest ih =>
      obtain ⟨hstart, next, hnode, hrest⟩ := Segment.cons_iff.mp hsegment
      obtain ⟨fuel, rfl⟩ := Nat.exists_eq_add_one.mpr (Nat.zero_lt_of_lt hfuel)
      rw [List.length_cons] at hfuel
      rw [List.cons_append, List.map_cons, List.mem_cons, not_or] at hfresh
      have hnext : next ≠ some pNode := by
        rintro rfl
        cases rest with
        | nil =>
            have hstart := (Segment.singleton_iff.mp hrest).1
            cases hstart
            simp at hfresh
        | cons second others =>
            have hstart := (Segment.cons_iff.mp hrest).1
            cases hstart
            simp at hfresh
      subst hstart
      rw [removeLoop, SinglyLinked.dereference_some hnode]
      rw [SinglyLinked.ok_bind, if_neg hnext]
      exact ih hrest hfresh.2 (by omega) (some node.1)

end

end JTList

end CppProj
