import Mathlib.Data.List.Nodup
import Mathlib.Logic.Function.Basic
import Mathlib.Tactic.Common

/-!
# Singly linked nodes in a heap

A heap gives the nodes that are allocated and not deleted, and a pointer is an
address or null.  `Segment` says which nodes lie on the way from one pointer to
another; a list that ends properly is a segment to null.  The rules below take
a segment apart and keep it through writes to other nodes.
-/

universe u v

namespace SinglyLinked

structure Node (Address : Type u) (Value : Type v) where
  value : Value
  next : Option Address
  deriving DecidableEq

abbrev Heap (Address : Type u) (Value : Type v) := Address → Option (Node Address Value)

inductive Fault where
  | nullDereference
  | deletedDereference
  | overflow
  | outOfFuel
  deriving DecidableEq

@[simp] theorem ok_bind {α β : Type u} (result : α) (next : α → Except Fault β) :
    (Except.ok result >>= next) = next result := rfl

variable {Address : Type u} {Value : Type v}

/-- The nodes between two pointers, with their addresses, in order. -/
def Segment (heap : Heap Address Value) :
    Option Address → List (Address × Value) → Option Address → Prop
  | start, [], stop => start = stop
  | start, (address, value) :: rest, stop =>
      start = some address ∧
        ∃ next, heap address = some ⟨value, next⟩ ∧ Segment heap next rest stop

def dereference (heap : Heap Address Value) : Option Address → Except Fault (Node Address Value)
  | none => .error .nullDereference
  | some address =>
      match heap address with
      | some node => .ok node
      | none => .error .deletedDereference

theorem dereference_some {heap : Heap Address Value} {address : Address}
    {node : Node Address Value} (hnode : heap address = some node) :
    dereference heap (some address) = .ok node := by
  simp [dereference, hnode]

theorem dereference_deleted {heap : Heap Address Value} {address : Address}
    (hdeleted : heap address = none) :
    dereference heap (some address) = .error .deletedDereference := by
  simp [dereference, hdeleted]

/-- `pointer->next = target`. -/
def setNext [DecidableEq Address] (heap : Heap Address Value) (pointer target : Option Address) :
    Except Fault (Heap Address Value) :=
  match pointer with
  | none => .error .nullDereference
  | some address =>
      match heap address with
      | some node => .ok (Function.update heap address (some { node with next := target }))
      | none => .error .deletedDereference

theorem setNext_some [DecidableEq Address] {heap : Heap Address Value} {address : Address}
    {node : Node Address Value} (hnode : heap address = some node) (target : Option Address) :
    setNext heap (some address) target =
      .ok (Function.update heap address (some { node with next := target })) := by
  simp [setNext, hnode]

namespace Segment

variable {heap : Heap Address Value} {start stop : Option Address}
  {before nodes after : List (Address × Value)}

@[simp] theorem nil_iff : Segment heap start [] stop ↔ start = stop := Iff.rfl

theorem cons_iff {address : Address} {value : Value} :
    Segment heap start ((address, value) :: nodes) stop ↔
      start = some address ∧
        ∃ next, heap address = some ⟨value, next⟩ ∧ Segment heap next nodes stop :=
  Iff.rfl

theorem append_iff :
    Segment heap start (before ++ after) stop ↔
      ∃ middle, Segment heap start before middle ∧ Segment heap middle after stop := by
  induction before generalizing start with
  | nil => simp
  | cons node rest ih =>
      rw [List.cons_append, cons_iff]
      constructor
      · rintro ⟨hstart, next, hnode, hrest⟩
        obtain ⟨middle, hbefore, hafter⟩ := ih.mp hrest
        exact ⟨middle, ⟨hstart, next, hnode, hbefore⟩, hafter⟩
      · rintro ⟨middle, ⟨hstart, next, hnode, hbefore⟩, hafter⟩
        exact ⟨hstart, next, hnode, ih.mpr ⟨middle, hbefore, hafter⟩⟩

theorem singleton_iff {address : Address} {value : Value} :
    Segment heap start [(address, value)] stop ↔
      start = some address ∧ heap address = some ⟨value, stop⟩ := by
  rw [cons_iff]
  simp

theorem congr (hsegment : Segment heap start nodes stop) {other : Heap Address Value}
    (hagree : ∀ address ∈ nodes.map Prod.fst, other address = heap address) :
    Segment other start nodes stop := by
  induction nodes generalizing start with
  | nil => exact hsegment
  | cons node rest ih =>
      obtain ⟨hstart, next, hnode, hrest⟩ := cons_iff.mp hsegment
      refine ⟨hstart, next, ?_, ?_⟩
      · rw [hagree node.1 (by simp)]
        exact hnode
      · apply ih hrest
        intro address hmem
        exact hagree address (List.mem_cons_of_mem _ hmem)

theorem start_eq_none_iff (hsegment : Segment heap start nodes none) :
    start = none ↔ nodes = [] := by
  cases nodes with
  | nil => simpa using hsegment
  | cons node rest =>
      rw [(cons_iff.mp hsegment).1]
      simp

variable [DecidableEq Address]

theorem update_of_notMem (hsegment : Segment heap start nodes stop) {address : Address}
    (hfresh : address ∉ nodes.map Prod.fst) (node : Option (Node Address Value)) :
    Segment (Function.update heap address node) start nodes stop := by
  apply hsegment.congr
  intro other hother
  apply Function.update_of_ne
  rintro rfl
  exact hfresh hother

theorem relink {last : Address} {value : Value}
    (hsegment : Segment heap start (before ++ [(last, value)]) stop)
    (hdistinct : ((before ++ [(last, value)]).map Prod.fst).Nodup) (target : Option Address) :
    Segment (Function.update heap last (some ⟨value, target⟩)) start
      (before ++ [(last, value)]) target := by
  obtain ⟨middle, hbefore, hlast⟩ := append_iff.mp hsegment
  have hfresh : last ∉ before.map Prod.fst := by
    rw [List.map_append, List.map_singleton, List.nodup_append] at hdistinct
    intro hmem
    exact hdistinct.2.2 last hmem last (by simp) rfl
  rw [append_iff]
  refine ⟨middle, hbefore.update_of_notMem hfresh _, ?_⟩
  rw [singleton_iff]
  exact ⟨(singleton_iff.mp hlast).1, Function.update_self ..⟩

end Segment

end SinglyLinked
