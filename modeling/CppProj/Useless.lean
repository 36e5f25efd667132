import CppProj.OwnedBuffers
import CppProj.TransitionSystem
import Mathlib.Algebra.Ring.Nat
import Mathlib.Data.Option.Basic

/-!
# The class with move semantics of `stdmove.cpp`

A `Useless` holds `n` characters in a buffer of its own.  Objects are named by their
positions and a destroyed one leaves its position empty.  Allocations succeed, and
copying a cell that has not been written yet copies just that.  The result of `operator+`
is built in place; where it is moved once more, that is a move construction and a
destruction of their own.
-/

namespace CppProj.Useless

open OwnedBuffers ListUpdate

def intMax : ℕ := 2 ^ 31 - 1

structure Object where
  n : ℕ
  pc : Option ℕ
  deriving DecidableEq

abbrev CharHeap := Heap UInt8

/-- The default constructor, and what a move leaves behind. -/
def Object.empty : Object where
  n := 0
  pc := none

section Members

variable (heap : CharHeap)

def constructSize (k : ℕ) : CharHeap × Object :=
  (heap.allocate k, ⟨k, some heap.fresh⟩)

def constructFill (k : ℕ) (ch : UInt8) : Except Fault (CharHeap × Object) := do
  let filled ← fillLoop heap.fresh ch k 0 (heap.allocate k)
  .ok (filled, ⟨k, some heap.fresh⟩)

def constructCopy (f : Object) : Except Fault (CharHeap × Object) := do
  let copied ← copyLoop f.pc heap.fresh 0 f.n 0 (heap.allocate f.n)
  .ok (copied, ⟨f.n, some heap.fresh⟩)

/-- The new object, and the source after it. -/
def constructMove (f : Object) : Object × Object :=
  (⟨f.n, f.pc⟩, .empty)

def destroy (self : Object) : Except Fault CharHeap :=
  heap.release self.pc

def add (self f : Object) : Except Fault (CharHeap × Object) :=
  if intMax < self.n + f.n then .error .overflow
  else do
    let n := self.n + f.n
    let pc := heap.fresh
    let first ← copyLoop self.pc pc 0 self.n 0 (heap.allocate n)
    let second ← copyLoop f.pc pc self.n (n - self.n) self.n first
    .ok (second, ⟨n, some pc⟩)

def assignCopy (self f : Object) : Except Fault (CharHeap × Object) := do
  let released ← heap.release self.pc
  let copied ← copyLoop f.pc released.fresh 0 f.n 0 (released.allocate f.n)
  .ok (copied, ⟨f.n, some released.fresh⟩)

/-- The move assignment from another object: the target and the source after it. -/
def assignMove (self f : Object) : Except Fault (CharHeap × Object × Object) := do
  let released ← heap.release self.pc
  .ok (released, ⟨f.n, f.pc⟩, .empty)

end Members

/-! ## Sequences of operations -/

inductive Action where
  | construct
  | constructSize (k : ℕ)
  | constructFill (k : ℕ) (ch : UInt8)
  | constructCopy (f : ℕ)
  | constructMove (f : ℕ)
  | add (self f : ℕ)
  | assignCopy (self f : ℕ)
  | assignMove (self f : ℕ)
  | destroy (self : ℕ)
  deriving DecidableEq

/-- `values` says what each object is to contain according to the operations so far. -/
structure State where
  objects : List (Option Object)
  heap : CharHeap
  values : List (Option (Cells UInt8))
  fault : Option Fault
  deriving DecidableEq

/-- The contents by value: a copy has the contents of its source, a move takes them away
from it, and a sum has one after the other. -/
def valuesAfter (values : List (Option (Cells UInt8))) : Action → List (Option (Cells UInt8))
  | .construct => values ++ [some []]
  | .constructSize k => values ++ [some (List.replicate k none)]
  | .constructFill k ch => values ++ [some (List.replicate k (some ch))]
  | .constructCopy f => values ++ [slot values f]
  | .constructMove f => values.set f (some []) ++ [slot values f]
  | .add self f => values ++ [some ((slot values self).getD [] ++ (slot values f).getD [])]
  | .assignCopy self f => values.set self (slot values f)
  | .assignMove self f =>
      if self = f then values else (values.set self (slot values f)).set f (some [])
  | .destroy self => values.set self none

/-- What the operation makes of the heap and the objects.  `none` where it is not
applicable: an argument that is no live object, or a length that is not an `int`. -/
def perform (heap : CharHeap) (objects : List (Option Object)) :
    Action → Option (Except Fault (CharHeap × List (Option Object)))
  | .construct => some (.ok (heap, objects ++ [some .empty]))
  | .constructSize k =>
      if k ≤ intMax then
        let result := constructSize heap k
        some (.ok (result.1, objects ++ [some result.2]))
      else none
  | .constructFill k ch =>
      if k ≤ intMax then
        some (do
          let result ← constructFill heap k ch
          .ok (result.1, objects ++ [some result.2]))
      else none
  | .constructCopy f =>
      match slot objects f with
      | some source =>
          some (do
            let result ← constructCopy heap source
            .ok (result.1, objects ++ [some result.2]))
      | none => none
  | .constructMove f =>
      match slot objects f with
      | some source =>
          let result := constructMove source
          some (.ok (heap, objects.set f (some result.2) ++ [some result.1]))
      | none => none
  | .add self f =>
      match slot objects self, slot objects f with
      | some left, some right =>
          some (do
            let result ← add heap left right
            .ok (result.1, objects ++ [some result.2]))
      | _, _ => none
  | .assignCopy self f =>
      match slot objects self, slot objects f with
      | some target, some source =>
          if self = f then some (.ok (heap, objects))
          else
            some (do
              let result ← assignCopy heap target source
              .ok (result.1, objects.set self (some result.2)))
      | _, _ => none
  | .assignMove self f =>
      match slot objects self, slot objects f with
      | some target, some source =>
          if self = f then some (.ok (heap, objects))
          else
            some (do
              let result ← assignMove heap target source
              .ok (result.1, (objects.set self (some result.2.1)).set f (some result.2.2)))
      | _, _ => none
  | .destroy self =>
      match slot objects self with
      | some target =>
          some (do
            let released ← destroy heap target
            .ok (released, objects.set self none))
      | none => none

def step (state : State) (action : Action) : Option State :=
  match perform state.heap state.objects action with
  | none => none
  | some (.ok (heap, objects)) =>
      some { state with
        heap := heap
        objects := objects
        values := valuesAfter state.values action }
  | some (.error fault) =>
      some { state with
        values := valuesAfter state.values action
        fault := some fault }

def uselessProgram : TransitionSystem State Action where
  initial := ⟨[], [], [], none⟩
  step := step

/-! ## What the objects hold -/

/-- The object has the buffer with these cells, or none of either. -/
structure Holds (heap : CharHeap) (object : Object) (cells : Cells UInt8) : Prop where
  count : object.n = cells.length
  null : object.pc = none → cells = []
  buffer : ∀ address, object.pc = some address → heap.lookup address = some cells

theorem Holds.empty (heap : CharHeap) : Holds heap .empty [] :=
  ⟨rfl, fun _ => rfl, fun _ h => by cases h⟩

theorem Holds.congr {heap next : CharHeap} {object : Object} {cells : Cells UInt8}
    (hholds : Holds heap object cells)
    (hkept : ∀ address, object.pc = some address → next.lookup address = heap.lookup address) :
    Holds next object cells :=
  ⟨hholds.count, hholds.null, fun address h => (hkept address h).trans (hholds.buffer address h)⟩

theorem Holds.pc_ne_fresh {heap : CharHeap} {object : Object} {cells : Cells UInt8}
    (hholds : Holds heap object cells) : object.pc ≠ some heap.fresh :=
  fun h => Heap.ne_fresh_of_lookup (hholds.buffer _ h) rfl

theorem Holds.reads {heap : CharHeap} {object : Object} {cells : Cells UInt8}
    (hholds : Holds heap object cells) : Reads heap object.pc 0 cells := by
  cases hpc : object.pc with
  | none =>
      rw [hholds.null hpc]
      exact Reads.nil _ _ _
  | some address => exact Reads.of_lookup (hholds.buffer address hpc)

section NewBuffers

variable {heap next : CharHeap} {cells : Cells UInt8}

theorem Holds.new (hnew : NewBuffer heap next cells) :
    Holds next ⟨cells.length, some heap.fresh⟩ cells :=
  ⟨rfl, nofun, fun _ hpc => Option.some.inj hpc ▸ hnew.lookup_new⟩

theorem Holds.kept {object : Object} {others : Cells UInt8} (hholds : Holds heap object others)
    (hnew : NewBuffer heap next cells) : Holds next object others :=
  hholds.congr fun address hpc =>
    hnew.lookup_other address (fun h => hholds.pc_ne_fresh (h ▸ hpc))

theorem copyLoop_new {front old rest piece : Cells UInt8} {object : Object} {start : ℕ}
    (hnew : NewBuffer heap next (front ++ (old ++ rest))) (hholds : Holds heap object piece)
    (hold : old.length = object.n) (hstart : start = front.length) :
    ∃ after, copyLoop object.pc heap.fresh start object.n start next =
        .ok after ∧ NewBuffer heap after (front ++ (piece ++ rest)) := by
  subst hstart
  refine ⟨_, ?_, hnew.store _⟩
  have hreads : Reads next object.pc (front.length - front.length) piece := by
    rw [Nat.sub_self]
    refine hholds.reads.congr ?_
    intro address hpc
    exact hnew.lookup_other address (fun h => hholds.pc_ne_fresh (h ▸ hpc))
  rw [hholds.count] at hold ⊢
  exact copyLoop_spec piece front old rest front.length next hnew.lookup_new hold
    (Nat.le_refl _) hholds.pc_ne_fresh hreads

end NewBuffers

/-! ## The members -/

section MemberSpecs

variable {heap : CharHeap}

theorem constructFill_spec (heap : CharHeap) (k : ℕ) (ch : UInt8) :
    ∃ next, constructFill heap k ch = .ok (next, ⟨k, some heap.fresh⟩) ∧
      NewBuffer heap next (List.replicate k (some ch)) := by
  have hnew := NewBuffer.allocate heap k
  have hcells : (heap.allocate k).lookup heap.fresh =
      some ([] ++ (List.replicate k none ++ [])) := by
    rw [List.nil_append, List.append_nil]
    exact hnew.lookup_new
  have hfill := fillLoop_spec ch k [] _ [] (heap.allocate k) hcells (List.length_replicate ..)
  refine ⟨_, ?_, hnew.store _⟩
  rw [List.nil_append, List.append_nil, List.length_nil] at hfill
  rw [constructFill, hfill]
  rfl

theorem constructCopy_spec {f : Object} {cells : Cells UInt8} (hholds : Holds heap f cells) :
    ∃ next, constructCopy heap f = .ok (next, ⟨cells.length, some heap.fresh⟩) ∧
      NewBuffer heap next cells := by
  have hnew : NewBuffer heap (heap.allocate f.n) ([] ++ (List.replicate f.n none ++ [])) := by
    rw [List.nil_append, List.append_nil]
    exact NewBuffer.allocate heap f.n
  obtain ⟨next, hloop, hafter⟩ :=
    copyLoop_new hnew hholds (List.length_replicate ..) rfl
  rw [List.nil_append, List.append_nil] at hafter
  refine ⟨next, ?_, hafter⟩
  rw [List.length_nil] at hloop
  rw [constructCopy, hloop, ← hholds.count]
  rfl

theorem add_spec {self f : Object} {left right : Cells UInt8} (hself : Holds heap self left)
    (hf : Holds heap f right) (hfits : self.n + f.n ≤ intMax) :
    ∃ next, add heap self f = .ok (next, ⟨(left ++ right).length, some heap.fresh⟩) ∧
      NewBuffer heap next (left ++ right) := by
  have hnew : NewBuffer heap (heap.allocate (self.n + f.n))
      ([] ++ (List.replicate self.n none ++ List.replicate f.n none)) := by
    rw [List.nil_append, ← List.replicate_add]
    exact NewBuffer.allocate heap _
  obtain ⟨middle, hfirst, hmiddle⟩ :=
    copyLoop_new hnew hself (List.length_replicate ..) rfl
  rw [List.nil_append] at hmiddle
  have hmiddle : NewBuffer heap middle (left ++ (List.replicate f.n none ++ [])) := by
    rw [List.append_nil]
    exact hmiddle
  obtain ⟨next, hsecond, hafter⟩ :=
    copyLoop_new hmiddle hf (List.length_replicate ..) rfl
  rw [List.append_nil] at hafter
  refine ⟨next, ?_, hafter⟩
  rw [List.length_nil] at hfirst
  rw [← hself.count] at hsecond
  rw [add, if_neg (Nat.not_lt.mpr hfits)]
  simp only [Nat.add_sub_cancel_left]
  rw [hfirst, ok_bind, hsecond, ok_bind, List.length_append, ← hself.count, ← hf.count]

end MemberSpecs

/-! ## Objects, contents and heap together -/

inductive Agrees (heap : CharHeap) : Option Object → Option (Cells UInt8) → Prop where
  | destroyed : Agrees heap none none
  | live {object : Object} {cells : Cells UInt8} (hholds : Holds heap object cells) :
      Agrees heap (some object) (some cells)

theorem Agrees.holds {heap : CharHeap} {object : Object} {value : Option (Cells UInt8)}
    (hagrees : Agrees heap (some object) value) :
    ∃ cells, value = some cells ∧ Holds heap object cells := by
  cases hagrees with
  | live hholds => exact ⟨_, rfl, hholds⟩

theorem Agrees.imp {heap next : CharHeap} {item : Option Object} {value : Option (Cells UInt8)}
    (hagrees : Agrees heap item value)
    (hkept : ∀ object cells, item = some object → Holds heap object cells →
      Holds next object cells) : Agrees next item value := by
  cases hagrees with
  | destroyed => exact .destroyed
  | live hholds => exact .live (hkept _ _ rfl hholds)

def pointers (objects : List (Option Object)) (index : ℕ) : Option ℕ :=
  (slot objects index).bind Object.pc

/-- Each buffer has one owner, and each object holds what it is to contain. -/
structure Represents (objects : List (Option Object)) (values : List (Option (Cells UInt8)))
    (heap : CharHeap) : Prop where
  length : values.length = objects.length
  ownership : SoleOwnership (pointers objects) heap.Live
  agrees : ∀ index, Agrees heap (slot objects index) (slot values index)

theorem pointers_set {objects : List (Option Object)} {index : ℕ}
    (hlt : index < objects.length) (item : Option Object) :
    pointers (objects.set index item) =
      Function.update (pointers objects) index (item.bind Object.pc) :=
  points_set Object.pc hlt item

theorem pointers_eq_none {objects : List (Option Object)} {index : ℕ}
    (hnone : slot objects index = none) : pointers objects index = none := by
  rw [pointers, hnone]
  rfl

namespace Represents

variable {objects : List (Option Object)} {values : List (Option (Cells UInt8))}
  {heap next : CharHeap} {index source : ℕ} {object : Object} {cells : Cells UInt8}

theorem holds (hrep : Represents objects values heap) (hobject : slot objects index = some object) :
    ∃ cells, slot values index = some cells ∧ Holds heap object cells := by
  have hagrees := hrep.agrees index
  rw [hobject] at hagrees
  exact hagrees.holds

theorem agrees_set (hlength : values.length = objects.length) (hlt : index < objects.length)
    (hothers : ∀ other, other ≠ index → Agrees next (slot objects other) (slot values other))
    {item : Option Object} {value : Option (Cells UInt8)} (hitem : Agrees next item value)
    (other : ℕ) :
    Agrees next (slot (objects.set index item) other) (slot (values.set index value) other) := by
  by_cases heq : other = index
  · subst heq
    rw [slot_set_self hlt, slot_set_self (hlength ▸ hlt)]
    exact hitem
  · rw [slot_set_of_ne (Ne.symm heq), slot_set_of_ne (Ne.symm heq)]
    exact hothers other heq

theorem append_none (hrep : Represents objects values heap) :
    Represents (objects ++ [none]) (values ++ [none]) heap := by
  constructor
  · simp [hrep.length]
  · refine hrep.ownership.congr ?_ (fun _ => Iff.rfl)
    intro owner
    rw [pointers, pointers, slot_append_none]
  · intro other
    rw [slot_append_none, slot_append_none]
    exact hrep.agrees other

theorem put_empty (hrep : Represents objects values heap) (hlt : index < objects.length)
    (hnone : slot objects index = none) :
    Represents (objects.set index (some .empty)) (values.set index (some [])) heap := by
  constructor
  · simp [hrep.length]
  · refine hrep.ownership.congr ?_ (fun _ => Iff.rfl)
    intro owner
    rw [pointers_set hlt]
    by_cases heq : owner = index
    · subst heq
      rw [Function.update_self, pointers_eq_none hnone]
      rfl
    · rw [Function.update_of_ne heq]
  · exact agrees_set hrep.length hlt (fun other _ => hrep.agrees other) (.live (.empty heap))

theorem put_new (hrep : Represents objects values heap) (hlt : index < objects.length)
    (hnone : slot objects index = none) (hnew : NewBuffer heap next cells) :
    Represents (objects.set index (some ⟨cells.length, some heap.fresh⟩))
      (values.set index (some cells)) next := by
  constructor
  · simp [hrep.length]
  · rw [pointers_set hlt]
    have hfresh : ¬ heap.Live heap.fresh := fun h => h heap.lookup_fresh
    exact (hrep.ownership.acquire (pointers_eq_none hnone) hfresh).congr (fun _ => rfl)
      hnew.live_iff
  · refine agrees_set hrep.length hlt ?_ (.live (.new hnew))
    intro other _
    exact (hrep.agrees other).imp fun _ _ _ hholds => hholds.kept hnew

theorem release (hrep : Represents objects values heap)
    (hobject : slot objects index = some object) :
    ∃ released, heap.release object.pc = .ok released ∧
      Represents (objects.set index none) (values.set index none) released := by
  have hlt := lt_length_of_slot hobject
  obtain ⟨cells, _, hholds⟩ := hrep.holds hobject
  cases hpc : object.pc with
  | none =>
      refine ⟨heap, rfl, ?_⟩
      constructor
      · simp [hrep.length]
      · refine hrep.ownership.congr ?_ (fun _ => Iff.rfl)
        intro owner
        rw [pointers_set hlt]
        by_cases heq : owner = index
        · subst heq
          rw [Function.update_self, pointers, hobject]
          exact hpc.symm
        · rw [Function.update_of_ne heq]
      · exact agrees_set hrep.length hlt (fun other _ => hrep.agrees other) .destroyed
  | some address =>
      have hpoints : pointers objects index = some address := by
        rw [pointers, hobject]
        exact hpc
      refine ⟨heap.set address none, Heap.release_of_lookup (hholds.buffer address hpc), ?_⟩
      constructor
      · simp [hrep.length]
      · rw [pointers_set hlt]
        exact (hrep.ownership.release hpoints).congr (fun _ => rfl)
          (fun _ => Heap.live_set_none_iff)
      · refine agrees_set hrep.length hlt ?_ .destroyed
        intro other hne
        refine (hrep.agrees other).imp fun holder others hother hothers => hothers.congr ?_
        intro held hheld
        refine Heap.lookup_set_none_of_ne ?_
        rintro rfl
        have hsame : pointers objects other = some address := by
          rw [pointers, hother]
          exact hheld
        exact hne (hrep.ownership.unique _ _ _ hsame hpoints)

theorem put_moved (hrep : Represents objects values heap) (hlt : index < objects.length)
    (hnone : slot objects index = none) (hobject : slot objects source = some object) :
    Represents ((objects.set index (some ⟨object.n, object.pc⟩)).set source (some .empty))
      ((values.set index (slot values source)).set source (some [])) heap := by
  have hne : index ≠ source := by
    rintro rfl
    rw [hnone] at hobject
    cases hobject
  have hsource := lt_length_of_slot hobject
  obtain ⟨cells, hvalue, hholds⟩ := hrep.holds hobject
  constructor
  · simp [hrep.length]
  · have hpoints : pointers objects source = object.pc := by
      rw [pointers, hobject]
      rfl
    rw [pointers_set (by simpa using hsource), pointers_set hlt]
    refine (hrep.ownership.transfer (pointers_eq_none hnone) hne).congr ?_ (fun _ => Iff.rfl)
    intro owner
    rw [hpoints]
    rfl
  · refine agrees_set (by simp [hrep.length]) (by simpa using hsource) ?_ (.live (.empty heap))
    intro other _
    refine agrees_set hrep.length hlt (fun other _ => hrep.agrees other) ?_ other
    rw [hvalue]
    exact .live hholds

/-! ### At the end of the list -/

theorem add_empty (hrep : Represents objects values heap) :
    Represents (objects ++ [some .empty]) (values ++ [some []]) heap := by
  rw [append_eq_set objects, append_eq_set values, hrep.length]
  exact hrep.append_none.put_empty (by simp) (by simp [slot])

theorem add_new (hrep : Represents objects values heap) (hnew : NewBuffer heap next cells) :
    Represents (objects ++ [some ⟨cells.length, some heap.fresh⟩]) (values ++ [some cells])
      next := by
  rw [append_eq_set objects, append_eq_set values, hrep.length]
  exact hrep.append_none.put_new (by simp) (by simp [slot]) hnew

theorem add_moved (hrep : Represents objects values heap)
    (hobject : slot objects source = some object) :
    Represents (objects.set source (some .empty) ++ [some ⟨object.n, object.pc⟩])
      (values.set source (some []) ++ [slot values source]) heap := by
  have hsource := lt_length_of_slot hobject
  have hobjects : objects.set source (some .empty) ++ [some ⟨object.n, object.pc⟩] =
      ((objects ++ [none]).set objects.length (some ⟨object.n, object.pc⟩)).set source
        (some .empty) := by
    rw [← append_eq_set, List.set_append_left _ _ hsource]
  have hvalues : values.set source (some []) ++ [slot values source] =
      ((values ++ [none]).set objects.length (slot (values ++ [none]) source)).set source
        (some []) := by
    rw [slot_append_none, ← hrep.length, ← append_eq_set,
      List.set_append_left _ _ (hrep.length ▸ hsource)]
  rw [hobjects, hvalues]
  refine hrep.append_none.put_moved (by simp) (by simp [slot]) ?_
  rw [slot_append_none]
  exact hobject

end Represents

/-! ## One operation -/

/-- The lengths that `operator+` adds have a sum that is an `int`. -/
def AddFits (objects : List (Option Object)) : Action → Prop
  | .add self f => ∀ left ∈ slot objects self, ∀ right ∈ slot objects f, left.n + right.n ≤ intMax
  | _ => True

instance (objects : List (Option Object)) : ∀ action, Decidable (AddFits objects action)
  | .add self f => inferInstanceAs (Decidable (∀ left ∈ slot objects self, ∀ right ∈
      slot objects f, left.n + right.n ≤ intMax))
  | .construct => isTrue trivial
  | .constructSize _ => isTrue trivial
  | .constructFill _ _ => isTrue trivial
  | .constructCopy _ => isTrue trivial
  | .constructMove _ => isTrue trivial
  | .assignCopy _ _ => isTrue trivial
  | .assignMove _ _ => isTrue trivial
  | .destroy _ => isTrue trivial

section Performing

variable {objects : List (Option Object)} {values : List (Option (Cells UInt8))}
  {heap : CharHeap}

theorem assignCopy_represents (hrep : Represents objects values heap) {self f : ℕ}
    {target source : Object} (htarget : slot objects self = some target)
    (hsource : slot objects f = some source) (hne : self ≠ f) :
    ∃ next result, assignCopy heap target source = .ok (next, result) ∧
      Represents (objects.set self (some result)) (values.set self (slot values f)) next := by
  have hlt := lt_length_of_slot htarget
  obtain ⟨released, hrelease, hafter⟩ := hrep.release htarget
  have hfound : slot (objects.set self none) f = some source := by
    rw [slot_set_of_ne hne, hsource]
  obtain ⟨cells, hvalue, hholds⟩ := hafter.holds hfound
  rw [slot_set_of_ne hne] at hvalue
  obtain ⟨next, hcopy, hnew⟩ := constructCopy_spec hholds
  have hput := hafter.put_new (by simpa using hlt) (slot_set_self hlt _) hnew
  rw [List.set_set, List.set_set, ← hvalue] at hput
  refine ⟨next, _, ?_, hput⟩
  rw [assignCopy, hrelease, ok_bind]
  exact hcopy

theorem assignMove_represents (hrep : Represents objects values heap) {self f : ℕ}
    {target source : Object} (htarget : slot objects self = some target)
    (hsource : slot objects f = some source) (hne : self ≠ f) :
    ∃ next, assignMove heap target source = .ok (next, ⟨source.n, source.pc⟩, .empty) ∧
      Represents ((objects.set self (some ⟨source.n, source.pc⟩)).set f (some .empty))
        ((values.set self (slot values f)).set f (some [])) next := by
  have hlt := lt_length_of_slot htarget
  obtain ⟨released, hrelease, hafter⟩ := hrep.release htarget
  have hfound : slot (objects.set self none) f = some source := by
    rw [slot_set_of_ne hne, hsource]
  have hput := hafter.put_moved (by simpa using hlt) (slot_set_self hlt _) hfound
  rw [List.set_set, List.set_set, slot_set_of_ne hne] at hput
  refine ⟨released, ?_, hput⟩
  rw [assignMove, hrelease]
  rfl

/-- An operation on objects that are in order ends without a fault and leaves them so. -/
theorem perform_represents (hrep : Represents objects values heap) {action : Action}
    {result : Except Fault (CharHeap × List (Option Object))}
    (hperform : perform heap objects action = some result) (hfits : AddFits objects action) :
    ∃ next after, result = .ok (next, after) ∧
      Represents after (valuesAfter values action) next := by
  cases action with
  | construct =>
      cases hperform
      exact ⟨_, _, rfl, hrep.add_empty⟩
  | constructSize k =>
      simp only [perform] at hperform
      split at hperform
      · cases hperform
        have hnew := NewBuffer.allocate heap k
        have hadd := hrep.add_new hnew
        rw [List.length_replicate] at hadd
        exact ⟨_, _, rfl, hadd⟩
      · cases hperform
  | constructFill k ch =>
      simp only [perform] at hperform
      split at hperform
      · obtain ⟨next, hfill, hnew⟩ := constructFill_spec heap k ch
        rw [hfill, ok_bind] at hperform
        cases hperform
        have hadd := hrep.add_new hnew
        rw [List.length_replicate] at hadd
        exact ⟨_, _, rfl, hadd⟩
      · cases hperform
  | constructCopy f =>
      simp only [perform] at hperform
      split at hperform
      · rename_i source hsource
        obtain ⟨cells, hvalue, hholds⟩ := hrep.holds hsource
        obtain ⟨next, hcopy, hnew⟩ := constructCopy_spec hholds
        rw [hcopy, ok_bind] at hperform
        cases hperform
        refine ⟨_, _, rfl, ?_⟩
        rw [valuesAfter, hvalue]
        exact hrep.add_new hnew
      · cases hperform
  | constructMove f =>
      simp only [perform] at hperform
      split at hperform
      · rename_i source hsource
        cases hperform
        exact ⟨_, _, rfl, hrep.add_moved hsource⟩
      · cases hperform
  | add self f =>
      simp only [perform] at hperform
      split at hperform
      · rename_i left right hleft hright
        obtain ⟨cells, hvalue, hholds⟩ := hrep.holds hleft
        obtain ⟨others, hother, hothers⟩ := hrep.holds hright
        obtain ⟨next, hadd, hnew⟩ := add_spec hholds hothers (hfits left hleft right hright)
        rw [hadd, ok_bind] at hperform
        cases hperform
        refine ⟨_, _, rfl, ?_⟩
        rw [valuesAfter, hvalue, hother]
        exact hrep.add_new hnew
      · cases hperform
  | assignCopy self f =>
      simp only [perform] at hperform
      split at hperform
      · rename_i target source htarget hsource
        split at hperform
        · rename_i heq
          cases hperform
          subst heq
          refine ⟨_, _, rfl, ?_⟩
          rw [valuesAfter, set_slot]
          exact hrep
        · rename_i hne
          obtain ⟨next, object, hassign, hafter⟩ :=
            assignCopy_represents hrep htarget hsource hne
          rw [hassign, ok_bind] at hperform
          cases hperform
          exact ⟨_, _, rfl, hafter⟩
      · cases hperform
  | assignMove self f =>
      simp only [perform] at hperform
      split at hperform
      · rename_i target source htarget hsource
        split at hperform
        · rename_i heq
          cases hperform
          refine ⟨_, _, rfl, ?_⟩
          rw [valuesAfter, if_pos heq]
          exact hrep
        · rename_i hne
          obtain ⟨next, hassign, hafter⟩ := assignMove_represents hrep htarget hsource hne
          rw [hassign, ok_bind] at hperform
          cases hperform
          refine ⟨_, _, rfl, ?_⟩
          rw [valuesAfter, if_neg hne]
          exact hafter
      · cases hperform
  | destroy self =>
      simp only [perform] at hperform
      split at hperform
      · rename_i target htarget
        obtain ⟨released, hrelease, hafter⟩ := hrep.release htarget
        rw [destroy, hrelease, ok_bind] at hperform
        cases hperform
        exact ⟨_, _, rfl, hafter⟩
      · cases hperform

end Performing

/-! ## Sequences of operations -/

/-- The content of the buffer, or of no buffer. -/
def contents (heap : CharHeap) (object : Object) : Cells UInt8 :=
  match object.pc with
  | none => []
  | some address => (heap.lookup address).getD []

/-- No undefined access so far; each buffer has one owner and as many cells as that says;
the contents are those of the operations by value; without objects there are no buffers. -/
structure Sound (state : State) : Prop where
  noFault : state.fault = none
  ownership : SoleOwnership (pointers state.objects) state.heap.Live
  count : ∀ index object address, slot state.objects index = some object →
    object.pc = some address → ∃ cells, state.heap.lookup address = some cells ∧
      cells.length = object.n
  null : ∀ index object, slot state.objects index = some object →
    object.pc = none → object.n = 0
  contents : ∀ index,
    (slot state.objects index).map (contents state.heap) = slot state.values index
  noneLeft : (∀ index, slot state.objects index = none) → ∀ address, ¬ state.heap.Live address

structure Invariant (state : State) : Prop where
  noFault : state.fault = none
  represents : Represents state.objects state.values state.heap

theorem Invariant.sound {state : State} (hinv : Invariant state) : Sound state := by
  have hrep := hinv.represents
  constructor
  · exact hinv.noFault
  · exact hrep.ownership
  · intro index object address hobject hpc
    obtain ⟨cells, _, hholds⟩ := hrep.holds hobject
    exact ⟨cells, hholds.buffer address hpc, hholds.count.symm⟩
  · intro index object hobject hpc
    obtain ⟨cells, _, hholds⟩ := hrep.holds hobject
    rw [hholds.count, hholds.null hpc]
    rfl
  · intro index
    cases hobject : slot state.objects index with
    | none =>
        have hagrees := hrep.agrees index
        rw [hobject] at hagrees
        generalize slot state.values index = value at hagrees ⊢
        cases hagrees
        rfl
    | some object =>
        obtain ⟨cells, hvalue, hholds⟩ := hrep.holds hobject
        rw [hvalue, Option.map_some, contents]
        split
        · rename_i hpc
          rw [hholds.null hpc]
        · rename_i address hpc
          rw [hholds.buffer address hpc]
          rfl
  · intro hnone
    exact hrep.ownership.not_live fun index => pointers_eq_none (hnone index)

theorem initial_invariant : Invariant uselessProgram.initial := by
  refine ⟨rfl, rfl, ⟨?_, ?_⟩, fun _ => .destroyed⟩
  · intro first second address hfirst
    cases hfirst
  · intro address
    constructor
    · intro hlive
      exact (hlive rfl).elim
    · rintro ⟨owner, howner⟩
      cases howner

theorem Invariant.step {state next : State} {action : Action} (hinv : Invariant state)
    (hfits : AddFits state.objects action)
    (hstep : uselessProgram.step state action = some next) : Invariant next := by
  simp only [uselessProgram, Useless.step] at hstep
  cases hperform : perform state.heap state.objects action with
  | none =>
      rw [hperform] at hstep
      cases hstep
  | some result =>
      obtain ⟨heap, objects, hresult, hafter⟩ :=
        perform_represents hinv.represents hperform hfits
      rw [hperform, hresult] at hstep
      cases hstep
      exact ⟨hinv.noFault, hafter⟩

theorem fault_of_not_addFits {state next : State} {action : Action}
    (hoverflow : ¬ AddFits state.objects action)
    (hstep : uselessProgram.step state action = some next) : next.fault = some .overflow := by
  cases action with
  | add self f =>
      simp only [AddFits, not_forall, Nat.not_le] at hoverflow
      obtain ⟨left, hleft, right, hright, hgreater⟩ := hoverflow
      have hadd : add state.heap left right = .error .overflow := if_pos hgreater
      simp only [uselessProgram, Useless.step, perform, Option.mem_def.mp hleft,
        Option.mem_def.mp hright, hadd] at hstep
      cases hstep
      rfl
  | _ => exact (hoverflow trivial).elim

/-- Sole ownership and contents by value hold through a sequence of operations exactly
when no `operator+` adds lengths beyond the range of `int`. -/
theorem sound_iff_addFits {actions : List Action} {final : State}
    (hrun : uselessProgram.run uselessProgram.initial actions = some final) :
    uselessProgram.Always Sound uselessProgram.initial actions ↔
      uselessProgram.StepsMeet (fun state => AddFits state.objects) uselessProgram.initial
        actions := by
  refine TransitionSystem.always_iff_stepsMeet Invariant Sound ?_ ?_ ?_ initial_invariant hrun
  · exact fun _ hinv => hinv.sound
  · exact fun _ _ _ hinv hfits hstep => hinv.step hfits hstep
  · intro state action next _ hoverflow hstep hsound
    have hfault := fault_of_not_addFits hoverflow hstep
    rw [hsound.noFault] at hfault
    cases hfault

/-- The operations of `main` with its temporaries. -/
def mainActions : List Action :=
  [.constructFill 10 120, .add 0 0, .construct, .construct, .assignCopy 2 0, .add 0 1,
    .assignMove 3 4, .destroy 4, .assignMove 3 0, .destroy 3, .destroy 2, .destroy 1, .destroy 0]

theorem sound_main : uselessProgram.Always Sound uselessProgram.initial mainActions := by
  have hrun : uselessProgram.run uselessProgram.initial mainActions =
      some ⟨[none, none, none, none, none], [none, none, none, none],
        [none, none, none, none, none], none⟩ := by
    decide
  exact (sound_iff_addFits hrun).mpr (by decide)

theorem not_sound_of_double {k : ℕ} (hk : k ≤ intMax) (hdouble : intMax < k + k) :
    ¬ uselessProgram.Always Sound uselessProgram.initial [.constructSize k, .add 0 0] := by
  let object : Object := ⟨k, some 0⟩
  let first : State := ⟨[some object], Heap.allocate [] k, [some (List.replicate k none)], none⟩
  have hfirst : uselessProgram.step uselessProgram.initial (.constructSize k) = some first := by
    simp only [uselessProgram, Useless.step, perform, if_pos hk]
    rfl
  have hadd : add first.heap object object = .error .overflow := if_pos hdouble
  have hsecond : uselessProgram.step first (.add 0 0) =
      some { first with
        values := valuesAfter first.values (.add 0 0)
        fault := some .overflow } := by
    have hslot : slot first.objects 0 = some object := rfl
    simp only [uselessProgram, Useless.step, perform, hslot, hadd]
    rfl
  intro halways
  have hsound := ((halways.2 first hfirst).2 _ hsecond).head
  cases hsound.noFault

/-- Two lengths of 2^30. -/
theorem not_sound_long_sum :
    ¬ uselessProgram.Always Sound uselessProgram.initial
      [.constructSize (2 ^ 30), .add 0 0] :=
  not_sound_of_double (by decide) (by decide)

end CppProj.Useless
