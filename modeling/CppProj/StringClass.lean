import CppProj.OwnedBuffers
import CppProj.TransitionSystem
import Mathlib.Algebra.Ring.Int.Defs
import Mathlib.Algebra.Ring.Nat
import Mathlib.Data.Int.Order.Basic
import Mathlib.Data.List.TakeWhile

/-!
# The string class of `12_3`

A `String` is a buffer with its text and a stored length, both set by each member on its
own.  Characters are bytes, and `strlen` and `strcpy` do what the C library documents.
Allocations succeed; `new` refuses a negative length with an exception.
-/

namespace CppProj.StringClass

open OwnedBuffers ListUpdate

abbrev CharHeap := Heap UInt8

def nul : UInt8 := 0

def newline : UInt8 := 10

def cinlim : ℕ := 80

def intMax : ℤ := 2 ^ 31 - 1

def toInt (value : ℕ) : ℤ := Int.bmod value (2 ^ 32)

structure Object where
  str : ℕ
  len : ℤ
  deriving DecidableEq

/-! ## C strings -/

/-- The characters up to the first NUL. -/
def cString : Cells UInt8 → Except Fault (List UInt8)
  | [] => .error .outOfBounds
  | none :: _ => .error .indeterminate
  | some c :: rest =>
      if c = nul then .ok []
      else
        match cString rest with
        | .ok text => .ok (c :: text)
        | .error fault => .error fault

/-- Characters of a C string, without the NUL at its end. -/
structure Text where
  chars : List UInt8
  noNul : nul ∉ chars
  deriving DecidableEq

/-- A `const char *`: to a text somewhere else, or into a buffer of the heap. -/
inductive Source where
  | text (text : Text)
  | within (address index : ℕ)
  deriving DecidableEq

/-- What `strlen` and `strcpy` read. -/
def readSource (heap : CharHeap) : Source → Except Fault (List UInt8)
  | .text text => .ok text.chars
  | .within address index => do
      let cells ← heap.buffer (some address)
      cString (cells.drop index)

def newChars (heap : CharHeap) (len : ℤ) : Except Fault (CharHeap × ℕ) :=
  if len = intMax then .error .overflow
  else if len + 1 < 0 then .error .badArrayNewLength
  else .ok (heap.allocate (len + 1).toNat, heap.fresh)

def newString (heap : CharHeap) (len : ℤ) (text : List UInt8) : Except Fault (CharHeap × ℕ) := do
  let allocated ← newChars heap len
  let written ← writeAll allocated.2 (text ++ [nul]) 0 allocated.1
  .ok (written, allocated.2)

/-! ## The members -/

def increment (numStrings : ℤ) : Except Fault ℤ :=
  if intMax ≤ numStrings then .error .overflow else .ok (numStrings + 1)

section Members

variable (heap : CharHeap) (numStrings : ℤ)

def constructCString (s : Source) : Except Fault (CharHeap × Object × ℤ) := do
  let text ← readSource heap s
  let len := toInt text.length
  let result ← newString heap len text
  let count ← increment numStrings
  .ok (result.1, ⟨result.2, len⟩, count)

/-- The stored length is 4, the buffer has one character. -/
def construct : Except Fault (CharHeap × Object × ℤ) := do
  let len := 4
  let str := heap.fresh
  let written ← (heap.allocate 1).write str 0 (some nul)
  let count ← increment numStrings
  .ok (written, ⟨str, len⟩, count)

def constructCopy (st : Object) : Except Fault (CharHeap × Object × ℤ) := do
  let count ← increment numStrings
  let len := st.len
  let text ← readSource heap (.within st.str 0)
  let result ← newString heap len text
  .ok (result.1, ⟨result.2, len⟩, count)

/-- The destructor prints the text before it gives up the buffer. -/
def destroy (self : Object) : Except Fault (CharHeap × ℤ) := do
  let _printed ← readSource heap (.within self.str 0)
  let released ← heap.release (some self.str)
  .ok (released, numStrings - 1)

def assign (self st : Object) : Except Fault (CharHeap × Object) := do
  let released ← heap.release (some self.str)
  let len := st.len
  let text ← readSource released (.within st.str 0)
  let result ← newString released len text
  .ok (result.1, ⟨result.2, len⟩)

def assignCString (self : Object) (s : Source) : Except Fault (CharHeap × Object) := do
  let released ← heap.release (some self.str)
  let text ← readSource released s
  let len := toInt text.length
  let result ← newString released len text
  .ok (result.1, ⟨result.2, len⟩)

/-- A write through the reference that `operator[]` returns. -/
def writeElement (self : Object) (i : ℕ) (c : UInt8) : Except Fault CharHeap :=
  heap.write self.str i (some c)

end Members

/-! ## Reading from a stream -/

structure Stream where
  rest : List UInt8
  fail : Bool
  eof : Bool
  deriving DecidableEq

/-- `is.get(temp, limit)`: what goes to the array, and the stream after it. -/
def Stream.getLine (is : Stream) (limit : ℕ) : List UInt8 × Stream :=
  if is.fail || is.eof then ([], { is with fail := true })
  else
    let chars := (is.rest.takeWhile (· != newline)).take (limit - 1)
    let rest := is.rest.drop chars.length
    (chars,
      { rest := rest
        fail := chars.isEmpty
        eof := rest.isEmpty && decide (chars.length < limit - 1) })

/-- `while (is && is.get() != '\\n')` on a stream that has these characters left. -/
def discardLine (eof : Bool) : List UInt8 → Stream
  | [] => ⟨[], true, true⟩
  | c :: rest =>
      if eof then ⟨c :: rest, true, true⟩
      else if c = newline then ⟨rest, false, false⟩
      else discardLine eof rest

/-- The text that `operator>>` assigns, if any, and the stream after it. -/
def extract (is : Stream) : Option Text × Stream :=
  let got := is.getLine cinlim
  let after := if got.2.fail then got.2 else discardLine got.2.eof got.2.rest
  let text : Text := ⟨got.1.takeWhile (· != nul), fun hmem => by
    simpa using List.mem_takeWhile_imp hmem⟩
  (if got.2.fail then none else some text, after)

/-! ## Sequences of operations -/

/-- A `const char *` argument: `within object index` is `&object[index]`. -/
inductive Argument where
  | text (text : Text)
  | within (object index : ℕ)
  deriving DecidableEq

inductive Action where
  | construct
  | constructCString (s : Argument)
  | constructCopy (st : ℕ)
  | assign (self st : ℕ)
  | assignCString (self : ℕ) (s : Argument)
  | writeElement (self i : ℕ) (c : UInt8)
  | extract (self : ℕ) (is : Stream)
  | destroy (self : ℕ)
  deriving DecidableEq

structure State where
  objects : List (Option Object)
  heap : CharHeap
  numStrings : ℤ
  fault : Option Fault
  deriving DecidableEq

def howMany (state : State) : ℤ := state.numStrings

/-- The argument as a pointer, if it points to a character or the NUL of an object. -/
def resolve (objects : List (Option Object)) : Argument → Option Source
  | .text text => some (.text text)
  | .within object index =>
      match slot objects object with
      | some holder => if (index : ℤ) ≤ holder.len then some (.within holder.str index) else none
      | none => none

/-- A state after an operation: what a fault leaves is no longer looked at. -/
def State.after {β : Type} (state : State) (result : Except Fault β) (next : β → State) : State :=
  match result with
  | .ok value => next value
  | .error fault => { state with fault := some fault }

def State.add (state : State) (result : CharHeap × Object × ℤ) : State :=
  { state with
    heap := result.1
    objects := state.objects ++ [some result.2.1]
    numStrings := result.2.2 }

def State.put (state : State) (index : ℕ) (result : CharHeap × Object) : State :=
  { state with heap := result.1, objects := state.objects.set index (some result.2) }

def step (state : State) : Action → Option State
  | .construct => some (state.after (construct state.heap state.numStrings) state.add)
  | .constructCString s =>
      match resolve state.objects s with
      | none => none
      | some source =>
          match constructCString state.heap state.numStrings source with
          | .error .badArrayNewLength => some state  -- no object has come to be
          | result => some (state.after result state.add)
  | .constructCopy st =>
      match slot state.objects st with
      | none => none
      | some source =>
          some (state.after (constructCopy state.heap state.numStrings source) state.add)
  | .assign self st =>
      match slot state.objects self, slot state.objects st with
      | some target, some source =>
          if self = st then some state
          else some (state.after (assign state.heap target source) (state.put self))
      | _, _ => none
  | .assignCString self s =>
      match slot state.objects self, resolve state.objects s with
      | some target, some source =>
          some (state.after (assignCString state.heap target source) (state.put self))
      | _, _ => none
  | .writeElement self i c =>
      match slot state.objects self with
      | some target =>
          if c ≠ nul ∧ (i : ℤ) < target.len then
            some (state.after (writeElement state.heap target i c)
              fun heap => { state with heap := heap })
          else none
      | none => none
  | .extract self is =>
      match slot state.objects self with
      | some target =>
          match (extract is).1 with
          | none => some state
          | some text =>
              some (state.after (assignCString state.heap target (.text text)) (state.put self))
      | none => none
  | .destroy self =>
      match slot state.objects self with
      | some target =>
          some (state.after (destroy state.heap state.numStrings target) fun result =>
            { state with
              heap := result.1
              objects := state.objects.set self none
              numStrings := result.2 })
      | none => none

def stringProgram : TransitionSystem State Action where
  initial := ⟨[], [], 0, none⟩
  step := step

/-! ## What the members do with terminated texts -/

def terminated (text : List UInt8) : Cells UInt8 := text.map some ++ [some nul]

theorem terminated_length (text : List UInt8) : (terminated text).length = text.length + 1 := by
  simp [terminated]

theorem terminated_drop {text : List UInt8} {index : ℕ} (hindex : index ≤ text.length) :
    (terminated text).drop index = terminated (text.drop index) := by
  rw [terminated, List.drop_append_of_le_length (by rw [List.length_map]; exact hindex),
    ← List.map_drop]
  rfl

theorem cString_terminated {text : List UInt8} (hnul : nul ∉ text) :
    cString (terminated text) = .ok text := by
  induction text with
  | nil => rfl
  | cons c text ih =>
      obtain ⟨hc, hrest⟩ := not_or.mp (fun h => hnul (List.mem_cons.mpr h))
      have hread := ih hrest
      rw [terminated] at hread
      rw [terminated, List.map_cons, List.cons_append, cString, if_neg (Ne.symm hc), hread]

/-- The buffer has room for the text and its NUL, and for nothing else. -/
structure Holds (heap : CharHeap) (object : Object) (text : List UInt8) : Prop where
  noNul : nul ∉ text
  len : object.len = text.length
  short : (text.length : ℤ) < intMax
  buffer : heap.lookup object.str = some (terminated text)

theorem Holds.congr {heap next : CharHeap} {object : Object} {text : List UInt8}
    (hholds : Holds heap object text)
    (hkept : next.lookup object.str = heap.lookup object.str) : Holds next object text :=
  ⟨hholds.noNul, hholds.len, hholds.short, hkept.trans hholds.buffer⟩

theorem Holds.kept {heap next : CharHeap} {object : Object} {text : List UInt8}
    {cells : Cells UInt8} (hholds : Holds heap object text) (hnew : NewBuffer heap next cells) :
    Holds next object text :=
  hholds.congr (hnew.lookup_other _ (Heap.ne_fresh_of_lookup hholds.buffer))

theorem Holds.read {heap : CharHeap} {object : Object} {text : List UInt8}
    (hholds : Holds heap object text) {index : ℕ} (hindex : index ≤ text.length) :
    readSource heap (.within object.str index) = .ok (text.drop index) := by
  have hnul : nul ∉ text.drop index := fun h => hholds.noNul (List.mem_of_mem_drop h)
  simp only [readSource, Heap.buffer, hholds.buffer, ok_bind]
  rw [terminated_drop hindex]
  exact cString_terminated hnul

theorem Holds.read_all {heap : CharHeap} {object : Object} {text : List UInt8}
    (hholds : Holds heap object text) :
    readSource heap (.within object.str 0) = .ok text :=
  hholds.read (Nat.zero_le _)

theorem toInt_of_short {count : ℕ} (hshort : (count : ℤ) < intMax) : toInt count = count := by
  unfold intMax at hshort
  exact Int.bmod_eq_of_le (by omega) (by omega)

/-- A text shorter than the greatest `int` gets a buffer of its size. -/
theorem newString_spec {text : List UInt8} (heap : CharHeap) (hnul : nul ∉ text)
    (hshort : (text.length : ℤ) < intMax) :
    ∃ next, newString heap text.length text = .ok (next, heap.fresh) ∧
      NewBuffer heap next (terminated text) ∧
      Holds next ⟨heap.fresh, text.length⟩ text := by
  have hnew := NewBuffer.allocate heap (text.length + 1)
  have hcells : (heap.allocate (text.length + 1)).lookup heap.fresh =
      some ([] ++ (List.replicate (text.length + 1) none ++ [])) := by
    rw [List.nil_append, List.append_nil]
    exact hnew.lookup_new
  have hwrite := writeAll_spec (text ++ [nul]) [] _ [] (heap.allocate (text.length + 1)) hcells
    (by simp)
  rw [List.nil_append, List.append_nil, List.length_nil, List.map_append] at hwrite
  have hnewer : NewBuffer heap _ (terminated text) := hnew.store _
  refine ⟨_, ?_, hnewer, hnul, rfl, hshort, hnewer.lookup_new⟩
  have hchars : newChars heap text.length =
      .ok (heap.allocate (text.length + 1), heap.fresh) := by
    have hcount : ((text.length : ℤ) + 1).toNat = text.length + 1 := by omega
    rw [newChars, if_neg (by omega), if_neg (by omega), hcount]
  rw [newString, hchars, ok_bind, hwrite]
  rfl

/-- A longer text leads to an overflow, to an exception, or out of the buffer. -/
theorem newString_of_long {text : List UInt8} (heap : CharHeap)
    (hlong : intMax ≤ (text.length : ℤ)) :
    ∃ fault, newString heap (toInt text.length) text = .error fault ∧
      (fault = .badArrayNewLength ↔ toInt text.length + 1 < 0) := by
  have hrange : toInt text.length ≤ intMax := by
    have hlt := Int.bmod_lt (x := text.length) (m := 2 ^ 32) (by decide)
    unfold toInt intMax
    omega
  by_cases hmax : toInt text.length = intMax
  · refine ⟨.overflow, ?_, ?_⟩
    · rw [newString, newChars, if_pos hmax]
      rfl
    · unfold intMax at hmax
      simp
      omega
  by_cases hnegative : toInt text.length + 1 < 0
  · refine ⟨.badArrayNewLength, ?_, by simp [hnegative]⟩
    rw [newString, newChars, if_neg hmax, if_pos hnegative]
    rfl
  · refine ⟨.outOfBounds, ?_, by simpa using hnegative⟩
    have hwrite := writeAll_too_long (text ++ [nul]) 0
      (heap.allocate (toInt text.length + 1).toNat) _
      (Heap.lookup_allocate_fresh heap _) (by simp; omega) (by simp)
    rw [newString, newChars, if_neg hmax, if_neg hnegative, ok_bind, hwrite]
    rfl

/-! ## Objects and heap together -/

def pointers (objects : List (Option Object)) (index : ℕ) : Option ℕ :=
  (slot objects index).bind fun object => some object.str

structure Represents (objects : List (Option Object)) (heap : CharHeap) : Prop where
  ownership : SoleOwnership (pointers objects) heap.Live
  holds : ∀ index object, slot objects index = some object →
    ∃ text, Holds heap object text

theorem pointers_set {objects : List (Option Object)} {index : ℕ}
    (hlt : index < objects.length) (item : Option Object) :
    pointers (objects.set index item) =
      Function.update (pointers objects) index (item.bind fun object => some object.str) :=
  points_set _ hlt item

theorem pointers_of_slot {objects : List (Option Object)} {index : ℕ} {object : Object}
    (hobject : slot objects index = some object) : pointers objects index = some object.str := by
  rw [pointers, hobject]
  rfl

theorem pointers_eq_none {objects : List (Option Object)} {index : ℕ}
    (hnone : slot objects index = none) : pointers objects index = none := by
  rw [pointers, hnone]
  rfl

namespace Represents

variable {objects : List (Option Object)} {heap next : CharHeap} {index : ℕ}
  {object : Object} {text : List UInt8}

theorem append_none (hrep : Represents objects heap) : Represents (objects ++ [none]) heap := by
  constructor
  · refine hrep.ownership.congr ?_ (fun _ => Iff.rfl)
    intro owner
    rw [pointers, pointers, slot_append_none]
  · intro other holder hother
    rw [slot_append_none] at hother
    exact hrep.holds other holder hother

theorem put_new (hrep : Represents objects heap) (hlt : index < objects.length)
    (hnone : slot objects index = none) (hnew : NewBuffer heap next (terminated text))
    (hholds : Holds next ⟨heap.fresh, text.length⟩ text) :
    Represents (objects.set index (some ⟨heap.fresh, text.length⟩)) next := by
  constructor
  · rw [pointers_set hlt]
    have hfresh : ¬ heap.Live heap.fresh := fun h => h heap.lookup_fresh
    exact (hrep.ownership.acquire (pointers_eq_none hnone) hfresh).congr (fun _ => rfl)
      hnew.live_iff
  · intro other holder hother
    by_cases heq : index = other
    · subst heq
      rw [slot_set_self hlt] at hother
      cases hother
      exact ⟨text, hholds⟩
    · rw [slot_set_of_ne heq] at hother
      obtain ⟨others, hothers⟩ := hrep.holds other holder hother
      exact ⟨others, hothers.kept hnew⟩

theorem add_new (hrep : Represents objects heap) (hnew : NewBuffer heap next (terminated text))
    (hholds : Holds next ⟨heap.fresh, text.length⟩ text) :
    Represents (objects ++ [some ⟨heap.fresh, text.length⟩]) next := by
  rw [append_eq_set objects]
  exact hrep.append_none.put_new (by simp) (by simp [slot]) hnew hholds

theorem ne_of_ne (hrep : Represents objects heap) {other : ℕ} {holder : Object}
    (hobject : slot objects index = some object) (hother : slot objects other = some holder)
    (hne : index ≠ other) : object.str ≠ holder.str := by
  intro heq
  have hsame : pointers objects other = some object.str := by
    rw [pointers_of_slot hother, heq]
  exact hne (hrep.ownership.unique _ _ _ (pointers_of_slot hobject) hsame)

theorem release (hrep : Represents objects heap) (hobject : slot objects index = some object) :
    heap.release (some object.str) = .ok (heap.set object.str none) ∧
      Represents (objects.set index none) (heap.set object.str none) := by
  have hlt := lt_length_of_slot hobject
  obtain ⟨text, hholds⟩ := hrep.holds index object hobject
  refine ⟨Heap.release_of_lookup hholds.buffer, ?_, ?_⟩
  · rw [pointers_set hlt]
    exact (hrep.ownership.release (pointers_of_slot hobject)).congr (fun _ => rfl)
      (fun _ => Heap.live_set_none_iff)
  · intro other holder hother
    by_cases heq : index = other
    · subst heq
      rw [slot_set_self hlt] at hother
      cases hother
    · rw [slot_set_of_ne heq] at hother
      obtain ⟨others, hothers⟩ := hrep.holds other holder hother
      exact ⟨others,
        hothers.congr (Heap.lookup_set_none_of_ne (hrep.ne_of_ne hobject hother heq))⟩

theorem store (hrep : Represents objects heap) (hobject : slot objects index = some object)
    (hholds : Holds (heap.store object.str (terminated text)) object text) :
    Represents objects (heap.store object.str (terminated text)) := by
  obtain ⟨old, hold⟩ := hrep.holds index object hobject
  have hlive : heap.Live object.str := Heap.live_of_lookup hold.buffer
  constructor
  · exact hrep.ownership.congr (fun _ => rfl) (fun _ => Heap.live_store_iff hlive _)
  · intro other holder hother
    by_cases heq : index = other
    · subst heq
      rw [hobject] at hother
      cases hother
      exact ⟨text, hholds⟩
    · obtain ⟨others, hothers⟩ := hrep.holds other holder hother
      exact ⟨others,
        hothers.congr (Heap.lookup_store_of_ne (hrep.ne_of_ne hobject hother heq) _)⟩

end Represents

/-! ## What is to hold -/

def liveCount (objects : List (Option Object)) : ℕ := objects.countP Option.isSome

/-- Every object has a buffer of its own with a NUL at index `len` and none before it, and
the static count is that of the objects. -/
structure Sound (state : State) : Prop where
  noFault : state.fault = none
  ownership : SoleOwnership (pointers state.objects) state.heap.Live
  terminated : ∀ index object, slot state.objects index = some object →
    ∃ cells, state.heap.lookup object.str = some cells ∧ 0 ≤ object.len ∧
      cells[object.len.toNat]? = some (some nul) ∧
      ∀ i < object.len.toNat, ∃ c ≠ nul, cells[i]? = some (some c)
  count : howMany state = liveCount state.objects

structure Invariant (state : State) : Prop where
  noFault : state.fault = none
  represents : Represents state.objects state.heap
  count : state.numStrings = liveCount state.objects

theorem terminated_getElem?_length (text : List UInt8) :
    (terminated text)[text.length]? = some (some nul) := by
  simp [terminated]

theorem terminated_getElem?_lt {text : List UInt8} (hnul : nul ∉ text) {i : ℕ}
    (hlt : i < text.length) : ∃ c ≠ nul, (terminated text)[i]? = some (some c) := by
  refine ⟨text[i], ?_, ?_⟩
  · intro heq
    exact hnul (heq ▸ List.getElem_mem hlt)
  · simp [terminated, List.getElem?_append_left, hlt]

theorem Invariant.sound {state : State} (hinv : Invariant state) : Sound state := by
  refine ⟨hinv.noFault, hinv.represents.ownership, ?_, hinv.count⟩
  intro index object hobject
  obtain ⟨text, hholds⟩ := hinv.represents.holds index object hobject
  have hlen : object.len.toNat = text.length := by
    rw [hholds.len]
    rfl
  refine ⟨StringClass.terminated text, hholds.buffer, by rw [hholds.len]; omega, ?_, ?_⟩
  · rw [hlen]
    exact terminated_getElem?_length text
  · intro i hi
    exact terminated_getElem?_lt hholds.noNul (hlen ▸ hi)

/-! ## The conditions on the steps -/

/-- One more object can be counted. -/
def Countable (state : State) : Prop := (liveCount state.objects : ℤ) < intMax

/-- The length of the C string and one are an `int`.  A string within an object is not
longer than that object's. -/
def ShortArgument : Argument → Prop
  | .text text => (text.chars.length : ℤ) < intMax
  | .within _ _ => True

/-- The length of the C string, as an `int`, makes `new` throw. -/
def Refused : Argument → Prop
  | .text text => toInt text.chars.length + 1 < 0
  | .within _ _ => False

/-- The C string lies in the buffer that the assignment gives up. -/
def Aliases (self : ℕ) : Argument → Prop
  | .text _ => False
  | .within object _ => object = self

/-- No default construction; the counts and lengths are `int`s; no object is assigned a
part of its own text as a C string. -/
def StepMeets (state : State) : Action → Prop
  | .construct => False
  | .constructCString s => Refused s ∨ ShortArgument s ∧ Countable state
  | .constructCopy _ => Countable state
  | .assign _ _ => True
  | .assignCString self s => ShortArgument s ∧ ¬ Aliases self s
  | .writeElement _ _ _ => True
  | .extract _ _ => True
  | .destroy _ => True

instance (state : State) : Decidable (Countable state) :=
  inferInstanceAs (Decidable (_ < _))

instance : DecidablePred ShortArgument
  | .text text => inferInstanceAs (Decidable ((text.chars.length : ℤ) < intMax))
  | .within _ _ => isTrue trivial

instance : DecidablePred Refused
  | .text text => inferInstanceAs (Decidable (toInt text.chars.length + 1 < 0))
  | .within _ _ => isFalse not_false

instance (self : ℕ) : DecidablePred (Aliases self)
  | .text _ => isFalse not_false
  | .within object _ => inferInstanceAs (Decidable (object = self))

instance : ∀ state action, Decidable (StepMeets state action)
  | _, .construct => isFalse not_false
  | state, .constructCString s =>
      inferInstanceAs (Decidable (Refused s ∨ ShortArgument s ∧ Countable state))
  | state, .constructCopy _ => inferInstanceAs (Decidable (Countable state))
  | _, .assign _ _ => isTrue trivial
  | _, .assignCString self s =>
      inferInstanceAs (Decidable (ShortArgument s ∧ ¬ Aliases self s))
  | _, .writeElement _ _ _ => isTrue trivial
  | _, .extract _ _ => isTrue trivial
  | _, .destroy _ => isTrue trivial

/-! ## Counting objects -/

theorem getElem?_of_slot {objects : List (Option Object)} {index : ℕ} {object : Object}
    (hobject : slot objects index = some object) : objects[index]? = some (some object) :=
  Option.join_eq_some_iff.mp hobject

theorem liveCount_append (objects : List (Option Object)) (object : Object) :
    liveCount (objects ++ [some object]) = liveCount objects + 1 := by
  simp [liveCount]

theorem liveCount_set_some {objects : List (Option Object)} {index : ℕ} {object : Object}
    (hobject : slot objects index = some object) (after : Object) :
    liveCount (objects.set index (some after)) = liveCount objects := by
  have hcount := ListUpdate.countP_set_add Option.isSome (getElem?_of_slot hobject) (some after)
  simp only [Option.isSome_some, if_true] at hcount
  exact Nat.add_right_cancel hcount

theorem liveCount_set_none {objects : List (Option Object)} {index : ℕ} {object : Object}
    (hobject : slot objects index = some object) :
    liveCount (objects.set index none) + 1 = liveCount objects := by
  have hcount := ListUpdate.countP_set_add Option.isSome (getElem?_of_slot hobject) none
  simpa [liveCount] using hcount

theorem increment_of_countable {state : State} (hinv : Invariant state)
    (hcountable : Countable state) :
    increment state.numStrings = .ok (state.numStrings + 1) := by
  rw [increment, if_neg]
  rw [hinv.count]
  exact Int.not_le.mpr hcountable

theorem increment_of_not_countable {state : State} (hinv : Invariant state)
    (hcountable : ¬ Countable state) : increment state.numStrings = .error .overflow := by
  rw [increment, if_pos]
  rw [hinv.count]
  exact Int.not_lt.mp hcountable

/-! ## Arguments -/

theorem resolve_text {objects : List (Option Object)} {text : Text} {source : Source}
    (hresolve : resolve objects (.text text) = some source) : source = .text text :=
  (Option.some.inj hresolve).symm

theorem resolve_within {objects : List (Option Object)} {object index : ℕ} {source : Source}
    (hresolve : resolve objects (.within object index) = some source) :
    ∃ holder, slot objects object = some holder ∧ (index : ℤ) ≤ holder.len ∧
      source = .within holder.str index := by
  simp only [resolve] at hresolve
  split at hresolve
  · rename_i holder hholder
    split at hresolve
    · rename_i hle
      cases hresolve
      exact ⟨holder, hholder, hle, rfl⟩
    · cases hresolve
  · cases hresolve

/-- The argument does not point into the object that has been emptied. -/
theorem resolve_set_none {objects : List (Option Object)} {self : ℕ} {s : Argument}
    (halias : ¬ Aliases self s) : resolve (objects.set self none) s = resolve objects s := by
  cases s with
  | text text => rfl
  | within object index =>
      have hne : self ≠ object := fun h => halias h.symm
      rw [resolve, resolve, slot_set_of_ne hne]

theorem readSource_resolve {objects : List (Option Object)} {heap : CharHeap}
    (hrep : Represents objects heap) {s : Argument} {source : Source}
    (hresolve : resolve objects s = some source) :
    ∃ text, readSource heap source = .ok text ∧ nul ∉ text ∧
      (ShortArgument s → (text.length : ℤ) < intMax) := by
  cases s with
  | text text =>
      rw [resolve_text hresolve]
      exact ⟨text.chars, rfl, text.noNul, fun hshort => hshort⟩
  | within object index =>
      obtain ⟨holder, hholder, hle, hsource⟩ := resolve_within hresolve
      obtain ⟨text, hholds⟩ := hrep.holds object holder hholder
      rw [hholds.len] at hle
      rw [hsource]
      refine ⟨text.drop index, hholds.read (by omega), ?_, ?_⟩
      · exact fun h => hholds.noNul (List.mem_of_mem_drop h)
      · intro _
        have hshort := hholds.short
        rw [List.length_drop]
        omega

/-! ## The members on objects that are in order -/

/-- A member has given an object of its own the text. -/
structure Gives (heap next : CharHeap) (object : Object) (text : List UInt8) : Prop where
  object_eq : object = ⟨heap.fresh, text.length⟩
  newBuffer : NewBuffer heap next (terminated text)
  holds : Holds next ⟨heap.fresh, text.length⟩ text

theorem newString_gives {text : List UInt8} (heap : CharHeap) (hnul : nul ∉ text)
    (hshort : (text.length : ℤ) < intMax) :
    ∃ next, newString heap text.length text = .ok (next, heap.fresh) ∧
      Gives heap next ⟨heap.fresh, text.length⟩ text := by
  obtain ⟨next, hnew, hbuffer, hholds⟩ := newString_spec heap hnul hshort
  exact ⟨next, hnew, rfl, hbuffer, hholds⟩

theorem constructCString_spec {state : State} (hinv : Invariant state) {s : Argument}
    {source : Source} (hresolve : resolve state.objects s = some source)
    (hshort : ShortArgument s) (hcountable : Countable state) :
    ∃ next object text, constructCString state.heap state.numStrings source =
        .ok (next, object, state.numStrings + 1) ∧ Gives state.heap next object text := by
  obtain ⟨text, hread, hnul, hlength⟩ := readSource_resolve hinv.represents hresolve
  obtain ⟨next, hnew, hgives⟩ := newString_gives state.heap hnul (hlength hshort)
  refine ⟨next, _, text, ?_, hgives⟩
  rw [constructCString, hread, ok_bind]
  simp only [toInt_of_short (hlength hshort)]
  rw [hnew, ok_bind, increment_of_countable hinv hcountable]
  rfl

theorem constructCopy_spec {state : State} (hinv : Invariant state) {st : ℕ} {source : Object}
    (hsource : slot state.objects st = some source) (hcountable : Countable state) :
    ∃ next object text, constructCopy state.heap state.numStrings source =
        .ok (next, object, state.numStrings + 1) ∧ Gives state.heap next object text := by
  obtain ⟨text, hholds⟩ := hinv.represents.holds st source hsource
  obtain ⟨next, hnew, hgives⟩ := newString_gives state.heap hholds.noNul hholds.short
  refine ⟨next, _, text, ?_, hgives⟩
  rw [constructCopy, increment_of_countable hinv hcountable, ok_bind]
  simp only [hholds.len]
  rw [hholds.read_all, ok_bind, hnew]
  rfl

theorem assign_spec {objects : List (Option Object)} {heap : CharHeap}
    (hrep : Represents objects heap) {self st : ℕ} {target source : Object}
    (htarget : slot objects self = some target) (hsource : slot objects st = some source)
    (hne : self ≠ st) :
    ∃ next object, assign heap target source = .ok (next, object) ∧
      Represents (objects.set self (some object)) next := by
  have hlt := lt_length_of_slot htarget
  obtain ⟨hrelease, hafter⟩ := hrep.release htarget
  have hfound : slot (objects.set self none) st = some source := by
    rw [slot_set_of_ne hne, hsource]
  obtain ⟨text, hholds⟩ := hafter.holds st source hfound
  obtain ⟨next, hnew, hgives⟩ := newString_gives (heap.set target.str none) hholds.noNul
    hholds.short
  have hput := hafter.put_new (by simpa using hlt) (slot_set_self hlt _) hgives.newBuffer
    hgives.holds
  rw [List.set_set] at hput
  refine ⟨next, _, ?_, hput⟩
  rw [assign, hrelease, ok_bind]
  simp only [hholds.len]
  rw [hholds.read_all, ok_bind, hnew]
  rfl

theorem assignCString_spec {objects : List (Option Object)} {heap : CharHeap}
    (hrep : Represents objects heap) {self : ℕ} {s : Argument} {target : Object}
    {source : Source} (htarget : slot objects self = some target)
    (hresolve : resolve objects s = some source) (hshort : ShortArgument s)
    (halias : ¬ Aliases self s) :
    ∃ next object, assignCString heap target source = .ok (next, object) ∧
      Represents (objects.set self (some object)) next := by
  have hlt := lt_length_of_slot htarget
  obtain ⟨hrelease, hafter⟩ := hrep.release htarget
  rw [← resolve_set_none halias] at hresolve
  obtain ⟨text, hread, hnul, hlength⟩ := readSource_resolve hafter hresolve
  obtain ⟨next, hnew, hgives⟩ := newString_gives (heap.set target.str none) hnul
    (hlength hshort)
  have hput := hafter.put_new (by simpa using hlt) (slot_set_self hlt _) hgives.newBuffer
    hgives.holds
  rw [List.set_set] at hput
  refine ⟨next, _, ?_, hput⟩
  rw [assignCString, hrelease, ok_bind, hread, ok_bind]
  simp only [toInt_of_short (hlength hshort)]
  rw [hnew]
  rfl

theorem terminated_set {text : List UInt8} {i : ℕ} (hi : i < text.length) (c : UInt8) :
    (terminated text).set i (some c) = terminated (text.set i c) := by
  rw [terminated, terminated, List.set_append_left _ _ (by simpa using hi), List.map_set]

theorem writeElement_spec {objects : List (Option Object)} {heap : CharHeap}
    (hrep : Represents objects heap) {self i : ℕ} {target : Object} {c : UInt8}
    (htarget : slot objects self = some target) (hc : c ≠ nul) (hi : (i : ℤ) < target.len) :
    ∃ next, writeElement heap target i c = .ok next ∧ Represents objects next := by
  obtain ⟨text, hholds⟩ := hrep.holds self target htarget
  have hlt : i < text.length := by
    rw [hholds.len] at hi
    omega
  have hlive : heap.Live target.str := Heap.live_of_lookup hholds.buffer
  have hwrite : writeElement heap target i c =
      .ok (heap.store target.str (terminated (text.set i c))) := by
    rw [writeElement, Heap.write_of_lookup hholds.buffer (by rw [terminated_length]; omega),
      terminated_set hlt]
  refine ⟨_, hwrite, hrep.store htarget ⟨?_, ?_, ?_, Heap.lookup_store_self hlive _⟩⟩
  · intro hmem
    rcases List.mem_or_eq_of_mem_set hmem with hold | heq
    · exact hholds.noNul hold
    · exact hc heq.symm
  · rw [List.length_set]
    exact hholds.len
  · rw [List.length_set]
    exact hholds.short

theorem destroy_spec {objects : List (Option Object)} {heap : CharHeap}
    (hrep : Represents objects heap) {self : ℕ} {target : Object}
    (htarget : slot objects self = some target) (numStrings : ℤ) :
    ∃ next, destroy heap numStrings target = .ok (next, numStrings - 1) ∧
      Represents (objects.set self none) next := by
  obtain ⟨text, hholds⟩ := hrep.holds self target htarget
  obtain ⟨hrelease, hafter⟩ := hrep.release htarget
  refine ⟨_, ?_, hafter⟩
  rw [destroy, hholds.read_all, ok_bind, hrelease]
  rfl

theorem extract_short {is : Stream} {text : Text} (hextract : (extract is).1 = some text) :
    ShortArgument (.text text) := by
  have hline : (is.getLine cinlim).1.length ≤ 79 := by
    unfold Stream.getLine
    split
    · exact Nat.zero_le _
    · exact List.length_take_le _ _
  simp only [extract] at hextract
  split at hextract
  · cases hextract
  · cases hextract
    have htake := (List.takeWhile_sublist (· != nul)
      (l := (is.getLine cinlim).1)).length_le
    show ((((is.getLine cinlim).1.takeWhile (· != nul)).length : ℕ) : ℤ) < intMax
    unfold intMax
    omega

/-! ## One step -/

theorem Invariant.add {state : State} (hinv : Invariant state) {next : CharHeap}
    {object : Object} {text : List UInt8} (hgives : Gives state.heap next object text) :
    Invariant (state.add (next, object, state.numStrings + 1)) := by
  obtain ⟨rfl, hbuffer, hholds⟩ := hgives
  refine ⟨hinv.noFault, hinv.represents.add_new hbuffer hholds, ?_⟩
  simp only [State.add]
  rw [liveCount_append, hinv.count]
  rfl

theorem Invariant.put {state : State} (hinv : Invariant state) {self : ℕ} {target : Object}
    (htarget : slot state.objects self = some target) {result : CharHeap × Object}
    (hrep : Represents (state.objects.set self (some result.2)) result.1) :
    Invariant (state.put self result) := by
  refine ⟨hinv.noFault, hrep, ?_⟩
  simp only [State.put]
  rw [liveCount_set_some htarget]
  exact hinv.count

theorem constructCString_of_error {heap : CharHeap} {source : Source} {text : List UInt8}
    {fault : Fault} (hread : readSource heap source = .ok text)
    (hnew : newString heap (toInt text.length) text = .error fault) (numStrings : ℤ) :
    constructCString heap numStrings source = .error fault := by
  rw [constructCString, hread, ok_bind]
  exact congrArg (· >>= _) hnew

theorem assignCString_of_error {heap released : CharHeap} {self : Object} {source : Source}
    {text : List UInt8} {fault : Fault} (hrelease : heap.release (some self.str) = .ok released)
    (hread : readSource released source = .ok text)
    (hnew : newString released (toInt text.length) text = .error fault) :
    assignCString heap self source = .error fault := by
  rw [assignCString, hrelease, ok_bind, hread, ok_bind]
  exact congrArg (· >>= _) hnew

theorem constructCString_of_refused {state : State} {text : Text}
    (hrefused : Refused (.text text)) :
    constructCString state.heap state.numStrings (.text text) = .error .badArrayNewLength := by
  have hlong : intMax ≤ (text.chars.length : ℤ) := by
    by_contra hshort
    have hlength := toInt_of_short (Int.not_le.mp hshort)
    have hnegative : toInt text.chars.length + 1 < 0 := hrefused
    omega
  obtain ⟨fault, hnew, hfault⟩ := newString_of_long state.heap hlong
  rw [hfault.mpr hrefused] at hnew
  exact constructCString_of_error rfl hnew _

theorem Invariant.step {state next : State} {action : Action} (hinv : Invariant state)
    (hmeets : StepMeets state action) (hstep : stringProgram.step state action = some next) :
    Invariant next := by
  cases action with
  | construct => exact hmeets.elim
  | constructCString s =>
      simp only [stringProgram, StringClass.step] at hstep
      cases hresolve : resolve state.objects s with
      | none =>
          rw [hresolve] at hstep
          cases hstep
      | some source =>
          simp only [hresolve] at hstep
          rcases hmeets with hrefused | ⟨hshort, hcountable⟩
          · cases s with
            | within object index => exact hrefused.elim
            | text text =>
                rw [resolve_text hresolve, constructCString_of_refused hrefused] at hstep
                cases hstep
                exact hinv
          · obtain ⟨heap, object, text, hconstruct, hgives⟩ :=
              constructCString_spec hinv hresolve hshort hcountable
            rw [hconstruct] at hstep
            cases hstep
            exact hinv.add hgives
  | constructCopy st =>
      simp only [stringProgram, StringClass.step] at hstep
      split at hstep
      · cases hstep
      · rename_i source hsource
        obtain ⟨heap, object, text, hconstruct, hgives⟩ := constructCopy_spec hinv hsource hmeets
        rw [hconstruct] at hstep
        cases hstep
        exact hinv.add hgives
  | assign self st =>
      simp only [stringProgram, StringClass.step] at hstep
      split at hstep
      · rename_i target source htarget hsource
        split at hstep
        · cases hstep
          exact hinv
        · rename_i hne
          obtain ⟨heap, object, hassign, hrep⟩ :=
            assign_spec hinv.represents htarget hsource hne
          rw [hassign] at hstep
          cases hstep
          exact hinv.put htarget hrep
      · cases hstep
  | assignCString self s =>
      simp only [stringProgram, StringClass.step] at hstep
      split at hstep
      · rename_i target source htarget hresolve
        obtain ⟨heap, object, hassign, hrep⟩ :=
          assignCString_spec hinv.represents htarget hresolve hmeets.1 hmeets.2
        rw [hassign] at hstep
        cases hstep
        exact hinv.put htarget hrep
      · cases hstep
  | writeElement self i c =>
      simp only [stringProgram, StringClass.step] at hstep
      split at hstep
      · rename_i target htarget
        split at hstep
        · rename_i hwithin
          obtain ⟨heap, hwrite, hrep⟩ :=
            writeElement_spec hinv.represents htarget hwithin.1 hwithin.2
          rw [hwrite] at hstep
          cases hstep
          exact ⟨hinv.noFault, hrep, hinv.count⟩
        · cases hstep
      · cases hstep
  | extract self is =>
      simp only [stringProgram, StringClass.step] at hstep
      split at hstep
      · rename_i target htarget
        split at hstep
        · cases hstep
          exact hinv
        · rename_i text htext
          obtain ⟨heap, object, hassign, hrep⟩ :=
            assignCString_spec (s := .text text) hinv.represents htarget rfl
              (extract_short htext) not_false
          rw [hassign] at hstep
          cases hstep
          exact hinv.put htarget hrep
      · cases hstep
  | destroy self =>
      simp only [stringProgram, StringClass.step] at hstep
      split at hstep
      · rename_i target htarget
        obtain ⟨heap, hdestroy, hrep⟩ :=
          destroy_spec hinv.represents htarget state.numStrings
        rw [hdestroy] at hstep
        cases hstep
        refine ⟨hinv.noFault, hrep, ?_⟩
        have hcount := liveCount_set_none htarget
        show state.numStrings - 1 = (liveCount (state.objects.set self none) : ℤ)
        rw [hinv.count]
        omega
      · cases hstep

/-! ## The other steps -/

theorem not_sound_of_error {β : Type} {state : State} {fault : Fault} {next : β → State} :
    ¬ Sound (state.after (.error fault) next) := by
  intro hsound
  cases hsound.noFault

/-- The default constructor stores the length 4 for a buffer of one character. -/
theorem not_sound_construct {state : State} :
    ¬ Sound (state.after (construct state.heap state.numStrings) state.add) := by
  have hfresh := Heap.lookup_allocate_fresh state.heap 1
  have hwrite : (state.heap.allocate 1).write state.heap.fresh 0 (some nul) = .ok _ :=
    Heap.write_of_lookup hfresh (by simp) (some nul)
  have hlive : (state.heap.allocate 1).Live state.heap.fresh := Heap.live_of_lookup hfresh
  rw [construct, hwrite, ok_bind]
  cases increment state.numStrings with
  | error fault => exact not_sound_of_error
  | ok count =>
      intro hsound
      have hlast : slot (state.objects ++ [some ⟨state.heap.fresh, 4⟩]) state.objects.length =
          some ⟨state.heap.fresh, 4⟩ := by
        simp [slot]
      obtain ⟨cells, hcells, _, hnul, _⟩ := hsound.terminated _ _ hlast
      simp only [State.after, ok_bind, State.add] at hcells
      rw [Heap.lookup_store_self hlive] at hcells
      cases hcells
      cases hnul

theorem constructCString_fails {state : State} (hinv : Invariant state) {s : Argument}
    {source : Source} (hresolve : resolve state.objects s = some source)
    (haccepted : ¬ Refused s) (hlimit : ¬ (ShortArgument s ∧ Countable state)) :
    ∃ fault, fault ≠ .badArrayNewLength ∧
      constructCString state.heap state.numStrings source = .error fault := by
  by_cases hshort : ShortArgument s
  · have hcountable : ¬ Countable state := fun h => hlimit ⟨hshort, h⟩
    obtain ⟨text, hread, hnul, hlength⟩ := readSource_resolve hinv.represents hresolve
    obtain ⟨heap, hnew, _⟩ := newString_gives state.heap hnul (hlength hshort)
    refine ⟨.overflow, by decide, ?_⟩
    rw [constructCString, hread, ok_bind]
    simp only [toInt_of_short (hlength hshort)]
    rw [hnew, ok_bind, increment_of_not_countable hinv hcountable]
    rfl
  · cases s with
    | within object index => exact (hshort trivial).elim
    | text text =>
        obtain ⟨fault, hnew, hexception⟩ := newString_of_long state.heap (Int.not_lt.mp hshort)
        refine ⟨fault, fun h => haccepted (hexception.mp h), ?_⟩
        rw [resolve_text hresolve]
        exact constructCString_of_error rfl hnew _

theorem assignCString_fails {objects : List (Option Object)} {heap : CharHeap}
    (hrep : Represents objects heap) {self : ℕ} {target : Object} {s : Argument}
    {source : Source} (htarget : slot objects self = some target)
    (hresolve : resolve objects s = some source)
    (hviolated : ¬ (ShortArgument s ∧ ¬ Aliases self s)) :
    ∃ fault, assignCString heap target source = .error fault := by
  obtain ⟨hrelease, _⟩ := hrep.release htarget
  cases s with
  | text text =>
      have hlong : intMax ≤ (text.chars.length : ℤ) := by
        by_contra hshort
        exact hviolated ⟨Int.not_le.mp hshort, not_false⟩
      obtain ⟨fault, hnew, _⟩ := newString_of_long (heap.set target.str none) hlong
      refine ⟨fault, ?_⟩
      rw [resolve_text hresolve]
      exact assignCString_of_error hrelease rfl hnew
  | within object index =>
      have halias : object = self := by
        by_contra hne
        exact hviolated ⟨trivial, hne⟩
      obtain ⟨holder, hholder, _, hsource⟩ := resolve_within hresolve
      rw [halias, htarget] at hholder
      cases hholder
      refine ⟨.useAfterFree, ?_⟩
      rw [hsource, assignCString, hrelease, ok_bind]
      simp only [readSource, Heap.buffer, Heap.lookup_set_none_self]
      rfl

theorem not_sound_of_not_meets {state next : State} {action : Action} (hinv : Invariant state)
    (hviolated : ¬ StepMeets state action)
    (hstep : stringProgram.step state action = some next) : ¬ Sound next := by
  cases action with
  | construct =>
      cases hstep
      exact not_sound_construct
  | constructCString s =>
      simp only [stringProgram, StringClass.step] at hstep
      obtain ⟨haccepted, hlimit⟩ := not_or.mp hviolated
      cases hresolve : resolve state.objects s with
      | none =>
          rw [hresolve] at hstep
          cases hstep
      | some source =>
          simp only [hresolve] at hstep
          obtain ⟨fault, hne, hconstruct⟩ :=
            constructCString_fails hinv hresolve haccepted hlimit
          rw [hconstruct] at hstep
          split at hstep
          · rename_i heq
            exact (hne (Except.error.inj heq)).elim
          · cases hstep
            exact not_sound_of_error
  | constructCopy st =>
      simp only [stringProgram, StringClass.step] at hstep
      split at hstep
      · cases hstep
      · rename_i source hsource
        have hconstruct : constructCopy state.heap state.numStrings source =
            .error .overflow := by
          rw [constructCopy, increment_of_not_countable hinv hviolated]
          rfl
        rw [hconstruct] at hstep
        cases hstep
        exact not_sound_of_error
  | assignCString self s =>
      simp only [stringProgram, StringClass.step] at hstep
      split at hstep
      · rename_i target source htarget hresolve
        obtain ⟨fault, hassign⟩ :=
          assignCString_fails hinv.represents htarget hresolve hviolated
        rw [hassign] at hstep
        cases hstep
        exact not_sound_of_error
      · cases hstep
  | assign _ _ => exact (hviolated trivial).elim
  | writeElement _ _ _ => exact (hviolated trivial).elim
  | extract _ _ => exact (hviolated trivial).elim
  | destroy _ => exact (hviolated trivial).elim

theorem initial_invariant : Invariant stringProgram.initial := by
  refine ⟨rfl, ⟨⟨?_, ?_⟩, ?_⟩, rfl⟩
  · intro first second address hfirst
    cases hfirst
  · intro address
    constructor
    · intro hlive
      exact (hlive rfl).elim
    · rintro ⟨owner, howner⟩
      cases howner
  · intro index object hobject
    cases hobject

/-- The class invariant and the count hold through a sequence of operations exactly when it
has no default construction, no C string whose length is out of the range of `int`, no
assignment from the object's own text as a C string, and not too many objects. -/
theorem sound_iff_stepMeets {actions : List Action} {final : State}
    (hrun : stringProgram.run stringProgram.initial actions = some final) :
    stringProgram.Always Sound stringProgram.initial actions ↔
      stringProgram.StepsMeet StepMeets stringProgram.initial actions := by
  refine TransitionSystem.always_iff_stepsMeet Invariant Sound ?_ ?_ ?_ initial_invariant hrun
  · exact fun _ hinv => hinv.sound
  · exact fun _ _ _ hinv hmeets hstep => hinv.step hmeets hstep
  · exact fun _ _ _ hinv hviolated hstep => not_sound_of_not_meets hinv hviolated hstep

def exampleActions : List Action :=
  [.constructCString (.text ⟨[67, 43, 43], by decide⟩), .constructCopy 0,
    .extract 1 ⟨[104, 105, newline], false, false⟩, .assign 0 1, .assign 0 0,
    .writeElement 0 1 111, .assignCString 1 (.within 0 1), .destroy 0, .destroy 1]

theorem sound_exampleActions :
    stringProgram.Always Sound stringProgram.initial exampleActions := by
  have hrun : stringProgram.run stringProgram.initial exampleActions =
      some ⟨[none, none], [none, none, none, none, none], 0, none⟩ := by
    decide
  exact (sound_iff_stepMeets hrun).mpr (by decide)

theorem not_sound_default_object :
    stringProgram.step stringProgram.initial .construct =
        some ⟨[some ⟨0, 4⟩], [some [some nul]], 1, none⟩ ∧
      ¬ stringProgram.Always Sound stringProgram.initial [.construct] := by
  refine ⟨by decide, ?_⟩
  intro halways
  exact not_sound_construct (halways.2 _ rfl).head

end CppProj.StringClass
