import CppProj.TransitionSystem
import Mathlib.Algebra.Ring.Nat

/-!
# The counted pointer of `proxydemo.cpp`

`SmartPtr` objects share a payload through a `KRefCount` on the heap.  The count
is an `unsigned long` of 64 bits, while `Release` returns an `unsigned` of 32, so
the test of its result against zero looks at the low half of the count.

Between two operations `m_pReference` is never null.  Payloads are named by their
addresses, and a raw pointer is handed to the class at most once.
-/

namespace CppProj.SmartPtr

/-- `freed` is how often the counter has been deleted. -/
structure KRefCount where
  count : UInt64
  freed : ℕ
  deriving DecidableEq

/-- An object: `data` is `m_pData`, null or an address, and `reference` the position
of the counter that `m_pReference` points to. -/
structure Object where
  data : Option ℕ
  reference : ℕ
  deriving DecidableEq

/-- A destroyed object is `none`.  `deleted` lists the payloads in the order of
their deletion, `given` the raw pointers handed over and `detached` those that
`Detach` has returned; `undefined` records an access to a freed counter. -/
structure State where
  objects : List (Option Object)
  counters : List KRefCount
  deleted : List ℕ
  given : List ℕ
  detached : List ℕ
  undefined : Bool
  deriving DecidableEq

/-- The operations; objects are named by their positions, raw pointers may be
null. -/
inductive Action where
  | construct
  | constructRaw (value : Option ℕ)
  | constructCopy (source : ℕ)
  | assign (target source : ℕ)
  | assignRaw (target : ℕ) (value : Option ℕ)
  | attach (target : ℕ) (value : Option ℕ)
  | detach (target : ℕ)
  | destroy (target : ℕ)
  deriving DecidableEq

def initial : State where
  objects := []
  counters := []
  deleted := []
  given := []
  detached := []
  undefined := false

namespace KRefCount

def first : KRefCount where
  count := 0 + 1
  freed := 0

/-- What `Release` returns for the decremented count. -/
def released (counter : KRefCount) : UInt32 :=
  (counter.count - 1).toUInt32

end KRefCount

namespace State

def object (state : State) (index : ℕ) : Option Object :=
  state.objects[index]?.join

def setObject (state : State) (index : ℕ) (object : Option Object) : State :=
  { state with objects := state.objects.set index object }

def addObject (state : State) (object : Object) : State :=
  { state with objects := state.objects ++ [some object] }

def addRef (state : State) (reference : ℕ) : State :=
  match state.counters[reference]? with
  | some counter =>
      if counter.freed = 0 then
        { state with
          counters := state.counters.set reference { counter with count := counter.count + 1 } }
      else { state with undefined := true }
  | none => { state with undefined := true }

/-- The release at the start of the destructor, the assignments and `Attach`: the
object gives up its counter and deletes payload and counter if `Release` returns
zero. -/
def release (state : State) (object : Object) : State :=
  match state.counters[object.reference]? with
  | some counter =>
      if counter.freed = 0 then
        if counter.released = 0 then
          { state with
            counters := state.counters.set object.reference
              ⟨counter.count - 1, counter.freed + 1⟩
            deleted := state.deleted ++ object.data.toList }
        else
          { state with
            counters := state.counters.set object.reference
              { counter with count := counter.count - 1 } }
      else { state with undefined := true }
  | none => { state with undefined := true }

/-- `new KRefCount()` with its first `AddRef`, for a raw pointer. -/
def newReference (state : State) (value : Option ℕ) : State :=
  { state with
    counters := state.counters ++ [.first]
    given := state.given ++ value.toList }

/-- The raw pointer has not been handed over before. -/
def Fresh (state : State) (value : Option ℕ) : Prop :=
  ∀ address ∈ value, address ∉ state.given

instance (state : State) (value : Option ℕ) : Decidable (state.Fresh value) :=
  inferInstanceAs (Decidable (∀ address ∈ value, address ∉ state.given))

/-- The construction from a raw pointer. -/
def constructFrom (state : State) (value : Option ℕ) : State :=
  (state.newReference value).addObject ⟨value, state.counters.length⟩

/-- The assignment from a raw pointer, and `Attach`. -/
def replaceRaw (state : State) (target : ℕ) (object : Object) (value : Option ℕ) : State :=
  ((state.release object).newReference value).setObject target
    (some ⟨value, (state.release object).counters.length⟩)

/-- The copy assignment between different objects. -/
def replaceCopy (state : State) (target : ℕ) (object source : Object) : State :=
  ((state.release object).setObject target (some source)).addRef source.reference

def reset (state : State) (reference : ℕ) : State :=
  match state.counters[reference]? with
  | some counter =>
      if counter.freed = 0 then
        { state with counters := state.counters.set reference { counter with count := 0 } }
      else { state with undefined := true }
  | none => { state with undefined := true }

/-- `Detach` of a payload: the count is reset although the object goes on
referring to it. -/
def detachData (state : State) (target : ℕ) (object : Object) (address : ℕ) : State :=
  { (state.setObject target (some { object with data := none })).reset object.reference with
    detached := state.detached ++ [address] }

end State

def step (state : State) (action : Action) : Option State :=
  if state.undefined then none
  else
    match action with
    | .construct => some (state.constructFrom none)
    | .constructRaw value => if state.Fresh value then some (state.constructFrom value) else none
    | .constructCopy source =>
        (state.object source).map fun object =>
          (state.addObject object).addRef object.reference
    | .assign target source =>
        match state.object target, state.object source with
        | some object, some other =>
            some (if target = source then state else state.replaceCopy target object other)
        | _, _ => none
    | .assignRaw target value | .attach target value =>
        if state.Fresh value then
          (state.object target).map fun object => state.replaceRaw target object value
        else none
    | .detach target =>
        (state.object target).map fun object =>
          match object.data with
          | some address => state.detachData target object address
          | none => state
    | .destroy target =>
        (state.object target).map fun object => (state.release object).setObject target none

def system : TransitionSystem State Action where
  initial := initial
  step := step

end CppProj.SmartPtr
