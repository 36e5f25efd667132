import CppProj.BoundedCopies
import CppProj.TransitionSystem

/-!
# Saved states of `memento.cpp`

An `Originator` keeps its value in 260 wide characters.  `CreateMemento` copies 259 of them
into a new `State` and hands out a memento that points to it; `SetMemento` copies them back.
The copies write no terminator at full length: the value is cleared before each copy into
it, while the last character of a saved state is never written.

The states are buffers on a heap, which nothing releases before the originator is destroyed.
-/

namespace CppProj.MementoStates

open OwnedBuffers BoundedCopies

def nul : UInt32 := 0

/-- The characters of a string, without the NUL at its end. -/
structure Text where
  chars : List UInt32
  noNul : nul ∉ chars
  deriving DecidableEq

def Text.cells (value : Text) : Cells UInt32 := value.chars.map some ++ [some nul]

structure Originator where
  m_pState : Option ℕ
  wcsValue : Cells UInt32
  deriving DecidableEq

/-- The originator, the states on the heap, and the `m_pState` of each memento made. -/
structure World where
  heap : Heap UInt32
  originator : Originator
  mementos : List (Option ℕ)
  deriving DecidableEq

/-- The constructor leaves the characters without a value. -/
def initial : World := ⟨[], ⟨none, List.replicate 260 none⟩, []⟩

inductive Call where
  | setValue (value : Text)
  | createMemento
  | setMemento (index : ℕ)
  deriving DecidableEq

def setValue (world : World) (value : Text) : Except Fault World := do
  let cleared ← memset world.originator.wcsValue nul 260
  let copied ← strncpy nul cleared value.cells 259
  if 259 < copied.length then
    .ok { world with originator :=
      { world.originator with wcsValue := copied.set 259 (some nul) } }
  else .error .outOfBounds

def createMemento (world : World) : Except Fault World := do
  let pState := world.heap.fresh
  let heap := world.heap.allocate 260
  let state ← heap.buffer (some pState)
  let copied ← strncpy nul state world.originator.wcsValue 259
  .ok ⟨heap.store pState copied, { world.originator with m_pState := some pState },
    world.mementos ++ [some pState]⟩

/-- A memento that has not been made is a pointer to nothing. -/
def setMemento (world : World) (index : ℕ) : Except Fault World :=
  match world.mementos[index]? with
  | none => .error .useAfterFree
  | some pState => do
      let cleared ← memset world.originator.wcsValue nul 260
      let state ← world.heap.buffer pState
      let copied ← strncpy nul cleared state 259
      .ok { world with originator := ⟨pState, copied⟩ }

def call (world : World) : Call → Except Fault World
  | .setValue value => setValue world value
  | .createMemento => createMemento world
  | .setMemento index => setMemento world index

/-- A step with a fault is no step. -/
def originator : TransitionSystem World Call where
  initial := initial
  step world request := (call world request).toOption

/-! ## What is kept -/

/-- A string that fits. -/
structure Value where
  chars : List UInt32
  noNul : nul ∉ chars
  length_le : chars.length ≤ 259

def Text.cut (value : Text) : Value where
  chars := value.chars.take 259
  noNul := fun hmem => value.noNul (List.mem_of_mem_take hmem)
  length_le := by
    rw [List.length_take]
    exact Nat.min_le_left 259 _

/-- The value of the originator, if it has been set, and what each memento holds. -/
structure Kept where
  value : Option Value
  saved : List Value

def Kept.call (kept : Kept) : Call → Option Kept
  | .setValue value => some { kept with value := some value.cut }
  | .createMemento => kept.value.map fun value => { kept with saved := kept.saved ++ [value] }
  | .setMemento index => kept.saved[index]?.map fun value => { kept with value := some value }

def specification : TransitionSystem Kept Call := ⟨⟨none, []⟩, Kept.call⟩

/-- A string with NULs up to the last of 260 cells, which is given. -/
def Value.cells (value : Value) (last : Option UInt32) : Cells UInt32 :=
  value.chars.map some ++ (List.replicate (259 - value.chars.length) (some nul) ++ [last])

def wcsValueOf : Option Value → Cells UInt32
  | none => List.replicate 260 none
  | some value => value.cells (some nul)

/-- The value is a terminated string, and each memento points to a state with its string,
whose last character was never written. -/
structure Represents (world : World) (kept : Kept) : Prop where
  value_eq : world.originator.wcsValue = wcsValueOf kept.value
  states_eq : world.mementos.map world.heap.buffer =
    kept.saved.map fun value => .ok (value.cells none)

/-! ## The copies -/

section Copies

variable {value : Value} {last : Option UInt32} {dst : Cells UInt32}

theorem Value.cells_eq_append (value : Value) (last : Option UInt32) :
    value.cells last =
      (value.chars.map some ++ List.replicate (259 - value.chars.length) (some nul)) ++ [last] :=
  (List.append_assoc ..).symm

theorem Value.length_front (value : Value) :
    (value.chars.map some ++ List.replicate (259 - value.chars.length) (some nul)).length =
      259 := by
  have hle := value.length_le
  rw [List.length_append, List.length_map, List.length_replicate]
  omega

theorem Value.length_cells (value : Value) (last : Option UInt32) :
    (value.cells last).length = 260 := by
  rw [Value.cells_eq_append, List.length_append, value.length_front, List.length_singleton]

theorem wcsValueOf_length (kept : Option Value) : (wcsValueOf kept).length = 260 := by
  cases kept with
  | none => exact List.length_replicate
  | some value => exact value.length_cells _

theorem strncpy_cells (value : Value) (last : Option UInt32) {rest : Option UInt32}
    (hlength : dst.length = 260) (hdrop : dst.drop 259 = [rest]) :
    strncpy nul dst (value.cells last) 259 = .ok (value.cells rest) := by
  have hpad : value.chars.length < 259 →
      (List.replicate (259 - value.chars.length) (some nul) ++ [last]).head? =
        some (some nul) := by
    intro hlt
    rw [replicate_sub_eq_cons hlt]
    rfl
  rw [Value.cells, strncpy_append value.noNul hpad (by omega), hdrop,
    List.take_of_length_le value.length_le]
  rfl

theorem cleared_eq (hlength : dst.length = 260) :
    memset dst nul 260 = .ok (List.replicate 260 (some nul)) := by
  rw [memset_eq (by omega), List.drop_eq_nil_of_le (by omega), List.append_nil]

theorem drop_cleared : (List.replicate 260 (some nul)).drop 259 = [some nul] := by
  rw [List.drop_replicate]
  rfl

/-- Setting the last character changes nothing, for it has been cleared. -/
theorem Value.set_last (value : Value) :
    (value.cells (some nul)).set 259 (some nul) = value.cells (some nul) := by
  have hfront := value.length_front
  rw [Value.cells_eq_append, List.set_append_right _ _ (by omega), hfront]
  rfl

theorem setValue_eq {world : World} (hlength : world.originator.wcsValue.length = 260)
    (text : Text) :
    setValue world text = .ok { world with originator :=
      { world.originator with wcsValue := text.cut.cells (some nul) } } := by
  have hcopy : strncpy nul (List.replicate 260 (some nul)) text.cells 259 =
      .ok (text.cut.cells (some nul)) := by
    rw [Text.cells, strncpy_append text.noNul (fun _ => rfl)
      (by rw [List.length_replicate]; omega), drop_cleared]
    rfl
  rw [setValue, cleared_eq hlength, ok_bind, hcopy, ok_bind,
    if_pos (by rw [Value.length_cells]; omega), Value.set_last]

/-- The new state gets the value, except for its last character. -/
theorem createMemento_eq {world : World} (hvalue : world.originator.wcsValue =
    value.cells (some nul)) :
    ∃ heap, createMemento world = .ok ⟨heap,
        { world.originator with m_pState := some world.heap.fresh },
        world.mementos ++ [some world.heap.fresh]⟩ ∧
      NewBuffer world.heap heap (value.cells none) := by
  have hnew := NewBuffer.allocate world.heap 260
  have hcopy : strncpy nul (List.replicate 260 none) (value.cells (some nul)) 259 =
      .ok (value.cells none) :=
    strncpy_cells value _ List.length_replicate (List.drop_replicate ..)
  refine ⟨_, ?_, hnew.store (value.cells none)⟩
  rw [createMemento, Heap.buffer, hnew.lookup_new]
  simp only [ok_bind, hvalue, hcopy]

theorem createMemento_eq_error {world : World} (hvalue : world.originator.wcsValue =
    List.replicate 260 none) : createMemento world = .error .indeterminate := by
  have hnew := NewBuffer.allocate world.heap 260
  rw [createMemento, Heap.buffer, hnew.lookup_new]
  simp only [ok_bind, hvalue]
  rfl

theorem setMemento_eq {world : World} (hlength : world.originator.wcsValue.length = 260)
    {index : ℕ} {pState : Option ℕ} (hmemento : world.mementos[index]? = some pState)
    (hstate : world.heap.buffer pState = .ok (value.cells none)) :
    setMemento world index =
      .ok { world with originator := ⟨pState, value.cells (some nul)⟩ } := by
  have hcopy : strncpy nul (List.replicate 260 (some nul)) (value.cells none) 259 =
      .ok (value.cells (some nul)) :=
    strncpy_cells value none List.length_replicate drop_cleared
  rw [setMemento, hmemento]
  simp only [cleared_eq hlength, ok_bind, hstate, hcopy]

end Copies

/-! ## Any sequence of calls -/

section Runs

variable {world : World} {kept : Kept}

theorem buffer_newBuffer {heap next : Heap UInt32} {cells others : Cells UInt32}
    {pState : Option ℕ} (hbuffer : heap.buffer pState = .ok others)
    (hnew : NewBuffer heap next cells) : next.buffer pState = .ok others := by
  cases pState with
  | none => cases hbuffer
  | some address =>
      simp only [Heap.buffer] at hbuffer ⊢
      cases hlookup : heap.lookup address with
      | none => simp [hlookup] at hbuffer
      | some _ =>
          rw [hnew.lookup_other address (Heap.ne_fresh_of_lookup hlookup)]
          exact hbuffer

/-- A state that a memento points to is there, whatever has been made since. -/
theorem Represents.buffer_eq_ok (hrep : Represents world kept) {pState : Option ℕ}
    (hmem : pState ∈ world.mementos) : ∃ cells, world.heap.buffer pState = .ok cells := by
  have hstate := List.mem_map_of_mem (f := world.heap.buffer) hmem
  rw [hrep.states_eq] at hstate
  obtain ⟨value, -, heq⟩ := List.mem_map.mp hstate
  exact ⟨_, heq.symm⟩

theorem Represents.createMemento (hrep : Represents world kept) {value : Value}
    (hvalue : kept.value = some value) :
    ∃ next, createMemento world = .ok next ∧
      Represents next ⟨some value, kept.saved ++ [value]⟩ := by
  have hset : world.originator.wcsValue = value.cells (some nul) := by
    rw [hrep.value_eq, hvalue]
    rfl
  obtain ⟨heap, hcreate, hnew⟩ := createMemento_eq hset
  refine ⟨_, hcreate, by rw [hrep.value_eq, hvalue], ?_⟩
  have hold : world.mementos.map heap.buffer = world.mementos.map world.heap.buffer := by
    apply List.map_congr_left
    intro pState hmem
    obtain ⟨cells, hbuffer⟩ := hrep.buffer_eq_ok hmem
    rw [hbuffer, buffer_newBuffer hbuffer hnew]
  have hfresh : heap.buffer (some world.heap.fresh) = .ok (value.cells none) := by
    rw [Heap.buffer, hnew.lookup_new]
  simp [hold, hrep.states_eq, hfresh]

theorem Represents.states_getElem? (hrep : Represents world kept) (index : ℕ) :
    world.mementos[index]?.map world.heap.buffer =
      kept.saved[index]?.map fun value => .ok (value.cells none) := by
  rw [← List.getElem?_map, hrep.states_eq, List.getElem?_map]

theorem Represents.wcsValue_length (hrep : Represents world kept) :
    world.originator.wcsValue.length = 260 := by
  rw [hrep.value_eq, wcsValueOf_length]

theorem Represents.setMemento (hrep : Represents world kept) {index : ℕ} {value : Value}
    (hsaved : kept.saved[index]? = some value) :
    ∃ next, setMemento world index = .ok next ∧
      Represents next { kept with value := some value } := by
  have hstate := hrep.states_getElem? index
  rw [hsaved, Option.map_some] at hstate
  obtain ⟨pState, hmemento, hbuffer⟩ := Option.map_eq_some_iff.mp hstate
  exact ⟨_, setMemento_eq hrep.wcsValue_length hmemento hbuffer, rfl, hrep.states_eq⟩

theorem Represents.step (hrep : Represents world kept) (request : Call) :
    Option.Rel Represents (originator.step world request) (specification.step kept request) := by
  cases request with
  | setValue text =>
      simp only [originator, call, setValue_eq hrep.wcsValue_length, Except.toOption,
        specification, Kept.call]
      exact .some ⟨rfl, hrep.states_eq⟩
  | createMemento =>
      cases hvalue : kept.value with
      | none =>
          have herror := createMemento_eq_error (by rw [hrep.value_eq, hvalue]; rfl)
          simp only [originator, call, herror, Except.toOption, specification, Kept.call, hvalue]
          exact .none
      | some value =>
          obtain ⟨next, hcreate, hnext⟩ := hrep.createMemento hvalue
          simp only [originator, call, hcreate, Except.toOption, specification, Kept.call, hvalue]
          exact .some hnext
  | setMemento index =>
      cases hsaved : kept.saved[index]? with
      | none =>
          have hstate := hrep.states_getElem? index
          rw [hsaved, Option.map_none, Option.map_eq_none_iff] at hstate
          simp only [originator, call, MementoStates.setMemento, hstate, Except.toOption,
            specification, Kept.call, hsaved]
          exact .none
      | some value =>
          obtain ⟨next, hset, hnext⟩ := hrep.setMemento hsaved
          simp only [originator, call, hset, Except.toOption, specification, Kept.call, hsaved]
          exact .some hnext

theorem initial_represents : Represents initial specification.initial := ⟨rfl, rfl⟩

theorem run_represents (calls : List Call) :
    Option.Rel Represents (originator.run initial calls)
      (specification.run specification.initial calls) :=
  TransitionSystem.run_rel Represents (fun _ _ request hrep => hrep.step request) calls
    initial_represents

theorem Represents.length_eq (hrep : Represents world kept) :
    world.mementos.length = kept.saved.length := by
  simpa using congrArg List.length hrep.states_eq

/-- A value stays set, and what has been saved stays saved. -/
theorem kept_of_run {later : Kept} {calls : List Call} (hvalue : kept.value ≠ none)
    (hrun : specification.run kept calls = some later) :
    later.value ≠ none ∧ kept.saved <+: later.saved := by
  refine TransitionSystem.run_preserves
    (fun state => state.value ≠ none ∧ kept.saved <+: state.saved) ?_
    ⟨hvalue, List.prefix_rfl⟩ hrun
  rintro state request next ⟨hset, hprefix⟩ hstep
  cases request with
  | setValue text =>
      cases hstep
      exact ⟨Option.some_ne_none _, hprefix⟩
  | createMemento =>
      obtain ⟨value, -, rfl⟩ := Option.map_eq_some_iff.mp hstep
      exact ⟨hset, hprefix.trans (List.prefix_append _ _)⟩
  | setMemento index =>
      obtain ⟨value, -, rfl⟩ := Option.map_eq_some_iff.mp hstep
      exact ⟨Option.some_ne_none _, hprefix⟩

/-- A memento keeps the value that the originator had when it was made. -/
theorem saved_of_run {later : Kept} {value : Value} {between : List Call}
    (hvalue : kept.value = some value)
    (hrun : specification.run kept (.createMemento :: between) = some later) :
    later.saved[kept.saved.length]? = some value := by
  obtain ⟨made, hmade, hbetween⟩ := TransitionSystem.run_cons_eq_some.mp hrun
  simp only [specification, Kept.call, hvalue, Option.map_some, Option.some.injEq] at hmade
  subst hmade
  obtain ⟨-, rest, hrest⟩ := kept_of_run (by simp) hbetween
  rw [← hrest, List.append_assoc, List.getElem?_append_right (Nat.le_refl _), Nat.sub_self]
  rfl

theorem exists_kept_of_run {calls : List Call} (hrep : Represents world kept) {later : World}
    (hrun : originator.run world calls = some later) :
    ∃ after, specification.run kept calls = some after ∧ Represents later after := by
  have hrel := TransitionSystem.run_rel Represents (fun _ _ request hrep => hrep.step request)
    calls hrep
  rw [hrun] at hrel
  cases hspec : specification.run kept calls with
  | none =>
      rw [hspec] at hrel
      cases hrel
  | some after =>
      rw [hspec] at hrel
      cases hrel with
      | some hafter => exact ⟨after, rfl, hafter⟩

/-- After the first `SetValue` the originator does what the specification says.  Its value
is a terminated string, a memento made of it holds that string whatever is called later, and
restoring the memento gives the string back. -/
theorem memento_restores (text : Text) (calls : List Call) :
    Option.Rel Represents (originator.run initial (.setValue text :: calls))
      (specification.run specification.initial (.setValue text :: calls)) ∧
    ∀ held, originator.run initial (.setValue text :: calls) = some held →
      ∃ value : Value, held.originator.wcsValue = value.cells (some nul) ∧
        ∀ between later, originator.run held (.createMemento :: between) = some later →
          later.mementos[held.mementos.length]?.map later.heap.buffer =
            some (.ok (value.cells none)) ∧
          ∃ restored, originator.step later (.setMemento held.mementos.length) = some restored ∧
            restored.originator.wcsValue = value.cells (some nul) := by
  refine ⟨run_represents _, ?_⟩
  intro held hheld
  obtain ⟨kept, hkept, hrep⟩ := exists_kept_of_run initial_represents hheld
  obtain ⟨first, hfirst, hrest⟩ := TransitionSystem.run_cons_eq_some.mp hkept
  cases hfirst
  obtain ⟨hset, -⟩ := kept_of_run (Option.some_ne_none _) hrest
  obtain ⟨value, hvalue⟩ := Option.ne_none_iff_exists'.mp hset
  refine ⟨value, by rw [hrep.value_eq, hvalue]; rfl, ?_⟩
  intro between later hlater
  obtain ⟨after, hafter, hlaterRep⟩ := exists_kept_of_run hrep hlater
  have hsaved := saved_of_run hvalue hafter
  rw [← hrep.length_eq] at hsaved
  obtain ⟨restored, hrestored, hfinal⟩ := hlaterRep.setMemento hsaved
  refine ⟨?_, restored, ?_, hfinal.value_eq⟩
  · rw [hlaterRep.states_getElem?, hsaved]
    rfl
  · simp only [originator, call, hrestored, Except.toOption]

end Runs

end CppProj.MementoStates
