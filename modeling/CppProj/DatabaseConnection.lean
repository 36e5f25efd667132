import CppProj.MutualExclusion
import CppProj.TransitionSystem

/-!
# The singleton of `dclp.cpp`

`getInstance` checks the pointer twice, the second time with the mutex held.  `destroy`
takes no mutex: it loads the pointer, deletes, and stores null.  Every call of the two is a
phase, the point it has reached, and one step of one call is one load, store, lock, unlock,
`new` or `delete`.
-/

namespace CppProj.DatabaseConnection

inductive Phase where
  | getLoad
  | getLock
  | getLockedLoad
  | getNew
  | getStore (tmp : ℕ)
  | getUnlock (tmp : ℕ)
  | getReturn (tmp : ℕ)
  | destroyLoad
  | destroyDelete (tmp : ℕ)
  | destroyStore
  | finished
  deriving DecidableEq

namespace Phase

def holdsMutex : Phase → Bool
  | getLockedLoad | getNew | getStore _ | getUnlock _ => true
  | getLoad | getLock | getReturn _ | destroyLoad | destroyDelete _ | destroyStore | finished =>
      false

def loads : Phase → Bool
  | getLoad | getLockedLoad | destroyLoad => true
  | getLock | getNew | getStore _ | getUnlock _ | getReturn _ | destroyDelete _ | destroyStore
  | finished => false

/-- The call has deleted, and will store null. -/
def storesNull : Phase → Bool
  | destroyStore => true
  | getLoad | getLock | getLockedLoad | getNew | getStore _ | getUnlock _ | getReturn _
  | destroyLoad | destroyDelete _ | finished => false

def stores : Phase → Bool
  | getStore _ | destroyStore => true
  | getLoad | getLock | getLockedLoad | getNew | getUnlock _ | getReturn _ | destroyLoad
  | destroyDelete _ | finished => false

def pointer : Phase → Option ℕ
  | getStore tmp | getUnlock tmp | getReturn tmp | destroyDelete tmp => some tmp
  | getLoad | getLock | getLockedLoad | getNew | destroyLoad | destroyStore | finished => none

end Phase

/-- A pointer that `getInstance` has returned, and whether its instance was deleted then. -/
structure Returned where
  tmp : ℕ
  deleted : Bool
  deriving DecidableEq

/-- `instancePtr` is the atomic `instance`.  Instances are numbered in the order of their
creation, and `deletions` counts how often each has been deleted. -/
structure State where
  instancePtr : Option ℕ
  deletions : List ℕ
  calls : List Phase
  returned : List Returned
  deriving DecidableEq

inductive Action where
  | getInstance
  | destroy
  | step (index : ℕ)
  deriving DecidableEq

def State.moveTo (state : State) (index : ℕ) (phase : Phase) : State :=
  { state with calls := state.calls.set index phase }

def callStep (state : State) (index : ℕ) : Phase → Option State
  | .getLoad =>
      match state.instancePtr with
      | none => some (state.moveTo index .getLock)
      | some tmp => some (state.moveTo index (.getReturn tmp))
  | .getLock =>
      if noneHolds Phase.holdsMutex state.calls then some (state.moveTo index .getLockedLoad)
      else none
  | .getLockedLoad =>
      match state.instancePtr with
      | none => some (state.moveTo index .getNew)
      | some tmp => some (state.moveTo index (.getUnlock tmp))
  | .getNew =>
      some { state.moveTo index (.getStore state.deletions.length) with
        deletions := state.deletions ++ [0] }
  | .getStore tmp => some { state.moveTo index (.getUnlock tmp) with instancePtr := some tmp }
  | .getUnlock tmp => some (state.moveTo index (.getReturn tmp))
  | .getReturn tmp =>
      some { state.moveTo index .finished with
        returned := state.returned ++ [⟨tmp, decide (state.deletions[tmp]? ≠ some 0)⟩] }
  | .destroyLoad =>
      match state.instancePtr with
      | none => some (state.moveTo index .finished)
      | some tmp => some (state.moveTo index (.destroyDelete tmp))
  | .destroyDelete tmp =>
      some { state.moveTo index .destroyStore with
        deletions := state.deletions.modify tmp (· + 1) }
  | .destroyStore => some { state.moveTo index .finished with instancePtr := none }
  | .finished => none

def step (state : State) : Action → Option State
  | .getInstance => some { state with calls := state.calls ++ [.getLoad] }
  | .destroy => some { state with calls := state.calls ++ [.destroyLoad] }
  | .step index =>
      match state.calls[index]? with
      | some phase => callStep state index phase
      | none => none

def connectionProgram : TransitionSystem State Action where
  initial := ⟨none, [], [], []⟩
  step := step

/-- At most one instance is alive, none has been deleted twice, and none was deleted when
it was returned. -/
structure Safe (state : State) : Prop where
  oneAlive : ∀ first second : ℕ, state.deletions[first]? = some 0 →
    state.deletions[second]? = some 0 → first = second
  deletedOnce : ∀ count ∈ state.deletions, count ≤ 1
  returnedAlive : ∀ result ∈ state.returned, result.deleted = false

/-- No load falls between a `delete` and the store of null after it, and no instance is
deleted while another call holds its pointer. -/
def Orderly (state : State) : Action → Prop
  | .step index =>
      match state.calls[index]? with
      | some (.destroyDelete tmp) =>
          ∀ other ∈ state.calls.eraseIdx index, other.pointer ≠ some tmp
      | some phase => phase.loads = true → .destroyStore ∉ state.calls
      | none => True
  | .getInstance | .destroy => True

instance (state : State) (action : Action) : Decidable (Orderly state action) := by
  unfold Orderly
  split
  · split <;> infer_instance
  · infer_instance
  · infer_instance

/-! ## The situations of an orderly run -/

/-- What has become of the latest instance. -/
inductive Situation where
  | absent
  | unpublished (tmp : ℕ)
  | published (tmp : ℕ)
  | dangling (tmp : ℕ)

namespace Situation

def pointer : Situation → Option ℕ
  | published tmp | dangling tmp => some tmp
  | absent | unpublished _ => none

def alive : Situation → Option ℕ
  | unpublished tmp | published tmp => some tmp
  | absent | dangling _ => none

/-- The call that will end the situation. -/
def writer : Situation → Option Phase
  | unpublished tmp => some (.getStore tmp)
  | dangling _ => some .destroyStore
  | absent | published _ => none

def Allows (situation : Situation) : Phase → Prop
  | .getLoad | .getLock | .getLockedLoad | .destroyLoad | .finished => True
  | .getNew => situation = .absent
  | .getStore tmp => situation = .unpublished tmp
  | .getUnlock tmp | .getReturn tmp | .destroyDelete tmp => situation = .published tmp
  | .destroyStore => ∃ tmp, situation = .dangling tmp

variable {tmp : ℕ} {phase : Phase}

theorem allows_unpublished (hallows : absent.Allows phase)
    (hreleased : phase.holdsMutex = false) : (unpublished tmp).Allows phase := by
  cases phase with
  | getLoad | getLock | destroyLoad | finished => trivial
  | getLockedLoad | getNew => cases hreleased
  | getStore other | getUnlock other | getReturn other | destroyDelete other => cases hallows
  | destroyStore =>
      obtain ⟨other, hdangling⟩ := hallows
      cases hdangling

theorem allows_published (hallows : (unpublished tmp).Allows phase)
    (hreleased : phase.holdsMutex = false) : (published tmp).Allows phase := by
  cases phase with
  | getLoad | getLock | destroyLoad | finished => trivial
  | getLockedLoad | getStore other => cases hreleased
  | getNew | getUnlock other | getReturn other | destroyDelete other => cases hallows
  | destroyStore =>
      obtain ⟨other, hdangling⟩ := hallows
      cases hdangling

theorem allows_dangling (hallows : (published tmp).Allows phase)
    (hpointer : phase.pointer ≠ some tmp) : (dangling tmp).Allows phase := by
  cases phase with
  | getLoad | getLock | getLockedLoad | destroyLoad | finished => trivial
  | getUnlock other | getReturn other | destroyDelete other =>
      cases hallows
      exact (hpointer rfl).elim
  | getNew | getStore other => cases hallows
  | destroyStore => exact ⟨tmp, rfl⟩

theorem allows_absent (hallows : (dangling tmp).Allows phase)
    (hstoring : phase.storesNull = false) : absent.Allows phase := by
  cases phase with
  | getLoad | getLock | getLockedLoad | destroyLoad | finished => trivial
  | getNew | getStore other | getUnlock other | getReturn other | destroyDelete other =>
      cases hallows
  | destroyStore => cases hstoring

theorem writer_ne (situation : Situation) (hstores : phase.stores = false) :
    situation.writer ≠ some phase := by
  intro hwriter
  cases situation with
  | absent | published tmp => cases hwriter
  | unpublished tmp | dangling tmp =>
      cases hwriter
      cases hstores

end Situation

structure CallsFit (situation : Situation) (calls : List Phase) : Prop where
  allows : ∀ phase ∈ calls, situation.Allows phase
  writer : ∀ phase, situation.writer = some phase → phase ∈ calls
  mutex : MutuallyExclusive Phase.holdsMutex calls
  storing : MutuallyExclusive Phase.storesNull calls

structure Describes (situation : Situation) (state : State) : Prop where
  pointer : state.instancePtr = situation.pointer
  alive_iff : ∀ tmp : ℕ, state.deletions[tmp]? = some 0 ↔ situation.alive = some tmp
  deletedOnce : ∀ count ∈ state.deletions, count ≤ 1
  known : ∀ tmp, situation.pointer = some tmp → tmp < state.deletions.length
  fits : CallsFit situation state.calls
  returnedAlive : ∀ result ∈ state.returned, result.deleted = false

def Invariant (state : State) : Prop := ∃ situation, Describes situation state

theorem Invariant.safe {state : State} (hinv : Invariant state) : Safe state := by
  obtain ⟨situation, hdescribes⟩ := hinv
  refine ⟨?_, hdescribes.deletedOnce, hdescribes.returnedAlive⟩
  intro first second hfirst hsecond
  rw [hdescribes.alive_iff] at hfirst hsecond
  rw [hfirst] at hsecond
  exact Option.some.inj hsecond

theorem initial_invariant : Invariant connectionProgram.initial := by
  refine ⟨.absent, rfl, ?_, by simp [connectionProgram], (fun _ h => by cases h), ?_,
    by simp [connectionProgram]⟩
  · intro tmp
    simp [connectionProgram, Situation.alive]
  · refine ⟨by simp [connectionProgram], ?_, MutuallyExclusive.nil, MutuallyExclusive.nil⟩
    intro phase hwriter
    cases hwriter

/-! ## The calls -/

theorem set_exclusive {holds : Phase → Bool} {calls : List Phase} {index : ℕ} {old phase : Phase}
    (hexclusive : MutuallyExclusive holds calls) (hget : calls[index]? = some old)
    (hstill : holds phase = true → holds old = true) :
    MutuallyExclusive holds (calls.set index phase) := by
  cases hholds : holds phase with
  | false => exact hexclusive.set_released index hholds
  | true => exact hexclusive.set_held hget (hstill hholds) phase

namespace CallsFit

variable {situation after : Situation} {calls : List Phase} {index : ℕ} {old phase : Phase}

theorem append (hfits : CallsFit situation calls) (hallows : situation.Allows phase)
    (hmutex : phase.holdsMutex = false) (hstoring : phase.storesNull = false) :
    CallsFit situation (calls ++ [phase]) := by
  refine ⟨?_, ?_, hfits.mutex.append_released hmutex, hfits.storing.append_released hstoring⟩
  · intro found hmem
    rcases List.mem_append.mp hmem with hmem | hnew
    · exact hfits.allows found hmem
    · exact List.mem_singleton.mp hnew ▸ hallows
  · exact fun found hwriter => List.mem_append_left _ (hfits.writer found hwriter)

theorem change (hfits : CallsFit situation calls) (hget : calls[index]? = some old)
    (hallows : after.Allows phase)
    (hothers : ∀ other found, index ≠ other → calls[other]? = some found → after.Allows found)
    (hwriter : after.writer = none ∨ after.writer = some phase)
    (hmutex : phase.holdsMutex = true → old.holdsMutex = true)
    (hstoring : phase.storesNull = true → noneHolds Phase.storesNull calls = true) :
    CallsFit after (calls.set index phase) := by
  constructor
  case allows =>
    intro found hmem
    obtain ⟨other, hother⟩ := List.mem_iff_getElem?.mp hmem
    rcases ListUpdate.getElem?_set_cases hother with ⟨_, rfl⟩ | ⟨hne, hold⟩
    · exact hallows
    · exact hothers other found hne hold
  case writer =>
    intro found hfound
    rcases hwriter with hnone | hself
    · rw [hnone] at hfound
      cases hfound
    · rw [hself] at hfound
      cases hfound
      exact List.mem_of_getElem? (ListUpdate.getElem?_set_self hget phase)
  case mutex => exact set_exclusive hfits.mutex hget hmutex
  case storing =>
    cases hstores : phase.storesNull with
    | false => exact hfits.storing.set_released index hstores
    | true => exact MutuallyExclusive.set_acquired (hstoring hstores) index phase

theorem stay (hfits : CallsFit situation calls) (hget : calls[index]? = some old)
    (hallows : situation.Allows phase) (hstores : old.stores = false)
    (hmutex : MutuallyExclusive Phase.holdsMutex (calls.set index phase))
    (hstoring : phase.storesNull = false) : CallsFit situation (calls.set index phase) := by
  refine ⟨?_, ?_, hmutex, hfits.storing.set_released index hstoring⟩
  · intro found hmem
    obtain ⟨other, hother⟩ := List.mem_iff_getElem?.mp hmem
    rcases ListUpdate.getElem?_set_cases hother with ⟨_, rfl⟩ | ⟨_, hother⟩
    · exact hallows
    · exact hfits.allows found (List.mem_of_getElem? hother)
  · intro found hfound
    refine ListUpdate.mem_set_of_ne hget (hfits.writer found hfound) ?_ phase
    rintro rfl
    exact situation.writer_ne hstores hfound

/-- Besides the holder of the mutex, the calls are out of the critical section. -/
theorem others_released (hfits : CallsFit situation calls) (hget : calls[index]? = some old)
    (hholds : old.holdsMutex = true) {other : ℕ} {found : Phase} (hne : index ≠ other)
    (hother : calls[other]? = some found) :
    found.holdsMutex = false ∧ situation.Allows found :=
  ⟨hfits.mutex.not_holds_of_ne hget hholds hother hne,
    hfits.allows found (List.mem_of_getElem? hother)⟩

end CallsFit

/-! ## One step of an orderly run -/

namespace Describes

variable {situation : Situation} {state : State} {index : ℕ} {old phase : Phase}

/-- A call that loads while none has deleted finds no instance or a living one. -/
theorem load_cases (hdescribes : Describes situation state)
    (hquiet : .destroyStore ∉ state.calls) :
    (state.instancePtr = none ∧ (situation = .absent ∨ ∃ tmp, situation = .unpublished tmp)) ∨
      ∃ tmp, state.instancePtr = some tmp ∧ situation = .published tmp := by
  rw [hdescribes.pointer]
  cases situation with
  | absent => exact .inl ⟨rfl, .inl rfl⟩
  | unpublished tmp => exact .inl ⟨rfl, .inr ⟨tmp, rfl⟩⟩
  | published tmp => exact .inr ⟨tmp, rfl, rfl⟩
  | dangling tmp => exact (hquiet (hdescribes.fits.writer _ rfl)).elim

theorem moveTo (hdescribes : Describes situation state)
    (hget : state.calls[index]? = some old) (hallows : situation.Allows phase)
    (hstores : old.stores = false) (hstoring : phase.storesNull = false)
    (hmutex : phase.holdsMutex = true → old.holdsMutex = true) :
    Describes situation (state.moveTo index phase) :=
  ⟨hdescribes.pointer, hdescribes.alive_iff, hdescribes.deletedOnce, hdescribes.known,
    hdescribes.fits.stay hget hallows hstores
      (set_exclusive hdescribes.fits.mutex hget hmutex) hstoring,
    hdescribes.returnedAlive⟩

theorem create (hdescribes : Describes .absent state)
    (hget : state.calls[index]? = some .getNew) :
    Describes (.unpublished state.deletions.length)
      { state.moveTo index (.getStore state.deletions.length) with
        deletions := state.deletions ++ [0] } := by
  have hnone : ∀ tmp : ℕ, state.deletions[tmp]? ≠ some 0 := by
    intro tmp halive
    cases (hdescribes.alive_iff tmp).mp halive
  constructor
  case pointer => exact hdescribes.pointer
  case alive_iff =>
    intro tmp
    simp only [Situation.alive, Option.some.injEq]
    rw [List.getElem?_append]
    split
    · rename_i hlt
      exact iff_of_false (hnone tmp) (Nat.ne_of_gt hlt)
    · rename_i hge
      rw [List.getElem?_singleton]
      split
      · rename_i hzero
        exact iff_of_true rfl (by omega)
      · rename_i hpositive
        refine iff_of_false (fun h => ?_) (by omega)
        cases h
  case deletedOnce =>
    intro count hmem
    rcases List.mem_append.mp hmem with hmem | hnew
    · exact hdescribes.deletedOnce count hmem
    · rw [List.mem_singleton.mp hnew]
      exact Nat.zero_le 1
  case known => exact fun _ h => by cases h
  case fits =>
    refine hdescribes.fits.change hget rfl ?_ (.inr rfl) (fun _ => rfl) ?_
    · intro other found hne hother
      obtain ⟨hreleased, hallows⟩ := hdescribes.fits.others_released hget rfl hne hother
      exact Situation.allows_unpublished hallows hreleased
    · intro hstoring
      cases hstoring
  case returnedAlive => exact hdescribes.returnedAlive

theorem publish {tmp : ℕ} (hdescribes : Describes (.unpublished tmp) state)
    (hget : state.calls[index]? = some (.getStore tmp)) :
    Describes (.published tmp)
      { state.moveTo index (.getUnlock tmp) with instancePtr := some tmp } := by
  refine ⟨rfl, hdescribes.alive_iff, hdescribes.deletedOnce, ?_, ?_, hdescribes.returnedAlive⟩
  · intro known hknown
    cases hknown
    exact (List.getElem?_eq_some_iff.mp ((hdescribes.alive_iff tmp).mpr rfl)).1
  refine hdescribes.fits.change hget rfl ?_ (.inl rfl) (fun _ => rfl) ?_
  · intro other found hne hother
    obtain ⟨hreleased, hallows⟩ := hdescribes.fits.others_released hget rfl hne hother
    exact Situation.allows_published hallows hreleased
  · intro hstoring
    cases hstoring

theorem delete {tmp : ℕ} (hdescribes : Describes (.published tmp) state)
    (hget : state.calls[index]? = some (.destroyDelete tmp))
    (hothers : ∀ other ∈ state.calls.eraseIdx index, other.pointer ≠ some tmp) :
    Describes (.dangling tmp)
      { state.moveTo index .destroyStore with
        deletions := state.deletions.modify tmp (· + 1) } := by
  have halive : state.deletions[tmp]? = some 0 := (hdescribes.alive_iff tmp).mpr rfl
  constructor
  case pointer => exact hdescribes.pointer
  case alive_iff =>
    intro other
    refine iff_of_false ?_ (fun h => by cases h)
    show (state.deletions.modify tmp (· + 1))[other]? ≠ some 0
    by_cases heq : tmp = other
    · subst heq
      rw [List.getElem?_modify_eq, halive]
      exact fun h => by cases h
    · rw [List.getElem?_modify_ne _ _ heq]
      exact fun h => heq (Option.some.inj ((hdescribes.alive_iff other).mp h))
  case deletedOnce =>
    intro count hmem
    obtain ⟨other, hother⟩ := List.mem_iff_getElem?.mp hmem
    by_cases heq : tmp = other
    · subst heq
      rw [List.getElem?_modify_eq, halive] at hother
      cases hother
      exact Nat.le_refl 1
    · rw [List.getElem?_modify_ne _ _ heq] at hother
      exact hdescribes.deletedOnce count (List.mem_of_getElem? hother)
  case known =>
    intro known hknown
    rw [List.length_modify]
    exact hdescribes.known known hknown
  case fits =>
    refine hdescribes.fits.change hget ⟨tmp, rfl⟩ ?_ (.inr rfl) (fun h => by cases h) ?_
    · intro other found hne hother
      have hkept : found ∈ state.calls.eraseIdx index :=
        List.mem_eraseIdx_iff_getElem?.mpr ⟨other, Ne.symm hne, hother⟩
      exact Situation.allows_dangling
        (hdescribes.fits.allows found (List.mem_of_getElem? hother)) (hothers found hkept)
    · intro _
      refine noneHolds_iff.mpr fun found hmem => ?_
      have hallows := hdescribes.fits.allows found hmem
      cases found with
      | destroyStore =>
          obtain ⟨other, hdangling⟩ := hallows
          cases hdangling
      | _ => rfl
  case returnedAlive => exact hdescribes.returnedAlive

theorem clear {tmp : ℕ} (hdescribes : Describes (.dangling tmp) state)
    (hget : state.calls[index]? = some .destroyStore) :
    Describes .absent { state.moveTo index .finished with instancePtr := none } := by
  refine ⟨rfl, hdescribes.alive_iff, hdescribes.deletedOnce, (fun _ h => by cases h), ?_,
    hdescribes.returnedAlive⟩
  refine hdescribes.fits.change hget trivial ?_ (.inl rfl) (fun h => by cases h)
    (fun h => by cases h)
  intro other found hne hother
  exact Situation.allows_absent (hdescribes.fits.allows found (List.mem_of_getElem? hother))
    (hdescribes.fits.storing.not_holds_of_ne hget rfl hother hne)

end Describes

theorem orderly_load {state : State} {index : ℕ} {phase : Phase}
    (horderly : Orderly state (.step index)) (hget : state.calls[index]? = some phase)
    (hloads : phase.loads = true) : .destroyStore ∉ state.calls := by
  simp only [Orderly, hget] at horderly
  cases phase with
  | getLoad | getLockedLoad | destroyLoad => exact horderly rfl
  | _ => cases hloads

theorem orderly_delete {state : State} {index tmp : ℕ}
    (horderly : Orderly state (.step index))
    (hget : state.calls[index]? = some (.destroyDelete tmp)) :
    ∀ other ∈ state.calls.eraseIdx index, other.pointer ≠ some tmp := by
  simpa only [Orderly, hget] using horderly

theorem Invariant.callStep {state next : State} {index : ℕ} {phase : Phase}
    (hinv : Invariant state) (horderly : Orderly state (.step index))
    (hget : state.calls[index]? = some phase)
    (hstep : callStep state index phase = some next) : Invariant next := by
  obtain ⟨situation, hdescribes⟩ := hinv
  have hallows := hdescribes.fits.allows phase (List.mem_of_getElem? hget)
  cases phase with
  | getLoad =>
      rcases hdescribes.load_cases (orderly_load horderly hget rfl) with
        ⟨hnone, _⟩ | ⟨tmp, hsome, hpublished⟩
      · simp only [DatabaseConnection.callStep, hnone] at hstep
        cases hstep
        exact ⟨_, hdescribes.moveTo hget trivial rfl rfl (fun h => by cases h)⟩
      · simp only [DatabaseConnection.callStep, hsome] at hstep
        cases hstep
        exact ⟨_, hdescribes.moveTo hget hpublished rfl rfl (fun h => by cases h)⟩
  | getLock =>
      simp only [DatabaseConnection.callStep] at hstep
      split at hstep
      · rename_i hfree
        cases hstep
        exact ⟨situation, hdescribes.pointer, hdescribes.alive_iff, hdescribes.deletedOnce,
          hdescribes.known, hdescribes.fits.stay hget trivial rfl
            (MutuallyExclusive.set_acquired hfree index _) rfl, hdescribes.returnedAlive⟩
      · cases hstep
  | getLockedLoad =>
      rcases hdescribes.load_cases (orderly_load horderly hget rfl) with
        ⟨hnone, habsent | ⟨tmp, hunpublished⟩⟩ | ⟨tmp, hsome, hpublished⟩
      · simp only [DatabaseConnection.callStep, hnone] at hstep
        cases hstep
        exact ⟨_, hdescribes.moveTo hget habsent rfl rfl (fun _ => rfl)⟩
      · -- the call that is to store has the mutex
        subst hunpublished
        obtain ⟨other, hother⟩ :=
          List.mem_iff_getElem?.mp (hdescribes.fits.writer (.getStore tmp) rfl)
        have hsame := hdescribes.fits.mutex index other _ _ hget hother rfl rfl
        subst hsame
        rw [hget] at hother
        cases hother
      · simp only [DatabaseConnection.callStep, hsome] at hstep
        cases hstep
        exact ⟨_, hdescribes.moveTo hget hpublished rfl rfl (fun _ => rfl)⟩
  | getNew =>
      obtain rfl : situation = .absent := hallows
      cases hstep
      exact ⟨_, hdescribes.create hget⟩
  | getStore tmp =>
      obtain rfl : situation = .unpublished tmp := hallows
      cases hstep
      exact ⟨_, hdescribes.publish hget⟩
  | getUnlock tmp =>
      cases hstep
      exact ⟨_, hdescribes.moveTo hget hallows rfl rfl (fun h => by cases h)⟩
  | getReturn tmp =>
      obtain rfl : situation = .published tmp := hallows
      cases hstep
      have hmoved : Describes (.published tmp) (state.moveTo index .finished) :=
        hdescribes.moveTo hget trivial rfl rfl (fun h => by cases h)
      refine ⟨_, hmoved.pointer, hmoved.alive_iff, hmoved.deletedOnce, hmoved.known,
        hmoved.fits, ?_⟩
      intro result hmem
      rcases List.mem_append.mp hmem with hmem | hnew
      · exact hdescribes.returnedAlive result hmem
      · rw [List.mem_singleton.mp hnew, (hdescribes.alive_iff tmp).mpr rfl]
        rfl
  | destroyLoad =>
      rcases hdescribes.load_cases (orderly_load horderly hget rfl) with
        ⟨hnone, _⟩ | ⟨tmp, hsome, hpublished⟩
      · simp only [DatabaseConnection.callStep, hnone] at hstep
        cases hstep
        exact ⟨_, hdescribes.moveTo hget trivial rfl rfl (fun h => by cases h)⟩
      · simp only [DatabaseConnection.callStep, hsome] at hstep
        cases hstep
        exact ⟨_, hdescribes.moveTo hget hpublished rfl rfl (fun h => by cases h)⟩
  | destroyDelete tmp =>
      obtain rfl : situation = .published tmp := hallows
      cases hstep
      exact ⟨_, hdescribes.delete hget (orderly_delete horderly hget)⟩
  | destroyStore =>
      obtain ⟨tmp, rfl⟩ := hallows
      cases hstep
      exact ⟨_, hdescribes.clear hget⟩
  | finished => cases hstep

theorem Invariant.step {state next : State} {action : Action} (hinv : Invariant state)
    (horderly : Orderly state action) (hstep : step state action = some next) :
    Invariant next := by
  cases action with
  | getInstance | destroy =>
      cases hstep
      obtain ⟨situation, hdescribes⟩ := hinv
      exact ⟨situation, hdescribes.pointer, hdescribes.alive_iff, hdescribes.deletedOnce,
        hdescribes.known, hdescribes.fits.append trivial rfl rfl,
        hdescribes.returnedAlive⟩
  | step index =>
      simp only [DatabaseConnection.step] at hstep
      split at hstep
      · rename_i phase hget
        exact hinv.callStep horderly hget hstep
      · cases hstep

/-- The singleton is safe in every run that keeps loads and other holders of the pointer
away from a deletion. -/
theorem safe_of_orderly {state : State}
    (hreach : connectionProgram.ReachableMeeting Orderly state) : Safe state := by
  obtain ⟨actions, hrun, hmeet⟩ := hreach
  refine (TransitionSystem.run_preserves_of_stepsMeet Invariant ?_ initial_invariant hmeet
    hrun).safe
  exact fun _ _ _ hinv horderly hstep => hinv.step horderly hstep

/-! ## A step out of order -/

def LeadsToUnsafe (state : State) : Prop :=
  ∃ final, connectionProgram.ReachableFrom state final ∧ ¬ Safe final

namespace LeadsToUnsafe

variable {state next : State} {index tmp count : ℕ} {phase : Phase}

theorem step (hget : state.calls[index]? = some phase)
    (hcall : callStep state index phase = some next) (hnext : LeadsToUnsafe next) :
    LeadsToUnsafe state := by
  obtain ⟨final, ⟨actions, hrun⟩, hfinal⟩ := hnext
  refine ⟨final, ⟨.step index :: actions, ?_⟩, hfinal⟩
  refine TransitionSystem.run_cons_eq_some.mpr ⟨next, ?_, hrun⟩
  show DatabaseConnection.step state (.step index) = some next
  simp only [DatabaseConnection.step, hget]
  exact hcall

theorem of_not_safe (hfinal : ¬ Safe state) : LeadsToUnsafe state :=
  ⟨state, .refl state, hfinal⟩

theorem of_return (hget : state.calls[index]? = some (.getReturn tmp))
    (hdeleted : state.deletions[tmp]? = some (count + 1)) : LeadsToUnsafe state := by
  refine step hget rfl (of_not_safe fun hsafe => ?_)
  have hflag := hsafe.returnedAlive _ (List.mem_append_right _ List.mem_cons_self)
  simp [hdeleted] at hflag

theorem of_unlock (hget : state.calls[index]? = some (.getUnlock tmp))
    (hdeleted : state.deletions[tmp]? = some (count + 1)) : LeadsToUnsafe state :=
  step hget rfl (of_return (ListUpdate.getElem?_set_self hget _) hdeleted)

theorem of_delete (hget : state.calls[index]? = some (.destroyDelete tmp))
    (hdeleted : state.deletions[tmp]? = some (count + 1)) : LeadsToUnsafe state := by
  refine step hget rfl (of_not_safe fun hsafe => ?_)
  have htwice : (state.deletions.modify tmp (· + 1))[tmp]? = some (count + 2) := by
    rw [List.getElem?_modify_eq, hdeleted]
    rfl
  have hle := hsafe.deletedOnce _ (List.mem_of_getElem? htwice)
  omega

/-- A call under way with the pointer of a deleted instance can return or delete it. -/
theorem of_pointer (hget : state.calls[index]? = some phase) (hpointer : phase.pointer = some tmp)
    (hdeleted : state.deletions[tmp]? = some (count + 1)) : LeadsToUnsafe state := by
  cases phase with
  | getStore found =>
      cases hpointer
      exact step hget rfl (of_unlock (ListUpdate.getElem?_set_self hget _) hdeleted)
  | getUnlock found =>
      cases hpointer
      exact of_unlock hget hdeleted
  | getReturn found =>
      cases hpointer
      exact of_return hget hdeleted
  | destroyDelete found =>
      cases hpointer
      exact of_delete hget hdeleted
  | getLoad | getLock | getLockedLoad | getNew | destroyLoad | destroyStore | finished =>
      cases hpointer

end LeadsToUnsafe

theorem disorderly_cases {state : State} {index : ℕ} {phase : Phase}
    (hdisorderly : ¬ Orderly state (.step index)) (hget : state.calls[index]? = some phase) :
    (∃ tmp, phase = .destroyDelete tmp ∧
      ∃ other ∈ state.calls.eraseIdx index, other.pointer = some tmp) ∨
        phase.loads = true ∧ .destroyStore ∈ state.calls := by
  simp only [Orderly, hget] at hdisorderly
  cases phase with
  | destroyDelete tmp =>
      left
      simpa using hdisorderly
  | _ =>
      right
      simpa [Classical.not_imp] using hdisorderly

theorem dangling_of_storesNull {situation : Situation} {state : State}
    (hdescribes : Describes situation state) (hstoring : .destroyStore ∈ state.calls) :
    ∃ tmp count, state.instancePtr = some tmp ∧
      state.deletions[tmp]? = some (count + 1) := by
  obtain ⟨tmp, rfl⟩ := hdescribes.fits.allows _ hstoring
  have hlt := hdescribes.known tmp rfl
  have hdead : state.deletions[tmp]? ≠ some 0 := by
    rw [Ne, hdescribes.alive_iff]
    exact fun h => by cases h
  rw [List.getElem?_eq_getElem hlt] at hdead
  obtain ⟨count, hcount⟩ := Nat.exists_eq_succ_of_ne_zero fun h => hdead (congrArg some h)
  exact ⟨tmp, count, hdescribes.pointer, by rw [List.getElem?_eq_getElem hlt, hcount]⟩

/-- After the first step out of order the run can go on to an unsafe state. -/
theorem leadsToUnsafe_of_disorderly {state next : State} {action : Action}
    (hreach : connectionProgram.ReachableMeeting Orderly state)
    (hdisorderly : ¬ Orderly state action)
    (hstep : connectionProgram.step state action = some next) : LeadsToUnsafe next := by
  obtain ⟨actions, hrun, hmeet⟩ := hreach
  obtain ⟨situation, hdescribes⟩ := TransitionSystem.run_preserves_of_stepsMeet Invariant
    (fun _ _ _ hinv horderly hstep => hinv.step horderly hstep) initial_invariant hmeet hrun
  cases action with
  | getInstance | destroy => exact (hdisorderly trivial).elim
  | step index =>
      change step state (.step index) = some next at hstep
      simp only [step] at hstep
      split at hstep
      · rename_i phase hget
        rcases disorderly_cases hdisorderly hget with
          ⟨tmp, rfl, other, hmem, hpointer⟩ | ⟨hloads, hstoring⟩
        · obtain ⟨position, hne, hother⟩ := List.mem_eraseIdx_iff_getElem?.mp hmem
          have hpublished : situation = .published tmp :=
            hdescribes.fits.allows _ (List.mem_of_getElem? hget)
          have halive := (hdescribes.alive_iff tmp).mpr (by rw [hpublished]; rfl)
          cases hstep
          have hdeleted : (state.deletions.modify tmp (· + 1))[tmp]? = some (0 + 1) := by
            rw [List.getElem?_modify_eq, halive]
            rfl
          exact LeadsToUnsafe.of_pointer
            ((ListUpdate.getElem?_set_of_ne (Ne.symm hne) _).trans hother) hpointer hdeleted
        · obtain ⟨tmp, count, hinstance, hdeleted⟩ := dangling_of_storesNull hdescribes hstoring
          have hloaded : ∀ phase : Phase,
              (state.moveTo index phase).calls[index]? = some phase :=
            fun phase => ListUpdate.getElem?_set_self hget phase
          cases phase with
          | getLoad | getLockedLoad | destroyLoad =>
              simp only [callStep, hinstance] at hstep
              cases hstep
              exact LeadsToUnsafe.of_pointer (hloaded _) rfl hdeleted
          | _ => cases hloads
      · cases hstep

/-! ## Runs -/

def serve (index : ℕ) (steps : ℕ) : List Action := List.replicate steps (.step index)

/-- Two calls find no instance, and the second waits for the mutex while the first
makes one.  `destroy` loads its pointer before they return and deletes it after
that, while a third call has yet to load. -/
def overlappingActions : List Action :=
  [.getInstance, .getInstance] ++ serve 0 1 ++ serve 1 1 ++ serve 0 5 ++ serve 1 2 ++
    .destroy :: serve 2 1 ++ serve 0 1 ++ serve 1 2 ++ .getInstance :: serve 2 2 ++ serve 3 7

theorem safe_overlappingActions : Safe
    ⟨some 1, [1, 0], [.finished, .finished, .finished, .finished],
      [⟨0, false⟩, ⟨0, false⟩, ⟨1, false⟩]⟩ :=
  safe_of_orderly ⟨overlappingActions, by decide, by decide⟩

/-- A thread loads the pointer after the `delete` of another thread. -/
def staleActions : List Action :=
  .getInstance :: serve 0 7 ++ .destroy :: serve 1 2 ++ .getInstance :: serve 2 2

theorem not_safe_staleActions : ∃ state, connectionProgram.Reachable state ∧ ¬ Safe state := by
  refine ⟨⟨some 0, [1], [.finished, .destroyStore, .finished], [⟨0, false⟩, ⟨0, true⟩]⟩,
    ⟨staleActions, by decide⟩, ?_⟩
  intro hsafe
  exact absurd (hsafe.returnedAlive ⟨0, true⟩ (by decide)) (by decide)

end CppProj.DatabaseConnection
