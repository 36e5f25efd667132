import CppProj.ListUpdate
import CppProj.Timer

/-!
# What the steps of `Timer` do

A section changes the entry under the id of its own call only.  As long as no new
call gets the id of one that has not finished, no two unfinished calls share an
entry.
-/

namespace CppProj.Timer

namespace Phase

def finished : Phase → Bool
  | .returned _ | .exited => true
  | _ => false

end Phase

/-- The id that the next call gets belongs to no unfinished call. -/
def FreshId (state : State) : Prop :=
  ∀ call ∈ state.calls, call.phase.finished = false → call.id ≠ state.nextId

instance (state : State) : Decidable (FreshId state) :=
  inferInstanceAs (Decidable (∀ call ∈ state.calls, _ → _))

def DistinctIds (calls : List Call) : Prop :=
  ∀ (left right : ℕ) (first second : Call), calls[left]? = some first →
    calls[right]? = some second →
    first.phase.finished = false → second.phase.finished = false →
      first.id = second.id → left = right

variable {state next : State} {index : ℕ} {call : Call} {outcome : Outcome} {turn : Turn}
  {entry : Option TimerInfo}

/-! ## Steps -/

inductive Move (state : State) : Action → State → Prop where
  | call (kind : Kind) : Move state (.call kind) (state.addCall kind)
  | turn (index : ℕ) (turn : Turn) (call : Call) (outcome : Outcome)
      (hget : state.calls[index]? = some call)
      (hsection : criticalSection index call (state.timers.lookup call.id) turn = some outcome) :
      Move state (.turn index turn) (state.update index call outcome)
  | cancel (id : UInt64) : Move state (.cancel id) (state.cancel id).2
  | cancelAll : Move state .cancelAll state.cancelAll

theorem move_of_step {action : Action} (hstep : step state action = some next) :
    state.terminated = false ∧ Move state action next := by
  unfold step at hstep
  by_cases hterminated : state.terminated = true
  · rw [if_pos hterminated] at hstep
    cases hstep
  rw [if_neg hterminated] at hstep
  refine ⟨by simpa using hterminated, ?_⟩
  cases action with
  | call kind =>
      cases hstep
      exact .call kind
  | turn index turn =>
      simp only at hstep
      split at hstep
      next => cases hstep
      next call hget =>
        obtain ⟨outcome, hsection, rfl⟩ := Option.map_eq_some_iff.mp hstep
        exact .turn index turn call outcome hget hsection
  | cancel id =>
      cases hstep
      exact .cancel id
  | cancelAll =>
      cases hstep
      exact .cancelAll

theorem step_turn (turn : Turn) (hterminated : state.terminated = false)
    (hget : state.calls[index]? = some call)
    (hsection : criticalSection index call (state.timers.lookup call.id) turn = some outcome) :
    step state (.turn index turn) = some (state.update index call outcome) := by
  simp [step, hterminated, hget, hsection]

/-! ## The map after a step -/

theorem lookup_update_self (state : State) (index : ℕ) (call : Call) (outcome : Outcome) :
    (state.update index call outcome).timers.lookup call.id = outcome.entry := by
  simp only [State.update]
  cases outcome.entry with
  | none => exact AList.lookup_erase _ _
  | some timerInfo => exact AList.lookup_insert _

theorem lookup_update_of_ne {id : UInt64} (hne : id ≠ call.id) :
    (state.update index call outcome).timers.lookup id = state.timers.lookup id := by
  simp only [State.update]
  cases outcome.entry with
  | none => exact AList.lookup_erase_ne hne
  | some timerInfo => exact AList.lookup_insert_ne hne

/-! ## cancel -/

inductive CancelMove (state : State) (id : UInt64) : Option Bool × State → Prop where
  | inactive (hinactive : ∀ timerInfo ∈ state.timers.lookup id, ¬ timerInfo.Active) :
      CancelMove state id (some false, state)
  | plain (timerInfo : TimerInfo) (hlookup : state.timers.lookup id = some timerInfo)
      (hactive : timerInfo.Active) (hpromise : timerInfo.promise = none) :
      CancelMove state id (some true, { state with timers := state.timers.erase id })
  | settled (timerInfo : TimerInfo) (promise : ℕ)
      (hlookup : state.timers.lookup id = some timerInfo) (hactive : timerInfo.Active)
      (hpromise : timerInfo.promise = some promise) (hopen : ¬ state.Satisfied promise) :
      CancelMove state id (some true, { state with
        timers := state.timers.erase id
        settlements := state.settlements ++ [(promise, false)]
        cancelled := state.cancelled ++ [promise] })
  | thrown (timerInfo : TimerInfo) (promise : ℕ)
      (hlookup : state.timers.lookup id = some timerInfo) (hactive : timerInfo.Active)
      (hpromise : timerInfo.promise = some promise) (hset : state.Satisfied promise) :
      CancelMove state id (none, { state with
        timers := state.timers.insert id { timerInfo with state := .cancelled }
        settlements := state.settlements ++ [(promise, false)]
        cancelled := state.cancelled ++ [promise] })

theorem cancelMove (state : State) (id : UInt64) : CancelMove state id (state.cancel id) := by
  unfold State.cancel
  split
  next hlookup => exact .inactive (by simp [hlookup])
  next timerInfo hlookup =>
    split_ifs with hactive
    · split
      next hpromise => exact .plain timerInfo hlookup hactive hpromise
      next promise hpromise =>
        dsimp only
        split_ifs with hset
        · exact .thrown timerInfo promise hlookup hactive hpromise hset
        · exact .settled timerInfo promise hlookup hactive hpromise hset
    · exact .inactive (by simpa [hlookup] using hactive)

theorem CancelMove.frame {id : UInt64} {result : Option Bool × State}
    (hmove : CancelMove state id result) :
    result.2.calls = state.calls ∧ result.2.missingAccess = state.missingAccess ∧
      result.2.terminated = state.terminated ∧ result.2.ran = state.ran := by
  cases hmove <;> exact ⟨rfl, rfl, rfl, rfl⟩

theorem CancelMove.lookup {id other : UInt64} {result : Option Bool × State}
    (hmove : CancelMove state id result)
    (hinactive : id = other → ∀ timerInfo ∈ state.timers.lookup id, ¬ timerInfo.Active) :
    result.2.timers.lookup other = state.timers.lookup other := by
  have hapart : ∀ {timerInfo : TimerInfo}, state.timers.lookup id = some timerInfo →
      timerInfo.Active → other ≠ id := by
    rintro timerInfo hlookup hactive rfl
    exact hinactive rfl timerInfo hlookup hactive
  cases hmove with
  | inactive _ => rfl
  | plain timerInfo hlookup hactive _ => exact AList.lookup_erase_ne (hapart hlookup hactive)
  | settled timerInfo promise hlookup hactive _ _ =>
      exact AList.lookup_erase_ne (hapart hlookup hactive)
  | thrown timerInfo promise hlookup hactive _ _ =>
      exact AList.lookup_insert_ne (hapart hlookup hactive)

/-- A `cancel` that returns `true` has erased the entry. -/
theorem CancelMove.lookup_self {id : UInt64} {result : Option Bool × State}
    (hmove : CancelMove state id result) (hreturns : result.1 = some true) :
    result.2.timers.lookup id = none := by
  cases hmove with
  | inactive _ => cases hreturns
  | plain _ _ _ _ => exact AList.lookup_erase _ _
  | settled _ _ _ _ _ _ => exact AList.lookup_erase _ _
  | thrown _ _ _ _ _ _ => cases hreturns

/-! ## Sections -/

theorem unfinished_of_section (hsection : criticalSection index call entry turn = some outcome) :
    call.phase.finished = false := by
  obtain ⟨id, kind, phase⟩ := call
  cases phase with
  | returned result => cases kind <;> cases hsection
  | exited => cases kind <;> cases hsection
  | _ => rfl

/-! ## Ids -/

namespace DistinctIds

theorem addCall (hdistinct : DistinctIds state.calls) (hfresh : FreshId state) (kind : Kind) :
    DistinctIds (state.addCall kind).calls := by
  intro left right first second hleft hright hfirst hsecond hid
  have hnew : ∀ {position : ℕ} {found : Call},
      (state.calls ++ [⟨state.nextId, kind, .create⟩])[position]? = some found →
      position < state.calls.length ∧ state.calls[position]? = some found ∨
        position = state.calls.length ∧ found.id = state.nextId := by
    intro position found hfound
    by_cases hlt : position < state.calls.length
    · rw [List.getElem?_append_left hlt] at hfound
      exact Or.inl ⟨hlt, hfound⟩
    · rw [List.getElem?_append_right (by omega), List.getElem?_singleton] at hfound
      split_ifs at hfound with hzero
      cases hfound
      exact Or.inr ⟨by omega, rfl⟩
  rcases hnew hleft with ⟨_, hold⟩ | ⟨hlast, hnext⟩ <;>
    rcases hnew hright with ⟨_, hother⟩ | ⟨hend, hsame⟩
  · exact hdistinct left right first second hold hother hfirst hsecond hid
  · exact (hfresh first (List.mem_of_getElem? hold) hfirst (hid.trans hsame)).elim
  · exact (hfresh second (List.mem_of_getElem? hother) hsecond (hid.symm.trans hnext)).elim
  · exact hlast.trans hend.symm

theorem update (hdistinct : DistinctIds state.calls) (hget : state.calls[index]? = some call)
    (hunfinished : call.phase.finished = false) (outcome : Outcome) :
    DistinctIds (state.update index call outcome).calls := by
  intro left right first second hleft hright hfirst hsecond hid
  have hback : ∀ {position : ℕ} {found : Call},
      (state.update index call outcome).calls[position]? = some found →
      found.phase.finished = false →
      ∃ old, state.calls[position]? = some old ∧ old.id = found.id ∧
        old.phase.finished = false := by
    intro position found hfound hrunning
    rcases ListUpdate.getElem?_set_cases hfound with ⟨rfl, rfl⟩ | ⟨_, hold⟩
    · exact ⟨call, hget, rfl, hunfinished⟩
    · exact ⟨found, hold, rfl, hrunning⟩
  obtain ⟨oldFirst, hone, hfirstId, hfirstRuns⟩ := hback hleft hfirst
  obtain ⟨oldSecond, hother, hsecondId, hsecondRuns⟩ := hback hright hsecond
  exact hdistinct left right oldFirst oldSecond hone hother hfirstRuns hsecondRuns
    (hfirstId.trans (hid.trans hsecondId.symm))

end DistinctIds

end CppProj.Timer
