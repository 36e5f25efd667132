import CppProj.TransitionSystem

/-!
# The power-off check of `state_check.cpp`

`state_check` keeps the state that it has seen at its start and compares every
later sample with it.  An iteration of its loop samples `current_state` once,
and the texts it prints are left out.
-/

namespace CppProj.PowerStateCheck

inductive PwrState where
  | off
  | acc
  | on
  | start
  deriving DecidableEq

/-- The variables of `state_check`. -/
structure Check where
  lastState : PwrState
  autoSlpmodFlag : Bool
  deriving DecidableEq

def Check.iteration (check : Check) (currentState : PwrState) : Check :=
  if check.lastState ≠ currentState then
    if check.autoSlpmodFlag = false ∧ check.lastState ≠ .off ∧ currentState = .off then
      { check with autoSlpmodFlag := true }
    else check
  else check

/-- After so many iterations; the first sample is the one of the start. -/
def stateCheck (samples : ℕ → PwrState) : ℕ → Check
  | 0 => ⟨samples 0, false⟩
  | n + 1 => (stateCheck samples n).iteration (samples (n + 1))

theorem Check.iteration_lastState (check : Check) (currentState : PwrState) :
    (check.iteration currentState).lastState = check.lastState := by
  rw [Check.iteration]
  split_ifs <;> rfl

theorem Check.iteration_autoSlpmodFlag (check : Check) (currentState : PwrState) :
    (check.iteration currentState).autoSlpmodFlag = true ↔
      check.autoSlpmodFlag = true ∨ check.lastState ≠ .off ∧ currentState = .off := by
  rw [Check.iteration]
  cases hflag : check.autoSlpmodFlag with
  | true => simp [hflag]
  | false =>
      split_ifs with hchanged hset
      · simp [hset]
      · simp only [true_and] at hset
        simp [hflag, hset]
      · simp only [ne_eq, not_not] at hchanged
        simp [hflag, hchanged]

theorem stateCheck_lastState (samples : ℕ → PwrState) (n : ℕ) :
    (stateCheck samples n).lastState = samples 0 := by
  induction n with
  | zero => rfl
  | succ n ih => rw [stateCheck, Check.iteration_lastState, ih]

theorem stateCheck_autoSlpmodFlag (samples : ℕ → PwrState) (n : ℕ) :
    (stateCheck samples n).autoSlpmodFlag = true ↔
      samples 0 ≠ .off ∧ ∃ k < n, samples (k + 1) = .off := by
  induction n with
  | zero => simp [stateCheck]
  | succ n ih =>
      rw [stateCheck, Check.iteration_autoSlpmodFlag, ih, stateCheck_lastState]
      constructor
      · rintro (⟨hfirst, k, hlt, hoff⟩ | ⟨hfirst, hoff⟩)
        · exact ⟨hfirst, k, Nat.lt_succ_of_lt hlt, hoff⟩
        · exact ⟨hfirst, n, Nat.lt_succ_self n, hoff⟩
      · rintro ⟨hfirst, k, hlt, hoff⟩
        rcases Nat.lt_succ_iff_lt_or_eq.mp hlt with hearlier | rfl
        · exact Or.inl ⟨hfirst, k, hearlier, hoff⟩
        · exact Or.inr ⟨hfirst, hoff⟩

/-! ## Edges -/

/-- Some sample before the number `n` is not `OFF`, and the next one is. -/
def PowersOff (samples : ℕ → PwrState) (n : ℕ) : Prop :=
  ∃ k < n, samples k ≠ .off ∧ samples (k + 1) = .off

theorem powersOff_of_off {samples : ℕ → PwrState} {n : ℕ} (hfirst : samples 0 ≠ .off)
    (hoff : ∃ k < n, samples (k + 1) = .off) : PowersOff samples n := by
  induction n with
  | zero =>
      obtain ⟨k, hlt, _⟩ := hoff
      exact (Nat.not_lt_zero k hlt).elim
  | succ n ih =>
      by_cases hearlier : ∃ k < n, samples (k + 1) = .off
      · obtain ⟨k, hlt, hedge⟩ := ih hearlier
        exact ⟨k, Nat.lt_succ_of_lt hlt, hedge⟩
      · obtain ⟨k, hlt, hk⟩ := hoff
        have hlast : k = n := by
          by_contra hne
          exact hearlier ⟨k, by omega, hk⟩
        subst hlast
        refine ⟨k, Nat.lt_succ_self k, ?_, hk⟩
        -- the sample before is the first one or one of those that are not `OFF`
        cases k with
        | zero => exact hfirst
        | succ before => exact fun hbefore => hearlier ⟨before, Nat.lt_succ_self before, hbefore⟩

/-- The flag tells whether there was an edge exactly where the first sample is not `OFF`,
or there was none. -/
theorem detects_powersOff_iff (samples : ℕ → PwrState) (n : ℕ) :
    ((stateCheck samples n).autoSlpmodFlag = true ↔ PowersOff samples n) ↔
      samples 0 ≠ .off ∨ ¬ PowersOff samples n := by
  rw [stateCheck_autoSlpmodFlag]
  constructor
  · intro hdetects
    by_cases hfirst : samples 0 = .off
    · exact Or.inr fun hedge => (hdetects.mpr hedge).1 hfirst
    · exact Or.inl hfirst
  · rintro (hfirst | hnone)
    · constructor
      · exact fun h => powersOff_of_off h.1 h.2
      · rintro ⟨k, hlt, _, hoff⟩
        exact ⟨hfirst, k, hlt, hoff⟩
    · refine iff_of_false ?_ hnone
      exact fun h => hnone (powersOff_of_off h.1 h.2)

def offStartOff : ℕ → PwrState
  | 1 => .start
  | _ => .off

theorem not_detects_offStartOff :
    PowersOff offStartOff 2 ∧ (stateCheck offStartOff 2).autoSlpmodFlag = false :=
  ⟨⟨1, by decide, by decide, rfl⟩, rfl⟩

/-! ## The program -/

/-- The variables shared by the threads, `current_state` before the first write included.
`check` is what `state_check` knows once it has started, `samples` lists what it has sampled,
and `slpmodNonoffRun` is whether that thread has seen the flag when it returned. -/
structure State where
  i : ℕ
  currentState : PwrState
  flag : Bool
  check : Option PwrState
  autoSlpmodFlag : Bool
  samples : List PwrState
  slpmodNonoffRun : Option Bool
  deriving DecidableEq

inductive Action where
  | stateChange
  | stateCheckStart
  | stateCheck
  | stateFlag
  | slpmodNonoffRun
  deriving DecidableEq

/-- What an iteration of `state_change` writes. -/
def written (i : ℕ) (currentState : PwrState) : PwrState :=
  match i with
  | 0 => .start
  | 1 => .on
  | 2 => .acc
  | 3 => .off
  | _ => currentState

def step (state : State) : Action → Option State
  | .stateChange =>
      if state.i < 4 ∧ state.flag = true then
        some { state with
          currentState := written state.i state.currentState
          i := if state.i + 1 = 4 then 0 else state.i + 1 }
      else none
  | .stateCheckStart =>
      match state.check with
      | none =>
          some { state with check := some state.currentState, samples := [state.currentState] }
      | some _ => none
  | .stateCheck =>
      match state.check with
      | none => none
      | some lastState =>
          if state.flag = true then
            let after := Check.iteration ⟨lastState, state.autoSlpmodFlag⟩ state.currentState
            some { state with
              check := some after.lastState
              autoSlpmodFlag := after.autoSlpmodFlag
              samples := state.samples ++ [state.currentState] }
          else none
  | .stateFlag => some { state with flag := false }
  | .slpmodNonoffRun =>
      if state.slpmodNonoffRun = none ∧ (state.flag = false ∨ state.autoSlpmodFlag = true) then
        some { state with slpmodNonoffRun := some (state.flag && state.autoSlpmodFlag) }
      else none

/-- `current_state` is zero before the first write. -/
def program : TransitionSystem State Action where
  initial := ⟨0, .off, true, none, false, [], none⟩
  step := step

structure Invariant (state : State) : Prop where
  waiting : state.check = none → state.samples = [] ∧ state.autoSlpmodFlag = false
  checking : ∀ lastState, state.check = some lastState → ∃ later,
    state.samples = lastState :: later ∧
      (state.autoSlpmodFlag = true ↔ lastState ≠ .off ∧ .off ∈ later)
  announced : state.slpmodNonoffRun = some true → state.autoSlpmodFlag = true

theorem Invariant.step {state next : State} {action : Action} (hinv : Invariant state)
    (hstep : step state action = some next) : Invariant next := by
  cases action with
  | stateChange =>
      simp only [PowerStateCheck.step, Option.ite_none_right_eq_some] at hstep
      obtain ⟨_, ⟨⟩⟩ := hstep
      exact ⟨hinv.waiting, hinv.checking, hinv.announced⟩
  | stateCheckStart =>
      simp only [PowerStateCheck.step] at hstep
      split at hstep
      · rename_i hnone
        cases hstep
        refine ⟨nofun, ?_, hinv.announced⟩
        intro lastState hlast
        cases hlast
        refine ⟨[], rfl, ?_⟩
        simp [(hinv.waiting hnone).2]
      · cases hstep
  | stateCheck =>
      simp only [PowerStateCheck.step] at hstep
      split at hstep
      · cases hstep
      · rename_i lastState hcheck
        simp only [Option.ite_none_right_eq_some] at hstep
        obtain ⟨_, ⟨⟩⟩ := hstep
        obtain ⟨later, hsamples, hflag⟩ := hinv.checking lastState hcheck
        refine ⟨nofun, ?_, ?_⟩
        · intro kept hkept
          rw [Check.iteration_lastState] at hkept
          cases hkept
          refine ⟨later ++ [state.currentState], by simp [hsamples], ?_⟩
          rw [Check.iteration_autoSlpmodFlag, hflag, List.mem_append, List.mem_singleton,
            eq_comm (a := PwrState.off), and_or_left]
        · intro hannounced
          rw [Check.iteration_autoSlpmodFlag]
          exact Or.inl (hinv.announced hannounced)
  | stateFlag =>
      cases hstep
      exact ⟨hinv.waiting, hinv.checking, hinv.announced⟩
  | slpmodNonoffRun =>
      simp only [PowerStateCheck.step, Option.ite_none_right_eq_some] at hstep
      obtain ⟨_, ⟨⟩⟩ := hstep
      refine ⟨hinv.waiting, hinv.checking, ?_⟩
      intro hseen
      exact (Bool.and_eq_true_iff.mp (Option.some.inj hseen)).2

theorem invariant_of_reachable {state : State} (hreach : program.Reachable state) :
    Invariant state := by
  refine hreach.invariant Invariant ?_ fun _ _ _ hinv hstep => hinv.step hstep
  exact ⟨fun _ => ⟨rfl, rfl⟩, nofun, nofun⟩

/-- In the program the flag is set exactly when the first sample is not `OFF` and a later one
is; a check that starts before the first write never sets it. -/
theorem autoSlpmodFlag_iff {state : State} (hreach : program.Reachable state) :
    state.autoSlpmodFlag = true ↔
      ∃ first later, state.samples = first :: later ∧ first ≠ .off ∧ .off ∈ later := by
  have hinv := invariant_of_reachable hreach
  cases hcheck : state.check with
  | none =>
      obtain ⟨hsamples, hflag⟩ := hinv.waiting hcheck
      simp [hsamples, hflag]
  | some lastState =>
      obtain ⟨later, hsamples, hflag⟩ := hinv.checking lastState hcheck
      rw [hflag, hsamples]
      constructor
      · exact fun h => ⟨lastState, later, rfl, h⟩
      · rintro ⟨first, others, heq, h⟩
        cases heq
        exact h

end CppProj.PowerStateCheck
