import CppProj.LabelledHistory
import CppProj.TransitionSystem
import Mathlib.Algebra.Order.Floor.Div
import Mathlib.Logic.Function.Basic

/-!
# `TimeWheel` of `timeWheel.cpp`

A tick runs the callbacks of the current slot, empties it and advances.
`addTimer` puts a callback as many slots ahead as its delay has ticks, modulo
the size of the wheel; nothing counts the revolutions.  The calls come between
the ticks.
-/

namespace CppProj.TimeWheel

/-- The arguments of the constructor. -/
structure Config where
  slots : ℕ
  intervalMs : ℕ
  slots_pos : 0 < slots
  intervalMs_pos : 0 < intervalMs

/-- A callback is the number of its `addTimer` call.  `timers` counts the calls,
`ticks` the ticks that have been processed, and `runs` lists the callbacks that
ran, each with the number of its tick. -/
structure State (config : Config) where
  currentSlot : Fin config.slots
  wheel : Fin config.slots → List ℕ
  timers : ℕ
  ticks : ℕ
  runs : List (ℕ × ℕ)

inductive Action where
  | addTimer (delayMs : ℕ)
  | tick
  deriving DecidableEq

def intMax : ℕ := 2 ^ 31 - 1

variable {config : Config}

def initial (config : Config) : State config where
  currentSlot := ⟨0, config.slots_pos⟩
  wheel := fun _ => []
  timers := 0
  ticks := 0
  runs := []

/-- The slot so many places ahead. -/
def State.ahead (state : State config) (places : ℕ) : Fin config.slots :=
  ⟨(state.currentSlot + places) % config.slots, Nat.mod_lt _ config.slots_pos⟩

def delayTicks (config : Config) (delayMs : ℕ) : ℕ :=
  (delayMs + config.intervalMs - 1) / config.intervalMs

/-- The two sums of `addTimer` are sums of `int`. -/
def SumsFit (state : State config) (delayMs : ℕ) : Prop :=
  delayMs + config.intervalMs ≤ intMax ∧
    state.currentSlot + delayTicks config delayMs ≤ intMax

instance (state : State config) (delayMs : ℕ) : Decidable (SumsFit state delayMs) :=
  inferInstanceAs (Decidable (_ ∧ _))

/-- There is no defined result where a sum overflows. -/
def addTimer (state : State config) (delayMs : ℕ) : Option (State config) :=
  if SumsFit state delayMs then
    let slot := state.ahead (delayTicks config delayMs)
    some { state with
      wheel := Function.update state.wheel slot (state.wheel slot ++ [state.timers])
      timers := state.timers + 1 }
  else none

def tick (state : State config) : State config :=
  { state with
    wheel := Function.update state.wheel state.currentSlot []
    currentSlot := state.ahead 1
    ticks := state.ticks + 1
    runs := state.runs ++ (state.wheel state.currentSlot).map fun timer => (timer, state.ticks) }

def step (state : State config) : Action → Option (State config)
  | .addTimer delayMs => addTimer state delayMs
  | .tick => some (tick state)

def system (config : Config) : TransitionSystem (State config) Action where
  initial := initial config
  step := step

def runsOf (timer : ℕ) (state : State config) : List ℕ :=
  entriesOf timer state.runs

theorem entriesOf_tick (timer : ℕ) (callbacks : List ℕ) (number : ℕ) :
    entriesOf timer (callbacks.map fun callback => (callback, number)) =
      List.replicate (callbacks.count timer) number := by
  induction callbacks with
  | nil => rfl
  | cons callback rest ih =>
      by_cases heq : callback = timer
      · subst heq
        simp only [entriesOf, List.map_cons, List.filterMap_cons, if_true, List.count_cons_self,
          List.replicate_succ] at ih ⊢
        rw [ih]
      · simp only [entriesOf, List.map_cons, List.filterMap_cons, if_neg heq,
          List.count_cons_of_ne heq] at ih ⊢
        exact ih

/-! ## The tick in which a callback runs -/

/-- The current slot is the number of the tick, and only timers that have been added
are in the wheel or have run. -/
structure WheelInvariant (state : State config) : Prop where
  slot : (state.currentSlot : ℕ) = state.ticks % config.slots
  wheel : ∀ slot, ∀ timer ∈ state.wheel slot, timer < state.timers
  runs : ∀ entry ∈ state.runs, entry.1 < state.timers

/-- The callback runs in that tick and in no other; until then it is in the slot of
the tick, less than a revolution ahead. -/
structure RunsIn (timer due : ℕ) (state : State config) : Prop where
  added : timer < state.timers
  waiting : state.ticks ≤ due → due < state.ticks + config.slots ∧ runsOf timer state = [] ∧
    ∀ slot, (state.wheel slot).count timer = if (slot : ℕ) = due % config.slots then 1 else 0
  ran : due < state.ticks → runsOf timer state = [due] ∧
    ∀ slot, (state.wheel slot).count timer = 0

theorem initial_wheelInvariant (config : Config) : WheelInvariant (initial config) := by
  constructor <;> simp [initial]

namespace WheelInvariant

variable {state next : State config}

theorem addTimer (hinv : WheelInvariant state) {delayMs : ℕ}
    (hstep : addTimer state delayMs = some next) : WheelInvariant next := by
  simp only [TimeWheel.addTimer, Option.ite_none_right_eq_some] at hstep
  obtain ⟨_, ⟨⟩⟩ := hstep
  constructor
  · exact hinv.slot
  · intro slot timer hmem
    by_cases heq : slot = state.ahead (delayTicks config delayMs)
    · subst heq
      simp only [Function.update_self, List.mem_append, List.mem_singleton] at hmem
      rcases hmem with hold | hnew
      · exact Nat.lt_succ_of_lt (hinv.wheel _ timer hold)
      · exact hnew ▸ Nat.lt_succ_self _
    · simp only [Function.update_of_ne heq] at hmem
      exact Nat.lt_succ_of_lt (hinv.wheel slot timer hmem)
  · intro entry hmem
    exact Nat.lt_succ_of_lt (hinv.runs entry hmem)

theorem tick (hinv : WheelInvariant state) : WheelInvariant (tick state) := by
  constructor
  · simp only [TimeWheel.tick, State.ahead, hinv.slot, Nat.mod_add_mod]
  · intro slot timer hmem
    by_cases heq : slot = state.currentSlot
    · simp [TimeWheel.tick, heq] at hmem
    · simp only [TimeWheel.tick, Function.update_of_ne heq] at hmem
      exact hinv.wheel slot timer hmem
  · intro entry hmem
    rcases List.mem_append.mp hmem with hold | hnew
    · exact hinv.runs entry hold
    · obtain ⟨timer, htimer, rfl⟩ := List.mem_map.mp hnew
      exact hinv.wheel state.currentSlot timer htimer

theorem step (hinv : WheelInvariant state) {action : Action}
    (hstep : step state action = some next) : WheelInvariant next := by
  cases action with
  | addTimer delayMs => exact hinv.addTimer hstep
  | tick =>
      cases hstep
      exact hinv.tick

/-- The new timer waits in a slot less than a revolution ahead. -/
theorem runsIn_added (hinv : WheelInvariant state) {delayMs : ℕ}
    (hstep : TimeWheel.addTimer state delayMs = some next) :
    RunsIn state.timers (state.ticks + delayTicks config delayMs % config.slots) next := by
  simp only [TimeWheel.addTimer, Option.ite_none_right_eq_some] at hstep
  obtain ⟨_, ⟨⟩⟩ := hstep
  have hmod := Nat.mod_lt (delayTicks config delayMs) config.slots_pos
  have hnotIn : ∀ slot, (state.wheel slot).count state.timers = 0 := by
    intro slot
    rw [List.count_eq_zero]
    intro hmem
    exact (hinv.wheel slot _ hmem).false
  constructor
  · exact Nat.lt_succ_self _
  · intro _
    refine ⟨by simp only; omega, ?_, ?_⟩
    · apply LabelledHistory.entriesOf_eq_nil
      intro entry hmem
      exact (hinv.runs entry hmem).ne
    · intro slot
      have hslot : (state.ahead (delayTicks config delayMs) : ℕ) =
          (state.ticks + delayTicks config delayMs % config.slots) % config.slots := by
        simp only [State.ahead, hinv.slot, Nat.mod_add_mod, Nat.add_mod_mod]
      by_cases heq : slot = state.ahead (delayTicks config delayMs)
      · subst heq
        simp [hnotIn, hslot]
      · have hne : ¬ (slot : ℕ) =
            (state.ticks + delayTicks config delayMs % config.slots) % config.slots := by
          rw [← hslot]
          exact fun hval => heq (Fin.ext hval)
        simp only [Function.update_of_ne heq, if_neg hne]
        exact hnotIn slot
  · intro hbefore
    simp only at hbefore
    omega

end WheelInvariant

namespace RunsIn

variable {timer due : ℕ} {state next : State config}

theorem addTimer (hruns : RunsIn timer due state) {delayMs : ℕ}
    (hstep : addTimer state delayMs = some next) : RunsIn timer due next := by
  simp only [TimeWheel.addTimer, Option.ite_none_right_eq_some] at hstep
  obtain ⟨_, ⟨⟩⟩ := hstep
  have hne : state.timers ≠ timer := hruns.added.ne'
  have hcount : ∀ slot, (Function.update state.wheel (state.ahead (delayTicks config delayMs))
      (state.wheel (state.ahead (delayTicks config delayMs)) ++ [state.timers]) slot).count timer =
        (state.wheel slot).count timer := by
    intro slot
    by_cases heq : slot = state.ahead (delayTicks config delayMs)
    · subst heq
      simp [hne]
    · rw [Function.update_of_ne heq]
  constructor
  · exact Nat.lt_succ_of_lt hruns.added
  · intro hbefore
    obtain ⟨hnear, hnone, hwheel⟩ := hruns.waiting hbefore
    exact ⟨hnear, hnone, fun slot => (hcount slot).trans (hwheel slot)⟩
  · intro hafter
    obtain ⟨hran, hwheel⟩ := hruns.ran hafter
    exact ⟨hran, fun slot => (hcount slot).trans (hwheel slot)⟩

theorem runsOf_tick (timer : ℕ) (state : State config) :
    runsOf timer (TimeWheel.tick state) = runsOf timer state ++
      List.replicate ((state.wheel state.currentSlot).count timer) state.ticks := by
  rw [runsOf, TimeWheel.tick, LabelledHistory.entriesOf_append, entriesOf_tick]
  rfl

theorem tick (hruns : RunsIn timer due state) (hinv : WheelInvariant state) :
    RunsIn timer due (tick state) := by
  have hkept : ∀ slot, ((TimeWheel.tick state).wheel slot).count timer =
      if slot = state.currentSlot then 0 else (state.wheel slot).count timer := by
    intro slot
    by_cases heq : slot = state.currentSlot
    · simp [TimeWheel.tick, heq]
    · simp [TimeWheel.tick, heq]
  constructor
  · exact hruns.added
  · intro hbefore
    have hlater : state.ticks < due := hbefore
    obtain ⟨hnear, hnone, hwheel⟩ := hruns.waiting hlater.le
    have hother : ¬ (state.currentSlot : ℕ) = due % config.slots := by
      rw [hinv.slot]
      intro hsame
      have hdistance := Nat.sub_mod_eq_zero_of_mod_eq hsame.symm
      rw [Nat.mod_eq_of_lt (by omega)] at hdistance
      omega
    refine ⟨?_, ?_, ?_⟩
    · simp only [TimeWheel.tick]
      omega
    · rw [runsOf_tick, hnone, hwheel, if_neg hother]
      rfl
    · intro slot
      rw [hkept]
      by_cases heq : slot = state.currentSlot
      · subst heq
        rw [if_pos rfl, if_neg hother]
      · rw [if_neg heq]
        exact hwheel slot
  · intro hafter
    have hcases : state.ticks = due ∨ due < state.ticks :=
      (Nat.lt_succ_iff_lt_or_eq.mp hafter).symm.imp Eq.symm id
    rcases hcases with rfl | hpast
    · obtain ⟨_, hnone, hwheel⟩ := hruns.waiting (le_refl _)
      constructor
      · rw [runsOf_tick, hnone, hwheel, if_pos hinv.slot]
        rfl
      · intro slot
        rw [hkept]
        by_cases heq : slot = state.currentSlot
        · rw [if_pos heq]
        · rw [if_neg heq, hwheel, if_neg]
          rw [← hinv.slot]
          exact fun hval => heq (Fin.ext hval)
    · obtain ⟨hran, hwheel⟩ := hruns.ran hpast
      constructor
      · rw [runsOf_tick, hran, hwheel]
        rfl
      · intro slot
        rw [hkept, hwheel, ite_self]

end RunsIn

/-- Whatever is added and however many ticks follow, a new timer runs in one tick:
that of its delay modulo the size of the wheel. -/
theorem runsOf_added {state next final : State config} (hinv : WheelInvariant state) {delayMs : ℕ}
    (hadd : addTimer state delayMs = some next) {actions : List Action}
    (hrun : (system config).run next actions = some final) :
    runsOf state.timers final =
      if state.ticks + delayTicks config delayMs % config.slots < final.ticks then
        [state.ticks + delayTicks config delayMs % config.slots]
      else [] := by
  have hpreserved : ∀ (s : State config) action t,
      (WheelInvariant s ∧
        RunsIn state.timers (state.ticks + delayTicks config delayMs % config.slots) s) →
      (system config).step s action = some t →
      WheelInvariant t ∧
        RunsIn state.timers (state.ticks + delayTicks config delayMs % config.slots) t := by
    intro s action t hs hstep
    refine ⟨hs.1.step hstep, ?_⟩
    cases action with
    | addTimer other => exact hs.2.addTimer hstep
    | tick =>
        cases hstep
        exact hs.2.tick hs.1
  have hfinal := TransitionSystem.run_preserves _ hpreserved
    ⟨hinv.addTimer hadd, hinv.runsIn_added hadd⟩ hrun
  by_cases hlt : state.ticks + delayTicks config delayMs % config.slots < final.ticks
  · rw [if_pos hlt]
    exact (hfinal.2.ran hlt).1
  · rw [if_neg hlt]
    exact (hfinal.2.waiting (Nat.le_of_not_lt hlt)).2.1

/-! ## When it is the right one -/

/-- The call is defined, and in every continuation the callback runs once, in the tick
which lies the delay, rounded up to whole ticks, ahead. -/
def FiresOnTime (state : State config) (delayMs : ℕ) : Prop :=
  ∃ next, step state (.addTimer delayMs) = some next ∧
    ∀ actions final, (system config).run next actions = some final →
      runsOf state.timers final =
        if state.ticks + delayMs ⌈/⌉ config.intervalMs < final.ticks then
          [state.ticks + delayMs ⌈/⌉ config.intervalMs]
        else []

theorem run_ticks (state : State config) (number : ℕ) :
    ∃ final, (system config).run state (List.replicate number .tick) = some final ∧
      final.ticks = state.ticks + number := by
  induction number generalizing state with
  | zero => exact ⟨state, rfl, rfl⟩
  | succ number ih =>
      obtain ⟨final, hrun, hticks⟩ := ih (tick state)
      refine ⟨final, TransitionSystem.run_cons_eq_some.mpr ⟨tick state, rfl, hrun⟩, ?_⟩
      simp only [hticks, tick]
      omega

theorem firesOnTime_iff {state : State config} (hreach : (system config).Reachable state)
    (delayMs : ℕ) :
    FiresOnTime state delayMs ↔
      SumsFit state delayMs ∧ delayMs ⌈/⌉ config.intervalMs < config.slots := by
  have hinv : WheelInvariant state :=
    hreach.invariant WheelInvariant (initial_wheelInvariant config)
      fun _ _ _ hinv hstep => hinv.step hstep
  have hticks : delayMs ⌈/⌉ config.intervalMs = delayTicks config delayMs := rfl
  rw [FiresOnTime, hticks]
  constructor
  · rintro ⟨next, hadd, hfires⟩
    have hfit : SumsFit state delayMs := by
      by_contra hoverflow
      simp [step, addTimer, hoverflow] at hadd
    refine ⟨hfit, ?_⟩
    by_contra hlong
    -- The wheel comes to the slot of the timer before the delay has passed.
    have hmod := Nat.mod_lt (delayTicks config delayMs) config.slots_pos
    obtain ⟨final, hrun, hfinal⟩ :=
      run_ticks next (delayTicks config delayMs % config.slots + 1)
    have hnext : next.ticks = state.ticks := by
      simp only [step, addTimer, Option.ite_none_right_eq_some] at hadd
      obtain ⟨_, ⟨⟩⟩ := hadd
      rfl
    have hexpected := hfires _ final hrun
    rw [runsOf_added hinv hadd hrun, if_pos (by omega), if_neg (by omega)] at hexpected
    cases hexpected
  · rintro ⟨hfit, hshort⟩
    refine ⟨_, if_pos hfit, ?_⟩
    intro actions final hrun
    have hruns := runsOf_added hinv (if_pos hfit) hrun
    rwa [Nat.mod_eq_of_lt hshort] at hruns

def tenSlots : Config where
  slots := 10
  intervalMs := 100
  slots_pos := by decide
  intervalMs_pos := by decide

/-- Nine slots ahead of the second tick, while a timer of another call waits. -/
theorem firesOnTime_tenSlots :
    ∃ state, (system tenSlots).run (initial tenSlots) [.addTimer 250, .tick] = some state ∧
      FiresOnTime state 850 :=
  ⟨_, rfl, (firesOnTime_iff ⟨[.addTimer 250, .tick], rfl⟩ 850).mpr (by decide)⟩

/-- A delay of one whole revolution: the callback runs in the next tick. -/
theorem fires_early :
    ∃ final, (system tenSlots).run (initial tenSlots) [.addTimer 1000, .tick] = some final ∧
      runsOf 0 final = [0] ∧ delayTicks tenSlots 1000 = 10 ∧
      ¬ FiresOnTime (initial tenSlots) 1000 := by
  refine ⟨_, rfl, rfl, rfl, ?_⟩
  rintro ⟨next, hadd, hfires⟩
  cases hadd
  have hran : [0] = [] := hfires [.tick] _ rfl
  cases hran

end CppProj.TimeWheel
