import CppProj.TimeWheel

/-!
# A tick whose callbacks add timers

The loop of a tick walks the list of the current slot while its callbacks may
extend that list, and what is added behind the others is walked as well.  What a
callback adds is given by the number of its timer: one function may add something
else, or nothing, each time it runs.
-/

namespace CppProj.TimeWheel

variable {config : Config} {behaviour : ℕ → Option ℕ}

/-- The callback runs, and adds a timer with this delay if it adds one. -/
def runCallback (behaviour : ℕ → Option ℕ) (state : State config) (timer : ℕ) :
    Option (State config) :=
  let ran := { state with runs := state.runs ++ [(timer, state.ticks)] }
  match behaviour timer with
  | none => some ran
  | some delayMs => addTimer ran delayMs

/-- The loop from this place in the list on.  There is no result where so many iterations
are not enough, nor where a sum overflows. -/
def walkSlot (behaviour : ℕ → Option ℕ) : ℕ → ℕ → State config → Option (State config)
  | 0, _, _ => none
  | iterations + 1, place, state =>
      match (state.wheel state.currentSlot)[place]? with
      | none => some state
      | some timer =>
          (runCallback behaviour state timer).bind (walkSlot behaviour iterations (place + 1))

def advance (state : State config) : State config :=
  { state with
    wheel := Function.update state.wheel state.currentSlot []
    currentSlot := state.ahead 1
    ticks := state.ticks + 1 }

def rearmingTick (behaviour : ℕ → Option ℕ) (iterations : ℕ) (state : State config) :
    Option (State config) :=
  (walkSlot behaviour iterations 0 state).map advance

/-- The loop ends, each callback that was in the slot has run once, and the timers that
were added meanwhile are in the wheel. -/
def TickEnds (behaviour : ℕ → Option ℕ) (state : State config) : Prop :=
  ∃ iterations next, rearmingTick behaviour iterations state = some next ∧
    next.runs =
      state.runs ++ (state.wheel state.currentSlot).map (fun timer => (timer, state.ticks)) ∧
    ∀ timer, state.timers ≤ timer → timer < next.timers → ∃ slot, timer ∈ next.wheel slot

/-- What the callback adds does not go to the slot that is being walked. -/
def AddsElsewhere (behaviour : ℕ → Option ℕ) (state : State config) (timer : ℕ) : Prop :=
  ∀ delayMs ∈ behaviour timer,
    SumsFit state delayMs ∧ delayTicks config delayMs % config.slots ≠ 0

instance (state : State config) (timer : ℕ) : Decidable (AddsElsewhere behaviour state timer) :=
  inferInstanceAs (Decidable (∀ _ ∈ _, _))

theorem State.ahead_eq_currentSlot_iff (state : State config) (places : ℕ) :
    state.ahead places = state.currentSlot ↔ places % config.slots = 0 := by
  have hcurrent := state.currentSlot.isLt
  rw [Fin.ext_iff]
  simp only [State.ahead]
  rw [Nat.add_mod, Nat.mod_eq_of_lt hcurrent]
  have hplaces := Nat.mod_lt places config.slots_pos
  constructor
  · intro hsame
    by_cases hwrap : (state.currentSlot : ℕ) + places % config.slots < config.slots
    · rw [Nat.mod_eq_of_lt hwrap] at hsame
      omega
    · rw [Nat.mod_eq_sub_mod (by omega), Nat.mod_eq_of_lt (by omega)] at hsame
      omega
  · intro hzero
    rw [hzero, Nat.add_zero, Nat.mod_eq_of_lt hcurrent]

variable {state next final : State config}

theorem runCallback_addsNothing {timer : ℕ} (hadds : behaviour timer = none) :
    runCallback behaviour state timer =
      some { state with runs := state.runs ++ [(timer, state.ticks)] } := by
  simp only [runCallback, hadds]

theorem runCallback_adds {timer delayMs : ℕ} (hadds : behaviour timer = some delayMs) :
    runCallback behaviour state timer =
      if SumsFit state delayMs then
        some { state with
          wheel := Function.update state.wheel (state.ahead (delayTicks config delayMs))
            (state.wheel (state.ahead (delayTicks config delayMs)) ++ [state.timers])
          timers := state.timers + 1
          runs := state.runs ++ [(timer, state.ticks)] }
      else none := by
  simp only [runCallback, hadds]
  rfl

theorem AddsElsewhere.exists_runCallback {timer : ℕ}
    (helsewhere : AddsElsewhere behaviour state timer) :
    ∃ next, runCallback behaviour state timer = some next := by
  cases hadds : behaviour timer with
  | none => exact ⟨_, runCallback_addsNothing hadds⟩
  | some delayMs => exact ⟨_, (runCallback_adds hadds).trans (if_pos (helsewhere _ hadds).1)⟩

/-- What a callback leaves behind. -/
structure CallbackRan (behaviour : ℕ → Option ℕ) (state : State config) (timer : ℕ)
    (next : State config) : Prop where
  currentSlot : next.currentSlot = state.currentSlot
  ticks : next.ticks = state.ticks
  runs : next.runs = state.runs ++ [(timer, state.ticks)]
  kept : ∀ slot, state.wheel slot <+: next.wheel slot
  here : AddsElsewhere behaviour state timer ↔
    next.wheel state.currentSlot = state.wheel state.currentSlot
  added : ∀ number, state.timers ≤ number → number < next.timers →
    ∃ slot, number ∈ next.wheel slot ∧
      (AddsElsewhere behaviour state timer → slot ≠ state.currentSlot)

theorem callbackRan_of_runCallback {timer : ℕ}
    (hran : runCallback behaviour state timer = some next) :
    CallbackRan behaviour state timer next := by
  cases hadds : behaviour timer with
  | none =>
      rw [runCallback_addsNothing hadds] at hran
      cases hran
      refine ⟨rfl, rfl, rfl, fun _ => List.prefix_rfl, ?_, ?_⟩
      · simp [AddsElsewhere, hadds]
      · intro number hle hlt
        simp only at hlt
        omega
  | some delayMs =>
      rw [runCallback_adds hadds, Option.ite_none_right_eq_some] at hran
      obtain ⟨hfit, ⟨⟩⟩ := hran
      have helsewhere : AddsElsewhere behaviour state timer ↔
          state.ahead (delayTicks config delayMs) ≠ state.currentSlot := by
        rw [ne_eq, state.ahead_eq_currentSlot_iff]
        simp [AddsElsewhere, hadds, hfit]
      refine ⟨rfl, rfl, rfl, ?_, ?_, ?_⟩
      · intro slot
        by_cases heq : slot = state.ahead (delayTicks config delayMs)
        · subst heq
          simp
        · simp [heq]
      · rw [helsewhere]
        by_cases heq : state.ahead (delayTicks config delayMs) = state.currentSlot
        · simp [heq]
        · simp [heq, Function.update_of_ne (Ne.symm heq)]
      · intro number hle hlt
        simp only at hlt
        have hnumber : number = state.timers := by omega
        refine ⟨state.ahead (delayTicks config delayMs), ?_, helsewhere.mp⟩
        simp [hnumber]

theorem CallbackRan.addsElsewhere_iff {timer : ℕ} (hran : CallbackRan behaviour state timer next)
    (other : ℕ) : AddsElsewhere behaviour next other ↔ AddsElsewhere behaviour state other := by
  simp only [AddsElsewhere, SumsFit, hran.currentSlot]

/-- The loop runs the callbacks from its place to the end of the list as it is at the end. -/
theorem runs_walkSlot {iterations place : ℕ}
    (hwalk : walkSlot behaviour iterations place state = some final) :
    final.currentSlot = state.currentSlot ∧
      (∀ slot, state.wheel slot <+: final.wheel slot) ∧
      final.runs = state.runs ++
        ((final.wheel state.currentSlot).drop place).map fun timer => (timer, state.ticks) := by
  induction iterations generalizing place state with
  | zero => cases hwalk
  | succ iterations ih =>
      unfold walkSlot at hwalk
      split at hwalk
      next hend =>
        cases hwalk
        refine ⟨rfl, fun _ => List.prefix_rfl, ?_⟩
        rw [List.drop_eq_nil_of_le (List.getElem?_eq_none_iff.mp hend)]
        simp
      next timer hget =>
        obtain ⟨middle, hran, hrest⟩ := Option.bind_eq_some_iff.mp hwalk
        have hcallback := callbackRan_of_runCallback hran
        obtain ⟨hcurrent, hkept, hruns⟩ := ih hrest
        rw [hcallback.currentSlot] at hcurrent hruns
        have hall := fun slot => (hcallback.kept slot).trans (hkept slot)
        refine ⟨hcurrent, hall, ?_⟩
        obtain ⟨hlt, hvalue⟩ := List.getElem?_eq_some_iff.mp hget
        have hfinal := hlt.trans_le (hall state.currentSlot).length_le
        rw [hruns, hcallback.runs, hcallback.ticks, List.drop_eq_getElem_cons hfinal,
          ← (hall state.currentSlot).getElem hlt, hvalue]
        simp

/-- If the list is then as it was, every callback from there on added elsewhere. -/
theorem addsElsewhere_of_walkSlot {iterations place : ℕ}
    (hwalk : walkSlot behaviour iterations place state = some final)
    (hsame : final.wheel state.currentSlot = state.wheel state.currentSlot) :
    ∀ timer ∈ (state.wheel state.currentSlot).drop place, AddsElsewhere behaviour state timer := by
  induction iterations generalizing place state with
  | zero => cases hwalk
  | succ iterations ih =>
      unfold walkSlot at hwalk
      split at hwalk
      next hend =>
        cases hwalk
        rw [List.drop_eq_nil_of_le (List.getElem?_eq_none_iff.mp hend)]
        exact fun timer hmem => absurd hmem List.not_mem_nil
      next timer hget =>
        obtain ⟨middle, hran, hrest⟩ := Option.bind_eq_some_iff.mp hwalk
        have hcallback := callbackRan_of_runCallback hran
        have hprefix := (runs_walkSlot hrest).2.1 state.currentSlot
        rw [hsame] at hprefix
        have hmiddle : middle.wheel state.currentSlot = state.wheel state.currentSlot :=
          hprefix.eq_of_length_le (hcallback.kept state.currentSlot).length_le
        have htail := ih hrest (by rw [hcallback.currentSlot, hsame, hmiddle])
        rw [hcallback.currentSlot, hmiddle] at htail
        obtain ⟨hlt, hvalue⟩ := List.getElem?_eq_some_iff.mp hget
        rw [List.drop_eq_getElem_cons hlt, hvalue]
        intro found hmem
        rcases List.mem_cons.mp hmem with rfl | hrest
        · exact hcallback.here.mpr hmiddle
        · exact (hcallback.addsElsewhere_iff found).mp (htail found hrest)

theorem walkSlot_atEnd {place : ℕ} (hend : (state.wheel state.currentSlot).length ≤ place)
    (iterations : ℕ) : walkSlot behaviour (iterations + 1) place state = some state := by
  simp only [walkSlot, List.getElem?_eq_none hend]

theorem walkSlot_callback {place : ℕ} (hplace : place < (state.wheel state.currentSlot).length)
    (iterations : ℕ) :
    walkSlot behaviour (iterations + 1) place state =
      (runCallback behaviour state (state.wheel state.currentSlot)[place]).bind
        (walkSlot behaviour iterations (place + 1)) := by
  simp only [walkSlot, List.getElem?_eq_getElem hplace]

/-- Where every callback adds elsewhere, one iteration a callback and one more are enough. -/
theorem exists_walkSlot {iterations place : ℕ}
    (hlength : (state.wheel state.currentSlot).length ≤ place + iterations)
    (helsewhere : ∀ timer ∈ (state.wheel state.currentSlot).drop place,
      AddsElsewhere behaviour state timer) :
    ∃ final, walkSlot behaviour (iterations + 1) place state = some final ∧
      final.wheel state.currentSlot = state.wheel state.currentSlot ∧
      ∀ number, state.timers ≤ number → number < final.timers →
        ∃ slot, slot ≠ state.currentSlot ∧ number ∈ final.wheel slot := by
  induction iterations generalizing place state with
  | zero =>
      exact ⟨state, walkSlot_atEnd hlength 0, rfl,
        fun number hle hlt => absurd hlt (Nat.not_lt.mpr hle)⟩
  | succ iterations ih =>
      by_cases hend : place < (state.wheel state.currentSlot).length
      · have hhere : AddsElsewhere behaviour state (state.wheel state.currentSlot)[place] := by
          refine helsewhere _ ?_
          rw [List.drop_eq_getElem_cons hend]
          exact List.mem_cons_self
        obtain ⟨next, hran⟩ := hhere.exists_runCallback
        have hcallback := callbackRan_of_runCallback hran
        have hsame := hcallback.here.mp hhere
        have hrest : ∀ timer ∈ (next.wheel next.currentSlot).drop (place + 1),
            AddsElsewhere behaviour next timer := by
          intro timer hmem
          rw [hcallback.currentSlot, hsame] at hmem
          rw [hcallback.addsElsewhere_iff]
          refine helsewhere timer ?_
          rw [List.drop_eq_getElem_cons hend]
          exact List.mem_cons_of_mem _ hmem
        have hrestLength : (next.wheel next.currentSlot).length ≤ place + 1 + iterations := by
          rw [hcallback.currentSlot, hsame]
          omega
        obtain ⟨final, hwalk, hfinal, hadded⟩ := ih hrestLength hrest
        rw [hcallback.currentSlot] at hfinal hadded
        refine ⟨final, ?_, hfinal.trans hsame, ?_⟩
        · rw [walkSlot_callback hend, hran, Option.bind_some]
          exact hwalk
        · intro number hle hlt
          by_cases hnew : number < next.timers
          · obtain ⟨slot, hmem, hslot⟩ := hcallback.added number hle hnew
            exact ⟨slot, hslot hhere, ((runs_walkSlot hwalk).2.1 slot).subset hmem⟩
          · exact hadded number (Nat.le_of_not_lt hnew) hlt
      · exact ⟨state, walkSlot_atEnd (Nat.le_of_not_lt hend) _, rfl,
          fun number hle hlt => absurd hlt (Nat.not_lt.mpr hle)⟩

/-- The tick ends as it should exactly if no callback of the slot adds a timer to the slot
itself, and no sum overflows. -/
theorem tickEnds_iff_addsElsewhere (behaviour : ℕ → Option ℕ) (state : State config) :
    TickEnds behaviour state ↔
      ∀ timer ∈ state.wheel state.currentSlot, AddsElsewhere behaviour state timer := by
  constructor
  · rintro ⟨iterations, next, htick, hruns, -⟩
    obtain ⟨final, hwalk, rfl⟩ := Option.map_eq_some_iff.mp htick
    obtain ⟨hcurrent, -, hall⟩ := runs_walkSlot hwalk
    have hsame : final.wheel state.currentSlot = state.wheel state.currentSlot := by
      have hmaps := List.append_cancel_left (hall.symm.trans hruns)
      rw [List.drop_zero] at hmaps
      exact List.map_injective_iff.mpr (fun _ _ hpair => congrArg Prod.fst hpair) hmaps
    simpa using addsElsewhere_of_walkSlot hwalk hsame
  · intro helsewhere
    have hlength : (state.wheel state.currentSlot).length ≤
        0 + (state.wheel state.currentSlot).length := Nat.le_add_left _ _
    obtain ⟨final, hwalk, hsame, hadded⟩ := exists_walkSlot hlength (by simpa using helsewhere)
    obtain ⟨hcurrent, -, hruns⟩ := runs_walkSlot hwalk
    refine ⟨_, advance final, by rw [rearmingTick, hwalk]; rfl, ?_, ?_⟩
    · rw [List.drop_zero, hsame] at hruns
      exact hruns
    · intro number hle hlt
      obtain ⟨slot, hslot, hmem⟩ := hadded number hle hlt
      refine ⟨slot, ?_⟩
      simp only [advance, hcurrent, Function.update_of_ne hslot]
      exact hmem

theorem walkSlot_addsNothing {iterations place : ℕ}
    (hlength : (state.wheel state.currentSlot).length ≤ place + iterations)
    (hnothing : ∀ timer ∈ (state.wheel state.currentSlot).drop place, behaviour timer = none) :
    walkSlot behaviour (iterations + 1) place state =
      some { state with
        runs := state.runs ++
          ((state.wheel state.currentSlot).drop place).map fun timer => (timer, state.ticks) } := by
  induction iterations generalizing place state with
  | zero =>
      have hend : (state.wheel state.currentSlot).length ≤ place := hlength
      rw [walkSlot_atEnd hend, List.drop_eq_nil_of_le hend, List.map_nil, List.append_nil]
  | succ iterations ih =>
      by_cases hplace : place < (state.wheel state.currentSlot).length
      · rw [List.drop_eq_getElem_cons hplace] at hnothing ⊢
        have hhere := hnothing _ List.mem_cons_self
        rw [walkSlot_callback hplace, runCallback_addsNothing hhere, Option.bind_some, ih]
        · simp only [List.map_cons, List.append_assoc, List.singleton_append]
        · simp only
          omega
        · exact fun timer hmem => hnothing timer (List.mem_cons_of_mem _ hmem)
      · have hend := Nat.le_of_not_lt hplace
        rw [walkSlot_atEnd hend, List.drop_eq_nil_of_le hend, List.map_nil, List.append_nil]

/-- Where the callbacks add nothing, the loop is the tick of the wheel. -/
theorem rearmingTick_addsNothing
    (hnothing : ∀ timer ∈ state.wheel state.currentSlot, behaviour timer = none) :
    rearmingTick behaviour ((state.wheel state.currentSlot).length + 1) state =
      some (tick state) := by
  have hlength : (state.wheel state.currentSlot).length ≤
      0 + (state.wheel state.currentSlot).length := Nat.le_add_left _ _
  rw [rearmingTick, walkSlot_addsNothing hlength (by simpa using hnothing)]
  rfl

/-- Callbacks that add themselves to the slot that is being walked keep the loop going. -/
theorem walkSlot_revolution
    (hrevolution : ∀ timer, ∃ delayMs, behaviour timer = some delayMs ∧
      delayTicks config delayMs % config.slots = 0)
    {place : ℕ} (hplace : place < (state.wheel state.currentSlot).length) (iterations : ℕ) :
    walkSlot behaviour iterations place state = none := by
  induction iterations generalizing place state with
  | zero => rfl
  | succ iterations ih =>
      rw [walkSlot_callback hplace, Option.bind_eq_none_iff]
      intro next hran
      have hlonger : (next.wheel next.currentSlot).length =
          (state.wheel state.currentSlot).length + 1 := by
        obtain ⟨delayMs, hadds, hwhole⟩ := hrevolution (state.wheel state.currentSlot)[place]
        rw [runCallback_adds hadds, Option.ite_none_right_eq_some] at hran
        obtain ⟨-, ⟨⟩⟩ := hran
        simp [(state.ahead_eq_currentSlot_iff _).mpr hwhole]
      exact ih (by omega)

/-- A timer of one whole revolution arms itself again: its first tick never ends. -/
theorem not_tickEnds_revolution :
    ∃ state, (system tenSlots).run (initial tenSlots) [.addTimer 1000] = some state ∧
      (∀ iterations, rearmingTick (fun _ => some 1000) iterations state = none) ∧
      ¬ TickEnds (fun _ => some 1000) state := by
  have hnever : ∀ iterations, rearmingTick (fun _ => some 1000) iterations
      ((addTimer (initial tenSlots) 1000).get rfl) = none := by
    intro iterations
    rw [rearmingTick, walkSlot_revolution (fun _ => ⟨1000, rfl, by decide⟩) (by decide)]
    rfl
  refine ⟨_, rfl, hnever, ?_⟩
  rintro ⟨iterations, next, htick, -⟩
  cases (hnever iterations).symm.trans htick

end CppProj.TimeWheel
