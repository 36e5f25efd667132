import CppProj.LabelledHistory
import CppProj.TimerTransitions

/-!
# Who sets the promises of `Timer`

The thread of `asyncAfter` sets its promise at the end, and `cancel` and
`cancelAll` set the promises of the timers that they find scheduled or running.
Such a timer's thread has not come to its end, so the promise is set again.  A
promise is set once as long as neither finds its timer in these states.
-/

namespace CppProj.Timer

/-- What a promise is owed: one value at most, `true` after its callback only, and
`false` only when cancelled. -/
structure SettledOnce (promise : ℕ) (state : State) : Prop where
  once : (entriesOf promise state.settlements).length ≤ 1
  ran : (promise, true) ∈ state.settlements → ∀ call duration,
    state.calls[promise]? = some call → call.kind = .asyncAfter duration true →
      promise ∈ state.ran
  cancelled : (promise, false) ∈ state.settlements → promise ∈ state.cancelled

/-- The step does not cancel the promise's timer while it is scheduled or running,
and no new call shares the id of an unfinished one. -/
def KeepsPromise (promise : ℕ) (state : State) : Action → Prop
  | .call _ => FreshId state
  | .turn _ _ => True
  | .cancel id =>
      ∀ timerInfo ∈ state.timers.lookup id, timerInfo.promise = some promise →
        ¬ timerInfo.Active
  | .cancelAll =>
      ∀ entry ∈ state.timers.entries, entry.2.promise = some promise → ¬ entry.2.Active

instance (promise : ℕ) (state : State) :
    (action : Action) → Decidable (KeepsPromise promise state action)
  | .call _ => inferInstanceAs (Decidable (FreshId state))
  | .turn _ _ => .isTrue trivial
  | .cancel id => inferInstanceAs (Decidable (∀ timerInfo ∈ state.timers.lookup id,
      timerInfo.promise = some promise → ¬ timerInfo.Active))
  | .cancelAll => inferInstanceAs (Decidable (∀ entry ∈ state.timers.entries,
      entry.2.promise = some promise → ¬ entry.2.Active))

/-- Where the thread of a promise stands, with its entry and the values set. -/
inductive Stage (promise : ℕ) (callback : Bool) (ran : List ℕ) :
    Phase → Option TimerInfo → List Bool → Prop where
  | create (entry : Option TimerInfo) : Stage promise callback ran .create entry []
  | start (timerInfo : TimerInfo) (hscheduled : timerInfo.state = .scheduled)
      (hpromise : timerInfo.promise = some promise) (hcallback : timerInfo.callback = callback) :
      Stage promise callback ran .start (some timerInfo) []
  | waiting (timerInfo : TimerInfo) (hrunning : timerInfo.state = .running)
      (hpromise : timerInfo.promise = some promise) (hcallback : timerInfo.callback = callback) :
      Stage promise callback ran .waiting (some timerInfo) []
  | calling (entry : Option TimerInfo) : Stage promise callback ran .calling entry []
  | callback (entry : Option TimerInfo) : Stage promise callback ran .callback entry []
  | relock (entry : Option TimerInfo) (hran : promise ∈ ran) :
      Stage promise callback ran .relock entry []
  | exited (entry : Option TimerInfo) (hran : callback = true → promise ∈ ran) :
      Stage promise callback ran .exited entry [true]

structure PromiseInvariant (promise : ℕ) (state : State) : Prop where
  distinct : DistinctIds state.calls
  staged : ∀ call duration callback, state.calls[promise]? = some call →
    call.kind = .asyncAfter duration callback →
      Stage promise callback state.ran call.phase (state.timers.lookup call.id)
        (entriesOf promise state.settlements)
  silent : (∀ call duration callback, state.calls[promise]? = some call →
    call.kind ≠ .asyncAfter duration callback) → entriesOf promise state.settlements = []

theorem initial_promiseInvariant (promise : ℕ) : PromiseInvariant promise initial := by
  constructor <;> simp [initial, DistinctIds]

/-! ## One thread -/

variable {promise index : ℕ} {callback : Bool} {ran : List ℕ} {phase : Phase}
  {entry : Option TimerInfo} {values : List Bool}

namespace Stage

/-- The entry matters before the timer has expired only. -/
theorem of_entry {other : Option TimerInfo} (hstage : Stage promise callback ran phase entry values)
    (hentry : phase = .start ∨ phase = .waiting → other = entry) :
    Stage promise callback ran phase other values := by
  cases hstage with
  | create entry => exact .create other
  | start timerInfo hscheduled hpromise hcallback =>
      rw [hentry (Or.inl rfl)]
      exact .start timerInfo hscheduled hpromise hcallback
  | waiting timerInfo hrunning hpromise hcallback =>
      rw [hentry (Or.inr rfl)]
      exact .waiting timerInfo hrunning hpromise hcallback
  | calling entry => exact .calling other
  | callback entry => exact .callback other
  | relock entry hran => exact .relock other hran
  | exited entry hran => exact .exited other hran

theorem mono {more : List ℕ} (hstage : Stage promise callback ran phase entry values)
    (hmore : ∀ label ∈ ran, label ∈ more) : Stage promise callback more phase entry values := by
  cases hstage with
  | create entry => exact .create entry
  | start timerInfo hscheduled hpromise hcallback =>
      exact .start timerInfo hscheduled hpromise hcallback
  | waiting timerInfo hrunning hpromise hcallback =>
      exact .waiting timerInfo hrunning hpromise hcallback
  | calling entry => exact .calling entry
  | callback entry => exact .callback entry
  | relock entry hran => exact .relock entry (hmore _ hran)
  | exited entry hran => exact .exited entry fun hcallback => hmore _ (hran hcallback)

/-- A thread that has not come to its end has set nothing. -/
theorem values_eq (hstage : Stage promise callback ran phase entry values) :
    values = [] ∨ phase = .exited ∧ values = [true] ∧ (callback = true → promise ∈ ran) := by
  cases hstage with
  | exited entry hran => exact Or.inr ⟨rfl, rfl, hran⟩
  | _ => exact Or.inl rfl

theorem active (hstage : Stage promise callback ran phase entry values)
    (hphase : phase = .start ∨ phase = .waiting) : ∃ timerInfo, entry = some timerInfo ∧
      timerInfo.Active := by
  cases hstage with
  | start timerInfo hscheduled _ _ => exact ⟨timerInfo, rfl, Or.inl hscheduled⟩
  | waiting timerInfo hrunning _ _ => exact ⟨timerInfo, rfl, Or.inr hrunning⟩
  | _ => rcases hphase with hphase | hphase <;> cases hphase

theorem promise_eq {timerInfo : TimerInfo} (hstage : Stage promise callback ran phase entry values)
    (hphase : phase = .start ∨ phase = .waiting) (hentry : entry = some timerInfo) :
    timerInfo.promise = some promise := by
  cases hstage with
  | start found _ hpromise _ => exact Option.some.inj hentry ▸ hpromise
  | waiting found _ hpromise _ => exact Option.some.inj hentry ▸ hpromise
  | _ => rcases hphase with hphase | hphase <;> cases hphase

theorem wake (timedOut : Bool) {timerInfo : TimerInfo} (hrunning : timerInfo.state = .running)
    (hpromise : timerInfo.promise = some promise) (hcallback : timerInfo.callback = callback) :
    Stage promise callback ran (asyncTimerThreadWake timedOut timerInfo).phase
      (asyncTimerThreadWake timedOut timerInfo).entry
      (asyncTimerThreadWake timedOut timerInfo).value.toList := by
  unfold asyncTimerThreadWake
  split_ifs with hexpired hcalls
  · exact .calling _
  · refine .exited _ ?_
    intro htrue
    rw [hcallback] at hcalls
    exact (hcalls htrue).elim
  · exact .waiting timerInfo hrunning hpromise hcallback

theorem call (entry : Option TimerInfo) (stale : TimerInfo) :
    Stage promise callback ran (Outcome.throughReference entry stale asyncTimerThreadCall).phase
      (Outcome.throughReference entry stale asyncTimerThreadCall).entry
      (Outcome.throughReference entry stale asyncTimerThreadCall).value.toList := by
  cases entry with
  | none =>
      simp only [Outcome.throughReference, asyncTimerThreadCall]
      split_ifs
      · exact .callback _
      · exact .calling _
  | some timerInfo =>
      simp only [Outcome.throughReference, asyncTimerThreadCall]
      split_ifs
      · exact .callback _
      · exact .calling _

theorem criticalSection {id : UInt64} {duration : ℤ} {turn : Turn} {outcome : Outcome}
    (hstage : Stage promise callback ran phase entry values)
    (hsection : Timer.criticalSection promise ⟨id, .asyncAfter duration callback, phase⟩ entry
      turn = some outcome) :
    Stage promise callback (ran ++ if outcome.ran then [promise] else []) outcome.phase
      outcome.entry (values ++ outcome.value.toList) := by
  have hmore : ∀ label ∈ ran, label ∈ ran ++ if outcome.ran then [promise] else [] :=
    fun label hlabel => List.mem_append_left _ hlabel
  cases hstage with
  | create entry =>
      cases turn <;> cases hsection
      exact .start _ rfl rfl rfl
  | start timerInfo hscheduled hpromise hcallback =>
      cases turn <;> cases hsection
      exact .waiting _ rfl hpromise hcallback
  | waiting timerInfo hrunning hpromise hcallback =>
      cases turn <;> cases hsection
      exact (wake _ hrunning hpromise hcallback).mono hmore
  | calling entry =>
      cases turn <;> cases hsection
      exact (call entry _).mono hmore
  | callback entry =>
      cases turn <;> cases hsection
      exact .relock _ (by simp [callbackFinished])
  | relock entry hran =>
      cases turn <;> cases hsection
      exact .exited _ fun _ => hmore _ hran
  | exited entry hran => cases turn <;> cases hsection

end Stage

/-! ## The other steps -/

theorem value_throughReference {stale : TimerInfo} {body : TimerInfo → Outcome}
    (hbody : ∀ timerInfo, (body timerInfo).value = none) :
    (Outcome.throughReference entry stale body).value = none := by
  cases entry with
  | none => exact hbody stale
  | some timerInfo => exact hbody timerInfo

theorem value_periodicTimerThreadAfterWait (nextExpiry now : ℤ) (timerInfo : TimerInfo) :
    (periodicTimerThreadAfterWait nextExpiry now timerInfo).value = none := by
  unfold periodicTimerThreadAfterWait
  split_ifs <;> rfl

theorem value_periodicTimerThreadStart (interval now test after : ℤ) (entry : Option TimerInfo) :
    (periodicTimerThreadStart interval now test after entry).value = none := by
  cases entry with
  | none => rfl
  | some timerInfo =>
      simp only [periodicTimerThreadStart]
      split_ifs
      · rfl
      · rfl
      · exact value_periodicTimerThreadAfterWait _ _ _

/-- Only the threads of `asyncAfter` set promises. -/
theorem value_of_not_async {call : Call} {turn : Turn} {outcome : Outcome}
    (hsection : criticalSection index call entry turn = some outcome)
    (hkind : ∀ duration callback, call.kind ≠ .asyncAfter duration callback) :
    outcome.value = none := by
  obtain ⟨id, kind, phase⟩ := call
  cases kind with
  | asyncAfter duration callback => exact (hkind duration callback rfl).elim
  | blockFor duration =>
      cases phase with
      | create =>
          cases turn <;> cases hsection
          rfl
      | start =>
          cases turn <;> cases hsection
          simp only [blockForStart]
          split_ifs <;> rfl
      | waiting =>
          cases turn <;> cases hsection
          apply value_throughReference
          intro timerInfo
          unfold blockForWake
          split_ifs <;> rfl
      | _ => cases turn <;> cases hsection
  | asyncEvery interval callback =>
      cases phase with
      | create | callback =>
          cases turn <;> cases hsection
          rfl
      | start =>
          cases turn <;> cases hsection
          exact value_periodicTimerThreadStart _ _ _ _ _
      | waitingUntil nextExpiry =>
          cases turn <;> cases hsection
          apply value_throughReference
          intro timerInfo
          unfold periodicTimerThreadWake
          split_ifs
          · rfl
          · exact value_periodicTimerThreadAfterWait _ _ _
      | calling =>
          cases turn <;> cases hsection
          unfold periodicTimerThreadCall
          split_ifs <;> rfl
      | relock =>
          cases turn <;> cases hsection
          apply value_throughReference
          intro timerInfo
          unfold periodicTimerThreadRelock
          split_ifs <;> rfl
      | _ => cases turn <;> cases hsection

theorem entriesOf_update_of_ne (state : State) {call : Call} (outcome : Outcome)
    (hne : index ≠ promise) :
    entriesOf promise (state.update index call outcome).settlements =
      entriesOf promise state.settlements := by
  simp only [State.update, LabelledHistory.entriesOf_append]
  cases outcome.value <;> simp [entriesOf, hne]

theorem entriesOf_update_self (state : State) {call : Call} (outcome : Outcome) :
    entriesOf promise (state.update promise call outcome).settlements =
      entriesOf promise state.settlements ++ outcome.value.toList := by
  simp only [State.update, LabelledHistory.entriesOf_append]
  cases outcome.value <;> simp [entriesOf]

theorem CancelMove.entriesOf {state : State} {id : UInt64} {result : Option Bool × State}
    (hmove : CancelMove state id result) (hkeeps : KeepsPromise promise state (.cancel id)) :
    entriesOf promise result.2.settlements = entriesOf promise state.settlements := by
  have hother : ∀ {timerInfo : TimerInfo} {other : ℕ},
      state.timers.lookup id = some timerInfo → timerInfo.Active →
      timerInfo.promise = some other → other ≠ promise := by
    rintro timerInfo other hlookup hactive hpromise rfl
    exact hkeeps timerInfo hlookup hpromise hactive
  cases hmove with
  | inactive _ => rfl
  | plain _ _ _ _ => rfl
  | settled timerInfo other hlookup hactive hpromise _ =>
      exact LabelledHistory.entriesOf_append_of_ne (hother hlookup hactive hpromise) _ _
  | thrown timerInfo other hlookup hactive hpromise _ =>
      exact LabelledHistory.entriesOf_append_of_ne (hother hlookup hactive hpromise) _ _

theorem mem_activePromises {state : State} : promise ∈ state.activePromises ↔
    ∃ entry ∈ state.timers.entries, entry.2.Active ∧ entry.2.promise = some promise := by
  simp [State.activePromises]

/-! ## Steps -/

namespace PromiseInvariant

variable {state : State}

theorem settledOnce (hinv : PromiseInvariant promise state) : SettledOnce promise state := by
  have hvalues : entriesOf promise state.settlements = [] ∨
      entriesOf promise state.settlements = [true] ∧ ∀ call duration,
        state.calls[promise]? = some call → call.kind = .asyncAfter duration true →
          promise ∈ state.ran := by
    by_cases hasync : ∃ call duration callback, state.calls[promise]? = some call ∧
        call.kind = .asyncAfter duration callback
    · obtain ⟨call, duration, callback, hget, hkind⟩ := hasync
      rcases (hinv.staged call duration callback hget hkind).values_eq with hnone |
        ⟨_, htrue, hran⟩
      · exact Or.inl hnone
      · refine Or.inr ⟨htrue, ?_⟩
        intro other time hother hsame
        rw [hget, Option.some.injEq] at hother
        subst hother
        rw [hkind, Kind.asyncAfter.injEq] at hsame
        exact hran hsame.2
    · refine Or.inl (hinv.silent ?_)
      intro call duration callback hget hkind
      exact hasync ⟨call, duration, callback, hget, hkind⟩
  rcases hvalues with hnone | ⟨htrue, hran⟩
  · refine ⟨by simp [hnone], ?_, ?_⟩ <;> intro hmem <;>
      rw [← LabelledHistory.mem_entriesOf, hnone] at hmem <;> cases hmem
  · refine ⟨by simp [htrue], fun _ => hran, ?_⟩
    intro hmem
    rw [← LabelledHistory.mem_entriesOf, htrue] at hmem
    simp at hmem

theorem addCall (hinv : PromiseInvariant promise state) (hfresh : FreshId state) (kind : Kind) :
    PromiseInvariant promise (state.addCall kind) := by
  refine ⟨hinv.distinct.addCall hfresh kind, ?_, ?_⟩
  · intro call duration callback hget hkind
    by_cases hlt : promise < state.calls.length
    · have hold : state.calls[promise]? = some call := by
        rw [← hget]
        exact (List.getElem?_append_left hlt).symm
      exact hinv.staged call duration callback hold hkind
    · -- the new call is the one of the promise, or another one
      have hsilent : entriesOf promise state.settlements = [] := by
        apply hinv.silent
        intro other _ _ hother
        exact (hlt (List.getElem?_eq_some_iff.mp hother).1).elim
      have hnew : call = ⟨state.nextId, kind, .create⟩ := by
        have hmem : call ∈ [(⟨state.nextId, kind, .create⟩ : Call)] := by
          apply List.mem_of_getElem? (i := promise - state.calls.length)
          rw [← hget]
          exact (List.getElem?_append_right (by omega)).symm
        simpa using hmem
      subst hnew
      show Stage promise callback state.ran .create _ (entriesOf promise state.settlements)
      rw [hsilent]
      exact .create _
  · intro hother
    apply hinv.silent
    intro call duration callback hget
    exact hother call duration callback (ListUpdate.getElem?_append_of_eq_some hget _)

theorem update {call : Call} {turn : Turn} {outcome : Outcome}
    (hinv : PromiseInvariant promise state) (hget : state.calls[index]? = some call)
    (hsection : Timer.criticalSection index call (state.timers.lookup call.id) turn =
      some outcome) :
    PromiseInvariant promise (state.update index call outcome) := by
  have hrunning := unfinished_of_section hsection
  refine ⟨hinv.distinct.update hget hrunning outcome, ?_, ?_⟩
  · intro found duration callback hfound hkind
    rcases ListUpdate.getElem?_set_cases hfound with ⟨rfl, rfl⟩ | ⟨hne, hold⟩
    · obtain ⟨id, kind, phase⟩ := call
      obtain rfl : kind = .asyncAfter duration callback := hkind
      have hstage := (hinv.staged _ duration callback hget rfl).criticalSection hsection
      have hentry := lookup_update_self state index ⟨id, .asyncAfter duration callback, phase⟩
        outcome
      rw [← hentry] at hstage
      rw [entriesOf_update_self]
      exact hstage
    · have hstage := hinv.staged found duration callback hold hkind
      have hmore : ∀ label ∈ state.ran, label ∈ (state.update index call outcome).ran :=
        fun label hlabel => List.mem_append_left _ hlabel
      rw [entriesOf_update_of_ne state outcome hne]
      apply (hstage.mono hmore).of_entry
      intro hphase
      apply lookup_update_of_ne
      intro hid
      have hfoundRuns : found.phase.finished = false := by
        rcases hphase with hphase | hphase <;> rw [hphase] <;> rfl
      exact hne (hinv.distinct index promise call found hget hold hrunning hfoundRuns hid.symm)
  · intro hother
    by_cases hsame : index = promise
    · subst hsame
      have hkind : ∀ duration callback, call.kind ≠ .asyncAfter duration callback := by
        intro duration callback
        exact hother { call with phase := outcome.phase } duration callback
          (ListUpdate.getElem?_set_self hget _)
      have hsilent := hinv.silent ?_
      · rw [entriesOf_update_self, hsilent, value_of_not_async hsection hkind]
        rfl
      · intro found duration callback hfound
        rw [hget, Option.some.injEq] at hfound
        exact hfound ▸ hkind duration callback
    · rw [entriesOf_update_of_ne state outcome hsame]
      apply hinv.silent
      intro found duration callback hfound
      exact hother found duration callback
        ((ListUpdate.getElem?_set_of_ne hsame _).trans hfound)

theorem cancel {id : UInt64} (hinv : PromiseInvariant promise state)
    (hkeeps : KeepsPromise promise state (.cancel id)) :
    PromiseInvariant promise (state.cancel id).2 := by
  obtain ⟨hcalls, _, _, hran⟩ := (cancelMove state id).frame
  have hsettlements : entriesOf promise (state.cancel id).2.settlements =
      entriesOf promise state.settlements :=
    (cancelMove state id).entriesOf hkeeps
  refine ⟨hcalls ▸ hinv.distinct, ?_, ?_⟩
  · intro call duration callback hget hkind
    rw [hcalls] at hget
    rw [hsettlements, hran]
    have hstage := hinv.staged call duration callback hget hkind
    apply hstage.of_entry
    intro hphase
    apply (cancelMove state id).lookup
    rintro rfl timerInfo hlookup
    exact hkeeps timerInfo hlookup (hstage.promise_eq hphase hlookup)
  · rw [hcalls, hsettlements]
    exact hinv.silent

theorem cancelAll (hinv : PromiseInvariant promise state)
    (hkeeps : KeepsPromise promise state .cancelAll) :
    PromiseInvariant promise state.cancelAll := by
  have hsettlements : entriesOf promise state.cancelAll.settlements =
      entriesOf promise state.settlements := by
    have hothers : entriesOf promise
        (state.activePromises.map fun other => (other, false)) = [] := by
      apply LabelledHistory.entriesOf_eq_nil
      intro entry hentry
      obtain ⟨other, hother, rfl⟩ := List.mem_map.mp hentry
      obtain ⟨found, hfound, hactive, hpromise⟩ := mem_activePromises.mp hother
      rintro rfl
      exact hkeeps found hfound hpromise hactive
    rw [State.cancelAll, LabelledHistory.entriesOf_append, hothers, List.append_nil]
  refine ⟨hinv.distinct, ?_, ?_⟩
  · intro call duration callback hget hkind
    have hstage := hinv.staged call duration callback hget hkind
    rw [hsettlements]
    apply hstage.of_entry
    intro hphase
    obtain ⟨timerInfo, hlookup, hactive⟩ := hstage.active hphase
    have hmem := AList.mem_lookup_iff.mp hlookup
    exact (hkeeps _ hmem (hstage.promise_eq hphase hlookup) hactive).elim
  · rw [hsettlements]
    exact hinv.silent

end PromiseInvariant

theorem step_promiseInvariant {state next : State} {action : Action}
    (hinv : PromiseInvariant promise state) (hkeeps : KeepsPromise promise state action)
    (hstep : step state action = some next) : PromiseInvariant promise next := by
  obtain ⟨_, hmove⟩ := move_of_step hstep
  cases hmove with
  | call kind => exact hinv.addCall hkeeps kind
  | turn index turn call outcome hget hsection => exact hinv.update hget hsection
  | cancel id => exact hinv.cancel hkeeps
  | cancelAll => exact hinv.cancelAll hkeeps

theorem promiseInvariant_of_reachable {state : State}
    (hreach : system.ReachableMeeting (KeepsPromise promise) state) :
    PromiseInvariant promise state :=
  hreach.invariant (PromiseInvariant promise) (initial_promiseInvariant promise)
    fun _ _ _ hinv hkeeps hstep => step_promiseInvariant hinv hkeeps hstep

/-- For every promise and all the states of the runs that keep it. -/
theorem settled_once {state : State}
    (hreach : system.ReachableMeeting (KeepsPromise promise) state) :
    SettledOnce promise state :=
  (promiseInvariant_of_reachable hreach).settledOnce

/-- A timer with a callback expires; `cancelAll` comes while the callback runs. -/
def expiringRun : List Action :=
  [.call (.asyncAfter 5 true), .turn 0 (.create 0), .turn 0 (.start 0 0 0),
    .turn 0 (.wake true 0 0 .default), .turn 0 (.call .default), .cancel 1, .cancelAll,
    .turn 0 .finish, .turn 0 (.relock 0 .default)]

theorem settled_once_expiry : ∃ final, system.run initial expiringRun = some final ∧
    final.settlements = [(0, true)] ∧ SettledOnce 0 final :=
  ⟨_, rfl, rfl, settled_once ⟨expiringRun, rfl, by decide⟩⟩

/-! ## A timer cancelled before its thread has come to its end -/

section Cancelled

variable {state next : State} {call : Call} {duration : ℤ} {action : Action}

theorem sets_promise_of_missing (hrunning : state.terminated = false)
    (hget : state.calls[promise]? = some call) (hkind : call.kind = .asyncAfter duration callback)
    (hphase : call.phase = .start ∨ call.phase = .waiting)
    (hmissing : state.timers.lookup call.id = none) :
    ∃ turn final, step state (.turn promise turn) = some final ∧
      entriesOf promise final.settlements = entriesOf promise state.settlements ++ [false] := by
  obtain ⟨id, kind, phase⟩ := call
  obtain rfl : kind = .asyncAfter duration callback := hkind
  rcases hphase with hphase | hphase
  · obtain rfl : phase = .start := hphase
    have hstep := step_turn (.start 0 0 0) hrunning hget (by rw [hmissing]; rfl)
    exact ⟨_, _, hstep, entriesOf_update_self state _⟩
  · obtain rfl : phase = .waiting := hphase
    have hstep := step_turn (.wake false 0 0 { TimerInfo.default with state := .cancelled })
      hrunning hget (by rw [hmissing]; rfl)
    exact ⟨_, _, hstep, entriesOf_update_self state _⟩

theorem cancels_promise {timerInfo : TimerInfo}
    (hlookup : state.timers.lookup call.id = some timerInfo)
    (hactive : timerInfo.Active) (hpromise : timerInfo.promise = some promise)
    (hopen : entriesOf promise state.settlements = [])
    (hcancels : action = .cancel call.id ∨ action = .cancelAll)
    (hstep : step state action = some next) :
    next.timers.lookup call.id = none ∧ (promise, false) ∈ next.settlements := by
  obtain ⟨_, hmove⟩ := move_of_step hstep
  rcases hcancels with rfl | rfl
  · cases hmove
    have hcancel := cancelMove state call.id
    have hunset : ¬ state.Satisfied promise := by
      intro hset
      obtain ⟨⟨label, value⟩, hmem, hlabel⟩ := List.mem_map.mp hset
      obtain rfl : label = promise := hlabel
      rw [← LabelledHistory.mem_entriesOf, hopen] at hmem
      cases hmem
    generalize state.cancel call.id = result at hcancel ⊢
    cases hcancel with
    | inactive hinactive => exact (hinactive timerInfo hlookup hactive).elim
    | plain found hfound _ hnone =>
        rw [hlookup, Option.some.injEq] at hfound
        rw [← hfound, hpromise] at hnone
        cases hnone
    | settled found other hfound _ hother _ =>
        rw [hlookup, Option.some.injEq] at hfound
        rw [← hfound, hpromise, Option.some.injEq] at hother
        subst hother
        exact ⟨AList.lookup_erase _ _, by simp⟩
    | thrown found other hfound _ hother hset =>
        rw [hlookup, Option.some.injEq] at hfound
        rw [← hfound, hpromise, Option.some.injEq] at hother
        exact (hunset (hother ▸ hset)).elim
  · cases hmove
    refine ⟨AList.lookup_empty _, ?_⟩
    have hmem : promise ∈ state.activePromises :=
      mem_activePromises.mpr ⟨⟨call.id, timerInfo⟩, AList.mem_lookup_iff.mp hlookup, hactive,
        hpromise⟩
    exact List.mem_append_right _ (List.mem_map_of_mem hmem)

theorem cancels_frame (hcancels : action = .cancel call.id ∨ action = .cancelAll)
    (hstep : step state action = some next) :
    next.calls = state.calls ∧ next.terminated = state.terminated := by
  obtain ⟨_, hmove⟩ := move_of_step hstep
  rcases hcancels with rfl | rfl
  · cases hmove
    obtain ⟨hcalls, _, hterminated, _⟩ := (cancelMove state call.id).frame
    exact ⟨hcalls, hterminated⟩
  · cases hmove
    exact ⟨rfl, rfl⟩

/-- A timer cancelled while its thread has not locked the mutex yet, or waits: the
next section of the thread sets the promise again. -/
theorem settled_twice (hreach : system.ReachableMeeting (KeepsPromise promise) state)
    (hrunning : state.terminated = false) (hget : state.calls[promise]? = some call)
    (hkind : call.kind = .asyncAfter duration callback)
    (hphase : call.phase = .start ∨ call.phase = .waiting)
    (hcancels : action = .cancel call.id ∨ action = .cancelAll)
    (hstep : step state action = some next) :
    ∃ turn final, step next (.turn promise turn) = some final ∧ ¬ SettledOnce promise final := by
  have hstage := (promiseInvariant_of_reachable hreach).staged call duration callback hget hkind
  obtain ⟨timerInfo, hlookup, hactive⟩ := hstage.active hphase
  have hopen : entriesOf promise state.settlements = [] := by
    rcases hstage.values_eq with hopen | ⟨hexited, _⟩
    · exact hopen
    · rcases hphase with hphase | hphase <;> rw [hphase] at hexited <;> cases hexited
  obtain ⟨hmissing, hset⟩ := cancels_promise hlookup hactive (hstage.promise_eq hphase hlookup)
    hopen hcancels hstep
  obtain ⟨hcalls, hterminated⟩ := cancels_frame hcancels hstep
  obtain ⟨turn, final, hturn, hvalues⟩ := sets_promise_of_missing (hterminated.trans hrunning)
    (hcalls ▸ hget) hkind hphase hmissing
  refine ⟨turn, final, hturn, ?_⟩
  intro hsettled
  have hfirst : 0 < (entriesOf promise next.settlements).length :=
    List.length_pos_of_mem (LabelledHistory.mem_entriesOf.mpr hset)
  have honce := hsettled.once
  rw [hvalues, List.length_append, List.length_singleton] at honce
  omega

end Cancelled

/-- `cancelAll` comes before the first lock of the thread, which finds no entry and
sets the promise a second time: the exception ends the program. -/
theorem cancelled_before_start : ∃ final, system.run initial
    [.call (.asyncAfter 5 true), .turn 0 (.create 0), .cancelAll, .turn 0 (.start 0 0 0)] =
      some final ∧ final.settlements = [(0, false), (0, false)] ∧ final.terminated = true ∧
        ¬ SettledOnce 0 final := by
  refine ⟨_, rfl, rfl, rfl, ?_⟩
  intro hsettled
  exact absurd hsettled.once (by decide)

end CppProj.Timer
