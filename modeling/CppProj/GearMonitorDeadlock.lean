import CppProj.GearMonitor

/-!
# When `GearMonitor` deadlocks

`resetTimer` keeps `timer_mutex_` while it joins the timer thread and while it
calls `start5MinuteTimer`, whose `stopTimer` asks for the same mutex.  It does so
exactly if it finds the timer active; in the runs in which it never does, no call
is ever nested below `resetTimer`, and all other paths release `timer_mutex_`
before they join.
-/

namespace CppProj.GearMonitor

variable {state next : State}

def ResetsInactive (state : State) : Action → Prop
  | .move index => state.calls[index]? = some .resetTest → state.timerActive = false
  | _ => True

instance (state : State) (action : Action) : Decidable (ResetsInactive state action) :=
  match action with
  | .move _ => inferInstanceAs (Decidable (_ → _))
  | .call _ | .timer _ | .timeout | .spuriousWakeup => isTrue trivial

namespace CallPhase

/-- The position lies in the active branch of `resetTimer`. -/
def restarts : CallPhase → Bool
  | .resetNotify | .resetJoinable | .resetJoin => true
  | .timerLock caller | .timerClear caller | .timerUnlock caller | .timerNotify caller
  | .timerJoinable caller | .timerJoin caller | .activate caller | .assignThread caller =>
      caller == .resetTimer
  | _ => false

/-- Outside of that branch a call asks for no mutex that it holds, and joins
without `timer_mutex_`. -/
theorem safe_of_not_restarts {phase : CallPhase} (houtside : phase.restarts = false) :
    (∀ which, phase.requests = some which → which ∉ phase.holds) ∧
      (phase.joins = true → .timerMutex ∉ phase.holds) := by
  cases phase with
  | timerLock caller | timerJoin caller =>
      cases caller <;> simp [restarts, requests, joins, holds, Caller.holds] at houtside ⊢
  | startLock | stopLock | messageLock gear | resetLock => simp [requests, joins, holds]
  | resetJoin => cases houtside
  | _ => simp [requests, joins]

end CallPhase

theorem Request.begin_not_restarts (request : Request) : request.begin.restarts = false := by
  cases request <;> rfl

theorem TimerPhase.not_requests_held (phase : TimerPhase) :
    ∀ which, phase.requests = some which → which ∉ phase.holds := by
  cases phase with
  | wait waiting => cases waiting <;> simp [requests, holds, WaitPhase.holdsMutex]
  | _ => simp [requests, holds]

/-! ## The effects of a step -/

/-- What a step of the call at `index` does to the calls and to the mutexes. -/
structure CallEffect (state : State) (index : ℕ) (phase after : CallPhase) (next : State) :
    Prop where
  calls : next.calls = state.calls.set index after
  holds : .timerMutex ∈ after.holds →
    .timerMutex ∈ phase.holds ∨ state.free .timerMutex = true
  restarts : after.restarts = true →
    phase.restarts = true ∨ phase = .resetTest ∧ state.timerActive = true
  timer : ∀ found, next.timer = some found → .timerMutex ∈ found.holds →
    ∃ before, state.timer = some before ∧ .timerMutex ∈ before.holds

theorem TimerPhase.holds_notify (phase : TimerPhase) : phase.notify.holds = phase.holds := by
  cases phase with
  | wait waiting => cases waiting <;> rfl
  | _ => rfl

theorem CallEffect.setCall {index : ℕ} {phase after : CallPhase}
    (hcalls : next.calls = state.calls.set index after) (htimer : next.timer = state.timer)
    (hholds : .timerMutex ∈ after.holds →
      .timerMutex ∈ phase.holds ∨ state.free .timerMutex = true)
    (hrestarts : after.restarts = true →
      phase.restarts = true ∨ phase = .resetTest ∧ state.timerActive = true) :
    CallEffect state index phase after next :=
  ⟨hcalls, hholds, hrestarts, fun found hfound hmem => ⟨found, htimer ▸ hfound, hmem⟩⟩

theorem callEffect_of_callStep {index : ℕ} {phase : CallPhase}
    (hstep : callStep state index phase = some next) :
    ∃ after, CallEffect state index phase after next := by
  cases phase with
  | startLock | stopLock | messageLock gear =>
      simp only [callStep] at hstep
      split_ifs at hstep
      cases hstep
      exact ⟨_, .setCall rfl rfl (by simp [CallPhase.holds]) (by simp [CallPhase.restarts])⟩
  | resetLock =>
      simp only [callStep] at hstep
      split_ifs at hstep with hfree
      cases hstep
      exact ⟨_, .setCall rfl rfl (fun _ => Or.inr hfree) (by simp [CallPhase.restarts])⟩
  | timerLock caller =>
      simp only [callStep] at hstep
      split_ifs at hstep with hfree
      cases hstep
      exact ⟨_, .setCall rfl rfl (fun _ => Or.inr hfree) Or.inl⟩
  | startTest | messageTest gear | messageCheck =>
      cases hstep
      refine ⟨_, .setCall rfl rfl ?_ ?_⟩ <;> split_ifs <;>
        simp [CallPhase.holds, CallPhase.restarts]
  | startSet =>
      cases hstep
      exact ⟨_, .setCall rfl rfl (by simp [CallPhase.holds, Caller.holds])
        (by simp [CallPhase.restarts])⟩
  | stopClear | stopUnlock | messageUpdate gear | unlock =>
      cases hstep
      exact ⟨_, .setCall rfl rfl (by simp [CallPhase.holds, Caller.holds])
        (by simp [CallPhase.restarts])⟩
  | resetTest =>
      cases hstep
      refine ⟨_, .setCall rfl rfl (fun _ => Or.inl (by simp [CallPhase.holds])) ?_⟩
      split_ifs with hactive
      · exact fun _ => Or.inr ⟨rfl, hactive⟩
      · simp [CallPhase.restarts]
  | resetUnlock =>
      cases hstep
      exact ⟨_, .setCall rfl rfl (fun _ => Or.inl (by simp [CallPhase.holds]))
        (by simp [CallPhase.restarts])⟩
  | resetNotify =>
      cases hstep
      refine ⟨.resetJoinable, rfl, fun _ => Or.inl (by simp [CallPhase.holds]),
        fun _ => Or.inl rfl, ?_⟩
      intro found hfound hmem
      obtain ⟨before, hbefore, rfl⟩ := Option.map_eq_some_iff.mp hfound
      exact ⟨before, hbefore, before.holds_notify ▸ hmem⟩
  | timerNotify caller =>
      cases hstep
      refine ⟨.timerJoinable caller, rfl, fun h => Or.inl h, fun h => Or.inl h, ?_⟩
      intro found hfound hmem
      obtain ⟨before, hbefore, rfl⟩ := Option.map_eq_some_iff.mp hfound
      exact ⟨before, hbefore, before.holds_notify ▸ hmem⟩
  | resetJoinable =>
      cases hstep
      exact ⟨_, .setCall rfl rfl (fun _ => Or.inl (by simp [CallPhase.holds]))
        fun _ => Or.inl rfl⟩
  | timerClear caller =>
      cases hstep
      exact ⟨_, .setCall rfl rfl (fun _ => Or.inl (by simp [CallPhase.holds])) Or.inl⟩
  | timerUnlock caller =>
      cases hstep
      exact ⟨_, .setCall rfl rfl (fun _ => Or.inl (by simp [CallPhase.holds])) Or.inl⟩
  | activate caller =>
      cases hstep
      exact ⟨_, .setCall rfl rfl Or.inl Or.inl⟩
  | timerJoinable caller =>
      cases hstep
      refine ⟨_, .setCall rfl rfl ?_ ?_⟩
      · split_ifs
        · exact Or.inl
        · cases caller <;>
            simp [CallPhase.holds, Caller.afterStopTimer, Caller.holds]
      · split_ifs
        · exact Or.inl
        · cases caller <;> simp [CallPhase.restarts, Caller.afterStopTimer]
  | resetJoin =>
      simp only [callStep] at hstep
      split_ifs at hstep
      cases hstep
      exact ⟨.timerLock .resetTimer, rfl, fun _ => Or.inl (by simp [CallPhase.holds]),
        fun _ => Or.inl rfl, by simp⟩
  | timerJoin caller =>
      simp only [callStep] at hstep
      split_ifs at hstep
      cases hstep
      refine ⟨caller.afterStopTimer, rfl, ?_, ?_, by simp⟩
      · cases caller <;> simp [CallPhase.holds, Caller.afterStopTimer, Caller.holds]
      · cases caller <;> simp [CallPhase.restarts, Caller.afterStopTimer]
  | assignThread caller =>
      simp only [callStep] at hstep
      split_ifs at hstep
      cases hstep
      refine ⟨caller.afterStart, rfl, ?_, ?_, by simp [TimerPhase.holds]⟩
      · cases caller <;> simp [CallPhase.holds, Caller.afterStart, Caller.holds]
      · cases caller <;> simp [CallPhase.restarts, Caller.afterStart]
  | returned => cases hstep

/-- The timer thread takes `timer_mutex_` only if nobody holds it, and leaves the
calls alone. -/
theorem timerEffect_of_timerStep {phase : TimerPhase} {expired : Bool}
    (hstep : timerStep state expired phase = some next) :
    next.calls = state.calls ∧ ∀ found, next.timer = some found →
      .timerMutex ∈ found.holds → .timerMutex ∈ phase.holds ∨ state.free .timerMutex = true := by
  cases phase with
  | lock | timedOut =>
      simp only [timerStep] at hstep
      split_ifs at hstep with hfree
      cases hstep
      exact ⟨rfl, fun _ _ _ => Or.inr hfree⟩
  | wait waiting =>
      cases waiting with
      | testing =>
          cases hstep
          exact ⟨rfl, fun _ _ _ => Or.inl (by simp [TimerPhase.holds, WaitPhase.holdsMutex])⟩
      | blocking =>
          cases hstep
          exact ⟨rfl, fun _ _ _ => Or.inl (by simp [TimerPhase.holds, WaitPhase.holdsMutex])⟩
      | blocked => cases hstep
      | notified =>
          simp only [timerStep] at hstep
          split_ifs at hstep with hfree
          cases hstep
          exact ⟨rfl, fun _ _ _ => Or.inr hfree⟩
  | testActive =>
      cases hstep
      refine ⟨rfl, ?_⟩
      rintro found ⟨⟩
      split_ifs <;> simp [TimerPhase.holds]
  | checkRemaining | callback | clearActive | lastTest | unlock last =>
      cases hstep
      exact ⟨rfl, fun _ _ _ => Or.inl (by simp [TimerPhase.holds])⟩
  | finished => cases hstep

/-! ## No call restarts the timer -/

def NoneRestarts (state : State) : Prop :=
  ∀ call ∈ state.calls, call.restarts = false

theorem step_noneRestarts {action : Action} (hinv : NoneRestarts state)
    (hinactive : ResetsInactive state action) (hstep : step state action = some next) :
    NoneRestarts next := by
  cases action with
  | call request =>
      cases hstep
      intro call hmem
      rcases List.mem_append.mp hmem with hold | hnew
      · exact hinv call hold
      · rw [List.mem_singleton] at hnew
        exact hnew ▸ request.begin_not_restarts
  | move index =>
      obtain ⟨phase, hget, hcall⟩ := Option.bind_eq_some_iff.mp hstep
      obtain ⟨after, heffect⟩ := callEffect_of_callStep hcall
      intro call hmem
      rw [heffect.calls] at hmem
      rcases List.mem_or_eq_of_mem_set hmem with hold | rfl
      · exact hinv call hold
      · by_contra hrestarts
        rcases heffect.restarts (by simpa using hrestarts) with hbefore | ⟨rfl, hactive⟩
        · rw [hinv phase (List.mem_of_getElem? hget)] at hbefore
          cases hbefore
        · rw [hinactive hget] at hactive
          cases hactive
  | timer expired =>
      obtain ⟨phase, _, htimer⟩ := Option.bind_eq_some_iff.mp hstep
      rw [NoneRestarts, (timerEffect_of_timerStep htimer).1]
      exact hinv
  | timeout | spuriousWakeup =>
      simp only [step] at hstep
      split_ifs at hstep
      cases hstep
      exact hinv

/-- In a run in which `resetTimer` always finds the timer inactive, no thread asks
for a mutex that it holds and none joins the timer thread under a mutex that
thread needs. -/
theorem deadlock_free (state : State)
    (hreach : system.ReachableMeeting ResetsInactive state) :
    ¬ SelfLock state ∧ ¬ JoinsHolding state := by
  have hinv : NoneRestarts state := by
    apply hreach.invariant NoneRestarts (by simp [NoneRestarts, system, initial])
    intro state action next hinv hinactive hstep
    exact step_noneRestarts hinv hinactive hstep
  constructor
  · rintro (⟨call, hmem, which, hrequests, hholds⟩ | ⟨phase, _, which, hrequests, hholds⟩)
    · exact (CallPhase.safe_of_not_restarts (hinv call hmem)).1 which hrequests hholds
    · exact phase.not_requests_held which hrequests hholds
  · rintro ⟨call, hmem, hjoins, hholds, _⟩
    exact (CallPhase.safe_of_not_restarts (hinv call hmem)).2 hjoins hholds

/-- After the five minutes a message takes the gear out of P and finds the timer
inactive; `stopMonitoring` then joins the timer thread. -/
theorem deadlock_free_expired :
    ∃ state, system.ReachableMeeting ResetsInactive state ∧
      state.calls = List.replicate 3 .returned ∧ ¬ SelfLock state ∧ ¬ JoinsHolding state := by
  obtain ⟨state, hrun, hcalls⟩ :
      ∃ state, system.run initial
          (List.flatten [.call .startMonitoring :: List.replicate 11 (.move 0),
            [.timer false, .timer false, .timer true], List.replicate 3 (.timer false),
            .call (.processCanMessage .NON_P) :: List.replicate 8 (.move 1),
            .call .stopMonitoring :: List.replicate 9 (.move 2)]) = some state ∧
        state.calls = List.replicate 3 .returned :=
    ⟨_, rfl, rfl⟩
  have hreach : system.ReachableMeeting ResetsInactive state := ⟨_, hrun, by decide⟩
  obtain ⟨hselfLock, hjoins⟩ := deadlock_free state hreach
  exact ⟨state, hreach, hcalls, hselfLock, hjoins⟩

/-! ## The active branch -/

theorem free_iff {which : Mutex} : state.free which = true ↔
    (∀ call ∈ state.calls, which ∉ call.holds) ∧
      ∀ phase, state.timer = some phase → which ∉ phase.holds := by
  cases htimer : state.timer <;> simp [State.free, htimer]

/-- While the timer thread holds `timer_mutex_`, no call does. -/
def TimerExcludes (state : State) : Prop :=
  ∀ phase, state.timer = some phase → .timerMutex ∈ phase.holds →
    ∀ call ∈ state.calls, .timerMutex ∉ call.holds

theorem step_timerExcludes {action : Action} (hinv : TimerExcludes state)
    (hstep : step state action = some next) : TimerExcludes next := by
  cases action with
  | call request =>
      cases hstep
      intro phase htimer hholds call hmem
      rcases List.mem_append.mp hmem with hold | hnew
      · exact hinv phase htimer hholds call hold
      · rw [List.mem_singleton] at hnew
        subst hnew
        cases request <;> simp [Request.begin, CallPhase.holds]
  | move index =>
      obtain ⟨phase, hget, hcall⟩ := Option.bind_eq_some_iff.mp hstep
      obtain ⟨after, heffect⟩ := callEffect_of_callStep hcall
      intro found htimer hholds call hmem
      obtain ⟨before, hbefore, hheld⟩ := heffect.timer found htimer hholds
      rw [heffect.calls] at hmem
      rcases List.mem_or_eq_of_mem_set hmem with hold | rfl
      · exact hinv before hbefore hheld call hold
      · intro hboth
        rcases heffect.holds hboth with hphase | hfree
        · exact hinv before hbefore hheld phase (List.mem_of_getElem? hget) hphase
        · exact (free_iff.mp hfree).2 before hbefore hheld
  | timer expired =>
      obtain ⟨phase, hphase, htimer⟩ := Option.bind_eq_some_iff.mp hstep
      obtain ⟨hcalls, heffect⟩ := timerEffect_of_timerStep htimer
      intro found hfound hholds call hmem
      rw [hcalls] at hmem
      rcases heffect found hfound hholds with hheld | hfree
      · exact hinv phase hphase hheld call hmem
      · exact (free_iff.mp hfree).1 call hmem
  | timeout | spuriousWakeup =>
      simp only [step] at hstep
      split_ifs at hstep
      cases hstep
      rintro phase ⟨⟩ hholds
      simp [TimerPhase.holds, WaitPhase.holdsMutex] at hholds

/-- A timer thread that neither holds `timer_mutex_` nor has to acquire it has
ended, once the timer is active. -/
theorem TimerPhase.eq_finished {phase : TimerPhase} (hholds : .timerMutex ∉ phase.holds)
    (hmust : phase.notify.mustAcquire true = false) : phase = .finished := by
  cases phase with
  | wait waiting =>
      cases waiting <;>
        simp [holds, notify, WaitPhase.notify, mustAcquire, WaitPhase.holdsMutex] at hholds hmust
  | finished => rfl
  | _ => simp [holds, notify, mustAcquire] at hholds hmust

theorem reachableFrom_move {start : State} {index : ℕ} {phase : CallPhase}
    (hreach : system.ReachableFrom start state) (hget : state.calls[index]? = some phase)
    (hcall : callStep state index phase = some next) : system.ReachableFrom start next := by
  have hstep : system.step state (.move index) = some next := by
    simp [system, step, hget, hcall]
  exact hreach.tail hstep

theorem selfLock_of_timerLock {index : ℕ}
    (hget : state.calls[index]? = some (.timerLock .resetTimer)) : SelfLock state :=
  Or.inl ⟨_, List.mem_of_getElem? hget, .timerMutex, rfl, by simp [CallPhase.holds, Caller.holds]⟩

/-- A call of `resetTimer` that finds the timer active deadlocks by its own next
steps: it joins the timer thread that waits for `timer_mutex_`, or it asks for
that mutex a second time. -/
theorem deadlock_of_active (hreach : system.Reachable state) {action : Action}
    (hactive : ¬ ResetsInactive state action) (hstep : step state action = some next) :
    ∃ final, system.ReachableFrom next final ∧ (SelfLock final ∨ JoinsHolding final) := by
  have hexcludes : TimerExcludes state := by
    apply hreach.invariant TimerExcludes (by simp [TimerExcludes, system, initial])
    intro state action next hinv hstep
    exact step_timerExcludes hinv hstep
  cases action with
  | call request | timer expired | timeout | spuriousWakeup => exact (hactive trivial).elim
  | move index =>
      simp only [ResetsInactive, Classical.not_imp, Bool.not_eq_false] at hactive
      obtain ⟨hget, hflag⟩ := hactive
      have houtside : ∀ phase, state.timer = some phase → .timerMutex ∉ phase.holds := by
        intro phase htimer hholds
        apply hexcludes phase htimer hholds .resetTest (List.mem_of_getElem? hget)
        simp [CallPhase.holds]
      have hnext : next = state.setCall index .resetNotify := by
        simp only [step, hget, Option.bind_some, callStep, if_pos hflag, Option.some.injEq]
          at hstep
        exact hstep.symm
      subst hnext
      have hself : ∀ (calls : List CallPhase) (phase : CallPhase), calls.length =
          state.calls.length → (calls.set index phase)[index]? = some phase := by
        intro calls phase hlength
        have hlt := (List.getElem?_eq_some_iff.mp hget).1
        simp [hlength, hlt]
      let notified : State :=
        { state.setCall index .resetJoinable with timer := state.timer.map TimerPhase.notify }
      have hnotified : system.ReachableFrom (state.setCall index .resetNotify) notified := by
        apply reachableFrom_move (.refl _) (hself _ _ rfl)
        simp [callStep, State.setCall, notified]
      have hjoinable : notified.calls[index]? = some .resetJoinable := hself _ _ rfl
      cases htimer : state.timer with
      | none =>
          have hlock : system.ReachableFrom (state.setCall index .resetNotify)
              (notified.setCall index (.timerLock .resetTimer)) := by
            apply reachableFrom_move hnotified hjoinable
            simp [callStep, notified, htimer]
          exact ⟨_, hlock,
            Or.inl (selfLock_of_timerLock (hself _ _ (by simp [notified, State.setCall])))⟩
      | some phase =>
          have hjoin : system.ReachableFrom (state.setCall index .resetNotify)
              (notified.setCall index .resetJoin) := by
            apply reachableFrom_move hnotified hjoinable
            simp [callStep, notified, htimer]
          have hjoining : (notified.setCall index .resetJoin).calls[index]? = some .resetJoin :=
            hself _ _ (by simp [notified, State.setCall])
          by_cases hmust : phase.notify.mustAcquire true = true
          · refine ⟨_, hjoin,
              Or.inr ⟨_, List.mem_of_getElem? hjoining, rfl, ?_, phase.notify, ?_, ?_⟩⟩
            · simp [CallPhase.holds]
            · simp [notified, State.setCall, htimer]
            · simpa [notified, State.setCall, hflag] using hmust
          · -- the thread has ended, and the restart asks for the mutex again
            have hfinished := TimerPhase.eq_finished (houtside phase htimer) (by simpa using hmust)
            subst hfinished
            have hlock : system.ReachableFrom (state.setCall index .resetNotify)
                { (notified.setCall index .resetJoin).setCall index (.timerLock .resetTimer) with
                  timer := none } := by
              apply reachableFrom_move hjoin hjoining
              simp [callStep, notified, State.setCall, htimer, TimerPhase.notify]
            exact ⟨_, hlock,
              Or.inl (selfLock_of_timerLock (hself _ _ (by simp [notified, State.setCall])))⟩

/-- A message takes the gear out of P while the timer thread sleeps: the call joins
that thread under the `timer_mutex_` it has to take again. -/
theorem reset_joins_holding :
    ∃ state, system.Reachable state ∧ JoinsHolding state := by
  obtain ⟨state, hrun, hcall, htimer⟩ :
      ∃ state, system.run initial
          (List.flatten [.call .startMonitoring :: List.replicate 11 (.move 0),
            List.replicate 5 (.timer false),
            .call (.processCanMessage .NON_P) :: List.replicate 8 (.move 1)]) = some state ∧
        state.calls[1]? = some .resetJoin ∧ state.timer = some (.wait .notified) :=
    ⟨_, rfl, rfl, rfl⟩
  refine ⟨state, ⟨_, hrun⟩, .resetJoin, List.mem_of_getElem? hcall, rfl, ?_, _, htimer, rfl⟩
  simp [CallPhase.holds]

end CppProj.GearMonitor
