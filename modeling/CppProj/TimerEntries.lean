import CppProj.TimerTransitions

/-!
# When the references of `Timer` stay valid

A waiting function keeps a reference to its entry while the lock is released, and
`cancel` and `cancelAll` erase the entries that they mark.  The functions find
their entries as long as neither erases one that a function still holds; erased
under a function, the entry is missing at that function's next access.
-/

namespace CppProj.Timer

/-- The call will use the reference that it has kept.  The thread of `asyncAfter`
uses it for the last time when it calls the callback. -/
def holdsReference : Kind → Phase → Bool
  | .blockFor _, .waiting | .asyncAfter _ _, .waiting | .asyncAfter _ _, .calling => true
  | .asyncEvery _ _, .waitingUntil _ | .asyncEvery _ _, .callback => true
  | .asyncEvery _ _, .relock => true
  | .asyncEvery _ callback, .calling => callback
  | _, _ => false

/-- The step takes no entry away from a call that holds a reference to it, and no
new call shares the id of an unfinished one. -/
def KeepsEntries (state : State) : Action → Prop
  | .call _ => FreshId state
  | .turn _ _ => True
  | .cancel id =>
      ∀ call ∈ state.calls, holdsReference call.kind call.phase = true → call.id = id →
        ∀ timerInfo ∈ state.timers.lookup id, ¬ timerInfo.Active
  | .cancelAll => ∀ call ∈ state.calls, holdsReference call.kind call.phase = false

instance (state : State) : (action : Action) → Decidable (KeepsEntries state action)
  | .call _ => inferInstanceAs (Decidable (FreshId state))
  | .turn _ _ => .isTrue trivial
  | .cancel id => inferInstanceAs (Decidable (∀ call ∈ state.calls,
      holdsReference call.kind call.phase = true → call.id = id →
        ∀ timerInfo ∈ state.timers.lookup id, ¬ timerInfo.Active))
  | .cancelAll => inferInstanceAs (Decidable (∀ call ∈ state.calls,
      holdsReference call.kind call.phase = false))

structure EntriesInvariant (state : State) : Prop where
  distinct : DistinctIds state.calls
  present : ∀ (index : ℕ) (call : Call), state.calls[index]? = some call →
    holdsReference call.kind call.phase = true →
      (state.timers.lookup call.id).isSome = true
  accessed : state.missingAccess = false

theorem initial_entriesInvariant : EntriesInvariant initial := by
  constructor <;> simp [initial, DistinctIds]

theorem finished_of_holdsReference {kind : Kind} {phase : Phase}
    (hholds : holdsReference kind phase = true) : phase.finished = false := by
  cases phase with
  | returned result => cases kind <;> cases hholds
  | exited => cases kind <;> cases hholds
  | _ => rfl

/-! ## Sections -/

/-- The section has found what it looked for, and leaves the entry that the call
still needs. -/
structure Outcome.Keeps (kind : Kind) (outcome : Outcome) : Prop where
  found : outcome.missing = false
  kept : holdsReference kind outcome.phase = true → outcome.entry.isSome = true

namespace Outcome

theorem keeps_some (kind : Kind) (phase : Phase) (timerInfo : TimerInfo) :
    (quiet phase (some timerInfo)).Keeps kind :=
  ⟨rfl, fun _ => rfl⟩

theorem keeps_of_not_holds {kind : Kind} {outcome : Outcome} (hfound : outcome.missing = false)
    (hfree : holdsReference kind outcome.phase = false) : outcome.Keeps kind := by
  refine ⟨hfound, ?_⟩
  intro hholds
  rw [hfree] at hholds
  cases hholds

theorem keeps_throughReference {kind : Kind} {entry : Option TimerInfo} {stale : TimerInfo}
    {body : TimerInfo → Outcome} (hpresent : entry.isSome = true)
    (hbody : ∀ timerInfo, (body timerInfo).Keeps kind) :
    (throughReference entry stale body).Keeps kind := by
  obtain ⟨timerInfo, rfl⟩ := Option.isSome_iff_exists.mp hpresent
  exact hbody timerInfo

end Outcome

theorem blockForStart_keeps (duration : ℤ) (entry : Option TimerInfo) :
    (blockForStart entry).Keeps (.blockFor duration) := by
  unfold blockForStart
  dsimp only
  split_ifs
  · exact Outcome.keeps_some _ _ _
  · exact Outcome.keeps_of_not_holds rfl rfl

theorem blockForWake_keeps (duration : ℤ) (timedOut : Bool) (timerInfo : TimerInfo) :
    (blockForWake timedOut timerInfo).Keeps (.blockFor duration) := by
  unfold blockForWake
  split_ifs
  · exact Outcome.keeps_of_not_holds rfl rfl
  · exact Outcome.keeps_some _ _ _
  · exact Outcome.keeps_of_not_holds rfl rfl

theorem asyncTimerThreadStart_keeps (duration : ℤ) (callback : Bool) (entry : Option TimerInfo) :
    (asyncTimerThreadStart entry).Keeps (.asyncAfter duration callback) := by
  cases entry with
  | none => exact Outcome.keeps_of_not_holds rfl rfl
  | some timerInfo => exact Outcome.keeps_some _ _ _

theorem asyncTimerThreadWake_keeps (duration : ℤ) (callback timedOut : Bool)
    (timerInfo : TimerInfo) :
    (asyncTimerThreadWake timedOut timerInfo).Keeps (.asyncAfter duration callback) := by
  unfold asyncTimerThreadWake
  split_ifs
  · exact Outcome.keeps_some _ _ _
  · exact Outcome.keeps_of_not_holds rfl rfl
  · exact Outcome.keeps_some _ _ _
  · exact Outcome.keeps_of_not_holds rfl rfl

theorem asyncTimerThreadCall_keeps (duration : ℤ) (callback : Bool) (timerInfo : TimerInfo) :
    (asyncTimerThreadCall timerInfo).Keeps (.asyncAfter duration callback) := by
  unfold asyncTimerThreadCall
  split_ifs <;> exact ⟨rfl, fun _ => rfl⟩

theorem periodicTimerThreadAfterWait_keeps (interval : ℤ) (callback : Bool) (nextExpiry now : ℤ)
    (timerInfo : TimerInfo) :
    (periodicTimerThreadAfterWait nextExpiry now timerInfo).Keeps
      (.asyncEvery interval callback) := by
  unfold periodicTimerThreadAfterWait
  split_ifs
  · exact Outcome.keeps_of_not_holds rfl rfl
  · exact Outcome.keeps_some _ _ _
  · exact Outcome.keeps_some _ _ _

theorem periodicTimerThreadStart_keeps (interval : ℤ) (callback : Bool) (now test after : ℤ)
    (entry : Option TimerInfo) :
    (periodicTimerThreadStart interval now test after entry).Keeps
      (.asyncEvery interval callback) := by
  cases entry with
  | none => exact Outcome.keeps_of_not_holds rfl rfl
  | some timerInfo =>
      simp only [periodicTimerThreadStart]
      split_ifs
      · exact Outcome.keeps_some _ _ _
      · exact Outcome.keeps_some _ _ _
      · exact periodicTimerThreadAfterWait_keeps _ _ _ _ _

theorem periodicTimerThreadWake_keeps (interval : ℤ) (callback : Bool) (nextExpiry : ℤ)
    (timedOut : Bool) (test after : ℤ) (timerInfo : TimerInfo) :
    (periodicTimerThreadWake nextExpiry timedOut test after timerInfo).Keeps
      (.asyncEvery interval callback) := by
  unfold periodicTimerThreadWake
  split_ifs
  · exact Outcome.keeps_some _ _ _
  · exact periodicTimerThreadAfterWait_keeps _ _ _ _ _

theorem periodicTimerThreadCall_keeps (interval : ℤ) (callback : Bool)
    {entry : Option TimerInfo} (hpresent : callback = true → entry.isSome = true) :
    (periodicTimerThreadCall callback entry).Keeps (.asyncEvery interval callback) := by
  unfold periodicTimerThreadCall
  split_ifs with hcallback
  · exact ⟨rfl, fun _ => hpresent hcallback⟩
  · rw [Bool.not_eq_true] at hcallback
    exact Outcome.keeps_of_not_holds rfl hcallback

theorem periodicTimerThreadRelock_keeps (interval : ℤ) (callback : Bool) (now : ℤ)
    (timerInfo : TimerInfo) :
    (periodicTimerThreadRelock interval now timerInfo).Keeps (.asyncEvery interval callback) := by
  unfold periodicTimerThreadRelock
  split_ifs <;> exact Outcome.keeps_some _ _ _

theorem criticalSection_keeps {index : ℕ} {call : Call} {entry : Option TimerInfo} {turn : Turn}
    {outcome : Outcome} (hsection : criticalSection index call entry turn = some outcome)
    (hpresent : holdsReference call.kind call.phase = true → entry.isSome = true) :
    outcome.Keeps call.kind := by
  obtain ⟨id, kind, phase⟩ := call
  dsimp only at hpresent ⊢
  cases kind with
  | blockFor duration =>
      cases phase with
      | create =>
          cases turn <;> cases hsection
          exact Outcome.keeps_some _ _ _
      | start =>
          cases turn <;> cases hsection
          exact blockForStart_keeps _ _
      | waiting =>
          cases turn <;> cases hsection
          exact Outcome.keeps_throughReference (hpresent rfl) fun _ => blockForWake_keeps _ _ _
      | _ => cases turn <;> cases hsection
  | asyncAfter duration callback =>
      cases phase with
      | create =>
          cases turn <;> cases hsection
          exact Outcome.keeps_some _ _ _
      | start =>
          cases turn <;> cases hsection
          exact asyncTimerThreadStart_keeps _ _ _
      | waiting =>
          cases turn <;> cases hsection
          exact Outcome.keeps_throughReference (hpresent rfl) fun _ =>
            asyncTimerThreadWake_keeps _ _ _ _
      | calling =>
          cases turn <;> cases hsection
          exact Outcome.keeps_throughReference (hpresent rfl) fun _ =>
            asyncTimerThreadCall_keeps _ _ _
      | callback | relock =>
          cases turn <;> cases hsection
          exact Outcome.keeps_of_not_holds rfl rfl
      | _ => cases turn <;> cases hsection
  | asyncEvery interval callback =>
      cases phase with
      | create =>
          cases turn <;> cases hsection
          exact Outcome.keeps_some _ _ _
      | start =>
          cases turn <;> cases hsection
          exact periodicTimerThreadStart_keeps _ _ _ _ _ _
      | waitingUntil nextExpiry =>
          cases turn <;> cases hsection
          exact Outcome.keeps_throughReference (hpresent rfl) fun _ =>
            periodicTimerThreadWake_keeps _ _ _ _ _ _ _
      | calling =>
          cases turn <;> cases hsection
          exact periodicTimerThreadCall_keeps _ _ hpresent
      | callback =>
          cases turn <;> cases hsection
          exact ⟨rfl, fun _ => hpresent rfl⟩
      | relock =>
          cases turn <;> cases hsection
          exact Outcome.keeps_throughReference (hpresent rfl) fun _ =>
            periodicTimerThreadRelock_keeps _ _ _ _
      | _ => cases turn <;> cases hsection

/-! ## Steps -/

namespace EntriesInvariant

variable {state : State}

theorem addCall (hinv : EntriesInvariant state) (hfresh : FreshId state) (kind : Kind) :
    EntriesInvariant (state.addCall kind) := by
  refine ⟨hinv.distinct.addCall hfresh kind, ?_, hinv.accessed⟩
  intro index call hget hholds
  have hlast : call ∈ state.calls ∨ call = ⟨state.nextId, kind, .create⟩ := by
    simpa [State.addCall] using List.mem_of_getElem? hget
  rcases hlast with hold | rfl
  · obtain ⟨position, hposition⟩ := List.mem_iff_getElem?.mp hold
    exact hinv.present position call hposition hholds
  · cases kind <;> cases hholds

theorem update {index : ℕ} {call : Call} {turn : Turn} {outcome : Outcome}
    (hinv : EntriesInvariant state) (hget : state.calls[index]? = some call)
    (hsection : criticalSection index call (state.timers.lookup call.id) turn = some outcome) :
    EntriesInvariant (state.update index call outcome) := by
  have hkeeps := criticalSection_keeps hsection (hinv.present index call hget)
  have hrunning := unfinished_of_section hsection
  refine ⟨hinv.distinct.update hget hrunning outcome, ?_, ?_⟩
  · intro other found hfound hholds
    rcases ListUpdate.getElem?_set_cases hfound with ⟨_, rfl⟩ | ⟨hne, hold⟩
    · show ((state.update index call outcome).timers.lookup call.id).isSome = true
      rw [lookup_update_self]
      exact hkeeps.kept hholds
    · have hid : found.id ≠ call.id := by
        intro heq
        exact hne (hinv.distinct index other call found hget hold hrunning
          (finished_of_holdsReference hholds) heq.symm)
      rw [lookup_update_of_ne hid]
      exact hinv.present other found hold hholds
  · simp [State.update, hinv.accessed, hkeeps.found]

theorem cancel {id : UInt64} (hinv : EntriesInvariant state)
    (hkeeps : KeepsEntries state (.cancel id)) : EntriesInvariant (state.cancel id).2 := by
  obtain ⟨hcalls, hmissing, _, _⟩ := (cancelMove state id).frame
  refine ⟨hcalls ▸ hinv.distinct, ?_, hmissing.trans hinv.accessed⟩
  intro index call hget hholds
  rw [hcalls] at hget
  have hinactive : id = call.id → ∀ timerInfo ∈ state.timers.lookup id, ¬ timerInfo.Active :=
    fun hid => hkeeps call (List.mem_of_getElem? hget) hholds hid.symm
  rw [(cancelMove state id).lookup hinactive]
  exact hinv.present index call hget hholds

theorem cancelAll (hinv : EntriesInvariant state) (hkeeps : KeepsEntries state .cancelAll) :
    EntriesInvariant state.cancelAll := by
  refine ⟨hinv.distinct, ?_, hinv.accessed⟩
  intro index call hget hholds
  rw [hkeeps call (List.mem_of_getElem? hget)] at hholds
  cases hholds

end EntriesInvariant

theorem step_entriesInvariant {state next : State} {action : Action}
    (hinv : EntriesInvariant state) (hkeeps : KeepsEntries state action)
    (hstep : step state action = some next) : EntriesInvariant next := by
  obtain ⟨_, hmove⟩ := move_of_step hstep
  cases hmove with
  | call kind => exact hinv.addCall hkeeps kind
  | turn index turn call outcome hget hsection => exact hinv.update hget hsection
  | cancel id => exact hinv.cancel hkeeps
  | cancelAll => exact hinv.cancelAll hkeeps

theorem entriesInvariant_of_reachable {state : State}
    (hreach : system.ReachableMeeting KeepsEntries state) : EntriesInvariant state :=
  hreach.invariant EntriesInvariant initial_entriesInvariant
    fun _ _ _ hinv hkeeps hstep => step_entriesInvariant hinv hkeeps hstep

theorem entry_present {state : State} (hreach : system.ReachableMeeting KeepsEntries state) :
    state.missingAccess = false :=
  (entriesInvariant_of_reachable hreach).accessed

/-- Timers of the three kinds, one after the other, and a periodic one that is
cancelled before its thread has started. -/
def threeKinds : List Action :=
  [.call (.blockFor 5), .turn 0 (.create 0), .turn 0 (.start 0 0 0),
    .turn 0 (.wake true 0 0 .default),
    .call (.asyncAfter 5 true), .turn 1 (.create 0), .turn 1 (.start 0 0 0),
    .turn 1 (.wake true 0 0 .default), .turn 1 (.call .default), .turn 1 .finish,
    .turn 1 (.relock 0 .default),
    .call (.asyncEvery 5 true), .turn 2 (.create 0), .turn 2 (.start 0 0 0),
    .turn 2 (.wake true 0 5 .default), .turn 2 (.call .default), .turn 2 .finish,
    .turn 2 (.relock 5 .default), .cancel 3, .turn 2 (.start 0 0 0)]

theorem entry_present_threeKinds : ∃ final, system.run initial threeKinds = some final ∧
    final.calls.map Call.phase = [.returned true, .exited, .exited] ∧
      final.missingAccess = false :=
  ⟨_, rfl, rfl, entry_present ⟨threeKinds, rfl, by decide⟩⟩

/-! ## An entry erased under a function -/

section Erased

variable {state next : State} {index : ℕ} {call : Call} {turn : Turn} {outcome : Outcome}

/-- Some continuation of the run accesses a missing entry. -/
def WillMiss (state : State) : Prop :=
  ∃ actions final, system.run state actions = some final ∧ final.missingAccess = true

theorem WillMiss.of_step {action : Action} (hstep : step state action = some next)
    (hmiss : WillMiss next) : WillMiss state := by
  obtain ⟨actions, final, hrun, hmissing⟩ := hmiss
  exact ⟨action :: actions, final, TransitionSystem.run_cons_eq_some.mpr ⟨next, hstep, hrun⟩,
    hmissing⟩

/-- A held reference whose entry has gone. -/
structure Erased (state : State) (index : ℕ) (call : Call) : Prop where
  running : state.terminated = false
  here : state.calls[index]? = some call
  missing : state.timers.lookup call.id = none

theorem Erased.access (herased : Erased state index call) (turn : Turn)
    (hsection : criticalSection index call none turn = some outcome)
    (hmissing : outcome.missing = true) : WillMiss state := by
  rw [← herased.missing] at hsection
  have hstep := step_turn turn herased.running herased.here hsection
  exact WillMiss.of_step hstep ⟨[], _, rfl, by simp [State.update, hmissing]⟩

/-- A section that does not use the reference leaves the entry missing. -/
theorem Erased.advance {phase : Phase} {ran : Bool} (herased : Erased state index call)
    (turn : Turn)
    (hsection : criticalSection index call none turn =
      some { Outcome.quiet phase none with ran := ran })
    (hmiss : ∀ later, Erased later index { call with phase := phase } → WillMiss later) :
    WillMiss state := by
  have hstep := step_turn turn herased.running herased.here
    (by rw [herased.missing]; exact hsection)
  refine WillMiss.of_step hstep (hmiss _ ?_)
  refine ⟨?_, ListUpdate.getElem?_set_self herased.here _, ?_⟩
  · simp [State.update, State.Throws, Outcome.quiet]
  · show (state.update index call _).timers.lookup call.id = none
    rw [lookup_update_self]
    rfl

theorem Erased.willMiss (herased : Erased state index call)
    (hholds : holdsReference call.kind call.phase = true) : WillMiss state := by
  obtain ⟨id, kind, phase⟩ := call
  have hrelock : ∀ interval callback later,
      Erased later index ⟨id, .asyncEvery interval callback, .relock⟩ → WillMiss later := by
    intro interval callback later hlater
    exact hlater.access (.relock 0 .default) rfl rfl
  have hcallback : ∀ interval callback later,
      Erased later index ⟨id, .asyncEvery interval callback, .callback⟩ → WillMiss later := by
    intro interval callback later hlater
    exact hlater.advance .finish rfl (hrelock interval callback)
  cases kind with
  | blockFor duration =>
      cases phase with
      | waiting => exact herased.access (.wake true 0 0 .default) rfl rfl
      | _ => cases hholds
  | asyncAfter duration callback =>
      cases phase with
      | waiting => exact herased.access (.wake true 0 0 .default) rfl rfl
      | calling => exact herased.access (.call .default) rfl rfl
      | _ => cases hholds
  | asyncEvery interval callback =>
      cases phase with
      | waitingUntil nextExpiry =>
          exact herased.access (.wake true 0 0 .default) rfl rfl
      | calling =>
          obtain rfl : callback = true := hholds
          exact herased.advance (.call .default) rfl (hcallback interval true)
      | callback => exact hcallback interval callback state herased
      | relock => exact hrelock interval callback state herased
      | _ => cases hholds

/-- Where a `cancel` that returns, or `cancelAll`, erases the entry of a reference
that is held, an access to the missing entry can follow. -/
theorem willMiss_of_not_keepsEntries {action : Action}
    (hcancels : action = .cancelAll ∨ ∃ id, action = .cancel id ∧ (state.cancel id).1 = some true)
    (hbreaks : ¬ KeepsEntries state action) (hstep : step state action = some next) :
    WillMiss next := by
  obtain ⟨hrunning, hmove⟩ := move_of_step hstep
  rcases hcancels with rfl | ⟨id, rfl, hreturns⟩
  · obtain ⟨call, hmem, hholds⟩ : ∃ call ∈ state.calls,
        holdsReference call.kind call.phase = true := by
      by_contra hnone
      apply hbreaks
      intro call hmem
      rw [← Bool.not_eq_true]
      exact fun hholds => hnone ⟨call, hmem, hholds⟩
    obtain ⟨index, hget⟩ := List.mem_iff_getElem?.mp hmem
    cases hmove
    exact Erased.willMiss ⟨hrunning, hget, AList.lookup_empty _⟩ hholds
  · obtain ⟨call, hmem, hholds, hid⟩ : ∃ call ∈ state.calls,
        holdsReference call.kind call.phase = true ∧ call.id = id := by
      by_contra hnone
      apply hbreaks
      intro call hmem hholds hid
      exact (hnone ⟨call, hmem, hholds, hid⟩).elim
    obtain ⟨index, hget⟩ := List.mem_iff_getElem?.mp hmem
    obtain ⟨hcalls, _, hterminated, _⟩ := (cancelMove state id).frame
    cases hmove
    have hmissing := (cancelMove state id).lookup_self hreturns
    rw [← hid] at hmissing
    exact Erased.willMiss ⟨hterminated.trans hrunning, hcalls ▸ hget, hid ▸ hmissing⟩ hholds

end Erased

/-- `cancel` erases the entry of the periodic thread, which reads its state when it
wakes up. -/
theorem cancel_under_periodicTimerThread : ∃ final, system.run initial
    [.call (.asyncEvery 5 true), .turn 0 (.create 0), .turn 0 (.start 0 0 0), .cancel 1,
      .turn 0 (.wake true 0 5 .default)] = some final ∧ final.missingAccess = true :=
  ⟨_, rfl, rfl⟩

end CppProj.Timer
