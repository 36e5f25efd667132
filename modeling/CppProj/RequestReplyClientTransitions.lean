import CppProj.RequestReplyClientApp

/-!
# What one step of the client can do

The counterpart of `RequestReplyServerTransitions` for `ClientApp`.
-/

namespace CppProj.RequestReply.ClientApp

/-- The steps of the thread in `run` that send nothing. -/
inductive RunMove (state : State) : RunPhase → Prop where
  | acquireMatch
      (hthread : state.runThread = .lockForMatch ∨
        state.runThread = .waitForMatch .notified) :
      RunMove state (.waitForMatch .testing)
  | matchTrue (hthread : state.runThread = .waitForMatch .testing) :
      RunMove state .testBeforeGrace
  | matchFalse (hthread : state.runThread = .waitForMatch .testing)
      (hstop : state.stop = false) : RunMove state (.waitForMatch .blocking)
  | matchBlock (hthread : state.runThread = .waitForMatch .blocking) :
      RunMove state (.waitForMatch .blocked)
  | skipGrace (hthread : state.runThread = .testBeforeGrace) :
      RunMove state .testBeforeSend
  | lockGrace (hthread : state.runThread = .testBeforeGrace) :
      RunMove state .lockForGrace
  | acquireGrace
      (hthread : state.runThread = .lockForGrace ∨
        state.runThread = .graceWait .notified) :
      RunMove state (.graceWait .testing)
  | graceTrue (hthread : state.runThread = .graceWait .testing) :
      RunMove state .testBeforeSend
  | graceFalse (hthread : state.runThread = .graceWait .testing) :
      RunMove state (.graceWait .blocking)
  | graceBlock (hthread : state.runThread = .graceWait .blocking) :
      RunMove state (.graceWait .blocked)
  | graceOver (hthread : state.runThread = .graceExpired) :
      RunMove state .testBeforeSend
  | stoppedBeforeSend (hthread : state.runThread = .testBeforeSend)
      (hstop : state.stop = true) : RunMove state .returned
  | startSend (hthread : state.runThread = .testBeforeSend)
      (hstop : state.stop = false) :
      RunMove state (.send firstOperation furtherOperations)
  | acquireReplies
      (hthread : state.runThread = .lockForReplies ∨
        state.runThread = .waitForReplies .notified) :
      RunMove state (.waitForReplies .testing)
  | repliesTrue (hthread : state.runThread = .waitForReplies .testing)
      (hstop : state.stop = true) : RunMove state .returned
  | repliesFalse (hthread : state.runThread = .waitForReplies .testing)
      (hstop : state.stop = false) : RunMove state (.waitForReplies .blocking)
  | repliesBlock (hthread : state.runThread = .waitForReplies .blocking) :
      RunMove state (.waitForReplies .blocked)

theorem runStep_eq_some {state next : State} (hstep : runStep state = some next) :
    ∃ phase, next = { state with runThread := phase } ∧ RunMove state phase := by
  unfold runStep at hstep
  split at hstep
  next hthread => cases hstep; exact ⟨_, rfl, .acquireMatch (Or.inl hthread)⟩
  next hthread => cases hstep; exact ⟨_, rfl, .acquireMatch (Or.inr hthread)⟩
  next hthread =>
    cases hstep
    refine ⟨_, rfl, ?_⟩
    split_ifs with hpredicate
    · exact .matchTrue hthread
    · simp only [Bool.or_eq_true, not_or, Bool.not_eq_true] at hpredicate
      exact .matchFalse hthread hpredicate.2
  next hthread => cases hstep; exact ⟨_, rfl, .matchBlock hthread⟩
  next hthread =>
    cases hstep
    refine ⟨_, rfl, ?_⟩
    split_ifs
    · exact .skipGrace hthread
    · exact .lockGrace hthread
  next hthread => cases hstep; exact ⟨_, rfl, .acquireGrace (Or.inl hthread)⟩
  next hthread => cases hstep; exact ⟨_, rfl, .acquireGrace (Or.inr hthread)⟩
  next hthread =>
    cases hstep
    refine ⟨_, rfl, ?_⟩
    split_ifs
    · exact .graceTrue hthread
    · exact .graceFalse hthread
  next hthread => cases hstep; exact ⟨_, rfl, .graceBlock hthread⟩
  next hthread => cases hstep; exact ⟨_, rfl, .graceOver hthread⟩
  next hthread =>
    cases hstep
    refine ⟨_, rfl, ?_⟩
    split_ifs with hstop
    · exact .stoppedBeforeSend hthread hstop
    · exact .startSend hthread (by simpa using hstop)
  next hthread => cases hstep; exact ⟨_, rfl, .acquireReplies (Or.inl hthread)⟩
  next hthread => cases hstep; exact ⟨_, rfl, .acquireReplies (Or.inr hthread)⟩
  next hthread =>
    cases hstep
    refine ⟨_, rfl, ?_⟩
    split_ifs with hstop
    · exact .repliesTrue hthread hstop
    · exact .repliesFalse hthread (by simpa using hstop)
  next hthread => cases hstep; exact ⟨_, rfl, .repliesBlock hthread⟩
  all_goals cases hstep

/-- The phase that `send_requests` moves to after one write. -/
def afterWrite (ok : Bool) (rest : List CalculatorOperationType) : RunPhase :=
  if ok then
    match rest with
    | [] => .lockForReplies
    | operation :: further => .send operation further
  else .failed

inductive Transition (state : State) : Action → State → Prop where
  | rematch (action : Action) (matched : MatchedStatus) (hfree : state.mutexFree = true) :
      Transition state action { state.notifyAll with serverMatchedStatus := matched }
  | dataAvailable :
      Transition state .dataAvailable
        { state with callbacks := state.callbacks ++ [.testStop] }
  | moveCallback (action : Action) (index : ℕ) (phase : CallbackPhase)
      (hphase : ∀ sample, phase ≠ .taken sample)
      (hkeep : ∀ sample, state.callbacks[index]? = some (.taken sample) →
        sample.info.carriesData = false) :
      Transition state action { state with callbacks := state.callbacks.set index phase }
  | take (index : ℕ) (sample : ReplySample)
      (hget : state.callbacks[index]? = some .takeNext) :
      Transition state (.take index (some sample))
        { state with callbacks := state.callbacks.set index (.taken sample) }
  | handleReply (index : ℕ) (sample : ReplySample)
      (hget : state.callbacks[index]? = some (.taken sample))
      (hdata : sample.info.carriesData = true) (hfree : state.mutexFree = true) :
      Transition state (.callback index) (handleReply state index sample)
  | run (phase : RunPhase) (hmove : RunMove state phase) :
      Transition state .run { state with runThread := phase }
  | graceTimeout (hthread : state.runThread = .graceWait .blocked) :
      Transition state .graceTimeout { state with runThread := .graceExpired }
  | write (ok : Bool) (sampleIdentity : SampleIdentity)
      (operation : CalculatorOperationType) (rest : List CalculatorOperationType)
      (hthread : state.runThread = .send operation rest) :
      Transition state (.write ok sampleIdentity)
        { state with
          requestsStatus := state.requestsStatus.insert sampleIdentity false
          runThread := afterWrite ok rest }
  | stopStore :
      Transition state .stopStore
        { state with
          stop := true
          pendingNotifications := state.pendingNotifications + 1 }
  | stopNotify (hpending : 0 < state.pendingNotifications) :
      Transition state .stopNotify
        { state.notifyAll with
          pendingNotifications := state.pendingNotifications - 1 }

theorem callbackStep_transition {state next : State} {index : ℕ}
    (hstep : callbackStep state index = some next) :
    Transition state (.callback index) next := by
  unfold callbackStep at hstep
  split at hstep
  next hget =>
    cases hstep
    refine .moveCallback _ index _ ?_ ?_
    · intro sample
      split_ifs <;> simp
    · intro sample htaken
      rw [hget] at htaken
      cases htaken
  next sample hget =>
    split_ifs at hstep with hdata hfree
    · cases hstep
      exact .handleReply index sample hget hdata hfree
    · cases hstep
      refine .moveCallback _ index _ (by simp) ?_
      intro other htaken
      rw [hget] at htaken
      cases htaken
      simpa using hdata
  all_goals cases hstep

theorem takeStep_transition {state next : State} {index : ℕ}
    {sample : Option ReplySample} (hstep : takeStep state index sample = some next) :
    Transition state (.take index sample) next := by
  unfold takeStep at hstep
  split at hstep
  next hget =>
    cases sample with
    | some sample =>
        cases hstep
        exact .take index sample hget
    | none =>
        cases hstep
        refine .moveCallback _ index _ (by simp) ?_
        intro other htaken
        rw [hget] at htaken
        cases htaken
  all_goals cases hstep

theorem transition_of_step {state next : State} {action : Action}
    (hstep : step state action = some next) : Transition state action next := by
  cases action with
  | publicationMatched guidPrefix currentCountChange =>
      simp only [step] at hstep
      split_ifs at hstep with hfree
      cases hstep
      exact .rematch _ _ hfree
  | subscriptionMatched guidPrefix currentCountChange =>
      simp only [step] at hstep
      split_ifs at hstep with hfree
      cases hstep
      exact .rematch _ _ hfree
  | dataAvailable =>
      cases hstep
      exact .dataAvailable
  | callback index => exact callbackStep_transition hstep
  | take index sample => exact takeStep_transition hstep
  | run =>
      obtain ⟨phase, rfl, hmove⟩ := runStep_eq_some hstep
      exact .run phase hmove
  | graceTimeout =>
      simp only [step, graceTimeoutStep] at hstep
      split at hstep
      next hthread =>
        cases hstep
        exact .graceTimeout hthread
      next => cases hstep
  | write ok sampleIdentity =>
      simp only [step, writeStep] at hstep
      split at hstep
      next operation rest hthread =>
        cases hstep
        exact .write ok sampleIdentity operation rest hthread
      next => cases hstep
  | stopStore =>
      cases hstep
      exact .stopStore
  | stopNotify =>
      simp only [step] at hstep
      split_ifs at hstep with hpending
      cases hstep
      exact .stopNotify hpending

end CppProj.RequestReply.ClientApp
