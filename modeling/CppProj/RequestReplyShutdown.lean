import CppProj.RequestReplyServerReplies
import CppProj.RequestReplyClientTransitions

/-!
# Does `stop` wake every waiting thread

`stop` stores the flag and notifies without the mutex, while `run`,
`reply_routine` and `wait_for_replies` check the flag under it.  A thread that
has checked its predicate and does not sleep yet misses the notification.
`NotifiesNoBlocking` excludes that one meeting; in all other runs a thread that
sleeps, or is about to, although `stop_` is set has a notification to come.
-/

namespace CppProj.RequestReply

namespace ServerApp

/-- The notification of `stop` meets no thread between its check and its
sleep. -/
def NotifiesNoBlocking (state : State) : Action → Prop
  | .stopNotify =>
      state.replyThread ≠ .wait .blocking ∧ state.runThread ≠ .wait .blocking
  | _ => True

instance (state : State) (action : Action) :
    Decidable (NotifiesNoBlocking state action) :=
  match action with
  | .stopNotify => inferInstanceAs (Decidable (_ ∧ _))
  | .construct | .participantDiscovery _ _ _ | .publicationMatched _ _
  | .subscriptionMatched _ _ | .dataAvailable | .callback _ | .take _ _ | .reply
  | .write _ | .run | .stopStore => isTrue trivial

/-- `stop` has completed, no notification and no callback is under way, and a
thread still sleeps. -/
structure Stranded (state : State) : Prop where
  stopped : state.stop = true
  notified : state.pendingNotifications = 0
  quiet : ∀ callback ∈ state.callbacks, callback.phase = .returned
  asleep : state.replyThread = .wait .blocked ∨ state.runThread = .wait .blocked

structure WakeupInvariant (state : State) : Prop where
  reply : ∀ phase, state.replyThread = .wait phase →
    WakeupPending state.stop state.pendingNotifications phase
  run : ∀ phase, state.runThread = .wait phase →
    WakeupPending state.stop state.pendingNotifications phase

theorem initial_wakeupInvariant : WakeupInvariant initial := by
  constructor <;> simp [initial]

theorem replyNotify_eq_wait {thread : ReplyPhase} {phase : WaitPhase}
    (hnotify : thread.notify = .wait phase) :
    ∃ before, thread = .wait before ∧ phase = before.notify := by
  cases thread with
  | wait before =>
      cases hnotify
      exact ⟨before, rfl, rfl⟩
  | _ => cases hnotify

theorem runNotify_eq_wait {thread : RunPhase} {phase : WaitPhase}
    (hnotify : thread.notify = .wait phase) :
    ∃ before, thread = .wait before ∧ phase = before.notify := by
  cases thread with
  | wait before =>
      cases hnotify
      exact ⟨before, rfl, rfl⟩
  | _ => cases hnotify

/-- A notification that meets no thread in the gap leaves both awake. -/
theorem WakeupInvariant.afterNotify {state : State}
    (hreply : state.replyThread ≠ .wait .blocking)
    (hrun : state.runThread ≠ .wait .blocking) {next : State}
    (hreplyNext : next.replyThread = state.replyThread.notify)
    (hrunNext : next.runThread = state.runThread.notify) :
    WakeupInvariant next := by
  constructor
  · intro phase hthread
    obtain ⟨before, hbefore, rfl⟩ := replyNotify_eq_wait (hreplyNext ▸ hthread)
    exact .notify (fun h => hreply (h ▸ hbefore))
  · intro phase hthread
    obtain ⟨before, hbefore, rfl⟩ := runNotify_eq_wait (hrunNext ▸ hthread)
    exact .notify (fun h => hrun (h ▸ hbefore))

theorem ne_blocking_of_mutexFree {state : State} (hfree : state.mutexFree = true) :
    state.replyThread ≠ .wait .blocking ∧ state.runThread ≠ .wait .blocking := by
  constructor <;> intro hthread <;>
    simp [State.mutexFree, hthread, ReplyPhase.holdsMutex, RunPhase.holdsMutex,
      WaitPhase.holdsMutex] at hfree

theorem ReplyMove.wakeupPending {state : State} {phase : ReplyPhase}
    (hinv : WakeupInvariant state) (hmove : ReplyMove state phase)
    {waiting : WaitPhase} (hphase : phase = .wait waiting) :
    WakeupPending state.stop state.pendingNotifications waiting := by
  cases hmove with
  | testLoop hthread => cases hstop : state.stop <;> simp [hstop] at hphase
  | acquire hthread hfree =>
      cases hphase
      exact .awake (by simp) (by simp)
  | predicateTrue hthread hpredicate => cases hphase
  | predicateFalse hthread hempty hstop =>
      rw [hstop]
      exact .lowered
  | block hthread =>
      cases hphase
      exact (hinv.reply _ hthread).block
  | stopped hthread hstop => cases hphase
  | unlock hthread => cases hphase

theorem RunMove.wakeupPending {state : State} {phase : RunPhase}
    (hinv : WakeupInvariant state) (hmove : RunMove state phase)
    {waiting : WaitPhase} (hphase : phase = .wait waiting) :
    WakeupPending state.stop state.pendingNotifications waiting := by
  cases hmove with
  | start hthread hconstructed => cases hphase
  | acquire hthread hfree =>
      cases hphase
      exact .awake (by simp) (by simp)
  | predicateTrue hthread hstop => cases hphase
  | predicateFalse hthread hstop =>
      rw [hstop]
      exact .lowered
  | block hthread =>
      cases hphase
      exact (hinv.run _ hthread).block

theorem wakeupInvariant_step {state next : State} {action : Action}
    (hinv : WakeupInvariant state) (hnotify : NotifiesNoBlocking state action)
    (hstep : step state action = some next) : WakeupInvariant next := by
  cases transition_of_step hstep with
  | push index callback info hget hphase hdata hfree =>
      obtain ⟨hreply, hrun⟩ := ne_blocking_of_mutexFree hfree
      exact .afterNotify hreply hrun rfl rfl
  | replyMove phase hmove => exact ⟨fun _ h => hmove.wakeupPending hinv h, hinv.run⟩
  | run phase hmove => exact ⟨hinv.reply, fun _ h => hmove.wakeupPending hinv h⟩
  | stopStore hwriter => exact ⟨fun _ _ => .raise, fun _ _ => .raise⟩
  | stopNotify hpending => exact .afterNotify hnotify.1 hnotify.2 rfl rfl
  | construct | rematch | dataAvailable | moveCallback | take | writeNull =>
      exact ⟨hinv.reply, hinv.run⟩
  | pop | drop | requeue | lookUp | calculate | prepare | write =>
      refine ⟨?_, hinv.run⟩
      intro phase hthread
      cases hthread

theorem not_stranded_of_notifiesNoBlocking {state : State}
    (hreach : system.ReachableMeeting NotifiesNoBlocking state) :
    ¬ Stranded state := by
  have hinv : WakeupInvariant state := by
    apply hreach.invariant WakeupInvariant initial_wakeupInvariant
    intro state action next hinv hnotify hstep
    exact wakeupInvariant_step hinv hnotify hstep
  intro hstranded
  have hpending : 0 < state.pendingNotifications := by
    rcases hstranded.asleep with hthread | hthread
    · exact hinv.reply _ hthread hstranded.stopped (Or.inr rfl)
    · exact hinv.run _ hthread hstranded.stopped (Or.inr rfl)
  exact absurd hstranded.notified (by omega)

end ServerApp

namespace ClientApp

def NotifiesNoBlocking (state : State) : Action → Prop
  | .stopNotify =>
      state.runThread ≠ .waitForMatch .blocking ∧
        state.runThread ≠ .waitForReplies .blocking
  | _ => True

structure Stranded (state : State) : Prop where
  stopped : state.stop = true
  notified : state.pendingNotifications = 0
  quiet : ∀ phase ∈ state.callbacks, phase = .returned
  asleep : state.runThread = .waitForMatch .blocked ∨
    state.runThread = .waitForReplies .blocked

structure WakeupInvariant (state : State) : Prop where
  forMatch : ∀ phase, state.runThread = .waitForMatch phase →
    WakeupPending state.stop state.pendingNotifications phase
  forReplies : ∀ phase, state.runThread = .waitForReplies phase →
    WakeupPending state.stop state.pendingNotifications phase

theorem initial_wakeupInvariant (requestInput : Int16 × Int16) (clientId : String) :
    WakeupInvariant (initial requestInput clientId) := by
  constructor <;> simp [initial]

theorem notify_eq_waitForMatch {thread : RunPhase} {phase : WaitPhase}
    (hnotify : thread.notify = .waitForMatch phase) :
    ∃ before, thread = .waitForMatch before ∧ phase = before.notify := by
  cases thread with
  | waitForMatch before =>
      cases hnotify
      exact ⟨before, rfl, rfl⟩
  | _ => cases hnotify

theorem notify_eq_waitForReplies {thread : RunPhase} {phase : WaitPhase}
    (hnotify : thread.notify = .waitForReplies phase) :
    ∃ before, thread = .waitForReplies before ∧ phase = before.notify := by
  cases thread with
  | waitForReplies before =>
      cases hnotify
      exact ⟨before, rfl, rfl⟩
  | _ => cases hnotify

theorem WakeupInvariant.afterNotify {state next : State}
    (hmatch : state.runThread ≠ .waitForMatch .blocking)
    (hreplies : state.runThread ≠ .waitForReplies .blocking)
    (hnext : next.runThread = state.runThread.notify) : WakeupInvariant next := by
  constructor
  · intro phase hthread
    obtain ⟨before, hbefore, rfl⟩ := notify_eq_waitForMatch (hnext ▸ hthread)
    exact .notify (fun h => hmatch (h ▸ hbefore))
  · intro phase hthread
    obtain ⟨before, hbefore, rfl⟩ := notify_eq_waitForReplies (hnext ▸ hthread)
    exact .notify (fun h => hreplies (h ▸ hbefore))

theorem ne_blocking_of_mutexFree {state : State} (hfree : state.mutexFree = true) :
    state.runThread ≠ .waitForMatch .blocking ∧
      state.runThread ≠ .waitForReplies .blocking := by
  constructor <;> intro hthread <;>
    simp [State.mutexFree, hthread, RunPhase.holdsMutex, WaitPhase.holdsMutex] at hfree

theorem RunMove.wakeupInvariant {state : State} {thread : RunPhase}
    (hinv : WakeupInvariant state) (hmove : RunMove state thread) :
    WakeupInvariant { state with runThread := thread } := by
  cases hmove with
  | acquireMatch hthread =>
      refine ⟨?_, fun _ h => (by cases h)⟩
      rintro phase ⟨⟩
      exact .awake (by simp) (by simp)
  | matchFalse hthread hstop =>
      refine ⟨?_, fun _ h => (by cases h)⟩
      intro phase _
      rw [show ({ state with runThread := .waitForMatch .blocking } : State).stop = false
        from hstop]
      exact .lowered
  | matchBlock hthread =>
      refine ⟨?_, fun _ h => (by cases h)⟩
      rintro phase ⟨⟩
      exact (hinv.forMatch _ hthread).block
  | acquireReplies hthread =>
      refine ⟨fun _ h => (by cases h), ?_⟩
      rintro phase ⟨⟩
      exact .awake (by simp) (by simp)
  | repliesFalse hthread hstop =>
      refine ⟨fun _ h => (by cases h), ?_⟩
      intro phase _
      rw [show ({ state with runThread := .waitForReplies .blocking } : State).stop = false
        from hstop]
      exact .lowered
  | repliesBlock hthread =>
      refine ⟨fun _ h => (by cases h), ?_⟩
      rintro phase ⟨⟩
      exact (hinv.forReplies _ hthread).block
  | _ => exact ⟨fun _ h => (by cases h), fun _ h => (by cases h)⟩

/-- `stop` called by the listener holds the mutex, so it meets no thread in the
gap. -/
theorem WakeupInvariant.afterHandleReply {state : State} (hinv : WakeupInvariant state)
    (hfree : state.mutexFree = true) (index : ℕ) (sample : ReplySample) :
    WakeupInvariant (handleReply state index sample) := by
  obtain ⟨hmatch, hreplies⟩ := ne_blocking_of_mutexFree hfree
  unfold handleReply
  split
  next =>
    simp only
    split_ifs
    · exact .afterNotify hmatch hreplies rfl
    · exact ⟨hinv.forMatch, hinv.forReplies⟩
  next => exact ⟨hinv.forMatch, hinv.forReplies⟩
  next => exact ⟨hinv.forMatch, hinv.forReplies⟩

theorem wakeupInvariant_step {state next : State} {action : Action}
    (hinv : WakeupInvariant state) (hnotify : NotifiesNoBlocking state action)
    (hstep : step state action = some next) : WakeupInvariant next := by
  cases transition_of_step hstep with
  | rematch action matched hfree =>
      obtain ⟨hmatch, hreplies⟩ := ne_blocking_of_mutexFree hfree
      exact .afterNotify hmatch hreplies rfl
  | dataAvailable | moveCallback | take => exact ⟨hinv.forMatch, hinv.forReplies⟩
  | handleReply index sample hget hdata hfree => exact hinv.afterHandleReply hfree index sample
  | run phase hmove => exact hmove.wakeupInvariant hinv
  | graceTimeout hthread => exact ⟨fun _ h => (by cases h), fun _ h => (by cases h)⟩
  | write ok sampleIdentity operation rest hthread =>
      constructor <;> intro phase hwait <;> cases ok <;> cases rest <;>
        simp [afterWrite] at hwait
  | stopStore => exact ⟨fun _ _ => .raise, fun _ _ => .raise⟩
  | stopNotify hpending => exact .afterNotify hnotify.1 hnotify.2 rfl

theorem not_stranded_of_notifiesNoBlocking {requestInput : Int16 × Int16}
    {clientId : String} {state : State}
    (hreach : (system requestInput clientId).ReachableMeeting NotifiesNoBlocking state) :
    ¬ Stranded state := by
  have hinv : WakeupInvariant state := by
    refine hreach.invariant WakeupInvariant
      (initial_wakeupInvariant requestInput clientId) ?_
    intro state action next hinv hnotify hstep
    exact wakeupInvariant_step hinv hnotify hstep
  intro hstranded
  have hpending : 0 < state.pendingNotifications := by
    rcases hstranded.asleep with hthread | hthread
    · exact hinv.forMatch _ hthread hstranded.stopped (Or.inr rfl)
    · exact hinv.forReplies _ hthread hstranded.stopped (Or.inr rfl)
  exact absurd hstranded.notified (by omega)

end ClientApp

/-! ## Both applications -/

/-- In every run of the server and in every run of the client whose `stop`
notifies no thread in the gap, no completed `stop` leaves a thread asleep. -/
theorem stop_strands_nobody (requestInput : Int16 × Int16) (clientId : String) :
    (∀ state, ServerApp.system.ReachableMeeting ServerApp.NotifiesNoBlocking state →
      ¬ ServerApp.Stranded state) ∧
    (∀ state, (ClientApp.system requestInput clientId).ReachableMeeting
        ClientApp.NotifiesNoBlocking state →
      ¬ ClientApp.Stranded state) :=
  ⟨fun _ => ServerApp.not_stranded_of_notifiesNoBlocking,
    fun _ => ClientApp.not_stranded_of_notifiesNoBlocking⟩

/-- The server is constructed, `stop` stores the flag while the thread in `run`
sleeps, and its notification wakes the thread. -/
theorem stop_strands_nobody_sleepingRun :
    ∃ state, ServerApp.system.ReachableMeeting ServerApp.NotifiesNoBlocking state ∧
      state.stop = true ∧ ¬ ServerApp.Stranded state := by
  obtain ⟨state, hrun, hstop⟩ :
      ∃ state, ServerApp.system.run ServerApp.initial
          (List.flatten [List.replicate 4 .construct, List.replicate 4 .run,
            [.stopStore, .stopNotify]]) = some state ∧
        state.stop = true :=
    ⟨_, rfl, by decide⟩
  have hreach : ServerApp.system.ReachableMeeting ServerApp.NotifiesNoBlocking state :=
    ⟨_, hrun, by decide⟩
  exact ⟨state, hreach, hstop, (stop_strands_nobody (1, 2) "client").1 state hreach⟩

/-- `run` has found `stop_` false and does not sleep yet when `stop` stores the
flag and notifies: it falls asleep for good. -/
theorem stop_strands_run :
    ¬ ∀ state, ServerApp.system.Reachable state → ¬ ServerApp.Stranded state := by
  intro hall
  obtain ⟨state, hrun, hstop, hpending, hcallbacks, hthread⟩ :
      ∃ state, ServerApp.system.run ServerApp.initial
          (List.flatten [List.replicate 4 .construct, List.replicate 3 .run,
            [.stopStore, .stopNotify, .run]]) = some state ∧
        state.stop = true ∧ state.pendingNotifications = 0 ∧ state.callbacks = [] ∧
        state.runThread = .wait .blocked :=
    ⟨_, rfl, by decide, by decide, by decide, by decide⟩
  refine hall state ⟨_, hrun⟩ ⟨hstop, hpending, ?_, Or.inr hthread⟩
  simp [hcallbacks]

end CppProj.RequestReply
