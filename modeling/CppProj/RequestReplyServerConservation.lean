import CppProj.RequestReplyServerReplies

/-!
# No request is lost or duplicated

Every accepted request is in the queue, with the reply thread, answered by a
successful write, or dropped, and in exactly one of these places.  The count
of a ticket over the four places is kept at one by every step.  Between the
look-up of the client and the write the reply thread holds the mutex, so no
callback changes the matched endpoints in between.
-/

namespace CppProj.RequestReply.ServerApp

def State.queued (state : State) (ticket : ℕ) : ℕ :=
  (state.requests.map Request.ticket).count ticket

def State.inProgress (state : State) (ticket : ℕ) : ℕ :=
  (state.replyThread.held.toList.map Request.ticket).count ticket

def State.answered (state : State) (ticket : ℕ) : ℕ :=
  ((state.writes.filter Write.ok).map Write.ticket).count ticket

def State.discarded (state : State) (ticket : ℕ) : ℕ :=
  state.dropped.count ticket

def State.places (state : State) (ticket : ℕ) : ℕ :=
  state.queued ticket + state.inProgress ticket + state.answered ticket +
    state.discarded ticket

structure ConservationInvariant (state : State) : Prop where
  balance : ∀ ticket,
    state.places ticket = if ticket < state.accepted.length then 1 else 0
  filed : ∀ request ∈ state.pending,
    ∃ sample ∈ state.accepted[request.ticket]?, sample.info = request.info
  matched : ∀ request stage, state.replyThread = .process request stage →
    stage ≠ .lookUpClient →
      state.clientMatchedStatus.isMatched request.clientGuidPrefix = true

theorem initial_conservationInvariant : ConservationInvariant initial := by
  constructor
  · intro ticket
    simp [State.places, State.queued, State.inProgress, State.answered,
      State.discarded, initial, ReplyPhase.held]
  · simp [initial, State.pending, ReplyPhase.held]
  · simp [initial]

theorem mutexFree_of_process {state : State} {request : Request} {stage : ReplyStage}
    (hthread : state.replyThread = .process request stage) :
    state.mutexFree = false := by
  simp [State.mutexFree, hthread, ReplyPhase.holdsMutex]

theorem ConservationInvariant.frame {state next : State}
    (hinv : ConservationInvariant state)
    (hrequests : next.requests = state.requests)
    (hheld : next.replyThread.held = state.replyThread.held)
    (hthread : ∀ request stage, next.replyThread = .process request stage →
      state.replyThread = .process request stage)
    (haccepted : next.accepted = state.accepted)
    (hwrites : next.writes = state.writes)
    (hdropped : next.dropped = state.dropped)
    (hmatched : next.clientMatchedStatus = state.clientMatchedStatus) :
    ConservationInvariant next := by
  constructor
  · intro ticket
    rw [haccepted, ← hinv.balance ticket]
    simp only [State.places, State.queued, State.inProgress, State.answered,
      State.discarded, hrequests, hheld, hwrites, hdropped]
  · intro request hmem
    rw [haccepted]
    exact hinv.filed request (by simpa [State.pending, hrequests, hheld] using hmem)
  · intro request stage hnext hstage
    rw [hmatched]
    exact hinv.matched request stage (hthread request stage hnext) hstage

theorem ConservationInvariant.move {state next : State}
    (hinv : ConservationInvariant state)
    (hplaces : ∀ ticket, next.places ticket = state.places ticket)
    (hpending : ∀ request ∈ next.pending, request ∈ state.pending)
    (hthread : ∀ request stage, next.replyThread = .process request stage →
      stage ≠ .lookUpClient →
        state.clientMatchedStatus.isMatched request.clientGuidPrefix = true)
    (haccepted : next.accepted = state.accepted)
    (hmatched : next.clientMatchedStatus = state.clientMatchedStatus) :
    ConservationInvariant next := by
  constructor
  · intro ticket
    rw [hplaces, haccepted]
    exact hinv.balance ticket
  · intro request hmem
    rw [haccepted]
    exact hinv.filed request (hpending request hmem)
  · intro request stage hnext hstage
    rw [hmatched]
    exact hthread request stage hnext hstage

/-- The reply thread goes on with its request, whose client is matched. -/
theorem ConservationInvariant.advance {state : State} (hinv : ConservationInvariant state)
    {request : Request} {stage : ReplyStage}
    (hthread : state.replyThread = .process request stage)
    (hmatched : state.clientMatchedStatus.isMatched request.clientGuidPrefix = true)
    (after : ReplyStage) :
    ConservationInvariant { state with replyThread := .process request after } := by
  refine hinv.move ?_ ?_ ?_ rfl rfl
  · intro ticket
    simp [State.places, State.queued, State.inProgress, State.answered,
      State.discarded, hthread, ReplyPhase.held]
  · rw [pending_of_process hthread]
    exact fun other hmem => hmem
  · intro other stage hother hstage
    cases hother
    exact hmatched

theorem ConservationInvariant.afterPush {state : State}
    (hinv : ConservationInvariant state) {index : ℕ} {callback : DataAvailable}
    {info : SampleInfo} :
    ConservationInvariant
      ((state.push index info callback.object).setCallback index
        { callback with phase := .testStop }) := by
  constructor
  · intro ticket
    have hbalance := hinv.balance ticket
    simp only [State.places, State.queued, State.inProgress, State.answered,
      State.discarded] at hbalance
    simp only [State.places, State.queued, State.inProgress, State.answered,
      State.discarded, State.setCallback, State.push, State.notifyAll, held_notify,
      List.map_append, List.count_append, List.map_singleton, List.length_append,
      List.length_singleton]
    rcases lt_trichotomy ticket state.accepted.length with hlt | heq | hgt
    · have hne : state.accepted.length ≠ ticket := by omega
      rw [if_pos hlt] at hbalance
      rw [if_pos (by omega), List.count_singleton, if_neg (by simpa using hne)]
      omega
    · subst heq
      rw [if_neg (by omega)] at hbalance
      rw [if_pos (by omega), List.count_singleton_self]
      omega
    · have hne : state.accepted.length ≠ ticket := by omega
      rw [if_neg (by omega)] at hbalance
      rw [if_neg (by omega), List.count_singleton, if_neg (by simpa using hne)]
      omega
  · intro request hmem
    simp only [State.pending, State.setCallback, State.push, State.notifyAll,
      held_notify, List.mem_append, List.mem_singleton] at hmem
    rcases hmem with hold | hold | rfl
    · obtain ⟨sample, hsample, hinfo⟩ :=
        hinv.filed request (List.mem_append_left _ hold)
      exact ⟨sample, ListUpdate.getElem?_append_of_eq_some hsample _, hinfo⟩
    · obtain ⟨sample, hsample, hinfo⟩ :=
        hinv.filed request (List.mem_append_right _ hold)
      exact ⟨sample, ListUpdate.getElem?_append_of_eq_some hsample _, hinfo⟩
    · exact ⟨⟨info, callback.object⟩, by simp [State.setCallback, State.push], rfl⟩
  · intro request stage hthread hstage
    exact hinv.matched request stage (notify_eq_process_iff.mp hthread) hstage

theorem ConservationInvariant.afterWrite {state : State}
    (hinv : ConservationInvariant state) {ok : Bool} {request : Request}
    {reply : CalculatorReplyType}
    (hthread : state.replyThread = .process request (.writeReply reply)) :
    ConservationInvariant
      { state with
        replyThread := .unlock
        requests := if ok then state.requests else state.requests ++ [request]
        writes := state.writes ++
          [⟨request.ticket, request.info.sampleIdentity, reply, ok⟩] } := by
  refine hinv.move ?_ ?_ ?_ rfl rfl
  · intro ticket
    cases ok with
    | true =>
        simp only [State.places, State.queued, State.inProgress, State.answered,
          State.discarded, hthread, ReplyPhase.held, Option.toList_some,
          Option.toList_none, List.map_nil, List.count_nil, List.map_singleton,
          if_true, List.filter_append, List.filter_singleton, cond_true,
          List.map_append, List.count_append]
        omega
    | false =>
        simp only [State.places, State.queued, State.inProgress, State.answered,
          State.discarded, hthread, ReplyPhase.held, Option.toList_some,
          Option.toList_none, List.map_nil, List.count_nil, List.map_singleton,
          Bool.false_eq_true, if_false, List.filter_append, List.filter_singleton,
          cond_false, List.map_append, List.count_append]
        omega
  · intro other hmem
    cases ok with
    | true => exact List.mem_append_right _ hmem
    | false => exact mem_pending_of_requeue hthread hmem
  · intro other stage hother
    cases hother

theorem conservationInvariant_step {state next : State} {action : Action}
    (hinv : ConservationInvariant state)
    (hstep : step state action = some next) : ConservationInvariant next := by
  have hpending := pending_subset_of_step hstep
  cases transition_of_step hstep with
  | construct phase hnext => exact hinv.frame rfl rfl (fun _ _ h => h) rfl rfl rfl rfl
  | rematch action matched nullDereference hfree =>
      refine ⟨hinv.balance, hinv.filed, ?_⟩
      intro request stage hthread
      have hheld : state.mutexFree = false := mutexFree_of_process hthread
      rw [hheld] at hfree
      contradiction
  | dataAvailable => exact hinv.frame rfl rfl (fun _ _ h => h) rfl rfl rfl rfl
  | moveCallback action index callback phase hget hmove =>
      exact hinv.frame rfl rfl (fun _ _ h => h) rfl rfl rfl rfl
  | take index callback sample hget hphase =>
      exact hinv.frame rfl rfl (fun _ _ h => h) rfl rfl rfl rfl
  | push index callback info hget hphase hdata hfree => exact hinv.afterPush
  | replyMove phase hmove =>
      obtain ⟨hnext, hstate⟩ := hmove.held_eq_none
      refine hinv.frame rfl (hnext.trans hstate.symm) ?_ rfl rfl rfl rfl
      intro request stage hthread
      exact (held_process hnext stage hthread).elim
  | pop request rest hthread hstop hrequests =>
      refine hinv.move ?_ (hpending (by simp)) ?_ rfl rfl
      · intro ticket
        simp only [State.places, State.queued, State.inProgress, State.answered,
          State.discarded, hthread, hrequests, ReplyPhase.held, Option.toList_some,
          Option.toList_none, List.map_nil, List.count_nil, List.map_cons,
          List.count_cons]
        omega
      · intro other stage hother hstage
        cases hother
        exact (hstage rfl).elim
  | drop request stage hthread hreason =>
      refine hinv.move ?_ (hpending (by simp)) ?_ rfl rfl
      · intro ticket
        simp only [State.places, State.queued, State.inProgress, State.answered,
          State.discarded, hthread, ReplyPhase.held, Option.toList_some,
          Option.toList_none, List.map_nil, List.count_nil, List.map_singleton,
          List.count_append]
        omega
      · intro other stage' hother
        cases hother
  | requeue request hthread hhalf =>
      refine hinv.move ?_ (hpending (by simp)) ?_ rfl rfl
      · intro ticket
        simp only [State.places, State.queued, State.inProgress, State.answered,
          State.discarded, hthread, ReplyPhase.held, Option.toList_some,
          Option.toList_none, List.map_nil, List.count_nil, List.map_singleton,
          List.map_append, List.count_append]
        omega
      · intro other stage hother
        cases hother
  | lookUp request hthread hmatched => exact hinv.advance hthread hmatched _
  | calculate request data result hthread hobject hresult =>
      exact hinv.advance hthread (hinv.matched request _ hthread (by simp)) _
  | prepare request data result hthread hobject =>
      exact hinv.advance hthread (hinv.matched request _ hthread (by simp)) _
  | writeNull ok request reply hthread hnull =>
      exact hinv.frame rfl rfl (fun _ _ h => h) rfl rfl rfl rfl
  | write ok request reply hthread hwriter => exact hinv.afterWrite hthread
  | run phase hmove => exact hinv.frame rfl rfl (fun _ _ h => h) rfl rfl rfl rfl
  | stopStore hwriter => exact hinv.frame rfl rfl (fun _ _ h => h) rfl rfl rfl rfl
  | stopNotify hpending =>
      exact hinv.frame rfl (held_notify _) (fun _ _ h => notify_eq_process_iff.mp h)
        rfl rfl rfl rfl

theorem conservationInvariant_of_reachable {state : State}
    (hreach : system.Reachable state) : ConservationInvariant state := by
  apply hreach.invariant ConservationInvariant initial_conservationInvariant
  intro state action next hinv hstep
  exact conservationInvariant_step hinv hstep

/-! ## Why a request leaves the server -/

/-- A ticket is discarded only by the drop of the request in progress. -/
theorem discarded_of_step {state next : State} {action : Action} {ticket : ℕ}
    (hstep : step state action = some next)
    (hmore : state.discarded ticket < next.discarded ticket) :
    ∃ request stage, state.replyThread = .process request stage ∧
      request.ticket = ticket ∧
      (stage = .lookUpClient ∧
          RemoteClientMatchedStatus.Gone state.clientMatchedStatus
            request.clientGuidPrefix ∨
        stage = .calculateResult ∧
          ∃ data, state.object? request = some data ∧ calculate data = none) := by
  cases transition_of_step hstep with
  | drop request stage hthread hreason =>
      refine ⟨request, stage, hthread, ?_, hreason⟩
      by_contra hne
      simp [State.discarded, List.count_append, hne] at hmore
  | _ => exact (lt_irrefl _ hmore).elim

/-- A ticket is answered only by the write for the request in progress. -/
theorem answered_of_step {state next : State} {action : Action} {ticket : ℕ}
    (hstep : step state action = some next)
    (hmore : state.answered ticket < next.answered ticket) :
    ∃ request reply, state.replyThread = .process request (.writeReply reply) ∧
      request.ticket = ticket := by
  cases transition_of_step hstep with
  | write ok request reply hthread hwriter =>
      refine ⟨request, reply, hthread, ?_⟩
      by_contra hne
      cases ok <;>
        simp [State.answered, List.count_append, List.filter_append, hne] at hmore
  | _ => exact (lt_irrefl _ hmore).elim

theorem ConservationInvariant.filed_inProgress {state : State}
    (hinv : ConservationInvariant state) {request : Request} {stage : ReplyStage}
    (hthread : state.replyThread = .process request stage) :
    ∃ sample ∈ state.accepted[request.ticket]?, sample.info = request.info :=
  hinv.filed request (mem_pending_of_process hthread)

/-- In every reachable state an accepted request is in exactly one place.  A
step drops it only while its client has no matched endpoint or when its
calculation fails, and answers it only while both endpoints of its client are
matched. -/
theorem requests_conserved {state : State} (hreach : system.Reachable state) :
    (∀ ticket < state.accepted.length,
      state.queued ticket + state.inProgress ticket + state.answered ticket +
        state.discarded ticket = 1) ∧
    (∀ action next, step state action = some next →
      ∀ ticket, state.discarded ticket < next.discarded ticket →
        ∃ sample ∈ state.accepted[ticket]?,
          RemoteClientMatchedStatus.Gone state.clientMatchedStatus
              sample.clientGuidPrefix ∨
            ∃ request data, state.replyThread = .process request .calculateResult ∧
              request.ticket = ticket ∧ state.object? request = some data ∧
              calculate data = none) ∧
    (∀ action next, step state action = some next →
      ∀ ticket, state.answered ticket < next.answered ticket →
        ∃ sample ∈ state.accepted[ticket]?,
          state.clientMatchedStatus.lookup sample.clientGuidPrefix =
            some ⟨true, true⟩) := by
  have hinv := conservationInvariant_of_reachable hreach
  refine ⟨?_, ?_, ?_⟩
  · intro ticket hlt
    have hbalance := hinv.balance ticket
    rw [if_pos hlt] at hbalance
    exact hbalance
  · intro action next hstep ticket hmore
    obtain ⟨request, stage, hthread, rfl, hreason⟩ := discarded_of_step hstep hmore
    obtain ⟨sample, hsample, hinfo⟩ := hinv.filed_inProgress hthread
    refine ⟨sample, hsample, ?_⟩
    rcases hreason with ⟨_, hgone⟩ | ⟨rfl, data, hobject, hnone⟩
    · left
      rw [Sample.clientGuidPrefix, hinfo]
      exact hgone
    · exact Or.inr ⟨request, data, hthread, rfl, hobject, hnone⟩
  · intro action next hstep ticket hmore
    obtain ⟨request, reply, hthread, rfl⟩ := answered_of_step hstep hmore
    obtain ⟨sample, hsample, hinfo⟩ := hinv.filed_inProgress hthread
    refine ⟨sample, hsample, ?_⟩
    have hmatched := hinv.matched request _ hthread (by simp)
    have hlookup := MatchedStatus.isMatched_eq_true_iff.mp hmatched
    rw [Sample.clientGuidPrefix, hinfo]
    exact hlookup

/-- The request of a run that answers it is in one place. -/
theorem requests_conserved_answeringRun :
    ∃ state, system.Reachable state ∧ state.accepted.length = 1 ∧
      state.queued 0 + state.inProgress 0 + state.answered 0 + state.discarded 0 = 1 := by
  obtain ⟨state, hrun, hlength⟩ : ∃ state,
      system.run initial
          (startUpActions ++ receiveActions (additionSample 1 2 3) ++ answerActions) =
        some state ∧ state.accepted.length = 1 := ⟨_, rfl, rfl⟩
  have hreach : system.Reachable state := ⟨_, hrun⟩
  exact ⟨state, hreach, hlength, (requests_conserved hreach).1 0 (by omega)⟩

end CppProj.RequestReply.ServerApp
