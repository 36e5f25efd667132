import CppProj.RequestReplyAsking
import CppProj.RequestReplyServing

/-!
# The exchange completes exactly for a non-zero divisor

A request that the client still waits for is always somewhere: in flight, taken
by a callback, queued, being processed, or behind a reply in flight or taken.
Each program keeps this through its own steps, and the steps on the topics pass
the request on.  With the divisor zero the server drops the division without a
reply, and the client waits for ever.
-/

namespace CppProj.RequestReply.Exchange

/-- The request with this identity, or a reply to it, is on its way. -/
def State.Tracked (state : State) (identity : SampleIdentity) : Prop :=
  (∃ sample ∈ state.requests, sample.info.sampleIdentity = identity) ∨
    state.server.Holds identity ∨
    (∃ reply ∈ state.replies, reply.relatedSampleIdentity = identity) ∨
    state.client.Holds identity

structure CompletionInvariant (parameters : Parameters) (state : State) : Prop where
  serving : ServerApp.ServingInvariant parameters.requestWriter parameters.clientId
    state.server
  asking : ClientApp.AskingInvariant (parameters.x, parameters.y) parameters.clientId
    state.client
  requests : ∀ sample ∈ state.requests,
    ServerApp.FromClient parameters.requestWriter state.server.clientMatchedStatus
        sample.info ∧
      Answerable parameters.clientId sample.data
  replies : ∀ reply ∈ state.replies,
    reply.info.carriesData = true ∧ passesFilter parameters reply = true
  numbered : ∀ identity ∈ state.client.requestsStatus,
    identity.sequenceNumber ≤ state.sent
  tracked : ∀ identity, state.client.Awaits identity → state.Tracked identity

variable {parameters : Parameters} {state next : State}

theorem initial_completionInvariant :
    CompletionInvariant parameters (initial parameters) := by
  constructor
  case serving => exact ServerApp.initial_servingInvariant
  case asking => exact ClientApp.initial_askingInvariant
  case requests => simp [initial]
  case replies => simp [initial]
  case numbered => simp [initial, ClientApp.initial]
  case tracked => simp [initial, ClientApp.initial, ClientApp.State.Awaits]

theorem completion_server {action : ServerApp.Action}
    (hinv : CompletionInvariant parameters state)
    (hstep : serverStep parameters state action = some next) :
    CompletionInvariant parameters next := by
  unfold serverStep at hstep
  split_ifs at hstep with hlocal
  split at hstep
  next => cases hstep
  next server hserver =>
    simp only at hstep
    split_ifs at hstep with hlost
    cases hstep
    have hkeep : state.server.clientMatchedStatus.isMatched
          parameters.requestWriter.guidPrefix = true →
        server.clientMatchedStatus.isMatched parameters.requestWriter.guidPrefix = true := by
      intro hmatched
      simpa [State.clientMatched, hmatched] using hlost
    refine ⟨ServerApp.servingInvariant_local hinv.serving hlocal hkeep hserver, hinv.asking,
      ?_, hinv.replies, hinv.numbered, ?_⟩
    · intro sample hmem
      obtain ⟨hfrom, hdata⟩ := hinv.requests sample hmem
      exact ⟨hfrom.mono hkeep, hdata⟩
    · intro identity hawaits
      rcases hinv.tracked identity hawaits with hrequest | hserverHolds | hreply
      · exact Or.inl hrequest
      · exact Or.inr (Or.inl
          (ServerApp.Holds_local hinv.serving hlocal hserverHolds hserver))
      · exact Or.inr (Or.inr hreply)

theorem completion_takeRequest {index position : ℕ}
    (hinv : CompletionInvariant parameters state)
    (hstep : takeRequestStep state index position = some next) :
    CompletionInvariant parameters next := by
  unfold takeRequestStep at hstep
  split at hstep
  next => cases hstep
  next sample hget =>
    obtain ⟨server, hserver, rfl⟩ := Option.map_eq_some_iff.mp hstep
    obtain ⟨hfrom, hdata⟩ := hinv.requests sample (List.mem_of_getElem? hget)
    obtain ⟨hserving, hmatched, hnew, hholds⟩ :=
      ServerApp.servingInvariant_take hinv.serving hfrom hdata hserver
    refine ⟨hserving, hinv.asking, ?_, hinv.replies, hinv.numbered, ?_⟩
    · intro other hmem
      rw [hmatched]
      exact hinv.requests other (List.mem_of_mem_eraseIdx hmem)
    · intro identity hawaits
      rcases hinv.tracked identity hawaits with
        ⟨other, hmem, hidentity⟩ | hserverHolds | hreply
      · rcases ListUpdate.eq_or_mem_eraseIdx hget hmem with rfl | hmem
        · exact Or.inr (Or.inl (hidentity ▸ hnew))
        · exact Or.inl ⟨other, hmem, hidentity⟩
      · exact Or.inr (Or.inl (hholds identity hserverHolds))
      · exact Or.inr (Or.inr hreply)

theorem completion_writeReply (hinv : CompletionInvariant parameters state)
    (hstep : writeReplyStep parameters state = some next) :
    CompletionInvariant parameters next := by
  unfold writeReplyStep at hstep
  split at hstep
  next request data hprocess =>
    obtain ⟨server, hserver, rfl⟩ := Option.map_eq_some_iff.mp hstep
    obtain ⟨hserving, hmatched, hholds⟩ :=
      ServerApp.servingInvariant_write hinv.serving hprocess hserver
    have hclientId := hinv.serving.prepared request data hprocess
    have hreplies : ∀ reply ∈
        (if state.server.replyWriterIsNull then state.replies
          else state.replies ++ [state.reply parameters request data]),
        reply ∈ state.replies ∨ reply = state.reply parameters request data := by
      intro reply hmem
      split_ifs at hmem
      · exact Or.inl hmem
      · simpa using hmem
    constructor
    case serving => exact hserving
    case asking => exact hinv.asking
    case requests =>
      intro sample hmem
      rw [hmatched]
      exact hinv.requests sample hmem
    case replies =>
      intro reply hmem
      rcases hreplies reply hmem with hold | rfl
      · exact hinv.replies reply hold
      · exact ⟨rfl, decide_eq_true hclientId⟩
    case numbered => exact hinv.numbered
    case tracked =>
      intro identity hawaits
      rcases hinv.tracked identity hawaits with
        hrequest | hserverHolds | ⟨reply, hmem, hidentity⟩ | hclientHolds
      · exact Or.inl hrequest
      · rcases hholds identity hserverHolds with hserverHolds | ⟨hwriter, hidentity⟩
        · exact Or.inr (Or.inl hserverHolds)
        · refine Or.inr (Or.inr (Or.inl ⟨state.reply parameters request data, ?_, hidentity⟩))
          simp [hwriter]
      · refine Or.inr (Or.inr (Or.inl ⟨reply, ?_, hidentity⟩))
        show reply ∈ (if state.server.replyWriterIsNull then state.replies
          else state.replies ++ [state.reply parameters request data])
        split_ifs
        · exact hmem
        · exact List.mem_append_left _ hmem
      · exact Or.inr (Or.inr (Or.inr hclientHolds))
  next => cases hstep

theorem completion_client {action : ClientApp.Action}
    (hinv : CompletionInvariant parameters state)
    (hstep : clientStep state action = some next) :
    CompletionInvariant parameters next := by
  unfold clientStep at hstep
  split_ifs at hstep with hlocal
  obtain ⟨client, hclient, rfl⟩ := Option.map_eq_some_iff.mp hstep
  obtain ⟨hasking, hkeeps⟩ := ClientApp.asking_local hinv.asking hlocal hclient
  refine ⟨hinv.serving, hasking, hinv.requests, hinv.replies, ?_, ?_⟩
  · intro identity hmem
    exact hinv.numbered identity (hkeeps.known identity hmem)
  · intro identity hawaits
    rcases hinv.tracked identity (hkeeps.awaited identity hawaits) with
      hrequest | hserverHolds | hreply | hclientHolds
    · exact Or.inl hrequest
    · exact Or.inr (Or.inl hserverHolds)
    · exact Or.inr (Or.inr (Or.inl hreply))
    · exact Or.inr (Or.inr (Or.inr (hkeeps.held identity hawaits hclientHolds)))

theorem completion_takeReply {index position : ℕ}
    (hinv : CompletionInvariant parameters state)
    (hstep : takeReplyStep parameters state index position = some next) :
    CompletionInvariant parameters next := by
  unfold takeReplyStep at hstep
  split at hstep
  next => cases hstep
  next reply hget =>
    split_ifs at hstep with hfilter
    obtain ⟨client, hclient, rfl⟩ := Option.map_eq_some_iff.mp hstep
    obtain ⟨hdata, _⟩ := hinv.replies reply (List.mem_of_getElem? hget)
    obtain ⟨hasking, hstatus, hnew, hholds⟩ :=
      ClientApp.asking_take hinv.asking hdata hclient
    constructor
    case serving => exact hinv.serving
    case asking => exact hasking
    case requests => exact hinv.requests
    case replies =>
      intro other hmem
      exact hinv.replies other (List.mem_of_mem_eraseIdx hmem)
    case numbered =>
      intro identity hmem
      rw [hstatus] at hmem
      exact hinv.numbered identity hmem
    case tracked =>
      intro identity hawaits
      rw [ClientApp.State.Awaits, hstatus] at hawaits
      rcases hinv.tracked identity hawaits with
        hrequest | hserverHolds | ⟨other, hmem, hidentity⟩ | hclientHolds
      · exact Or.inl hrequest
      · exact Or.inr (Or.inl hserverHolds)
      · rcases ListUpdate.eq_or_mem_eraseIdx hget hmem with rfl | hmem
        · exact Or.inr (Or.inr (Or.inr (hidentity ▸ hnew)))
        · exact Or.inr (Or.inr (Or.inl ⟨other, hmem, hidentity⟩))
      · exact Or.inr (Or.inr (Or.inr (hholds identity hclientHolds)))

/-- The server answers each of the four operations unless the divisor is
zero. -/
theorem answerable_request {client : ClientApp.State} {clientId : String} {x y : Int16}
    {operation : CalculatorOperationType}
    (hclient : ClientApp.AskingInvariant (x, y) clientId client) (hy : y ≠ 0)
    (hoperation : operation ∈ ClientApp.firstOperation :: ClientApp.furtherOperations) :
    Answerable clientId (client.request operation) := by
  refine ⟨hclient.client, ?_⟩
  rw [ne_eq, calculate_eq_none_iff]
  rintro (⟨_, hzero⟩ | ⟨value, unlisted, hunknown⟩)
  · rw [ClientApp.State.request, hclient.input] at hzero
    exact hy hzero
  · have heq : operation = .unknown value unlisted := hunknown
    rw [heq] at hoperation
    simp [ClientApp.firstOperation, ClientApp.furtherOperations] at hoperation

theorem completion_writeRequest (hinv : CompletionInvariant parameters state)
    (hy : parameters.y ≠ 0) (hstep : writeRequestStep parameters state = some next) :
    CompletionInvariant parameters next := by
  unfold writeRequestStep at hstep
  split at hstep
  next operation rest hthread =>
    split_ifs at hstep with hmatched
    obtain ⟨client, hclient, rfl⟩ := Option.map_eq_some_iff.mp hstep
    have hnew : state.nextIdentity parameters ∉ state.client.requestsStatus := by
      intro hmem
      have hnumber := hinv.numbered _ hmem
      simp only [State.nextIdentity] at hnumber
      omega
    obtain ⟨hasking, hstatus, hcallbacks⟩ :=
      ClientApp.asking_write hinv.asking hnew hthread hclient
    constructor
    case serving => exact hinv.serving
    case asking => exact hasking
    case requests =>
      intro sample hmem
      rcases List.mem_append.mp hmem with hold | hsample
      · exact hinv.requests sample hold
      · rw [List.mem_singleton.mp hsample]
        refine ⟨⟨rfl, rfl, hmatched⟩, answerable_request hinv.asking hy ?_⟩
        exact hinv.asking.operations operation rest hthread operation (by simp)
    case replies => exact hinv.replies
    case numbered =>
      intro identity hmem
      rw [hstatus] at hmem
      push_cast
      rcases (AList.mem_insert _).mp hmem with rfl | hold
      · exact Int.le_refl _
      · have hnumber := hinv.numbered identity hold
        omega
    case tracked =>
      intro identity hawaits
      rw [ClientApp.State.Awaits, hstatus] at hawaits
      by_cases heq : identity = state.nextIdentity parameters
      · subst heq
        refine Or.inl ⟨state.requestSample parameters operation, ?_, rfl⟩
        exact List.mem_append_right _ (List.mem_singleton.mpr rfl)
      · rw [AList.lookup_insert_ne heq] at hawaits
        rcases hinv.tracked identity hawaits with
          ⟨sample, hmem, hidentity⟩ | hserverHolds | hreply | ⟨index, taken, hget, hrelated⟩
        · exact Or.inl ⟨sample, List.mem_append_left _ hmem, hidentity⟩
        · exact Or.inr (Or.inl hserverHolds)
        · exact Or.inr (Or.inr (Or.inl hreply))
        · exact Or.inr (Or.inr (Or.inr ⟨index, taken, hcallbacks ▸ hget, hrelated⟩))
  next => cases hstep

theorem completion_step {action : Action} (hy : parameters.y ≠ 0)
    (hinv : CompletionInvariant parameters state)
    (hstep : step parameters state action = some next) :
    CompletionInvariant parameters next := by
  cases action with
  | server action => exact completion_server hinv hstep
  | takeRequest index position => exact completion_takeRequest hinv hstep
  | writeReply => exact completion_writeReply hinv hstep
  | client action => exact completion_client hinv hstep
  | takeReply index position => exact completion_takeReply hinv hstep
  | writeRequest => exact completion_writeRequest hinv hy hstep
  | duplicateReply position =>
      obtain ⟨reply, hget, rfl⟩ := Option.map_eq_some_iff.mp hstep
      refine ⟨hinv.serving, hinv.asking, hinv.requests, ?_, hinv.numbered, ?_⟩
      · intro other hmem
        rcases List.mem_append.mp hmem with hold | hcopy
        · exact hinv.replies other hold
        · rw [List.mem_singleton.mp hcopy]
          exact hinv.replies reply (List.mem_of_getElem? hget)
      · intro identity hawaits
        rcases hinv.tracked identity hawaits with
          hrequest | hserverHolds | ⟨other, hmem, hidentity⟩ | hclientHolds
        · exact Or.inl hrequest
        · exact Or.inr (Or.inl hserverHolds)
        · exact Or.inr (Or.inr (Or.inl ⟨other, List.mem_append_left _ hmem, hidentity⟩))
        · exact Or.inr (Or.inr (Or.inr hclientHolds))
  | filterReply position =>
      simp only [step] at hstep
      split at hstep
      next => cases hstep
      next reply hget =>
        rw [if_pos (hinv.replies reply (List.mem_of_getElem? hget)).2] at hstep
        cases hstep

/-- In a quiescent state nothing is on its way. -/
theorem Quiescent.not_tracked (hquiet : Quiescent state) (identity : SampleIdentity) :
    ¬ state.Tracked identity := by
  obtain ⟨phase, hwaits⟩ := hquiet.serverWaits
  rintro (⟨sample, hmem, _⟩ | hserver | ⟨reply, hmem, _⟩ | ⟨index, taken, hget, _⟩)
  · rw [hquiet.noRequest] at hmem
    cases hmem
  · rcases hserver with ⟨index, callback, info, hget, htaken, _⟩ | ⟨request, hmem, _⟩
    · exact hquiet.noTakenRequest callback (List.mem_of_getElem? hget) info htaken
    · simp [ServerApp.State.pending, hwaits, ServerApp.ReplyPhase.held,
        hquiet.emptyQueue] at hmem
  · rw [hquiet.noReply] at hmem
    cases hmem
  · exact hquiet.noTakenReply _ (List.mem_of_getElem? hget) taken rfl

/-- All four requests have their replies, and the client has stopped. -/
def Complete (state : State) : Prop :=
  state.client.stop = true ∧
    ClientApp.allResponsesReceived state.client.requestsStatus = true

theorem CompletionInvariant.complete_of_quiescent
    (hinv : CompletionInvariant parameters state) (hquiet : Quiescent state) :
    Complete state := by
  by_cases hreturned : state.client.runThread = .returned
  · have hstop := hinv.asking.returned hreturned
    exact ⟨hstop, hinv.asking.stopped hstop⟩
  · have hsize := hinv.asking.size hreturned
    have hunsent : state.client.runThread.unsent = 0 := by
      have hsent := hquiet.sent
      cases hthread : state.client.runThread <;>
        simp_all [requestsSent, ClientApp.RunPhase.unsent]
    have hanswered : ∀ identity answered,
        state.client.requestsStatus.lookup identity = some answered → answered = true := by
      intro identity answered hlookup
      by_contra hwaits
      rw [Bool.not_eq_true] at hwaits
      subst hwaits
      exact hquiet.not_tracked identity (hinv.tracked identity hlookup)
    have hall : ClientApp.allResponsesReceived state.client.requestsStatus = true := by
      have hentries := AList.forall_entries_iff.mpr hanswered
      simp only [ClientApp.allResponsesReceived, Bool.and_eq_true, decide_eq_true_eq,
        List.all_eq_true]
      exact ⟨by omega, hentries⟩
    exact ⟨hinv.asking.complete hall, hall⟩

/-! ## The division by zero -/

/-- The client sends its requests to a constructed server which it is matched
with; each side is in one call of `on_data_available`. -/
def sendingActions : List Action :=
  List.replicate 4 (.server .construct) ++
    [.server (.subscriptionMatched 1 1), .server (.publicationMatched 1 1),
      .server .dataAvailable, .client (.publicationMatched 2 1),
      .client (.subscriptionMatched 2 1), .client .dataAvailable] ++
    List.replicate 6 (.client .run) ++
    [.client .graceTimeout, .client .run, .client .run] ++
    List.replicate 4 .writeRequest

/-- The server takes one request and answers it. -/
def answerActions : List Action :=
  [.server (.callback 0), .takeRequest 0 0, .server (.callback 0)] ++
    List.replicate 7 (.server .reply) ++
    [.writeReply, .server .reply, .client (.callback 0), .takeReply 0 0,
      .client (.callback 0)]

/-- The server takes a request that it cannot answer, and waits. -/
def ignoreActions : List Action :=
  [.server (.callback 0), .takeRequest 0 0, .server (.callback 0)] ++
    List.replicate 11 (.server .reply)

def zeroParameters (x : Int16) : Parameters :=
  ⟨x, 0, "client", ⟨1, 3⟩, ⟨2, 4⟩⟩

def zeroIdentity (number : ℤ) : SampleIdentity := ⟨⟨1, 3⟩, number⟩

def zeroSample (x : Int16) (operation : CalculatorOperationType) (number : ℤ) :
    Sample :=
  ⟨⟨.alive, true, ⟨1, 3⟩, zeroIdentity number⟩, ⟨"client", operation, x, 0⟩⟩

def zeroRequests (x : Int16) : List Sample :=
  [zeroSample x .addition 1, zeroSample x .subtraction 2,
    zeroSample x .multiplication 3, zeroSample x .division 4]

def zeroWrites (x : Int16) : List ServerApp.Write :=
  [⟨0, zeroIdentity 1, ⟨"client", x.toInt32 + (0 : Int16).toInt32⟩, true⟩,
    ⟨1, zeroIdentity 2, ⟨"client", x.toInt32 - (0 : Int16).toInt32⟩, true⟩,
    ⟨2, zeroIdentity 3, ⟨"client", x.toInt32 * (0 : Int16).toInt32⟩, true⟩]

/-- The entries of `requests_status_` once the first `answered` requests have
their replies. -/
def zeroStatus : ℕ → ClientApp.RequestsStatus
  | 0 => List.foldl (fun status number => status.insert (zeroIdentity number) false)
      ∅ [1, 2, 3, 4]
  | answered + 1 => (zeroStatus answered).insert (zeroIdentity (answered + 1)) true

/-- The state when the first `answered` requests have their replies and the
others are in flight. -/
def zeroState (x : Int16) (answered : ℕ) (object : CalculatorRequestType) : State where
  server :=
    { ServerApp.initial with
      constructorPhase := .replyWriterAssigned
      clientMatchedStatus :=
        RemoteClientMatchedStatus.matchReplyReader
          (RemoteClientMatchedStatus.matchRequestWriter ∅ 1 true) 1 true
      callbacks := [⟨object, .testStop⟩]
      accepted := (zeroRequests x).take answered
      writes := (zeroWrites x).take answered }
  client :=
    { ClientApp.initial (x, 0) "client" with
      serverMatchedStatus :=
        RemoteServerMatchedStatus.matchReplyWriter
          (RemoteServerMatchedStatus.matchRequestReader ∅ 2 true) 2 true
      requestsStatus := zeroStatus answered
      callbacks := [.testStop]
      runThread := .lockForReplies }
  requests := (zeroRequests x).drop answered
  replies := []
  sent := 4

theorem run_sendingActions (x : Int16) :
    (system (zeroParameters x)).run (initial (zeroParameters x)) sendingActions =
      some (zeroState x 0 .default) := by
  rfl

theorem run_addition (x : Int16) :
    (system (zeroParameters x)).run (zeroState x 0 .default) answerActions =
      some (zeroState x 1 (zeroSample x .addition 1).data) := by
  rfl

theorem run_subtraction (x : Int16) :
    (system (zeroParameters x)).run (zeroState x 1 (zeroSample x .addition 1).data)
        answerActions =
      some (zeroState x 2 (zeroSample x .subtraction 2).data) := by
  rfl

theorem run_multiplication (x : Int16) :
    (system (zeroParameters x)).run (zeroState x 2 (zeroSample x .subtraction 2).data)
        answerActions =
      some (zeroState x 3 (zeroSample x .multiplication 3).data) := by
  rfl

/-- The quiescent state in which the client waits for ever. -/
def stuckState (x : Int16) : State :=
  let before := zeroState x 3 (zeroSample x .division 4).data
  { before with
    server :=
      { before.server with
        accepted := zeroRequests x
        replyThread := .wait .blocked
        dropped := [3] }
    requests := [] }

theorem run_division (x : Int16) :
    (system (zeroParameters x)).run (zeroState x 3 (zeroSample x .multiplication 3).data)
        ignoreActions =
      some (stuckState x) := by
  rfl

theorem stuckState_reachable (x : Int16) :
    (system (zeroParameters x)).Reachable (stuckState x) := by
  have hsent : (system (zeroParameters x)).Reachable (zeroState x 0 .default) :=
    TransitionSystem.Reachable.initial.run (run_sendingActions x)
  exact (((hsent.run (run_addition x)).run (run_subtraction x)).run
    (run_multiplication x)).run (run_division x)

theorem stuckState_quiescent (x : Int16) : Quiescent (stuckState x) := by
  refine ⟨rfl, rfl, rfl, ?_, ?_, rfl, ⟨.blocked, rfl⟩⟩
  · intro callback hmem info
    rw [List.mem_singleton.mp hmem]
    simp
  · intro callback hmem sample
    rw [List.mem_singleton.mp hmem]
    simp

theorem stuckState_not_complete (x : Int16) : ¬ Complete (stuckState x) := by
  intro hcomplete
  cases hcomplete.1

/-! ## The result -/

/-- Every run of the exchange is complete once it is quiescent, whatever the
interleaving and the order and duplication of the replies, exactly if the
divisor is not zero. -/
theorem exchange_completes_iff (x y : Int16) :
    (∀ clientId requestWriter replyWriter state,
      (system ⟨x, y, clientId, requestWriter, replyWriter⟩).Reachable state →
        Quiescent state → Complete state) ↔ y ≠ 0 := by
  constructor
  · rintro hcompletes rfl
    exact stuckState_not_complete x
      (hcompletes _ _ _ _ (stuckState_reachable x) (stuckState_quiescent x))
  · intro hy clientId requestWriter replyWriter state hreach hquiet
    have hinv : CompletionInvariant ⟨x, y, clientId, requestWriter, replyWriter⟩ state := by
      apply hreach.invariant (CompletionInvariant _) initial_completionInvariant
      intro before action after hbefore hstep
      exact completion_step hy hbefore hstep
    exact hinv.complete_of_quiescent hquiet

/-- A client started with `7` and `0` waits for ever. -/
theorem exchange_stuck_divisionByZero :
    ∃ state, (system (zeroParameters 7)).Reachable state ∧ Quiescent state ∧
      state.client.stop = false :=
  ⟨stuckState 7, stuckState_reachable 7, stuckState_quiescent 7, rfl⟩

end CppProj.RequestReply.Exchange
