import CppProj.RequestReplyServerApp

/-!
# What one step of the server can do

`step` is read back once, as the relation `Transition` with one constructor
for each kind of effect, guards included.  Every invariant of the server is
then a case analysis of `Transition`, and no later proof unfolds `step`.
-/

namespace CppProj.RequestReply.ServerApp

/-- Steps of the reply thread that touch no request. -/
inductive ReplyMove (state : State) : ReplyPhase → Prop where
  | testLoop (hthread : state.replyThread = .testLoop) :
      ReplyMove state (if state.stop then .returned else .lock)
  | acquire (hthread : state.replyThread = .lock ∨ state.replyThread = .wait .notified)
      (hfree : state.mutexFree = true) :
      ReplyMove state (.wait .testing)
  | predicateTrue (hthread : state.replyThread = .wait .testing)
      (hpredicate : 0 < state.requests.length ∨ state.stop = true) :
      ReplyMove state .testStop
  | predicateFalse (hthread : state.replyThread = .wait .testing)
      (hempty : state.requests = []) (hstop : state.stop = false) :
      ReplyMove state (.wait .blocking)
  | block (hthread : state.replyThread = .wait .blocking) :
      ReplyMove state (.wait .blocked)
  | stopped (hthread : state.replyThread = .testStop) (hstop : state.stop = true) :
      ReplyMove state .unlock
  | unlock (hthread : state.replyThread = .unlock) : ReplyMove state .testLoop

inductive RunMove (state : State) : RunPhase → Prop where
  | start (hthread : state.runThread = .notStarted)
      (hconstructed : state.replyWriterIsNull = false) : RunMove state .lock
  | acquire (hthread : state.runThread = .lock ∨ state.runThread = .wait .notified)
      (hfree : state.mutexFree = true) :
      RunMove state (.wait .testing)
  | predicateTrue (hthread : state.runThread = .wait .testing)
      (hstop : state.stop = true) : RunMove state .returned
  | predicateFalse (hthread : state.runThread = .wait .testing)
      (hstop : state.stop = false) : RunMove state (.wait .blocking)
  | block (hthread : state.runThread = .wait .blocking) :
      RunMove state (.wait .blocked)

/-- Steps of an `on_data_available` call that move it in its loop only. -/
inductive CallbackMove (state : State) (callback : DataAvailable) :
    CallbackPhase → Prop where
  | testStop (hphase : callback.phase = .testStop) :
      CallbackMove state callback (if state.stop then .returned else .takeNext)
  | noSample (hphase : callback.phase = .takeNext) :
      CallbackMove state callback .returned
  | skip (info : SampleInfo) (hphase : callback.phase = .taken info)
      (hdata : info.carriesData = false) :
      CallbackMove state callback .testStop

/-- The callbacks that report a change of the matched endpoints. -/
def Action.isListener : Action → Bool
  | .participantDiscovery _ _ _ | .publicationMatched _ _ | .subscriptionMatched _ _ => true
  | _ => false

/-- The steps of an `on_data_available` call that take no sample. -/
def Action.movesCallback : Action → Bool
  | .callback _ | .take _ none => true
  | _ => false

inductive Transition (state : State) : Action → State → Prop where
  | construct (phase : ConstructorPhase)
      (hnext : state.constructorPhase.next = some phase) :
      Transition state .construct { state with constructorPhase := phase }
  | rematch (action : Action) (matched : MatchedStatus) (nullDereference : Bool)
      (hfree : state.mutexFree = true)
      (hlistener : action.isListener = true) :
      Transition state action
        { state with
          clientMatchedStatus := matched
          nullDereference := nullDereference }
  | dataAvailable : Transition state .dataAvailable (onDataAvailable state)
  | moveCallback (action : Action) (index : ℕ) (callback : DataAvailable)
      (phase : CallbackPhase)
      (hget : state.callbacks[index]? = some callback)
      (hmove : CallbackMove state callback phase)
      (hcallback : action.movesCallback = true) :
      Transition state action
        (state.setCallback index { callback with phase := phase })
  | take (index : ℕ) (callback : DataAvailable) (sample : Sample)
      (hget : state.callbacks[index]? = some callback)
      (hphase : callback.phase = .takeNext) :
      Transition state (.take index (some sample))
        (state.setCallback index ⟨sample.data, .taken sample.info⟩)
  | push (index : ℕ) (callback : DataAvailable) (info : SampleInfo)
      (hget : state.callbacks[index]? = some callback)
      (hphase : callback.phase = .taken info)
      (hdata : info.carriesData = true) (hfree : state.mutexFree = true) :
      Transition state (.callback index)
        ((state.push index info callback.object).setCallback index
          { callback with phase := .testStop })
  | replyMove (phase : ReplyPhase) (hmove : ReplyMove state phase) :
      Transition state .reply { state with replyThread := phase }
  | pop (request : Request) (rest : List Request)
      (hthread : state.replyThread = .testStop) (hstop : state.stop = false)
      (hrequests : state.requests = request :: rest) :
      Transition state .reply
        { state with
          requests := rest
          replyThread := .process request .lookUpClient }
  | drop (request : Request) (stage : ReplyStage)
      (hthread : state.replyThread = .process request stage)
      (hreason :
        stage = .lookUpClient ∧
            RemoteClientMatchedStatus.Gone state.clientMatchedStatus
              request.clientGuidPrefix ∨
          stage = .calculateResult ∧
            ∃ data, state.object? request = some data ∧ calculate data = none) :
      Transition state .reply
        { state with
          replyThread := .unlock
          dropped := state.dropped ++ [request.ticket] }
  | requeue (request : Request)
      (hthread : state.replyThread = .process request .lookUpClient)
      (hhalf : state.clientMatchedStatus.isMatched request.clientGuidPrefix = false) :
      Transition state .reply
        { state with
          replyThread := .unlock
          requests := state.requests ++ [request] }
  | lookUp (request : Request)
      (hthread : state.replyThread = .process request .lookUpClient)
      (hmatched : state.clientMatchedStatus.isMatched request.clientGuidPrefix = true) :
      Transition state .reply
        { state with replyThread := .process request .calculateResult }
  | calculate (request : Request) (data : CalculatorRequestType) (result : Int32)
      (hthread : state.replyThread = .process request .calculateResult)
      (hobject : state.object? request = some data)
      (hresult : RequestReply.calculate data = some result) :
      Transition state .reply
        { state with replyThread := .process request (.prepareReply result) }
  | prepare (request : Request) (data : CalculatorRequestType) (result : Int32)
      (hthread : state.replyThread = .process request (.prepareReply result))
      (hobject : state.object? request = some data) :
      Transition state .reply
        { state with
          replyThread := .process request (.writeReply ⟨data.clientId, result⟩) }
  | writeNull (ok : Bool) (request : Request) (reply : CalculatorReplyType)
      (hthread : state.replyThread = .process request (.writeReply reply))
      (hnull : state.replyWriterIsNull = true) :
      Transition state (.write ok) { state with nullDereference := true }
  | write (ok : Bool) (request : Request) (reply : CalculatorReplyType)
      (hthread : state.replyThread = .process request (.writeReply reply))
      (hwriter : state.replyWriterIsNull = false) :
      Transition state (.write ok)
        { state with
          replyThread := .unlock
          requests := if ok then state.requests else state.requests ++ [request]
          writes := state.writes ++
            [⟨request.ticket, request.info.sampleIdentity, reply, ok⟩] }
  | run (phase : RunPhase) (hmove : RunMove state phase) :
      Transition state .run { state with runThread := phase }
  | stopStore (hwriter : state.replyWriterIsNull = false) :
      Transition state .stopStore
        { state with
          stop := true
          pendingNotifications := state.pendingNotifications + 1 }
  | stopNotify (hpending : 0 < state.pendingNotifications) :
      Transition state .stopNotify
        { state.notifyAll with
          pendingNotifications := state.pendingNotifications - 1 }

theorem replyStep_transition {state next : State}
    (hstep : replyStep state = some next) : Transition state .reply next := by
  unfold replyStep at hstep
  split at hstep
  next hthread =>
    cases hstep
    exact .replyMove _ (.testLoop hthread)
  next hthread =>
    split_ifs at hstep with hfree
    cases hstep
    exact .replyMove _ (.acquire (Or.inl hthread) hfree)
  next hthread =>
    split_ifs at hstep with hfree
    cases hstep
    exact .replyMove _ (.acquire (Or.inr hthread) hfree)
  next hthread =>
    split_ifs at hstep with hpredicate
    · cases hstep
      exact .replyMove _ (.predicateTrue hthread hpredicate)
    · cases hstep
      simp only [not_or, Nat.not_lt, Nat.le_zero, List.length_eq_zero_iff,
        Bool.not_eq_true] at hpredicate
      exact .replyMove _ (.predicateFalse hthread hpredicate.1 hpredicate.2)
  next hthread =>
    cases hstep
    exact .replyMove _ (.block hthread)
  next => cases hstep
  next hthread =>
    split_ifs at hstep with hstop
    · cases hstep
      exact .replyMove _ (.stopped hthread hstop)
    · split at hstep
      next => cases hstep
      next request rest hrequests =>
        cases hstep
        exact .pop request rest hthread (by simpa using hstop) hrequests
  next request stage hthread =>
    cases stage with
    | lookUpClient =>
        simp only [processStep, Bool.not_eq_eq_eq_not, Bool.not_true] at hstep
        split_ifs at hstep with hgone hhalf
        · cases hstep
          exact .drop request _ hthread (Or.inl ⟨rfl,
            RemoteClientMatchedStatus.isFullyUnmatched_eq_false_iff.mp hgone⟩)
        · cases hstep
          exact .requeue request hthread hhalf
        · cases hstep
          exact .lookUp request hthread (by simpa using hhalf)
    | calculateResult =>
        simp only [processStep] at hstep
        split at hstep
        next => cases hstep
        next data hobject =>
          split at hstep
          next hnone =>
            cases hstep
            exact .drop request _ hthread (Or.inr ⟨rfl, data, hobject, hnone⟩)
          next result hresult =>
            cases hstep
            exact .calculate request data result hthread hobject hresult
    | prepareReply result =>
        simp only [processStep] at hstep
        split at hstep
        next => cases hstep
        next data hobject =>
          cases hstep
          exact .prepare request data result hthread hobject
    | writeReply reply => cases hstep
  next hthread =>
    cases hstep
    exact .replyMove _ (.unlock hthread)
  next => cases hstep

theorem callbackStep_transition {state next : State} {index : ℕ}
    (hstep : callbackStep state index = some next) :
    Transition state (.callback index) next := by
  unfold callbackStep at hstep
  split at hstep
  next => cases hstep
  next callback hget =>
    split at hstep
    next hphase =>
      cases hstep
      exact .moveCallback _ index callback _ hget (.testStop hphase) rfl
    next info hphase =>
      split_ifs at hstep with hdata hfree
      · cases hstep
        exact .push index callback info hget hphase hdata hfree
      · cases hstep
        exact .moveCallback _ index callback _ hget
          (.skip info hphase (by simpa using hdata)) rfl
    next => cases hstep
    next => cases hstep

theorem takeStep_transition {state next : State} {index : ℕ} {sample : Option Sample}
    (hstep : takeStep state index sample = some next) :
    Transition state (.take index sample) next := by
  unfold takeStep at hstep
  split at hstep
  next => cases hstep
  next callback hget =>
    split at hstep
    next hphase =>
      cases sample with
      | some sample =>
          cases hstep
          exact .take index callback sample hget hphase
      | none =>
          cases hstep
          exact .moveCallback _ index callback _ hget (.noSample hphase) rfl
    next => cases hstep
    next => cases hstep
    next => cases hstep

theorem runStep_transition {state next : State}
    (hstep : runStep state = some next) : Transition state .run next := by
  unfold runStep at hstep
  split at hstep
  next hthread =>
    split_ifs at hstep with hnull
    cases hstep
    exact .run _ (.start hthread (by simpa using hnull))
  next hthread =>
    split_ifs at hstep with hfree
    cases hstep
    exact .run _ (.acquire (Or.inl hthread) hfree)
  next hthread =>
    split_ifs at hstep with hfree
    cases hstep
    exact .run _ (.acquire (Or.inr hthread) hfree)
  next hthread =>
    cases hstep
    by_cases hstop : state.stop = true
    · rw [if_pos hstop]
      exact .run _ (.predicateTrue hthread hstop)
    · rw [if_neg hstop]
      exact .run _ (.predicateFalse hthread (by simpa using hstop))
  next hthread =>
    cases hstep
    exact .run _ (.block hthread)
  next => cases hstep
  next => cases hstep

theorem writeStep_transition {state next : State} {ok : Bool}
    (hstep : writeStep state ok = some next) : Transition state (.write ok) next := by
  unfold writeStep at hstep
  split at hstep
  next request reply hthread =>
    by_cases hnull : state.replyWriterIsNull = true
    · rw [if_pos hnull] at hstep
      cases hstep
      exact .writeNull ok request reply hthread hnull
    · rw [if_neg hnull] at hstep
      cases hstep
      exact .write ok request reply hthread (by simpa using hnull)
  next => cases hstep

/-- A matching callback changes the matched endpoints, and dereferences the
null writer or not; it does nothing else. -/
theorem onEndpointMatched_eq
    (matchEndpoint : MatchedStatus → GuidPrefix → Bool → MatchedStatus)
    (state : State) (guidPrefix : GuidPrefix) (currentCountChange : ℤ) :
    ∃ matched nullDereference,
      onEndpointMatched matchEndpoint state guidPrefix currentCountChange =
        { state with
          clientMatchedStatus := matched
          nullDereference := nullDereference } := by
  unfold onEndpointMatched
  split_ifs
  · exact ⟨_, state.nullDereference, rfl⟩
  · exact ⟨_, _, rfl⟩
  · exact ⟨_, state.nullDereference, rfl⟩

theorem onParticipantDiscovery_eq (state : State)
    (status : ParticipantDiscoveryStatus) (guidPrefix : GuidPrefix)
    (userData : List UInt8) :
    ∃ matched,
      onParticipantDiscovery state status guidPrefix userData =
        { state with clientMatchedStatus := matched } := by
  unfold onParticipantDiscovery
  split_ifs
  · exact ⟨state.clientMatchedStatus, rfl⟩
  · exact ⟨_, rfl⟩
  · exact ⟨state.clientMatchedStatus, rfl⟩

theorem nullDereference_of_step {state next : State} {action : Action}
    (hstep : step state action = some next) : state.nullDereference = false := by
  by_contra hnull
  simp [step, hnull] at hstep

theorem transition_of_step {state next : State} {action : Action}
    (hstep : step state action = some next) : Transition state action next := by
  have hsafe : ¬ state.nullDereference = true := by
    simp [nullDereference_of_step hstep]
  unfold step at hstep
  rw [if_neg hsafe] at hstep
  cases action with
  | construct =>
      obtain ⟨phase, hnext, rfl⟩ := Option.map_eq_some_iff.mp hstep
      exact .construct phase hnext
  | participantDiscovery status guidPrefix userData =>
      simp only [Bool.and_eq_true] at hstep
      split_ifs at hstep with hguard
      cases hstep
      obtain ⟨matched, heq⟩ := onParticipantDiscovery_eq state status guidPrefix userData
      rw [heq]
      exact .rematch (.participantDiscovery status guidPrefix userData) matched
        state.nullDereference hguard.2 rfl
  | publicationMatched guidPrefix currentCountChange =>
      simp only [Bool.and_eq_true] at hstep
      split_ifs at hstep with hguard
      cases hstep
      obtain ⟨matched, nullDereference, heq⟩ := onEndpointMatched_eq
        RemoteClientMatchedStatus.matchReplyReader state guidPrefix currentCountChange
      rw [onPublicationMatched, heq]
      exact .rematch _ matched nullDereference hguard.2 rfl
  | subscriptionMatched guidPrefix currentCountChange =>
      simp only [Bool.and_eq_true] at hstep
      split_ifs at hstep with hguard
      cases hstep
      obtain ⟨matched, nullDereference, heq⟩ := onEndpointMatched_eq
        RemoteClientMatchedStatus.matchRequestWriter state guidPrefix currentCountChange
      rw [onSubscriptionMatched, heq]
      exact .rematch _ matched nullDereference hguard.2 rfl
  | dataAvailable =>
      simp only at hstep
      split_ifs at hstep with hreader
      cases hstep
      exact .dataAvailable
  | callback index => exact callbackStep_transition hstep
  | take index sample => exact takeStep_transition hstep
  | reply => exact replyStep_transition hstep
  | write ok => exact writeStep_transition hstep
  | run => exact runStep_transition hstep
  | stopStore =>
      simp only at hstep
      split_ifs at hstep with hnull
      cases hstep
      exact .stopStore (by simpa using hnull)
  | stopNotify =>
      simp only at hstep
      split_ifs at hstep with hpending
      cases hstep
      exact .stopNotify hpending

end CppProj.RequestReply.ServerApp
