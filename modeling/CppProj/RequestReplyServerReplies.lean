import CppProj.ListUpdate
import CppProj.RequestReplyServerTransitions

/-!
# Which payload a reply answers

`on_data_available` makes one request object for all the samples that it takes,
and the queued requests of that call share it.  A reply is computed from the
object, so it answers the right payload as long as no later take of the same
call replaces the payload of a request that still waits.  `TakesKeepPending` is
that condition on one step, and the invariant below carries it through every
interleaving of the takes with the queue.
-/

namespace CppProj.RequestReply.ServerApp

def ReplyPhase.held : ReplyPhase → Option Request
  | .process request _ => some request
  | _ => none

/-- The requests that the server has not disposed of. -/
def State.pending (state : State) : List Request :=
  state.replyThread.held.toList ++ state.requests

/-- The service gives the two payloads the same answer. -/
def SameAnswer (left right : CalculatorRequestType) : Prop :=
  left.clientId = right.clientId ∧ calculate left = calculate right

instance (left right : CalculatorRequestType) : Decidable (SameAnswer left right) :=
  inferInstanceAs (Decidable (_ ∧ _))

/-- The written reply carries the client and the result of the payload that
arrived in the sample it is related to. -/
def ReplyCorrect (state : State) (write : Write) : Prop :=
  ∃ sample ∈ state.accepted[write.ticket]?,
    sample.info.sampleIdentity = write.relatedSampleIdentity ∧
      write.reply.clientId = sample.data.clientId ∧
      calculate sample.data = some write.reply.result

/-- A take stores no payload with another answer into the object of a request
that still waits. -/
def TakesKeepPending (state : State) : Action → Prop
  | .take index (some sample) =>
      ∀ request ∈ state.pending, request.request = index →
        ∀ arrived ∈ state.accepted[request.ticket]?,
          SameAnswer sample.data arrived.data
  | _ => True

instance (state : State) (action : Action) :
    Decidable (TakesKeepPending state action) :=
  match action with
  | .take _ (some _) => inferInstanceAs (Decidable (∀ _ ∈ _, _))
  | .take _ none | .construct | .participantDiscovery _ _ _
  | .publicationMatched _ _ | .subscriptionMatched _ _ | .dataAvailable
  | .callback _ | .reply | .write _ | .run | .stopStore | .stopNotify =>
      isTrue trivial

/-! ## Small facts about the pieces of the state -/

@[simp] theorem held_notify (phase : ReplyPhase) : phase.notify.held = phase.held := by
  cases phase <;> rfl

theorem notify_eq_process_iff {phase : ReplyPhase} {request : Request}
    {stage : ReplyStage} :
    phase.notify = .process request stage ↔ phase = .process request stage := by
  cases phase <;> simp [ReplyPhase.notify]

theorem ReplyMove.held_eq_none {state : State} {phase : ReplyPhase}
    (hmove : ReplyMove state phase) :
    phase.held = none ∧ state.replyThread.held = none := by
  cases hmove with
  | testLoop hthread =>
      rw [hthread]
      cases state.stop <;> exact ⟨rfl, rfl⟩
  | acquire hthread hfree =>
      rcases hthread with hthread | hthread <;> rw [hthread] <;> exact ⟨rfl, rfl⟩
  | predicateTrue hthread hpredicate => rw [hthread]; exact ⟨rfl, rfl⟩
  | predicateFalse hthread hempty hstop => rw [hthread]; exact ⟨rfl, rfl⟩
  | block hthread => rw [hthread]; exact ⟨rfl, rfl⟩
  | stopped hthread hstop => rw [hthread]; exact ⟨rfl, rfl⟩
  | unlock hthread => rw [hthread]; exact ⟨rfl, rfl⟩

theorem held_process {phase : ReplyPhase} {request : Request}
    (hheld : phase.held = none) (stage : ReplyStage) :
    phase ≠ .process request stage := by
  rintro rfl
  simp [ReplyPhase.held] at hheld

theorem pending_of_process {state : State} {request : Request} {stage : ReplyStage}
    (hthread : state.replyThread = .process request stage) :
    state.pending = request :: state.requests := by
  simp [State.pending, ReplyPhase.held, hthread]

theorem mem_pending_of_process {state : State} {request : Request} {stage : ReplyStage}
    (hthread : state.replyThread = .process request stage) : request ∈ state.pending := by
  rw [pending_of_process hthread]
  exact List.mem_cons_self

/-- A request that goes back to the end of the queue was pending. -/
theorem mem_pending_of_requeue {state : State} {request : Request} {stage : ReplyStage}
    (hthread : state.replyThread = .process request stage) {other : Request}
    (hmem : other ∈ state.requests ++ [request]) : other ∈ state.pending := by
  rw [pending_of_process hthread]
  exact (List.perm_append_singleton request state.requests).mem_iff.mp hmem

/-- Only the callbacks add requests. -/
theorem pending_subset_of_step {state next : State} {action : Action}
    (hstep : step state action = some next) (hcallback : ∀ index, action ≠ .callback index) :
    next.pending ⊆ state.pending := by
  intro other hmem
  cases transition_of_step hstep with
  | construct | rematch | dataAvailable | moveCallback | take | writeNull | run | stopStore =>
      exact hmem
  | push index => exact (hcallback index rfl).elim
  | replyMove phase hmove =>
      obtain ⟨hnext, hstate⟩ := hmove.held_eq_none
      simpa [State.pending, hnext, hstate] using hmem
  | pop request rest hthread hstop hrequests =>
      simpa [State.pending, ReplyPhase.held, hthread, hrequests] using hmem
  | drop request stage hthread => exact List.mem_append_right _ hmem
  | requeue request hthread => exact mem_pending_of_requeue hthread hmem
  | lookUp request hthread | calculate request _ _ hthread | prepare request _ _ hthread =>
      rw [pending_of_process hthread]
      exact hmem
  | write ok request reply hthread =>
      cases ok with
      | true => exact List.mem_append_right _ hmem
      | false => exact mem_pending_of_requeue hthread hmem
  | stopNotify => simpa [State.pending, State.notifyAll] using hmem

theorem object?_setCallback_of_object_eq {state : State} {index : ℕ}
    {callback : DataAvailable} (updated : DataAvailable)
    (hget : state.callbacks[index]? = some callback)
    (hobject : updated.object = callback.object) (request : Request) :
    (state.setCallback index updated).object? request = state.object? request := by
  unfold State.object? State.setCallback
  rw [List.getElem?_set]
  by_cases heq : index = request.request
  · have hlt : index < state.callbacks.length := List.getElem?_eq_some_iff.mp hget |>.1
    rw [if_pos heq, if_pos hlt, ← heq, hget]
    simp [hobject]
  · rw [if_neg heq]

theorem object?_setCallback_of_ne {state : State} {index : ℕ}
    (updated : DataAvailable) {request : Request} (hne : request.request ≠ index) :
    (state.setCallback index updated).object? request = state.object? request := by
  unfold State.object? State.setCallback
  rw [List.getElem?_set, if_neg (Ne.symm hne)]

theorem object?_setCallback_self {state : State} {index : ℕ}
    {callback : DataAvailable} (hget : state.callbacks[index]? = some callback)
    (updated : DataAvailable) {request : Request} (heq : request.request = index) :
    (state.setCallback index updated).object? request = some updated.object := by
  have hlt : index < state.callbacks.length := List.getElem?_eq_some_iff.mp hget |>.1
  unfold State.object? State.setCallback
  rw [List.getElem?_set, if_pos heq.symm, if_pos hlt]
  rfl

theorem object?_onDataAvailable {state : State} {request : Request}
    {data : CalculatorRequestType} (hobject : state.object? request = some data) :
    (onDataAvailable state).object? request = some data := by
  unfold State.object? at hobject
  obtain ⟨callback, hget, hdata⟩ := Option.map_eq_some_iff.mp hobject
  have hlt : request.request < state.callbacks.length :=
    List.getElem?_eq_some_iff.mp hget |>.1
  unfold State.object? onDataAvailable
  rw [List.getElem?_append_left hlt, hget]
  exact congrArg some hdata

/-! ## The invariant -/

/-- Every waiting request still finds its own answer in its object, and what
the reply thread has prepared so far is that answer. -/
structure AnswersInvariant (state : State) : Prop where
  waiting : ∀ request ∈ state.pending,
    ∃ data sample, state.object? request = some data ∧
      state.accepted[request.ticket]? = some sample ∧
      sample.info = request.info ∧ SameAnswer data sample.data
  prepared : ∀ request result,
    state.replyThread = .process request (.prepareReply result) →
      ∀ sample, state.accepted[request.ticket]? = some sample →
        calculate sample.data = some result
  ready : ∀ request reply,
    state.replyThread = .process request (.writeReply reply) →
      ∀ sample, state.accepted[request.ticket]? = some sample →
        reply.clientId = sample.data.clientId ∧
          calculate sample.data = some reply.result
  written : ∀ write ∈ state.writes, ReplyCorrect state write

theorem initial_answersInvariant : AnswersInvariant initial := by
  constructor <;> simp [initial, State.pending, ReplyPhase.held]

theorem ReplyCorrect.mono {state next : State} {write : Write}
    (haccepted : ∀ (index : ℕ) (sample : Sample), state.accepted[index]? = some sample →
      next.accepted[index]? = some sample)
    (hcorrect : ReplyCorrect state write) : ReplyCorrect next write := by
  obtain ⟨sample, hsample, hrest⟩ := hcorrect
  exact ⟨sample, haccepted _ _ hsample, hrest⟩

/-- A step which disposes of requests or moves the threads, but neither
overwrites an object nor prepares a reply, keeps the invariant. -/
theorem AnswersInvariant.frame {state next : State}
    (hinv : AnswersInvariant state)
    (hpending : ∀ request ∈ next.pending, request ∈ state.pending)
    (hobject : ∀ request data, state.object? request = some data →
      next.object? request = some data)
    (hthread : ∀ request stage, next.replyThread = .process request stage →
      stage = .lookUpClient ∨ stage = .calculateResult ∨
        state.replyThread = .process request stage)
    (haccepted : next.accepted = state.accepted)
    (hwrites : next.writes = state.writes) : AnswersInvariant next := by
  constructor
  · intro request hmem
    obtain ⟨data, sample, hdata, hsample⟩ := hinv.waiting request (hpending request hmem)
    exact ⟨data, sample, hobject request data hdata, haccepted ▸ hsample⟩
  · intro request result hnext
    rcases hthread request _ hnext with hstage | hstage | hstate
    · cases hstage
    · cases hstage
    · rw [haccepted]
      exact hinv.prepared request result hstate
  · intro request reply hnext
    rcases hthread request _ hnext with hstage | hstage | hstate
    · cases hstage
    · cases hstage
    · rw [haccepted]
      exact hinv.ready request reply hstate
  · intro write hmem
    rw [hwrites] at hmem
    exact ReplyCorrect.mono (by simp [haccepted]) (hinv.written write hmem)

theorem AnswersInvariant.afterTake {state : State} (hinv : AnswersInvariant state)
    {index : ℕ} {callback : DataAvailable} {sample : Sample}
    (hget : state.callbacks[index]? = some callback)
    (hkeep : TakesKeepPending state (.take index (some sample))) :
    AnswersInvariant
      (state.setCallback index ⟨sample.data, .taken sample.info⟩) := by
  refine ⟨?_, hinv.prepared, hinv.ready, hinv.written⟩
  intro request hmem
  obtain ⟨data, arrived, hdata, harrived, hinfo, hsame⟩ := hinv.waiting request hmem
  by_cases heq : request.request = index
  · refine ⟨sample.data, arrived, object?_setCallback_self hget _ heq, harrived, hinfo, ?_⟩
    exact hkeep request hmem heq arrived harrived
  · refine ⟨data, arrived, ?_, harrived, hinfo, hsame⟩
    rw [object?_setCallback_of_ne _ heq]
    exact hdata

theorem AnswersInvariant.afterPush {state : State} (hinv : AnswersInvariant state)
    {index : ℕ} {callback : DataAvailable} {info : SampleInfo}
    (hget : state.callbacks[index]? = some callback) :
    AnswersInvariant
      ((state.push index info callback.object).setCallback index
        { callback with phase := .testStop }) := by
  have haccepted : ∀ position sample, state.accepted[position]? = some sample →
      (state.accepted ++ [⟨info, callback.object⟩])[position]? = some sample :=
    fun _ _ h => ListUpdate.getElem?_append_of_eq_some h _
  -- a ticket is bound to one sample, so the old sample of a known ticket is kept
  have hback : ∀ request ∈ state.pending, ∀ sample,
      (state.accepted ++ [⟨info, callback.object⟩])[request.ticket]? = some sample →
        state.accepted[request.ticket]? = some sample := by
    intro request hmem sample hsample
    obtain ⟨_, arrived, _, harrived, _⟩ := hinv.waiting request hmem
    rw [haccepted _ _ harrived] at hsample
    rw [harrived, hsample]
  have hobject : ∀ request,
      ((state.push index info callback.object).setCallback index
        { callback with phase := .testStop }).object? request = state.object? request := by
    intro request
    exact object?_setCallback_of_object_eq { callback with phase := .testStop }
      (show (state.push index info callback.object).callbacks[index]? = some callback
        from hget) rfl request
  constructor
  · intro request hmem
    rw [hobject]
    simp only [State.pending, State.setCallback, State.push, State.notifyAll,
      held_notify, List.mem_append, List.mem_singleton] at hmem
    rcases hmem with hold | hold | rfl
    · obtain ⟨data, sample, hdata, hsample, hrest⟩ :=
        hinv.waiting request (List.mem_append_left _ hold)
      exact ⟨data, sample, hdata, haccepted _ _ hsample, hrest⟩
    · obtain ⟨data, sample, hdata, hsample, hrest⟩ :=
        hinv.waiting request (List.mem_append_right _ hold)
      exact ⟨data, sample, hdata, haccepted _ _ hsample, hrest⟩
    · refine ⟨callback.object, ⟨info, callback.object⟩, ?_, ?_, rfl, rfl, rfl⟩
      · simp [State.object?, hget]
      · simp [State.setCallback, State.push]
  · intro request result hthread sample hsample
    have hthread := notify_eq_process_iff.mp hthread
    exact hinv.prepared request result hthread sample
      (hback request (mem_pending_of_process hthread) sample hsample)
  · intro request reply hthread sample hsample
    have hthread := notify_eq_process_iff.mp hthread
    exact hinv.ready request reply hthread sample
      (hback request (mem_pending_of_process hthread) sample hsample)
  · intro write hmem
    exact ReplyCorrect.mono haccepted (hinv.written write hmem)

theorem AnswersInvariant.afterWrite {state : State} (hinv : AnswersInvariant state)
    {ok : Bool} {request : Request} {reply : CalculatorReplyType}
    (hthread : state.replyThread = .process request (.writeReply reply)) :
    AnswersInvariant
      { state with
        replyThread := .unlock
        requests := if ok then state.requests else state.requests ++ [request]
        writes := state.writes ++
          [⟨request.ticket, request.info.sampleIdentity, reply, ok⟩] } := by
  have hheld := mem_pending_of_process hthread
  constructor
  · intro other hmem
    have hother : other ∈ state.pending := by
      cases ok with
      | true => exact List.mem_append_right _ hmem
      | false => exact mem_pending_of_requeue hthread hmem
    exact hinv.waiting other hother
  · intro other result hother
    cases hother
  · intro other other' hother
    cases hother
  · intro write hmem
    rcases List.mem_append.mp hmem with hmem | hmem
    · exact hinv.written write hmem
    · obtain ⟨_, sample, _, hsample, hinfo, _⟩ := hinv.waiting request hheld
      rw [List.mem_singleton.mp hmem]
      exact ⟨sample, hsample, congrArg SampleInfo.sampleIdentity hinfo,
        hinv.ready request reply hthread sample hsample⟩

theorem answersInvariant_step {state next : State} {action : Action}
    (hinv : AnswersInvariant state) (hkeep : TakesKeepPending state action)
    (hstep : step state action = some next) : AnswersInvariant next := by
  have hpending := pending_subset_of_step hstep
  cases transition_of_step hstep with
  | construct phase hnext => exact ⟨hinv.waiting, hinv.prepared, hinv.ready, hinv.written⟩
  | rematch action matched nullDereference hfree =>
      exact ⟨hinv.waiting, hinv.prepared, hinv.ready, hinv.written⟩
  | dataAvailable =>
      exact hinv.frame (fun _ h => h) (fun _ _ => object?_onDataAvailable)
        (fun _ _ h => Or.inr (Or.inr h)) rfl rfl
  | moveCallback action index callback phase hget hmove =>
      refine hinv.frame (fun _ h => h) ?_ (fun _ _ h => Or.inr (Or.inr h)) rfl rfl
      intro request data hdata
      rw [object?_setCallback_of_object_eq { callback with phase := phase } hget rfl]
      exact hdata
  | take index callback sample hget hphase => exact hinv.afterTake hget hkeep
  | push index callback info hget hphase hdata hfree => exact hinv.afterPush hget
  | replyMove phase hmove =>
      refine hinv.frame (hpending (by simp)) (fun _ _ h => h) ?_ rfl rfl
      intro request stage hthread
      exact (held_process hmove.held_eq_none.1 stage hthread).elim
  | pop request rest hthread hstop hrequests =>
      refine hinv.frame (hpending (by simp)) (fun _ _ h => h) ?_ rfl rfl
      intro other stage hother
      cases hother
      exact Or.inl rfl
  | drop request stage hthread hreason =>
      refine hinv.frame (hpending (by simp)) (fun _ _ h => h) ?_ rfl rfl
      intro other stage hother
      cases hother
  | requeue request hthread hhalf =>
      refine hinv.frame (hpending (by simp)) (fun _ _ h => h) ?_ rfl rfl
      intro other stage hother
      cases hother
  | lookUp request hthread hmatched =>
      refine hinv.frame (hpending (by simp)) (fun _ _ h => h) ?_ rfl rfl
      intro other stage hother
      cases hother
      exact Or.inr (Or.inl rfl)
  | calculate request data result hthread hobject hresult =>
      have hheld := mem_pending_of_process hthread
      refine ⟨?_, ?_, ?_, hinv.written⟩
      · intro other hmem
        exact hinv.waiting other (hpending (by simp) hmem)
      · intro other result' hother sample hsample
        cases hother
        obtain ⟨data', sample', hdata', hsample', _, hsame⟩ := hinv.waiting request hheld
        rw [hobject, Option.some.injEq] at hdata'
        rw [hsample', Option.some.injEq] at hsample
        rw [← hsample, ← hsame.2, ← hdata']
        exact hresult
      · intro other reply hother
        cases hother
  | prepare request data result hthread hobject =>
      have hheld := mem_pending_of_process hthread
      refine ⟨?_, ?_, ?_, hinv.written⟩
      · intro other hmem
        exact hinv.waiting other (hpending (by simp) hmem)
      · intro other result' hother
        cases hother
      · intro other reply hother sample hsample
        cases hother
        obtain ⟨data', sample', hdata', hsample', _, hsame⟩ := hinv.waiting request hheld
        rw [hobject, Option.some.injEq] at hdata'
        rw [hsample', Option.some.injEq] at hsample
        refine ⟨?_, hinv.prepared request result hthread sample (hsample ▸ hsample')⟩
        rw [← hsample, ← hsame.1, ← hdata']
  | writeNull ok request reply hthread hnull =>
      exact ⟨hinv.waiting, hinv.prepared, hinv.ready, hinv.written⟩
  | write ok request reply hthread hwriter => exact hinv.afterWrite hthread
  | run phase hmove => exact ⟨hinv.waiting, hinv.prepared, hinv.ready, hinv.written⟩
  | stopStore hwriter => exact ⟨hinv.waiting, hinv.prepared, hinv.ready, hinv.written⟩
  | stopNotify =>
      refine hinv.frame (hpending (by simp)) (fun _ _ h => h) ?_ rfl rfl
      intro request stage hthread
      exact Or.inr (Or.inr (notify_eq_process_iff.mp hthread))

/-- In every run whose takes keep the payloads of the waiting requests, every
reply answers the payload of its own sample. -/
theorem replies_correct_of_takesKeepPending {state : State}
    (hreach : system.ReachableMeeting TakesKeepPending state) :
    ∀ write ∈ state.writes, ReplyCorrect state write := by
  have hinv : AnswersInvariant state := by
    apply hreach.invariant AnswersInvariant initial_answersInvariant
    intro state action next hinv hkeep hstep
    exact answersInvariant_step hinv hkeep hstep
  exact hinv.written

/-- Two calls hold `1 + 2` and `3 + 4` while both wait.  The first call takes
`5 + 6` after its first request has been answered. -/
theorem replies_correct_twoCalls :
    ∃ state, system.ReachableMeeting TakesKeepPending state ∧
      state.writes =
        [⟨0, ⟨⟨1, 1⟩, 1⟩, ⟨"client", 3⟩, true⟩, ⟨1, ⟨⟨1, 1⟩, 2⟩, ⟨"client", 7⟩, true⟩,
          ⟨2, ⟨⟨1, 1⟩, 3⟩, ⟨"client", 11⟩, true⟩] ∧
      ∀ write ∈ state.writes, ReplyCorrect state write := by
  let secondCall : List Action :=
    [.dataAvailable, .callback 1, .take 1 (some (additionSample 2 3 4)), .callback 1]
  let actions := startUpActions ++ receiveActions (additionSample 1 1 2) ++ secondCall ++
    answerActions ++ receiveActions (additionSample 3 5 6) ++ answerActions ++ answerActions
  obtain ⟨state, hrun, hwrites⟩ :
      ∃ state, system.run initial actions = some state ∧
        state.writes =
          [⟨0, ⟨⟨1, 1⟩, 1⟩, ⟨"client", 3⟩, true⟩, ⟨1, ⟨⟨1, 1⟩, 2⟩, ⟨"client", 7⟩, true⟩,
            ⟨2, ⟨⟨1, 1⟩, 3⟩, ⟨"client", 11⟩, true⟩] :=
    ⟨_, rfl, by decide⟩
  have hreach : system.ReachableMeeting TakesKeepPending state :=
    ⟨actions, hrun, by decide⟩
  exact ⟨state, hreach, hwrites, replies_correct_of_takesKeepPending hreach⟩

/-- One call takes `1 + 2` and then `3 + 4` before the first is answered: the
reply to the first sample carries `7`. -/
theorem reply_wrong_afterSecondTake :
    ¬ ∀ state, system.Reachable state →
      ∀ write ∈ state.writes, ReplyCorrect state write := by
  intro hall
  let actions := startUpActions ++ receiveActions (additionSample 1 1 2) ++
    receiveActions (additionSample 2 3 4) ++ answerActions
  obtain ⟨state, hrun, hwrites, haccepted⟩ :
      ∃ state, system.run initial actions = some state ∧
        state.writes = [⟨0, ⟨⟨1, 1⟩, 1⟩, ⟨"client", 7⟩, true⟩] ∧
        state.accepted[0]? = some (additionSample 1 1 2) :=
    ⟨_, rfl, by decide, by decide⟩
  obtain ⟨sample, hsample, _, _, hresult⟩ :=
    hall state ⟨actions, hrun⟩ ⟨0, ⟨⟨1, 1⟩, 1⟩, ⟨"client", 7⟩, true⟩ (by simp [hwrites])
  have hfirst : sample = additionSample 1 1 2 := by
    rw [haccepted] at hsample
    exact (Option.some.inj hsample).symm
  rw [hfirst] at hresult
  exact absurd hresult (by decide)

end CppProj.RequestReply.ServerApp
