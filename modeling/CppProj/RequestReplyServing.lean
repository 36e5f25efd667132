import CppProj.RequestReplyExchange

/-!
# What the server does with the requests of its client

The server of the exchange takes samples of one client, which it has matched,
with payloads that it can answer.  Such a request leaves the server only with
the write of its reply, whatever the order of the callbacks and of the reply
thread.
-/

namespace CppProj.RequestReply

/-- A payload of the client which the server answers. -/
structure Answerable (clientId : String) (data : CalculatorRequestType) : Prop where
  clientId : data.clientId = clientId
  calculated : calculate data ≠ none

namespace ServerApp

/-- The sample comes from the client, which the server has matched. -/
structure FromClient (writer : Guid) (matched : MatchedStatus) (info : SampleInfo) :
    Prop where
  carriesData : info.carriesData = true
  handle : info.publicationHandle = writer
  matched : matched.isMatched writer.guidPrefix = true

structure ServingInvariant (writer : Guid) (clientId : String) (state : State) :
    Prop where
  taken : ∀ (index : ℕ) callback info, state.callbacks[index]? = some callback →
    callback.phase = .taken info →
      FromClient writer state.clientMatchedStatus info ∧
        Answerable clientId callback.object
  waiting : ∀ request ∈ state.pending,
    FromClient writer state.clientMatchedStatus request.info ∧
      ∃ data, state.object? request = some data ∧ Answerable clientId data
  prepared : ∀ request reply, state.replyThread = .process request (.writeReply reply) →
    reply.clientId = clientId

/-- The server has the request with this identity and has not disposed of it. -/
def State.Holds (state : State) (identity : SampleIdentity) : Prop :=
  (∃ (index : ℕ) (callback : DataAvailable) (info : SampleInfo),
      state.callbacks[index]? = some callback ∧ callback.phase = .taken info ∧
        info.sampleIdentity = identity) ∨
    ∃ request ∈ state.pending, request.info.sampleIdentity = identity

variable {writer : Guid} {clientId : String} {state next : State}

theorem FromClient.mono {matched rematched : MatchedStatus} {info : SampleInfo}
    (hfrom : FromClient writer matched info)
    (hkeep : matched.isMatched writer.guidPrefix = true →
      rematched.isMatched writer.guidPrefix = true) :
    FromClient writer rematched info :=
  ⟨hfrom.carriesData, hfrom.handle, hkeep hfrom.matched⟩

theorem FromClient.not_gone {matched : MatchedStatus} {info : SampleInfo}
    (hfrom : FromClient writer matched info) :
    ¬ RemoteClientMatchedStatus.Gone matched info.publicationHandle.guidPrefix := by
  intro hgone
  rw [hfrom.handle] at hgone
  have hbits := hgone _ (MatchedStatus.isMatched_eq_true_iff.mp hfrom.matched)
  cases hbits

theorem initial_servingInvariant : ServingInvariant writer clientId initial := by
  constructor <;> simp [initial, State.pending, ReplyPhase.held]

theorem ServingInvariant.frame (hinv : ServingInvariant writer clientId state)
    (hkeep : state.clientMatchedStatus.isMatched writer.guidPrefix = true →
      next.clientMatchedStatus.isMatched writer.guidPrefix = true)
    (hcallbacks : next.callbacks = state.callbacks)
    (hpending : ∀ request ∈ next.pending, request ∈ state.pending)
    (hprepared : ∀ request reply,
      next.replyThread = .process request (.writeReply reply) →
        reply.clientId = clientId) :
    ServingInvariant writer clientId next := by
  refine ⟨?_, ?_, hprepared⟩
  · intro index callback info hget hphase
    rw [hcallbacks] at hget
    obtain ⟨hfrom, hdata⟩ := hinv.taken index callback info hget hphase
    exact ⟨hfrom.mono hkeep, hdata⟩
  · intro request hmem
    obtain ⟨hfrom, data, hobject, hdata⟩ := hinv.waiting request (hpending request hmem)
    refine ⟨hfrom.mono hkeep, data, ?_, hdata⟩
    simpa [State.object?, hcallbacks] using hobject

theorem ServingInvariant.afterMove (hinv : ServingInvariant writer clientId state)
    {index : ℕ} {callback : DataAvailable} {phase : CallbackPhase}
    (hget : state.callbacks[index]? = some callback)
    (hphase : ∀ info, phase ≠ .taken info) :
    ServingInvariant writer clientId
      (state.setCallback index { callback with phase := phase }) := by
  refine ⟨?_, ?_, hinv.prepared⟩
  · intro other found info hother htaken
    simp only [State.setCallback, List.getElem?_set] at hother
    split_ifs at hother with heq hlt
    · cases hother
      exact (hphase info htaken).elim
    · exact hinv.taken other found info hother htaken
  · intro request hmem
    obtain ⟨hfrom, data, hobject, hdata⟩ := hinv.waiting request hmem
    refine ⟨hfrom, data, ?_, hdata⟩
    rw [object?_setCallback_of_object_eq { callback with phase := phase } hget rfl]
    exact hobject

/-- A take overwrites the object with a payload that is answerable too. -/
theorem ServingInvariant.afterTake (hinv : ServingInvariant writer clientId state)
    {index : ℕ} {callback : DataAvailable} {sample : Sample}
    (hget : state.callbacks[index]? = some callback)
    (hfrom : FromClient writer state.clientMatchedStatus sample.info)
    (hdata : Answerable clientId sample.data) :
    ServingInvariant writer clientId
      (state.setCallback index ⟨sample.data, .taken sample.info⟩) := by
  refine ⟨?_, ?_, hinv.prepared⟩
  · intro other found info hother htaken
    simp only [State.setCallback, List.getElem?_set] at hother
    split_ifs at hother with heq hlt
    · cases hother
      cases htaken
      exact ⟨hfrom, hdata⟩
    · exact hinv.taken other found info hother htaken
  · intro request hmem
    obtain ⟨hrequest, data, hobject, hold⟩ := hinv.waiting request hmem
    by_cases heq : request.request = index
    · exact ⟨hrequest, sample.data, object?_setCallback_self hget _ heq, hdata⟩
    · refine ⟨hrequest, data, ?_, hold⟩
      rw [object?_setCallback_of_ne _ heq]
      exact hobject

theorem ServingInvariant.afterPush (hinv : ServingInvariant writer clientId state)
    {index : ℕ} {callback : DataAvailable} {info : SampleInfo}
    (hget : state.callbacks[index]? = some callback)
    (hphase : callback.phase = .taken info) :
    ServingInvariant writer clientId
      ((state.push index info callback.object).setCallback index
        { callback with phase := .testStop }) := by
  have hpushed : ServingInvariant writer clientId
      (state.push index info callback.object) := by
    refine ⟨hinv.taken, ?_, ?_⟩
    · intro request hmem
      simp only [State.pending, State.push, State.notifyAll, held_notify,
        List.mem_append, List.mem_singleton] at hmem
      rcases hmem with hold | hold | rfl
      · exact hinv.waiting request (List.mem_append_left _ hold)
      · exact hinv.waiting request (List.mem_append_right _ hold)
      · obtain ⟨hfrom, hdata⟩ := hinv.taken index callback info hget hphase
        refine ⟨hfrom, callback.object, ?_, hdata⟩
        simp [State.object?, State.push, State.notifyAll, hget]
    · intro request reply hthread
      exact hinv.prepared request reply (notify_eq_process_iff.mp hthread)
  exact hpushed.afterMove hget (by simp)

theorem CallbackMove.ne_taken {callback : DataAvailable} {phase : CallbackPhase}
    (hmove : CallbackMove state callback phase) (info : SampleInfo) :
    phase ≠ .taken info := by
  cases hmove with
  | testStop hphase => cases state.stop <;> simp
  | noSample hphase => simp
  | skip info hphase hdata => simp

theorem Holds_of_frame {identity : SampleIdentity} (hholds : state.Holds identity)
    (hcallbacks : next.callbacks = state.callbacks)
    (hpending : ∀ request ∈ state.pending, request ∈ next.pending) :
    next.Holds identity := by
  rcases hholds with htaken | ⟨request, hmem, hidentity⟩
  · left
    rw [hcallbacks]
    exact htaken
  · exact Or.inr ⟨request, hpending request hmem, hidentity⟩

/-- A callback leaves its taken sample only through a push. -/
theorem Holds_setCallback {identity : SampleIdentity} (hholds : state.Holds identity)
    {index : ℕ} {callback : DataAvailable} (updated : DataAvailable)
    (hget : state.callbacks[index]? = some callback)
    (hphase : ∀ info, callback.phase ≠ .taken info) :
    (state.setCallback index updated).Holds identity := by
  rcases hholds with ⟨other, found, info, hother, htaken, hidentity⟩ | hpending
  · left
    refine ⟨other, found, info, ?_, htaken, hidentity⟩
    have hne : index ≠ other := by
      rintro rfl
      rw [hget] at hother
      cases hother
      exact hphase info htaken
    simp only [State.setCallback, List.getElem?_set, if_neg hne]
    exact hother
  · exact Or.inr hpending

theorem Holds_push {identity : SampleIdentity} (hholds : state.Holds identity)
    {index : ℕ} {callback : DataAvailable} {info : SampleInfo}
    (hget : state.callbacks[index]? = some callback)
    (hphase : callback.phase = .taken info) :
    ((state.push index info callback.object).setCallback index
      { callback with phase := .testStop }).Holds identity := by
  have hpending : ((state.push index info callback.object).setCallback index
      { callback with phase := .testStop }).pending =
        state.pending ++ [⟨info, index, state.accepted.length⟩] := by
    simp [State.pending, State.setCallback, State.push, State.notifyAll]
  rcases hholds with ⟨other, found, taken, hother, htaken, hidentity⟩ |
    ⟨request, hmem, hidentity⟩
  · by_cases heq : index = other
    · subst heq
      rw [hget] at hother
      cases hother
      rw [hphase] at htaken
      cases htaken
      right
      rw [hpending]
      exact ⟨_, List.mem_append_right _ (List.mem_singleton.mpr rfl), hidentity⟩
    · left
      refine ⟨other, found, taken, ?_, htaken, hidentity⟩
      simp only [State.setCallback, State.push, State.notifyAll, List.getElem?_set,
        if_neg heq]
      exact hother
  · right
    rw [hpending]
    exact ⟨request, List.mem_append_left _ hmem, hidentity⟩

theorem servingInvariant_local {action : Action}
    (hinv : ServingInvariant writer clientId state)
    (hlocal : Exchange.isServerLocal action = true)
    (hkeep : state.clientMatchedStatus.isMatched writer.guidPrefix = true →
      next.clientMatchedStatus.isMatched writer.guidPrefix = true)
    (hstep : step state action = some next) :
    ServingInvariant writer clientId next := by
  have hpending := pending_subset_of_step hstep
  cases transition_of_step hstep with
  | construct phase hnext => exact hinv.frame hkeep rfl (fun _ h => h) hinv.prepared
  | rematch action matched nullDereference hfree hlistener =>
      exact hinv.frame hkeep rfl (fun _ h => h) hinv.prepared
  | dataAvailable =>
      refine ⟨?_, ?_, hinv.prepared⟩
      · intro index callback info hget hphase
        by_cases hlt : index < state.callbacks.length
        · rw [onDataAvailable, List.getElem?_append_left hlt] at hget
          exact hinv.taken index callback info hget hphase
        · rw [onDataAvailable, List.getElem?_append_right (by omega),
            List.getElem?_singleton] at hget
          split_ifs at hget
          cases hget
          cases hphase
      · intro request hmem
        obtain ⟨hfrom, data, hobject, hdata⟩ := hinv.waiting request hmem
        exact ⟨hfrom, data, object?_onDataAvailable hobject, hdata⟩
  | moveCallback action index callback phase hget hmove hcallback =>
      exact hinv.afterMove hget hmove.ne_taken
  | take index callback sample hget hphase => cases hlocal
  | push index callback info hget hphase hdata hfree => exact hinv.afterPush hget hphase
  | replyMove phase hmove =>
      refine hinv.frame hkeep rfl (hpending (by simp)) ?_
      intro request reply hthread
      exact (held_process hmove.held_eq_none.1 _ hthread).elim
  | pop request rest hthread hstop hrequests =>
      refine hinv.frame hkeep rfl (hpending (by simp)) ?_
      intro other reply hother
      cases hother
  | drop request stage hthread hreason =>
      refine hinv.frame hkeep rfl (hpending (by simp)) ?_
      intro other reply hother
      cases hother
  | requeue request hthread hhalf =>
      refine hinv.frame hkeep rfl (hpending (by simp)) ?_
      intro other reply hother
      cases hother
  | lookUp request hthread hmatched =>
      refine hinv.frame hkeep rfl (hpending (by simp)) ?_
      intro other reply hother
      cases hother
  | calculate request data result hthread hobject hresult =>
      refine hinv.frame hkeep rfl (hpending (by simp)) ?_
      intro other reply hother
      cases hother
  | prepare request data result hthread hobject =>
      refine hinv.frame hkeep rfl (hpending (by simp)) ?_
      intro other reply hother
      cases hother
      obtain ⟨_, found, hfound, hdata⟩ := hinv.waiting request (mem_pending_of_process hthread)
      rw [hobject] at hfound
      cases hfound
      exact hdata.clientId
  | writeNull ok request reply hthread hnull => cases hlocal
  | write ok request reply hthread hwriter => cases hlocal
  | run phase hmove => exact hinv.frame hkeep rfl (fun _ h => h) hinv.prepared
  | stopStore hwriter => cases hlocal
  | stopNotify hpending => cases hlocal

/-- The server disposes of no request of the client on its own: the client is
matched, and its requests can be calculated. -/
theorem Holds_local {action : Action} {identity : SampleIdentity}
    (hinv : ServingInvariant writer clientId state)
    (hlocal : Exchange.isServerLocal action = true)
    (hholds : state.Holds identity) (hstep : step state action = some next) :
    next.Holds identity := by
  cases transition_of_step hstep with
  | construct phase hnext => exact hholds
  | rematch action matched nullDereference hfree hlistener => exact hholds
  | dataAvailable =>
      rcases hholds with ⟨index, callback, info, hget, hrest⟩ | hpending
      · exact Or.inl ⟨index, callback, info, ListUpdate.getElem?_append_of_eq_some hget _, hrest⟩
      · exact Or.inr hpending
  | moveCallback action index callback phase hget hmove hcallback =>
      apply Holds_setCallback hholds _ hget
      intro info htaken
      obtain ⟨hfrom, _⟩ := hinv.taken index callback info hget htaken
      have hdata := hfrom.carriesData
      cases hmove with
      | testStop hphase =>
          rw [hphase] at htaken
          cases htaken
      | noSample hphase =>
          rw [hphase] at htaken
          cases htaken
      | skip skipped hphase hskip =>
          rw [hphase] at htaken
          cases htaken
          rw [hskip] at hdata
          cases hdata
  | take index callback sample hget hphase => cases hlocal
  | push index callback info hget hphase hdata hfree =>
      exact Holds_push hholds hget hphase
  | replyMove phase hmove =>
      obtain ⟨hnext, hstate⟩ := hmove.held_eq_none
      refine Holds_of_frame hholds rfl ?_
      intro request hmem
      simpa [State.pending, hnext, hstate] using hmem
  | pop request rest hthread hstop hrequests =>
      refine Holds_of_frame hholds rfl ?_
      intro other hmem
      simpa [State.pending, ReplyPhase.held, hthread, hrequests] using hmem
  | drop request stage hthread hreason =>
      obtain ⟨hfrom, data, hobject, hdata⟩ :=
        hinv.waiting request (mem_pending_of_process hthread)
      rcases hreason with ⟨_, hgone⟩ | ⟨_, found, hfound, hnone⟩
      · exact (hfrom.not_gone hgone).elim
      · rw [hobject] at hfound
        cases hfound
        exact (hdata.calculated hnone).elim
  | requeue request hthread hhalf =>
      refine Holds_of_frame hholds rfl ?_
      intro other hmem
      simpa [State.pending, ReplyPhase.held, hthread, or_comm] using hmem
  | lookUp request hthread hmatched =>
      refine Holds_of_frame hholds rfl ?_
      rw [pending_of_process hthread]
      exact fun other hmem => hmem
  | calculate request data result hthread hobject hresult =>
      refine Holds_of_frame hholds rfl ?_
      rw [pending_of_process hthread]
      exact fun other hmem => hmem
  | prepare request data result hthread hobject =>
      refine Holds_of_frame hholds rfl ?_
      rw [pending_of_process hthread]
      exact fun other hmem => hmem
  | writeNull ok request reply hthread hnull => cases hlocal
  | write ok request reply hthread hwriter => cases hlocal
  | run phase hmove => exact hholds
  | stopStore hwriter => cases hlocal
  | stopNotify hpending => cases hlocal

theorem servingInvariant_take {index : ℕ} {sample : Sample}
    (hinv : ServingInvariant writer clientId state)
    (hfrom : FromClient writer state.clientMatchedStatus sample.info)
    (hdata : Answerable clientId sample.data)
    (hstep : step state (.take index (some sample)) = some next) :
    ServingInvariant writer clientId next ∧
      next.clientMatchedStatus = state.clientMatchedStatus ∧
      next.Holds sample.info.sampleIdentity ∧
      ∀ identity, state.Holds identity → next.Holds identity := by
  cases transition_of_step hstep with
  | take index callback sample hget hphase =>
      have hlt : index < state.callbacks.length := List.getElem?_eq_some_iff.mp hget |>.1
      refine ⟨hinv.afterTake hget hfrom hdata, rfl, ?_, ?_⟩
      · exact Or.inl ⟨index, ⟨sample.data, .taken sample.info⟩, sample.info,
          by simp [State.setCallback, hlt], rfl, rfl⟩
      · intro identity hholds
        exact Holds_setCallback hholds _ hget (by simp [hphase])
  | rematch action matched nullDereference hfree hlistener => cases hlistener
  | moveCallback action index callback phase hget hmove hcallback => cases hcallback

/-- A write disposes of the request in progress and of nothing else; through
the null writer it disposes of nothing. -/
theorem servingInvariant_write {request : Request} {reply : CalculatorReplyType}
    (hinv : ServingInvariant writer clientId state)
    (hprocess : state.replyThread = .process request (.writeReply reply))
    (hstep : step state (.write true) = some next) :
    ServingInvariant writer clientId next ∧
      next.clientMatchedStatus = state.clientMatchedStatus ∧
      ∀ identity, state.Holds identity → next.Holds identity ∨
        state.replyWriterIsNull = false ∧ request.info.sampleIdentity = identity := by
  have hpending := pending_subset_of_step hstep
  cases transition_of_step hstep with
  | writeNull ok other written hthread hnull =>
      refine ⟨hinv.frame id rfl (fun _ h => h) hinv.prepared, rfl, ?_⟩
      exact fun identity hholds => Or.inl hholds
  | write ok other written hthread hwriter =>
      rw [hprocess] at hthread
      cases hthread
      refine ⟨hinv.frame id rfl (hpending (by simp)) ?_, rfl, ?_⟩
      · intro waiting data hthread
        cases hthread
      · rintro identity (htaken | ⟨waiting, hmem, hidentity⟩)
        · exact Or.inl (Or.inl htaken)
        · rw [pending_of_process hprocess] at hmem
          rcases List.mem_cons.mp hmem with rfl | hmem
          · exact Or.inr ⟨hwriter, hidentity⟩
          · exact Or.inl (Or.inr ⟨waiting, List.mem_append_right _ hmem, hidentity⟩)
  | rematch action matched nullDereference hfree hlistener => cases hlistener
  | moveCallback action index callback phase hget hmove hcallback => cases hcallback

end ServerApp

end CppProj.RequestReply
