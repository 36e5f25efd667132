import CppProj.RequestReplyServerConservation
import Mathlib.Data.Finset.Basic

/-!
# Callbacks that arrive before the reply writer is assigned

The listener is registered in `create_participant`, the request reader exists
from `create_request_entities` on, and `reply_writer_` stays null until
`create_reply_entities` assigns it.  `clear_history` and `write` are the two
uses of the pointer.  A start-up is calm when, until then, the callbacks report
no client with both of its endpoints matched and no unmatch of the last matched
endpoint.
-/

namespace CppProj.RequestReply.ServerApp

open RemoteClientMatchedStatus (replyReader requestWriter)

/-! ## Steps that find the writer ready -/

/-- The unmatch of an endpoint after which no client is matched. -/
def LastUnmatch
    (matchEndpoint : MatchedStatus → GuidPrefix → Bool → MatchedStatus)
    (state : State) (guidPrefix : GuidPrefix) (currentCountChange : ℤ) : Prop :=
  currentCountChange = -1 ∧
    RemoteClientMatchedStatus.noClientMatched
      (matchEndpoint state.clientMatchedStatus guidPrefix false) = true

/-- While the writer is null the last matched client is not unmatched, and the
reply thread does not come to its write. -/
def WriterReady (state : State) : Action → Prop
  | .publicationMatched guidPrefix currentCountChange =>
      LastUnmatch RemoteClientMatchedStatus.matchReplyReader state guidPrefix
        currentCountChange → state.replyWriterIsNull = false
  | .subscriptionMatched guidPrefix currentCountChange =>
      LastUnmatch RemoteClientMatchedStatus.matchRequestWriter state guidPrefix
        currentCountChange → state.replyWriterIsNull = false
  | .write _ => state.replyWriterIsNull = false
  | _ => True

theorem onEndpointMatched_nullDereference_iff
    {matchEndpoint : MatchedStatus → GuidPrefix → Bool → MatchedStatus}
    {state : State} (hsafe : state.nullDereference = false)
    (guidPrefix : GuidPrefix) (currentCountChange : ℤ) :
    (onEndpointMatched matchEndpoint state guidPrefix
        currentCountChange).nullDereference = false ↔
      (LastUnmatch matchEndpoint state guidPrefix currentCountChange →
        state.replyWriterIsNull = false) := by
  unfold onEndpointMatched LastUnmatch
  split_ifs with hmatch hunmatch
  · simp [hmatch, hsafe]
  · cases hnone : RemoteClientMatchedStatus.noClientMatched
        (matchEndpoint state.clientMatchedStatus guidPrefix false) <;>
      simp [hunmatch, hnone]
  · simp [hunmatch, hsafe]

/-- Only the matching callbacks and the write use the pointer. -/
theorem nullDereference_unchanged {state next : State} {action : Action}
    (hstep : step state action = some next)
    (hlistener : action.isListener = false) (hwrite : ∀ ok, action ≠ .write ok) :
    next.nullDereference = state.nullDereference := by
  cases transition_of_step hstep with
  | rematch _ matched nullDereference hfree hmatching =>
      rw [hlistener] at hmatching
      contradiction
  | writeNull ok request reply hthread hnull => exact (hwrite ok rfl).elim
  | _ => rfl

theorem onPublicationMatched_of_step {state next : State} {guidPrefix : GuidPrefix}
    {currentCountChange : ℤ}
    (hstep : step state (.publicationMatched guidPrefix currentCountChange) = some next) :
    next = onPublicationMatched state guidPrefix currentCountChange := by
  have hguard : ¬ state.nullDereference = true := by
    simp [nullDereference_of_step hstep]
  unfold step at hstep
  rw [if_neg hguard] at hstep
  simp only at hstep
  split_ifs at hstep
  exact (Option.some.inj hstep).symm

theorem onSubscriptionMatched_of_step {state next : State} {guidPrefix : GuidPrefix}
    {currentCountChange : ℤ}
    (hstep : step state (.subscriptionMatched guidPrefix currentCountChange) = some next) :
    next = onSubscriptionMatched state guidPrefix currentCountChange := by
  have hguard : ¬ state.nullDereference = true := by
    simp [nullDereference_of_step hstep]
  unfold step at hstep
  rw [if_neg hguard] at hstep
  simp only at hstep
  split_ifs at hstep
  exact (Option.some.inj hstep).symm

theorem onParticipantDiscovery_of_step {state next : State}
    {status : ParticipantDiscoveryStatus} {guidPrefix : GuidPrefix} {userData : List UInt8}
    (hstep : step state (.participantDiscovery status guidPrefix userData) = some next) :
    next = onParticipantDiscovery state status guidPrefix userData := by
  have hguard : ¬ state.nullDereference = true := by
    simp [nullDereference_of_step hstep]
  unfold step at hstep
  rw [if_neg hguard] at hstep
  simp only at hstep
  split_ifs at hstep
  exact (Option.some.inj hstep).symm

/-- A step is safe exactly when it finds the writer ready. -/
theorem nullDereference_step_iff {state next : State} {action : Action}
    (hstep : step state action = some next) :
    next.nullDereference = false ↔ WriterReady state action := by
  have hsafe := nullDereference_of_step hstep
  cases action with
  | publicationMatched guidPrefix currentCountChange =>
      rw [onPublicationMatched_of_step hstep]
      exact onEndpointMatched_nullDereference_iff hsafe guidPrefix currentCountChange
  | subscriptionMatched guidPrefix currentCountChange =>
      rw [onSubscriptionMatched_of_step hstep]
      exact onEndpointMatched_nullDereference_iff hsafe guidPrefix currentCountChange
  | participantDiscovery status guidPrefix userData =>
      obtain ⟨matched, heq⟩ := onParticipantDiscovery_eq state status guidPrefix userData
      simp [onParticipantDiscovery_of_step hstep, heq, hsafe, WriterReady]
  | write ok =>
      cases transition_of_step hstep with
      | writeNull _ request reply hthread hnull => simp [WriterReady, hnull]
      | write _ request reply hthread hwriter => simp [WriterReady, hwriter, hsafe]
      | rematch _ matched nullDereference hfree hmatching => cases hmatching
      | moveCallback _ index callback phase hget hmove hcallback => cases hcallback
  | construct | dataAvailable | callback _ | take _ _ | reply | run | stopStore
  | stopNotify =>
      rw [nullDereference_unchanged hstep rfl (by simp)]
      simp [hsafe, WriterReady]

/-! ## What the callbacks have reported -/

/-- An endpoint of a client: its request writer or its reply reader. -/
abbrev ClientEndpoint := GuidPrefix × Fin 2

def reportMatch (endpoints : Finset ClientEndpoint) (endpoint : ClientEndpoint)
    (currentCountChange : ℤ) : Finset ClientEndpoint :=
  if currentCountChange = 1 then insert endpoint endpoints
  else if currentCountChange = -1 then endpoints.erase endpoint
  else endpoints

/-- The client endpoints that are matched, after one more event. -/
def matchedAfter (endpoints : Finset ClientEndpoint) : Action → Finset ClientEndpoint
  | .participantDiscovery status guidPrefix userData =>
      if shouldBeIgnored userData then endpoints
      else if status = .removedParticipant ∨ status = .droppedParticipant then
        (endpoints.erase (guidPrefix, replyReader)).erase (guidPrefix, requestWriter)
      else endpoints
  | .publicationMatched guidPrefix currentCountChange =>
      reportMatch endpoints (guidPrefix, replyReader) currentCountChange
  | .subscriptionMatched guidPrefix currentCountChange =>
      reportMatch endpoints (guidPrefix, requestWriter) currentCountChange
  | _ => endpoints

/-- The match of an endpoint whose client has the other one matched, or the
unmatch of the only matched endpoint. -/
def Alarming (endpoints : Finset ClientEndpoint) (guidPrefix : GuidPrefix)
    (position other : Fin 2) (currentCountChange : ℤ) : Prop :=
  currentCountChange = 1 ∧ (guidPrefix, other) ∈ endpoints ∨
    currentCountChange = -1 ∧ endpoints.erase (guidPrefix, position) = ∅

def Calm (endpoints : Finset ClientEndpoint) : Action → Prop
  | .publicationMatched guidPrefix currentCountChange =>
      ¬ Alarming endpoints guidPrefix replyReader requestWriter currentCountChange
  | .subscriptionMatched guidPrefix currentCountChange =>
      ¬ Alarming endpoints guidPrefix requestWriter replyReader currentCountChange
  | _ => True

instance (endpoints : Finset ClientEndpoint) (guidPrefix : GuidPrefix)
    (position other : Fin 2) (currentCountChange : ℤ) :
    Decidable (Alarming endpoints guidPrefix position other currentCountChange) :=
  inferInstanceAs (Decidable (_ ∨ _))

instance (endpoints : Finset ClientEndpoint) : DecidablePred (Calm endpoints)
  | .publicationMatched _ _ => inferInstanceAs (Decidable (¬ _))
  | .subscriptionMatched _ _ => inferInstanceAs (Decidable (¬ _))
  | .construct | .participantDiscovery _ _ _ | .dataAvailable | .callback _ | .take _ _
  | .reply | .write _ | .run | .stopStore | .stopNotify => isTrue trivial

def Action.constructs : Action → ℕ
  | .construct => 1
  | _ => 0

/-- The events are calm until the constructor has taken its fourth step, the one
that assigns `reply_writer_`. -/
def CalmStartUp : ℕ → Finset ClientEndpoint → List Action → Prop
  | _, _, [] => True
  | steps, endpoints, action :: rest =>
      (steps < 4 → Calm endpoints action) ∧
        CalmStartUp (steps + action.constructs) (matchedAfter endpoints action) rest

instance decidableCalmStartUp :
    ∀ steps endpoints actions, Decidable (CalmStartUp steps endpoints actions)
  | _, _, [] => isTrue trivial
  | steps, endpoints, action :: rest =>
      have := decidableCalmStartUp (steps + action.constructs) (matchedAfter endpoints action) rest
      inferInstanceAs (Decidable (_ ∧ _))

/-! ## The reports and the state -/

/-- The bits of `client_matched_status_` are those of the reported endpoints. -/
def Reported (endpoints : Finset ClientEndpoint) (matched : MatchedStatus) : Prop :=
  ∀ guidPrefix position,
    matched.hasEndpoint guidPrefix position = decide ((guidPrefix, position) ∈ endpoints)

theorem Reported.insert {endpoints : Finset ClientEndpoint} {matched : MatchedStatus}
    (hreported : Reported endpoints matched) (guidPrefix : GuidPrefix) (position : Fin 2) :
    Reported (insert (guidPrefix, position) endpoints)
      (matched.setEndpoint position guidPrefix true) := by
  intro otherPrefix other
  rw [MatchedStatus.hasEndpoint_setEndpoint, hreported]
  by_cases hsame : (otherPrefix, other) = (guidPrefix, position)
  · simp [hsame]
  · simp [hsame, Finset.mem_insert]

theorem Reported.erase {endpoints : Finset ClientEndpoint} {matched : MatchedStatus}
    (hreported : Reported endpoints matched) (guidPrefix : GuidPrefix) (position : Fin 2) :
    Reported (endpoints.erase (guidPrefix, position))
      (matched.setEndpoint position guidPrefix false) := by
  intro otherPrefix other
  rw [MatchedStatus.hasEndpoint_setEndpoint, hreported]
  by_cases hsame : (otherPrefix, other) = (guidPrefix, position)
  · simp [hsame]
  · simp [hsame, Finset.mem_erase]

theorem Reported.onEndpointMatched {endpoints : Finset ClientEndpoint} {state : State}
    (hreported : Reported endpoints state.clientMatchedStatus) (position : Fin 2)
    (guidPrefix : GuidPrefix) (currentCountChange : ℤ) :
    Reported (reportMatch endpoints (guidPrefix, position) currentCountChange)
      (ServerApp.onEndpointMatched (fun matched => matched.setEndpoint position) state
        guidPrefix currentCountChange).clientMatchedStatus := by
  unfold ServerApp.onEndpointMatched reportMatch
  split_ifs
  · exact hreported.insert guidPrefix position
  · exact hreported.erase guidPrefix position
  · exact hreported

theorem Reported.onParticipantDiscovery {endpoints : Finset ClientEndpoint} {state : State}
    (hreported : Reported endpoints state.clientMatchedStatus)
    (status : ParticipantDiscoveryStatus) (guidPrefix : GuidPrefix) (userData : List UInt8) :
    Reported (matchedAfter endpoints (.participantDiscovery status guidPrefix userData))
      (ServerApp.onParticipantDiscovery state status guidPrefix
        userData).clientMatchedStatus := by
  simp only [ServerApp.onParticipantDiscovery, matchedAfter]
  split_ifs
  · exact hreported
  · exact (hreported.erase guidPrefix 1).erase guidPrefix 0
  · exact hreported

theorem Reported.step {endpoints : Finset ClientEndpoint} {state next : State}
    {action : Action} (hreported : Reported endpoints state.clientMatchedStatus)
    (hstep : step state action = some next) :
    Reported (matchedAfter endpoints action) next.clientMatchedStatus := by
  cases action with
  | participantDiscovery status guidPrefix userData =>
      rw [onParticipantDiscovery_of_step hstep]
      exact hreported.onParticipantDiscovery status guidPrefix userData
  | publicationMatched guidPrefix currentCountChange =>
      rw [onPublicationMatched_of_step hstep]
      exact hreported.onEndpointMatched 1 guidPrefix currentCountChange
  | subscriptionMatched guidPrefix currentCountChange =>
      rw [onSubscriptionMatched_of_step hstep]
      exact hreported.onEndpointMatched 0 guidPrefix currentCountChange
  | construct | dataAvailable | callback _ | take _ _ | reply | write _ | run | stopStore
  | stopNotify =>
      cases transition_of_step hstep with
      | rematch _ matched nullDereference hfree hlistener => cases hlistener
      | _ => exact hreported

/-- How many of its four steps the constructor has taken. -/
def ConstructorPhase.steps : ConstructorPhase → ℕ
  | .replyThreadSpawned => 0
  | .participantCreated => 1
  | .requestReaderCreated => 2
  | .replyWriterCreated => 3
  | .replyWriterAssigned => 4

theorem ConstructorPhase.steps_next {phase next : ConstructorPhase}
    (hnext : phase.next = some next) : next.steps = phase.steps + 1 := by
  cases phase <;> cases hnext <;> rfl

theorem replyWriterIsNull_iff (state : State) :
    state.replyWriterIsNull = true ↔ state.constructorPhase.steps < 4 := by
  cases hphase : state.constructorPhase <;>
    simp [State.replyWriterIsNull, hphase, ConstructorPhase.steps]

theorem steps_of_step {state next : State} {action : Action}
    (hstep : step state action = some next) :
    next.constructorPhase.steps = state.constructorPhase.steps + action.constructs := by
  cases action with
  | construct =>
      cases transition_of_step hstep with
      | construct phase hnext => exact ConstructorPhase.steps_next hnext
      | rematch _ matched nullDereference hfree hlistener => cases hlistener
      | moveCallback _ index callback phase hget hmove hcallback => cases hcallback
  | participantDiscovery _ _ _ | publicationMatched _ _ | subscriptionMatched _ _
  | dataAvailable | callback _ | take _ _ | reply | write _ | run | stopStore
  | stopNotify =>
      cases transition_of_step hstep with
      | _ => rfl

/-- No client has both of its endpoints matched. -/
def Apart (endpoints : Finset ClientEndpoint) : Prop :=
  ∀ guidPrefix, ¬ ((guidPrefix, requestWriter) ∈ endpoints ∧ (guidPrefix, replyReader) ∈ endpoints)

theorem Apart.subset {endpoints fewer : Finset ClientEndpoint} (hapart : Apart endpoints)
    (hsubset : fewer ⊆ endpoints) : Apart fewer :=
  fun guidPrefix hboth => hapart guidPrefix ⟨hsubset hboth.1, hsubset hboth.2⟩

theorem Apart.reportMatch {endpoints : Finset ClientEndpoint} (hapart : Apart endpoints)
    {guidPrefix : GuidPrefix} {position other : Fin 2} (hother : other ≠ position)
    {currentCountChange : ℤ}
    (hcalm : ¬ Alarming endpoints guidPrefix position other currentCountChange) :
    Apart (reportMatch endpoints (guidPrefix, position) currentCountChange) := by
  unfold ServerApp.reportMatch
  split_ifs with hmatch hunmatch
  · intro otherPrefix hboth
    have hinserted : ∀ either, (otherPrefix, either) ∈ insert (guidPrefix, position) endpoints :=
      Fin.forall_fin_two.mpr hboth
    have hold : ∀ either, (otherPrefix, either) ≠ (guidPrefix, position) →
        (otherPrefix, either) ∈ endpoints :=
      fun either hne => Finset.mem_of_mem_insert_of_ne (hinserted either) hne
    by_cases hsame : otherPrefix = guidPrefix
    · subst hsame
      exact hcalm (Or.inl ⟨hmatch, hold other fun heq => hother (Prod.mk.inj heq).2⟩)
    · exact hapart otherPrefix ⟨hold 0 fun heq => hsame (Prod.mk.inj heq).1,
        hold 1 fun heq => hsame (Prod.mk.inj heq).1⟩
  · exact hapart.subset (Finset.erase_subset _ _)
  · exact hapart

theorem Apart.matchedAfter {endpoints : Finset ClientEndpoint} (hapart : Apart endpoints)
    {action : Action} (hcalm : Calm endpoints action) :
    Apart (matchedAfter endpoints action) := by
  cases action with
  | participantDiscovery status guidPrefix userData =>
      simp only [ServerApp.matchedAfter]
      split_ifs
      · exact hapart
      · exact hapart.subset ((Finset.erase_subset _ _).trans (Finset.erase_subset _ _))
      · exact hapart
  | publicationMatched guidPrefix currentCountChange =>
      exact hapart.reportMatch (by decide) hcalm
  | subscriptionMatched guidPrefix currentCountChange =>
      exact hapart.reportMatch (by decide) hcalm
  | construct | dataAvailable | callback _ | take _ _ | reply | write _ | run | stopStore
  | stopNotify => exact hapart

/-! ## Calm runs -/

/-- What a calm start-up keeps: the reports are what the state holds, and no client is
fully matched while the writer is null. -/
structure StartUpInvariant (endpoints : Finset ClientEndpoint) (state : State) : Prop where
  reachable : system.Reachable state
  reported : Reported endpoints state.clientMatchedStatus
  apart : state.constructorPhase.steps < 4 → Apart endpoints

theorem initial_startUpInvariant : StartUpInvariant ∅ initial where
  reachable := TransitionSystem.Reachable.initial
  reported guidPrefix position := by
    simpa [initial] using MatchedStatus.hasEndpoint_empty guidPrefix position
  apart _ guidPrefix hboth := by simp at hboth

theorem StartUpInvariant.step {endpoints : Finset ClientEndpoint} {state next : State}
    {action : Action} (hinv : StartUpInvariant endpoints state)
    (hcalm : state.constructorPhase.steps < 4 → Calm endpoints action)
    (hstep : step state action = some next) :
    StartUpInvariant (matchedAfter endpoints action) next where
  reachable := hinv.reachable.tail hstep
  reported := hinv.reported.step hstep
  apart hearly := by
    have hbefore : state.constructorPhase.steps < 4 := by
      rw [steps_of_step hstep] at hearly
      omega
    exact (hinv.apart hbefore).matchedAfter (hcalm hbefore)

theorem Reported.erase_eq_empty_iff {endpoints : Finset ClientEndpoint} {state : State}
    (hreported : Reported endpoints state.clientMatchedStatus) (guidPrefix : GuidPrefix)
    (position : Fin 2) :
    RemoteClientMatchedStatus.noClientMatched
        (state.clientMatchedStatus.setEndpoint position guidPrefix false) = true ↔
      endpoints.erase (guidPrefix, position) = ∅ := by
  have hafter := hreported.erase guidPrefix position
  rw [RemoteClientMatchedStatus.noClientMatched_eq_true_iff, Finset.eq_empty_iff_forall_notMem]
  constructor
  · rintro hnone ⟨otherPrefix, other⟩
    have hbit := hafter otherPrefix other
    rw [hnone] at hbit
    exact of_decide_eq_false hbit.symm
  · intro hnone otherPrefix other
    rw [hafter, decide_eq_false (hnone (otherPrefix, other))]

theorem StartUpInvariant.writerReady {endpoints : Finset ClientEndpoint} {state next : State}
    {action : Action} (hinv : StartUpInvariant endpoints state)
    (hcalm : state.constructorPhase.steps < 4 → Calm endpoints action)
    (hstep : ServerApp.step state action = some next) : WriterReady state action := by
  have hwriter : (state.constructorPhase.steps < 4 → False) →
      state.replyWriterIsNull = false := by
    intro hlate
    rw [← Bool.not_eq_true, replyWriterIsNull_iff]
    exact hlate
  cases action with
  | publicationMatched guidPrefix currentCountChange =>
      rintro ⟨hunmatch, hnone⟩
      refine hwriter fun hearly => hcalm hearly (Or.inr ⟨hunmatch, ?_⟩)
      exact (hinv.reported.erase_eq_empty_iff guidPrefix 1).mp hnone
  | subscriptionMatched guidPrefix currentCountChange =>
      rintro ⟨hunmatch, hnone⟩
      refine hwriter fun hearly => hcalm hearly (Or.inr ⟨hunmatch, ?_⟩)
      exact (hinv.reported.erase_eq_empty_iff guidPrefix 0).mp hnone
  | write ok =>
      -- the mutex is held since the look-up, so the client is still fully matched
      have hmatched : ∃ guidPrefix, state.clientMatchedStatus.isMatched guidPrefix = true := by
        have hconserved := conservationInvariant_of_reachable hinv.reachable
        cases transition_of_step hstep with
        | write _ request reply hthread _ =>
            exact ⟨_, hconserved.matched request _ hthread (by simp)⟩
        | writeNull _ request reply hthread _ =>
            exact ⟨_, hconserved.matched request _ hthread (by simp)⟩
        | rematch _ matched nullDereference hfree hlistener => cases hlistener
        | moveCallback _ index callback phase hget hmove hcallback => cases hcallback
      obtain ⟨guidPrefix, hmatched⟩ := hmatched
      refine hwriter fun hearly => hinv.apart hearly guidPrefix ?_
      rw [MatchedStatus.isMatched_eq_true_iff_hasEndpoint, hinv.reported, hinv.reported] at hmatched
      exact ⟨of_decide_eq_true hmatched.1, of_decide_eq_true hmatched.2⟩
  | construct | participantDiscovery _ _ _ | dataAvailable | callback _ | take _ _ | reply
  | run | stopStore | stopNotify => trivial

theorem StartUpInvariant.run {actions : List Action} {endpoints : Finset ClientEndpoint}
    {state final : State} (hinv : StartUpInvariant endpoints state)
    (hsafe : state.nullDereference = false)
    (hcalm : CalmStartUp state.constructorPhase.steps endpoints actions)
    (hrun : system.run state actions = some final) : final.nullDereference = false := by
  induction actions generalizing state endpoints with
  | nil =>
      cases hrun
      exact hsafe
  | cons action rest ih =>
      obtain ⟨next, hstep, hrest⟩ := TransitionSystem.run_cons_eq_some.mp hrun
      have hready := hinv.writerReady hcalm.1 hstep
      refine ih (hinv.step hcalm.1 hstep) ((nullDereference_step_iff hstep).mpr hready) ?_ hrest
      rw [steps_of_step hstep]
      exact hcalm.2

/-- A run with a calm start-up, from the spawning of the reply thread on, dereferences no
null writer. -/
theorem startup_safe_of_calm {actions : List Action} {state : State}
    (hcalm : CalmStartUp 0 ∅ actions) (hrun : system.run initial actions = some state) :
    state.nullDereference = false :=
  initial_startUpInvariant.run rfl hcalm hrun

theorem startup_safe_answeringRun :
    ∃ state,
      system.run initial
          ([.construct, .construct, .construct, .subscriptionMatched 1 1,
            .subscriptionMatched 2 1, .subscriptionMatched 2 (-1), .construct,
            .publicationMatched 1 1, .dataAvailable] ++
            receiveActions (additionSample 1 1 2) ++ answerActions) = some state ∧
        state.nullDereference = false := by
  obtain ⟨state, hrun⟩ :
      ∃ state, system.run initial
        ([.construct, .construct, .construct, .subscriptionMatched 1 1,
          .subscriptionMatched 2 1, .subscriptionMatched 2 (-1), .construct,
          .publicationMatched 1 1, .dataAvailable] ++
          receiveActions (additionSample 1 1 2) ++ answerActions) = some state :=
    ⟨_, rfl⟩
  exact ⟨state, hrun, startup_safe_of_calm (by decide) hrun⟩

/-- The request writer of the first client is matched and unmatched between
`create_request_entities` and `create_reply_entities`. -/
theorem startup_unsafe_earlyUnmatch :
    ¬ ∀ state, system.Reachable state → state.nullDereference = false := by
  intro hall
  obtain ⟨state, hrun, hnull⟩ :
      ∃ state, system.run initial
          [.construct, .construct, .subscriptionMatched 1 1,
            .subscriptionMatched 1 (-1)] = some state ∧
        state.nullDereference = true :=
    ⟨_, rfl, by decide⟩
  rw [hall state ⟨_, hrun⟩] at hnull
  contradiction

/-! ## Runs that are not calm -/

theorem reported_of_run {actions : List Action} {state : State}
    (hrun : system.run initial actions = some state) :
    Reported (actions.foldl matchedAfter ∅) state.clientMatchedStatus := by
  induction actions using List.reverseRecOn generalizing state with
  | nil =>
      cases hrun
      exact initial_startUpInvariant.reported
  | append_singleton actions action ih =>
      obtain ⟨middle, hbefore, hstep⟩ := TransitionSystem.run_append_singleton.mp hrun
      rw [List.foldl_append]
      exact (ih hbefore).step hstep

/-- The unmatch that leaves no endpoint matched, before the fourth step of the
constructor. -/
theorem nullDereference_of_lastUnmatch {actions : List Action} {state next : State}
    (hrun : system.run initial actions = some state)
    (hearly : state.constructorPhase.steps < 4) {guidPrefix : GuidPrefix} {action : Action}
    (hlast : action = .publicationMatched guidPrefix (-1) ∧
        (actions.foldl matchedAfter ∅).erase (guidPrefix, replyReader) = ∅ ∨
      action = .subscriptionMatched guidPrefix (-1) ∧
        (actions.foldl matchedAfter ∅).erase (guidPrefix, requestWriter) = ∅)
    (hstep : step state action = some next) : next.nullDereference = true := by
  have hreported := reported_of_run hrun
  have hnull := (replyWriterIsNull_iff state).mpr hearly
  by_contra hsafe
  have hready := (nullDereference_step_iff hstep).mp (by simpa using hsafe)
  have hassigned : state.replyWriterIsNull = false := by
    rcases hlast with ⟨rfl, hnone⟩ | ⟨rfl, hnone⟩
    · exact hready ⟨rfl, (hreported.erase_eq_empty_iff guidPrefix 1).mpr hnone⟩
    · exact hready ⟨rfl, (hreported.erase_eq_empty_iff guidPrefix 0).mpr hnone⟩
  rw [hnull] at hassigned
  contradiction

/-- `run` and `stop` are called on a constructed server only. -/
theorem quiet_of_replyWriterIsNull {state : State} (hreach : system.Reachable state) :
    state.replyWriterIsNull = true → state.stop = false ∧ state.runThread = .notStarted := by
  refine hreach.invariant
    (fun state => state.replyWriterIsNull = true →
      state.stop = false ∧ state.runThread = .notStarted) (fun _ => ⟨rfl, rfl⟩) ?_
  intro state action next hquiet hstep hnull
  have hbefore : state.replyWriterIsNull = true := by
    rw [replyWriterIsNull_iff, steps_of_step hstep] at hnull
    rw [replyWriterIsNull_iff]
    omega
  obtain ⟨hstop, hnotStarted⟩ := hquiet hbefore
  cases transition_of_step hstep with
  | run phase hmove =>
      cases hmove with
      | start hthread hconstructed =>
          rw [hbefore] at hconstructed
          contradiction
      | acquire hthread hfree => simp [hnotStarted] at hthread
      | predicateTrue hthread _ | predicateFalse hthread _ | block hthread =>
          simp [hnotStarted] at hthread
  | stopStore hwriter =>
      rw [hbefore] at hwriter
      contradiction
  | stopNotify hpending => exact ⟨hstop, by simp [State.notifyAll, hnotStarted, RunPhase.notify]⟩
  | push index callback info hget hphase hdata hfree =>
      exact ⟨hstop, by
        simp [State.setCallback, State.push, State.notifyAll, hnotStarted, RunPhase.notify]⟩
  | _ => exact ⟨hstop, hnotStarted⟩

/-- The sample of an addition that a client has written. -/
def additionOf (guidPrefix : GuidPrefix) : Sample where
  info := ⟨.alive, true, ⟨guidPrefix, 1⟩, ⟨⟨guidPrefix, 1⟩, 1⟩⟩
  data := ⟨"client", .addition, 1, 2⟩

/-- A client that is fully matched while the writer is null can bring about its use: its
request is taken, and the idle reply thread comes to the write. -/
theorem leadsToNull_of_isMatched {state : State} (hreach : system.Reachable state)
    (hsafe : state.nullDereference = false) (hnull : state.replyWriterIsNull = true)
    (hreader : state.constructorPhase.hasRequestReader = true)
    (hidle : state.replyThread = .testLoop) (hempty : state.requests = [])
    {guidPrefix : GuidPrefix} (hmatched : state.clientMatchedStatus.isMatched guidPrefix = true) :
    ∃ final, system.ReachableFrom state final ∧ final.nullDereference = true := by
  have hfull := RemoteClientMatchedStatus.isFullyUnmatched_of_isMatched hmatched
  obtain ⟨hstop, hrun⟩ := quiet_of_replyWriterIsNull hreach hnull
  have hphase : state.constructorPhase ≠ .replyWriterAssigned := by
    simpa [State.replyWriterIsNull] using hnull
  let index := state.callbacks.length
  have hnulled : (system.run state [.dataAvailable, .callback index,
      .take index (some (additionOf guidPrefix)), .callback index, .reply, .reply, .reply, .reply,
      .reply, .reply, .reply, .write true]).map State.nullDereference = some true := by
    simp [TransitionSystem.run, system, step, hsafe, onDataAvailable, hreader, callbackStep, index,
      State.setCallback, hstop, takeStep, State.push, State.notifyAll, State.mutexFree, hidle, hrun,
      ReplyPhase.notify, RunPhase.notify, ReplyPhase.holdsMutex, RunPhase.holdsMutex, additionOf,
      SampleInfo.carriesData, replyStep, hempty, processStep, hmatched, hfull, State.object?,
      calculate, writeStep, Request.clientGuidPrefix, State.replyWriterIsNull, hphase]
  obtain ⟨final, hfinal, hdereferenced⟩ := Option.map_eq_some_iff.mp hnulled
  exact ⟨final, ⟨_, hfinal⟩, hdereferenced⟩

end CppProj.RequestReply.ServerApp
