import CppProj.FieldService
import CppProj.WeightedLists

/-!
# The client of the field in `get_set_eventpb`

`client_sample` is driven by the events of the field: an event whose length is a
multiple of five makes it get the field, and one whose length is a multiple of
eight makes it set the field, which causes an event again.  Requests and messages
arrive in any order.  They may get lost, as the events do that come while the
client has no subscription or that repeat the value before; with a new subscription
the last event is sent again.
-/

namespace CppProj.FieldServiceClient

open FieldService (Request HandlerPhase NotifyPhase itsData afterSend attachStep contents_eq
  handlerStep notifyStep)
open WeightedLists

/-- A response or an event.  Events have the client 0. -/
structure Message where
  client : UInt16
  bytes : List UInt8
  deriving DecidableEq

def clientSetData : List UInt8 :=
  [0x20, 0x21, 0x22, 0x23, 0x24, 0x25, 0x26, 0x27, 0x28, 0x29]

/-- The requests that `on_message` sends. -/
def onMessage (response : Message) : List Request :=
  if response.client = 0 then
    (if response.bytes.length % 5 = 0 then [.get] else []) ++
      (if response.bytes.length % 8 = 0 then [.set clientSetData] else [])
  else []

/-- `requests` are on their way to the service and `messages` to the client, and
`sent` are the requests so far. -/
structure State where
  service : FieldService.State
  requests : List Request
  messages : List Message
  sent : List Request
  deriving DecidableEq

inductive Action where
  | deliver (index : ℕ)
  | loseRequest (index : ℕ)
  | handler (index : ℕ)
  | notify
  | onMessage (index : ℕ)
  | loseMessage (index : ℕ)
  | subscribed
  deriving DecidableEq

def initial : State where
  service := FieldService.initial
  requests := []
  messages := []
  sent := []

/-- What a step of the service sends. -/
def sentMessages (client : UInt16) (before after : FieldService.State) : List Message :=
  ((after.responses.drop before.responses.length).map fun response =>
      ⟨client, response.bytes⟩) ++
    (after.events.drop before.events.length).map fun bytes => ⟨0, bytes⟩

def serviceStep (client : UInt16) (state : State) (action : FieldService.Action) :
    Option State :=
  (FieldService.step state.service action).map fun service =>
    { state with
      service := service
      messages := state.messages ++ sentMessages client state.service service }

def step (client : UInt16) (state : State) : Action → Option State
  | .deliver index =>
      match state.requests[index]? with
      | some request =>
          serviceStep client { state with requests := state.requests.eraseIdx index }
            (.message request)
      | none => none
  | .loseRequest index =>
      match state.requests[index]? with
      | some _ => some { state with requests := state.requests.eraseIdx index }
      | none => none
  | .handler index => serviceStep client state (.handler index)
  | .notify => serviceStep client state .notify
  | .onMessage index =>
      match state.messages[index]? with
      | some response =>
          some
            { state with
              messages := state.messages.eraseIdx index
              requests := state.requests ++ onMessage response
              sent := state.sent ++ onMessage response }
      | none => none
  | .loseMessage index =>
      match state.messages[index]? with
      | some _ => some { state with messages := state.messages.eraseIdx index }
      | none => none
  | .subscribed =>
      match state.service.events.getLast? with
      | some bytes => some { state with messages := state.messages ++ [⟨0, bytes⟩] }
      | none => none

/-- `client` is the identifier of the client application. -/
def system (client : UInt16) : TransitionSystem State Action := ⟨initial, step client⟩

/-! ## What a step does -/

def State.current (state : State) : List UInt8 := state.service.contents state.service.payload

/-- A handler is dispatched. -/
def State.dispatched (state : State) (index : ℕ) (request : Request) : State :=
  { state with
    requests := state.requests.eraseIdx index
    service.handlers := state.service.handlers ++ [.locking request] }

/-- A handler sends its response. -/
def State.answered (client : UInt16) (state : State) (index : ℕ) (request : Request)
    (response : ℕ) (held : List UInt8) : State :=
  let bytes := state.service.contents response
  { state with
    service.handlers := state.service.handlers.set index (afterSend request)
    service.responses := state.service.responses ++ [⟨request, held, bytes⟩]
    messages := state.messages ++ [⟨client, bytes⟩] }

/-- A handler sends the event of `on_set`. -/
def State.notified (state : State) (index : ℕ) : State :=
  { state with
    service.handlers := state.service.handlers.set index .returned
    service.events := state.service.events ++ [state.current]
    messages := state.messages ++ [⟨0, state.current⟩] }

/-- The notify thread sends its event. -/
def State.cycled (state : State) : State :=
  { state with
    service := notifyStep state.service
    messages := state.messages ++ [⟨0, state.current⟩] }

def State.reacted (state : State) (index : ℕ) (response : Message) : State :=
  { state with
    messages := state.messages.eraseIdx index
    requests := state.requests ++ onMessage response
    sent := state.sent ++ onMessage response }

inductive Moves (client : UInt16) (state : State) : Action → State → Prop where
  | deliver {index : ℕ} {request : Request} (hget : state.requests[index]? = some request) :
      Moves client state (.deliver index) (state.dispatched index request)
  | loseRequest {index : ℕ} {request : Request} (hget : state.requests[index]? = some request) :
      Moves client state (.loseRequest index)
        { state with requests := state.requests.eraseIdx index }
  | lock {index : ℕ} {request : Request}
      (hget : state.service.handlers[index]? = some (.locking request))
      (hfree : state.service.notify.holdsMutex = false) :
      Moves client state (.handler index)
        { state with service := attachStep state.service index request }
  | send {index : ℕ} {request : Request} {response : ℕ} {held : List UInt8}
      (hget : state.service.handlers[index]? = some (.sending request response held)) :
      Moves client state (.handler index) (state.answered client index request response held)
  | event {index : ℕ} (hget : state.service.handlers[index]? = some .notifying) :
      Moves client state (.handler index) (state.notified index)
  | prepare (hphase : state.service.notify ≠ .notifying) :
      Moves client state .notify { state with service := notifyStep state.service }
  | cycle (hphase : state.service.notify = .notifying) :
      Moves client state .notify state.cycled
  | onMessage {index : ℕ} {response : Message} (hget : state.messages[index]? = some response) :
      Moves client state (.onMessage index) (state.reacted index response)
  | loseMessage {index : ℕ} {response : Message}
      (hget : state.messages[index]? = some response) :
      Moves client state (.loseMessage index)
        { state with messages := state.messages.eraseIdx index }
  | subscribed {bytes : List UInt8} (hlast : state.service.events.getLast? = some bytes) :
      Moves client state .subscribed
        { state with messages := state.messages ++ [⟨0, bytes⟩] }

variable {client : UInt16} {state next : State}

theorem sentMessages_nil {before after : FieldService.State}
    (hresponses : after.responses = before.responses) (hevents : after.events = before.events) :
    sentMessages client before after = [] := by
  rw [sentMessages, hresponses, hevents, List.drop_length, List.drop_length]
  rfl

theorem sentMessages_event {before after : FieldService.State} {bytes : List UInt8}
    (hresponses : after.responses = before.responses)
    (hevents : after.events = before.events ++ [bytes]) :
    sentMessages client before after = [⟨0, bytes⟩] := by
  rw [sentMessages, hresponses, hevents, List.drop_left, List.drop_length]
  rfl

theorem moves_of_handler {index : ℕ}
    (hstep : serviceStep client state (.handler index) = some next) :
    Moves client state (.handler index) next := by
  obtain ⟨service, hservice, rfl⟩ := Option.map_eq_some_iff.mp hstep
  change handlerStep state.service index = some service at hservice
  unfold handlerStep at hservice
  cases hget : state.service.handlers[index]? with
  | none =>
      rw [hget] at hservice
      cases hservice
  | some phase =>
      rw [hget] at hservice
      cases phase with
      | locking request =>
          simp only [Option.ite_none_left_eq_some] at hservice
          obtain ⟨hmutex, hservice⟩ := hservice
          cases hservice
          have hnone : sentMessages client state.service
              (attachStep state.service index request) = [] := by
            cases request with
            | get => exact sentMessages_nil rfl rfl
            | set bytes => exact sentMessages_nil rfl rfl
          rw [hnone, List.append_nil]
          exact .lock hget (Bool.eq_false_iff.mpr hmutex)
      | sending request response held =>
          cases hservice
          simp only [sentMessages, List.drop_left, List.drop_length, List.map_cons, List.map_nil,
            List.append_nil]
          exact .send hget
      | notifying =>
          cases hservice
          simp only [sentMessages, List.drop_left, List.drop_length, List.map_cons, List.map_nil,
            List.nil_append]
          exact .event hget
      | returned => cases hservice

theorem moves_of_notify (hstep : serviceStep client state .notify = some next) :
    Moves client state .notify next := by
  cases hstep
  by_cases hphase : state.service.notify = .notifying
  · have hevents : (notifyStep state.service).events =
        state.service.events ++ [state.current] := by
      rw [notifyStep, hphase]
      rfl
    have hresponses : (notifyStep state.service).responses = state.service.responses := by
      rw [notifyStep, hphase]
    dsimp only
    rw [sentMessages_event hresponses hevents]
    exact .cycle hphase
  · have hsame : (notifyStep state.service).responses = state.service.responses ∧
        (notifyStep state.service).events = state.service.events := by
      unfold notifyStep
      cases hother : state.service.notify with
      | filling => exact ⟨rfl, rfl⟩
      | locking => exact ⟨rfl, rfl⟩
      | settingData => exact ⟨rfl, rfl⟩
      | notifying => exact absurd hother hphase
    dsimp only
    rw [sentMessages_nil hsame.1 hsame.2, List.append_nil]
    exact .prepare hphase

theorem moves_of_step {action : Action} (hstep : step client state action = some next) :
    Moves client state action next := by
  cases action with
  | handler index => exact moves_of_handler hstep
  | notify => exact moves_of_notify hstep
  | deliver index =>
      dsimp only [step] at hstep
      split at hstep
      next request hget =>
        cases hstep
        simp only [sentMessages, List.drop_length, List.map_nil, List.append_nil]
        exact .deliver hget
      next => cases hstep
  | loseRequest index =>
      dsimp only [step] at hstep
      split at hstep
      next request hget =>
        cases hstep
        exact .loseRequest hget
      next => cases hstep
  | onMessage index =>
      dsimp only [step] at hstep
      split at hstep
      next response hget =>
        cases hstep
        exact .onMessage hget
      next => cases hstep
  | loseMessage index =>
      dsimp only [step] at hstep
      split at hstep
      next response hget =>
        cases hstep
        exact .loseMessage hget
      next => cases hstep
  | subscribed =>
      dsimp only [step] at hstep
      split at hstep
      next bytes hlast =>
        cases hstep
        exact .subscribed hlast
      next => cases hstep

/-! ## The values of the field -/

def FieldValue (bytes : List UInt8) : Prop :=
  (∃ size, 1 ≤ size ∧ size ≤ 9 ∧ bytes = itsData size) ∨ bytes = clientSetData

theorem length_itsData (size : ℕ) : (itsData size).length = size := by
  rw [itsData, List.length_map, List.length_range]

theorem FieldValue.length {bytes : List UInt8} (hvalue : FieldValue bytes) :
    1 ≤ bytes.length ∧ bytes.length ≤ 10 := by
  rcases hvalue with ⟨size, hlower, hupper, rfl⟩ | rfl
  · rw [length_itsData]
    omega
  · decide

def ClientRequest (request : Request) : Prop := request = .get ∨ request = .set clientSetData

theorem clientRequest_of_onMessage (response : Message) :
    ∀ request ∈ onMessage response, ClientRequest request := by
  intro request hmem
  unfold onMessage at hmem
  split_ifs at hmem with hevent hget hset hset
  · rcases List.mem_append.mp hmem with hone | hother
    · exact .inl (List.mem_singleton.mp hone)
    · exact .inr (List.mem_singleton.mp hother)
  · rw [List.append_nil] at hmem
    exact .inl (List.mem_singleton.mp hmem)
  · exact .inr (List.mem_singleton.mp hmem)
  · contradiction
  · contradiction

/-- `payloads` is the number of the payload objects. -/
def Handles (payloads : ℕ) : HandlerPhase → Prop
  | .locking request => ClientRequest request
  | .sending _ response _ => response < payloads
  | .notifying | .returned => True

theorem Handles.mono {payloads more : ℕ} (hle : payloads ≤ more) {handler : HandlerPhase}
    (hhandles : Handles payloads handler) : Handles more handler := by
  cases handler with
  | locking request => exact hhandles
  | sending request response held => exact Nat.lt_of_lt_of_le hhandles hle
  | notifying => trivial
  | returned => trivial

/-- `its_data` never overflows. -/
structure Sized (service : FieldService.State) : Prop where
  lower : 1 ≤ service.itsSize
  upper : service.itsSize ≤ 10
  filled : service.notify ≠ .filling → service.itsSize ≤ 9

/-- Until the first `set_data` nobody knows of the field. -/
structure Untouched (state : State) : Prop where
  payloads : state.service.payloads = [[]]
  payload : state.service.payload = 0
  handlers : state.service.handlers = []
  responses : state.service.responses = []
  events : state.service.events = []
  requests : state.requests = []
  messages : state.messages = []
  notify : state.service.notify ≠ .notifying

structure Shows (state : State) : Prop where
  payload : state.service.payload < state.service.payloads.length
  payloads : ∀ bytes ∈ state.service.payloads, FieldValue bytes
  handlers : ∀ handler ∈ state.service.handlers, Handles state.service.payloads.length handler
  responses : ∀ response ∈ state.service.responses, FieldValue response.bytes
  events : ∀ bytes ∈ state.service.events, FieldValue bytes
  requests : ∀ request ∈ state.requests, ClientRequest request
  messages : ∀ response ∈ state.messages, FieldValue response.bytes

/-- The handlers whose response has been sent. -/
def answered : HandlerPhase → Bool
  | .notifying | .returned => true
  | .locking _ | .sending _ _ _ => false

structure Invariant (state : State) : Prop where
  sized : Sized state.service
  answers : state.service.responses.length = state.service.handlers.countP answered
  field : Untouched state ∨ Shows state

theorem initial_invariant : Invariant initial where
  sized := ⟨Nat.le_refl 1, by decide, fun hne => absurd rfl hne⟩
  answers := rfl
  field := .inl ⟨rfl, rfl, rfl, rfl, rfl, rfl, rfl, NotifyPhase.noConfusion⟩

theorem forall_mem_set {α : Type} {holds : α → Prop} {items : List α}
    (hall : ∀ item ∈ items, holds item) (index : ℕ) {changed : α} (hchanged : holds changed) :
    ∀ item ∈ items.set index changed, holds item := by
  intro item hmem
  rcases List.mem_or_eq_of_mem_set hmem with hold | rfl
  · exact hall item hold
  · exact hchanged

theorem forall_mem_concat {α : Type} {holds : α → Prop} {items : List α}
    (hall : ∀ item ∈ items, holds item) {added : α} (hadded : holds added) :
    ∀ item ∈ items ++ [added], holds item :=
  List.forall_mem_append.mpr ⟨hall, List.forall_mem_singleton.mpr hadded⟩

theorem forall_mem_of_eq_nil {α : Type} {holds : α → Prop} {items : List α}
    (hnil : items = []) : ∀ item ∈ items, holds item := by
  rw [hnil]
  exact List.forall_mem_nil holds

theorem Shows.contents (hshows : Shows state) {object : ℕ}
    (hlt : object < state.service.payloads.length) :
    FieldValue (state.service.contents object) := by
  rw [contents_eq (List.getElem?_eq_getElem hlt)]
  exact hshows.payloads _ (List.getElem_mem hlt)

theorem Shows.current (hshows : Shows state) : FieldValue state.current :=
  hshows.contents hshows.payload

theorem Sized.congr {before after : FieldService.State} (hsized : Sized before)
    (hsize : after.itsSize = before.itsSize) (hnotify : after.notify = before.notify) :
    Sized after where
  lower := by rw [hsize]; exact hsized.lower
  upper := by rw [hsize]; exact hsized.upper
  filled := by rw [hsize, hnotify]; exact hsized.filled

theorem Sized.notifyStep {service : FieldService.State} (hsized : Sized service) :
    Sized (notifyStep service) := by
  obtain ⟨hlower, hupper, hfilled⟩ := hsized
  unfold FieldService.notifyStep
  cases hphase : service.notify with
  | filling =>
      constructor
      · dsimp only
        split_ifs <;> omega
      · dsimp only
        split_ifs <;> omega
      · intro _
        dsimp only
        split_ifs with hfull
        · omega
        · have hne : service.itsSize ≠ 10 := hfull
          omega
  | locking =>
      rw [hphase] at hfilled
      exact ⟨hlower, hupper, fun _ => hfilled NotifyPhase.noConfusion⟩
  | settingData =>
      rw [hphase] at hfilled
      exact ⟨hlower, hupper, fun _ => hfilled NotifyPhase.noConfusion⟩
  | notifying =>
      rw [hphase] at hfilled
      have hsize := hfilled NotifyPhase.noConfusion
      exact ⟨Nat.le_add_left 1 _, Nat.succ_le_succ hsize, fun hne => absurd rfl hne⟩

theorem Sized.itsData {service : FieldService.State} (hsized : Sized service)
    (hphase : service.notify ≠ .filling) : FieldValue (itsData service.itsSize) :=
  .inl ⟨service.itsSize, hsized.lower, hsized.filled hphase, rfl⟩

theorem Shows.prepare (hshows : Shows state) (hsized : Sized state.service)
    (hphase : state.service.notify ≠ .notifying) :
    Shows { state with service := notifyStep state.service } := by
  unfold FieldService.notifyStep
  cases hcases : state.service.notify with
  | filling => exact { hshows with }
  | locking => exact { hshows with }
  | settingData =>
      have hdata := hsized.itsData (by rw [hcases]; exact NotifyPhase.noConfusion)
      have hlength : (state.service.payloads.set state.service.payload
          (FieldService.itsData state.service.itsSize)).length = state.service.payloads.length :=
        List.length_set
      exact
        { hshows with
          payload := Nat.lt_of_lt_of_eq hshows.payload hlength.symm
          payloads := forall_mem_set hshows.payloads _ hdata
          handlers := fun handler hmem =>
            (hshows.handlers handler hmem).mono (Nat.le_of_eq hlength.symm) }
  | notifying => exact absurd hcases hphase

theorem Shows.cycled (hshows : Shows state) (hphase : state.service.notify = .notifying) :
    Shows state.cycled := by
  have hmessages : ∀ response ∈ state.cycled.messages, FieldValue response.bytes :=
    forall_mem_concat hshows.messages hshows.current
  unfold State.cycled FieldService.notifyStep at *
  rw [hphase]
  exact { hshows with
    events := forall_mem_concat hshows.events hshows.current
    messages := hmessages }

theorem Shows.lock (hshows : Shows state) {index : ℕ} {request : Request}
    (hget : state.service.handlers[index]? = some (.locking request)) :
    Shows { state with service := attachStep state.service index request } := by
  cases request with
  | get =>
      exact { hshows with handlers := forall_mem_set hshows.handlers index hshows.payload }
  | set bytes =>
      have hclient : ClientRequest (.set bytes) :=
        hshows.handlers _ (List.mem_of_getElem? hget)
      have hbytes : FieldValue bytes := by
        rcases hclient with hget | hset
        · cases hget
        · cases hset
          exact .inr rfl
      have hlength : (state.service.payloads ++ [bytes]).length =
          state.service.payloads.length + 1 := List.length_append
      exact
        { hshows with
          payload := Nat.lt_of_lt_of_eq (Nat.lt_succ_self _) hlength.symm
          payloads := forall_mem_concat hshows.payloads hbytes
          handlers := by
            refine forall_mem_set ?_ index (Nat.lt_of_lt_of_eq (Nat.lt_succ_self _) hlength.symm)
            intro handler hmem
            exact (hshows.handlers handler hmem).mono
              (Nat.le_of_lt (Nat.lt_of_lt_of_eq (Nat.lt_succ_self _) hlength.symm)) }

theorem Shows.step {action : Action} (hshows : Shows state) (hsized : Sized state.service)
    (hmoves : Moves client state action next) : Shows next := by
  cases hmoves with
  | deliver hget =>
      have hrequest := hshows.requests _ (List.mem_of_getElem? hget)
      exact
        { hshows with
          handlers := forall_mem_concat hshows.handlers hrequest
          requests := fun request hmem => hshows.requests request (List.mem_of_mem_eraseIdx hmem) }
  | loseRequest hget =>
      exact
        { hshows with
          requests := fun request hmem => hshows.requests request (List.mem_of_mem_eraseIdx hmem) }
  | lock hget _ => exact hshows.lock hget
  | @send index request response held hget =>
      have hresponse : response < state.service.payloads.length :=
        hshows.handlers _ (List.mem_of_getElem? hget)
      have hafter : Handles state.service.payloads.length (afterSend request) := by
        cases request <;> trivial
      exact
        { hshows with
          handlers := forall_mem_set hshows.handlers index hafter
          responses := forall_mem_concat hshows.responses (hshows.contents hresponse)
          messages := forall_mem_concat hshows.messages (hshows.contents hresponse) }
  | @event index hget =>
      have hreturned : Handles state.service.payloads.length .returned := trivial
      exact
        { hshows with
          handlers := forall_mem_set hshows.handlers index hreturned
          events := forall_mem_concat hshows.events hshows.current
          messages := forall_mem_concat hshows.messages hshows.current }
  | prepare hphase => exact hshows.prepare hsized hphase
  | cycle hphase => exact hshows.cycled hphase
  | @onMessage index response hget =>
      exact
        { hshows with
          requests := List.forall_mem_append.mpr
            ⟨hshows.requests, clientRequest_of_onMessage response⟩
          messages := fun other hmem => hshows.messages other (List.mem_of_mem_eraseIdx hmem) }
  | loseMessage hget =>
      exact
        { hshows with
          messages := fun other hmem => hshows.messages other (List.mem_of_mem_eraseIdx hmem) }
  | subscribed hlast =>
      have hvalue := hshows.events _ (List.mem_of_getLast? hlast)
      exact { hshows with messages := forall_mem_concat hshows.messages hvalue }

/-- At first only the notify thread moves. -/
theorem Untouched.step {action : Action} (huntouched : Untouched state)
    (hsized : Sized state.service) (hmoves : Moves client state action next) :
    Untouched next ∨ Shows next := by
  cases hmoves with
  | prepare hphase =>
      unfold FieldService.notifyStep
      cases hcases : state.service.notify with
      | filling => exact .inl { huntouched with notify := NotifyPhase.noConfusion }
      | locking => exact .inl { huntouched with notify := NotifyPhase.noConfusion }
      | settingData =>
          have hdata := hsized.itsData (by rw [hcases]; exact NotifyPhase.noConfusion)
          right
          constructor
          · change state.service.payload < (List.set _ _ _).length
            rw [List.length_set, huntouched.payloads, huntouched.payload]
            exact Nat.one_pos
          · change ∀ bytes ∈ List.set _ _ _, FieldValue bytes
            rw [huntouched.payloads, huntouched.payload]
            exact List.forall_mem_singleton.mpr hdata
          · exact forall_mem_of_eq_nil huntouched.handlers
          · exact forall_mem_of_eq_nil huntouched.responses
          · exact forall_mem_of_eq_nil huntouched.events
          · exact forall_mem_of_eq_nil huntouched.requests
          · exact forall_mem_of_eq_nil huntouched.messages
      | notifying => exact absurd hcases hphase
  | cycle hphase => exact absurd hphase huntouched.notify
  | deliver hget | loseRequest hget =>
      rw [huntouched.requests] at hget
      cases hget
  | lock hget _ | send hget | event hget =>
      rw [huntouched.handlers] at hget
      cases hget
  | onMessage hget | loseMessage hget =>
      rw [huntouched.messages] at hget
      cases hget
  | subscribed hlast =>
      rw [huntouched.events] at hlast
      cases hlast

theorem Invariant.sized_step {action : Action} (hinv : Invariant state)
    (hmoves : Moves client state action next) : Sized next.service := by
  have hsized := hinv.sized
  cases hmoves with
  | @lock index request hget hfree =>
      cases request with
      | get => exact hsized.congr rfl rfl
      | set bytes => exact hsized.congr rfl rfl
  | prepare hphase => exact hsized.notifyStep
  | cycle hphase => exact hsized.notifyStep
  | deliver hget => exact hsized.congr rfl rfl
  | send hget => exact hsized.congr rfl rfl
  | event hget => exact hsized.congr rfl rfl
  | loseRequest hget => exact hsized
  | onMessage hget => exact hsized
  | loseMessage hget => exact hsized
  | subscribed hlast => exact hsized

theorem notifyStep_answers (service : FieldService.State) :
    (notifyStep service).responses = service.responses ∧
      (notifyStep service).handlers = service.handlers := by
  unfold FieldService.notifyStep
  cases service.notify <;> exact ⟨rfl, rfl⟩

/-- A handler that has not been answered turns into one that has, with its
response. -/
theorem Invariant.answers_step {action : Action} (hinv : Invariant state)
    (hmoves : Moves client state action next) :
    next.service.responses.length = next.service.handlers.countP answered := by
  have hanswers := hinv.answers
  cases hmoves with
  | @deliver index request hget =>
      change state.service.responses.length =
        (state.service.handlers ++ [HandlerPhase.locking request]).countP answered
      rw [List.countP_append, hanswers]
      rfl
  | @lock index request hget hfree =>
      cases request with
      | get =>
          have hcount := ListUpdate.countP_set_add answered hget
            (.sending .get state.service.payload state.current)
          exact hanswers.trans hcount.symm
      | set bytes =>
          have hcount := ListUpdate.countP_set_add answered hget
            (.sending (.set bytes) state.service.payloads.length bytes)
          exact hanswers.trans hcount.symm
  | @send index request response held hget =>
      have hcount := ListUpdate.countP_set_add answered hget (afterSend request)
      have hafter : answered (afterSend request) = true := by
        cases request <;> rfl
      rw [hafter] at hcount
      change (state.service.responses ++ [_]).length =
        (state.service.handlers.set index (afterSend request)).countP answered
      rw [List.length_append, hanswers]
      exact hcount.symm
  | @event index hget =>
      have hcount := ListUpdate.countP_set_add answered hget .returned
      exact hanswers.trans (Nat.add_right_cancel hcount).symm
  | prepare hphase =>
      obtain ⟨hresponses, hhandlers⟩ := notifyStep_answers state.service
      dsimp only
      rw [hresponses, hhandlers, hanswers]
  | cycle hphase =>
      obtain ⟨hresponses, hhandlers⟩ := notifyStep_answers state.service
      dsimp only [State.cycled]
      rw [hresponses, hhandlers, hanswers]
  | loseRequest hget => exact hanswers
  | onMessage hget => exact hanswers
  | loseMessage hget => exact hanswers
  | subscribed hlast => exact hanswers

theorem Invariant.step {action : Action} (hinv : Invariant state)
    (hmoves : Moves client state action next) : Invariant next where
  sized := hinv.sized_step hmoves
  answers := hinv.answers_step hmoves
  field := by
    rcases hinv.field with huntouched | hshows
    · exact huntouched.step hinv.sized hmoves
    · exact .inr (hshows.step hinv.sized hmoves)

theorem Invariant.payload_lt (hinv : Invariant state) :
    state.service.payload < state.service.payloads.length := by
  rcases hinv.field with huntouched | hshows
  · rw [huntouched.payload, huntouched.payloads]
    exact Nat.one_pos
  · exact hshows.payload

theorem Invariant.clientRequest_of_locking (hinv : Invariant state) {index : ℕ}
    {request : Request} (hget : state.service.handlers[index]? = some (.locking request)) :
    ClientRequest request := by
  rcases hinv.field with huntouched | hshows
  · rw [huntouched.handlers] at hget
    cases hget
  · exact hshows.handlers _ (List.mem_of_getElem? hget)

theorem invariant_of_reachable (hreach : (system client).Reachable state) : Invariant state :=
  hreach.invariant Invariant initial_invariant
    fun _ _ _ hinv hstep => hinv.step (moves_of_step hstep)

/-- In whatever order the messages arrive, and whatever gets lost, responses and
events carry the data of a cycle or that of the client, and never the empty payload
of `init`. -/
theorem fieldValue_of_reachable (hreach : (system client).Reachable state) :
    (∀ response ∈ state.service.responses, FieldValue response.bytes) ∧
      ∀ bytes ∈ state.service.events, FieldValue bytes := by
  rcases (invariant_of_reachable hreach).field with huntouched | hshows
  · exact ⟨forall_mem_of_eq_nil huntouched.responses, forall_mem_of_eq_nil huntouched.events⟩
  · exact ⟨hshows.responses, hshows.events⟩

/-- The event of the eighth cycle makes the client set the field, which is answered
and causes an event. -/
def eighthCycle : List Action :=
  List.replicate 32 .notify ++ [.onMessage 7, .deliver 0, .handler 0, .handler 0, .handler 0]

def afterEighthCycle : State :=
  ((system 1).run initial eighthCycle).getD initial

theorem fieldValue_of_reachable_eighthCycle :
    afterEighthCycle.service.responses = [⟨.set clientSetData, clientSetData, clientSetData⟩] ∧
      ((∀ response ∈ afterEighthCycle.service.responses, FieldValue response.bytes) ∧
        ∀ bytes ∈ afterEighthCycle.service.events, FieldValue bytes) :=
  ⟨by decide, @fieldValue_of_reachable 1 afterEighthCycle ⟨eighthCycle, rfl⟩⟩

end CppProj.FieldServiceClient
