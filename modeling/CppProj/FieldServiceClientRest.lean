import CppProj.FieldServiceClient

/-!
# The client of the field does not drive itself

The client reacts to the events that its own requests cause.  Between two cycles of
the notify thread the exchange nevertheless comes to rest: what each message may
still cause is a number, and each step lowers the sum.  As long as no cycle rewrites
the payload of an `on_set` before its event, only the notify thread makes the client
set the field, and it does so once in nine cycles.
-/

namespace CppProj.FieldServiceClient

open FieldService (Request HandlerPhase NotifyPhase itsData afterSend attachStep contents_eq
  notifyStep)
open WeightedLists

variable {client : UInt16} {state next : State}

/-! ## Rest -/

/-- The steps that neither begin a cycle nor repeat an event. -/
def Action.isQuiet : Action → Bool
  | .notify | .subscribed => false
  | .deliver _ | .loseRequest _ | .handler _ | .onMessage _ | .loseMessage _ => true

def waits : HandlerPhase → Bool
  | .returned => false
  | .locking _ | .sending _ _ _ | .notifying => true

/-- What waits for a step. -/
def State.work (state : State) : ℕ :=
  state.requests.length + state.messages.length + state.service.handlers.countP waits

/-- The steps that a request may lead to. -/
def requestSteps : Request → ℕ
  | .get => 4
  | .set _ => 10

def messageSteps (response : Message) : ℕ :=
  1 + weight requestSteps (onMessage response)

/-- The steps after the event of an `on_set`.  The payload may by then be that of
another request. -/
def eventSteps (current : List UInt8) : ℕ := if current.length % 8 = 0 then 11 else 5

def handlerSteps (current : List UInt8) : HandlerPhase → ℕ
  | .locking .get => 3
  | .locking (.set _) => 9
  | .sending .get _ _ => 2
  | .sending (.set _) _ _ => 3 + eventSteps current
  | .notifying => 1 + eventSteps current
  | .returned => 0

def State.stepsLeft (state : State) : ℕ :=
  weight requestSteps state.requests + weight messageSteps state.messages +
    weight (handlerSteps state.current) state.service.handlers

theorem messageSteps_response (hclient : client ≠ 0) (bytes : List UInt8) :
    messageSteps ⟨client, bytes⟩ = 1 := by
  rw [messageSteps, onMessage, if_neg hclient]
  rfl

theorem messageSteps_event {bytes : List UInt8} (hvalue : FieldValue bytes) :
    messageSteps ⟨0, bytes⟩ ≤ eventSteps bytes := by
  obtain ⟨hlower, hupper⟩ := hvalue.length
  rw [messageSteps, onMessage, if_pos rfl, weight_append, eventSteps]
  have hget : weight requestSteps [.get] = 4 := rfl
  have hset : weight requestSteps [.set clientSetData] = 10 := rfl
  have hnone : weight requestSteps [] = 0 := rfl
  dsimp only
  split_ifs <;> omega

theorem eventSteps_le (bytes : List UInt8) : 5 ≤ eventSteps bytes ∧ eventSteps bytes ≤ 11 := by
  rw [eventSteps]
  split_ifs <;> omega

theorem messageSteps_le {response : Message} (hvalue : FieldValue response.bytes) :
    messageSteps response ≤ 14 := by
  by_cases hclient : response.client = 0
  · have hevent := messageSteps_event hvalue
    have hle := eventSteps_le response.bytes
    rw [← hclient] at hevent
    exact hevent.trans (hle.2.trans (by omega))
  · exact (messageSteps_response hclient response.bytes).le.trans (by omega)

/-- Where the payload is that of the client, an event makes it get the field only. -/
theorem handlerSteps_clientSetData (current : List UInt8) (handler : HandlerPhase) :
    handlerSteps clientSetData handler ≤ handlerSteps current handler := by
  have hclient : eventSteps clientSetData = 5 := rfl
  have hcurrent := eventSteps_le current
  cases handler with
  | locking request => cases request <;> exact Nat.le_refl _
  | sending request response held =>
      cases request with
      | get => exact Nat.le_refl _
      | set bytes =>
          dsimp only [handlerSteps]
          omega
  | notifying =>
      dsimp only [handlerSteps]
      omega
  | returned => exact Nat.le_refl _

theorem handlerSteps_le (current : List UInt8) (handler : HandlerPhase) :
    handlerSteps current handler ≤ if waits handler then 14 else 0 := by
  have hcurrent := eventSteps_le current
  cases handler with
  | locking request =>
      change _ ≤ 14
      cases request <;> dsimp only [handlerSteps] <;> omega
  | sending request response held =>
      change _ ≤ 14
      cases request <;> dsimp only [handlerSteps] <;> omega
  | notifying =>
      change 1 + eventSteps current ≤ 14
      omega
  | returned => exact Nat.le_refl 0

theorem stepsLeft_le_work (hinv : Invariant state) : state.stepsLeft ≤ 14 * state.work := by
  have hrequests : weight requestSteps state.requests ≤ 14 * state.requests.length := by
    refine weight_le_mul_length fun request _ => ?_
    cases request <;> dsimp only [requestSteps] <;> omega
  have hmessages : weight messageSteps state.messages ≤ 14 * state.messages.length := by
    refine weight_le_mul_length fun response hmem => ?_
    rcases hinv.field with huntouched | hshows
    · rw [huntouched.messages] at hmem
      contradiction
    · exact messageSteps_le (hshows.messages response hmem)
  have hhandlers := weight_le_mul_countP (handlerSteps_le state.current)
    state.service.handlers
  unfold State.stepsLeft State.work
  omega

/-- The handler that locks the payload. -/
theorem stepsLeft_lock (hshows : Shows state) {index : ℕ} {request : Request}
    (hget : state.service.handlers[index]? = some (.locking request)) :
    State.stepsLeft { state with service := attachStep state.service index request } + 1 ≤
      state.stepsLeft := by
  cases request with
  | get =>
      have hset := weight_set (handlerSteps state.current) hget
        (.sending .get state.service.payload state.current)
      dsimp only [handlerSteps] at hset
      change weight requestSteps state.requests + weight messageSteps state.messages +
        weight (handlerSteps state.current) (state.service.handlers.set index
          (.sending .get state.service.payload state.current)) + 1 ≤ _
      unfold State.stepsLeft
      omega
  | set bytes =>
      have hbytes : bytes = clientSetData := by
        rcases hshows.handlers _ (List.mem_of_getElem? hget) with hother | hsame
        · cases hother
        · cases hsame
          rfl
      subst hbytes
      have hcurrent : State.current
          { state with service := attachStep state.service index (.set clientSetData) } =
            clientSetData := contents_eq List.getElem?_concat_length
      have hset := weight_set (handlerSteps clientSetData) hget
        (.sending (.set clientSetData) state.service.payloads.length clientSetData)
      have hmono := weight_mono (handlerSteps_clientSetData state.current)
        state.service.handlers
      have hclient : eventSteps clientSetData = 5 := rfl
      dsimp only [handlerSteps] at hset
      unfold State.stepsLeft
      rw [hcurrent]
      change weight requestSteps state.requests + weight messageSteps state.messages +
        weight (handlerSteps clientSetData) (state.service.handlers.set index _) + 1 ≤ _
      omega

theorem stepsLeft_handler (hclient : client ≠ 0) (hshows : Shows state) {index : ℕ}
    (hmoves : Moves client state (.handler index) next) :
    next.stepsLeft + 1 ≤ state.stepsLeft := by
  cases hmoves with
  | lock hget _ => exact stepsLeft_lock hshows hget
  | @send _ request response held hget =>
      have hset := weight_set (handlerSteps state.current) hget (afterSend request)
      have hmessage := messageSteps_response hclient (state.service.contents response)
      change weight requestSteps state.requests +
        weight messageSteps (state.messages ++ [⟨client, state.service.contents response⟩]) +
          weight (handlerSteps state.current)
            (state.service.handlers.set index (afterSend request)) + 1 ≤ _
      rw [weight_concat, hmessage]
      unfold State.stepsLeft
      cases request with
      | get =>
          dsimp only [handlerSteps, afterSend] at hset ⊢
          omega
      | set bytes =>
          dsimp only [handlerSteps, afterSend] at hset ⊢
          omega
  | event hget =>
      have hset := weight_set (handlerSteps state.current) hget .returned
      have hmessage := messageSteps_event hshows.current
      dsimp only [handlerSteps] at hset
      change weight requestSteps state.requests +
        weight messageSteps (state.messages ++ [⟨0, state.current⟩]) +
          weight (handlerSteps state.current) (state.service.handlers.set index .returned) + 1 ≤ _
      rw [weight_concat]
      unfold State.stepsLeft
      omega

/-- Each step between two cycles lowers what is left. -/
theorem stepsLeft_step (hclient : client ≠ 0) {action : Action} (hinv : Invariant state)
    (hquiet : action.isQuiet = true) (hmoves : Moves client state action next) :
    next.stepsLeft + 1 ≤ state.stepsLeft := by
  cases action with
  | deliver index =>
      cases hmoves with
      | @deliver _ request hget =>
          have herase := weight_eraseIdx requestSteps hget
          change weight requestSteps (state.requests.eraseIdx index) +
            weight messageSteps state.messages + weight (handlerSteps state.current)
              (state.service.handlers ++ [.locking request]) + 1 ≤ _
          rw [weight_concat]
          unfold State.stepsLeft
          cases request with
          | get =>
              dsimp only [requestSteps, handlerSteps] at herase ⊢
              omega
          | set bytes =>
              dsimp only [requestSteps, handlerSteps] at herase ⊢
              omega
  | loseRequest index =>
      cases hmoves with
      | @loseRequest _ request hget =>
          have herase := weight_eraseIdx requestSteps hget
          have hone : 1 ≤ requestSteps request := by
            cases request <;> exact Nat.le_add_left 1 _
          change weight requestSteps (state.requests.eraseIdx index) +
            weight messageSteps state.messages + weight (handlerSteps state.current)
              state.service.handlers + 1 ≤ _
          unfold State.stepsLeft
          omega
  | handler index =>
      rcases hinv.field with huntouched | hshows
      · cases hmoves with
        | lock hget _ | send hget | event hget =>
            rw [huntouched.handlers] at hget
            cases hget
      · exact stepsLeft_handler hclient hshows hmoves
  | onMessage index =>
      cases hmoves with
      | @onMessage _ response hget =>
          have herase := weight_eraseIdx messageSteps hget
          change weight requestSteps (state.requests ++ onMessage response) +
            weight messageSteps (state.messages.eraseIdx index) +
              weight (handlerSteps state.current) state.service.handlers + 1 ≤ _
          rw [weight_append]
          unfold messageSteps at herase
          unfold State.stepsLeft messageSteps
          omega
  | loseMessage index =>
      cases hmoves with
      | @loseMessage _ response hget =>
          have herase := weight_eraseIdx messageSteps hget
          have hone : 1 ≤ messageSteps response := Nat.le_add_right 1 _
          change weight requestSteps state.requests +
            weight messageSteps (state.messages.eraseIdx index) +
              weight (handlerSteps state.current) state.service.handlers + 1 ≤ _
          unfold State.stepsLeft
          omega
  | notify => cases hquiet
  | subscribed => cases hquiet

/-- A state in which no quiet step is possible is at rest, unless the notify thread
holds the mutex. -/
theorem work_eq_zero_of_stuck
    (hstuck : ∀ action, action.isQuiet = true → step client state action = none)
    (hfree : state.service.notify.holdsMutex = false) : state.work = 0 := by
  have hrequests : state.requests = [] := by
    cases hlist : state.requests with
    | nil => rfl
    | cons request requests =>
        have hnone := hstuck (.loseRequest 0) rfl
        rw [step, hlist] at hnone
        cases hnone
  have hmessages : state.messages = [] := by
    cases hlist : state.messages with
    | nil => rfl
    | cons response messages =>
        have hnone := hstuck (.loseMessage 0) rfl
        rw [step, hlist] at hnone
        cases hnone
  have hhandlers : ∀ handler ∈ state.service.handlers, ¬ waits handler = true := by
    intro handler hmem
    obtain ⟨index, hget⟩ := List.mem_iff_getElem?.mp hmem
    have hnone := Option.map_eq_none_iff.mp (hstuck (.handler index) rfl)
    change FieldService.handlerStep state.service index = none at hnone
    rw [FieldService.handlerStep, hget] at hnone
    cases handler with
    | locking request =>
        rw [hfree] at hnone
        cases hnone
    | sending request response held => cases hnone
    | notifying => cases hnone
    | returned => exact Bool.false_ne_true
  rw [State.work, hrequests, hmessages, List.countP_eq_zero.mpr hhandlers]
  rfl

theorem answered_of_work_eq_zero (hinv : Invariant state) (hwork : state.work = 0) :
    state.service.responses.length = state.service.handlers.length := by
  have hcount : state.service.handlers.countP waits = 0 := by
    unfold State.work at hwork
    omega
  rw [hinv.answers, List.countP_eq_length]
  intro handler hmem
  have hreturned := List.countP_eq_zero.mp hcount handler hmem
  cases handler with
  | locking request => exact absurd rfl hreturned
  | sending request response held => exact absurd rfl hreturned
  | notifying => rfl
  | returned => rfl

/-- Between two cycles the exchange ends, after no more than 14 steps for each thing
that waits, and it ends with every request that arrived answered. -/
theorem rest_of_run (hclient : client ≠ 0) {final : State} {actions : List Action}
    (hreach : (system client).Reachable state)
    (hquiet : ∀ action ∈ actions, action.isQuiet = true)
    (hrun : (system client).run state actions = some final) :
    actions.length ≤ 14 * state.work ∧
      ((∀ action, action.isQuiet = true → step client final action = none) →
        final.service.notify.holdsMutex = false →
          final.work = 0 ∧ final.service.responses.length = final.service.handlers.length) := by
  have hinv := invariant_of_reachable hreach
  constructor
  · have hcount := TransitionSystem.run_countP_le Invariant State.stepsLeft (fun _ => true)
      (fun before action after hbefore hcondition hstep =>
        ⟨hbefore.step (moves_of_step hstep),
          stepsLeft_step hclient hbefore hcondition (moves_of_step hstep)⟩)
      hinv (TransitionSystem.stepsMeet_of_forall_mem hquiet state) hrun
    rw [List.countP_true] at hcount
    have hwork := stepsLeft_le_work hinv
    omega
  · intro hstuck hfree
    have hwork := work_eq_zero_of_stuck hstuck hfree
    exact ⟨hwork, answered_of_work_eq_zero (invariant_of_reachable (hreach.run hrun)) hwork⟩

/-- The event of the fifth cycle makes the client get the field. -/
def fifthCycle : List Action :=
  [.onMessage 4, .deliver 0, .handler 0, .handler 0] ++ List.replicate 5 (.onMessage 0)

def afterFifthCycle : State :=
  ((system 1).run initial (List.replicate 20 .notify ++ fifthCycle)).getD initial

theorem rest_of_run_fifthCycle :
    fifthCycle.length ≤ 14 * (((system 1).run initial (List.replicate 20 .notify)).getD
        initial).work ∧
      afterFifthCycle.work = 0 ∧ afterFifthCycle.service.responses.length =
        afterFifthCycle.service.handlers.length := by
  have hrest := @rest_of_run 1 (((system 1).run initial (List.replicate 20 .notify)).getD
    initial) (by decide) afterFifthCycle fifthCycle ⟨List.replicate 20 .notify, rfl⟩ (by decide) rfl
  refine ⟨hrest.1, hrest.2 ?_ rfl⟩
  intro action hquiet
  cases action with
  | handler index => cases index <;> rfl
  | notify => cases hquiet
  | subscribed => cases hquiet
  | deliver index => rfl
  | loseRequest index => rfl
  | onMessage index => rfl
  | loseMessage index => rfl

/-! ## Once in nine cycles -/

/-- Between the lock and the event of an `on_set`. -/
def setting : HandlerPhase → Bool
  | .sending (.set _) _ _ | .notifying => true
  | .locking _ | .sending .get _ _ | .returned => false

/-- The notify thread finds no `on_set` that has yet to send its event. -/
def NotRewriting (state : State) : Action → Prop
  | .notify => state.service.notify = .settingData →
      ∀ handler ∈ state.service.handlers, setting handler = false
  | .deliver _ | .loseRequest _ | .handler _ | .onMessage _ | .loseMessage _ | .subscribed => True

instance (state : State) (action : Action) : Decidable (NotRewriting state action) :=
  match action with
  | .notify => inferInstanceAs (Decidable (_ → _))
  | .deliver _ | .loseRequest _ | .handler _ | .onMessage _ | .loseMessage _ | .subscribed =>
      isTrue trivial

def isSet : Request → Bool
  | .get => false
  | .set _ => true

/-- How often a message makes the client set the field. -/
def causes (response : Message) : ℕ := (onMessage response).countP isSet

theorem causes_response (hclient : client ≠ 0) (bytes : List UInt8) :
    causes ⟨client, bytes⟩ = 0 := by
  rw [causes, onMessage, if_neg hclient]
  rfl

theorem causes_event (bytes : List UInt8) :
    causes ⟨0, bytes⟩ = if bytes.length % 8 = 0 then 1 else 0 := by
  rw [causes, onMessage, if_pos rfl, List.countP_append]
  dsimp only
  split_ifs <;> rfl

theorem causes_event_le (bytes : List UInt8) : causes ⟨0, bytes⟩ ≤ 1 := by
  rw [causes_event]
  split_ifs
  · exact Nat.le_refl 1
  · exact Nat.zero_le 1

/-- The steps of a cycle of the notify thread before the phase. -/
def place : NotifyPhase → ℕ
  | .filling => 0
  | .locking => 1
  | .settingData => 2
  | .notifying => 3

/-- After so many steps of the notify thread and so many repeated events. -/
structure Balanced (notifies resends : ℕ) (state : State) : Prop where
  phase : notifies % 4 = place state.service.notify
  size : state.service.itsSize % 9 = (notifies / 4 + 1) % 9
  written : state.service.notify = .notifying → state.current = itsData state.service.itsSize
  setting : ∀ handler ∈ state.service.handlers, setting handler = true →
    state.current = clientSetData
  sets : state.sent.countP isSet + weight causes state.messages ≤
    (notifies / 4 + 1) / 9 + resends

namespace Balanced

variable {notifies resends : ℕ}

theorem initial : Balanced 0 0 initial where
  phase := rfl
  size := rfl
  written := NotifyPhase.noConfusion
  setting := List.forall_mem_nil _
  sets := Nat.le_refl 0

/-- A step that leaves the field alone and puts no further handler between the lock
and the event. -/
theorem frame (hbalanced : Balanced notifies resends state) (repeated : ℕ)
    (hnotify : next.service.notify = state.service.notify)
    (hsize : next.service.itsSize = state.service.itsSize)
    (hcurrent : next.current = state.current)
    (hhandlers : ∀ handler ∈ next.service.handlers, FieldServiceClient.setting handler = true →
      ∃ old ∈ state.service.handlers, FieldServiceClient.setting old = true)
    (hsets : next.sent.countP isSet + weight causes next.messages ≤
      state.sent.countP isSet + weight causes state.messages + repeated) :
    Balanced notifies (resends + repeated) next where
  phase := by rw [hnotify, hbalanced.phase]
  size := by rw [hsize, hbalanced.size]
  written := by
    rw [hnotify, hsize, hcurrent]
    exact hbalanced.written
  setting := by
    intro handler hmem hsetting
    obtain ⟨old, hold, holdSetting⟩ := hhandlers handler hmem hsetting
    rw [hcurrent]
    exact hbalanced.setting old hold holdSetting
  sets := by
    have hbefore := hbalanced.sets
    omega

/-- A step outside of the service. -/
theorem elsewhere (hbalanced : Balanced notifies resends state) (repeated : ℕ)
    (hservice : next.service = state.service)
    (hsets : next.sent.countP isSet + weight causes next.messages ≤
      state.sent.countP isSet + weight causes state.messages + repeated) :
    Balanced notifies (resends + repeated) next := by
  have hcurrent : next.current = state.current := by
    rw [State.current, hservice]
    rfl
  refine hbalanced.frame repeated (by rw [hservice]) (by rw [hservice]) hcurrent ?_ hsets
  rw [hservice]
  exact fun handler hmem hsetting => ⟨handler, hmem, hsetting⟩

theorem setting_of_set {handlers : List HandlerPhase} {index : ℕ} {old changed : HandlerPhase}
    (hget : handlers[index]? = some old)
    (hchanged : FieldServiceClient.setting changed = true → FieldServiceClient.setting old = true) :
    ∀ handler ∈ handlers.set index changed, FieldServiceClient.setting handler = true →
      ∃ old ∈ handlers, FieldServiceClient.setting old = true := by
  intro handler hmem hsetting
  rcases List.mem_or_eq_of_mem_set hmem with hold | rfl
  · exact ⟨handler, hold, hsetting⟩
  · exact ⟨old, List.mem_of_getElem? hget, hchanged hsetting⟩

theorem lock (hbalanced : Balanced notifies resends state) {index : ℕ} {request : Request}
    (hget : state.service.handlers[index]? = some (.locking request))
    (hfree : state.service.notify.holdsMutex = false) (hrequest : ClientRequest request) :
    Balanced notifies resends
      { state with service := attachStep state.service index request } := by
  rcases hrequest with rfl | rfl
  · exact hbalanced.frame 0 rfl rfl rfl (setting_of_set hget Bool.noConfusion) (Nat.le_refl _)
  · have hcurrent : State.current
        { state with service := attachStep state.service index (.set clientSetData) } =
          clientSetData := contents_eq List.getElem?_concat_length
    exact
      { phase := hbalanced.phase
        size := hbalanced.size
        written := fun (hphase : state.service.notify = .notifying) => by
          rw [hphase] at hfree
          cases hfree
        setting := fun _ _ _ => hcurrent
        sets := hbalanced.sets }

theorem prepare (hbalanced : Balanced notifies resends state)
    (hpayload : state.service.payload < state.service.payloads.length)
    (hphase : state.service.notify ≠ .notifying) (hmeets : NotRewriting state .notify) :
    Balanced (notifies + 1) resends { state with service := notifyStep state.service } := by
  obtain ⟨hplace, hsize, -, hsetting, hsets⟩ := hbalanced
  have hsame (hle : notifies % 4 ≤ 2) : (notifies + 1) / 4 = notifies / 4 := by omega
  unfold FieldService.notifyStep
  cases hcases : state.service.notify with
  | filling =>
      rw [hcases] at hplace
      rw [← hsame (by rw [hplace]; exact Nat.zero_le 2)] at hsize hsets
      refine ⟨?_, ?_, NotifyPhase.noConfusion, hsetting, hsets⟩
      · change (notifies + 1) % 4 = 1
        rw [Nat.add_mod, hplace]
        rfl
      · dsimp only
        split_ifs with hfull
        · rw [hfull] at hsize
          exact hsize
        · exact hsize
  | locking =>
      rw [hcases] at hplace
      rw [← hsame (by rw [hplace]; decide)] at hsize hsets
      refine ⟨?_, hsize, NotifyPhase.noConfusion, hsetting, hsets⟩
      change (notifies + 1) % 4 = 2
      rw [Nat.add_mod, hplace]
      rfl
  | settingData =>
      rw [hcases] at hplace
      rw [← hsame (by rw [hplace]; decide)] at hsize hsets
      refine ⟨?_, hsize, ?_, ?_, hsets⟩
      · change (notifies + 1) % 4 = 3
        rw [Nat.add_mod, hplace]
        rfl
      · exact fun _ => contents_eq
          (ListUpdate.getElem?_set_self (List.getElem?_eq_getElem hpayload) _)
      · intro handler hmem htrue
        rw [hmeets hcases handler hmem] at htrue
        cases htrue
  | notifying => exact absurd hcases hphase

/-- The data of the eighth cycle of nine make the client set the field. -/
theorem cycled (hbalanced : Balanced notifies resends state) (hsized : Sized state.service)
    (hphase : state.service.notify = .notifying) :
    Balanced (notifies + 1) resends state.cycled := by
  obtain ⟨hplace, hsize, hwritten, hsetting, hsets⟩ := hbalanced
  have hupper := hsized.filled (by rw [hphase]; exact NotifyPhase.noConfusion)
  have hlower := hsized.lower
  rw [hphase] at hplace
  have hcycles : (notifies + 1) / 4 = notifies / 4 + 1 := by
    dsimp only [place] at hplace
    omega
  have hcauses : causes ⟨0, state.current⟩ = if state.service.itsSize % 8 = 0 then 1 else 0 := by
    rw [causes_event, hwritten hphase, length_itsData]
  have hnext : notifyStep state.service =
      { state.service with
        events := state.service.events ++ [state.current]
        itsSize := state.service.itsSize + 1
        notify := .filling } := by
    rw [notifyStep, hphase]
    rfl
  unfold State.cycled
  rw [hnext]
  refine ⟨?_, ?_, NotifyPhase.noConfusion, hsetting, ?_⟩
  · dsimp only [place] at hplace ⊢
    omega
  · dsimp only
    omega
  · dsimp only
    rw [weight_concat, hcauses, hcycles]
    split_ifs <;> omega

theorem handler (hclient : client ≠ 0) (hinv : Invariant state)
    (hbalanced : Balanced notifies resends state) {index : ℕ}
    (hmoves : Moves client state (.handler index) next) : Balanced notifies resends next := by
  cases hmoves with
  | lock hget hfree =>
      exact hbalanced.lock hget hfree (hinv.clientRequest_of_locking hget)
  | @send _ request response held hget =>
      refine hbalanced.frame 0 rfl rfl rfl (setting_of_set hget ?_) ?_
      · intro hsetting
        cases request with
        | get => cases hsetting
        | set bytes => rfl
      · dsimp only [State.answered]
        rw [weight_concat, causes_response hclient]
        exact Nat.le_refl _
  | event hget =>
      refine hbalanced.frame 0 rfl rfl rfl (setting_of_set hget Bool.noConfusion) ?_
      have hcurrent := hbalanced.setting _ (List.mem_of_getElem? hget) rfl
      dsimp only [State.notified]
      rw [weight_concat, hcurrent]
      exact Nat.le_refl _

theorem step (hclient : client ≠ 0) {action : Action} (hinv : Invariant state)
    (hbalanced : Balanced notifies resends state) (hmeets : NotRewriting state action)
    (hmoves : Moves client state action next) :
    Balanced (notifies + [action].count .notify) (resends + [action].count .subscribed)
      next := by
  cases action with
  | handler index => exact hbalanced.handler hclient hinv hmoves
  | notify =>
      cases hmoves with
      | prepare hphase => exact hbalanced.prepare hinv.payload_lt hphase hmeets
      | cycle hphase => exact hbalanced.cycled hinv.sized hphase
  | deliver index =>
      cases hmoves with
      | @deliver _ request hget =>
          refine hbalanced.frame 0 rfl rfl rfl ?_ (Nat.le_refl _)
          intro handler hmem hsetting
          rcases List.mem_append.mp hmem with hold | hnew
          · exact ⟨handler, hold, hsetting⟩
          · rw [List.mem_singleton.mp hnew] at hsetting
            cases hsetting
  | loseRequest index =>
      cases hmoves with
      | loseRequest hget =>
          exact hbalanced.elsewhere 0 rfl (Nat.le_refl _)
  | onMessage index =>
      cases hmoves with
      | @onMessage _ response hget =>
          refine hbalanced.elsewhere 0 rfl ?_
          have herase := weight_eraseIdx causes hget
          dsimp only [State.reacted]
          rw [List.countP_append]
          unfold causes at herase ⊢
          omega
  | loseMessage index =>
      cases hmoves with
      | loseMessage hget =>
          refine hbalanced.elsewhere 0 rfl ?_
          have herase := weight_eraseIdx causes hget
          dsimp only
          omega
  | subscribed =>
      cases hmoves with
      | @subscribed bytes hlast =>
          refine hbalanced.elsewhere 1 rfl ?_
          have hle := causes_event_le bytes
          dsimp only
          rw [weight_concat]
          omega

theorem run (hclient : client ≠ 0) {final : State} {actions : List Action}
    (hinv : Invariant state) (hbalanced : Balanced notifies resends state)
    (hmeets : (system client).StepsMeet NotRewriting state actions)
    (hrun : (system client).run state actions = some final) :
    Balanced (notifies + actions.count .notify) (resends + actions.count .subscribed)
      final := by
  induction actions generalizing state notifies resends with
  | nil =>
      cases hrun
      exact hbalanced
  | cons action rest ih =>
      obtain ⟨next, hstep, hrest⟩ := TransitionSystem.run_cons_eq_some.mp hrun
      have hmoves := moves_of_step hstep
      have hnext := ih (hinv.step hmoves) (hbalanced.step hclient hinv hmeets.1 hmoves)
        (hmeets.2 next hstep) hrest
      have hsplit (counted : Action) :
          ([action] ++ rest).count counted = [action].count counted + rest.count counted :=
        List.count_append
      rw [← List.singleton_append, hsplit, hsplit, ← Nat.add_assoc, ← Nat.add_assoc]
      exact hnext

end Balanced

/-- As long as no cycle rewrites the payload of an `on_set` before its event, the
client sets the field no more than once in nine cycles, and once more for each event
that a new subscription repeats. -/
theorem sets_le_of_run (hclient : client ≠ 0) {final : State} {actions : List Action}
    (hmeets : (system client).StepsMeet NotRewriting initial actions)
    (hrun : (system client).run initial actions = some final) :
    final.sent.countP isSet ≤
      (actions.count .notify / 4 + 1) / 9 + actions.count .subscribed := by
  have hfinal := Balanced.initial.run hclient initial_invariant hmeets hrun
  have hsets := hfinal.sets
  rw [Nat.zero_add, Nat.zero_add] at hsets
  omega

theorem sets_le_of_run_eighthCycle :
    afterEighthCycle.sent = [.set clientSetData] ∧
      afterEighthCycle.sent.countP isSet ≤
        (eighthCycle.count .notify / 4 + 1) / 9 + eighthCycle.count .subscribed :=
  ⟨by decide, @sets_le_of_run 1 (by decide) afterEighthCycle eighthCycle (by decide) rfl⟩

end CppProj.FieldServiceClient
