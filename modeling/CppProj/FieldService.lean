import CppProj.ListUpdate
import CppProj.TransitionSystem
import Mathlib.Order.Lattice

/-!
# The field of `service_sample` in `get_set_eventpb`

`payload_` points to a payload object that responses share.  `on_get` attaches
it to a response, `on_set` replaces it by the payload of its request, and the
notify thread rewrites it in place; all three hold `payload_mutex_` for that.
The responses are serialised by `send`, after the mutex has been released.
Whether the service is offered only decides if the notify thread makes another
cycle, which is left open.
-/

namespace CppProj.FieldService

inductive Request where
  | get
  | set (bytes : List UInt8)
  deriving DecidableEq

/-- `response` is the payload object attached to the response, and `held` the value
of the field while the handler held `payload_mutex_`. -/
inductive HandlerPhase where
  | locking (request : Request)
  | sending (request : Request) (response : ℕ) (held : List UInt8)
  | notifying
  | returned
  deriving DecidableEq

/-- In `settingData` and `notifying` the notify thread holds `payload_mutex_`. -/
inductive NotifyPhase where
  | filling
  | locking
  | settingData
  | notifying
  deriving DecidableEq

def NotifyPhase.holdsMutex : NotifyPhase → Bool
  | .settingData | .notifying => true
  | .filling | .locking => false

/-- A response as it is sent. -/
structure Response where
  request : Request
  held : List UInt8
  bytes : List UInt8
  deriving DecidableEq

/-- `payloads` are the objects that `payload_` has pointed to; the payload of a
request joins them when `on_set` installs it.  `responses` and `events` list the
messages that have been sent. -/
structure State where
  payloads : List (List UInt8)
  payload : ℕ
  handlers : List HandlerPhase
  itsSize : ℕ
  notify : NotifyPhase
  responses : List Response
  events : List (List UInt8)
  deriving DecidableEq

inductive Action where
  | message (request : Request)
  | handler (index : ℕ)
  | notify
  deriving DecidableEq

/-- After `init`, with an empty payload. -/
def initial : State where
  payloads := [[]]
  payload := 0
  handlers := []
  itsSize := 1
  notify := .filling
  responses := []
  events := []

def itsDataSize : ℕ := 10

def itsData (itsSize : ℕ) : List UInt8 :=
  (List.range itsSize).map UInt8.ofNat

def State.contents (state : State) (object : ℕ) : List UInt8 :=
  state.payloads.getD object []

/-- `on_get` and `on_set` between their lock and their unlock. -/
def attachStep (state : State) (index : ℕ) : Request → State
  | .get =>
      { state with
        handlers := state.handlers.set index
          (.sending .get state.payload (state.contents state.payload)) }
  | .set bytes =>
      { state with
        payloads := state.payloads ++ [bytes]
        payload := state.payloads.length
        handlers := state.handlers.set index (.sending (.set bytes) state.payloads.length bytes) }

/-- What `on_set` does after the response and `on_get` does not. -/
def afterSend : Request → HandlerPhase
  | .get => .returned
  | .set _ => .notifying

def handlerStep (state : State) (index : ℕ) : Option State :=
  match state.handlers[index]? with
  | some (.locking request) =>
      if state.notify.holdsMutex then none else some (attachStep state index request)
  | some (.sending request response held) =>
      some { state with
        handlers := state.handlers.set index (afterSend request)
        responses := state.responses ++ [⟨request, held, state.contents response⟩] }
  | some .notifying =>
      some { state with
        handlers := state.handlers.set index .returned
        events := state.events ++ [state.contents state.payload] }
  | some .returned | none => none

def notifyStep (state : State) : State :=
  match state.notify with
  | .filling =>
      { state with
        itsSize := if state.itsSize = itsDataSize then 1 else state.itsSize
        notify := .locking }
  | .locking => { state with notify := .settingData }
  | .settingData =>
      { state with
        payloads := state.payloads.set state.payload (itsData state.itsSize)
        notify := .notifying }
  | .notifying =>
      { state with
        events := state.events ++ [state.contents state.payload]
        itsSize := state.itsSize + 1
        notify := .filling }

def step (state : State) : Action → Option State
  | .message request => some { state with handlers := state.handlers ++ [.locking request] }
  | .handler index => handlerStep state index
  | .notify => some (notifyStep state)

def system : TransitionSystem State Action where
  initial := initial
  step := step

/-! ## What the responses carry -/

/-- The value that the response to a request is to carry. -/
def Request.owed (held : List UInt8) : Request → List UInt8
  | .get => held
  | .set bytes => bytes

def RightAnswers (state : State) : Prop :=
  ∀ response ∈ state.responses, response.bytes = response.request.owed response.held

/-- The response that waits to be sent keeps its bytes when the field gets the
data. -/
def KeepsBytes (payload : ℕ) (data : List UInt8) : HandlerPhase → Prop
  | .sending _ response held => response = payload → held = data
  | .locking _ | .notifying | .returned => True

instance (payload : ℕ) (data : List UInt8) (handler : HandlerPhase) :
    Decidable (KeepsBytes payload data handler) :=
  match handler with
  | .sending _ _ _ => inferInstanceAs (Decidable (_ → _))
  | .locking _ | .notifying | .returned => isTrue trivial

/-- `set_data` finds no response in flight that shares the payload object, but such
as carry the same bytes anyway. -/
def NotShared (state : State) : Action → Prop
  | .notify => state.notify = .settingData →
      ∀ handler ∈ state.handlers, KeepsBytes state.payload (itsData state.itsSize) handler
  | .message _ | .handler _ => True

instance (state : State) (action : Action) : Decidable (NotShared state action) :=
  match action with
  | .notify => inferInstanceAs (Decidable (_ → _))
  | .message _ | .handler _ => isTrue trivial

/-- The attached payload holds what the field held, which for `on_set` is the
request. -/
def Attached (payloads : List (List UInt8)) : HandlerPhase → Prop
  | .sending request response held => payloads[response]? = some held ∧ request.owed held = held
  | .locking _ | .notifying | .returned => True

structure FieldInvariant (state : State) : Prop where
  payload : state.payload < state.payloads.length
  attached : ∀ handler ∈ state.handlers, Attached state.payloads handler
  answers : RightAnswers state

theorem initial_fieldInvariant : FieldInvariant initial := by
  constructor <;> simp [initial, RightAnswers]

theorem Attached.append {payloads : List (List UInt8)} {handler : HandlerPhase}
    (hattached : Attached payloads handler) (more : List (List UInt8)) :
    Attached (payloads ++ more) handler := by
  cases handler with
  | sending request response held =>
      exact ⟨ListUpdate.getElem?_append_of_eq_some hattached.1 more, hattached.2⟩
  | locking request => trivial
  | notifying => trivial
  | returned => trivial

theorem Attached.set {payloads : List (List UInt8)} {handler : HandlerPhase}
    (hattached : Attached payloads handler) {payload : ℕ} {data : List UInt8}
    (hkeeps : KeepsBytes payload data handler) :
    Attached (payloads.set payload data) handler := by
  cases handler with
  | sending request response held =>
      refine ⟨?_, hattached.2⟩
      by_cases heq : response = payload
      · subst heq
        rw [hkeeps rfl]
        exact ListUpdate.getElem?_set_self hattached.1 data
      · rw [ListUpdate.getElem?_set_of_ne (Ne.symm heq)]
        exact hattached.1
  | locking request => trivial
  | notifying => trivial
  | returned => trivial

theorem contents_eq {state : State} {object : ℕ} {bytes : List UInt8}
    (hget : state.payloads[object]? = some bytes) : state.contents object = bytes := by
  simp [State.contents, List.getD_eq_getElem?_getD, hget]

namespace FieldInvariant

variable {state next : State}

theorem attach (hinv : FieldInvariant state) (index : ℕ) (request : Request) :
    FieldInvariant (attachStep state index request) := by
  cases request with
  | get =>
      constructor
      · exact hinv.payload
      · intro handler hmem
        rcases List.mem_or_eq_of_mem_set hmem with hold | rfl
        · exact hinv.attached handler hold
        · have hcontents := contents_eq (List.getElem?_eq_getElem hinv.payload)
          rw [hcontents]
          exact ⟨List.getElem?_eq_getElem hinv.payload, rfl⟩
      · exact hinv.answers
  | set bytes =>
      constructor
      · simp [attachStep]
      · intro handler hmem
        rcases List.mem_or_eq_of_mem_set hmem with hold | rfl
        · exact (hinv.attached handler hold).append [bytes]
        · exact ⟨List.getElem?_concat_length, rfl⟩
      · exact hinv.answers

theorem moveHandler (hinv : FieldInvariant state) (index : ℕ) {after : HandlerPhase}
    (hafter : Attached state.payloads after) {responses : List Response}
    (hanswers : ∀ response ∈ responses, response.bytes = response.request.owed response.held)
    (events : List (List UInt8)) :
    FieldInvariant { state with
      handlers := state.handlers.set index after
      responses := responses
      events := events } := by
  constructor
  · exact hinv.payload
  · intro handler hmem
    rcases List.mem_or_eq_of_mem_set hmem with hold | rfl
    · exact hinv.attached handler hold
    · exact hafter
  · exact hanswers

theorem handler (hinv : FieldInvariant state) {index : ℕ}
    (hstep : handlerStep state index = some next) : FieldInvariant next := by
  unfold handlerStep at hstep
  cases hget : state.handlers[index]? with
  | none =>
      rw [hget] at hstep
      cases hstep
  | some phase =>
      have hmem := List.mem_of_getElem? hget
      rw [hget] at hstep
      cases phase with
      | locking request =>
          simp only [Option.ite_none_left_eq_some] at hstep
          obtain ⟨_, ⟨⟩⟩ := hstep
          exact hinv.attach index request
      | sending request response held =>
          cases hstep
          obtain ⟨hbytes, howed⟩ := hinv.attached _ hmem
          apply hinv.moveHandler
          · cases request <;> trivial
          · intro sent hsent
            rcases List.mem_append.mp hsent with hold | hnew
            · exact hinv.answers sent hold
            · rw [List.mem_singleton] at hnew
              subst hnew
              exact (contents_eq hbytes).trans howed.symm
      | notifying =>
          cases hstep
          have hreturned : Attached state.payloads .returned := trivial
          exact hinv.moveHandler index hreturned hinv.answers _
      | returned => cases hstep

theorem notify (hinv : FieldInvariant state) (hshared : NotShared state .notify) :
    FieldInvariant (notifyStep state) := by
  unfold notifyStep
  cases hphase : state.notify with
  | filling => exact ⟨hinv.payload, hinv.attached, hinv.answers⟩
  | locking => exact ⟨hinv.payload, hinv.attached, hinv.answers⟩
  | notifying => exact ⟨hinv.payload, hinv.attached, hinv.answers⟩
  | settingData =>
      constructor
      · simpa using hinv.payload
      · intro handler hmem
        exact (hinv.attached handler hmem).set (hshared hphase handler hmem)
      · exact hinv.answers

theorem step (hinv : FieldInvariant state) {action : Action} (hshared : NotShared state action)
    (hstep : step state action = some next) : FieldInvariant next := by
  cases action with
  | message request =>
      cases hstep
      constructor
      · exact hinv.payload
      · intro handler hmem
        rcases List.mem_append.mp hmem with hold | hnew
        · exact hinv.attached handler hold
        · rw [List.mem_singleton] at hnew
          subst hnew
          trivial
      · exact hinv.answers
  | handler index => exact hinv.handler hstep
  | notify =>
      cases hstep
      exact hinv.notify hshared

end FieldInvariant

theorem fieldInvariant_of_reachableMeeting {state : State}
    (hreach : system.ReachableMeeting NotShared state) : FieldInvariant state :=
  hreach.invariant FieldInvariant initial_fieldInvariant
    fun _ _ _ hinv hshared hstep => hinv.step hshared hstep

/-- A response whose payload object has been rewritten may be sent at once. -/
theorem not_rightAnswers_of_shared {state : State}
    (hreach : system.ReachableMeeting NotShared state) (hshared : ¬ NotShared state .notify) :
    ∃ actions final, system.run state actions = some final ∧ ¬ RightAnswers final := by
  have hinv := fieldInvariant_of_reachableMeeting hreach
  simp only [NotShared, Classical.not_imp, not_forall] at hshared
  obtain ⟨hphase, handler, hmem, hkeeps⟩ := hshared
  obtain ⟨index, hget⟩ := List.mem_iff_getElem?.mp hmem
  cases handler with
  | sending request response held =>
      simp only [KeepsBytes, Classical.not_imp] at hkeeps
      obtain ⟨rfl, hdata⟩ := hkeeps
      have howed := (hinv.attached _ hmem).2
      have hwritten : State.contents (notifyStep state) state.payload = itsData state.itsSize := by
        apply contents_eq
        rw [notifyStep, hphase]
        exact ListUpdate.getElem?_set_self (List.getElem?_eq_getElem hinv.payload) _
      have hsame : (notifyStep state).handlers[index]? =
          some (.sending request state.payload held) := by
        rw [notifyStep, hphase]
        exact hget
      refine ⟨[.notify, .handler index], _, TransitionSystem.run_cons_eq_some.mpr
        ⟨notifyStep state, rfl, TransitionSystem.run_cons_eq_some.mpr
          ⟨_, by simp only [system, step, handlerStep, hsame]; rfl, rfl⟩⟩, ?_⟩
      intro hright
      have hresponse := hright ⟨request, held, State.contents (notifyStep state) state.payload⟩
        (by simp)
      rw [hwritten, howed] at hresponse
      exact hdata hresponse.symm
  | locking request => exact (hkeeps trivial).elim
  | notifying => exact (hkeeps trivial).elim
  | returned => exact (hkeeps trivial).elim

/-- As long as `set_data` never writes to the payload of a response in flight, all
responses are right. -/
theorem rightAnswers {state : State} (hreach : system.ReachableMeeting NotShared state) :
    RightAnswers state :=
  (fieldInvariant_of_reachableMeeting hreach).answers

/-- The response to a SET is sent before the next cycle, and that to a GET
carries the data of the cycle. -/
def answeredInTime : List Action :=
  [.message (.set [7, 7]), .handler 0, .handler 0, .notify, .notify, .notify, .message .get,
    .notify, .handler 1, .handler 1]

theorem rightAnswers_answeredInTime :
    ∃ final, system.run initial answeredInTime = some final ∧
      final.responses = [⟨.set [7, 7], [7, 7], [7, 7]⟩, ⟨.get, [0], [0]⟩] ∧ RightAnswers final :=
  ⟨_, rfl, rfl, rightAnswers ⟨answeredInTime, rfl,
    (by decide : system.StepsMeet NotShared initial answeredInTime)⟩⟩

/-- The notify thread rewrites the payload of a SET between the unlock and the
send. -/
theorem set_answered_with_data :
    ∃ final, system.run initial
        [.message (.set [7, 7]), .handler 0, .notify, .notify, .notify, .handler 0] = some final ∧
      final.responses = [⟨.set [7, 7], [7, 7], [0]⟩] ∧ ¬ RightAnswers final := by
  refine ⟨_, rfl, rfl, ?_⟩
  intro hright
  exact absurd (hright ⟨.set [7, 7], [7, 7], [0]⟩ (by decide)) (by decide)

end CppProj.FieldService
