import CppProj.RequestReplyServerApp

/-!
# The calculator client

`ClientApp` of `ClientApp.cpp` as a transition system.  `run` waits for a
server, waits one more second, sends the four requests and waits until it is
stopped; the listener records the replies and calls `stop` itself once all four
have arrived.  The thread in `run` is the only one that keeps `mtx_` from one
step to the next, so a callback body that runs under the mutex is one step
which needs `run` outside of it.
-/

namespace CppProj.RequestReply

/-- A reply as `take_next_sample` delivers it to the client. -/
structure ReplySample where
  info : SampleInfo
  relatedSampleIdentity : SampleIdentity
  data : CalculatorReplyType
  deriving DecidableEq

namespace ClientApp

inductive CallbackPhase where
  | testStop
  | takeNext
  | taken (sample : ReplySample)
  | returned
  deriving DecidableEq

/-- The position of the thread in `run`, `send_requests` and
`wait_for_replies`; `graceWait` is the `wait_for` of one second, and `failed`
the exception thrown after a failed write. -/
inductive RunPhase where
  | lockForMatch
  | waitForMatch (phase : WaitPhase)
  | testBeforeGrace
  | lockForGrace
  | graceWait (phase : WaitPhase)
  | graceExpired
  | testBeforeSend
  | send (operation : CalculatorOperationType) (rest : List CalculatorOperationType)
  | lockForReplies
  | waitForReplies (phase : WaitPhase)
  | returned
  | failed
  deriving DecidableEq

abbrev RequestsStatus := AList (fun _ : SampleIdentity => Bool)

structure State where
  requestInput : Int16 × Int16
  clientId : String
  stop : Bool
  pendingNotifications : ℕ
  serverMatchedStatus : MatchedStatus
  requestsStatus : RequestsStatus
  callbacks : List CallbackPhase
  runThread : RunPhase

def initial (requestInput : Int16 × Int16) (clientId : String) : State where
  requestInput := requestInput
  clientId := clientId
  stop := false
  pendingNotifications := 0
  serverMatchedStatus := ∅
  requestsStatus := ∅
  callbacks := []
  runThread := .lockForMatch

inductive Action where
  | publicationMatched (guidPrefix : GuidPrefix) (currentCountChange : ℤ)
  | subscriptionMatched (guidPrefix : GuidPrefix) (currentCountChange : ℤ)
  | dataAvailable
  | callback (index : ℕ)
  | take (index : ℕ) (sample : Option ReplySample)
  | run
  | graceTimeout
  | write (ok : Bool) (sampleIdentity : SampleIdentity)
  | stopStore
  | stopNotify

def RunPhase.holdsMutex : RunPhase → Bool
  | .waitForMatch phase | .graceWait phase | .waitForReplies phase => phase.holdsMutex
  | _ => false

def State.mutexFree (state : State) : Bool :=
  !state.runThread.holdsMutex

def RunPhase.notify : RunPhase → RunPhase
  | .waitForMatch phase => .waitForMatch phase.notify
  | .graceWait phase => .graceWait phase.notify
  | .waitForReplies phase => .waitForReplies phase.notify
  | phase => phase

def State.notifyAll (state : State) : State :=
  { state with runThread := state.runThread.notify }

/-- The common body of the two matching callbacks; both notify whatever the
count change is. -/
def onEndpointMatched
    (matchEndpoint : MatchedStatus → GuidPrefix → Bool → MatchedStatus)
    (state : State) (guidPrefix : GuidPrefix) (currentCountChange : ℤ) : State :=
  let matched :=
    if currentCountChange = 1 then
      matchEndpoint state.serverMatchedStatus guidPrefix true
    else if currentCountChange = -1 then
      matchEndpoint state.serverMatchedStatus guidPrefix false
    else state.serverMatchedStatus
  { state.notifyAll with serverMatchedStatus := matched }

def onPublicationMatched : State → GuidPrefix → ℤ → State :=
  onEndpointMatched RemoteServerMatchedStatus.matchRequestReader

def onSubscriptionMatched : State → GuidPrefix → ℤ → State :=
  onEndpointMatched RemoteServerMatchedStatus.matchReplyWriter

/-- Four requests are registered and each has its reply. -/
def allResponsesReceived (requestsStatus : RequestsStatus) : Bool :=
  decide (requestsStatus.entries.length = 4) &&
    requestsStatus.entries.all fun status => status.2

/-- The part of `on_data_available` that runs under the mutex; `stop` is
called with the mutex held. -/
def handleReply (state : State) (index : ℕ) (sample : ReplySample) : State :=
  match state.requestsStatus.lookup sample.relatedSampleIdentity with
  | some false =>
      let requestsStatus := state.requestsStatus.insert sample.relatedSampleIdentity true
      if allResponsesReceived requestsStatus then
        { state.notifyAll with
          stop := true
          requestsStatus := requestsStatus
          callbacks := state.callbacks.set index .returned }
      else
        { state with
          requestsStatus := requestsStatus
          callbacks := state.callbacks.set index .testStop }
  | some true | none => { state with callbacks := state.callbacks.set index .testStop }

def callbackStep (state : State) (index : ℕ) : Option State :=
  match state.callbacks[index]? with
  | some .testStop =>
      some { state with
        callbacks := state.callbacks.set index
          (if state.stop then .returned else .takeNext) }
  | some (.taken sample) =>
      if sample.info.carriesData then
        if state.mutexFree then some (handleReply state index sample) else none
      else some { state with callbacks := state.callbacks.set index .testStop }
  | some .takeNext | some .returned | none => none

def takeStep (state : State) (index : ℕ) (sample : Option ReplySample) : Option State :=
  match state.callbacks[index]? with
  | some .takeNext =>
      some { state with
        callbacks := state.callbacks.set index
          (match sample with
            | some sample => .taken sample
            | none => .returned) }
  | some .testStop | some (.taken _) | some .returned | none => none

/-- The operations of `send_requests`, in order. -/
def firstOperation : CalculatorOperationType := .addition

def furtherOperations : List CalculatorOperationType :=
  [.subtraction, .multiplication, .division]

/-- The request that `send_requests` fills in for an operation. -/
def State.request (state : State) (operation : CalculatorOperationType) :
    CalculatorRequestType :=
  ⟨state.clientId, operation, state.requestInput.1, state.requestInput.2⟩

/-- The steps of `run` other than a write and the time-out of `wait_for`. -/
def runStep (state : State) : Option State :=
  match state.runThread with
  | .lockForMatch | .waitForMatch .notified =>
      some { state with runThread := .waitForMatch .testing }
  | .waitForMatch .testing =>
      some { state with
        runThread :=
          if RemoteServerMatchedStatus.isAnyServerMatched state.serverMatchedStatus ||
              state.stop then .testBeforeGrace
          else .waitForMatch .blocking }
  | .waitForMatch .blocking => some { state with runThread := .waitForMatch .blocked }
  | .testBeforeGrace =>
      some { state with
        runThread := if state.stop then .testBeforeSend else .lockForGrace }
  | .lockForGrace | .graceWait .notified =>
      some { state with runThread := .graceWait .testing }
  | .graceWait .testing =>
      some { state with
        runThread := if state.stop then .testBeforeSend else .graceWait .blocking }
  | .graceWait .blocking => some { state with runThread := .graceWait .blocked }
  | .graceExpired => some { state with runThread := .testBeforeSend }
  | .testBeforeSend =>
      some { state with
        runThread :=
          if state.stop then .returned else .send firstOperation furtherOperations }
  | .lockForReplies | .waitForReplies .notified =>
      some { state with runThread := .waitForReplies .testing }
  | .waitForReplies .testing =>
      some { state with
        runThread := if state.stop then .returned else .waitForReplies .blocking }
  | .waitForReplies .blocking =>
      some { state with runThread := .waitForReplies .blocked }
  | .waitForMatch .blocked | .graceWait .blocked | .waitForReplies .blocked
  | .send _ _ | .returned | .failed => none

def graceTimeoutStep (state : State) : Option State :=
  match state.runThread with
  | .graceWait .blocked => some { state with runThread := .graceExpired }
  | _ => none

/-- One `send_request`: the identity that the write reports is registered,
whether the write succeeds or not. -/
def writeStep (state : State) (ok : Bool) (sampleIdentity : SampleIdentity) :
    Option State :=
  match state.runThread with
  | .send _ rest =>
      some { state with
        requestsStatus := state.requestsStatus.insert sampleIdentity false
        runThread :=
          if ok then
            match rest with
            | [] => .lockForReplies
            | operation :: further => .send operation further
          else .failed }
  | _ => none

def step (state : State) : Action → Option State
  | .publicationMatched guidPrefix currentCountChange =>
      if state.mutexFree then
        some (onPublicationMatched state guidPrefix currentCountChange)
      else none
  | .subscriptionMatched guidPrefix currentCountChange =>
      if state.mutexFree then
        some (onSubscriptionMatched state guidPrefix currentCountChange)
      else none
  | .dataAvailable => some { state with callbacks := state.callbacks ++ [.testStop] }
  | .callback index => callbackStep state index
  | .take index sample => takeStep state index sample
  | .run => runStep state
  | .graceTimeout => graceTimeoutStep state
  | .write ok sampleIdentity => writeStep state ok sampleIdentity
  | .stopStore =>
      some { state with
        stop := true
        pendingNotifications := state.pendingNotifications + 1 }
  | .stopNotify =>
      if 0 < state.pendingNotifications then
        some { state.notifyAll with
          pendingNotifications := state.pendingNotifications - 1 }
      else none

def system (requestInput : Int16 × Int16) (clientId : String) :
    TransitionSystem State Action :=
  ⟨initial requestInput clientId, step⟩

end ClientApp

end CppProj.RequestReply
