import CppProj.TransitionSystem
import CppProj.ConditionVariable
import CppProj.RequestReplyCalculator
import CppProj.RequestReplyMatchedStatus

/-!
# The calculator server

`ServerApp` of `ServerApp.cpp` as a transition system.  Its threads are the
constructor, the reply thread, the thread in `run`, the Fast DDS listener
callbacks and the callers of `stop`.  A callback whose whole body runs under
`mtx_` is one step; `on_data_available`, which takes samples without the
mutex, moves through its loop step by step, and so do `reply_routine` and
`run`.

Fast DDS is the environment.  It chooses which sample a take returns and what
the request object holds after it, whether a write succeeds, and when each
callback arrives; a callback of an endpoint comes only once the endpoint
exists.  The lists `accepted`, `writes` and `dropped` record the history of
requests, and a request's `ticket` is its position in `accepted`.
-/

namespace CppProj.RequestReply

structure Guid where
  guidPrefix : GuidPrefix
  entityId : BitVec 32
  deriving DecidableEq

structure SampleIdentity where
  writerGuid : Guid
  sequenceNumber : ℤ
  deriving DecidableEq

inductive InstanceStateKind where
  | alive
  | notAliveDisposed
  | notAliveNoWriters
  deriving DecidableEq

structure SampleInfo where
  instanceState : InstanceStateKind
  validData : Bool
  publicationHandle : Guid
  sampleIdentity : SampleIdentity
  deriving DecidableEq

/-- The test `(info.instance_state == ALIVE_INSTANCE_STATE) && info.valid_data`. -/
def SampleInfo.carriesData (info : SampleInfo) : Bool :=
  decide (info.instanceState = .alive) && info.validData

/-- What `take_next_sample` delivers: the info, and the content of the request
object when it returns. -/
structure Sample where
  info : SampleInfo
  data : CalculatorRequestType
  deriving DecidableEq

def Sample.clientGuidPrefix (sample : Sample) : GuidPrefix :=
  sample.info.publicationHandle.guidPrefix

inductive EntityKind where
  | server
  | client
  | undefined
  deriving DecidableEq

def EntityKind.ofByte (byte : UInt8) : EntityKind :=
  if byte = 0 then .server else if byte = 1 then .client else .undefined

inductive ParticipantDiscoveryStatus where
  | discoveredParticipant
  | changedQosParticipant
  | removedParticipant
  | droppedParticipant
  | ignoredParticipant
  deriving DecidableEq

namespace ServerApp

/-- `ServerApp::Request`.  The shared pointer `request` points to the object
of the `on_data_available` call with this number. -/
structure Request where
  info : SampleInfo
  request : ℕ
  ticket : ℕ
  deriving DecidableEq

def Request.clientGuidPrefix (request : Request) : GuidPrefix :=
  request.info.publicationHandle.guidPrefix

/-- How far the constructor is.  The writer exists in Fast DDS before
`create_datawriter` returns and `reply_writer_` is assigned. -/
inductive ConstructorPhase where
  | replyThreadSpawned
  | participantCreated
  | requestReaderCreated
  | replyWriterCreated
  | replyWriterAssigned
  deriving DecidableEq

/-- The position of one `on_data_available` call in its loop. -/
inductive CallbackPhase where
  | testStop
  | takeNext
  | taken (info : SampleInfo)
  | returned
  deriving DecidableEq

/-- One `on_data_available` call with the object its `request` points to. -/
structure DataAvailable where
  object : CalculatorRequestType
  phase : CallbackPhase
  deriving DecidableEq

/-- What `reply_routine` still has to do with the request it popped. -/
inductive ReplyStage where
  | lookUpClient
  | calculateResult
  | prepareReply (result : Int32)
  | writeReply (reply : CalculatorReplyType)
  deriving DecidableEq

inductive ReplyPhase where
  | testLoop
  | lock
  | wait (phase : WaitPhase)
  | testStop
  | process (request : Request) (stage : ReplyStage)
  | unlock
  | returned
  deriving DecidableEq

inductive RunPhase where
  | notStarted
  | lock
  | wait (phase : WaitPhase)
  | returned
  deriving DecidableEq

/-- One call of `reply_writer_->write` with its outcome. -/
structure Write where
  ticket : ℕ
  relatedSampleIdentity : SampleIdentity
  reply : CalculatorReplyType
  ok : Bool
  deriving DecidableEq

structure State where
  constructorPhase : ConstructorPhase
  stop : Bool
  pendingNotifications : ℕ
  clientMatchedStatus : MatchedStatus
  requests : List Request
  callbacks : List DataAvailable
  replyThread : ReplyPhase
  runThread : RunPhase
  nullDereference : Bool
  accepted : List Sample
  writes : List Write
  dropped : List ℕ

def initial : State where
  constructorPhase := .replyThreadSpawned
  stop := false
  pendingNotifications := 0
  clientMatchedStatus := ∅
  requests := []
  callbacks := []
  replyThread := .testLoop
  runThread := .notStarted
  nullDereference := false
  accepted := []
  writes := []
  dropped := []

inductive Action where
  | construct
  | participantDiscovery (status : ParticipantDiscoveryStatus)
      (guidPrefix : GuidPrefix) (userData : List UInt8)
  | publicationMatched (guidPrefix : GuidPrefix) (currentCountChange : ℤ)
  | subscriptionMatched (guidPrefix : GuidPrefix) (currentCountChange : ℤ)
  | dataAvailable
  | callback (index : ℕ)
  | take (index : ℕ) (sample : Option Sample)
  | reply
  | write (ok : Bool)
  | run
  | stopStore
  | stopNotify

def ReplyPhase.holdsMutex : ReplyPhase → Bool
  | .wait phase => phase.holdsMutex
  | .testStop | .process _ _ | .unlock => true
  | .testLoop | .lock | .returned => false

def RunPhase.holdsMutex : RunPhase → Bool
  | .wait phase => phase.holdsMutex
  | .notStarted | .lock | .returned => false

def State.mutexFree (state : State) : Bool :=
  !state.replyThread.holdsMutex && !state.runThread.holdsMutex

def ReplyPhase.notify : ReplyPhase → ReplyPhase
  | .wait phase => .wait phase.notify
  | phase => phase

def RunPhase.notify : RunPhase → RunPhase
  | .wait phase => .wait phase.notify
  | phase => phase

def State.notifyAll (state : State) : State :=
  { state with
    replyThread := state.replyThread.notify
    runThread := state.runThread.notify }

def State.replyWriterIsNull (state : State) : Bool :=
  decide (state.constructorPhase ≠ .replyWriterAssigned)

def ConstructorPhase.next : ConstructorPhase → Option ConstructorPhase
  | .replyThreadSpawned => some .participantCreated
  | .participantCreated => some .requestReaderCreated
  | .requestReaderCreated => some .replyWriterCreated
  | .replyWriterCreated => some .replyWriterAssigned
  | .replyWriterAssigned => none

/-- The listener is registered with the participant, and an endpoint's
callbacks need the endpoint. -/
def ConstructorPhase.hasParticipant : ConstructorPhase → Bool
  | .replyThreadSpawned => false
  | _ => true

def ConstructorPhase.hasRequestReader : ConstructorPhase → Bool
  | .replyThreadSpawned | .participantCreated => false
  | _ => true

def ConstructorPhase.hasReplyWriter : ConstructorPhase → Bool
  | .replyWriterCreated | .replyWriterAssigned => true
  | _ => false

/-- `should_be_ignored` of `on_participant_discovery`. -/
def shouldBeIgnored (userData : List UInt8) : Bool :=
  match userData with
  | [byte] => decide (EntityKind.ofByte byte ≠ .client)
  | _ => true

def onParticipantDiscovery (state : State) (status : ParticipantDiscoveryStatus)
    (guidPrefix : GuidPrefix) (userData : List UInt8) : State :=
  if shouldBeIgnored userData then state
  else if status = .removedParticipant ∨ status = .droppedParticipant then
    { state with
      clientMatchedStatus :=
        RemoteClientMatchedStatus.matchRequestWriter
          (RemoteClientMatchedStatus.matchReplyReader
            state.clientMatchedStatus guidPrefix false)
          guidPrefix false }
  else state

/-- The common body of `on_publication_matched` and `on_subscription_matched`;
`matchEndpoint` is the setter that the callback uses.  `clear_history` is
reached through `reply_writer_`. -/
def onEndpointMatched
    (matchEndpoint : MatchedStatus → GuidPrefix → Bool → MatchedStatus)
    (state : State) (guidPrefix : GuidPrefix) (currentCountChange : ℤ) : State :=
  if currentCountChange = 1 then
    { state with
      clientMatchedStatus := matchEndpoint state.clientMatchedStatus guidPrefix true }
  else if currentCountChange = -1 then
    let matched := matchEndpoint state.clientMatchedStatus guidPrefix false
    { state with
      clientMatchedStatus := matched
      nullDereference :=
        RemoteClientMatchedStatus.noClientMatched matched && state.replyWriterIsNull }
  else state

def onPublicationMatched : State → GuidPrefix → ℤ → State :=
  onEndpointMatched RemoteClientMatchedStatus.matchReplyReader

def onSubscriptionMatched : State → GuidPrefix → ℤ → State :=
  onEndpointMatched RemoteClientMatchedStatus.matchRequestWriter

/-- A call of `on_data_available` makes its request object and enters the
loop. -/
def onDataAvailable (state : State) : State :=
  { state with
    callbacks := state.callbacks ++ [⟨CalculatorRequestType.default, .testStop⟩] }

def State.setCallback (state : State) (index : ℕ) (callback : DataAvailable) : State :=
  { state with callbacks := state.callbacks.set index callback }

def State.push (state : State) (index : ℕ) (info : SampleInfo)
    (data : CalculatorRequestType) : State :=
  { state.notifyAll with
    requests := state.requests ++ [⟨info, index, state.accepted.length⟩]
    accepted := state.accepted ++ [⟨info, data⟩] }

/-- The steps of an `on_data_available` call other than the take. -/
def callbackStep (state : State) (index : ℕ) : Option State :=
  match state.callbacks[index]? with
  | none => none
  | some callback =>
      match callback.phase with
      | .testStop =>
          some (state.setCallback index
            { callback with phase := if state.stop then .returned else .takeNext })
      | .taken info =>
          if info.carriesData then
            if state.mutexFree then
              some ((state.push index info callback.object).setCallback index
                { callback with phase := .testStop })
            else none
          else some (state.setCallback index { callback with phase := .testStop })
      | .takeNext | .returned => none

/-- `reader->take_next_sample(request.get(), &info)`; without a sample it
does not return `RETCODE_OK`. -/
def takeStep (state : State) (index : ℕ) (sample : Option Sample) : Option State :=
  match state.callbacks[index]? with
  | none => none
  | some callback =>
      match callback.phase with
      | .takeNext =>
          match sample with
          | some sample => some (state.setCallback index ⟨sample.data, .taken sample.info⟩)
          | none => some (state.setCallback index { callback with phase := .returned })
      | .testStop | .taken _ | .returned => none

def State.object? (state : State) (request : Request) : Option CalculatorRequestType :=
  (state.callbacks[request.request]?).map DataAvailable.object

/-- One step of `reply_routine` on the popped request, up to the write. -/
def processStep (state : State) (request : Request) : ReplyStage → Option State
  | .lookUpClient =>
      if !RemoteClientMatchedStatus.isFullyUnmatched state.clientMatchedStatus
          request.clientGuidPrefix then
        some { state with
          replyThread := .unlock
          dropped := state.dropped ++ [request.ticket] }
      else if !state.clientMatchedStatus.isMatched request.clientGuidPrefix then
        some { state with
          replyThread := .unlock
          requests := state.requests ++ [request] }
      else some { state with replyThread := .process request .calculateResult }
  | .calculateResult =>
      match state.object? request with
      | none => none
      | some data =>
          match calculate data with
          | none =>
              some { state with
                replyThread := .unlock
                dropped := state.dropped ++ [request.ticket] }
          | some result =>
              some { state with replyThread := .process request (.prepareReply result) }
  | .prepareReply result =>
      match state.object? request with
      | none => none
      | some data =>
          some { state with
            replyThread := .process request (.writeReply ⟨data.clientId, result⟩) }
  | .writeReply _ => none

/-- The steps of `reply_routine` other than the write. -/
def replyStep (state : State) : Option State :=
  match state.replyThread with
  | .testLoop =>
      some { state with replyThread := if state.stop then .returned else .lock }
  | .lock | .wait .notified =>
      if state.mutexFree then some { state with replyThread := .wait .testing } else none
  | .wait .testing =>
      if 0 < state.requests.length ∨ state.stop then
        some { state with replyThread := .testStop }
      else some { state with replyThread := .wait .blocking }
  | .wait .blocking => some { state with replyThread := .wait .blocked }
  | .wait .blocked => none
  | .testStop =>
      if state.stop then some { state with replyThread := .unlock }
      else
        match state.requests with
        | [] => none
        | request :: rest =>
            some { state with
              requests := rest
              replyThread := .process request .lookUpClient }
  | .process request stage => processStep state request stage
  | .unlock => some { state with replyThread := .testLoop }
  | .returned => none

/-- `reply_writer_->write(&reply, write_params)` and what follows it. -/
def writeStep (state : State) (ok : Bool) : Option State :=
  match state.replyThread with
  | .process request (.writeReply reply) =>
      if state.replyWriterIsNull then some { state with nullDereference := true }
      else
        some { state with
          replyThread := .unlock
          requests := if ok then state.requests else state.requests ++ [request]
          writes := state.writes ++
            [⟨request.ticket, request.info.sampleIdentity, reply, ok⟩] }
  | _ => none

/-- `ServerApp::run`, called once the constructor has returned. -/
def runStep (state : State) : Option State :=
  match state.runThread with
  | .notStarted =>
      if state.replyWriterIsNull then none else some { state with runThread := .lock }
  | .lock | .wait .notified =>
      if state.mutexFree then some { state with runThread := .wait .testing } else none
  | .wait .testing =>
      some { state with runThread := if state.stop then .returned else .wait .blocking }
  | .wait .blocking => some { state with runThread := .wait .blocked }
  | .wait .blocked | .returned => none

/-- After a null dereference the program takes no further step. -/
def step (state : State) (action : Action) : Option State :=
  if state.nullDereference then none
  else
    match action with
    | .construct =>
        state.constructorPhase.next.map fun phase => { state with constructorPhase := phase }
    | .participantDiscovery status guidPrefix userData =>
        if state.constructorPhase.hasParticipant && state.mutexFree then
          some (onParticipantDiscovery state status guidPrefix userData)
        else none
    | .publicationMatched guidPrefix currentCountChange =>
        if state.constructorPhase.hasReplyWriter && state.mutexFree then
          some (onPublicationMatched state guidPrefix currentCountChange)
        else none
    | .subscriptionMatched guidPrefix currentCountChange =>
        if state.constructorPhase.hasRequestReader && state.mutexFree then
          some (onSubscriptionMatched state guidPrefix currentCountChange)
        else none
    | .dataAvailable =>
        if state.constructorPhase.hasRequestReader then some (onDataAvailable state) else none
    | .callback index => callbackStep state index
    | .take index sample => takeStep state index sample
    | .reply => replyStep state
    | .write ok => writeStep state ok
    | .run => runStep state
    | .stopStore =>
        if state.replyWriterIsNull then none
        else
          some { state with
            stop := true
            pendingNotifications := state.pendingNotifications + 1 }
    | .stopNotify =>
        if 0 < state.pendingNotifications then
          some { state.notifyAll with
            pendingNotifications := state.pendingNotifications - 1 }
        else none

def system : TransitionSystem State Action := ⟨initial, step⟩

/-! ## A run that the later modules evaluate -/

def additionSample (sequenceNumber : ℤ) (x y : Int16) : Sample where
  info := ⟨.alive, true, ⟨1, 1⟩, ⟨⟨1, 1⟩, sequenceNumber⟩⟩
  data := ⟨"client", .addition, x, y⟩

/-- Construction, the match of both endpoints of the client, and the start of
an `on_data_available` call. -/
def startUpActions : List Action :=
  List.replicate 4 .construct ++
    [.subscriptionMatched 1 1, .publicationMatched 1 1, .dataAvailable]

def receiveActions (sample : Sample) : List Action :=
  [.callback 0, .take 0 (some sample), .callback 0]

/-- One iteration of `reply_routine` that finds a request and writes. -/
def answerActions : List Action :=
  List.replicate 7 .reply ++ [.write true, .reply]

end ServerApp

end CppProj.RequestReply
