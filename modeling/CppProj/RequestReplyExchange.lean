import CppProj.RequestReplyClientTransitions
import CppProj.RequestReplyServerReplies

/-!
# One client and one server

`ClientApp` and `ServerApp` joined by the two topics.  A written message stays
in flight until it is taken, in any order, and a reply in flight may be
duplicated.  Nothing is lost, no write fails, `stop` is not called from
outside, and the server never loses a match with the client that it has made;
the client writes its requests once that match is made.  Every other step of
the two programs is free.
-/

namespace CppProj.RequestReply.Exchange

/-- What a run of the exchange leaves fixed.  The request writer of the client
and the reply writer of the server give the samples their identities. -/
structure Parameters where
  x : Int16
  y : Int16
  clientId : String
  requestWriter : Guid
  replyWriter : Guid

/-- `sent` counts the requests that the client has written. -/
structure State where
  server : ServerApp.State
  client : ClientApp.State
  requests : List Sample
  replies : List ReplySample
  sent : ℕ

inductive Action where
  | server (action : ServerApp.Action)
  | takeRequest (index position : ℕ)
  | writeReply
  | client (action : ClientApp.Action)
  | takeReply (index position : ℕ)
  | writeRequest
  | duplicateReply (position : ℕ)
  | filterReply (position : ℕ)

variable (parameters : Parameters)

def initial : State where
  server := ServerApp.initial
  client := ClientApp.initial (parameters.x, parameters.y) parameters.clientId
  requests := []
  replies := []
  sent := 0

def State.clientMatched (state : State) : Bool :=
  state.server.clientMatchedStatus.isMatched parameters.requestWriter.guidPrefix

/-- The steps of the server that neither use the topics nor call `stop`. -/
def isServerLocal : ServerApp.Action → Bool
  | .take _ (some _) | .write _ | .stopStore | .stopNotify => false
  | _ => true

def isClientLocal : ClientApp.Action → Bool
  | .take _ (some _) | .write _ _ | .stopStore | .stopNotify => false
  | _ => true

/-- A local step of the server that keeps the match with the client. -/
def serverStep (state : State) (action : ServerApp.Action) : Option State :=
  if isServerLocal action then
    match ServerApp.step state.server action with
    | none => none
    | some server =>
        let next := { state with server := server }
        if state.clientMatched parameters && !next.clientMatched parameters then none
        else some next
  else none

def takeRequestStep (state : State) (index position : ℕ) : Option State :=
  match state.requests[position]? with
  | none => none
  | some sample =>
      (ServerApp.step state.server (.take index (some sample))).map fun server =>
        { state with server := server, requests := state.requests.eraseIdx position }

def State.reply (state : State) (request : ServerApp.Request)
    (data : CalculatorReplyType) : ReplySample where
  info := ⟨.alive, true, parameters.replyWriter,
    ⟨parameters.replyWriter, state.server.writes.length + 1⟩⟩
  relatedSampleIdentity := request.info.sampleIdentity
  data := data

/-- A write through the null `reply_writer_` publishes nothing. -/
def writeReplyStep (state : State) : Option State :=
  match state.server.replyThread with
  | .process request (.writeReply data) =>
      (ServerApp.step state.server (.write true)).map fun server =>
        { state with
          server := server
          replies :=
            if state.server.replyWriterIsNull then state.replies
            else state.replies ++ [state.reply parameters request data] }
  | _ => none

def clientStep (state : State) (action : ClientApp.Action) : Option State :=
  if isClientLocal action then
    (ClientApp.step state.client action).map fun client => { state with client := client }
  else none

/-- The content filter of the reply topic, `client_id = '…'`. -/
def passesFilter (reply : ReplySample) : Bool :=
  decide (reply.data.clientId = parameters.clientId)

def takeReplyStep (state : State) (index position : ℕ) : Option State :=
  match state.replies[position]? with
  | none => none
  | some reply =>
      if passesFilter parameters reply then
        (ClientApp.step state.client (.take index (some reply))).map fun client =>
          { state with client := client, replies := state.replies.eraseIdx position }
      else none

def State.nextIdentity (state : State) : SampleIdentity :=
  ⟨parameters.requestWriter, state.sent + 1⟩

def State.requestSample (state : State) (operation : CalculatorOperationType) :
    Sample where
  info := ⟨.alive, true, parameters.requestWriter, state.nextIdentity parameters⟩
  data := state.client.request operation

def writeRequestStep (state : State) : Option State :=
  match state.client.runThread with
  | .send operation _ =>
      if state.clientMatched parameters then
        (ClientApp.step state.client (.write true (state.nextIdentity parameters))).map
          fun client =>
            { state with
              client := client
              requests := state.requests ++ [state.requestSample parameters operation]
              sent := state.sent + 1 }
      else none
  | _ => none

def step (state : State) : Action → Option State
  | .server action => serverStep parameters state action
  | .takeRequest index position => takeRequestStep state index position
  | .writeReply => writeReplyStep parameters state
  | .client action => clientStep state action
  | .takeReply index position => takeReplyStep parameters state index position
  | .writeRequest => writeRequestStep parameters state
  | .duplicateReply position =>
      (state.replies[position]?).map fun reply =>
        { state with replies := state.replies ++ [reply] }
  | .filterReply position =>
      match state.replies[position]? with
      | none => none
      | some reply =>
          if passesFilter parameters reply then none
          else some { state with replies := state.replies.eraseIdx position }

def system : TransitionSystem State Action := ⟨initial parameters, step parameters⟩

/-- `send_requests` is behind the thread in `run`. -/
def requestsSent : ClientApp.RunPhase → Bool
  | .lockForReplies | .waitForReplies _ | .returned => true
  | _ => false

/-- The four requests are sent, no request or reply is in flight, and the
server waits with an empty queue. -/
structure Quiescent (state : State) : Prop where
  sent : requestsSent state.client.runThread = true
  noRequest : state.requests = []
  noReply : state.replies = []
  noTakenRequest : ∀ callback ∈ state.server.callbacks, ∀ info,
    callback.phase ≠ .taken info
  noTakenReply : ∀ callback ∈ state.client.callbacks, ∀ sample,
    callback ≠ .taken sample
  emptyQueue : state.server.requests = []
  serverWaits : ∃ phase, state.server.replyThread = .wait phase

end CppProj.RequestReply.Exchange
