import CppProj.RequestReplyServerReplies

/-!
# One pass of the server over its queue

While nothing arrives and the matched endpoints stay as they are, `reply_routine` takes each
waiting request once before it comes back to one that it has put off.  After `k` iterations
the queue holds the requests that it has not seen, and then those of the first `k` whose
client has one matched endpoint only.
-/

namespace CppProj.RequestReply.ServerApp

/-- The client of the request has exactly one matched endpoint. -/
def State.halfMatched (state : State) (request : Request) : Bool :=
  match state.clientMatchedStatus.lookup request.clientGuidPrefix with
  | some bits => bits.bit0 != bits.bit1
  | none => false

/-- The write that answers the request: its client is fully matched, and the calculation
succeeds. -/
def State.answer (state : State) (request : Request) : Option Write :=
  if state.clientMatchedStatus.isMatched request.clientGuidPrefix then
    (state.object? request).bind fun data =>
      (calculate data).map fun result =>
        ⟨request.ticket, request.info.sampleIdentity, ⟨data.clientId, result⟩, true⟩
  else none

/-- No arrival, no failing write. -/
def Action.isQuiet : Action → Bool
  | .take _ (some _) | .write false => false
  | _ => true

/-- A step during which nothing arrives, no endpoint is matched or unmatched, nobody stops
the server and no write fails. -/
def Quiet (state : State) (action : Action) : Prop :=
  action.isQuiet = true ∧
    ∀ next ∈ step state action, next.accepted = state.accepted ∧
      next.clientMatchedStatus.entries.Perm state.clientMatchedStatus.entries ∧
      next.stop = state.stop ∧ next.nullDereference = false

instance (state : State) (action : Action) : Decidable (Quiet state action) :=
  inferInstanceAs (Decidable (_ ∧ ∀ next ∈ step state action, _))

/-- The step ends an iteration of `reply_routine`. -/
def ended (state next : State) : ℕ :=
  if state.replyThread = .unlock ∧ next.replyThread = .testLoop then 1 else 0

/-- The iterations that a run completes. -/
def iterations (state : State) : List Action → ℕ
  | [] => 0
  | action :: rest =>
      match step state action with
      | none => 0
      | some next => ended state next + iterations next rest

/-! ## The queue and the writes after some iterations -/

def State.queueAfter (start : State) (count : ℕ) : List Request :=
  start.requests.drop count ++ (start.requests.take count).filter start.halfMatched

def State.writesAfter (start : State) (count : ℕ) : List Write :=
  start.writes ++ (start.requests.take count).filterMap start.answer

theorem queueAfter_succ {start : State} {count : ℕ} {request : Request}
    (hget : start.requests[count]? = some request) :
    start.queueAfter (count + 1) =
      start.requests.drop (count + 1) ++ (start.requests.take count).filter start.halfMatched ++
        if start.halfMatched request then [request] else [] := by
  rw [State.queueAfter, List.take_add_one, hget, List.filter_append, ← List.append_assoc]
  cases hhalf : start.halfMatched request with
  | true => simp [hhalf]
  | false => simp [hhalf]

theorem writesAfter_succ {start : State} {count : ℕ} {request : Request}
    (hget : start.requests[count]? = some request) :
    start.writesAfter (count + 1) =
      start.writesAfter count ++ (start.answer request).toList := by
  rw [State.writesAfter, List.take_add_one, hget, List.filterMap_append, ← List.append_assoc]
  cases hanswer : start.answer request with
  | none => simp [State.writesAfter, hanswer]
  | some write => simp [State.writesAfter, hanswer]

theorem halfMatched_of_gone {state : State} {request : Request}
    (hgone : RemoteClientMatchedStatus.Gone state.clientMatchedStatus
      request.clientGuidPrefix) :
    state.halfMatched request = false ∧ state.answer request = none := by
  unfold State.halfMatched State.answer MatchedStatus.isMatched
  cases hlookup : state.clientMatchedStatus.lookup request.clientGuidPrefix with
  | none => simp
  | some bits =>
      rw [hgone bits hlookup]
      exact ⟨rfl, rfl⟩

theorem halfMatched_of_not_matched {state : State} {request : Request}
    (hsome : RemoteClientMatchedStatus.isFullyUnmatched state.clientMatchedStatus
      request.clientGuidPrefix = true)
    (hhalf : state.clientMatchedStatus.isMatched request.clientGuidPrefix = false) :
    state.halfMatched request = true ∧ state.answer request = none := by
  refine ⟨?_, by rw [State.answer, hhalf]; rfl⟩
  unfold State.halfMatched
  unfold RemoteClientMatchedStatus.isFullyUnmatched at hsome
  unfold MatchedStatus.isMatched at hhalf
  cases hlookup : state.clientMatchedStatus.lookup request.clientGuidPrefix with
  | none => simp [hlookup] at hsome
  | some bits =>
      rw [hlookup] at hsome hhalf
      obtain ⟨bit0, bit1⟩ := bits
      cases bit0 with
      | true =>
          cases bit1 with
          | true => cases hhalf
          | false => rfl
      | false =>
          cases bit1 with
          | true => rfl
          | false => cases hsome

theorem halfMatched_of_matched {state : State} {request : Request}
    (hmatched : state.clientMatchedStatus.isMatched request.clientGuidPrefix = true) :
    state.halfMatched request = false := by
  rw [State.halfMatched, MatchedStatus.isMatched_eq_true_iff.mp hmatched]
  rfl

/-! ## The invariant of a pass -/

/-- What the reply thread knows about the request that it has taken. -/
def StageFits (start : State) (request : Request) : ReplyStage → Prop
  | .lookUpClient => True
  | .calculateResult =>
      start.clientMatchedStatus.isMatched request.clientGuidPrefix = true
  | .prepareReply result =>
      start.clientMatchedStatus.isMatched request.clientGuidPrefix = true ∧
        ∃ data, start.object? request = some data ∧ calculate data = some result
  | .writeReply reply =>
      start.clientMatchedStatus.isMatched request.clientGuidPrefix = true ∧
        start.answer request = some ⟨request.ticket, request.info.sampleIdentity, reply, true⟩

/-- The queue and the writes at each point of the iteration after the first `count`. -/
def PhaseFits (start : State) (count : ℕ) (requests : List Request) (writes : List Write) :
    ReplyPhase → Prop
  | .testLoop | .lock | .wait _ | .testStop =>
      requests = start.queueAfter count ∧ writes = start.writesAfter count
  | .process request stage =>
      count < start.requests.length →
        start.requests[count]? = some request ∧
          requests = start.requests.drop (count + 1) ++
            (start.requests.take count).filter start.halfMatched ∧
          writes = start.writesAfter count ∧ StageFits start request stage
  | .unlock =>
      count < start.requests.length →
        requests = start.queueAfter (count + 1) ∧ writes = start.writesAfter (count + 1)
  | .returned => True

structure Pass (start : State) (count : ℕ) (state : State) : Prop where
  running : state.stop = false
  matched : ∀ guidPrefix, state.clientMatchedStatus.lookup guidPrefix =
    start.clientMatchedStatus.lookup guidPrefix
  objects : ∀ request ∈ start.requests, ∃ data, start.object? request = some data ∧
    state.object? request = some data
  phase : count ≤ start.requests.length →
    PhaseFits start count state.requests state.writes state.replyThread

theorem Pass.start {start : State} (hstop : start.stop = false)
    (hthread : start.replyThread = .testLoop)
    (hobjects : ∀ request ∈ start.requests, (start.object? request).isSome = true) :
    Pass start 0 start := by
  refine ⟨hstop, fun _ => rfl, ?_, ?_⟩
  · intro request hmem
    obtain ⟨data, hdata⟩ := Option.isSome_iff_exists.mp (hobjects request hmem)
    exact ⟨data, hdata, hdata⟩
  · intro _
    rw [hthread]
    exact ⟨by simp [State.queueAfter], by simp [State.writesAfter]⟩

theorem PhaseFits.notify {start : State} {count : ℕ} {requests : List Request}
    {writes : List Write} {phase : ReplyPhase}
    (hfits : PhaseFits start count requests writes phase) :
    PhaseFits start count requests writes phase.notify := by
  cases phase with
  | wait phase => exact hfits
  | _ => exact hfits

theorem isMatched_congr {left right : MatchedStatus} {guidPrefix : GuidPrefix}
    (hlookup : left.lookup guidPrefix = right.lookup guidPrefix) :
    left.isMatched guidPrefix = right.isMatched guidPrefix := by
  unfold MatchedStatus.isMatched
  rw [hlookup]

theorem Pass.frame {start state next : State} {count : ℕ} (hpass : Pass start count state)
    (hended : ended state next = 0)
    (hmatched : next.clientMatchedStatus.entries.Perm state.clientMatchedStatus.entries)
    (hstop : next.stop = state.stop)
    (hobjects : ∀ request data, state.object? request = some data →
      next.object? request = some data)
    (hphase : PhaseFits start count state.requests state.writes state.replyThread →
      PhaseFits start count next.requests next.writes next.replyThread) :
    Pass start (count + ended state next) next := by
  rw [hended]
  refine ⟨hstop.trans hpass.running, ?_, ?_, fun hle => hphase (hpass.phase hle)⟩
  · intro guidPrefix
    rw [AList.perm_lookup hmatched]
    exact hpass.matched guidPrefix
  · intro request hmem
    obtain ⟨data, hstart, hdata⟩ := hpass.objects request hmem
    exact ⟨data, hstart, hobjects request data hdata⟩

/-! ## Steps of a pass -/

section Steps

variable {start state next : State} {count : ℕ} {action : Action} {request : Request}
  {stage : ReplyStage}

theorem ended_eq_zero (hthread : state.replyThread = .unlock → next.replyThread ≠ .testLoop) :
    ended state next = 0 :=
  if_neg fun h => hthread h.1 h.2

theorem ended_of_same (hthread : next.replyThread = state.replyThread) :
    ended state next = 0 := by
  refine ended_eq_zero fun hunlock => ?_
  rw [hthread, hunlock]
  simp

theorem ended_of_process (hthread : state.replyThread = .process request stage) :
    ended state next = 0 := by
  refine ended_eq_zero fun hunlock => ?_
  rw [hthread] at hunlock
  cases hunlock

/-- With a client that has a matched endpoint the request is put back, not dropped. -/
theorem not_gone_of_requeue (hthread : state.replyThread = .process request .lookUpClient)
    (hstep : step state .reply = some next)
    (hrequests : next.requests = state.requests ++ [request]) :
    RemoteClientMatchedStatus.isFullyUnmatched state.clientMatchedStatus
      request.clientGuidPrefix = true := by
  by_contra hgone
  have hnull := nullDereference_of_step hstep
  simp only [step, hnull, Bool.false_eq_true, if_false, replyStep, hthread, processStep,
    Bool.eq_false_iff.mpr hgone, Bool.not_false, if_true] at hstep
  cases hstep
  simp at hrequests

theorem Pass.process (hpass : Pass start count state)
    (hthread : state.replyThread = .process request stage)
    (hlt : count < start.requests.length) :
    start.requests[count]? = some request ∧
      state.requests = start.requests.drop (count + 1) ++
        (start.requests.take count).filter start.halfMatched ∧
      state.writes = start.writesAfter count ∧ StageFits start request stage := by
  have hphase := hpass.phase (Nat.le_of_lt hlt)
  rw [hthread] at hphase
  exact hphase hlt

theorem Pass.isMatched_eq (hpass : Pass start count state) (guidPrefix : GuidPrefix) :
    state.clientMatchedStatus.isMatched guidPrefix =
      start.clientMatchedStatus.isMatched guidPrefix :=
  isMatched_congr (hpass.matched guidPrefix)

theorem Pass.object_eq (hpass : Pass start count state)
    (hget : start.requests[count]? = some request) {data : CalculatorRequestType}
    (hobject : state.object? request = some data) : start.object? request = some data := by
  obtain ⟨found, hstart, hfound⟩ := hpass.objects request (List.mem_of_getElem? hget)
  rw [hfound] at hobject
  cases hobject
  exact hstart

/-- A request that is not half matched has left the queue. -/
theorem Pass.settled (hpass : Pass start count state)
    (hthread : state.replyThread = .process request stage)
    (hhalf : start.halfMatched request = false) {writes : List Write}
    (hwrites : count < start.requests.length → writes = state.writes ++
      (start.answer request).toList) :
    PhaseFits start count state.requests writes .unlock := by
  intro hlt
  obtain ⟨hget, hrequests, hbefore, _⟩ := hpass.process hthread hlt
  refine ⟨?_, ?_⟩
  · rw [hrequests, queueAfter_succ hget, hhalf]
    simp
  · rw [hwrites hlt, hbefore, writesAfter_succ hget]

theorem Pass.replyMove (hpass : Pass start count state) {phase : ReplyPhase}
    (hmove : ReplyMove state phase) :
    Pass start (count + ended state { state with replyThread := phase })
      { state with replyThread := phase } := by
  have hsame : ended state { state with replyThread := phase } = 0 →
      (PhaseFits start count state.requests state.writes state.replyThread →
        PhaseFits start count state.requests state.writes phase) →
        Pass start (count + ended state { state with replyThread := phase })
          { state with replyThread := phase } := by
    intro hended hphase
    exact hpass.frame hended (.refl _) rfl (fun _ _ h => h) hphase
  cases hmove with
  | testLoop hthread =>
      refine hsame (ended_eq_zero fun h => by rw [hthread] at h; cases h) ?_
      rw [hthread, hpass.running]
      exact id
  | acquire hthread =>
      rcases hthread with hthread | hthread
      · refine hsame (ended_eq_zero fun h => by rw [hthread] at h; cases h) ?_
        rw [hthread]
        exact id
      · refine hsame (ended_eq_zero fun h => by rw [hthread] at h; cases h) ?_
        rw [hthread]
        exact id
  | predicateTrue hthread | predicateFalse hthread | block hthread =>
      refine hsame (ended_eq_zero fun h => by rw [hthread] at h; cases h) ?_
      rw [hthread]
      exact id
  | stopped hthread hstop =>
      rw [hpass.running] at hstop
      cases hstop
  | unlock hthread =>
      have hended : ended state { state with replyThread := .testLoop } = 1 :=
        if_pos ⟨hthread, rfl⟩
      rw [hended]
      refine ⟨hpass.running, hpass.matched, hpass.objects, fun hle => ?_⟩
      have hphase := hpass.phase (Nat.le_of_succ_le hle)
      rw [hthread] at hphase
      exact hphase hle

theorem ended_of_notify (hthread : next.replyThread = state.replyThread.notify) :
    ended state next = 0 := by
  refine ended_eq_zero fun hunlock => ?_
  rw [hthread, hunlock]
  simp [ReplyPhase.notify]

theorem Pass.pop (hpass : Pass start count state) {rest : List Request}
    (hthread : state.replyThread = .testStop) (hrequests : state.requests = request :: rest) :
    PhaseFits start count rest state.writes (.process request .lookUpClient) := by
  intro hlt
  have hphase := hpass.phase (Nat.le_of_lt hlt)
  rw [hthread] at hphase
  obtain ⟨hqueue, hwrites⟩ := hphase
  rw [hrequests, State.queueAfter, List.drop_eq_getElem_cons hlt, List.cons_append] at hqueue
  obtain ⟨hhead, htail⟩ := List.cons.inj hqueue
  rw [List.getElem?_eq_getElem hlt, hhead]
  exact ⟨rfl, htail, hwrites, trivial⟩

theorem Pass.drop (hpass : Pass start count state)
    (hthread : state.replyThread = .process request stage)
    (hreason : stage = .lookUpClient ∧
        RemoteClientMatchedStatus.Gone state.clientMatchedStatus request.clientGuidPrefix ∨
      stage = .calculateResult ∧
        ∃ data, state.object? request = some data ∧ calculate data = none) :
    PhaseFits start count state.requests state.writes .unlock := by
  rcases hreason with ⟨_, hgone⟩ | ⟨rfl, data, hobject, hnone⟩
  · have hgoneStart : RemoteClientMatchedStatus.Gone start.clientMatchedStatus
        request.clientGuidPrefix := by
      intro bits hlookup
      exact hgone bits ((hpass.matched _).trans hlookup)
    obtain ⟨hhalf, hanswer⟩ := halfMatched_of_gone hgoneStart
    exact hpass.settled hthread hhalf fun _ => by simp [hanswer]
  · intro hlt
    obtain ⟨hget, _, _, hmatched⟩ := hpass.process hthread hlt
    have hanswer : start.answer request = none := by
      rw [State.answer, hpass.object_eq hget hobject, Option.bind_some, hnone]
      split <;> rfl
    exact hpass.settled hthread (halfMatched_of_matched hmatched)
      (fun _ => by simp [hanswer]) hlt

theorem Pass.requeue (hpass : Pass start count state)
    (hthread : state.replyThread = .process request .lookUpClient)
    (hsome : RemoteClientMatchedStatus.isFullyUnmatched state.clientMatchedStatus
      request.clientGuidPrefix = true)
    (hhalf : state.clientMatchedStatus.isMatched request.clientGuidPrefix = false) :
    PhaseFits start count (state.requests ++ [request]) state.writes .unlock := by
  intro hlt
  obtain ⟨hget, hrequests, hwrites, _⟩ := hpass.process hthread hlt
  have hsomeStart : RemoteClientMatchedStatus.isFullyUnmatched start.clientMatchedStatus
      request.clientGuidPrefix = true := by
    rw [← hsome, RemoteClientMatchedStatus.isFullyUnmatched,
      RemoteClientMatchedStatus.isFullyUnmatched, hpass.matched]
  obtain ⟨hone, hanswer⟩ :=
    halfMatched_of_not_matched hsomeStart ((hpass.isMatched_eq _).symm.trans hhalf)
  refine ⟨?_, ?_⟩
  · rw [hrequests, queueAfter_succ hget, hone]
    rfl
  · rw [hwrites, writesAfter_succ hget, hanswer, Option.toList_none, List.append_nil]

theorem Pass.advance (hpass : Pass start count state)
    (hthread : state.replyThread = .process request stage) {later : ReplyStage}
    (hstage : start.requests[count]? = some request → StageFits start request stage →
      StageFits start request later) :
    PhaseFits start count state.requests state.writes (.process request later) := by
  intro hlt
  obtain ⟨hget, hrequests, hwrites, hfits⟩ := hpass.process hthread hlt
  exact ⟨hget, hrequests, hwrites, hstage hget hfits⟩

theorem Pass.written (hpass : Pass start count state) {reply : CalculatorReplyType}
    (hthread : state.replyThread = .process request (.writeReply reply)) :
    PhaseFits start count state.requests
      (state.writes ++ [⟨request.ticket, request.info.sampleIdentity, reply, true⟩]) .unlock := by
  intro hlt
  obtain ⟨_, _, _, hmatched, hanswer⟩ := hpass.process hthread hlt
  exact hpass.settled hthread (halfMatched_of_matched hmatched)
    (fun _ => by rw [hanswer]; rfl) hlt

theorem Pass.step (hpass : Pass start count state) (hquiet : Quiet state action)
    (hstep : step state action = some next) :
    Pass start (count + ended state next) next := by
  obtain ⟨haction, hmeanwhile⟩ := hquiet
  obtain ⟨haccepted, hmatched, hstop, hnull⟩ := hmeanwhile next hstep
  cases transition_of_step hstep with
  | construct phase hnext =>
      exact hpass.frame (ended_of_same rfl) hmatched hstop (fun _ _ h => h) id
  | rematch action matched nullDereference hfree =>
      exact hpass.frame (ended_of_same rfl) hmatched hstop (fun _ _ h => h) id
  | dataAvailable =>
      refine hpass.frame (ended_of_same rfl) hmatched hstop (fun _ _ h => ?_) id
      exact object?_onDataAvailable h
  | moveCallback action index callback phase hget hmove =>
      refine hpass.frame (ended_of_same rfl) hmatched hstop (fun request data h => ?_) id
      have hsame := object?_setCallback_of_object_eq { callback with phase := phase } hget rfl
        request
      exact hsame.trans h
  | take index callback sample hget hphase => cases haction
  | push index callback info hget hphase hdata hfree =>
      have hlength := congrArg List.length haccepted
      simp [State.push, State.setCallback] at hlength
  | replyMove phase hmove => exact hpass.replyMove hmove
  | pop request rest hthread _ hrequests =>
      refine hpass.frame (ended_eq_zero fun h => ?_) hmatched hstop (fun _ _ h => h) fun _ =>
        hpass.pop hthread hrequests
      rw [hthread] at h
      cases h
  | drop request stage hthread hreason =>
      exact hpass.frame (ended_of_process hthread) hmatched hstop (fun _ _ h => h) fun _ =>
        hpass.drop hthread hreason
  | requeue request hthread hhalf =>
      have hsome := not_gone_of_requeue hthread hstep rfl
      exact hpass.frame (ended_of_process hthread) hmatched hstop (fun _ _ h => h) fun _ =>
        hpass.requeue hthread hsome hhalf
  | lookUp request hthread hfull =>
      refine hpass.frame (ended_of_process hthread) hmatched hstop (fun _ _ h => h) fun _ =>
        hpass.advance hthread ?_
      exact fun _ _ => (hpass.isMatched_eq _).symm.trans hfull
  | calculate request data result hthread hobject hresult =>
      refine hpass.frame (ended_of_process hthread) hmatched hstop (fun _ _ h => h) fun _ =>
        hpass.advance hthread ?_
      exact fun hget hfull => ⟨hfull, data, hpass.object_eq hget hobject, hresult⟩
  | prepare request data result hthread hobject =>
      refine hpass.frame (ended_of_process hthread) hmatched hstop (fun _ _ h => h) fun _ =>
        hpass.advance hthread ?_
      rintro hget ⟨hfull, found, hfound, hresult⟩
      have hsame := hpass.object_eq hget hobject
      rw [hfound] at hsame
      cases hsame
      refine ⟨hfull, ?_⟩
      rw [State.answer, if_pos hfull, hfound, Option.bind_some, hresult]
      rfl
  | writeNull ok request reply hthread _ => cases hnull
  | write ok request reply hthread _ =>
      cases ok with
      | false => cases haction
      | true =>
          exact hpass.frame (ended_of_process hthread) hmatched hstop (fun _ _ h => h) fun _ =>
            hpass.written hthread
  | run phase hmove =>
      exact hpass.frame (ended_of_same rfl) hmatched hstop (fun _ _ h => h) id
  | stopStore _ =>
      rw [hpass.running] at hstop
      cases hstop
  | stopNotify _ =>
      exact hpass.frame (ended_of_notify rfl) hmatched hstop (fun _ _ h => h) fun h => h.notify

theorem Pass.run {actions : List Action} (hpass : Pass start count state)
    (hrun : system.run state actions = some next)
    (hquiet : system.StepsMeet Quiet state actions) :
    Pass start (count + iterations state actions) next := by
  induction actions generalizing state count with
  | nil =>
      cases hrun
      exact hpass
  | cons action rest ih =>
      obtain ⟨middle, hstep, hrest⟩ := TransitionSystem.run_cons_eq_some.mp hrun
      have hlater := ih (hpass.step hquiet.1 hstep) hrest (hquiet.2 middle hstep)
      have hcount : iterations state (action :: rest) =
          ended state middle + iterations middle rest := by
        change ServerApp.step state action = some middle at hstep
        simp only [iterations, hstep]
      rw [hcount, ← Nat.add_assoc]
      exact hlater

end Steps

/-! ## A pass can be completed -/

/-- A quiet run with so many iterations. -/
def Serves (state next : State) (count : ℕ) : Prop :=
  ∃ actions, system.run state actions = some next ∧ system.StepsMeet Quiet state actions ∧
    iterations state actions = count

/-- What the reply thread leaves as it is while it serves. -/
structure SameAround (state next : State) : Prop where
  stop : next.stop = state.stop
  nullDereference : next.nullDereference = state.nullDereference
  constructorPhase : next.constructorPhase = state.constructorPhase
  runThread : next.runThread = state.runThread
  callbacks : next.callbacks = state.callbacks
  matched : next.clientMatchedStatus = state.clientMatchedStatus
  accepted : next.accepted = state.accepted

structure Ready (state : State) : Prop where
  running : state.stop = false
  safe : state.nullDereference = false
  writer : state.replyWriterIsNull = false
  free : state.runThread.holdsMutex = false

section Serving

variable {state middle next : State} {request : Request} {rest : List Request} {left right : ℕ}

theorem SameAround.trans (hfirst : SameAround state middle) (hsecond : SameAround middle next) :
    SameAround state next :=
  ⟨hsecond.stop.trans hfirst.stop, hsecond.nullDereference.trans hfirst.nullDereference,
    hsecond.constructorPhase.trans hfirst.constructorPhase,
    hsecond.runThread.trans hfirst.runThread, hsecond.callbacks.trans hfirst.callbacks,
    hsecond.matched.trans hfirst.matched, hsecond.accepted.trans hfirst.accepted⟩

theorem SameAround.ready (hsame : SameAround state next) (hready : Ready state) :
    Ready next := by
  refine ⟨hsame.stop.trans hready.running, hsame.nullDereference.trans hready.safe, ?_, ?_⟩
  · rw [State.replyWriterIsNull, hsame.constructorPhase]
    exact hready.writer
  · rw [hsame.runThread]
    exact hready.free

theorem SameAround.object?_eq (hsame : SameAround state next) (request : Request) :
    next.object? request = state.object? request := by
  rw [State.object?, State.object?, hsame.callbacks]

theorem Serves.refl (state : State) : Serves state state 0 := ⟨[], rfl, trivial, rfl⟩

theorem Serves.cons {action : Action} (hstep : step state action = some middle)
    (hquiet : Quiet state action) (hrest : Serves middle next left) :
    Serves state next (ended state middle + left) := by
  obtain ⟨actions, hrun, hmeet, rfl⟩ := hrest
  refine ⟨action :: actions, TransitionSystem.run_cons_eq_some.mpr ⟨middle, hstep, hrun⟩,
    ⟨hquiet, ?_⟩, by simp only [iterations, hstep]⟩
  intro found hfound
  change step state action = some found at hfound
  rw [hstep] at hfound
  cases hfound
  exact hmeet

theorem Serves.trans (hfirst : Serves state middle left) (hsecond : Serves middle next right) :
    Serves state next (left + right) := by
  obtain ⟨actions, hrun, hmeet, rfl⟩ := hfirst
  induction actions generalizing state with
  | nil =>
      cases hrun
      rw [iterations, Nat.zero_add]
      exact hsecond
  | cons action actions ih =>
      obtain ⟨found, hstep, hrest⟩ := TransitionSystem.run_cons_eq_some.mp hrun
      have hlater := ih hrest (hmeet.2 found hstep)
      change step state action = some found at hstep
      have hall := hlater.cons hstep hmeet.1
      simp only [iterations, hstep]
      rw [Nat.add_assoc]
      exact hall

theorem Serves.one {action : Action} (hready : Ready state)
    (hstep : step state action = some next) (haction : action.isQuiet = true)
    (hsame : SameAround state next) : Serves state next (ended state next) := by
  have hquiet : Quiet state action := by
    refine ⟨haction, fun found hfound => ?_⟩
    rw [hstep] at hfound
    cases hfound
    exact ⟨hsame.accepted, hsame.matched ▸ .refl _, hsame.stop,
      hsame.nullDereference.trans hready.safe⟩
  exact (Serves.refl next).cons hstep hquiet

theorem Serves.reply (hready : Ready state) (hreply : replyStep state = some next)
    (hsame : SameAround state next) : Serves state next (ended state next) := by
  have hstep : step state .reply = some next := by
    simp only [step, hready.safe, Bool.false_eq_true, if_false]
    exact hreply
  exact Serves.one hready hstep rfl hsame

theorem SameAround.moved (state : State) (requests : List Request) (writes : List Write)
    (dropped : List ℕ) (phase : ReplyPhase) :
    SameAround state { state with
      requests := requests
      writes := writes
      dropped := dropped
      replyThread := phase } :=
  ⟨rfl, rfl, rfl, rfl, rfl, rfl, rfl⟩

/-- The reply thread goes from the test of its loop to the first request. -/
theorem serves_taken (hready : Ready state) (hthread : state.replyThread = .testLoop)
    (hrequests : state.requests = request :: rest) :
    Serves state { state with
      requests := rest
      replyThread := .process request .lookUpClient } 0 := by
  have hmoved : ∀ phase, Ready { state with replyThread := phase } :=
    fun phase => (SameAround.moved state _ _ _ phase).ready hready
  have hlock : Serves state { state with replyThread := .lock } 0 := by
    have hreply : replyStep state = some { state with replyThread := .lock } := by
      simp only [replyStep, hthread, hready.running, Bool.false_eq_true, if_false]
    have hserves := Serves.reply hready hreply (SameAround.moved state _ _ _ _)
    rwa [ended_eq_zero fun h => by rw [hthread] at h; cases h] at hserves
  have hwait : Serves { state with replyThread := .lock }
      { state with replyThread := .wait .testing } 0 := by
    refine Serves.reply (hmoved _) ?_ ⟨rfl, rfl, rfl, rfl, rfl, rfl, rfl⟩
    simp only [replyStep, State.mutexFree, ReplyPhase.holdsMutex, hready.free, Bool.not_false,
      Bool.and_self, if_true]
  have hpredicate : Serves { state with replyThread := .wait .testing }
      { state with replyThread := .testStop } 0 := by
    refine Serves.reply (hmoved _) ?_ ⟨rfl, rfl, rfl, rfl, rfl, rfl, rfl⟩
    simp [replyStep, hrequests]
  have hpop : Serves { state with replyThread := .testStop }
      { state with
        requests := rest
        replyThread := .process request .lookUpClient } 0 := by
    refine Serves.reply (hmoved _) ?_ ⟨rfl, rfl, rfl, rfl, rfl, rfl, rfl⟩
    simp only [replyStep, hready.running, Bool.false_eq_true, if_false, hrequests]
  exact ((hlock.trans hwait).trans hpredicate).trans hpop

theorem Serves.process (hready : Ready state) {stage : ReplyStage}
    (hthread : state.replyThread = .process request stage)
    (hprocess : processStep state request stage = some next) (hsame : SameAround state next) :
    Serves state next 0 := by
  have hreply : replyStep state = some next := by
    simp only [replyStep, hthread]
    exact hprocess
  have hserves := Serves.reply hready hreply hsame
  rwa [ended_of_process hthread] at hserves

/-- The iteration comes to its end with this queue. -/
def Handles (state : State) (requests : List Request) : Prop :=
  ∃ next, Serves state next 0 ∧ next.replyThread = .unlock ∧ SameAround state next ∧
    next.requests = requests

theorem Handles.after {requests : List Request} (hserves : Serves state middle 0)
    (hsame : SameAround state middle) (hhandles : Handles middle requests) :
    Handles state requests := by
  obtain ⟨next, hrest, hunlock, hlater, hrequests⟩ := hhandles
  exact ⟨next, hserves.trans hrest, hunlock, hsame.trans hlater, hrequests⟩

theorem Handles.last (hready : Ready state) {stage : ReplyStage}
    (hthread : state.replyThread = .process request stage)
    (hprocess : processStep state request stage = some next) (hsame : SameAround state next)
    (hunlock : next.replyThread = .unlock) : Handles state next.requests :=
  ⟨next, Serves.process hready hthread hprocess hsame, hunlock, hsame, rfl⟩

theorem handles_write (hready : Ready state) {reply : CalculatorReplyType}
    (hthread : state.replyThread = .process request (.writeReply reply)) :
    Handles state state.requests := by
  have hstep : step state (.write true) = some { state with
      replyThread := .unlock
      writes := state.writes ++
        [⟨request.ticket, request.info.sampleIdentity, reply, true⟩] } := by
    simp only [step, hready.safe, writeStep, hthread, hready.writer, Bool.false_eq_true,
      if_false, if_true]
  have hserves := Serves.one hready hstep rfl (SameAround.moved state _ _ _ _)
  rw [ended_of_process hthread] at hserves
  exact ⟨_, hserves, rfl, SameAround.moved state _ _ _ _, rfl⟩

theorem handles_prepare (hready : Ready state) {result : Int32}
    (hthread : state.replyThread = .process request (.prepareReply result))
    {data : CalculatorRequestType} (hobject : state.object? request = some data) :
    Handles state state.requests := by
  have hsame := SameAround.moved state state.requests state.writes state.dropped
    (.process request (.writeReply ⟨data.clientId, result⟩))
  refine Handles.after (Serves.process hready hthread ?_ hsame) hsame
    (handles_write (hsame.ready hready) rfl)
  simp only [processStep, hobject]

theorem handles_calculate (hready : Ready state)
    (hthread : state.replyThread = .process request .calculateResult)
    {data : CalculatorRequestType} (hobject : state.object? request = some data) :
    Handles state state.requests := by
  cases hresult : calculate data with
  | none =>
      have hprocess : processStep state request .calculateResult = some { state with
          replyThread := .unlock
          dropped := state.dropped ++ [request.ticket] } := by
        simp only [processStep, hobject, hresult]
      have hlast := Handles.last hready hthread hprocess (SameAround.moved state _ _ _ _) rfl
      exact hlast
  | some result =>
      have hsame := SameAround.moved state state.requests state.writes state.dropped
        (.process request (.prepareReply result))
      refine Handles.after (Serves.process hready hthread ?_ hsame) hsame
        (handles_prepare (hsame.ready hready) rfl ((hsame.object?_eq request).trans hobject))
      simp only [processStep, hobject, hresult]

theorem handles_lookUp (hready : Ready state)
    (hthread : state.replyThread = .process request .lookUpClient)
    {data : CalculatorRequestType} (hobject : state.object? request = some data) :
    ∃ requests, Handles state requests ∧
      (requests = state.requests ∨ requests = state.requests ++ [request]) := by
  by_cases hgone : (!RemoteClientMatchedStatus.isFullyUnmatched state.clientMatchedStatus
      request.clientGuidPrefix) = true
  · have hprocess : processStep state request .lookUpClient = some { state with
        replyThread := .unlock
        dropped := state.dropped ++ [request.ticket] } := by
      simp only [processStep, if_pos hgone]
    exact ⟨_, Handles.last hready hthread hprocess (SameAround.moved state _ _ _ _) rfl,
      .inl rfl⟩
  · by_cases hhalf : (!state.clientMatchedStatus.isMatched request.clientGuidPrefix) = true
    · have hprocess : processStep state request .lookUpClient = some { state with
          replyThread := .unlock
          requests := state.requests ++ [request] } := by
        simp only [processStep, if_neg hgone, if_pos hhalf]
      exact ⟨_, Handles.last hready hthread hprocess (SameAround.moved state _ _ _ _) rfl,
        .inr rfl⟩
    · have hsame := SameAround.moved state state.requests state.writes state.dropped
        (.process request .calculateResult)
      refine ⟨state.requests, Handles.after (Serves.process hready hthread ?_ hsame) hsame
        (handles_calculate (hsame.ready hready) rfl
          ((hsame.object?_eq request).trans hobject)), .inl rfl⟩
      simp only [processStep, if_neg hgone, if_neg hhalf]

theorem serves_unlock (hready : Ready state) (hthread : state.replyThread = .unlock) :
    Serves state { state with replyThread := .testLoop } 1 := by
  have hreply : replyStep state = some { state with replyThread := .testLoop } := by
    simp only [replyStep, hthread]
  have hended : ended state { state with replyThread := .testLoop } = 1 :=
    if_pos ⟨hthread, rfl⟩
  have hserves := Serves.reply hready hreply (SameAround.moved state _ _ _ _)
  rwa [hended] at hserves

/-- One iteration takes the first request, and at most puts it back. -/
theorem serves_iteration (hready : Ready state) (hthread : state.replyThread = .testLoop)
    (hrequests : state.requests = request :: rest) {data : CalculatorRequestType}
    (hobject : state.object? request = some data) :
    ∃ next, Serves state next 1 ∧ next.replyThread = .testLoop ∧ SameAround state next ∧
      (next.requests = rest ∨ next.requests = rest ++ [request]) := by
  have hsame := SameAround.moved state rest state.writes state.dropped
    (.process request .lookUpClient)
  obtain ⟨requests, ⟨middle, hserves, hunlock, hlater, hqueue⟩, hcases⟩ :=
    handles_lookUp (hsame.ready hready) rfl ((hsame.object?_eq request).trans hobject)
  have hall := hsame.trans hlater
  have hend := SameAround.moved middle middle.requests middle.writes middle.dropped .testLoop
  refine ⟨_, ((serves_taken hready hthread hrequests).trans hserves).trans
    (serves_unlock (hall.ready hready) hunlock), rfl, hall.trans hend, ?_⟩
  rw [hqueue]
  exact hcases

theorem serves_all (hready : Ready state) (hthread : state.replyThread = .testLoop)
    (hobjects : ∀ request ∈ state.requests, (state.object? request).isSome = true)
    (hlength : left ≤ state.requests.length) :
    ∃ final, Serves state final left ∧ final.replyThread = .testLoop := by
  induction left generalizing state with
  | zero => exact ⟨state, .refl state, hthread⟩
  | succ left ih =>
      cases hrequests : state.requests with
      | nil =>
          rw [hrequests] at hlength
          exact absurd hlength (Nat.not_succ_le_zero left)
      | cons request rest =>
          rw [hrequests] at hlength hobjects
          obtain ⟨data, hobject⟩ :=
            Option.isSome_iff_exists.mp (hobjects request List.mem_cons_self)
          obtain ⟨next, hserves, hloop, hsame, hqueue⟩ :=
            serves_iteration hready hthread hrequests hobject
          have hmem : ∀ other ∈ next.requests, other ∈ request :: rest := by
            intro other hother
            rcases hqueue with hqueue | hqueue
            · rw [hqueue] at hother
              exact List.mem_cons_of_mem _ hother
            · rw [hqueue] at hother
              exact (List.perm_append_singleton request rest).mem_iff.mp hother
          have hleft : left ≤ next.requests.length := by
            rcases hqueue with hqueue | hqueue
            · rw [hqueue]
              exact Nat.le_of_succ_le_succ hlength
            · rw [hqueue, List.length_append]
              exact Nat.le_trans (Nat.le_of_succ_le_succ hlength) (Nat.le_add_right _ _)
          obtain ⟨final, hrest, hfinal⟩ := ih (hsame.ready hready) hloop
            (fun other hother => by
              rw [hsame.object?_eq]
              exact hobjects other (hmem other hother)) hleft
          exact ⟨final, Nat.add_comm left 1 ▸ hserves.trans hrest, hfinal⟩

/-- The thread in `run` lets go of the mutex. -/
theorem serves_run {phase : RunPhase} (hsafe : state.nullDereference = false)
    (hrun : runStep state = some { state with runThread := phase }) :
    Serves state { state with runThread := phase } 0 := by
  have hstep : step state .run = some { state with runThread := phase } := by
    rw [step, if_neg (by rw [hsafe]; exact Bool.false_ne_true)]
    exact hrun
  have hquiet : Quiet state .run := by
    refine ⟨rfl, fun found hfound => ?_⟩
    rw [hstep] at hfound
    cases hfound
    exact ⟨rfl, .refl _, rfl, hsafe⟩
  have hended : ended state { state with runThread := phase } = 0 := ended_of_same rfl
  have hserves := (Serves.refl _).cons hstep hquiet
  rwa [hended] at hserves

theorem serves_released (hstop : state.stop = false) (hsafe : state.nullDereference = false) :
    ∃ phase, Serves state { state with runThread := phase } 0 ∧ phase.holdsMutex = false := by
  cases hholds : state.runThread.holdsMutex with
  | false => exact ⟨state.runThread, .refl state, hholds⟩
  | true =>
      have hblocking : ∀ found : State, found.nullDereference = false →
          found.runThread = .wait .blocking →
            Serves found { found with runThread := .wait .blocked } 0 := by
        intro found hfound hthread
        exact serves_run hfound (by simp only [runStep, hthread])
      cases hthread : state.runThread with
      | wait phase =>
          cases phase with
          | testing =>
              have htest : Serves state { state with runThread := .wait .blocking } 0 := by
                refine serves_run hsafe ?_
                simp only [runStep, hthread, hstop, Bool.false_eq_true, if_false]
              exact ⟨.wait .blocked, htest.trans (hblocking _ hsafe rfl), rfl⟩
          | blocking => exact ⟨.wait .blocked, hblocking state hsafe hthread, rfl⟩
          | blocked | notified =>
              rw [hthread] at hholds
              cases hholds
      | notStarted | lock | returned =>
          rw [hthread] at hholds
          cases hholds

end Serving

/-! ## The pass -/

/-- After some iterations, at most as many as there are requests, the first so many requests
have been handled, whatever the clients of those before them.  After as many as there are
requests the half-matched ones are left, and such a run exists. -/
structure OnePass (start : State) : Prop where
  prefixes : ∀ actions final, system.run start actions = some final →
    system.StepsMeet Quiet start actions → final.replyThread = .testLoop →
      iterations start actions ≤ start.requests.length →
        final.requests = start.queueAfter (iterations start actions) ∧
          final.writes = start.writesAfter (iterations start actions)
  whole : ∀ actions final, system.run start actions = some final →
    system.StepsMeet Quiet start actions → final.replyThread = .testLoop →
      iterations start actions = start.requests.length →
        final.requests = start.requests.filter start.halfMatched ∧
          final.writes = start.writes ++ start.requests.filterMap start.answer
  completes : start.nullDereference = false → start.replyWriterIsNull = false →
    ∃ final, Serves start final start.requests.length ∧ final.replyThread = .testLoop

/-- The request objects are shared pointers that are never empty. -/
theorem onePass {start : State} (hstop : start.stop = false)
    (hthread : start.replyThread = .testLoop)
    (hobjects : ∀ request ∈ start.requests, (start.object? request).isSome = true) :
    OnePass start := by
  have hprefixes : ∀ actions final, system.run start actions = some final →
      system.StepsMeet Quiet start actions → final.replyThread = .testLoop →
        iterations start actions ≤ start.requests.length →
          final.requests = start.queueAfter (iterations start actions) ∧
            final.writes = start.writesAfter (iterations start actions) := by
    intro actions final hrun hquiet hfinal hle
    have hpass := (Pass.start hstop hthread hobjects).run hrun hquiet
    rw [Nat.zero_add] at hpass
    have hphase := hpass.phase hle
    rw [hfinal] at hphase
    exact hphase
  refine ⟨hprefixes, ?_, ?_⟩
  · intro actions final hrun hquiet hfinal hlength
    have hfits := hprefixes actions final hrun hquiet hfinal (Nat.le_of_eq hlength)
    rw [hlength, State.queueAfter, State.writesAfter, List.drop_length, List.take_length,
      List.nil_append] at hfits
    exact hfits
  · intro hsafe hwriter
    obtain ⟨phase, hreleased, hfree⟩ := serves_released hstop hsafe
    have hready : Ready { start with runThread := phase } := ⟨hstop, hsafe, hwriter, hfree⟩
    obtain ⟨final, hserves, hfinal⟩ := serves_all hready hthread hobjects (Nat.le_refl _)
    exact ⟨final, Nat.zero_add start.requests.length ▸ hreleased.trans hserves, hfinal⟩

/-- The queue holds a request of a half-matched client, of a fully matched one, and of one
that is gone. -/
def mixedStart : State where
  constructorPhase := .replyWriterAssigned
  stop := false
  pendingNotifications := 0
  clientMatchedStatus :=
    ((∅ : MatchedStatus).insert 1 ⟨true, true⟩).insert 2 ⟨true, false⟩
  requests :=
    [⟨⟨.alive, true, ⟨2, 1⟩, ⟨⟨2, 1⟩, 1⟩⟩, 0, 0⟩, ⟨⟨.alive, true, ⟨1, 1⟩, ⟨⟨1, 1⟩, 1⟩⟩, 1, 1⟩,
      ⟨⟨.alive, true, ⟨3, 1⟩, ⟨⟨3, 1⟩, 1⟩⟩, 0, 2⟩]
  callbacks := [⟨⟨"other", .addition, 3, 4⟩, .returned⟩, ⟨⟨"client", .addition, 1, 2⟩, .returned⟩]
  replyThread := .testLoop
  runThread := .wait .blocked
  nullDereference := false
  accepted := []
  writes := []
  dropped := []

theorem onePass_mixedStart : OnePass mixedStart := onePass rfl rfl (by decide)

example : mixedStart.requests.filter mixedStart.halfMatched =
      [⟨⟨.alive, true, ⟨2, 1⟩, ⟨⟨2, 1⟩, 1⟩⟩, 0, 0⟩] ∧
    mixedStart.requests.filterMap mixedStart.answer =
      [⟨1, ⟨⟨1, 1⟩, 1⟩, ⟨"client", 3⟩, true⟩] := by
  decide

/-! ## The objects of the waiting requests -/

theorem object?_isSome_iff {state : State} {request : Request} :
    (state.object? request).isSome = true ↔ request.request < state.callbacks.length := by
  simp [State.object?]

theorem callbacks_length_le {state next : State} {action : Action}
    (hstep : step state action = some next) :
    state.callbacks.length ≤ next.callbacks.length := by
  cases transition_of_step hstep with
  | dataAvailable => simp [onDataAvailable]
  | moveCallback | take | push => simp [State.setCallback, State.push, State.notifyAll]
  | _ => exact Nat.le_refl _

/-- In every reachable state the waiting requests have their objects. -/
theorem objects_of_reachable {state : State} (hreach : system.Reachable state) :
    ∀ request ∈ state.pending, (state.object? request).isSome = true := by
  refine hreach.invariant
    (fun state => ∀ request ∈ state.pending, (state.object? request).isSome = true)
    (by simp [initial, system, State.pending, ReplyPhase.held]) ?_
  intro state action next hinv hstep request hmem
  change step state action = some next at hstep
  have hgrow := callbacks_length_le hstep
  rw [object?_isSome_iff]
  have hold : request ∈ state.pending → request.request < next.callbacks.length := fun h =>
    Nat.lt_of_lt_of_le (object?_isSome_iff.mp (hinv request h)) hgrow
  by_cases hcallback : ∃ index, action = .callback index
  · obtain ⟨index, rfl⟩ := hcallback
    cases transition_of_step hstep with
    | rematch | moveCallback => exact hold hmem
    | push index callback info hget =>
        rcases List.mem_append.mp hmem with hheld | hqueue
        · refine hold (List.mem_append_left _ ?_)
          have hnotify : (state.replyThread.notify).held = state.replyThread.held :=
            held_notify _
          exact hnotify ▸ hheld
        · rcases List.mem_append.mp hqueue with hwaiting | hnew
          · exact hold (List.mem_append_right _ hwaiting)
          · rw [List.mem_singleton.mp hnew]
            exact Nat.lt_of_lt_of_le (List.getElem?_eq_some_iff.mp hget).1 hgrow
  · exact hold (pending_subset_of_step hstep (fun index h => hcallback ⟨index, h⟩) hmem)

end CppProj.RequestReply.ServerApp
