import CppProj.AssociationList
import CppProj.RequestReplyExchange

/-!
# What the client does with the replies to its requests

The client registers four requests, and stops exactly when each of them has its
reply.  A reply that it has taken stays with the callback until it is recorded,
unless nothing waits for it.
-/

namespace CppProj.RequestReply.ClientApp

/-- Requests that the thread in `run` has still to write. -/
def RunPhase.unsent : RunPhase → ℕ
  | .send _ rest => rest.length + 1
  | .lockForReplies | .waitForReplies _ | .returned => 0
  | _ => 4

structure AskingInvariant (requestInput : Int16 × Int16) (clientId : String)
    (state : State) : Prop where
  input : state.requestInput = requestInput
  client : state.clientId = clientId
  operations : ∀ operation rest, state.runThread = .send operation rest →
    ∀ sent ∈ operation :: rest, sent ∈ firstOperation :: furtherOperations
  size : state.runThread ≠ .returned →
    state.requestsStatus.entries.length + state.runThread.unsent = 4
  returned : state.runThread = .returned → state.stop = true
  complete : allResponsesReceived state.requestsStatus = true → state.stop = true
  stopped : state.stop = true → allResponsesReceived state.requestsStatus = true
  taken : ∀ (index : ℕ) sample, state.callbacks[index]? = some (.taken sample) →
    sample.info.carriesData = true

/-- The client has no reply yet to the request with this identity. -/
def State.Awaits (state : State) (identity : SampleIdentity) : Prop :=
  state.requestsStatus.lookup identity = some false

def State.Holds (state : State) (identity : SampleIdentity) : Prop :=
  ∃ (index : ℕ) (sample : ReplySample), state.callbacks[index]? = some (.taken sample) ∧
    sample.relatedSampleIdentity = identity

variable {requestInput : Int16 × Int16} {clientId : String} {state next : State}

theorem initial_askingInvariant :
    AskingInvariant requestInput clientId (initial requestInput clientId) := by
  constructor <;> simp [initial, RunPhase.unsent, allResponsesReceived]

theorem AskingInvariant.frame (hinv : AskingInvariant requestInput clientId state)
    (hinput : next.requestInput = state.requestInput)
    (hclient : next.clientId = state.clientId)
    (hstatus : next.requestsStatus = state.requestsStatus)
    (hstop : next.stop = state.stop)
    (hoperations : ∀ operation rest, next.runThread = .send operation rest →
      ∀ sent ∈ operation :: rest, sent ∈ firstOperation :: furtherOperations)
    (hsize : next.runThread ≠ .returned →
      state.runThread ≠ .returned ∧ next.runThread.unsent = state.runThread.unsent)
    (hreturned : next.runThread = .returned → next.stop = true)
    (htaken : ∀ (index : ℕ) sample, next.callbacks[index]? = some (.taken sample) →
      sample.info.carriesData = true) :
    AskingInvariant requestInput clientId next := by
  constructor
  case input => exact hinput.trans hinv.input
  case client => exact hclient.trans hinv.client
  case operations => exact hoperations
  case size =>
    intro hnext
    obtain ⟨hstate, hunsent⟩ := hsize hnext
    rw [hstatus, hunsent]
    exact hinv.size hstate
  case returned => exact hreturned
  case complete =>
    rw [hstatus, hstop]
    exact hinv.complete
  case stopped =>
    rw [hstatus, hstop]
    exact hinv.stopped
  case taken => exact htaken

theorem RunMove.unsent_eq {phase : RunPhase} (hmove : RunMove state phase)
    (hphase : phase ≠ .returned) :
    state.runThread ≠ .returned ∧ phase.unsent = state.runThread.unsent := by
  cases hmove with
  | stoppedBeforeSend hthread hstop => exact (hphase rfl).elim
  | repliesTrue hthread hstop => exact (hphase rfl).elim
  | acquireMatch hthread =>
      rcases hthread with hthread | hthread <;> rw [hthread] <;> exact ⟨by simp, rfl⟩
  | acquireGrace hthread =>
      rcases hthread with hthread | hthread <;> rw [hthread] <;> exact ⟨by simp, rfl⟩
  | acquireReplies hthread =>
      rcases hthread with hthread | hthread <;> rw [hthread] <;> exact ⟨by simp, rfl⟩
  | matchTrue hthread => rw [hthread]; exact ⟨by simp, rfl⟩
  | matchFalse hthread hstop => rw [hthread]; exact ⟨by simp, rfl⟩
  | matchBlock hthread => rw [hthread]; exact ⟨by simp, rfl⟩
  | skipGrace hthread => rw [hthread]; exact ⟨by simp, rfl⟩
  | lockGrace hthread => rw [hthread]; exact ⟨by simp, rfl⟩
  | graceTrue hthread => rw [hthread]; exact ⟨by simp, rfl⟩
  | graceFalse hthread => rw [hthread]; exact ⟨by simp, rfl⟩
  | graceBlock hthread => rw [hthread]; exact ⟨by simp, rfl⟩
  | graceOver hthread => rw [hthread]; exact ⟨by simp, rfl⟩
  | startSend hthread hstop => rw [hthread]; exact ⟨by simp, rfl⟩
  | repliesFalse hthread hstop => rw [hthread]; exact ⟨by simp, rfl⟩
  | repliesBlock hthread => rw [hthread]; exact ⟨by simp, rfl⟩

theorem RunMove.stop_of_returned {phase : RunPhase} (hmove : RunMove state phase)
    (hphase : phase = .returned) : state.stop = true := by
  cases hmove with
  | stoppedBeforeSend hthread hstop => exact hstop
  | repliesTrue hthread hstop => exact hstop
  | _ => cases hphase

theorem RunMove.send_eq {phase : RunPhase} (hmove : RunMove state phase)
    {operation : CalculatorOperationType} {rest : List CalculatorOperationType}
    (hphase : phase = .send operation rest) :
    operation = firstOperation ∧ rest = furtherOperations := by
  cases hmove with
  | startSend hthread hstop =>
      cases hphase
      exact ⟨rfl, rfl⟩
  | _ => cases hphase

@[simp] theorem unsent_notify (phase : RunPhase) : phase.notify.unsent = phase.unsent := by
  cases phase <;> rfl

theorem notify_eq_returned_iff {phase : RunPhase} :
    phase.notify = .returned ↔ phase = .returned := by
  cases phase <;> simp [RunPhase.notify]

theorem notify_eq_send_iff {phase : RunPhase} {operation : CalculatorOperationType}
    {rest : List CalculatorOperationType} :
    phase.notify = .send operation rest ↔ phase = .send operation rest := by
  cases phase <;> simp [RunPhase.notify]

theorem AskingInvariant.notified (hinv : AskingInvariant requestInput clientId state)
    (hinput : next.requestInput = state.requestInput)
    (hclient : next.clientId = state.clientId)
    (hstatus : next.requestsStatus = state.requestsStatus)
    (hstop : next.stop = state.stop)
    (hrun : next.runThread = state.runThread ∨ next.runThread = state.runThread.notify)
    (htaken : ∀ (index : ℕ) sample, next.callbacks[index]? = some (.taken sample) →
      sample.info.carriesData = true) :
    AskingInvariant requestInput clientId next := by
  refine hinv.frame hinput hclient hstatus hstop ?_ ?_ ?_ htaken
  · intro operation rest hnext
    rcases hrun with hrun | hrun
    · exact hinv.operations operation rest (hrun ▸ hnext)
    · exact hinv.operations operation rest (notify_eq_send_iff.mp (hrun ▸ hnext))
  · intro hnext
    rcases hrun with hrun | hrun
    · rw [hrun] at hnext ⊢
      exact ⟨hnext, rfl⟩
    · rw [hrun] at hnext ⊢
      exact ⟨fun hreturned => hnext (notify_eq_returned_iff.mpr hreturned), unsent_notify _⟩
  · intro hnext
    rw [hstop]
    rcases hrun with hrun | hrun
    · exact hinv.returned (hrun ▸ hnext)
    · exact hinv.returned (notify_eq_returned_iff.mp (hrun ▸ hnext))

/-! ## The handling of a reply -/

theorem taken_of_set {index other : ℕ} {phase : CallbackPhase} {sample : ReplySample}
    {callbacks : List CallbackPhase} (hphase : ∀ taken, phase ≠ .taken taken)
    (hget : (callbacks.set index phase)[other]? = some (.taken sample)) :
    callbacks[other]? = some (.taken sample) := by
  rw [List.getElem?_set] at hget
  split_ifs at hget with heq hlt
  · cases hget
    exact (hphase sample rfl).elim
  · exact hget

/-- A reply either answers a request that waits for it, or changes nothing but
the callback. -/
theorem handleReply_cases (state : State) (index : ℕ) (sample : ReplySample) :
    (state.Awaits sample.relatedSampleIdentity ∧
      ∃ stop run phase,
        handleReply state index sample =
          { state with
            stop := stop
            runThread := run
            requestsStatus :=
              state.requestsStatus.insert sample.relatedSampleIdentity true
            callbacks := state.callbacks.set index phase } ∧
        (∀ taken, phase ≠ .taken taken) ∧
        (state.stop = true → stop = true) ∧
        (allResponsesReceived
          (state.requestsStatus.insert sample.relatedSampleIdentity true) = true →
            stop = true) ∧
        (stop = true → state.stop = true ∨ allResponsesReceived
          (state.requestsStatus.insert sample.relatedSampleIdentity true) = true) ∧
        (run = state.runThread ∨ run = state.runThread.notify)) ∨
      ¬ state.Awaits sample.relatedSampleIdentity ∧
        handleReply state index sample =
          { state with callbacks := state.callbacks.set index .testStop } := by
  unfold handleReply State.Awaits
  cases hlookup : state.requestsStatus.lookup sample.relatedSampleIdentity with
  | none => exact Or.inr ⟨by simp, rfl⟩
  | some answered =>
      cases answered with
      | true => exact Or.inr ⟨by simp, rfl⟩
      | false =>
          left
          refine ⟨rfl, ?_⟩
          by_cases hall : allResponsesReceived
              (state.requestsStatus.insert sample.relatedSampleIdentity true) = true
          · refine ⟨true, state.runThread.notify, .returned, ?_, by simp, by simp, by simp,
              fun _ => Or.inr hall, Or.inr rfl⟩
            simp only [hall, if_true, State.notifyAll]
          · refine ⟨state.stop, state.runThread, .testStop, ?_, by simp, id, ?_, Or.inl,
              Or.inl rfl⟩
            · simp only [hall, Bool.false_eq_true, if_false]
            · exact fun hreceived => (hall hreceived).elim

theorem not_awaits_of_allResponsesReceived {identity : SampleIdentity}
    (hall : allResponsesReceived state.requestsStatus = true) :
    ¬ state.Awaits identity := by
  intro hawaits
  simp only [allResponsesReceived, Bool.and_eq_true, List.all_eq_true] at hall
  have hanswered := hall.2 _ (AList.mem_lookup_iff.mp hawaits)
  cases hanswered

theorem AskingInvariant.afterReply (hinv : AskingInvariant requestInput clientId state)
    (index : ℕ) (sample : ReplySample) :
    AskingInvariant requestInput clientId (handleReply state index sample) := by
  rcases handleReply_cases state index sample with
    ⟨hawaits, stop, run, phase, heq, hphase, hstop, hall, honly, hrun⟩ | ⟨_, heq⟩
  · rw [heq]
    constructor
    case input => exact hinv.input
    case client => exact hinv.client
    case operations =>
      intro operation rest hsend
      rcases hrun with rfl | rfl
      · exact hinv.operations operation rest hsend
      · exact hinv.operations operation rest (notify_eq_send_iff.mp hsend)
    case size =>
      intro hnext
      have hlength := AList.length_insert_of_mem
        (AList.mem_of_lookup_eq_some hawaits) true
      show (AList.insert _ _ _).entries.length + run.unsent = 4
      rw [hlength]
      rcases hrun with rfl | rfl
      · exact hinv.size hnext
      · rw [unsent_notify]
        exact hinv.size fun hreturned => hnext (notify_eq_returned_iff.mpr hreturned)
    case returned =>
      intro hnext
      rcases hrun with rfl | rfl
      · exact hstop (hinv.returned hnext)
      · exact hstop (hinv.returned (notify_eq_returned_iff.mp hnext))
    case complete => exact hall
    case stopped =>
      intro hnext
      rcases honly hnext with hstopped | hreceived
      · exact (not_awaits_of_allResponsesReceived (hinv.stopped hstopped) hawaits).elim
      · exact hreceived
    case taken =>
      intro other taken hget
      exact hinv.taken other taken (taken_of_set hphase hget)
  · rw [heq]
    refine hinv.notified rfl rfl rfl rfl (Or.inl rfl) ?_
    intro other taken hget
    exact hinv.taken other taken (taken_of_set (by simp) hget)

/-- What a step of the client on its own owes to the requests it waits for. -/
structure KeepsReplies (state next : State) : Prop where
  known : ∀ identity ∈ next.requestsStatus, identity ∈ state.requestsStatus
  awaited : ∀ identity, next.Awaits identity → state.Awaits identity
  held : ∀ identity, next.Awaits identity → state.Holds identity → next.Holds identity

theorem KeepsReplies.frame (hstatus : next.requestsStatus = state.requestsStatus)
    (htaken : ∀ (index : ℕ) sample, state.callbacks[index]? = some (.taken sample) →
      next.callbacks[index]? = some (.taken sample)) : KeepsReplies state next := by
  refine ⟨by rw [hstatus]; exact fun _ h => h, ?_, ?_⟩
  · intro identity hawaits
    rw [State.Awaits, hstatus] at hawaits
    exact hawaits
  · rintro identity - ⟨index, sample, hget, hidentity⟩
    exact ⟨index, sample, htaken index sample hget, hidentity⟩

theorem keepsReplies_handleReply {index : ℕ} {sample : ReplySample}
    (hget : state.callbacks[index]? = some (.taken sample)) :
    KeepsReplies state (handleReply state index sample) := by
  -- another callback keeps its sample, and this one's request no longer waits
  have hheld : ∀ (phase : CallbackPhase) identity, sample.relatedSampleIdentity ≠ identity →
      state.Holds identity →
        ∃ (other : ℕ) (taken : ReplySample),
          (state.callbacks.set index phase)[other]? = some (.taken taken) ∧
            taken.relatedSampleIdentity = identity := by
    rintro phase identity hne ⟨other, taken, hother, hidentity⟩
    refine ⟨other, taken, ?_, hidentity⟩
    have hindex : index ≠ other := by
      rintro rfl
      rw [hget] at hother
      cases hother
      exact hne hidentity
    rw [List.getElem?_set, if_neg hindex]
    exact hother
  rcases handleReply_cases state index sample with
    ⟨hawaits, stop, run, phase, heq, hphase, hstop, hall, honly, hrun⟩ | ⟨hnot, heq⟩
  · rw [heq]
    have hne : ∀ identity,
        AList.lookup identity (state.requestsStatus.insert sample.relatedSampleIdentity true) =
          some false → sample.relatedSampleIdentity ≠ identity := by
      rintro identity hlookup rfl
      rw [AList.lookup_insert] at hlookup
      cases hlookup
    refine ⟨?_, ?_, ?_⟩
    · intro identity hmem
      rcases (AList.mem_insert _).mp hmem with rfl | hmem
      · exact AList.mem_of_lookup_eq_some hawaits
      · exact hmem
    · intro identity hlookup
      have hidentity := hne identity hlookup
      rw [State.Awaits, AList.lookup_insert_ne (Ne.symm hidentity)] at hlookup
      exact hlookup
    · intro identity hlookup
      exact hheld phase identity (hne identity hlookup)
  · rw [heq]
    refine ⟨fun _ h => h, fun _ h => h, ?_⟩
    intro identity hawaits
    apply hheld .testStop identity
    rintro rfl
    exact hnot hawaits

theorem asking_local {action : Action}
    (hinv : AskingInvariant requestInput clientId state)
    (hlocal : Exchange.isClientLocal action = true)
    (hstep : step state action = some next) :
    AskingInvariant requestInput clientId next ∧ KeepsReplies state next := by
  cases transition_of_step hstep with
  | rematch action matched hfree =>
      exact ⟨hinv.notified rfl rfl rfl rfl (Or.inr rfl) hinv.taken,
        .frame rfl fun _ _ h => h⟩
  | dataAvailable =>
      refine ⟨hinv.notified rfl rfl rfl rfl (Or.inl rfl) ?_, .frame rfl ?_⟩
      · intro index sample hget
        by_cases hlt : index < state.callbacks.length
        · rw [List.getElem?_append_left hlt] at hget
          exact hinv.taken index sample hget
        · rw [List.getElem?_append_right (by omega), List.getElem?_singleton] at hget
          split_ifs at hget
          cases hget
      · intro index sample hget
        exact ListUpdate.getElem?_append_of_eq_some hget _
  | moveCallback action index phase hphase hkeep =>
      refine ⟨hinv.notified rfl rfl rfl rfl (Or.inl rfl) ?_, .frame rfl ?_⟩
      · intro other sample hget
        exact hinv.taken other sample (taken_of_set hphase hget)
      · intro other sample hget
        have hindex : index ≠ other := by
          rintro rfl
          have hdata := hinv.taken index sample hget
          rw [hkeep sample hget] at hdata
          cases hdata
        rw [List.getElem?_set, if_neg hindex]
        exact hget
  | take index sample hget => cases hlocal
  | handleReply index sample hget hdata hfree =>
      exact ⟨hinv.afterReply index sample, keepsReplies_handleReply hget⟩
  | run phase hmove =>
      refine ⟨hinv.frame rfl rfl rfl rfl ?_ ?_ ?_ hinv.taken, .frame rfl fun _ _ h => h⟩
      · intro operation rest hphase sent hsent
        obtain ⟨rfl, rfl⟩ := hmove.send_eq hphase
        exact hsent
      · exact hmove.unsent_eq
      · exact hmove.stop_of_returned
  | graceTimeout hthread =>
      refine ⟨hinv.frame rfl rfl rfl rfl ?_ ?_ ?_ hinv.taken, .frame rfl fun _ _ h => h⟩
      · intro operation rest hphase
        cases hphase
      · intro _
        rw [hthread]
        exact ⟨by simp, rfl⟩
      · intro hphase
        cases hphase
  | write ok sampleIdentity operation rest hthread => cases hlocal
  | stopStore => cases hlocal
  | stopNotify hpending => cases hlocal

theorem asking_take {index : ℕ} {sample : ReplySample}
    (hinv : AskingInvariant requestInput clientId state)
    (hdata : sample.info.carriesData = true)
    (hstep : step state (.take index (some sample)) = some next) :
    AskingInvariant requestInput clientId next ∧
      next.requestsStatus = state.requestsStatus ∧
      next.Holds sample.relatedSampleIdentity ∧
      ∀ identity, state.Holds identity → next.Holds identity := by
  simp only [step, takeStep] at hstep
  split at hstep
  next hget =>
    cases hstep
    have hlt : index < state.callbacks.length := List.getElem?_eq_some_iff.mp hget |>.1
    refine ⟨hinv.notified rfl rfl rfl rfl (Or.inl rfl) ?_, rfl, ?_, ?_⟩
    · intro other taken hother
      rw [List.getElem?_set] at hother
      split_ifs at hother with heq
      · cases hother
        exact hdata
      · exact hinv.taken other taken hother
    · exact ⟨index, sample, by simp [hlt], rfl⟩
    · rintro identity ⟨other, taken, hother, hidentity⟩
      refine ⟨other, taken, ?_, hidentity⟩
      have hindex : index ≠ other := by
        rintro rfl
        rw [hget] at hother
        cases hother
      rw [List.getElem?_set, if_neg hindex]
      exact hother
  all_goals cases hstep

theorem asking_write {identity : SampleIdentity} {operation : CalculatorOperationType}
    {rest : List CalculatorOperationType}
    (hinv : AskingInvariant requestInput clientId state)
    (hnew : identity ∉ state.requestsStatus)
    (hthread : state.runThread = .send operation rest)
    (hstep : step state (.write true identity) = some next) :
    AskingInvariant requestInput clientId next ∧
      next.requestsStatus = state.requestsStatus.insert identity false ∧
      next.callbacks = state.callbacks := by
  have hnext : next =
      { state with
        requestsStatus := state.requestsStatus.insert identity false
        runThread := afterWrite true rest } := by
    simp only [step, writeStep, hthread] at hstep
    cases hstep
    rfl
  subst hnext
  refine ⟨⟨hinv.input, hinv.client, ?_, ?_, ?_, ?_, ?_, hinv.taken⟩, rfl, rfl⟩
  · intro sending further hsend sent hsent
    cases rest with
    | nil => cases hsend
    | cons other others =>
        cases hsend
        exact hinv.operations _ _ hthread sent (List.mem_cons_of_mem _ hsent)
  · intro _
    have hsize := hinv.size (by simp [hthread])
    have hlength := AList.length_insert_of_notMem hnew false
    rw [hthread] at hsize
    show (AList.insert _ _ _).entries.length + (afterWrite true rest).unsent = 4
    rw [hlength]
    cases rest with
    | nil =>
        simp only [RunPhase.unsent, List.length_nil] at hsize
        simp only [afterWrite, if_true, RunPhase.unsent]
        omega
    | cons other others =>
        simp only [RunPhase.unsent, List.length_cons] at hsize
        simp only [afterWrite, if_true, RunPhase.unsent]
        omega
  · intro hreturned
    cases rest <;> cases hreturned
  · intro hall
    simp [allResponsesReceived] at hall
  · intro hstop
    have hall := hinv.stopped hstop
    have hsize := hinv.size (by simp [hthread])
    simp only [allResponsesReceived, Bool.and_eq_true, decide_eq_true_eq] at hall
    simp only [hthread, RunPhase.unsent] at hsize
    omega

end CppProj.RequestReply.ClientApp
