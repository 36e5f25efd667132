import CppProj.LatencyTestTimes

/-!
# The latency test when nothing is late or lost

If no wait times out, no sample or echo is lost and no round trip is discarded,
then every wait ends with the echo of every subscriber.  Every sample is measured
once, the statistics are about all samples after the first, and no listener uses
data that is not there.

A late echo is enough to break this: the wait for the next sample counts it.
-/

namespace CppProj.LatencyTest

open TransitionSystem

variable {n : ℕ}

/-- Nothing is late, lost or discarded. -/
def Prompt (parameters : Parameters) : Action n → Prop
  | .goOn timeout => timeout = false
  | .loan loaned => loaned = true
  | .echo _ _ written => written = true
  | .measure _ positive long => (positive && !(parameters.dataLoans && long)) = true
  | .loseSample _ | .loseEcho _ => False
  | _ => True

/-- The number of a measurement. -/
def Measurement.number (time : Measurement) : ℕ := time.echo.seqnum.toNat

def Publisher.Phase.holdsData : Publisher.Phase → Bool
  | .preparing | .removing | .returned | .undefined => false
  | _ => true

/-! ## The invariant -/

/-- How many samples there are, and that all of them have been measured. -/
def Complete (parameters : Parameters) (publisher : Publisher)
    (sent : List (LatencyType × ℤ)) : Prop :=
  match publisher.phase with
  | .discovery | .awaitBegin => publisher.times = []
  | .sampling | .numbered | .loaning | .filled | .resetting | .untimed | .timed =>
      publisher.count.toNat = sent.length + 1 ∧
        publisher.times.map Measurement.number = List.range' 1 sent.length
  | .awaitEnd | .deletingData | .removing =>
      sent.length = parameters.samples.toNat + 1 ∧
        publisher.times.map Measurement.number = List.range' 1 sent.length
  | _ => True

/-- No echo of the last sample has been counted, and so many numbers are
measured. -/
def Publisher.First (publisher : Publisher) (measured : ℕ) : Prop :=
  publisher.dataMsgCount = 0 ∧ publisher.seqnumOut = publisher.count ∧
    publisher.times.map Measurement.number = List.range' 1 measured

/-- The last sample is measured, and its number is cleared. -/
def Publisher.Rest (publisher : Publisher) (measured : ℕ) : Prop :=
  publisher.seqnumOut = 0 ∧ publisher.times.map Measurement.number = List.range' 1 measured

/-- The listener measures the first echo of the last sample. -/
def Publisher.Echoed (publisher : Publisher) (sent : ℕ) : Prop :=
  match publisher.handling with
  | some ⟨_, .expected⟩ => publisher.First (sent - 1)
  | some ⟨_, .recorded⟩ => publisher.First sent
  | some ⟨_, .compared⟩ => publisher.Rest sent
  | _ => publisher.First (sent - 1) ∨ 0 < publisher.dataMsgCount ∧ publisher.Rest sent

/-- While the publisher waits for the echoes of the last sample. -/
structure Waiting (parameters : Parameters) (state : State n) : Prop where
  count : state.publisher.count.toNat = state.sent.length
  echoed : ∀ index, state.sent.length ≤ (state.channels index).echoed + 1
  answered :
    (Finset.univ.filter fun index => (state.channels index).echoed = state.sent.length).card =
      state.publisher.dataMsgCount + (if state.publisher.handling.isSome then 1 else 0)
  handling : ∀ handling, state.publisher.handling = some handling →
    handling.echo.seqnum = state.publisher.count ∧
      (handling.stage = .locked ∨ handling.stage = .taken ∧ parameters.dataLoans = false →
        state.publisher.seqnumIn = some state.publisher.count)
  times : state.publisher.Echoed state.sent.length

/-- All echoes have been handled. -/
structure Settled (state : State n) : Prop where
  handling : state.publisher.handling = none
  dataMsgCount : state.publisher.dataMsgCount = 0
  echoed : ∀ index, (state.channels index).echoed = state.sent.length

structure Prompted (parameters : Parameters) (state : State n) : Prop where
  numbers : state.sent.map (fun sample => sample.1.seqnum.toNat) =
    List.range' 1 state.sent.length
  echoes : ∀ index, (state.channels index).echoes.map LatencyType.seqnum =
    (state.sent.take (state.channels index).position).map fun sample => sample.1.seqnum
  position_le : ∀ index, (state.channels index).position ≤ state.sent.length
  echoed_le : ∀ index,
    (state.channels index).echoed ≤ (state.channels index).echoes.length
  waiting : state.publisher.phase = .waiting → Waiting parameters state
  settled : state.publisher.phase ≠ .waiting → Settled state
  complete : Complete parameters state.publisher state.sent
  fresh : ∀ index, (state.subscribers index).phase = .preparing → state.sent = []
  data : state.publisher.phase.holdsData = true → state.publisher.data = true
  resets : state.publisher.phase = .resetting → state.publisher.seqnumIn.isSome
  dangling : state.publisher.dangling = false ∧
    ∀ index, (state.subscribers index).dangling = false
  stats : ∀ entry ∈ state.publisher.stats,
    entry.times.map Measurement.number = List.range' 2 parameters.samples.toNat
  defined : state.publisher.phase ≠ .undefined

theorem Prompted.initial (parameters : Parameters) :
    Prompted parameters (State.initial parameters : State n) where
  numbers := rfl
  echoes := fun _ => rfl
  position_le := fun _ => Nat.le_refl _
  echoed_le := fun _ => Nat.le_refl _
  waiting := by
    intro hphase
    simp only [State.initial, Publisher.initial, Publisher.nextPayload] at hphase
    split_ifs at hphase
  settled := fun _ => ⟨rfl, rfl, fun _ => rfl⟩
  complete := by
    simp only [Complete, State.initial, Publisher.initial, Publisher.nextPayload]
    split_ifs <;> trivial
  fresh := fun _ _ => rfl
  data := by
    simp only [State.initial, Publisher.initial, Publisher.nextPayload]
    split_ifs <;> exact Bool.noConfusion
  resets := by
    intro hphase
    simp only [State.initial, Publisher.initial, Publisher.nextPayload] at hphase
    split_ifs at hphase
  dangling := ⟨rfl, fun _ => rfl⟩
  stats := fun _ hmem => absurd hmem List.not_mem_nil
  defined := by
    simp only [State.initial, Publisher.initial, Publisher.nextPayload]
    split_ifs <;> exact Publisher.Phase.noConfusion

theorem Prompted.length_echoes {parameters : Parameters} {state : State n}
    (hprompted : Prompted parameters state) (index : Fin n) :
    (state.channels index).echoes.length = (state.channels index).position := by
  have hlength := congrArg List.length (hprompted.echoes index)
  rwa [List.length_map, List.length_map, List.length_take_of_le (hprompted.position_le index)]
    at hlength

/-- When all echoes have been handled there is nothing left to echo. -/
theorem Prompted.position_eq {parameters : Parameters} {state : State n}
    (hprompted : Prompted parameters state) (hphase : state.publisher.phase ≠ .waiting)
    (index : Fin n) : (state.channels index).position = state.sent.length ∧
      (state.channels index).echoed = (state.channels index).echoes.length := by
  have hechoed := (hprompted.settled hphase).echoed index
  have hle := hprompted.echoed_le index
  have hlength := hprompted.length_echoes index
  have hposition := hprompted.position_le index
  omega

/-! ## The steps of the publisher -/

/-- A step outside of the waits for echoes. -/
theorem Prompted.withPublisher {parameters : Parameters} {state : State n}
    (hprompted : Prompted parameters state) (hphase : state.publisher.phase ≠ .waiting)
    {next : Publisher} (hhandling : next.handling = state.publisher.handling)
    (hdataMsgCount : next.dataMsgCount = state.publisher.dataMsgCount)
    (hdangling : next.dangling = state.publisher.dangling)
    (hnext : next.phase ≠ .waiting) (hcomplete : Complete parameters next state.sent)
    (hdata : next.phase.holdsData = true → next.data = true)
    (hresets : next.phase ≠ .resetting)
    (hstats : next.stats = state.publisher.stats) (hdefined : next.phase ≠ .undefined) :
    Prompted parameters (state.withPublisher next) where
  numbers := hprompted.numbers
  echoes := hprompted.echoes
  position_le := hprompted.position_le
  echoed_le := hprompted.echoed_le
  waiting := fun hwaiting => absurd hwaiting hnext
  settled := by
    obtain ⟨hnone, hzero, hechoed⟩ := hprompted.settled hphase
    exact fun _ => ⟨hhandling.trans hnone, hdataMsgCount.trans hzero, hechoed⟩
  complete := hcomplete
  fresh := hprompted.fresh
  data := hdata
  resets := fun hphase => absurd hphase hresets
  dangling := ⟨hdangling.trans hprompted.dangling.1, hprompted.dangling.2⟩
  stats := by
    rw [State.withPublisher, hstats]
    exact hprompted.stats
  defined := hdefined

theorem Prompted.publish {parameters : Parameters} {state : State n} {next : Publisher}
    (hprompted : Prompted parameters (state.withPublisher next))
    (commands : List TestCommand) : Prompted parameters (state.publish (next, commands)) where
  numbers := hprompted.numbers
  echoes := hprompted.echoes
  position_le := hprompted.position_le
  echoed_le := hprompted.echoed_le
  waiting := fun hphase =>
    let hwaiting := hprompted.waiting hphase
    ⟨hwaiting.count, hwaiting.echoed, hwaiting.answered, hwaiting.handling, hwaiting.times⟩
  settled := fun hphase =>
    let hsettled := hprompted.settled hphase
    ⟨hsettled.handling, hsettled.dataMsgCount, hsettled.echoed⟩
  complete := hprompted.complete
  fresh := hprompted.fresh
  data := hprompted.data
  resets := hprompted.resets
  dangling := hprompted.dangling
  stats := hprompted.stats
  defined := hprompted.defined

/-- Between two waits for echoes. -/
def Publisher.Phase.filling : Phase → Bool
  | .sampling | .numbered | .loaning | .filled | .resetting | .untimed | .timed => true
  | _ => false

/-- A step towards the next sample. -/
theorem Prompted.fill {parameters : Parameters} {state : State n}
    (hprompted : Prompted parameters state) (hphase : state.publisher.phase.filling = true)
    {next : Publisher} (hfilling : next.phase.filling = true)
    (hresets : next.phase = .resetting → next.seqnumIn.isSome) (hdangling : next.dangling = false)
    (hnext : next = { state.publisher with
      phase := next.phase
      seqnumOut := next.seqnumOut
      seqnumIn := next.seqnumIn
      loaned := next.loaned
      startTime := next.startTime
      dangling := next.dangling }) : Prompted parameters (state.withPublisher next) := by
  have hfields : next.handling = state.publisher.handling ∧
      next.dataMsgCount = state.publisher.dataMsgCount ∧ next.data = state.publisher.data ∧
      next.stats = state.publisher.stats ∧ next.count = state.publisher.count ∧
      next.times = state.publisher.times := by
    rw [hnext]
    exact ⟨rfl, rfl, rfl, rfl, rfl, rfl⟩
  obtain ⟨hhandling, hdataMsgCount, hdata, hstats, hcount, htimes⟩ := hfields
  have hcomplete : state.publisher.count.toNat = state.sent.length + 1 ∧
      state.publisher.times.map Measurement.number = List.range' 1 state.sent.length := by
    have hcomplete := hprompted.complete
    unfold Complete at hcomplete
    cases hcase : state.publisher.phase <;> rw [hcase] at hphase hcomplete <;>
      first | exact hcomplete | cases hphase
  have hholds : state.publisher.phase.holdsData = true := by
    cases hcase : state.publisher.phase <;> rw [hcase] at hphase <;> first | rfl | cases hphase
  obtain ⟨hnone, hzero, hechoed⟩ := hprompted.settled (by
    intro hwaiting
    rw [hwaiting] at hphase
    cases hphase)
  constructor
  case numbers => exact hprompted.numbers
  case echoes => exact hprompted.echoes
  case position_le => exact hprompted.position_le
  case echoed_le => exact hprompted.echoed_le
  case waiting =>
    intro hwaiting
    rw [show next.phase = .waiting from hwaiting] at hfilling
    cases hfilling
  case settled => exact fun _ => ⟨hhandling.trans hnone, hdataMsgCount.trans hzero, hechoed⟩
  case complete =>
    unfold Complete
    dsimp only [State.withPublisher]
    rw [hcount, htimes]
    cases hcase : next.phase <;> rw [hcase] at hfilling <;>
      first | exact hcomplete | cases hfilling
  case fresh => exact hprompted.fresh
  case data => exact fun _ => hdata.trans (hprompted.data hholds)
  case resets => exact hresets
  case dangling => exact ⟨hdangling, hprompted.dangling.2⟩
  case stats =>
    rw [State.withPublisher, hstats]
    exact hprompted.stats
  case defined =>
    intro hundefined
    rw [show next.phase = .undefined from hundefined] at hfilling
    cases hfilling

theorem Prompted.prepare {parameters : Parameters} {state next : State n} {prepared : Bool}
    (hprompted : Prompted parameters state)
    (hprepare : prepareStep parameters state prepared = some next) : Prompted parameters next := by
  obtain ⟨publisher, hpublisher, rfl⟩ := Option.map_eq_some_iff.mp hprepare
  obtain ⟨hphase, size, rest, -, hnext⟩ := Publisher.prepare_cases hpublisher
  obtain ⟨hnone, hzero, -⟩ :=
    hprompted.settled (by rw [hphase]; exact Publisher.Phase.noConfusion)
  rcases hnext with ⟨-, rfl⟩ | rfl
  all_goals
    constructor
    case numbers => rfl
    case echoes => exact fun _ => rfl
    case position_le => exact fun _ => Nat.le_refl _
    case echoed_le => exact fun _ => Nat.le_refl _
    case waiting => exact Publisher.Phase.noConfusion
    case settled => exact fun _ => ⟨hnone, hzero, fun _ => rfl⟩
    case complete => trivial
    case fresh => exact fun _ _ => rfl
    case resets => exact Publisher.Phase.noConfusion
    case dangling => exact hprompted.dangling
    case stats => exact hprompted.stats
    case defined => exact Publisher.Phase.noConfusion
  · exact fun _ => rfl
  · exact Bool.noConfusion

theorem Prompted.ready {parameters : Parameters} {state : State n} {next : Publisher}
    {commands : List TestCommand} {written : Bool} (hprompted : Prompted parameters state)
    (hready : state.publisher.ready written = some (next, commands)) :
    Prompted parameters (state.publish (next, commands)) := by
  have hdata := hprompted.data
  obtain ⟨hphase, hdone⟩ := Publisher.ready_eq_some_iff.mp hready
  rw [hphase] at hdata
  split_ifs at hdone
  all_goals
    cases hdone
    apply Prompted.publish
  · exact hprompted.withPublisher (by rw [hphase]; exact Publisher.Phase.noConfusion) rfl rfl rfl
      Publisher.Phase.noConfusion rfl (fun _ => hdata rfl) Publisher.Phase.noConfusion rfl
      Publisher.Phase.noConfusion
  · exact hprompted.withPublisher (by rw [hphase]; exact Publisher.Phase.noConfusion) rfl rfl rfl
      Publisher.Phase.noConfusion trivial Bool.noConfusion Publisher.Phase.noConfusion rfl
      Publisher.Phase.noConfusion

theorem Prompted.commandsCome {parameters : Parameters} {state : State n} {next : Publisher}
    (hprompted : Prompted parameters state) (hmeasuring : Measuring parameters state)
    (hcome : state.publisher.commandsCome n = some next) :
    Prompted parameters (state.withPublisher next) := by
  have hprogress := hmeasuring.progress
  have hcomplete := hprompted.complete
  have hdata := hprompted.data
  unfold Progress at hprogress
  unfold Complete at hcomplete
  obtain ⟨-, hnext⟩ := Publisher.commandsCome_cases hcome
  rcases hnext with ⟨hphase, rfl⟩ | ⟨hphase, rfl⟩
  · rw [hphase] at hprogress hcomplete hdata
    refine hprompted.withPublisher (by rw [hphase]; exact Publisher.Phase.noConfusion) rfl rfl rfl
      Publisher.Phase.noConfusion ?_ (fun _ => hdata rfl) Publisher.Phase.noConfusion rfl
      Publisher.Phase.noConfusion
    simp only [Complete, hcomplete, show state.sent = [] from hprogress]
    exact ⟨rfl, rfl⟩
  · rw [hphase] at hcomplete hdata
    exact hprompted.withPublisher (by rw [hphase]; exact Publisher.Phase.noConfusion) rfl rfl rfl
      Publisher.Phase.noConfusion hcomplete (fun _ => hdata rfl) Publisher.Phase.noConfusion rfl
      Publisher.Phase.noConfusion

theorem Prompted.nextSample {parameters : Parameters} {state : State n} {next : Publisher}
    {commands : List TestCommand} {written : Bool} (hprompted : Prompted parameters state)
    (hmeasuring : Measuring parameters state)
    (hsamples : parameters.samples.toNat + 2 < 2 ^ 32)
    (hnext : state.publisher.nextSample parameters written = some (next, commands)) :
    Prompted parameters (state.publish (next, commands)) := by
  have hprogress := hmeasuring.progress
  have hcomplete := hprompted.complete
  have hdata := hprompted.data
  unfold Progress at hprogress
  unfold Complete at hcomplete
  obtain ⟨hphase, hdone⟩ := Publisher.nextSample_eq_some_iff.mp hnext
  rw [hphase] at hprogress hcomplete hdata
  by_cases hcount : state.publisher.count ≤ parameters.samples + 1
  · rw [if_pos hcount] at hdone
    cases hdone
    apply Prompted.publish
    refine hprompted.fill (by rw [hphase]; rfl) ?_ (fun hresetting => ?_)
      hprompted.dangling.1 rfl
    · dsimp only
      split_ifs <;> rfl
    · dsimp only at hresetting
      split_ifs at hresetting
  · rw [if_neg hcount] at hdone
    cases hdone
    have hsum : (parameters.samples + 1).toNat = parameters.samples.toNat + 1 := by
      rw [UInt32.toNat_add, UInt32.toNat_one, Nat.mod_eq_of_lt (by omega)]
    rw [UInt32.le_iff_toNat_le, hsum] at hcount
    apply Prompted.publish
    refine hprompted.withPublisher (by rw [hphase]; exact Publisher.Phase.noConfusion) rfl rfl
      rfl Publisher.Phase.noConfusion ⟨?_, hcomplete.2⟩ (fun _ => hdata rfl)
      Publisher.Phase.noConfusion rfl Publisher.Phase.noConfusion
    have hlength := hcomplete.1
    have hle := hprogress.1
    omega

/-- A sample is sent when all echoes of the one before have been handled. -/
theorem Prompted.write {parameters : Parameters} {state next : State n} {written : Bool}
    (hprompted : Prompted parameters state) (hmeasuring : Measuring parameters state)
    (hrounds : Rounds parameters state) (hwrite : writeStep parameters state written = some next) :
    Prompted parameters next := by
  have hprogress := hmeasuring.progress
  have hcomplete := hprompted.complete
  have hdata := hprompted.data
  unfold Progress at hprogress
  unfold Complete at hcomplete
  obtain ⟨⟨publisher, samples⟩, hpublisher, rfl⟩ := Option.map_eq_some_iff.mp hwrite
  obtain ⟨hphase, hdone⟩ := Publisher.write_eq_some_iff.mp hpublisher
  split_ifs at hdone
  · rw [hphase] at hprogress hcomplete hdata
    have hsettled := hprompted.settled (by rw [hphase]; exact Publisher.Phase.noConfusion)
    cases hdone
    dsimp only [State.withPublisher, List.map_cons, List.map_nil]
    constructor
    case numbers =>
      rw [List.map_append, hprompted.numbers, List.length_append]
      simp only [List.map_cons, List.map_nil, List.length_singleton]
      rw [List.range'_concat, hprogress.2, hcomplete.1]
      simp [Nat.add_comm]
    case echoes =>
      intro index
      dsimp only
      rw [List.take_append_of_le_length (hprompted.position_le index)]
      exact hprompted.echoes index
    case position_le =>
      intro index
      rw [List.length_append]
      exact (hprompted.position_le index).trans (Nat.le_add_right _ _)
    case echoed_le => exact hprompted.echoed_le
    case waiting =>
      intro _
      constructor
      case count =>
        rw [List.length_append]
        exact hcomplete.1
      case echoed =>
        intro index
        rw [List.length_append]
        exact Nat.succ_le_succ (hsettled.echoed index).ge
      case answered =>
        have hempty : (Finset.univ.filter fun index =>
            (state.channels index).echoed = state.sent.length + 1) = ∅ := by
          rw [Finset.filter_eq_empty_iff]
          intro index _ hnew
          have hold := hsettled.echoed index
          omega
        simp only [List.length_append, List.length_map, List.length_singleton, hempty,
          Finset.card_empty, hsettled.dataMsgCount, hsettled.handling, Option.isSome_none,
          Bool.false_eq_true, if_false]
      case handling =>
        intro echo hsome
        dsimp only at hsome
        rw [hsettled.handling] at hsome
        cases hsome
      case times =>
        unfold Publisher.Echoed
        dsimp only
        rw [hsettled.handling]
        refine Or.inl ⟨hsettled.dataMsgCount, hprogress.1.seqnumOut, ?_⟩
        rw [List.length_append]
        exact hcomplete.2
    case settled => exact fun hnot => absurd rfl hnot
    case complete => trivial
    case fresh =>
      intro index hpreparing
      have hstop := (hrounds.awaitStop (by rw [hphase]; rfl) index).1
      dsimp only at hpreparing
      rw [hstop] at hpreparing
      cases hpreparing
    case data => exact fun _ => hdata rfl
    case resets => exact Publisher.Phase.noConfusion
    case dangling => exact hprompted.dangling
    case stats => exact hprompted.stats
    case defined => exact Publisher.Phase.noConfusion
  · cases hdone
    simp only [List.map_nil, List.append_nil]
    exact hprompted.withPublisher (by rw [hphase]; exact Publisher.Phase.noConfusion) rfl rfl rfl
      Publisher.Phase.noConfusion trivial Bool.noConfusion Publisher.Phase.noConfusion rfl
      Publisher.Phase.noConfusion

/-- The wait ends when every subscriber has echoed the sample and the listener has
handled the echo. -/
theorem Waiting.all_echoed {parameters : Parameters} {state : State n}
    (hwaiting : Waiting parameters state) (hcount : n ≤ state.publisher.dataMsgCount) :
    state.publisher.handling = none ∧
      ∀ index, (state.channels index).echoed = state.sent.length := by
  have hanswered := hwaiting.answered
  have hle := Finset.card_le_univ
    (Finset.univ.filter fun index => (state.channels index).echoed = state.sent.length)
  rw [Fintype.card_fin] at hle
  constructor
  · cases hhandling : state.publisher.handling with
    | none => rfl
    | some echo =>
        rw [hhandling, Option.isSome_some, if_pos rfl] at hanswered
        omega
  · have hfull : (Finset.univ.filter fun index =>
        (state.channels index).echoed = state.sent.length) = Finset.univ := by
      refine Finset.eq_univ_of_card _ ?_
      rw [Fintype.card_fin]
      omega
    intro index
    have hmem := Finset.mem_univ index
    rw [← hfull] at hmem
    exact (Finset.mem_filter.mp hmem).2

theorem Prompted.goOn {parameters : Parameters} {state : State n} {next : Publisher}
    {timeout : Bool} (hprompted : Prompted parameters state)
    (hmeasuring : Measuring parameters state) (hn : 0 < n)
    (hsamples : parameters.samples.toNat + 2 < 2 ^ 32)
    (hgoOn : state.publisher.goOn n timeout = some next) (htimeout : timeout = false) :
    Prompted parameters (state.withPublisher next) := by
  have hprogress := hmeasuring.progress
  have hdata := hprompted.data
  unfold Progress at hprogress
  obtain ⟨⟨hphase, -, hcome⟩, rfl⟩ := Publisher.goOn_eq_some_iff.mp hgoOn
  have hcount : n ≤ state.publisher.dataMsgCount :=
    hcome.resolve_right (ne_true_of_eq_false htimeout)
  have hwaiting := hprompted.waiting hphase
  obtain ⟨hhandling, hechoed⟩ := hwaiting.all_echoed hcount
  rw [hphase] at hprogress hdata
  constructor
  case numbers => exact hprompted.numbers
  case echoes => exact hprompted.echoes
  case position_le => exact hprompted.position_le
  case echoed_le => exact hprompted.echoed_le
  case waiting => exact Publisher.Phase.noConfusion
  case settled => exact fun _ => ⟨hhandling, rfl, hechoed⟩
  case complete =>
    refine ⟨?_, ?_⟩
    · dsimp only [State.withPublisher]
      rw [toNat_count_succ hprogress.1 hsamples, hwaiting.count]
    · have htimes := hwaiting.times
      unfold Publisher.Echoed at htimes
      rw [hhandling] at htimes
      rcases htimes with ⟨hzero, -⟩ | ⟨-, -, hmeasured⟩
      · omega
      · exact hmeasured
  case fresh => exact hprompted.fresh
  case data => exact fun _ => hdata rfl
  case resets => exact Publisher.Phase.noConfusion
  case dangling => exact hprompted.dangling
  case stats => exact hprompted.stats
  case defined => exact Publisher.Phase.noConfusion

/-! ## The steps of the listeners -/

/-- The echoes of a subscriber are numbered like the samples. -/
theorem Prompted.number_eq {parameters : Parameters} {state : State n}
    (hprompted : Prompted parameters state) {index : Fin n} {echo : LatencyType} {place : ℕ}
    (hecho : (state.channels index).echoes[place]? = some echo) :
    echo.seqnum.toNat = place + 1 := by
  have hmapped : ((state.channels index).echoes.map LatencyType.seqnum)[place]? =
      some echo.seqnum := by
    rw [List.getElem?_map, hecho]
    rfl
  rw [hprompted.echoes index, List.getElem?_map] at hmapped
  obtain ⟨sample, hsample, hsame⟩ := Option.map_eq_some_iff.mp hmapped
  rw [List.getElem?_take] at hsample
  split_ifs at hsample
  have hless := (List.getElem?_eq_some_iff.mp hsample).1
  have hnumber : (state.sent.map fun sample => sample.1.seqnum.toNat)[place]? =
      some echo.seqnum.toNat := by
    rw [List.getElem?_map, hsample, ← hsame]
    rfl
  rw [hprompted.numbers, List.getElem?_range' hless, Option.some.injEq] at hnumber
  omega

/-- An echo that is still to come is of the last sample, which the publisher waits for. -/
theorem Prompted.last_echo {parameters : Parameters} {state : State n} {index : Fin n}
    {echo : LatencyType} (hprompted : Prompted parameters state)
    (hecho : (state.channels index).echoes[(state.channels index).echoed]? = some echo) :
    state.publisher.phase = .waiting ∧ (state.channels index).echoed + 1 = state.sent.length ∧
      echo.seqnum = state.publisher.count := by
  have hless := (List.getElem?_eq_some_iff.mp hecho).1
  have hphase : state.publisher.phase = .waiting := by
    by_contra hnot
    have hechoed := (hprompted.position_eq hnot index).2
    omega
  have hwaiting := hprompted.waiting hphase
  have hechoed := hwaiting.echoed index
  have hlength := hprompted.length_echoes index
  have hposition := hprompted.position_le index
  have hlast : (state.channels index).echoed + 1 = state.sent.length := by omega
  refine ⟨hphase, hlast, ?_⟩
  apply UInt32.toNat_inj.mp
  rw [hprompted.number_eq hecho, hwaiting.count, hlast]

/-- One more subscriber has echoed the last sample. -/
theorem Waiting.receive {parameters : Parameters} {state : State n} {index : Fin n}
    {echo : LatencyType} (hwaiting : Waiting parameters state)
    (hhandling : state.publisher.handling = none)
    (hlast : (state.channels index).echoed + 1 = state.sent.length)
    (hnumber : echo.seqnum = state.publisher.count) :
    Waiting parameters
      ((state.withPublisher (state.publisher.receive parameters echo)).withChannel index
        { state.channels index with echoed := (state.channels index).echoed + 1 }) := by
  have hother : ∀ other, (Function.update state.channels index
      { state.channels index with echoed := (state.channels index).echoed + 1 } other).echoed =
      if other = index then state.sent.length else (state.channels other).echoed := by
    intro other
    rw [Function.update_apply]
    split_ifs
    · exact hlast
    · rfl
  dsimp only [State.withPublisher, State.withChannel]
  constructor
  case count => exact hwaiting.count
  case echoed =>
    intro other
    dsimp only
    rw [hother]
    split_ifs
    · exact Nat.le_succ _
    · exact hwaiting.echoed other
  case answered =>
    have hfilter : (Finset.univ.filter fun other =>
        (if other = index then state.sent.length else (state.channels other).echoed) =
          state.sent.length) =
        insert index (Finset.univ.filter fun other =>
          (state.channels other).echoed = state.sent.length) := by
      ext other
      by_cases heq : other = index <;> simp [heq]
    have hnew : index ∉ Finset.univ.filter fun other =>
        (state.channels other).echoed = state.sent.length := by
      rw [Finset.mem_filter]
      omega
    have hanswered := hwaiting.answered
    rw [hhandling, Option.isSome_none, if_neg Bool.false_ne_true, Nat.add_zero] at hanswered
    simp only [hother]
    rw [hfilter, Finset.card_insert_of_notMem hnew, hanswered]
    rfl
  case handling =>
    intro found hfound
    cases hfound
    refine ⟨hnumber, ?_⟩
    rintro (hlocked | ⟨-, hloans⟩)
    · cases hlocked
    · simp only [Publisher.receive, hloans, Bool.false_eq_true, if_false, hnumber]
  case times =>
    have htimes := hwaiting.times
    unfold Publisher.Echoed at htimes
    rw [hhandling] at htimes
    exact htimes

theorem Prompted.receive {parameters : Parameters} {state next : State n} {index : Fin n}
    (hprompted : Prompted parameters state)
    (hreceive : receiveStep parameters state index = some next) :
    Prompted parameters next := by
  have hdata := hprompted.data
  simp only [receiveStep] at hreceive
  split at hreceive
  case h_2 => cases hreceive
  case h_1 size echo hendpoints hhandling hecho =>
    obtain ⟨hphase, hlast, hnumber⟩ := hprompted.last_echo hecho
    rw [hphase] at hdata
    cases hreceive
    constructor
    case numbers => exact hprompted.numbers
    case echoes =>
      intro other
      dsimp only [State.withPublisher, State.withChannel]
      rw [Function.update_apply]
      split_ifs with heq
      · rw [← heq]
        exact hprompted.echoes other
      · exact hprompted.echoes other
    case position_le =>
      intro other
      dsimp only [State.withPublisher, State.withChannel]
      rw [Function.update_apply]
      split_ifs
      · exact hprompted.position_le index
      · exact hprompted.position_le other
    case echoed_le =>
      intro other
      dsimp only [State.withPublisher, State.withChannel]
      rw [Function.update_apply]
      split_ifs
      · exact (List.getElem?_eq_some_iff.mp hecho).1
      · exact hprompted.echoed_le other
    case waiting =>
      exact fun _ => (hprompted.waiting hphase).receive hhandling hlast hnumber
    case settled => exact fun hnot => absurd hphase hnot
    case complete =>
      dsimp only [Complete, State.withPublisher, State.withChannel, Publisher.receive]
      rw [hphase]
      trivial
    case fresh => exact hprompted.fresh
    case data => exact fun _ => hdata rfl
    case resets =>
      intro hresetting
      exact Publisher.Phase.noConfusion (hphase.symm.trans hresetting)
    case dangling =>
      refine ⟨?_, hprompted.dangling.2⟩
      simp only [State.withPublisher, State.withChannel, Publisher.receive, hprompted.dangling.1,
        hdata rfl, Bool.not_true, Bool.and_false, Bool.or_false]
    case stats => exact hprompted.stats
    case defined =>
      dsimp only [State.withPublisher, State.withChannel, Publisher.receive]
      rw [hphase]
      exact Publisher.Phase.noConfusion

/-- The listener is at an echo only while the publisher waits. -/
theorem Prompted.waiting_of_handling {parameters : Parameters} {state : State n}
    {handling : Handling} (hprompted : Prompted parameters state)
    (hsome : state.publisher.handling = some handling) :
    state.publisher.phase = .waiting := by
  by_contra hnot
  rw [(hprompted.settled hnot).handling] at hsome
  cases hsome

/-- A step of the listener at the echo of the last sample. -/
theorem Prompted.listen {parameters : Parameters} {state : State n} {handling : Handling}
    (hprompted : Prompted parameters state)
    (hsome : state.publisher.handling = some handling) {next : Publisher}
    (hdangling : next.dangling = false)
    (hanswered : next.dataMsgCount + (if next.handling.isSome then 1 else 0) =
      state.publisher.dataMsgCount + 1)
    (hhandling : ∀ later, next.handling = some later → later.echo = handling.echo ∧
      (later.stage = .locked ∨ later.stage = .taken ∧ parameters.dataLoans = false →
        next.seqnumIn = some state.publisher.count))
    (htimes : next.Echoed state.sent.length)
    (hnext : next = { state.publisher with
      handling := next.handling
      seqnumIn := next.seqnumIn
      seqnumOut := next.seqnumOut
      dataMsgCount := next.dataMsgCount
      times := next.times
      receivedCount := next.receivedCount
      dangling := next.dangling }) : Prompted parameters (state.withPublisher next) := by
  have hfields : next.phase = state.publisher.phase ∧ next.count = state.publisher.count ∧
      next.data = state.publisher.data ∧ next.stats = state.publisher.stats := by
    rw [hnext]
    exact ⟨rfl, rfl, rfl, rfl⟩
  obtain ⟨hsame, hcount, hdata, hstats⟩ := hfields
  have hphase := hprompted.waiting_of_handling hsome
  have hwaiting := hprompted.waiting hphase
  constructor
  case numbers => exact hprompted.numbers
  case echoes => exact hprompted.echoes
  case position_le => exact hprompted.position_le
  case echoed_le => exact hprompted.echoed_le
  case waiting =>
    intro _
    constructor
    case count => exact (congrArg UInt32.toNat hcount).trans hwaiting.count
    case echoed => exact hwaiting.echoed
    case answered =>
      have hbefore := hwaiting.answered
      rw [hsome, Option.isSome_some, if_pos rfl] at hbefore
      exact hbefore.trans hanswered.symm
    case handling =>
      intro later hlater
      obtain ⟨hecho, hin⟩ := hhandling later hlater
      dsimp only [State.withPublisher]
      rw [hecho, hcount]
      exact ⟨(hwaiting.handling handling hsome).1, hin⟩
    case times => exact htimes
  case settled => exact fun hnot => absurd (hsame.trans hphase) hnot
  case complete =>
    unfold Complete
    dsimp only [State.withPublisher]
    rw [hsame, hphase]
    trivial
  case fresh => exact hprompted.fresh
  case data =>
    have hholds := hprompted.data
    rw [hphase] at hholds
    exact fun _ => hdata.trans (hholds rfl)
  case resets =>
    intro hresetting
    exact Publisher.Phase.noConfusion ((hsame.trans hphase).symm.trans hresetting)
  case dangling => exact ⟨hdangling, hprompted.dangling.2⟩
  case stats =>
    rw [State.withPublisher, hstats]
    exact hprompted.stats
  case defined =>
    rw [State.withPublisher, hsame, hphase]
    exact Publisher.Phase.noConfusion

/-- `latency_data_out_` is there while an echo is handled. -/
theorem Prompted.data_of_handling {parameters : Parameters} {state : State n}
    {handling : Handling} (hprompted : Prompted parameters state)
    (hsome : state.publisher.handling = some handling) : state.publisher.data = true := by
  have hdata := hprompted.data
  rw [hprompted.waiting_of_handling hsome] at hdata
  exact hdata rfl

theorem Prompted.lock {parameters : Parameters} {state : State n} {next : Publisher}
    (hprompted : Prompted parameters state)
    (hlock : state.publisher.lock parameters = some next) :
    Prompted parameters (state.withPublisher next) := by
  obtain ⟨echo, hsome, rfl⟩ := Publisher.lock_cases hlock
  have hwaiting := hprompted.waiting (hprompted.waiting_of_handling hsome)
  obtain ⟨hnumber, hin⟩ := hwaiting.handling _ hsome
  have htimes := hwaiting.times
  unfold Publisher.Echoed at htimes
  rw [hsome] at htimes
  refine hprompted.listen hsome hprompted.dangling.1 rfl (fun later hlater => ?_) htimes rfl
  cases hlater
  refine ⟨rfl, fun _ => ?_⟩
  cases hloans : parameters.dataLoans with
  | true => exact congrArg some hnumber
  | false => exact hin (Or.inr ⟨rfl, hloans⟩)

/-- Only the first echo of the last sample is expected. -/
theorem Prompted.compare {parameters : Parameters} {state : State n} {next : Publisher}
    (hprompted : Prompted parameters state) (hmeasuring : Measuring parameters state)
    (hcompare : state.publisher.compare = some next) :
    Prompted parameters (state.withPublisher next) := by
  obtain ⟨echo, hsome, rfl⟩ := Publisher.compare_cases hcompare
  have hwaiting := hprompted.waiting (hprompted.waiting_of_handling hsome)
  obtain ⟨hnumber, hin⟩ := hwaiting.handling _ hsome
  have hseqnumIn := hin (Or.inl rfl)
  obtain ⟨⟨sample, hsample, hsame⟩, -⟩ := hmeasuring.handling _ hsome
  have hnonzero : state.publisher.count ≠ 0 := by
    intro hzero
    have hpositive := (hmeasuring.numbers sample hsample).1
    rw [hsame, hnumber, hzero] at hpositive
    exact Nat.lt_irrefl 0 hpositive
  have htimes := hwaiting.times
  unfold Publisher.Echoed at htimes
  rw [hsome] at htimes
  refine hprompted.listen hsome ?_ rfl (fun later hlater => ?_) ?_ rfl
  · dsimp only
    rw [hprompted.dangling.1, hprompted.data_of_handling hsome, hseqnumIn]
    rfl
  · cases hlater
    refine ⟨rfl, ?_⟩
    dsimp only
    split_ifs <;> rintro (hstage | ⟨hstage, -⟩) <;> cases hstage
  · unfold Publisher.Echoed
    dsimp only
    rcases htimes with hfirst | ⟨hcounted, hrest⟩
    · rw [if_pos (by rw [hseqnumIn, hfirst.2.1])]
      exact hfirst
    · rw [if_neg (by rw [hseqnumIn, hrest.1, Option.some.injEq]; exact hnonzero)]
      exact hrest

/-- The first echo of a sample is recorded. -/
theorem Waiting.record {parameters : Parameters} {state : State n} {time : Measurement}
    {stage : Handling.Stage} (hwaiting : Waiting parameters state)
    (hhandling : state.publisher.handling = some ⟨time.echo, stage⟩)
    (hsent : 0 < state.sent.length)
    (htimes : state.publisher.times.map Measurement.number =
      List.range' 1 (state.sent.length - 1)) :
    (state.publisher.times ++ [time]).map Measurement.number =
      List.range' 1 state.sent.length := by
  obtain ⟨before, hbefore⟩ := Nat.exists_eq_succ_of_ne_zero hsent.ne'
  have hnumber : time.echo.seqnum.toNat = state.sent.length := by
    rw [(hwaiting.handling _ hhandling).1, hwaiting.count]
  rw [List.map_append, htimes, List.map_singleton, Measurement.number, hnumber, hbefore,
    Nat.succ_sub_one, Nat.succ_eq_add_one, List.range'_1_concat, Nat.add_comm 1 before]

theorem Prompted.measure {parameters : Parameters} {state : State n} {next : Publisher}
    {now : ℤ} {positive long : Bool} (hprompted : Prompted parameters state)
    (hmeasuring : Measuring parameters state)
    (hmeasure : state.publisher.measure parameters now positive long = some next)
    (hkept : (positive && !(parameters.dataLoans && long)) = true) :
    Prompted parameters (state.withPublisher next) := by
  obtain ⟨echo, hsome, hnext⟩ := Publisher.measure_cases hmeasure
  obtain ⟨-, rfl⟩ := hnext.resolve_right fun hlost => Bool.false_ne_true (hlost.1.symm.trans hkept)
  have hwaiting := hprompted.waiting (hprompted.waiting_of_handling hsome)
  obtain ⟨⟨sample, hsample, -⟩, -⟩ := hmeasuring.handling _ hsome
  have htimes := hwaiting.times
  unfold Publisher.Echoed at htimes
  rw [hsome] at htimes
  obtain ⟨hzero, hout, hmeasured⟩ := htimes
  refine hprompted.listen hsome hprompted.dangling.1 rfl (fun later hlater => ?_) ?_ rfl
  · cases hlater
    refine ⟨rfl, ?_⟩
    rintro (hstage | ⟨hstage, -⟩) <;> cases hstage
  · exact ⟨hzero, hout, hwaiting.record hsome (List.length_pos_of_mem hsample) hmeasured⟩

theorem Prompted.clear {parameters : Parameters} {state : State n} {next : Publisher}
    (hprompted : Prompted parameters state) (hclear : state.publisher.clear = some next) :
    Prompted parameters (state.withPublisher next) := by
  obtain ⟨echo, hsome, rfl⟩ := Publisher.clear_cases hclear
  have htimes := (hprompted.waiting (hprompted.waiting_of_handling hsome)).times
  unfold Publisher.Echoed at htimes
  rw [hsome] at htimes
  obtain ⟨-, -, hmeasured⟩ := htimes
  refine hprompted.listen hsome ?_ rfl (fun later hlater => ?_) ⟨rfl, hmeasured⟩ rfl
  · dsimp only
    rw [hprompted.dangling.1, hprompted.data_of_handling hsome]
    rfl
  · cases hlater
    refine ⟨rfl, ?_⟩
    rintro (hstage | ⟨hstage, -⟩) <;> cases hstage

theorem Prompted.unlock {parameters : Parameters} {state : State n} {next : Publisher}
    (hprompted : Prompted parameters state)
    (hunlock : state.publisher.unlock parameters = some next) :
    Prompted parameters (state.withPublisher next) := by
  obtain ⟨echo, hsome, rfl⟩ := Publisher.unlock_cases hunlock
  have htimes := (hprompted.waiting (hprompted.waiting_of_handling hsome)).times
  unfold Publisher.Echoed at htimes
  rw [hsome] at htimes
  exact hprompted.listen hsome hprompted.dangling.1 rfl (fun _ hnone => by cases hnone)
    (Or.inr ⟨Nat.succ_pos _, htimes⟩) rfl

/-! ## The end of a payload -/

/-- `analyze_times` leaves out the first measurement. -/
theorem Prompted.remove {parameters : Parameters} {state : State n} {next : Publisher}
    {removed : Bool} (hprompted : Prompted parameters state)
    (hsamples : 0 < parameters.samples.toNat)
    (hremove : state.publisher.remove removed = some next) :
    Prompted parameters (state.withPublisher next) := by
  have hcomplete := hprompted.complete
  unfold Complete at hcomplete
  obtain ⟨hphase, -, size, rest, -, hgone⟩ := Publisher.remove_cases hremove
  rw [hphase] at hcomplete
  obtain ⟨hlength, hnumbers⟩ := hcomplete
  rw [hlength] at hnumbers
  have hsettled := hprompted.settled (by rw [hphase]; exact Publisher.Phase.noConfusion)
  rcases hgone with ⟨first, time, times, htimes, rfl⟩ | ⟨hshort, -⟩ | rfl
  · rw [htimes, List.map_cons, List.range'_succ, List.cons.injEq] at hnumbers
    constructor
    case numbers => exact hprompted.numbers
    case echoes => exact hprompted.echoes
    case position_le => exact hprompted.position_le
    case echoed_le => exact hprompted.echoed_le
    case waiting =>
      intro hwaiting
      simp only [State.withPublisher, Publisher.nextPayload] at hwaiting
      split_ifs at hwaiting
    case settled => exact fun _ => ⟨hsettled.handling, hsettled.dataMsgCount, hsettled.echoed⟩
    case complete =>
      simp only [Complete, State.withPublisher, Publisher.nextPayload]
      split_ifs <;> trivial
    case fresh => exact hprompted.fresh
    case data =>
      simp only [State.withPublisher, Publisher.nextPayload]
      split_ifs <;> exact Bool.noConfusion
    case resets =>
      intro hresetting
      simp only [State.withPublisher, Publisher.nextPayload] at hresetting
      split_ifs at hresetting
    case dangling => exact hprompted.dangling
    case stats =>
      intro entry hmem
      rcases List.mem_append.mp hmem with hold | hnew
      · exact hprompted.stats entry hold
      · rw [List.mem_singleton.mp hnew]
        exact hnumbers.2
    case defined =>
      simp only [State.withPublisher, Publisher.nextPayload]
      split_ifs <;> exact Publisher.Phase.noConfusion
  · have hcount := congrArg List.length hnumbers
    rw [List.length_map, List.length_range'] at hcount
    omega
  · exact hprompted.withPublisher (by rw [hphase]; exact Publisher.Phase.noConfusion) rfl rfl
      rfl Publisher.Phase.noConfusion trivial Bool.noConfusion Publisher.Phase.noConfusion rfl
      Publisher.Phase.noConfusion

/-! ## The steps of a subscriber -/

/-- A subscriber moves, and the endpoints stay. -/
theorem Prompted.withSubscriber {parameters : Parameters} {state : State n}
    (hprompted : Prompted parameters state) {index : Fin n} {subscriber : Subscriber}
    (hfresh : subscriber.phase = .preparing → state.sent = [])
    (hdangling : subscriber.dangling = (state.subscribers index).dangling) :
    Prompted parameters (state.withSubscriber index subscriber) where
  numbers := hprompted.numbers
  echoes := hprompted.echoes
  position_le := hprompted.position_le
  echoed_le := hprompted.echoed_le
  waiting := fun hphase =>
    let hwaiting := hprompted.waiting hphase
    ⟨hwaiting.count, hwaiting.echoed, hwaiting.answered, hwaiting.handling, hwaiting.times⟩
  settled := fun hphase =>
    let hsettled := hprompted.settled hphase
    ⟨hsettled.handling, hsettled.dataMsgCount, hsettled.echoed⟩
  complete := hprompted.complete
  fresh := by
    intro other
    dsimp only [State.withSubscriber]
    rw [Function.update_apply]
    split_ifs
    · exact hfresh
    · exact hprompted.fresh other
  data := hprompted.data
  resets := hprompted.resets
  dangling := by
    refine ⟨hprompted.dangling.1, fun other => ?_⟩
    dsimp only [State.withSubscriber]
    rw [Function.update_apply]
    split_ifs
    · exact hdangling.trans (hprompted.dangling.2 index)
    · exact hprompted.dangling.2 other
  stats := hprompted.stats
  defined := hprompted.defined

/-- The channel of a subscriber changes, but no echo comes in. -/
theorem Prompted.withChannel {parameters : Parameters} {state : State n}
    (hprompted : Prompted parameters state) {index : Fin n} {channel : Channel}
    (hechoes : channel.echoes.map LatencyType.seqnum =
      (state.sent.take channel.position).map fun sample => sample.1.seqnum)
    (hposition : channel.position ≤ state.sent.length)
    (hle : channel.echoed ≤ channel.echoes.length)
    (hechoed : channel.echoed = (state.channels index).echoed) :
    Prompted parameters (state.withChannel index channel) := by
  have hsame : ∀ other, (Function.update state.channels index channel other).echoed =
      (state.channels other).echoed := by
    intro other
    rw [Function.update_apply]
    split_ifs with heq
    · rw [hechoed, heq]
    · rfl
  dsimp only [State.withChannel]
  constructor
  case numbers => exact hprompted.numbers
  case echoes =>
    intro other
    dsimp only
    rw [Function.update_apply]
    split_ifs
    · exact hechoes
    · exact hprompted.echoes other
  case position_le =>
    intro other
    dsimp only
    rw [Function.update_apply]
    split_ifs
    · exact hposition
    · exact hprompted.position_le other
  case echoed_le =>
    intro other
    dsimp only
    rw [Function.update_apply]
    split_ifs
    · exact hle
    · exact hprompted.echoed_le other
  case waiting =>
    intro hphase
    have hwaiting := hprompted.waiting hphase
    refine ⟨hwaiting.count, ?_, ?_, hwaiting.handling, hwaiting.times⟩
    · simp only [hsame]
      exact hwaiting.echoed
    · simp only [hsame]
      exact hwaiting.answered
  case settled =>
    intro hphase
    obtain ⟨hhandling, hzero, hall⟩ := hprompted.settled hphase
    refine ⟨hhandling, hzero, ?_⟩
    simp only [hsame]
    exact hall
  case complete => exact hprompted.complete
  case fresh => exact hprompted.fresh
  case data => exact hprompted.data
  case resets => exact hprompted.resets
  case dangling => exact hprompted.dangling
  case stats => exact hprompted.stats
  case defined => exact hprompted.defined

/-- A subscriber that waits for `READY` has one only while the publisher waits
for the answers to it. -/
theorem Rounds.awaitReady {parameters : Parameters} {state : State n}
    (hrounds : Rounds parameters state) {index : Fin n}
    (hphase : (state.subscribers index).phase = .awaitReady)
    (hcome : (state.subscribers index).commandMsgCount ≠ 0) :
    state.publisher.phase = .discovery ∨ state.publisher.phase = .awaitBegin := by
  obtain ⟨other, hstands⟩ := (hrounds.placed index).stands (by
    rw [hphase]
    exact Subscriber.Phase.noConfusion)
  have hanswered := hstands.answered
  have hwaited := hstands.waited
  have hheard := hrounds.heard index
  have hhears := hrounds.hears index
  rw [hphase] at hanswered hwaited
  simp only [Subscriber.Phase.answered, Subscriber.Phase.waited] at hanswered hwaited
  cases hended : state.publisher.phase.ended with
  | true =>
      have hlog := hrounds.ended hended index
      omega
  | false =>
      obtain ⟨done, hturn⟩ := hrounds.turn hended
      have hlog := hturn.log
      have hpublisher := hturn.heard index
      cases hcase : state.publisher.phase <;>
        simp only [hcase, Publisher.Phase.asked, Publisher.Phase.awaiting, if_true,
          Bool.false_eq_true, if_false] at hlog hpublisher
      case discovery => exact Or.inl rfl
      case awaitBegin => exact Or.inr rfl
      all_goals omega

theorem Prompted.subscriberCommandCome {parameters : Parameters} {state : State n}
    {index : Fin n} {next : Subscriber} (hprompted : Prompted parameters state)
    (hmeasuring : Measuring parameters state) (hrounds : Rounds parameters state)
    (hcome : (state.subscribers index).commandCome = some next) :
    Prompted parameters (state.withSubscriber index next) := by
  have hprogress := hmeasuring.progress
  unfold Progress at hprogress
  obtain ⟨hcount, hnext⟩ := Subscriber.commandCome_cases hcome
  rcases hnext with ⟨hphase, rfl⟩ | ⟨-, rfl⟩
  · refine hprompted.withSubscriber (fun _ => ?_) rfl
    rcases hrounds.awaitReady hphase hcount with hasked | hasked <;> rw [hasked] at hprogress
    · exact hprogress
    · exact hprogress
  · exact hprompted.withSubscriber Subscriber.Phase.noConfusion rfl

/-- The endpoints of a subscriber are new while there are no samples yet. -/
theorem Prompted.subscriberPrepare {parameters : Parameters} {state next : State n}
    {index : Fin n} {prepared : Bool} (hprompted : Prompted parameters state)
    (hrounds : Rounds parameters state)
    (hprepare : subscriberPrepareStep state index prepared = some next) :
    Prompted parameters next := by
  obtain ⟨subscriber, hsubscriber, rfl⟩ := Option.map_eq_some_iff.mp hprepare
  obtain ⟨hpreparing, size, rest, -, hnext⟩ := Subscriber.prepare_cases hsubscriber
  have hnone := hprompted.fresh index hpreparing
  have hphase : state.publisher.phase ≠ .waiting := by
    intro hwaiting
    have hstop := (hrounds.awaitStop (by rw [hwaiting]; rfl) index).1
    rw [hpreparing] at hstop
    cases hstop
  obtain ⟨hhandling, hzero, hechoed⟩ := hprompted.settled hphase
  have hmoved : Prompted parameters (state.withSubscriber index subscriber) := by
    rcases hnext with ⟨-, rfl⟩ | rfl
    · exact hprompted.withSubscriber Subscriber.Phase.noConfusion rfl
    · exact hprompted.withSubscriber Subscriber.Phase.noConfusion rfl
  refine hmoved.withChannel rfl (Nat.zero_le _) (Nat.zero_le _) ?_
  change 0 = (state.channels index).echoed
  rw [hechoed index, hnone]
  rfl

/-- A sample is echoed while the publisher waits for the echoes. -/
theorem Prompted.echo {parameters : Parameters} {state next : State n} {index : Fin n}
    {bounce : UInt32} {written : Bool} (hprompted : Prompted parameters state)
    (hrounds : Rounds parameters state) (hechoing : parameters.echo = true)
    (hecho : echoStep parameters state index bounce written = some next)
    (hwritten : written = true) : Prompted parameters next := by
  simp only [echoStep] at hecho
  split at hecho
  case h_2 => cases hecho
  case h_1 size sample start hendpoints hsample =>
    have hless := (List.getElem?_eq_some_iff.mp hsample).1
    have hphase : state.publisher.phase = .waiting := by
      by_contra hnot
      have hposition := (hprompted.position_eq hnot index).1
      omega
    have hwaiting := hprompted.waiting hphase
    obtain ⟨hstop, done, hstands⟩ := hrounds.awaitStop (by rw [hphase]; rfl) index
    have hdata : (state.subscribers index).data = true := hstands.data (by rw [hstop]; rfl)
    have hmoved : Prompted parameters
        (state.withSubscriber index ((state.subscribers index).useData parameters)) := by
      unfold Subscriber.useData
      split_ifs
      · exact hprompted.withSubscriber (hprompted.fresh index) rfl
      · refine hprompted.withSubscriber (hprompted.fresh index) ?_
        rw [hdata, Bool.not_true, Bool.or_false]
    rw [hechoing, hwritten, Bool.and_self, if_pos rfl] at hecho
    cases hecho
    refine hmoved.withChannel ?_ hless ?_ rfl
    · dsimp only [State.withSubscriber]
      rw [List.map_append, List.map_singleton, hprompted.echoes index, List.take_add_one, hsample,
        Option.toList_some, List.map_append, List.map_singleton]
    · rw [List.length_append]
      exact (hprompted.echoed_le index).trans (Nat.le_add_right _ _)

/-- The listener is done with an echo when the publisher goes on. -/
theorem Prompted.undisturbed {parameters : Parameters} {state next : State n} {action : Action n}
    (hprompted : Prompted parameters state)
    (hstep : CppProj.LatencyTest.step parameters state action = some next) :
    Undisturbed parameters state action := by
  rintro written rfl -
  obtain ⟨done, hnext, -⟩ := Option.map_eq_some_iff.mp hstep
  obtain ⟨hphase, -⟩ := Publisher.nextSample_eq_some_iff.mp hnext
  have hsettled := hprompted.settled (by rw [hphase]; exact Publisher.Phase.noConfusion)
  rw [Publisher.expecting, hsettled.handling]
  rfl

/-! ## Every step -/

theorem Prompted.step {parameters : Parameters} {state next : State n} {action : Action n}
    (hn : 0 < n) (hechoing : parameters.echo = true) (hfirst : 0 < parameters.samples.toNat)
    (hsamples : parameters.samples.toNat + 2 < 2 ^ 32) (hprompted : Prompted parameters state)
    (hrounds : Rounds parameters state) (hmeasuring : Measuring parameters state)
    (hprompt : Prompt parameters action)
    (hstep : CppProj.LatencyTest.step parameters state action = some next) :
    Prompted parameters next := by
  have hcomplete := hprompted.complete
  have hdata := hprompted.data
  unfold Complete at hcomplete
  cases action with
  | prepare prepared => exact hprompted.prepare hstep
  | ready written =>
      obtain ⟨⟨publisher, commands⟩, hready, rfl⟩ := Option.map_eq_some_iff.mp hstep
      exact hprompted.ready hready
  | discovered =>
      simp only [CppProj.LatencyTest.step, discoveredStep] at hstep
      split_ifs at hstep with hdiscovered
      obtain ⟨hphase, -⟩ := hdiscovered
      rw [hphase] at hcomplete hdata
      cases hstep
      exact hprompted.withPublisher (by rw [hphase]; exact Publisher.Phase.noConfusion) rfl rfl
        rfl Publisher.Phase.noConfusion hcomplete (fun _ => hdata rfl)
        Publisher.Phase.noConfusion rfl Publisher.Phase.noConfusion
  | hear index =>
      simp only [CppProj.LatencyTest.step, hearStep] at hstep
      split at hstep
      case h_2 => cases hstep
      case h_1 command hcommand hfree =>
        cases hstep
        constructor
        case numbers => exact hprompted.numbers
        case echoes => exact hprompted.echoes
        case position_le => exact hprompted.position_le
        case echoed_le => exact hprompted.echoed_le
        case waiting =>
          intro hphase
          obtain ⟨hcount, hechoed, hanswered, hhandling, htimes⟩ := hprompted.waiting hphase
          exact ⟨hcount, hechoed, hanswered, hhandling, htimes⟩
        case settled =>
          intro hphase
          obtain ⟨hhandling, hzero, hechoed⟩ := hprompted.settled hphase
          exact ⟨hhandling, hzero, hechoed⟩
        case complete => exact hprompted.complete
        case fresh => exact hprompted.fresh
        case data => exact hdata
        case resets => exact hprompted.resets
        case dangling => exact hprompted.dangling
        case stats => exact hprompted.stats
        case defined => exact hprompted.defined
  | commandsCome =>
      obtain ⟨publisher, hcome, rfl⟩ := Option.map_eq_some_iff.mp hstep
      exact hprompted.commandsCome hmeasuring hcome
  | nextSample written =>
      obtain ⟨⟨publisher, commands⟩, hnext, rfl⟩ := Option.map_eq_some_iff.mp hstep
      exact hprompted.nextSample hmeasuring hsamples hnext
  | loseSample | loseEcho => exact hprompt.elim
  | release =>
      obtain ⟨publisher, hrelease, rfl⟩ := Option.map_eq_some_iff.mp hstep
      obtain ⟨hphase, rfl⟩ := Publisher.release_eq_some_iff.mp hrelease
      exact hprompted.fill (by rw [hphase]; rfl) rfl Publisher.Phase.noConfusion
        hprompted.dangling.1 rfl
  | loan loaned =>
      obtain ⟨publisher, hloan, rfl⟩ := Option.map_eq_some_iff.mp hstep
      obtain ⟨hphase, rfl⟩ := Publisher.loan_eq_some_iff.mp hloan
      rw [if_pos (show loaned = true from hprompt)]
      exact hprompted.fill (by rw [hphase]; rfl) rfl Publisher.Phase.noConfusion
        hprompted.dangling.1 rfl
  | check =>
      obtain ⟨publisher, hcheck, rfl⟩ := Option.map_eq_some_iff.mp hstep
      obtain ⟨hphase, rfl⟩ := Publisher.check_eq_some_iff.mp hcheck
      refine hprompted.fill (by rw [hphase]; rfl) ?_ (fun hresetting => ?_)
        hprompted.dangling.1 rfl
      · dsimp only
        split_ifs <;> rfl
      · dsimp only at hresetting ⊢
        by_contra hnull
        rw [if_neg hnull] at hresetting
        cases hresetting
  | reset =>
      obtain ⟨publisher, hreset, rfl⟩ := Option.map_eq_some_iff.mp hstep
      obtain ⟨hphase, rfl⟩ := Publisher.reset_eq_some_iff.mp hreset
      refine hprompted.fill (by rw [hphase]; rfl) rfl Publisher.Phase.noConfusion ?_ rfl
      obtain ⟨seqnum, hseqnum⟩ := Option.isSome_iff_exists.mp (hprompted.resets hphase)
      dsimp only
      rw [hprompted.dangling.1, hseqnum]
      rfl
  | start now =>
      obtain ⟨publisher, hstart, rfl⟩ := Option.map_eq_some_iff.mp hstep
      obtain ⟨hphase, rfl⟩ := Publisher.start_eq_some_iff.mp hstart
      exact hprompted.fill (by rw [hphase]; rfl) rfl Publisher.Phase.noConfusion
        hprompted.dangling.1 rfl
  | write written => exact hprompted.write hmeasuring hrounds hstep
  | goOn timeout =>
      obtain ⟨publisher, hgoOn, rfl⟩ := Option.map_eq_some_iff.mp hstep
      exact hprompted.goOn hmeasuring hn hsamples hgoOn hprompt
  | receive index => exact hprompted.receive hstep
  | lock =>
      obtain ⟨publisher, hlock, rfl⟩ := Option.map_eq_some_iff.mp hstep
      exact hprompted.lock hlock
  | compare =>
      obtain ⟨publisher, hcompare, rfl⟩ := Option.map_eq_some_iff.mp hstep
      exact hprompted.compare hmeasuring hcompare
  | measure now positive long =>
      obtain ⟨publisher, hmeasure, rfl⟩ := Option.map_eq_some_iff.mp hstep
      exact hprompted.measure hmeasuring hmeasure hprompt
  | clear =>
      obtain ⟨publisher, hclear, rfl⟩ := Option.map_eq_some_iff.mp hstep
      exact hprompted.clear hclear
  | unlock =>
      obtain ⟨publisher, hunlock, rfl⟩ := Option.map_eq_some_iff.mp hstep
      exact hprompted.unlock hunlock
  | deleteData =>
      obtain ⟨publisher, hdelete, rfl⟩ := Option.map_eq_some_iff.mp hstep
      obtain ⟨hphase, rfl⟩ := Publisher.deleteData_eq_some_iff.mp hdelete
      rw [hphase] at hcomplete
      exact hprompted.withPublisher (by rw [hphase]; exact Publisher.Phase.noConfusion) rfl rfl
        rfl Publisher.Phase.noConfusion hcomplete Bool.noConfusion
        Publisher.Phase.noConfusion rfl Publisher.Phase.noConfusion
  | remove removed =>
      obtain ⟨publisher, hremove, rfl⟩ := Option.map_eq_some_iff.mp hstep
      exact hprompted.remove hfirst hremove
  | subscriberHears index =>
      simp only [CppProj.LatencyTest.step, subscriberHearsStep] at hstep
      split at hstep
      case h_1 =>
        cases hstep
        exact hprompted.withSubscriber (hprompted.fresh index) rfl
      case h_2 => cases hstep
  | subscriberCommandCome index =>
      obtain ⟨subscriber, hcome, rfl⟩ := Option.map_eq_some_iff.mp hstep
      exact hprompted.subscriberCommandCome hmeasuring hrounds hcome
  | subscriberPrepare index prepared => exact hprompted.subscriberPrepare hrounds hstep
  | subscriberDiscovered index =>
      simp only [CppProj.LatencyTest.step, subscriberDiscoveredStep] at hstep
      split_ifs at hstep
      cases hstep
      exact hprompted.withSubscriber Subscriber.Phase.noConfusion rfl
  | subscriberBegin index written =>
      obtain ⟨subscriber, hbegin, rfl⟩ := Option.map_eq_some_iff.mp hstep
      obtain ⟨-, rfl⟩ := Subscriber.begin_eq_some_iff.mp hbegin
      split_ifs <;> exact hprompted.withSubscriber Subscriber.Phase.noConfusion rfl
  | echo index bounce written => exact hprompted.echo hrounds hechoing hstep hprompt
  | subscriberDeleteData index =>
      obtain ⟨subscriber, hdelete, rfl⟩ := Option.map_eq_some_iff.mp hstep
      obtain ⟨-, rfl⟩ := Subscriber.deleteData_eq_some_iff.mp hdelete
      exact hprompted.withSubscriber Subscriber.Phase.noConfusion rfl
  | subscriberRemove index removed =>
      obtain ⟨subscriber, hremove, rfl⟩ := Option.map_eq_some_iff.mp hstep
      obtain ⟨-, rfl⟩ := Subscriber.remove_eq_some_iff.mp hremove
      refine hprompted.withSubscriber (fun hpreparing => ?_) rfl
      dsimp only at hpreparing
      split_ifs at hpreparing
  | subscriberEnd index written =>
      obtain ⟨subscriber, hend, rfl⟩ := Option.map_eq_some_iff.mp hstep
      obtain ⟨-, rfl⟩ := Subscriber.ends_eq_some_iff.mp hend
      split_ifs <;> exact hprompted.withSubscriber Subscriber.Phase.noConfusion rfl
  | subscriberAcknowledged index succeeded =>
      obtain ⟨subscriber, hacknowledged, rfl⟩ := Option.map_eq_some_iff.mp hstep
      obtain ⟨-, rfl⟩ := Subscriber.acknowledged_eq_some_iff.mp hacknowledged
      split_ifs
      · refine hprompted.withSubscriber (fun hpreparing => ?_) rfl
        simp only [Subscriber.nextPayload] at hpreparing
        split_ifs at hpreparing
      · exact hprompted.withSubscriber Subscriber.Phase.noConfusion rfl

/-- Every sample is measured once: so far of this payload, and after the first
sample of the payloads before it. -/
structure OnTime (parameters : Parameters) (state : State n) : Prop where
  current : state.publisher.phase = .sampling → ∀ index,
    (state.channels index).echoed = state.sent.length ∧
      state.publisher.count.toNat = state.sent.length + 1 ∧
      state.publisher.times.map Measurement.number = List.range' 1 state.sent.length
  stats : ∀ entry ∈ state.publisher.stats, entry.received = parameters.samples ∧
    entry.times.map Measurement.number = List.range' 2 parameters.samples.toNat
  dangling : state.publisher.dangling = false ∧
    ∀ index, (state.subscribers index).dangling = false
  defined : state.publisher.phase ≠ .undefined

theorem onTime_of_run {parameters : Parameters} {actions : List (Action n)} {state : State n}
    (hrun : (system parameters).run (State.initial parameters) actions = some state)
    (hprompt : ∀ action ∈ actions, Prompt parameters action) (hn : 0 < n)
    (hechoing : parameters.echo = true) (hfirst : 0 < parameters.samples.toNat)
    (hsamples : parameters.samples.toNat + 2 < 2 ^ 32) : OnTime parameters state := by
  have hboth : Prompted parameters state ∧ Rounds parameters state ∧
      Measuring parameters state := by
    refine run_preserves_of_stepsMeet
      (fun state => Prompted parameters state ∧ Rounds parameters state ∧
        Measuring parameters state)
      (fun _ _ _ hinvariant hmeets hstep => ?_)
      ⟨Prompted.initial parameters, Rounds.initial parameters, Measuring.initial parameters⟩
      (stepsMeet_of_forall_mem hprompt _) hrun
    obtain ⟨hprompted, hrounds, hmeasuring⟩ := hinvariant
    exact ⟨hprompted.step hn hechoing hfirst hsamples hrounds hmeasuring hmeets hstep,
      hrounds.step hstep,
      hmeasuring.step hsamples (hprompted.undisturbed hstep) hstep⟩
  obtain ⟨hprompted, -, hmeasuring⟩ := hboth
  constructor
  case current =>
    intro hphase index
    have hcomplete := hprompted.complete
    unfold Complete at hcomplete
    rw [hphase] at hcomplete
    exact ⟨(hprompted.settled (by rw [hphase]; exact Publisher.Phase.noConfusion)).echoed index,
      hcomplete⟩
  case stats =>
    intro entry hmem
    have hnumbers := hprompted.stats entry hmem
    have hlength := congrArg List.length hnumbers
    rw [List.length_map, List.length_range'] at hlength
    refine ⟨UInt32.toNat_inj.mp ?_, hnumbers⟩
    rw [(hmeasuring.stats entry hmem).received, hlength]
  case dangling => exact hprompted.dangling
  case defined => exact hprompted.defined

/-- The sample of this turn of the loop is sent, echoed in time and measured. -/
def promptTurn : List (Action 1) :=
  [.nextSample true, .check, .reset, .start 100, .write true, .echo lone 0 true, .receive lone,
    .lock, .compare, .measure 150 true false, .clear, .unlock, .goOn false]

/-- The first payload of one subscriber, with two samples. -/
def promptPayload : List (Action 1) :=
  [.prepare true, .ready true, .subscriberHears lone, .subscriberCommandCome lone,
    .subscriberPrepare lone true, .discovered, .subscriberDiscovered lone,
    .subscriberBegin lone true, .hear lone, .commandsCome] ++
  promptTurn ++ promptTurn ++
  [.nextSample true, .subscriberHears lone, .subscriberCommandCome lone, .subscriberDeleteData lone,
    .subscriberRemove lone true, .subscriberEnd lone true, .hear lone, .commandsCome, .deleteData,
    .remove true]

theorem run_promptPayload :
    ∃ state, (system shortTest).run (State.initial shortTest) promptPayload = some state ∧
      state.publisher.stats = [⟨16, 1, [⟨⟨2, 0⟩, 150, 100⟩]⟩] :=
  ⟨_, rfl, rfl⟩

theorem onTime_of_run_promptPayload :
    ∃ state, (system shortTest).run (State.initial shortTest) promptPayload = some state ∧
      state.publisher.stats = [⟨16, 1, [⟨⟨2, 0⟩, 150, 100⟩]⟩] ∧ OnTime shortTest state := by
  obtain ⟨state, hrun, hstats⟩ := run_promptPayload
  have hprompt : ∀ action ∈ promptPayload, Prompt shortTest action := by
    simp [promptPayload, promptTurn, Prompt, shortTest]
  exact ⟨state, hrun, hstats, onTime_of_run hrun hprompt Nat.one_pos rfl (by decide) (by decide)⟩

/-- A late echo is not measured and ends the wait for the next sample.  The one
measurement that is left is too few for the statistics. -/
example : ∃ state : State 1,
    (system shortTest).run (State.initial shortTest)
      (untilWaiting ++
        [.goOn true, .nextSample true, .check, .reset, .start 200, .write true,
          .echo lone 0 true, .receive lone, .lock, .compare, .unlock, .goOn false, .nextSample true,
          .echo lone 0 true, .receive lone, .lock, .compare, .measure 300 true false, .clear,
          .unlock, .subscriberHears lone, .subscriberCommandCome lone,
          .subscriberDeleteData lone, .subscriberRemove lone true, .subscriberEnd lone true,
          .hear lone, .commandsCome, .deleteData, .remove true]) = some state ∧
      state.publisher.phase = .undefined :=
  ⟨_, rfl, rfl⟩

end CppProj.LatencyTest
