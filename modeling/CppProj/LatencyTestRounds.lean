import CppProj.LatencyTest
import Mathlib.Data.Fintype.Card

/-!
# The rounds of the latency test

The publisher asks twice for every payload, and every question is answered once
by every subscriber.  The publisher goes on when all answers have come, and a
subscriber when the next question has come, so a wait never drops a message
that another wait needs.
-/

namespace CppProj.LatencyTest

open TransitionSystem

variable {n : ℕ}

/-! ## Where the parties stand in a round -/

namespace Subscriber

/-- The answers that a subscriber has given for this payload. -/
def Phase.answered : Phase → ℕ
  | .awaitReady | .preparing | .discovery | .beginning => 0
  | .awaitStop | .deletingData | .removing | .ending => 1
  | .acknowledgment | .returned => 2

/-- The questions for this payload that it has waited for. -/
def Phase.waited : Phase → ℕ
  | .awaitReady => 0
  | .preparing | .discovery | .beginning | .awaitStop => 1
  | .deletingData | .removing | .ending | .acknowledgment | .returned => 2

/-- The subscriber has the endpoints of this payload. -/
def Phase.testing : Phase → Bool
  | .discovery | .beginning | .awaitStop | .deletingData | .removing => true
  | _ => false

def Phase.holdsData : Phase → Bool
  | .discovery | .beginning | .awaitStop | .deletingData => true
  | _ => false

/-- So many payloads are done. -/
structure Stands (parameters : Parameters) (subscriber : Subscriber) (done : ℕ) : Prop where
  payloads : subscriber.payloads = parameters.dataSizes.drop done
  answered : subscriber.commands.length = 2 * done + subscriber.phase.answered
  waited : subscriber.heard =
    2 * done + subscriber.phase.waited + subscriber.commandMsgCount
  endpoints : subscriber.phase.testing = true →
    ∃ size rest, subscriber.payloads = size :: rest ∧ subscriber.endpoints = some size
  data : subscriber.phase.holdsData = true → subscriber.data = true

/-- A subscriber does not return between `BEGIN` and `STOP`. -/
def Returned (subscriber : Subscriber) : Prop :=
  ∃ waited, subscriber.heard = waited + subscriber.commandMsgCount ∧
    subscriber.commands.length ≤ waited ∧
    (subscriber.commands.length = waited → 2 ∣ waited)

def Placed (parameters : Parameters) (subscriber : Subscriber) : Prop :=
  if subscriber.phase = .returned then subscriber.Returned
  else ∃ done, subscriber.Stands parameters done

theorem Phase.answered_le_waited (phase : Phase) : phase.answered ≤ phase.waited := by
  cases phase <;> decide

theorem placed_returned {parameters : Parameters} {subscriber : Subscriber}
    (hphase : subscriber.phase = .returned) (hreturned : subscriber.Returned) :
    subscriber.Placed parameters := by
  rw [Placed, if_pos hphase]
  exact hreturned

theorem Stands.placed {parameters : Parameters} {subscriber : Subscriber} {done : ℕ}
    (hstands : subscriber.Stands parameters done) (hphase : subscriber.phase ≠ .returned) :
    subscriber.Placed parameters := by
  rw [Placed, if_neg hphase]
  exact ⟨done, hstands⟩

theorem Placed.stands {parameters : Parameters} {subscriber : Subscriber}
    (hplaced : subscriber.Placed parameters) (hphase : subscriber.phase ≠ .returned) :
    ∃ done, subscriber.Stands parameters done := by
  rwa [Placed, if_neg hphase] at hplaced

/-- Every answer comes after the question. -/
theorem Placed.answers_le {parameters : Parameters} {subscriber : Subscriber}
    (hplaced : subscriber.Placed parameters) :
    subscriber.commands.length ≤ subscriber.heard := by
  by_cases hphase : subscriber.phase = .returned
  · rw [Placed, if_pos hphase] at hplaced
    obtain ⟨waited, hheard, hle, -⟩ := hplaced
    omega
  · obtain ⟨done, hstands⟩ := hplaced.stands hphase
    have hanswered := hstands.answered
    have hwaited := hstands.waited
    have hle := subscriber.phase.answered_le_waited
    omega

/-- Whoever has answered all it has heard with the last of them a `BEGIN` waits
for `STOP`. -/
theorem Placed.awaitStop {parameters : Parameters} {subscriber : Subscriber}
    (hplaced : subscriber.Placed parameters) {done : ℕ}
    (hanswered : subscriber.commands.length = 2 * done + 1)
    (hheard : subscriber.heard = 2 * done + 1) :
    subscriber.phase = .awaitStop ∧ subscriber.commandMsgCount = 0 ∧
      subscriber.Stands parameters done := by
  by_cases hphase : subscriber.phase = .returned
  · rw [Placed, if_pos hphase] at hplaced
    obtain ⟨waited, hwaited, hle, heven⟩ := hplaced
    have hdivides := heven (by omega)
    omega
  · obtain ⟨other, hstands⟩ := hplaced.stands hphase
    have hlength := hstands.answered
    have hwaited := hstands.waited
    cases hcase : subscriber.phase <;>
      simp only [hcase, Phase.answered, Phase.waited] at hlength hwaited
    case awaitStop =>
      have hsame : other = done := by omega
      exact ⟨rfl, by omega, hsame ▸ hstands⟩
    case returned => exact absurd hcase hphase
    all_goals omega

end Subscriber

namespace Publisher

/-- The questions of this payload that have been asked, or were to be. -/
def Phase.asked : Phase → ℕ
  | .preparing | .readying => 0
  | .discovery | .awaitBegin | .sampling | .numbered | .loaning | .filled | .resetting
  | .untimed | .timed | .waiting => 1
  | .awaitEnd | .deletingData | .removing | .returned | .undefined => 2

/-- The last question is not answered yet. -/
def Phase.awaiting : Phase → Bool
  | .discovery | .awaitBegin | .awaitEnd => true
  | _ => false

def Phase.sends : Phase → Bool
  | .sampling | .numbered | .loaning | .filled | .resetting | .untimed | .timed | .waiting =>
      true
  | _ => false

/-- The publisher has the endpoints of this payload. -/
def Phase.prepared : Phase → Bool
  | .preparing => false
  | _ => true

def Phase.ended : Phase → Bool
  | .returned | .undefined => true
  | _ => false

end Publisher

/-- The publisher is in a round of this payload. -/
structure Turn (parameters : Parameters) (state : State n) (done : ℕ) : Prop where
  payloads : state.publisher.payloads = parameters.dataSizes.drop done
  log : state.log.length ≤ 2 * done + state.publisher.phase.asked
  heard : ∀ index, 2 * done + state.publisher.phase.asked ≤
    state.heard index + (if state.publisher.phase.awaiting then 1 else 0)
  count : state.publisher.commandMsgCount =
    (Finset.univ.filter fun index =>
      state.publisher.phase.awaiting ∧
        state.heard index = 2 * done + state.publisher.phase.asked).card
  endpoints : ∃ size rest, state.publisher.payloads = size :: rest ∧
    state.publisher.endpoints = if state.publisher.phase.prepared then some size else none

structure Rounds (parameters : Parameters) (state : State n) : Prop where
  questions : ∀ command ∈ state.log, command = .ready ∨ command = .stop
  answers : ∀ index, ∀ command ∈ (state.subscribers index).commands,
    command = .begin ∨ command = .end_
  hears : ∀ index, state.heard index ≤ (state.subscribers index).commands.length
  heard : ∀ index, (state.subscribers index).heard ≤ state.log.length
  asked : ∀ index, state.log.length ≤ (state.subscribers index).commands.length + 1
  placed : ∀ index, (state.subscribers index).Placed parameters
  turn : state.publisher.phase.ended = false → ∃ done, Turn parameters state done
  ended : state.publisher.phase.ended = true →
    ∀ index, state.log.length ≤ (state.subscribers index).commands.length

/-- What was heard of a subscriber lags behind the questions. -/
theorem Rounds.heard_le_log {parameters : Parameters} {state : State n}
    (hrounds : Rounds parameters state) (index : Fin n) :
    state.heard index ≤ state.log.length :=
  calc state.heard index ≤ (state.subscribers index).commands.length := hrounds.hears index
    _ ≤ (state.subscribers index).heard := (hrounds.placed index).answers_le
    _ ≤ state.log.length := hrounds.heard index

theorem Rounds.initial (parameters : Parameters) :
    Rounds parameters (State.initial parameters : State n) where
  questions := fun _ hmem => absurd hmem List.not_mem_nil
  answers := fun _ _ hmem => absurd hmem List.not_mem_nil
  hears := fun _ => Nat.le_refl _
  heard := fun _ => Nat.le_refl _
  asked := fun _ => Nat.zero_le _
  placed := by
    intro index
    by_cases hsizes : parameters.dataSizes = []
    · refine Subscriber.placed_returned ?_ ⟨0, rfl, Nat.le_refl _, fun _ => Nat.dvd_zero 2⟩
      simp only [State.initial, Subscriber.initial, Subscriber.nextPayload, hsizes, if_true]
    · have hphase : ((State.initial parameters : State n).subscribers index).phase =
          .awaitReady := by
        simp only [State.initial, Subscriber.initial, Subscriber.nextPayload, hsizes, if_false]
      have hstands : ((State.initial parameters : State n).subscribers index).Stands
          parameters 0 := by
        constructor
        case payloads => rfl
        case answered => rw [hphase]; rfl
        case waited => rw [hphase]; rfl
        case endpoints => rw [hphase]; exact Bool.noConfusion
        case data => rw [hphase]; exact Bool.noConfusion
      exact hstands.placed (by rw [hphase]; exact Subscriber.Phase.noConfusion)
  turn := by
    intro hended
    refine ⟨0, ?_⟩
    cases hsizes : parameters.dataSizes with
    | nil =>
        simp only [State.initial, Publisher.initial, Publisher.nextPayload, hsizes, if_true]
          at hended
        cases hended
    | cons size rest =>
        have hphase : (State.initial parameters : State n).publisher.phase = .preparing := by
          simp only [State.initial, Publisher.initial, Publisher.nextPayload, hsizes,
            List.cons_ne_nil, if_false]
        constructor
        case payloads => rfl
        case log => exact Nat.zero_le _
        case heard => rw [hphase]; exact fun _ => Nat.le_refl _
        case count =>
          rw [hphase]
          simp [Publisher.Phase.awaiting]
          rfl
        case endpoints =>
          rw [hphase]
          exact ⟨size, rest, hsizes, rfl⟩
  ended := fun _ _ => Nat.zero_le _

theorem Publisher.Phase.awaiting_of_ended {phase : Phase} (hended : phase.ended = true) :
    phase.awaiting = false := by
  cases phase <;> first | rfl | cases hended

/-- Between two questions every answer has been given. -/
theorem Rounds.settled {parameters : Parameters} {state : State n}
    (hrounds : Rounds parameters state) (hsettled : state.publisher.phase.awaiting = false)
    (index : Fin n) : state.log.length ≤ (state.subscribers index).commands.length := by
  cases hended : state.publisher.phase.ended with
  | true => exact hrounds.ended hended index
  | false =>
      obtain ⟨done, hturn⟩ := hrounds.turn hended
      have hheard := hturn.heard index
      rw [hsettled, if_neg Bool.false_ne_true] at hheard
      calc state.log.length ≤ 2 * done + state.publisher.phase.asked := hturn.log
        _ ≤ state.heard index := hheard
        _ ≤ (state.subscribers index).commands.length := hrounds.hears index

/-! ## The steps of the publisher -/

theorem Rounds.withPublisher {parameters : Parameters} {state : State n}
    (hrounds : Rounds parameters state) {next : Publisher}
    (hturn : next.phase.ended = false →
      ∃ done, Turn parameters (state.withPublisher next) done)
    (hended : next.phase.ended = true → state.publisher.phase.awaiting = false) :
    Rounds parameters (state.withPublisher next) where
  questions := hrounds.questions
  answers := hrounds.answers
  hears := hrounds.hears
  heard := hrounds.heard
  asked := hrounds.asked
  placed := hrounds.placed
  turn := hturn
  ended := fun hnext => hrounds.settled (hended hnext)

/-- A step between two questions, or one that leaves the phase alone. -/
theorem Turn.withPublisher {parameters : Parameters} {state : State n} {done : ℕ}
    (hturn : Turn parameters state done) {next : Publisher}
    (hpayloads : next.payloads = state.publisher.payloads)
    (hcount : next.commandMsgCount = state.publisher.commandMsgCount)
    (hendpoints : next.endpoints = state.publisher.endpoints)
    (hprepared : next.phase.prepared = state.publisher.phase.prepared)
    (hasked : next.phase.asked = state.publisher.phase.asked)
    (hawaiting : next.phase.awaiting = state.publisher.phase.awaiting) :
    Turn parameters (state.withPublisher next) done where
  payloads := hpayloads.trans hturn.payloads
  log := by
    rw [State.withPublisher, hasked]
    exact hturn.log
  heard := by
    simp only [State.withPublisher, hasked, hawaiting]
    exact hturn.heard
  count := by
    simp only [State.withPublisher, hasked, hawaiting, hcount]
    exact hturn.count
  endpoints := by
    simp only [State.withPublisher, hpayloads, hendpoints, hprepared]
    exact hturn.endpoints

theorem Rounds.move {parameters : Parameters} {state : State n}
    (hrounds : Rounds parameters state) (hended : state.publisher.phase.ended = false)
    {next : Publisher} (hpayloads : next.payloads = state.publisher.payloads)
    (hcount : next.commandMsgCount = state.publisher.commandMsgCount)
    (hendpoints : next.endpoints = state.publisher.endpoints)
    (hprepared : next.phase.prepared = state.publisher.phase.prepared)
    (hasked : next.phase.asked = state.publisher.phase.asked)
    (hawaiting : next.phase.awaiting = state.publisher.phase.awaiting) :
    Rounds parameters (state.withPublisher next) := by
  obtain ⟨done, hturn⟩ := hrounds.turn hended
  refine hrounds.withPublisher (fun _ => ?_) fun hnext => ?_
  · exact ⟨done, hturn.withPublisher hpayloads hcount hendpoints hprepared hasked hawaiting⟩
  · rw [← hawaiting]
    exact Publisher.Phase.awaiting_of_ended hnext

/-- The run of the publisher is over. -/
theorem Rounds.give_up {parameters : Parameters} {state : State n}
    (hrounds : Rounds parameters state) (hsettled : state.publisher.phase.awaiting = false)
    {next : Publisher} (hended : next.phase.ended = true) :
    Rounds parameters (state.withPublisher next) :=
  hrounds.withPublisher (fun hnot => absurd (hended.symm.trans hnot) Bool.noConfusion)
    fun _ => hsettled

theorem Turn.card_eq_zero {parameters : Parameters} {state : State n} {done : ℕ}
    (hturn : Turn parameters state done) (hawaiting : state.publisher.phase.awaiting = false) :
    state.publisher.commandMsgCount = 0 := by
  rw [hturn.count, hawaiting, Finset.card_eq_zero, Finset.filter_eq_empty_iff]
  exact fun _ _ hboth => Bool.noConfusion hboth.1

theorem Publisher.Phase.sends_flags {phase : Phase} (hsends : phase.sends = true) :
    phase.asked = 1 ∧ phase.awaiting = false ∧ phase.prepared = true ∧ phase.ended = false := by
  cases phase <;> first | exact ⟨rfl, rfl, rfl, rfl⟩ | cases hsends

/-- A step between two samples. -/
theorem Rounds.samples {parameters : Parameters} {state : State n}
    (hrounds : Rounds parameters state) (hsends : state.publisher.phase.sends = true)
    {next : Publisher} (hnext : next.phase.sends = true)
    (hpayloads : next.payloads = state.publisher.payloads)
    (hcount : next.commandMsgCount = state.publisher.commandMsgCount)
    (hendpoints : next.endpoints = state.publisher.endpoints) :
    Rounds parameters (state.withPublisher next) := by
  obtain ⟨hasked, hawaiting, hprepared, hended⟩ := Publisher.Phase.sends_flags hsends
  obtain ⟨hnextAsked, hnextAwaiting, hnextPrepared, -⟩ := Publisher.Phase.sends_flags hnext
  exact hrounds.move hended hpayloads hcount hendpoints (hnextPrepared.trans hprepared.symm)
    (hnextAsked.trans hasked.symm) (hnextAwaiting.trans hawaiting.symm)

theorem Rounds.prepare {parameters : Parameters} {state : State n} {next : Publisher}
    {prepared : Bool} (hrounds : Rounds parameters state)
    (hprepare : state.publisher.prepare parameters prepared = some next) :
    Rounds parameters (state.withPublisher next) := by
  obtain ⟨hphase, size, rest, hpayloads, hnext⟩ := Publisher.prepare_cases hprepare
  rcases hnext with ⟨-, rfl⟩ | rfl
  · refine hrounds.withPublisher (fun _ => ?_) Bool.noConfusion
    obtain ⟨done, hturn⟩ := hrounds.turn (by rw [hphase]; rfl)
    have hlog := hturn.log
    have hheard := hturn.heard
    have hcount := hturn.card_eq_zero (by rw [hphase]; rfl)
    rw [hphase] at hlog hheard
    refine ⟨done, hturn.payloads, hlog, hheard, ?_, ⟨size, rest, hpayloads, rfl⟩⟩
    simp [State.withPublisher, Publisher.Phase.awaiting, hcount]
  · exact hrounds.give_up (by rw [hphase]; rfl) rfl

/-- A new question, which may get lost before it is written. -/
theorem Rounds.ask {parameters : Parameters} {state : State n} {next : Publisher}
    {commands : List TestCommand} (hrounds : Rounds parameters state)
    (hended : state.publisher.phase.ended = false)
    (hsettled : state.publisher.phase.awaiting = false)
    (hcommands : commands = [] ∨ commands = [.ready] ∨ commands = [.stop])
    (hpayloads : next.payloads = state.publisher.payloads)
    (hcount : next.commandMsgCount = state.publisher.commandMsgCount)
    (hendpoints : next.endpoints = state.publisher.endpoints)
    (hprepared : next.phase.prepared = state.publisher.phase.prepared)
    (hasked : next.phase.asked = state.publisher.phase.asked + 1)
    (hawaiting : next.phase.awaiting = true) :
    Rounds parameters (state.publish (next, commands)) := by
  obtain ⟨done, hturn⟩ := hrounds.turn hended
  have hlog := hturn.log
  have hheard : ∀ index, state.heard index = 2 * done + state.publisher.phase.asked := by
    intro index
    have hge := hturn.heard index
    have hle := hrounds.heard_le_log index
    rw [hsettled, if_neg Bool.false_ne_true] at hge
    omega
  have hlength : commands.length ≤ 1 := by
    rcases hcommands with rfl | rfl | rfl <;> decide
  constructor
  case questions =>
    intro command hmem
    rcases List.mem_append.mp hmem with hold | hnew
    · exact hrounds.questions command hold
    · rcases hcommands with rfl | rfl | rfl
      · cases hnew
      · exact Or.inl (List.mem_singleton.mp hnew)
      · exact Or.inr (List.mem_singleton.mp hnew)
  case answers => exact hrounds.answers
  case hears => exact hrounds.hears
  case heard =>
    intro index
    rw [State.publish, List.length_append]
    exact (hrounds.heard index).trans (Nat.le_add_right _ _)
  case asked =>
    intro index
    have hhears := hrounds.hears index
    have hthis := hheard index
    simp only [State.publish, List.length_append]
    omega
  case placed => exact hrounds.placed
  case turn =>
    refine fun _ => ⟨done, ?_⟩
    constructor
    case payloads => exact hpayloads.trans hturn.payloads
    case log =>
      simp only [State.publish, List.length_append, hasked]
      omega
    case heard =>
      intro index
      simp only [State.publish, hasked, hawaiting, if_true, hheard index]
      omega
    case count =>
      simp only [State.publish, hasked, hheard, hcount, hturn.card_eq_zero hsettled]
      rw [eq_comm, Finset.card_eq_zero, Finset.filter_eq_empty_iff]
      intro index _ hboth
      omega
    case endpoints =>
      simp only [State.publish, hpayloads, hendpoints, hprepared]
      exact hturn.endpoints
  case ended =>
    intro hnext
    exact absurd (hawaiting.symm.trans (Publisher.Phase.awaiting_of_ended hnext)) Bool.noConfusion

theorem publish_nil (state : State n) (publisher : Publisher) :
    state.publish (publisher, []) = state.withPublisher publisher := by
  rw [State.publish, List.append_nil]
  rfl

theorem Rounds.ready {parameters : Parameters} {state : State n} {next : Publisher}
    {commands : List TestCommand} {written : Bool} (hrounds : Rounds parameters state)
    (hready : state.publisher.ready written = some (next, commands)) :
    Rounds parameters (state.publish (next, commands)) := by
  obtain ⟨hphase, hdone⟩ := Publisher.ready_eq_some_iff.mp hready
  split_ifs at hdone
  · cases hdone
    exact hrounds.ask (by rw [hphase]; rfl) (by rw [hphase]; rfl) (Or.inr (Or.inl rfl)) rfl rfl
      rfl (by rw [hphase]; rfl) (by rw [hphase]; rfl) rfl
  · cases hdone
    rw [publish_nil]
    exact hrounds.give_up (by rw [hphase]; rfl) rfl

theorem Rounds.nextSample {parameters : Parameters} {state : State n} {next : Publisher}
    {commands : List TestCommand} {written : Bool} (hrounds : Rounds parameters state)
    (hnext : state.publisher.nextSample parameters written = some (next, commands)) :
    Rounds parameters (state.publish (next, commands)) := by
  obtain ⟨hphase, hdone⟩ := Publisher.nextSample_eq_some_iff.mp hnext
  by_cases hcount : state.publisher.count ≤ parameters.samples + 1
  · rw [if_pos hcount] at hdone
    cases hdone
    rw [publish_nil]
    refine hrounds.samples (by rw [hphase]; rfl) ?_ rfl rfl rfl
    dsimp only
    split_ifs <;> rfl
  · rw [if_neg hcount] at hdone
    cases hdone
    refine hrounds.ask (by rw [hphase]; rfl) (by rw [hphase]; rfl) ?_ rfl rfl rfl
      (by rw [hphase]; rfl) (by rw [hphase]; rfl) rfl
    cases written
    · exact Or.inl rfl
    · exact Or.inr (Or.inr rfl)

/-- The listener takes the next command of a subscriber, which answers the last
question. -/
theorem Rounds.hear {parameters : Parameters} {state : State n} {index : Fin n}
    {command : TestCommand} (hrounds : Rounds parameters state)
    (hcommand : (state.subscribers index).commands[state.heard index]? = some command) :
    Rounds parameters
      { state with
        publisher := state.publisher.hear command
        heard := Function.update state.heard index (state.heard index + 1) } := by
  obtain ⟨hless, hget⟩ := List.getElem?_eq_some_iff.mp hcommand
  have hanswer := hrounds.answers index command (hget ▸ List.getElem_mem hless)
  constructor
  case questions => exact hrounds.questions
  case answers => exact hrounds.answers
  case hears =>
    intro other
    by_cases heq : other = index
    · rw [heq]
      simp only [Function.update_self]
      exact hless
    · simp only [Function.update_of_ne heq]
      exact hrounds.hears other
  case heard => exact hrounds.heard
  case asked => exact hrounds.asked
  case placed => exact hrounds.placed
  case turn =>
    intro hended
    obtain ⟨done, hturn⟩ := hrounds.turn hended
    have hlog := hturn.log
    have hheard := hturn.heard index
    have hlogged : state.heard index < state.log.length :=
      hless.trans_le ((hrounds.placed index).answers_le.trans (hrounds.heard index))
    have hawaiting : state.publisher.phase.awaiting = true := by
      by_contra hsettled
      rw [if_neg hsettled] at hheard
      omega
    rw [hawaiting, if_pos rfl] at hheard
    have hlast : state.heard index + 1 = 2 * done + state.publisher.phase.asked := by omega
    refine ⟨done, hturn.payloads, hlog, fun other => ?_, ?_, hturn.endpoints⟩
    · by_cases heq : other = index
      · rw [heq]
        simp only [Function.update_self, Publisher.hear]
        omega
      · simp only [Function.update_of_ne heq, Publisher.hear]
        exact hturn.heard other
    · have hfilter : (Finset.univ.filter fun other =>
          state.publisher.phase.awaiting ∧
            Function.update state.heard index (state.heard index + 1) other =
              2 * done + state.publisher.phase.asked) =
          insert index (Finset.univ.filter fun other =>
            state.publisher.phase.awaiting ∧
              state.heard other = 2 * done + state.publisher.phase.asked) := by
        ext other
        by_cases heq : other = index
        · simp [heq, hawaiting, hlast]
        · simp [heq]
      simp only [Publisher.hear, hanswer, if_true]
      rw [hfilter, Finset.card_insert_of_notMem, hturn.count]
      simp only [Finset.mem_filter, Finset.mem_univ, true_and, not_and]
      intro _
      omega
  case ended => exact hrounds.ended

/-- All answers have come. -/
theorem Turn.all_heard {parameters : Parameters} {state : State n} {done : ℕ}
    (hturn : Turn parameters state done) (hcount : n ≤ state.publisher.commandMsgCount)
    (index : Fin n) : state.heard index = 2 * done + state.publisher.phase.asked := by
  rw [hturn.count] at hcount
  have hcard : (Finset.univ.filter fun other =>
      state.publisher.phase.awaiting ∧
        state.heard other = 2 * done + state.publisher.phase.asked).card =
      Fintype.card (Fin n) := by
    rw [Fintype.card_fin]
    refine Nat.le_antisymm ?_ hcount
    exact (Finset.card_le_univ _).trans (Fintype.card_fin n).le
  have hmem := Finset.mem_univ index
  rw [← (Finset.card_eq_iff_eq_univ _).mp hcard, Finset.mem_filter] at hmem
  exact hmem.2.2

theorem Rounds.commandsCome {parameters : Parameters} {state : State n} {next : Publisher}
    (hrounds : Rounds parameters state)
    (hcome : state.publisher.commandsCome n = some next) :
    Rounds parameters (state.withPublisher next) := by
  obtain ⟨hcount, hnext⟩ := Publisher.commandsCome_cases hcome
  rcases hnext with ⟨hphase, rfl⟩ | ⟨hphase, rfl⟩
  all_goals
    refine hrounds.withPublisher (fun _ => ?_) Bool.noConfusion
    obtain ⟨done, hturn⟩ := hrounds.turn (by rw [hphase]; rfl)
    have hlog := hturn.log
    have hall := hturn.all_heard hcount
    have hendpoints := hturn.endpoints
    rw [hphase] at hlog hall hendpoints
    refine ⟨done, hturn.payloads, hlog, fun index => (hall index).ge, ?_, hendpoints⟩
    simp [State.withPublisher, Publisher.Phase.awaiting]

theorem Rounds.remove {parameters : Parameters} {state : State n} {next : Publisher}
    {removed : Bool} (hrounds : Rounds parameters state)
    (hremove : state.publisher.remove removed = some next) :
    Rounds parameters (state.withPublisher next) := by
  obtain ⟨hphase, -, size, rest, hpayloads, hgone⟩ := Publisher.remove_cases hremove
  rcases hgone with ⟨first, time, times, -, rfl⟩ | ⟨-, rfl⟩ | rfl
  · refine hrounds.withPublisher (fun hended => ?_) (fun _ => by rw [hphase]; rfl)
    obtain ⟨done, hturn⟩ := hrounds.turn (by rw [hphase]; rfl)
    have hlog := hturn.log
    have hheard := hturn.heard
    have hcount := hturn.card_eq_zero (by rw [hphase]; rfl)
    have hdrop := hturn.payloads
    rw [hphase] at hlog hheard
    rw [hpayloads] at hdrop
    have hrest : rest = parameters.dataSizes.drop (done + 1) := by
      rw [← List.drop_drop, ← hdrop]
      rfl
    cases hnext : rest with
    | nil =>
        simp only [Publisher.nextPayload, hnext, if_true] at hended
        cases hended
    | cons nextSize later =>
        simp only [Publisher.nextPayload, List.cons_ne_nil, if_false]
        refine ⟨done + 1, ?_, ?_, ?_, ?_, ⟨nextSize, later, rfl, rfl⟩⟩
        · rw [← hrest, hnext]
          rfl
        · exact hlog
        · exact hheard
        · simp [State.withPublisher, Publisher.Phase.awaiting, hcount]
  · exact hrounds.give_up (by rw [hphase]; rfl) rfl
  · exact hrounds.give_up (by rw [hphase]; rfl) rfl

/-! ## The steps of a subscriber -/

theorem Rounds.withSubscriber {parameters : Parameters} {state : State n}
    (hrounds : Rounds parameters state) {index : Fin n} {subscriber : Subscriber}
    (hanswers : ∀ command ∈ subscriber.commands, command = .begin ∨ command = .end_)
    (hlength : (state.subscribers index).commands.length ≤ subscriber.commands.length)
    (hheard : subscriber.heard ≤ state.log.length) (hplaced : subscriber.Placed parameters) :
    Rounds parameters (state.withSubscriber index subscriber) := by
  have hother : ∀ other, (state.withSubscriber index subscriber).subscribers other =
      if other = index then subscriber else state.subscribers other :=
    fun other => Function.update_apply state.subscribers index subscriber other
  constructor
  case questions => exact hrounds.questions
  case answers =>
    intro other
    rw [hother]
    split_ifs
    · exact hanswers
    · exact hrounds.answers other
  case hears =>
    intro other
    rw [hother]
    split_ifs with heq
    · rw [heq]
      exact (hrounds.hears index).trans hlength
    · exact hrounds.hears other
  case heard =>
    intro other
    rw [hother]
    split_ifs
    · exact hheard
    · exact hrounds.heard other
  case asked =>
    intro other
    rw [hother]
    split_ifs with heq
    · exact (hrounds.asked index).trans (Nat.succ_le_succ hlength)
    · exact hrounds.asked other
  case placed =>
    intro other
    rw [hother]
    split_ifs
    · exact hplaced
    · exact hrounds.placed other
  case turn =>
    intro hended
    obtain ⟨done, hturn⟩ := hrounds.turn hended
    exact ⟨done, hturn.payloads, hturn.log, hturn.heard, hturn.count, hturn.endpoints⟩
  case ended =>
    intro hended other
    rw [hother]
    split_ifs
    · exact (hrounds.ended hended index).trans hlength
    · exact hrounds.ended hended other

/-- A step of a subscriber that writes nothing. -/
theorem Rounds.withSilent {parameters : Parameters} {state : State n}
    (hrounds : Rounds parameters state) {index : Fin n} {subscriber : Subscriber}
    (hcommands : subscriber.commands = (state.subscribers index).commands)
    (hheard : subscriber.heard = (state.subscribers index).heard)
    (hplaced : subscriber.Placed parameters) :
    Rounds parameters (state.withSubscriber index subscriber) := by
  refine hrounds.withSubscriber ?_ ?_ ?_ hplaced
  · rw [hcommands]
    exact hrounds.answers index
  · rw [hcommands]
  · rw [hheard]
    exact hrounds.heard index

/-- A subscriber that has not returned has at most one question left. -/
theorem Rounds.commandMsgCount_le {parameters : Parameters} {state : State n}
    (hrounds : Rounds parameters state) {index : Fin n} {done : ℕ}
    (hstands : (state.subscribers index).Stands parameters done) :
    (state.subscribers index).commandMsgCount ≤ 1 := by
  have hasked := hrounds.asked index
  have hheard := hrounds.heard index
  have hanswered := hstands.answered
  have hwaited := hstands.waited
  have hle := (state.subscribers index).phase.answered_le_waited
  omega

theorem Rounds.subscriberHears {parameters : Parameters} {state : State n} {index : Fin n}
    {command : TestCommand} (hrounds : Rounds parameters state)
    (hcommand : state.log[(state.subscribers index).heard]? = some command) :
    Rounds parameters
      (state.withSubscriber index ((state.subscribers index).hear command)) := by
  obtain ⟨hless, hget⟩ := List.getElem?_eq_some_iff.mp hcommand
  have hcount : ((state.subscribers index).hear command).commandMsgCount =
      (state.subscribers index).commandMsgCount + 1 := by
    rcases hrounds.questions command (hget ▸ List.getElem_mem hless) with rfl | rfl <;> rfl
  refine hrounds.withSubscriber (hrounds.answers index) (Nat.le_refl _) hless ?_
  by_cases hphase : (state.subscribers index).phase = .returned
  · have hplaced := hrounds.placed index
    rw [Subscriber.Placed, if_pos hphase] at hplaced
    obtain ⟨waited, hheard, hreturned⟩ := hplaced
    refine Subscriber.placed_returned hphase ⟨waited, ?_, hreturned⟩
    rw [hcount, ← Nat.add_assoc, ← hheard]
    rfl
  · obtain ⟨done, hstands⟩ := (hrounds.placed index).stands hphase
    have hnext : ((state.subscribers index).hear command).Stands parameters done := by
      refine ⟨hstands.payloads, hstands.answered, ?_, hstands.endpoints, hstands.data⟩
      rw [hcount, ← Nat.add_assoc]
      exact congrArg Nat.succ hstands.waited
    exact hnext.placed hphase

theorem Rounds.subscriberCommandCome {parameters : Parameters} {state : State n}
    {index : Fin n} {next : Subscriber} (hrounds : Rounds parameters state)
    (hcome : (state.subscribers index).commandCome = some next) :
    Rounds parameters (state.withSubscriber index next) := by
  obtain ⟨hzero, hnext⟩ := Subscriber.commandCome_cases hcome
  rcases hnext with ⟨hphase, rfl⟩ | ⟨hphase, rfl⟩
  all_goals
    obtain ⟨done, hstands⟩ := (hrounds.placed index).stands (by rw [hphase]; decide)
    have hle := hrounds.commandMsgCount_le hstands
    have hanswered := hstands.answered
    have hwaited := hstands.waited
    have hendpoints := hstands.endpoints
    have hdata := hstands.data
    rw [hphase] at hanswered hwaited hendpoints hdata
    refine hrounds.withSilent rfl rfl (Subscriber.Stands.placed (?_ : Subscriber.Stands _ _ done)
      Subscriber.Phase.noConfusion)
    refine ⟨hstands.payloads, hanswered, ?_, ?_, ?_⟩
    · simp only [Subscriber.Phase.waited] at hwaited ⊢
      omega
    · exact hendpoints
    · exact hdata

theorem Rounds.subscriberPrepare {parameters : Parameters} {state : State n}
    {index : Fin n} {next : Subscriber} {prepared : Bool} (hrounds : Rounds parameters state)
    (hprepare : (state.subscribers index).prepare prepared = some next) :
    Rounds parameters (state.withSubscriber index next) := by
  obtain ⟨hphase, size, rest, hpayloads, hnext⟩ := Subscriber.prepare_cases hprepare
  obtain ⟨done, hstands⟩ := (hrounds.placed index).stands (by rw [hphase]; decide)
  have hanswered := hstands.answered
  have hwaited := hstands.waited
  rw [hphase] at hanswered hwaited
  rcases hnext with ⟨-, rfl⟩ | rfl
  · refine hrounds.withSilent rfl rfl
      (Subscriber.Stands.placed (?_ : Subscriber.Stands _ _ done) Subscriber.Phase.noConfusion)
    exact ⟨hstands.payloads, hanswered, hwaited, fun _ => ⟨size, rest, hpayloads, rfl⟩,
      fun _ => rfl⟩
  · refine hrounds.withSilent rfl rfl (Subscriber.placed_returned rfl ⟨_, hwaited, ?_, ?_⟩)
    · rw [hanswered]
      exact Nat.add_le_add_left (Nat.zero_le _) _
    · rw [hanswered]
      intro heq
      simp only [Subscriber.Phase.answered, Subscriber.Phase.waited] at heq
      omega

/-- A step between two waits, which may write an answer. -/
theorem Rounds.subscriberMoves {parameters : Parameters} {state : State n} {index : Fin n}
    {next : Subscriber} {done : ℕ} (hrounds : Rounds parameters state)
    (hstands : (state.subscribers index).Stands parameters done)
    (hpayloads : next.payloads = (state.subscribers index).payloads)
    (hheard : next.heard = (state.subscribers index).heard)
    (hcount : next.commandMsgCount = (state.subscribers index).commandMsgCount)
    {answers : List TestCommand}
    (hcommands : next.commands = (state.subscribers index).commands ++ answers)
    (hanswers : ∀ command ∈ answers, command = .begin ∨ command = .end_)
    (hanswered : next.phase.answered =
      (state.subscribers index).phase.answered + answers.length)
    (hwaited : next.phase.waited = (state.subscribers index).phase.waited)
    (hendpoints : next.phase.testing = true →
      (state.subscribers index).phase.testing = true ∧
        next.endpoints = (state.subscribers index).endpoints)
    (hdata : next.phase.holdsData = true →
      (state.subscribers index).phase.holdsData = true ∧
        next.data = (state.subscribers index).data)
    (hphase : next.phase ≠ .returned) :
    Rounds parameters (state.withSubscriber index next) := by
  refine hrounds.withSubscriber ?_ ?_ ?_
    (Subscriber.Stands.placed (?_ : Subscriber.Stands _ _ done) hphase)
  · rw [hcommands]
    intro command hmem
    rcases List.mem_append.mp hmem with hold | hnew
    · exact hrounds.answers index command hold
    · exact hanswers command hnew
  · rw [hcommands, List.length_append]
    exact Nat.le_add_right _ _
  · rw [hheard]
    exact hrounds.heard index
  · constructor
    case payloads => exact hpayloads.trans hstands.payloads
    case answered =>
      rw [hcommands, List.length_append, hstands.answered, hanswered, Nat.add_assoc]
    case waited => rw [hheard, hstands.waited, hwaited, hcount]
    case endpoints =>
      intro htesting
      obtain ⟨hbefore, hsame⟩ := hendpoints htesting
      rw [hpayloads, hsame]
      exact hstands.endpoints hbefore
    case data =>
      intro hholds
      obtain ⟨hbefore, hsame⟩ := hdata hholds
      exact hsame.trans (hstands.data hbefore)

/-- `test` fails between two answers. -/
theorem Rounds.subscriberFails {parameters : Parameters} {state : State n} {index : Fin n}
    {next : Subscriber} {done : ℕ} (hrounds : Rounds parameters state)
    (hstands : (state.subscribers index).Stands parameters done)
    (hheard : next.heard = (state.subscribers index).heard)
    (hcount : next.commandMsgCount = (state.subscribers index).commandMsgCount)
    (hcommands : next.commands = (state.subscribers index).commands)
    (hphase : next.phase = .returned)
    (hbehind : (state.subscribers index).phase.answered =
        (state.subscribers index).phase.waited →
      (state.subscribers index).phase.waited = 2) :
    Rounds parameters (state.withSubscriber index next) := by
  have hle := (state.subscribers index).phase.answered_le_waited
  have hanswered := hstands.answered
  have hwaited := hstands.waited
  refine hrounds.withSilent hcommands hheard
    (Subscriber.placed_returned hphase ⟨_, by rw [hheard, hcount]; exact hwaited, ?_, ?_⟩)
  · rw [hcommands]
    omega
  · rw [hcommands]
    intro heq
    have htwo := hbehind (by omega)
    omega

theorem Rounds.subscriberBegin {parameters : Parameters} {state : State n} {index : Fin n}
    {next : Subscriber} {written : Bool} (hrounds : Rounds parameters state)
    (hbegin : (state.subscribers index).begin written = some next) :
    Rounds parameters (state.withSubscriber index next) := by
  obtain ⟨hphase, rfl⟩ := Subscriber.begin_eq_some_iff.mp hbegin
  obtain ⟨done, hstands⟩ := (hrounds.placed index).stands (by rw [hphase]; decide)
  split_ifs
  · exact hrounds.subscriberMoves hstands rfl rfl rfl rfl
      (fun _ hmem => Or.inl (List.mem_singleton.mp hmem)) (by rw [hphase]; rfl)
      (by rw [hphase]; rfl) (fun _ => ⟨by rw [hphase]; rfl, rfl⟩)
      (fun _ => ⟨by rw [hphase]; rfl, rfl⟩) Subscriber.Phase.noConfusion
  · exact hrounds.subscriberFails hstands rfl rfl rfl rfl (by rw [hphase]; decide)

theorem Rounds.subscriberDiscovered {parameters : Parameters} {state : State n}
    {index : Fin n} (hrounds : Rounds parameters state)
    (hphase : (state.subscribers index).phase = .discovery) :
    Rounds parameters
      (state.withSubscriber index { state.subscribers index with phase := .beginning }) := by
  obtain ⟨done, hstands⟩ := (hrounds.placed index).stands (by rw [hphase]; decide)
  exact hrounds.subscriberMoves hstands rfl rfl rfl (List.append_nil _).symm
    (fun _ hmem => absurd hmem List.not_mem_nil) (by rw [hphase]; rfl) (by rw [hphase]; rfl)
    (fun _ => ⟨by rw [hphase]; rfl, rfl⟩) (fun _ => ⟨by rw [hphase]; rfl, rfl⟩)
    Subscriber.Phase.noConfusion

theorem Rounds.subscriberDeleteData {parameters : Parameters} {state : State n}
    {index : Fin n} {next : Subscriber} (hrounds : Rounds parameters state)
    (hdelete : (state.subscribers index).deleteData = some next) :
    Rounds parameters (state.withSubscriber index next) := by
  obtain ⟨hphase, rfl⟩ := Subscriber.deleteData_eq_some_iff.mp hdelete
  obtain ⟨done, hstands⟩ := (hrounds.placed index).stands (by rw [hphase]; decide)
  exact hrounds.subscriberMoves hstands rfl rfl rfl (List.append_nil _).symm
    (fun _ hmem => absurd hmem List.not_mem_nil) (by rw [hphase]; rfl) (by rw [hphase]; rfl)
    (fun _ => ⟨by rw [hphase]; rfl, rfl⟩) Bool.noConfusion Subscriber.Phase.noConfusion

theorem Rounds.subscriberRemove {parameters : Parameters} {state : State n} {index : Fin n}
    {next : Subscriber} {removed : Bool} (hrounds : Rounds parameters state)
    (hremove : (state.subscribers index).remove removed = some next) :
    Rounds parameters (state.withSubscriber index next) := by
  obtain ⟨hphase, rfl⟩ := Subscriber.remove_eq_some_iff.mp hremove
  obtain ⟨done, hstands⟩ := (hrounds.placed index).stands (by rw [hphase]; decide)
  by_cases hstatus : (state.subscribers index).testStatus = -1
  · exact hrounds.subscriberFails hstands rfl rfl rfl (if_pos hstatus)
      (by rw [hphase]; decide)
  · simp only [hstatus, if_false]
    exact hrounds.subscriberMoves hstands rfl rfl rfl (List.append_nil _).symm
      (fun _ hmem => absurd hmem List.not_mem_nil) (by rw [hphase]; rfl)
      (by rw [hphase]; rfl) Bool.noConfusion Bool.noConfusion Subscriber.Phase.noConfusion

theorem Rounds.subscriberEnd {parameters : Parameters} {state : State n} {index : Fin n}
    {next : Subscriber} {written : Bool} (hrounds : Rounds parameters state)
    (hend : (state.subscribers index).end_ written = some next) :
    Rounds parameters (state.withSubscriber index next) := by
  obtain ⟨hphase, rfl⟩ := Subscriber.ends_eq_some_iff.mp hend
  obtain ⟨done, hstands⟩ := (hrounds.placed index).stands (by rw [hphase]; decide)
  split_ifs
  · exact hrounds.subscriberMoves hstands rfl rfl rfl rfl
      (fun _ hmem => Or.inr (List.mem_singleton.mp hmem)) (by rw [hphase]; rfl)
      (by rw [hphase]; rfl) Bool.noConfusion Bool.noConfusion Subscriber.Phase.noConfusion
  · exact hrounds.subscriberFails hstands rfl rfl rfl rfl (by rw [hphase]; decide)

theorem Rounds.subscriberAcknowledged {parameters : Parameters} {state : State n}
    {index : Fin n} {next : Subscriber} {succeeded : Bool} (hrounds : Rounds parameters state)
    (hacknowledged : (state.subscribers index).acknowledged succeeded = some next) :
    Rounds parameters (state.withSubscriber index next) := by
  obtain ⟨hphase, rfl⟩ := Subscriber.acknowledged_eq_some_iff.mp hacknowledged
  obtain ⟨done, hstands⟩ := (hrounds.placed index).stands (by rw [hphase]; decide)
  split_ifs
  · by_cases hnone : (state.subscribers index).payloads.tail = []
    · refine hrounds.subscriberFails hstands rfl rfl rfl ?_ (by rw [hphase]; decide)
      simp only [Subscriber.nextPayload, hnone, if_true]
    · have hanswered := hstands.answered
      have hwaited := hstands.waited
      rw [hphase] at hanswered hwaited
      simp only [Subscriber.nextPayload, hnone, if_false]
      refine hrounds.withSilent rfl rfl
        (Subscriber.Stands.placed (?_ : Subscriber.Stands _ _ (done + 1))
          Subscriber.Phase.noConfusion)
      refine ⟨?_, hanswered, hwaited, Bool.noConfusion, Bool.noConfusion⟩
      rw [hstands.payloads, List.tail_drop]
  · exact hrounds.subscriberFails hstands rfl rfl rfl rfl (by rw [hphase]; decide)

/-! ## Every step -/

theorem Rounds.of_channels {parameters : Parameters} {state next : State n}
    (hrounds : Rounds parameters state) (hpublisher : next.publisher = state.publisher)
    (hlog : next.log = state.log) (hheard : next.heard = state.heard)
    (hsubscribers : next.subscribers = state.subscribers) : Rounds parameters next := by
  obtain ⟨publisher, log, heard, sent, channels, subscribers⟩ := next
  subst hpublisher hlog hheard hsubscribers
  constructor
  case questions => exact hrounds.questions
  case answers => exact hrounds.answers
  case hears => exact hrounds.hears
  case heard => exact hrounds.heard
  case asked => exact hrounds.asked
  case placed => exact hrounds.placed
  case turn =>
    intro hended
    obtain ⟨done, hturn⟩ := hrounds.turn hended
    exact ⟨done, hturn.payloads, hturn.log, hturn.heard, hturn.count, hturn.endpoints⟩
  case ended => exact hrounds.ended

/-- The listeners of the data readers take no part in the rounds. -/
theorem Rounds.handle {parameters : Parameters} {state : State n} {next : Publisher}
    (hrounds : Rounds parameters state) (hphase : next.phase = state.publisher.phase)
    (hpayloads : next.payloads = state.publisher.payloads)
    (hcount : next.commandMsgCount = state.publisher.commandMsgCount)
    (hendpoints : next.endpoints = state.publisher.endpoints) :
    Rounds parameters (state.withPublisher next) := by
  cases hended : state.publisher.phase.ended with
  | true =>
      exact hrounds.give_up (Publisher.Phase.awaiting_of_ended hended) (by rw [hphase, hended])
  | false =>
      exact hrounds.move hended hpayloads hcount hendpoints (by rw [hphase]) (by rw [hphase])
        (by rw [hphase])

theorem Rounds.useData {parameters : Parameters} {state : State n}
    (hrounds : Rounds parameters state) (index : Fin n) :
    Rounds parameters
      (state.withSubscriber index ((state.subscribers index).useData parameters)) := by
  unfold Subscriber.useData
  split_ifs
  · exact hrounds.withSilent rfl rfl (hrounds.placed index)
  · refine hrounds.withSilent rfl rfl ?_
    have hplaced := hrounds.placed index
    unfold Subscriber.Placed at hplaced ⊢
    split_ifs with hphase
    · rw [if_pos hphase] at hplaced
      exact hplaced
    · rw [if_neg hphase] at hplaced
      obtain ⟨done, hstands⟩ := hplaced
      exact ⟨done, hstands.payloads, hstands.answered, hstands.waited, hstands.endpoints,
        hstands.data⟩

theorem Rounds.step {parameters : Parameters} {state next : State n} {action : Action n}
    (hrounds : Rounds parameters state)
    (hstep : CppProj.LatencyTest.step parameters state action = some next) :
    Rounds parameters next := by
  cases action with
  | prepare prepared =>
      obtain ⟨publisher, hprepare, rfl⟩ := Option.map_eq_some_iff.mp hstep
      exact (hrounds.prepare hprepare).of_channels rfl rfl rfl rfl
  | ready written =>
      obtain ⟨⟨publisher, commands⟩, hready, rfl⟩ := Option.map_eq_some_iff.mp hstep
      exact hrounds.ready hready
  | discovered =>
      simp only [CppProj.LatencyTest.step, discoveredStep] at hstep
      split_ifs at hstep with hdiscovered
      cases hstep
      have hphase := hdiscovered.1
      exact hrounds.move (by rw [hphase]; rfl) rfl rfl rfl (by rw [hphase]; rfl)
        (by rw [hphase]; rfl) (by rw [hphase]; rfl)
  | hear index =>
      simp only [CppProj.LatencyTest.step, hearStep] at hstep
      split at hstep
      case h_1 command hcommand hfree =>
        cases hstep
        exact hrounds.hear hcommand
      case h_2 => cases hstep
  | commandsCome =>
      obtain ⟨publisher, hcome, rfl⟩ := Option.map_eq_some_iff.mp hstep
      exact hrounds.commandsCome hcome
  | nextSample written =>
      obtain ⟨⟨publisher, commands⟩, hnext, rfl⟩ := Option.map_eq_some_iff.mp hstep
      exact hrounds.nextSample hnext
  | release =>
      obtain ⟨publisher, hrelease, rfl⟩ := Option.map_eq_some_iff.mp hstep
      obtain ⟨hphase, rfl⟩ := Publisher.release_eq_some_iff.mp hrelease
      exact hrounds.samples (by rw [hphase]; rfl) rfl rfl rfl rfl
  | loan loaned =>
      obtain ⟨publisher, hloan, rfl⟩ := Option.map_eq_some_iff.mp hstep
      obtain ⟨hphase, rfl⟩ := Publisher.loan_eq_some_iff.mp hloan
      split_ifs <;> exact hrounds.samples (by rw [hphase]; rfl) rfl rfl rfl rfl
  | check =>
      obtain ⟨publisher, hcheck, rfl⟩ := Option.map_eq_some_iff.mp hstep
      obtain ⟨hphase, rfl⟩ := Publisher.check_eq_some_iff.mp hcheck
      refine hrounds.samples (by rw [hphase]; rfl) ?_ rfl rfl rfl
      dsimp only
      split_ifs <;> rfl
  | reset =>
      obtain ⟨publisher, hreset, rfl⟩ := Option.map_eq_some_iff.mp hstep
      obtain ⟨hphase, rfl⟩ := Publisher.reset_eq_some_iff.mp hreset
      exact hrounds.samples (by rw [hphase]; rfl) rfl rfl rfl rfl
  | start now =>
      obtain ⟨publisher, hstart, rfl⟩ := Option.map_eq_some_iff.mp hstep
      obtain ⟨hphase, rfl⟩ := Publisher.start_eq_some_iff.mp hstart
      exact hrounds.samples (by rw [hphase]; rfl) rfl rfl rfl rfl
  | write written =>
      obtain ⟨⟨publisher, samples⟩, hwrite, rfl⟩ := Option.map_eq_some_iff.mp hstep
      obtain ⟨hphase, hdone⟩ := Publisher.write_eq_some_iff.mp hwrite
      split_ifs at hdone
      · cases hdone
        refine Rounds.of_channels (hrounds.samples (by rw [hphase]; rfl) ?_ ?_ ?_ ?_) rfl rfl rfl
          rfl
        all_goals rfl
      · cases hdone
        exact Rounds.of_channels (hrounds.give_up (by rw [hphase]; rfl) rfl) rfl rfl rfl rfl
  | goOn timeout =>
      obtain ⟨publisher, hgoOn, rfl⟩ := Option.map_eq_some_iff.mp hstep
      obtain ⟨hwaiting, rfl⟩ := Publisher.goOn_eq_some_iff.mp hgoOn
      exact hrounds.samples (by rw [hwaiting.1]; rfl) rfl rfl rfl rfl
  | receive index =>
      simp only [CppProj.LatencyTest.step, receiveStep] at hstep
      split at hstep
      case h_1 echo hendpoints hhandling hecho =>
        cases hstep
        have hreceived : Rounds parameters
            (state.withPublisher (state.publisher.receive parameters echo)) :=
          hrounds.handle rfl rfl rfl rfl
        exact hreceived.of_channels rfl rfl rfl rfl
      case h_2 => cases hstep
  | lock =>
      obtain ⟨publisher, hlock, rfl⟩ := Option.map_eq_some_iff.mp hstep
      obtain ⟨echo, -, rfl⟩ := Publisher.lock_cases hlock
      exact hrounds.handle rfl rfl rfl rfl
  | compare =>
      obtain ⟨publisher, hcompare, rfl⟩ := Option.map_eq_some_iff.mp hstep
      obtain ⟨echo, -, rfl⟩ := Publisher.compare_cases hcompare
      exact hrounds.handle rfl rfl rfl rfl
  | measure now positive long =>
      obtain ⟨publisher, hmeasure, rfl⟩ := Option.map_eq_some_iff.mp hstep
      obtain ⟨echo, -, ⟨-, rfl⟩ | ⟨-, rfl⟩⟩ := Publisher.measure_cases hmeasure
      · exact hrounds.handle rfl rfl rfl rfl
      · exact hrounds.handle rfl rfl rfl rfl
  | clear =>
      obtain ⟨publisher, hclear, rfl⟩ := Option.map_eq_some_iff.mp hstep
      obtain ⟨echo, -, rfl⟩ := Publisher.clear_cases hclear
      exact hrounds.handle rfl rfl rfl rfl
  | unlock =>
      obtain ⟨publisher, hunlock, rfl⟩ := Option.map_eq_some_iff.mp hstep
      obtain ⟨echo, -, rfl⟩ := Publisher.unlock_cases hunlock
      exact hrounds.handle rfl rfl rfl rfl
  | deleteData =>
      obtain ⟨publisher, hdelete, rfl⟩ := Option.map_eq_some_iff.mp hstep
      obtain ⟨hphase, rfl⟩ := Publisher.deleteData_eq_some_iff.mp hdelete
      exact hrounds.move (by rw [hphase]; rfl) rfl rfl rfl (by rw [hphase]; rfl)
        (by rw [hphase]; rfl) (by rw [hphase]; rfl)
  | remove removed =>
      obtain ⟨publisher, hremove, rfl⟩ := Option.map_eq_some_iff.mp hstep
      exact hrounds.remove hremove
  | subscriberHears index =>
      simp only [CppProj.LatencyTest.step, subscriberHearsStep] at hstep
      split at hstep
      case h_1 command hcommand =>
        cases hstep
        exact hrounds.subscriberHears hcommand
      case h_2 => cases hstep
  | subscriberCommandCome index =>
      obtain ⟨subscriber, hcome, rfl⟩ := Option.map_eq_some_iff.mp hstep
      exact hrounds.subscriberCommandCome hcome
  | subscriberPrepare index prepared =>
      obtain ⟨subscriber, hprepare, rfl⟩ := Option.map_eq_some_iff.mp hstep
      exact (hrounds.subscriberPrepare hprepare).of_channels rfl rfl rfl rfl
  | subscriberDiscovered index =>
      simp only [CppProj.LatencyTest.step, subscriberDiscoveredStep] at hstep
      split_ifs at hstep with hdiscovered
      cases hstep
      exact hrounds.subscriberDiscovered hdiscovered.1
  | subscriberBegin index written =>
      obtain ⟨subscriber, hbegin, rfl⟩ := Option.map_eq_some_iff.mp hstep
      exact hrounds.subscriberBegin hbegin
  | echo index bounce written =>
      simp only [CppProj.LatencyTest.step, echoStep] at hstep
      split at hstep
      case h_1 =>
        cases hstep
        exact (hrounds.useData index).of_channels rfl rfl rfl rfl
      case h_2 => cases hstep
  | subscriberDeleteData index =>
      obtain ⟨subscriber, hdelete, rfl⟩ := Option.map_eq_some_iff.mp hstep
      exact hrounds.subscriberDeleteData hdelete
  | subscriberRemove index removed =>
      obtain ⟨subscriber, hremove, rfl⟩ := Option.map_eq_some_iff.mp hstep
      exact hrounds.subscriberRemove hremove
  | subscriberEnd index written =>
      obtain ⟨subscriber, hend, rfl⟩ := Option.map_eq_some_iff.mp hstep
      exact hrounds.subscriberEnd hend
  | subscriberAcknowledged index succeeded =>
      obtain ⟨subscriber, hacknowledged, rfl⟩ := Option.map_eq_some_iff.mp hstep
      exact hrounds.subscriberAcknowledged hacknowledged
  | loseSample index =>
      simp only [CppProj.LatencyTest.step, loseSampleStep] at hstep
      split_ifs at hstep
      cases hstep
      exact hrounds.of_channels rfl rfl rfl rfl
  | loseEcho index =>
      simp only [CppProj.LatencyTest.step, loseEchoStep] at hstep
      split_ifs at hstep
      cases hstep
      exact hrounds.of_channels rfl rfl rfl rfl

theorem Rounds.of_run {parameters : Parameters} {actions : List (Action n)} {state : State n}
    (hrun : (system parameters).run (State.initial parameters) actions = some state) :
    Rounds parameters state :=
  run_preserves (Rounds parameters) (fun _ _ _ hrounds hstep => hrounds.step hstep)
    (Rounds.initial parameters) hrun

/-! ## The endpoints are made and removed in turn -/

theorem Publisher.Phase.asked_le (phase : Phase) : phase.asked ≤ 2 := by
  cases phase <;> decide

theorem Publisher.Phase.asked_pos {phase : Phase} (hawaiting : phase.awaiting = true) :
    0 < phase.asked := by
  cases phase <;> first | decide | cases hawaiting

theorem Publisher.Phase.prepared_of_asked {phase : Phase} (hasked : 0 < phase.asked) :
    phase.prepared = true := by
  cases phase <;> first | decide | exact absurd hasked (Nat.lt_irrefl 0)

/-- A subscriber that has its endpoints is at the payload of the publisher. -/
theorem Turn.same_payload {parameters : Parameters} {state : State n} {done other : ℕ}
    (hrounds : Rounds parameters state) (hturn : Turn parameters state done) {index : Fin n}
    (hstands : (state.subscribers index).Stands parameters other)
    (htesting : (state.subscribers index).phase.testing = true) :
    other = done ∧ 0 < state.publisher.phase.asked := by
  have hlog := hturn.log
  have hpublisher := hturn.heard index
  have hhears := hrounds.hears index
  have hheard := hrounds.heard index
  have hanswered := hstands.answered
  have hwaited := hstands.waited
  have hasked := state.publisher.phase.asked_le
  have hpositive : state.publisher.phase.awaiting = true → 0 < state.publisher.phase.asked :=
    Publisher.Phase.asked_pos
  cases hphase : (state.subscribers index).phase <;> rw [hphase] at htesting hanswered hwaited
  case discovery | beginning | awaitStop | deletingData | removing =>
    simp only [Subscriber.Phase.answered, Subscriber.Phase.waited] at hanswered hwaited
    split_ifs at hpublisher with hawaiting
    · have := hpositive hawaiting
      omega
    · omega
  all_goals cases htesting

/-- A subscriber has endpoints from its `READY` for a payload on, of the size of
that payload, and not when it writes `END`. -/
def Subscriber.Keeps (parameters : Parameters) (subscriber : Subscriber) : Prop :=
  ∀ size, subscriber.endpoints = some size →
    (subscriber.phase.testing = true ∨ subscriber.phase = .returned) ∧
      ∃ done, parameters.dataSizes[done]? = some size ∧
        subscriber.commands.length ≤ 2 * done + 1 ∧ 2 * done + 1 ≤ subscriber.heard

namespace Subscriber.Keeps

variable {parameters : Parameters} {subscriber next : Subscriber}

theorem move (hkeeps : subscriber.Keeps parameters)
    (hendpoints : next.endpoints = subscriber.endpoints)
    (hcommands : next.commands = subscriber.commands) (hheard : subscriber.heard ≤ next.heard)
    (hphase : subscriber.phase.testing = true ∨ subscriber.phase = .returned →
      next.phase.testing = true ∨ next.phase = .returned) : next.Keeps parameters := by
  intro size hsize
  rw [hendpoints] at hsize
  obtain ⟨hhas, done, hget, hanswers, hasked⟩ := hkeeps size hsize
  exact ⟨hphase hhas, done, hget, by rw [hcommands]; exact hanswers, hasked.trans hheard⟩

theorem of_none (hnone : next.endpoints = none) : next.Keeps parameters := by
  intro size hsize
  rw [hnone] at hsize
  cases hsize

theorem endpoints_none (hkeeps : subscriber.Keeps parameters)
    (htesting : subscriber.phase.testing = false) (hphase : subscriber.phase ≠ .returned) :
    subscriber.endpoints = none := by
  cases hendpoints : subscriber.endpoints with
  | none => rfl
  | some size =>
      rcases (hkeeps size hendpoints).1 with hhas | hreturned
      · exact absurd (hhas.symm.trans htesting) Bool.noConfusion
      · exact absurd hreturned hphase

end Subscriber.Keeps

/-- A step of this subscriber or another. -/
theorem Subscriber.Keeps.withSubscriber {parameters : Parameters} {state : State n}
    {index other : Fin n} {next : Subscriber}
    (hkeeps : (state.subscribers index).Keeps parameters)
    (hnext : other = index → next.Keeps parameters) :
    ((state.withSubscriber other next).subscribers index).Keeps parameters := by
  simp only [State.withSubscriber, Function.update_apply]
  split_ifs with hsame
  · exact hnext hsame.symm
  · exact hkeeps

theorem Rounds.keeps_prepare {parameters : Parameters} {state : State n} {index : Fin n}
    {next : Subscriber} {prepared : Bool} (hrounds : Rounds parameters state)
    (hkeeps : (state.subscribers index).Keeps parameters)
    (hprepare : (state.subscribers index).prepare prepared = some next) :
    next.Keeps parameters := by
  obtain ⟨hphase, size, rest, hpayloads, hnext⟩ := Subscriber.prepare_cases hprepare
  obtain ⟨done, hstands⟩ := (hrounds.placed index).stands (by rw [hphase]; decide)
  have hanswered := hstands.answered
  have hwaited := hstands.waited
  have hdrop := hstands.payloads
  rw [hphase] at hanswered hwaited
  rw [hpayloads] at hdrop
  simp only [Subscriber.Phase.answered, Subscriber.Phase.waited] at hanswered hwaited
  have hget : parameters.dataSizes[done]? = some size := by
    rw [← Nat.add_zero done, ← List.getElem?_drop, ← hdrop]
    rfl
  rcases hnext with ⟨-, rfl⟩ | rfl
  · intro mine hmine
    cases hmine
    refine ⟨Or.inl rfl, done, hget, ?_, ?_⟩
    · dsimp only
      omega
    · dsimp only
      omega
  · exact Subscriber.Keeps.of_none (hkeeps.endpoints_none (by rw [hphase]; rfl)
      (by rw [hphase]; decide))

/-- `BEGIN` is the first answer for the payload. -/
theorem Rounds.keeps_begin {parameters : Parameters} {state : State n} {index : Fin n}
    {next : Subscriber} {written : Bool} (hrounds : Rounds parameters state)
    (hkeeps : (state.subscribers index).Keeps parameters)
    (hbegin : (state.subscribers index).begin written = some next) :
    next.Keeps parameters := by
  obtain ⟨hphase, rfl⟩ := Subscriber.begin_eq_some_iff.mp hbegin
  split_ifs
  · obtain ⟨other, hstands⟩ := (hrounds.placed index).stands (by rw [hphase]; decide)
    have hanswered := hstands.answered
    rw [hphase] at hanswered
    simp only [Subscriber.Phase.answered] at hanswered
    intro size hsize
    obtain ⟨-, done, hget, hanswers, hasked⟩ := hkeeps size hsize
    refine ⟨Or.inl rfl, done, hget, ?_, hasked⟩
    rw [List.length_append, List.length_singleton]
    omega
  · exact hkeeps.move rfl rfl (Nat.le_refl _) fun _ => Or.inr rfl

/-- Only a `destroy_data_endpoints` that fails leaves endpoints behind. -/
theorem Rounds.keeps_step {parameters : Parameters} {state next : State n} {action : Action n}
    {index : Fin n} (hrounds : Rounds parameters state)
    (hkeeps : (state.subscribers index).Keeps parameters)
    (hremoved : action ≠ .subscriberRemove index false)
    (hstep : CppProj.LatencyTest.step parameters state action = some next) :
    (next.subscribers index).Keeps parameters := by
  cases action with
  | prepare | ready | commandsCome | nextSample | release | loan | check | reset | start | write
  | goOn | lock | compare | measure | clear | unlock | deleteData | remove =>
      obtain ⟨publisher, -, rfl⟩ := Option.map_eq_some_iff.mp hstep
      exact hkeeps
  | discovered =>
      simp only [CppProj.LatencyTest.step, discoveredStep] at hstep
      split_ifs at hstep
      cases hstep
      exact hkeeps
  | hear other =>
      simp only [CppProj.LatencyTest.step, hearStep] at hstep
      split at hstep <;> cases hstep
      exact hkeeps
  | receive other =>
      simp only [CppProj.LatencyTest.step, receiveStep] at hstep
      split at hstep <;> cases hstep
      exact hkeeps
  | loseSample other =>
      simp only [CppProj.LatencyTest.step, loseSampleStep] at hstep
      split_ifs at hstep
      cases hstep
      exact hkeeps
  | loseEcho other =>
      simp only [CppProj.LatencyTest.step, loseEchoStep] at hstep
      split_ifs at hstep
      cases hstep
      exact hkeeps
  | subscriberHears other =>
      simp only [CppProj.LatencyTest.step, subscriberHearsStep] at hstep
      split at hstep <;> cases hstep
      refine hkeeps.withSubscriber fun hsame => ?_
      subst hsame
      exact hkeeps.move rfl rfl (Nat.le_succ _) id
  | subscriberCommandCome other =>
      obtain ⟨subscriber, hcome, rfl⟩ := Option.map_eq_some_iff.mp hstep
      refine hkeeps.withSubscriber fun hsame => ?_
      subst hsame
      obtain ⟨-, hnext⟩ := Subscriber.commandCome_cases hcome
      rcases hnext with ⟨hphase, rfl⟩ | ⟨hphase, rfl⟩
      · exact Subscriber.Keeps.of_none (hkeeps.endpoints_none (by rw [hphase]; rfl)
          (by rw [hphase]; decide))
      · exact hkeeps.move rfl rfl (Nat.le_refl _) fun _ => Or.inl rfl
  | subscriberPrepare other prepared =>
      obtain ⟨subscriber, hprepare, rfl⟩ := Option.map_eq_some_iff.mp hstep
      refine Subscriber.Keeps.withSubscriber hkeeps fun hsame => ?_
      subst hsame
      exact hrounds.keeps_prepare hkeeps hprepare
  | subscriberDiscovered other =>
      simp only [CppProj.LatencyTest.step, subscriberDiscoveredStep] at hstep
      split_ifs at hstep
      cases hstep
      refine hkeeps.withSubscriber fun hsame => ?_
      subst hsame
      exact hkeeps.move rfl rfl (Nat.le_refl _) fun _ => Or.inl rfl
  | subscriberBegin other written =>
      obtain ⟨subscriber, hbegin, rfl⟩ := Option.map_eq_some_iff.mp hstep
      refine hkeeps.withSubscriber fun hsame => ?_
      subst hsame
      exact hrounds.keeps_begin hkeeps hbegin
  | echo other bounce written =>
      simp only [CppProj.LatencyTest.step, echoStep] at hstep
      split at hstep <;> cases hstep
      refine Subscriber.Keeps.withSubscriber hkeeps fun hsame => ?_
      subst hsame
      unfold Subscriber.useData
      split_ifs
      · exact hkeeps
      · exact hkeeps.move rfl rfl (Nat.le_refl _) id
  | subscriberDeleteData other =>
      obtain ⟨subscriber, hdelete, rfl⟩ := Option.map_eq_some_iff.mp hstep
      refine hkeeps.withSubscriber fun hsame => ?_
      subst hsame
      obtain ⟨-, rfl⟩ := Subscriber.deleteData_eq_some_iff.mp hdelete
      exact hkeeps.move rfl rfl (Nat.le_refl _) fun _ => Or.inl rfl
  | subscriberRemove other removed =>
      obtain ⟨subscriber, hremove, rfl⟩ := Option.map_eq_some_iff.mp hstep
      refine hkeeps.withSubscriber fun hsame => ?_
      subst hsame
      obtain ⟨-, rfl⟩ := Subscriber.remove_eq_some_iff.mp hremove
      cases removed with
      | false => exact absurd rfl hremoved
      | true => exact Subscriber.Keeps.of_none rfl
  | subscriberEnd other written =>
      obtain ⟨subscriber, hend, rfl⟩ := Option.map_eq_some_iff.mp hstep
      refine hkeeps.withSubscriber fun hsame => ?_
      subst hsame
      obtain ⟨hphase, rfl⟩ := Subscriber.ends_eq_some_iff.mp hend
      have hnone := hkeeps.endpoints_none (by rw [hphase]; rfl) (by rw [hphase]; decide)
      split_ifs <;> exact Subscriber.Keeps.of_none hnone
  | subscriberAcknowledged other succeeded =>
      obtain ⟨subscriber, hacknowledged, rfl⟩ := Option.map_eq_some_iff.mp hstep
      refine hkeeps.withSubscriber fun hsame => ?_
      subst hsame
      obtain ⟨hphase, rfl⟩ := Subscriber.acknowledged_eq_some_iff.mp hacknowledged
      have hnone := hkeeps.endpoints_none (by rw [hphase]; rfl) (by rw [hphase]; decide)
      split_ifs <;> exact Subscriber.Keeps.of_none hnone

theorem keeps_of_run {parameters : Parameters} {actions : List (Action n)} {state : State n}
    (hrun : (system parameters).run (State.initial parameters) actions = some state)
    {index : Fin n} (hremoved : .subscriberRemove index false ∉ actions) :
    (state.subscribers index).Keeps parameters := by
  have hboth : Rounds parameters state ∧ (state.subscribers index).Keeps parameters := by
    refine run_preserves_of_stepsMeet
      (fun state => Rounds parameters state ∧ (state.subscribers index).Keeps parameters)
      (fun _ _ _ hinvariant hmeets hstep => ?_)
      ⟨Rounds.initial parameters, Subscriber.Keeps.of_none rfl⟩
      (stepsMeet_of_forall_mem
        (fun action hmem hsame => hremoved (hsame ▸ hmem) :
          ∀ action ∈ actions, action ≠ .subscriberRemove index false) _) hrun
    exact ⟨hinvariant.1.step hstep, hinvariant.1.keeps_step hinvariant.2 hmeets hstep⟩
  exact hboth.2

/-- The data endpoints of a subscriber live within those of the publisher, with
the same type, but for what its own `destroy_data_endpoints` left.  While samples
are sent every subscriber can echo them, and no wait drops a command that another
one needs: the publisher counts one answer of each subscriber that has given it. -/
structure InTurn (actions : List (Action n)) (state : State n) : Prop where
  endpoints : state.publisher.phase.ended = false → ∀ index size,
    (state.subscribers index).endpoints = some size →
      state.publisher.endpoints = some size ∨ .subscriberRemove index false ∈ actions
  removes : state.publisher.phase = .deletingData ∨ state.publisher.phase = .removing →
    ∀ index, (state.subscribers index).endpoints = none ∨
      .subscriberRemove index false ∈ actions
  sends : state.publisher.phase.sends = true → ∀ index,
    (state.subscribers index).phase = .awaitStop ∧ (state.subscribers index).data = true ∧
      ∃ size, (state.subscribers index).endpoints = some size ∧
        state.publisher.endpoints = some size
  commands : state.publisher.phase.ended = false → ∃ answered,
    (∀ index, state.heard index = answered ∨ state.heard index = answered + 1) ∧
      state.publisher.commandMsgCount =
        (Finset.univ.filter fun index => state.heard index = answered + 1).card
  subscriberCommands : ∀ index, (state.subscribers index).phase ≠ .returned →
    (state.subscribers index).commandMsgCount ≤ 1

/-- While samples are sent every subscriber waits for `STOP`. -/
theorem Rounds.awaitStop {parameters : Parameters} {state : State n}
    (hrounds : Rounds parameters state) (hsends : state.publisher.phase.sends = true)
    (index : Fin n) :
    (state.subscribers index).phase = .awaitStop ∧
      ∃ done, (state.subscribers index).Stands parameters done := by
  obtain ⟨hasked, hawaiting, -, hended⟩ := Publisher.Phase.sends_flags hsends
  obtain ⟨done, hturn⟩ := hrounds.turn hended
  have hlog := hturn.log
  have hpublisher := hturn.heard index
  have hhears := hrounds.hears index
  have hheard := hrounds.heard index
  have hanswers := (hrounds.placed index).answers_le
  rw [hasked] at hlog hpublisher
  rw [hawaiting, if_neg Bool.false_ne_true] at hpublisher
  have hanswered : (state.subscribers index).commands.length = 2 * done + 1 := by omega
  have hwaited : (state.subscribers index).heard = 2 * done + 1 := by omega
  obtain ⟨hstop, -, hstands⟩ := (hrounds.placed index).awaitStop hanswered hwaited
  exact ⟨hstop, done, hstands⟩

/-- The publisher is at the payload of the endpoints, and not past its answers. -/
theorem Turn.of_keeps {parameters : Parameters} {state : State n} {done : ℕ}
    (hrounds : Rounds parameters state) (hturn : Turn parameters state done) {index : Fin n}
    (hkeeps : (state.subscribers index).Keeps parameters) {size : UInt32}
    (hsize : (state.subscribers index).endpoints = some size) :
    state.publisher.endpoints = some size ∧ 0 < state.publisher.phase.asked ∧
      (state.publisher.phase.awaiting = true ∨ state.publisher.phase.asked = 1) := by
  obtain ⟨-, other, hget, hanswers, hasked⟩ := hkeeps size hsize
  have hlog := hturn.log
  have hpublisher := hturn.heard index
  have hhears := hrounds.hears index
  have hheard := hrounds.heard index
  have hle := state.publisher.phase.asked_le
  have hpositive : state.publisher.phase.awaiting = true → 0 < state.publisher.phase.asked :=
    Publisher.Phase.asked_pos
  have hplace : other = done ∧ 0 < state.publisher.phase.asked ∧
      (state.publisher.phase.awaiting = true ∨ state.publisher.phase.asked = 1) := by
    split_ifs at hpublisher with hawaiting
    · have hone := hpositive hawaiting
      exact ⟨by omega, hone, Or.inl hawaiting⟩
    · exact ⟨by omega, by omega, Or.inr (by omega)⟩
  obtain ⟨rfl, hfirst, hplace⟩ := hplace
  obtain ⟨mine, rest, hpayloads, hendpoints⟩ := hturn.endpoints
  rw [Publisher.Phase.prepared_of_asked hfirst, if_pos rfl] at hendpoints
  rw [hturn.payloads] at hpayloads
  rw [← Nat.add_zero other, ← List.getElem?_drop, hpayloads] at hget
  cases hget
  exact ⟨hendpoints, hfirst, hplace⟩

/-- What the publisher counts is one answer of each of these subscribers. -/
theorem Turn.answers {parameters : Parameters} {state : State n} {done : ℕ}
    (hrounds : Rounds parameters state) (hturn : Turn parameters state done) :
    ∃ answered, (∀ index, state.heard index = answered ∨ state.heard index = answered + 1) ∧
      state.publisher.commandMsgCount =
        (Finset.univ.filter fun index => state.heard index = answered + 1).card := by
  have hlog := hturn.log
  cases hawaiting : state.publisher.phase.awaiting with
  | true =>
      have hasked := Publisher.Phase.asked_pos hawaiting
      refine ⟨2 * done + state.publisher.phase.asked - 1, fun index => ?_, ?_⟩
      · have hpublisher := hturn.heard index
        have hle := hrounds.heard_le_log index
        rw [hawaiting, if_pos rfl] at hpublisher
        omega
      · rw [hturn.count, Nat.sub_add_cancel (by omega)]
        simp only [hawaiting, true_and]
  | false =>
      refine ⟨2 * done + state.publisher.phase.asked, fun index => Or.inl ?_, ?_⟩
      · have hpublisher := hturn.heard index
        have hle := hrounds.heard_le_log index
        rw [hawaiting, if_neg Bool.false_ne_true] at hpublisher
        omega
      · rw [hturn.card_eq_zero hawaiting, eq_comm, Finset.card_eq_zero,
          Finset.filter_eq_empty_iff]
        intro index _ hmore
        have hle := hrounds.heard_le_log index
        omega

theorem inTurn_of_run {parameters : Parameters} {actions : List (Action n)} {state : State n}
    (hrun : (system parameters).run (State.initial parameters) actions = some state) :
    InTurn actions state := by
  have hrounds := Rounds.of_run hrun
  constructor
  case endpoints =>
    intro hended index size hsize
    by_cases hremoved : .subscriberRemove index false ∈ actions
    · exact Or.inr hremoved
    · obtain ⟨done, hturn⟩ := hrounds.turn hended
      exact Or.inl (hturn.of_keeps hrounds (keeps_of_run hrun hremoved) hsize).1
  case removes =>
    intro hremoves index
    by_cases hremoved : .subscriberRemove index false ∈ actions
    · exact Or.inr hremoved
    · refine Or.inl ?_
      obtain ⟨hended, hsettled, hasked⟩ : state.publisher.phase.ended = false ∧
          state.publisher.phase.awaiting = false ∧ state.publisher.phase.asked = 2 := by
        rcases hremoves with hphase | hphase <;> rw [hphase] <;> exact ⟨rfl, rfl, rfl⟩
      obtain ⟨done, hturn⟩ := hrounds.turn hended
      cases hsize : (state.subscribers index).endpoints with
      | none => rfl
      | some size =>
          obtain ⟨-, -, hplace⟩ := hturn.of_keeps hrounds (keeps_of_run hrun hremoved) hsize
          rw [hsettled, hasked] at hplace
          rcases hplace with hfalse | hfalse <;> cases hfalse
  case sends =>
    intro hsends index
    obtain ⟨hstop, other, hstands⟩ := hrounds.awaitStop hsends index
    obtain ⟨-, -, -, hended⟩ := Publisher.Phase.sends_flags hsends
    obtain ⟨done, hturn⟩ := hrounds.turn hended
    have htesting : (state.subscribers index).phase.testing = true := by rw [hstop]; rfl
    obtain ⟨rfl, hasked⟩ := hturn.same_payload hrounds hstands htesting
    obtain ⟨size, rest, hpayloads, hendpoints⟩ := hturn.endpoints
    obtain ⟨mine, later, hmine, hmineEndpoints⟩ := hstands.endpoints htesting
    rw [hturn.payloads] at hpayloads
    rw [hstands.payloads, hpayloads, List.cons.injEq] at hmine
    rw [Publisher.Phase.prepared_of_asked hasked, if_pos rfl] at hendpoints
    exact ⟨hstop, hstands.data (by rw [hstop]; rfl), size, by rw [hmineEndpoints, hmine.1],
      hendpoints⟩
  case commands =>
    intro hended
    obtain ⟨done, hturn⟩ := hrounds.turn hended
    exact hturn.answers hrounds
  case subscriberCommands =>
    intro index hphase
    obtain ⟨done, hstands⟩ := (hrounds.placed index).stands hphase
    exact hrounds.commandMsgCount_le hstands

/-- The subscriber of a test with one. -/
def lone : Fin 1 := Fin.last 0

/-- A payload that is tested with one sample after the first. -/
def shortTest : Parameters := ⟨[16, 1024], 1, true, false⟩

/-- The first payload of one subscriber until its first sample is written. -/
def untilWaiting : List (Action 1) :=
  [.prepare true, .ready true, .subscriberHears lone, .subscriberCommandCome lone,
    .subscriberPrepare lone true, .discovered, .subscriberDiscovered lone,
    .subscriberBegin lone true, .hear lone, .commandsCome, .nextSample true, .check, .reset,
    .start 100, .write true]

theorem run_untilWaiting :
    ∃ state, (system shortTest).run (State.initial shortTest) untilWaiting = some state ∧
      state.publisher.phase = .waiting :=
  ⟨_, rfl, rfl⟩

theorem inTurn_of_run_untilWaiting :
    ∃ state, (system shortTest).run (State.initial shortTest) untilWaiting = some state ∧
      state.publisher.phase = .waiting ∧ InTurn untilWaiting state := by
  obtain ⟨state, hrun, hphase⟩ := run_untilWaiting
  exact ⟨state, hrun, hphase, inTurn_of_run hrun⟩

end CppProj.LatencyTest
