import CppProj.ListUpdate
import CppProj.ThroughputTestLockStep
import Mathlib.Algebra.BigOperators.Fin

/-!
# The results of the throughput test

When the results are printed there is one entry for every payload, demand and
recovery time, in the order of the loops, and an entry adds up one report of
every subscriber: the one about the test of this entry.  No report is lost,
counted twice or added to another entry.
-/

namespace CppProj.ThroughputTest

open BroadcastReplies PerformanceTypes TransitionSystem

variable {n : ℕ}

/-! ## The reports -/

def reports (answers : List ThroughputCommandType) : List ThroughputCommandType :=
  answers.filter fun answer => answer.command == .testResults

theorem reports_concat_of_eq {answer : ThroughputCommandType}
    (hcommand : answer.command = .testResults) (answers : List ThroughputCommandType) :
    reports (answers ++ [answer]) = reports answers ++ [answer] := by
  rw [reports, List.filter_append, List.filter_singleton, hcommand]
  rfl

theorem reports_concat_of_ne {answer : ThroughputCommandType}
    (hcommand : answer.command ≠ .testResults) (answers : List ThroughputCommandType) :
    reports (answers ++ [answer]) = reports answers := by
  rw [reports, List.filter_append, List.filter_singleton, beq_eq_false_iff_ne.mpr hcommand]
  exact List.append_nil _

/-- The reports of a subscriber that the publisher has taken. -/
def State.reports (state : State n) (index : Fin n) : List ThroughputCommandType :=
  ThroughputTest.reports (state.subscribers index).link.received

/-- A sum over the reports that there are. -/
def total (value : ThroughputCommandType → ℕ) (report : Fin n → Option ThroughputCommandType) :
    ℕ :=
  ∑ index, (report index).elim 0 value

theorem total_none (value : ThroughputCommandType → ℕ) :
    total value (fun _ : Fin n => none) = 0 :=
  Finset.sum_const_zero

theorem total_update (value : ThroughputCommandType → ℕ)
    {report : Fin n → Option ThroughputCommandType} {index : Fin n} (hnone : report index = none)
    (answer : ThroughputCommandType) :
    total value (Function.update report index (some answer)) =
      total value report + value answer := by
  have hothers : ∀ other ∈ Finset.univ.erase index,
      (Function.update report index (some answer) other).elim 0 value =
        (report other).elim 0 value := by
    intro other hother
    rw [Function.update_of_ne (Finset.ne_of_mem_erase hother)]
  rw [total, total, ← Finset.add_sum_erase _ _ (Finset.mem_univ index),
    ← Finset.add_sum_erase _ (fun other => (report other).elim 0 value) (Finset.mem_univ index),
    Finset.sum_congr rfl hothers, Function.update_self, hnone, Option.elim_some,
    Option.elim_none, Nat.zero_add, Nat.add_comm]

/-- The entry adds up these reports of a test with so many samples, in the
widths of its counters. -/
structure Sums (entry : TroughputResults) (samples : UInt32)
    (report : Fin n → Option ThroughputCommandType) : Prop where
  reports : ∀ index answer, report index = some answer →
    answer.m_size = entry.payloadSize ∧ answer.m_demand = entry.demand ∧
      answer.m_receivedsamples.toNat ≤ samples.toNat
  send : entry.sendSamples = UInt64.ofNat (total (fun _ => samples.toNat) report)
  recv : entry.recvSamples =
    UInt64.ofNat (total (fun answer => answer.m_receivedsamples.toNat) report)
  lost : entry.lostSamples =
    UInt32.ofNat (total (fun answer => samples.toNat - answer.m_receivedsamples.toNat) report)

/-- The report is about the test that runs. -/
structure Reports (publisher : Publisher n) (answer : ThroughputCommandType) : Prop where
  size : answer.m_size = publisher.test.msgSize + overhead
  demand : answer.m_demand = publisher.test.demand
  received : answer.m_receivedsamples.toNat ≤ publisher.samples.toNat

theorem toUInt64_eq_ofNat (value : UInt32) : value.toUInt64 = UInt64.ofNat value.toNat := by
  have hlt := value.toNat_lt
  apply UInt64.toNat_inj.mp
  rw [UInt32.toNat_toUInt64, UInt64.toNat_ofNat', Nat.mod_eq_of_lt (by omega)]

theorem lost_eq_ofNat {samples : UInt32} {received : UInt64}
    (hle : received.toNat ≤ samples.toNat) :
    samples - received.toUInt32 = UInt32.ofNat (samples.toNat - received.toNat) := by
  have hlt := samples.toNat_lt
  have hreceived : received.toUInt32.toNat = received.toNat := by
    rw [UInt64.toNat_toUInt32, Nat.mod_eq_of_lt (by omega)]
  apply UInt32.toNat_inj.mp
  rw [UInt32.toNat_sub_of_le _ _ (UInt32.le_iff_toNat_le.mpr (by omega)), hreceived,
    UInt32.toNat_ofNat', Nat.mod_eq_of_lt (by omega)]

/-- The first report of a test makes an entry. -/
theorem Reports.sums {publisher : Publisher n} {answer : ThroughputCommandType}
    (hreports : Reports publisher answer) (index : Fin n) :
    Sums (publisher.result answer) publisher.samples
      (Function.update (fun _ => none) index (some answer)) where
  reports := by
    intro other found hfound
    by_cases heq : other = index
    · subst heq
      rw [Function.update_self, Option.some.injEq] at hfound
      rw [← hfound]
      exact ⟨hreports.size, hreports.demand, hreports.received⟩
    · rw [Function.update_of_ne heq] at hfound
      cases hfound
  send := by
    rw [total_update _ rfl, total_none, Nat.zero_add]
    exact toUInt64_eq_ofNat _
  recv := by
    rw [total_update _ rfl, total_none, Nat.zero_add, UInt64.ofNat_toNat]
    rfl
  lost := by
    rw [total_update _ rfl, total_none, Nat.zero_add, ← lost_eq_ofNat hreports.received]
    rfl

/-- Every other report of the test is added to it. -/
theorem Sums.add {publisher : Publisher n} {entry : TroughputResults}
    {report : Fin n → Option ThroughputCommandType} {answer : ThroughputCommandType}
    (hsums : Sums entry publisher.samples report)
    (hsize : entry.payloadSize = publisher.test.msgSize + overhead)
    (hdemand : entry.demand = publisher.test.demand) (hreports : Reports publisher answer)
    {index : Fin n} (hnone : report index = none) :
    Sums (entry.add (publisher.result answer)) publisher.samples
      (Function.update report index (some answer)) where
  reports := by
    intro other found hfound
    by_cases heq : other = index
    · subst heq
      rw [Function.update_self, Option.some.injEq] at hfound
      rw [← hfound]
      exact ⟨hreports.size.trans hsize.symm, hreports.demand.trans hdemand.symm,
        hreports.received⟩
    · rw [Function.update_of_ne heq] at hfound
      exact hsums.reports other found hfound
  send := by
    rw [total_update _ hnone, UInt64.ofNat_add, ← hsums.send, ← toUInt64_eq_ofNat]
    rfl
  recv := by
    rw [total_update _ hnone, UInt64.ofNat_add, ← hsums.recv, UInt64.ofNat_toNat]
    rfl
  lost := by
    rw [total_update _ hnone, UInt32.ofNat_add, ← hsums.lost, ← lost_eq_ofNat hreports.received]
    rfl

/-! ## One report of every subscriber -/

/-- 1 while the last entry waits for reports of its test. -/
def openEntry (publisher : Publisher n) : ℕ :=
  match publisher.phase with
  | .results (_ + 1) => 1
  | _ => 0

structure Tally (state : State n) : Prop where
  lengths : ∀ index,
    (state.reports index).length +
        (if state.owed index = [] then 0 else openEntry state.publisher) =
      state.publisher.results.length
  entries : ∀ (position : ℕ) (entry : TroughputResults),
    state.publisher.results[position]? = some entry →
      ∃ samples, Sums entry samples fun index => (state.reports index)[position]?
  current : ∀ received, state.publisher.phase = .results (received + 1) →
    ∃ before entry, state.publisher.results = before ++ [entry] ∧
      entry.payloadSize = state.publisher.test.msgSize + overhead ∧
      entry.demand = state.publisher.test.demand ∧
      Sums entry state.publisher.samples fun index => (state.reports index)[before.length]?

/-- Reports are tallied as long as no test fails. -/
def Tallied (state : State n) : Prop :=
  (state.publisher.phase = .printed → state.publisher.testFailure = false) ∧
    (state.publisher.testFailure = false → state.publisher.phase ≠ .aborted → Tally state)

theorem openEntry_eq_zero {publisher : Publisher n}
    (hphase : ∀ received, publisher.phase ≠ .results (received + 1)) :
    openEntry publisher = 0 := by
  unfold openEntry
  split
  case h_1 received hresults => exact absurd hresults (hphase received)
  case h_2 => rfl

/-- A step to a phase without an open entry, from one without or when nothing is
owed any more. -/
theorem Tally.move {state next : State n} (htally : Tally state)
    (hresults : next.publisher.results = state.publisher.results)
    (hreports : ∀ index, next.reports index = state.reports index)
    (hphase : ∀ received, next.publisher.phase ≠ .results (received + 1))
    (hclosed : (∀ received, state.publisher.phase ≠ .results (received + 1)) ∨
      ∀ index, state.owed index = []) : Tally next where
  lengths := by
    intro index
    have hlength := htally.lengths index
    have hzero : (if state.owed index = [] then 0 else openEntry state.publisher) = 0 := by
      rcases hclosed with hphase | howed
      · rw [openEntry_eq_zero hphase, ite_self]
      · rw [if_pos (howed index)]
    rw [hzero] at hlength
    rw [openEntry_eq_zero hphase, ite_self, hreports, hresults]
    exact hlength
  entries := by
    intro position entry hentry
    rw [hresults] at hentry
    simp only [hreports]
    exact htally.entries position entry hentry
  current := fun received hcurrent => absurd hcurrent (hphase received)

/-- A step that changes neither the results nor what is owed. -/
theorem Tally.keep {state next : State n} (htally : Tally state)
    {found : Finset (Fin n)} {wait : WaitPhase} {notifications : ℕ}
    (hpublisher : next.publisher =
      { state.publisher with
        found := found
        discoveryWait := wait
        notifications := notifications })
    (howed : ∀ index, next.owed index = state.owed index)
    (hreports : ∀ index, next.reports index = state.reports index) : Tally next where
  lengths := by
    intro index
    have hopen : openEntry next.publisher = openEntry state.publisher := by
      rw [hpublisher]
      rfl
    rw [hopen, howed, hreports, hpublisher]
    exact htally.lengths index
  entries := by
    intro position entry hentry
    rw [hpublisher] at hentry
    simp only [hreports]
    exact htally.entries position entry hentry
  current := by
    rw [hpublisher]
    simp only [hreports]
    exact htally.current

/-- The reports after the publisher has taken another one of this subscriber. -/
structure TakesReport (state next : State n) (index : Fin n) (answer : ThroughputCommandType) :
    Prop where
  reports : next.reports index = state.reports index ++ [answer]
  others : ∀ other, other ≠ index → next.reports other = state.reports other
  settled : next.owed index = []
  owed : ∀ other, other ≠ index → next.owed other = state.owed other

theorem TakesReport.getElem?_of_lt {state next : State n} {index : Fin n}
    {answer : ThroughputCommandType} (htakes : TakesReport state next index answer)
    {position : ℕ} (hposition : position < (state.reports index).length) (other : Fin n) :
    (next.reports other)[position]? = (state.reports other)[position]? := by
  by_cases heq : other = index
  · rw [heq, htakes.reports, List.getElem?_append_left hposition]
  · rw [htakes.others other heq]

theorem TakesReport.getElem?_length {state next : State n} {index : Fin n}
    {answer : ThroughputCommandType} (htakes : TakesReport state next index answer) :
    (fun other => (next.reports other)[(state.reports index).length]?) =
      Function.update (fun other => (state.reports other)[(state.reports index).length]?)
        index (some answer) := by
  funext other
  by_cases heq : other = index
  · rw [heq, Function.update_self, htakes.reports, List.getElem?_concat_length]
  · rw [Function.update_of_ne heq, htakes.others other heq]

/-- The first report of a test. -/
theorem Tally.first {state next : State n} (htally : Tally state) {index : Fin n}
    {answer : ThroughputCommandType} (htakes : TakesReport state next index answer)
    (hreports : Reports state.publisher answer)
    (hphase : state.publisher.phase = .results 0)
    (hnext : next.publisher = { state.publisher with
      results := state.publisher.results ++ [state.publisher.result answer]
      phase := .results 1 })
    (hunsettled : ∀ other, state.owed other ≠ []) : Tally next := by
  have hclosed : openEntry state.publisher = 0 :=
    openEntry_eq_zero fun received hresults => by
      rw [hphase] at hresults
      cases hresults
  have hlengths : ∀ other, (state.reports other).length = state.publisher.results.length := by
    intro other
    have hlength := htally.lengths other
    rw [hclosed, ite_self, Nat.add_zero] at hlength
    exact hlength
  have hsums := hreports.sums index
  have hnone : (fun other => (state.reports other)[(state.reports index).length]?) =
      fun _ => none := by
    funext other
    exact List.getElem?_eq_none (by rw [hlengths, hlengths])
  rw [← hnone, ← htakes.getElem?_length, hlengths] at hsums
  constructor
  case lengths =>
    intro other
    have hopen : openEntry next.publisher = 1 := by rw [hnext, openEntry]
    have hresults : next.publisher.results.length = state.publisher.results.length + 1 := by
      rw [hnext, List.length_append, List.length_singleton]
    rw [hopen, hresults]
    by_cases heq : other = index
    · rw [heq, htakes.settled, if_pos rfl, htakes.reports, List.length_append,
        List.length_singleton, hlengths]
    · rw [htakes.others other heq, htakes.owed other heq, if_neg (hunsettled other), hlengths]
  case entries =>
    intro position entry hentry
    rw [hnext] at hentry
    rcases ListUpdate.getElem?_append_singleton_cases hentry with hold | ⟨rfl, rfl⟩
    · obtain ⟨samples, holdSums⟩ := htally.entries position entry hold
      have hlt : position < (state.reports index).length := by
        rw [hlengths]
        exact (List.getElem?_eq_some_iff.mp hold).1
      refine ⟨samples, ?_⟩
      simp only [htakes.getElem?_of_lt hlt]
      exact holdSums
    · exact ⟨_, hsums⟩
  case current =>
    intro received _
    refine ⟨state.publisher.results, state.publisher.result answer, ?_, ?_, ?_, ?_⟩
    · rw [hnext]
    · rw [hnext]
      rfl
    · rw [hnext]
      rfl
    · rw [hnext]
      exact hsums

/-- Another report of the test is added to the last entry. -/
theorem Tally.again {state next : State n} (htally : Tally state) {index : Fin n}
    {answer : ThroughputCommandType} (htakes : TakesReport state next index answer)
    (hreports : Reports state.publisher answer) {received : ℕ}
    (hphase : state.publisher.phase = .results (received + 1))
    (hnext : next.publisher = { state.publisher with
      results := state.publisher.results.modify (state.publisher.results.length - 1)
        fun entry => entry.add (state.publisher.result answer)
      phase := .results (received + 2) })
    (hunsettled : state.owed index ≠ []) : Tally next := by
  obtain ⟨before, entry, hresults, hsize, hdemand, hcurrent⟩ := htally.current received hphase
  have hopen : openEntry state.publisher = 1 := by rw [openEntry, hphase]
  have hopenNext : openEntry next.publisher = 1 := by rw [hnext, openEntry]
  have hlength : (state.reports index).length = before.length := by
    have hlengths := htally.lengths index
    rw [if_neg hunsettled, hopen, hresults, List.length_append, List.length_singleton]
      at hlengths
    omega
  have hmodified : next.publisher.results =
      before ++ [entry.add (state.publisher.result answer)] := by
    rw [hnext, hresults, List.length_append, List.length_singleton, Nat.add_sub_cancel]
    exact ListUpdate.modify_append_singleton before entry _
  have hnone : (state.reports index)[before.length]? = none :=
    List.getElem?_eq_none hlength.le
  have hsums := hcurrent.add hsize hdemand hreports hnone
  have hupdate := htakes.getElem?_length
  rw [hlength] at hupdate
  rw [← hupdate] at hsums
  constructor
  case lengths =>
    intro other
    have hlengths := htally.lengths other
    rw [hopen, hresults, List.length_append, List.length_singleton] at hlengths
    rw [hopenNext, hmodified, List.length_append, List.length_singleton]
    by_cases heq : other = index
    · rw [heq, htakes.settled, if_pos rfl, htakes.reports, List.length_append,
        List.length_singleton, hlength]
    · rw [htakes.others other heq, htakes.owed other heq]
      exact hlengths
  case entries =>
    intro position found hfound
    rw [hmodified] at hfound
    rcases ListUpdate.getElem?_append_singleton_cases hfound with hold | ⟨rfl, rfl⟩
    · have hlt : position < (state.reports index).length := by
        rw [hlength]
        exact (List.getElem?_eq_some_iff.mp hold).1
      have hstate : state.publisher.results[position]? = some found := by
        rw [hresults]
        exact ListUpdate.getElem?_append_of_eq_some hold _
      obtain ⟨samples, holdSums⟩ := htally.entries position found hstate
      refine ⟨samples, ?_⟩
      simp only [htakes.getElem?_of_lt hlt]
      exact holdSums
    · exact ⟨_, hsums⟩
  case current =>
    intro _ _
    refine ⟨before, _, hmodified, ?_, ?_, ?_⟩
    · rw [hnext]
      exact hsize
    · rw [hnext]
      exact hdemand
    · rw [hnext]
      exact hsums

theorem Tallied.move {state next : State n} (htallied : Tallied state)
    (hfailure : next.publisher.testFailure = state.publisher.testFailure)
    (hresults : next.publisher.results = state.publisher.results)
    (hreports : ∀ index, next.reports index = state.reports index)
    (hrunning : state.publisher.phase ≠ .aborted)
    (hprinted : next.publisher.phase ≠ .printed)
    (hphase : ∀ received, next.publisher.phase ≠ .results (received + 1))
    (hclosed : (∀ received, state.publisher.phase ≠ .results (received + 1)) ∨
      ∀ index, state.owed index = []) : Tallied next := by
  refine ⟨fun hphase => absurd hphase hprinted, fun hnext _ => ?_⟩
  rw [hfailure] at hnext
  exact (htallied.2 hnext hrunning).move hresults hreports hphase hclosed

/-- Nothing is tallied any more after a failure. -/
theorem Tallied.of_failure {state : State n} (hfailure : state.publisher.testFailure = true)
    (hprinted : state.publisher.phase ≠ .printed) : Tallied state := by
  refine ⟨fun hphase => absurd hphase hprinted, fun hnone => ?_⟩
  rw [hfailure] at hnone
  cases hnone

theorem Tallied.advance {parameters : Parameters} {state : State n} {next : Publisher n}
    {commands : List ThroughputCommandType} (hlock : LockStep state) (htallied : Tallied state)
    (hadvance : Advances parameters state.publisher next commands) :
    Tallied (state.publish (next, commands)) := by
  have hround := hlock.rounds.round
  unfold Round at hround
  cases hadvance with
  | noSize hphase | announce hphase | found hphase | awake hphase | noDemand hphase
  | rigged hphase | start hphase | finish hphase | removed hphase =>
      refine htallied.move rfl rfl (fun _ => rfl) ?_ ?_ ?_ (Or.inl ?_)
      · rw [hphase]
        exact Phase.noConfusion
      · exact Phase.noConfusion
      · exact fun _ => Phase.noConfusion
      · rw [hphase]
        exact fun _ => Phase.noConfusion
  | waits hphase =>
      have hnext : ∀ phase, phase ≠ .discovery → state.publisher.phase ≠ phase := by
        intro phase hne
        rw [hphase]
        exact hne.symm
      exact htallied.move rfl rfl (fun _ => rfl) (hnext _ Phase.noConfusion)
        (hnext _ Phase.noConfusion) (fun _ => hnext _ Phase.noConfusion)
        (Or.inl fun _ => hnext _ Phase.noConfusion)
  | nextDemand hphase =>
      have hnext : ∀ phase, phase ≠ .demands → state.publisher.phase ≠ phase := by
        intro phase hne
        rw [hphase]
        exact hne.symm
      exact htallied.move rfl rfl (fun _ => rfl) (hnext _ Phase.noConfusion)
        (hnext _ Phase.noConfusion) (fun _ => hnext _ Phase.noConfusion)
        (Or.inl fun _ => hnext _ Phase.noConfusion)
  | tested hphase hreceived =>
      rw [hphase] at hround
      refine htallied.move rfl rfl (fun _ => rfl) ?_ Phase.noConfusion
        (fun _ => Phase.noConfusion) (Or.inr (hround.all hreceived))
      rw [hphase]
      exact Phase.noConfusion
  | stop hphase =>
      cases hfailure : state.publisher.testFailure with
      | true =>
          refine Tallied.of_failure rfl ?_
          simp only [State.publish, if_true]
          exact Phase.noConfusion
      | false =>
          refine ⟨fun _ => rfl, fun _ _ => ?_⟩
          have htally := htallied.2 hfailure (by rw [hphase]; exact Phase.noConfusion)
          refine htally.move rfl (fun _ => rfl) ?_ (Or.inl ?_)
          · intro received
            simp only [State.publish, Bool.false_eq_true, if_false]
            exact Phase.noConfusion
          · rw [hphase]
            exact fun _ => Phase.noConfusion

theorem Tallied.proceed {state : State n} {next : Publisher n} (htallied : Tallied state)
    (hproceed : Proceeds state.publisher next) : Tallied (state.withPublisher next) := by
  cases hproceed with
  | prepared hphase | started hphase | sent _ hphase | ended hphase =>
      refine htallied.move rfl rfl (fun _ => rfl) ?_ ?_ ?_ (Or.inl ?_)
      · rw [hphase]
        exact Phase.noConfusion
      · exact Phase.noConfusion
      · intro received hresults
        cases hresults
      · rw [hphase]
        exact fun _ => Phase.noConfusion
  | unprepared | unstarted | unended => exact Tallied.of_failure rfl Phase.noConfusion

theorem Tallied.dispose {state : State n} {next : Publisher n}
    {commands : List ThroughputCommandType} (htallied : Tallied state)
    (hdispose : Disposes state.publisher next commands) :
    Tallied (state.publish (next, commands)) := by
  cases hdispose with
  | disposed hphase =>
      refine htallied.move rfl rfl (fun _ => rfl) ?_ Phase.noConfusion
        (fun _ => Phase.noConfusion) (Or.inl ?_)
      · rw [hphase]
        exact Phase.noConfusion
      · rw [hphase]
        exact fun _ => Phase.noConfusion
  | undisposed => exact Tallied.of_failure rfl Phase.noConfusion

theorem Tallied.timeout {state : State n} {next : Publisher n} (htallied : Tallied state)
    (htimeout : state.publisher.timeout = some next) (hnew : ¬ state.publisher.Repeats) :
    Tallied (state.withPublisher next) := by
  rcases timeout_cases htimeout hnew with rfl | ⟨received, hphase, rfl⟩
  · exact htallied
  · exact Tallied.of_failure rfl Phase.noConfusion

theorem Tallied.takeInvalid {state : State n} {next : Publisher n} (htallied : Tallied state)
    (htake : Takes state.publisher none next) : Tallied (state.withPublisher next) := by
  cases htake with
  | rigging hphase | removing hphase =>
      refine htallied.move rfl rfl (fun _ => rfl) ?_ Phase.noConfusion
        (fun _ => Phase.noConfusion) (Or.inl ?_)
      · rw [hphase]
        exact Phase.noConfusion
      · rw [hphase]
        exact fun _ => Phase.noConfusion
  | recorded _ _ hanswer => cases hanswer
  | tooMany => exact ⟨Phase.noConfusion, fun _ hphase => absurd rfl hphase⟩
  | failed => exact Tallied.of_failure rfl Phase.noConfusion

/-- The state after an answer of this subscriber has been taken. -/
def State.taken (state : State n) (index : Fin n) (next : Publisher n) : State n :=
  (state.withPublisher next).withSubscriber index
    { state.subscribers index with link := (state.subscribers index).link.take }

theorem reports_taken_of_ne (state : State n) {index other : Fin n} (hne : other ≠ index)
    (next : Publisher n) : (state.taken index next).reports other = state.reports other := by
  simp only [State.reports, State.taken, State.withSubscriber, Function.update_of_ne hne,
    State.withPublisher]

theorem reports_taken_self (state : State n) (index : Fin n) (next : Publisher n)
    {answer : ThroughputCommandType}
    (hanswer : (state.subscribers index).link.written[(state.subscribers index).link.taken]? =
      some answer) :
    (state.taken index next).reports index =
      ThroughputTest.reports ((state.subscribers index).link.received ++ [answer]) := by
  simp only [State.reports, State.taken, State.withSubscriber, Function.update_self,
    Link.received_take hanswer]

/-- An answer that is not a report changes no reports. -/
theorem reports_taken_other (state : State n) (index : Fin n) (next : Publisher n)
    {answer : ThroughputCommandType}
    (hanswer : (state.subscribers index).link.written[(state.subscribers index).link.taken]? =
      some answer)
    (hcommand : answer.command ≠ .testResults) (other : Fin n) :
    (state.taken index next).reports other = state.reports other := by
  by_cases heq : other = index
  · rw [heq, reports_taken_self state index next hanswer, reports_concat_of_ne hcommand]
    rfl
  · exact reports_taken_of_ne state heq next

theorem owed_taken (state : State n) (index : Fin n) (next : Publisher n) :
    (state.taken index next).owed =
      Function.update state.owed index
        (Link.owed machine state.log (state.subscribers index).link.take) :=
  owed_withSubscriber (state.withPublisher next) index _

theorem Tallied.take {state : State n} {index : Fin n} {answer : ThroughputCommandType}
    {next : Publisher n} (hlock : LockStep state) (htallied : Tallied state)
    (hanswer : (state.subscribers index).link.written[(state.subscribers index).link.taken]? =
      some answer)
    (htake : Takes state.publisher (some answer) next) : Tallied (state.taken index next) := by
  have hround := hlock.rounds.round
  have howed : state.owed index = shape answer ::
      Link.owed machine state.log (state.subscribers index).link.take :=
    (hlock.rounds.followed index).follows.owed_eq_cons hanswer
  unfold Round at hround
  cases htake with
  | rigging hphase =>
      rw [hphase] at hround
      rcases hround.take howed with ⟨hfirst, -⟩ | ⟨hfailed, -⟩
      · have hother : answer.command ≠ .testResults := by
          rw [show answer.command = .begin from congrArg Prod.fst hfirst]
          decide
        refine htallied.move rfl rfl (reports_taken_other state index _ hanswer hother) ?_
          Phase.noConfusion (fun _ => Phase.noConfusion) (Or.inl ?_)
        · rw [hphase]
          exact Phase.noConfusion
        · rw [hphase]
          exact fun _ => Phase.noConfusion
      · exact Tallied.of_failure hfailed Phase.noConfusion
  | removing hphase =>
      rw [hphase] at hround
      rcases hround.take howed with ⟨hfirst, -⟩ | ⟨hfailed, -⟩
      · have hother : answer.command ≠ .testResults := by
          rw [show answer.command = .typeRemoved from congrArg Prod.fst hfirst]
          decide
        refine htallied.move rfl rfl (reports_taken_other state index _ hanswer hother) ?_
          Phase.noConfusion (fun _ => Phase.noConfusion) (Or.inl ?_)
        · rw [hphase]
          exact Phase.noConfusion
        · rw [hphase]
          exact fun _ => Phase.noConfusion
      · exact Tallied.of_failure hfailed Phase.noConfusion
  | @recorded received command hphase hreceived hcommand hresults hsamples =>
      cases hcommand
      rw [hphase] at hround
      refine ⟨Phase.noConfusion, fun hfailure _ => ?_⟩
      have htally := htallied.2 hfailure (by rw [hphase]; exact Phase.noConfusion)
      rcases hround.take howed with ⟨hfirst, hrest, -⟩ | ⟨hfailed, -⟩
      · have hreports : Reports state.publisher answer := by
          constructor
          case size => exact congrArg (fun shape : Shape => shape.2.1) hfirst
          case demand => exact congrArg (fun shape : Shape => shape.2.2) hfirst
          case received =>
            rw [UInt64.le_iff_toNat_le, UInt32.toNat_toUInt64] at hsamples
            exact hsamples
        have htakes : TakesReport state (state.taken index
            { state.publisher with
              results := state.publisher.record answer received
              phase := .results (received + 1) }) index answer := by
          constructor
          case reports =>
            rw [reports_taken_self _ _ _ hanswer, reports_concat_of_eq hresults]
            rfl
          case others => exact fun other hother => reports_taken_of_ne state hother _
          case settled => rw [owed_taken, Function.update_self, hrest]
          case owed =>
            intro other hother
            rw [owed_taken, Function.update_of_ne hother]
        have hunsettled : state.owed index ≠ [] := by
          rw [howed]
          exact List.cons_ne_nil _ _
        cases received with
        | zero =>
            refine htally.first htakes hreports hphase rfl ?_
            intro other hother
            have hempty := Finset.card_eq_zero.mp hround.count
            exact Finset.notMem_empty other (hempty ▸ mem_settled.mpr hother)
        | succ received => exact htally.again htakes hreports hphase rfl hunsettled
      · cases hfailed
  | tooMany => exact ⟨Phase.noConfusion, fun _ hphase => absurd rfl hphase⟩
  | failed => exact Tallied.of_failure rfl Phase.noConfusion

/-- A step of a subscriber takes no report. -/
theorem Tallied.withSubscriber {state : State n} (htallied : Tallied state) {index : Fin n}
    {subscriber : Subscriber}
    (howed : Link.owed machine state.log subscriber.link = state.owed index)
    (hreceived : subscriber.link.received = (state.subscribers index).link.received) :
    Tallied (state.withSubscriber index subscriber) := by
  refine ⟨htallied.1, fun hfailure hrunning => ?_⟩
  refine (htallied.2 hfailure hrunning).keep rfl ?_ ?_
  · intro other
    rw [owed_withSubscriber, howed, Function.update_eq_self]
  · intro other
    by_cases heq : other = index
    · subst heq
      simp only [State.reports, State.withSubscriber, Function.update_self, hreceived]
    · simp only [State.reports, State.withSubscriber, Function.update_of_ne heq]

theorem Tallied.withFound {state : State n} (htallied : Tallied state) (found : Finset (Fin n))
    (wait : WaitPhase) (notifications : ℕ) :
    Tallied
      (state.withPublisher
        { state.publisher with
          found := found
          discoveryWait := wait
          notifications := notifications }) := by
  refine ⟨htallied.1, fun hfailure hrunning => ?_⟩
  exact (htallied.2 hfailure hrunning).keep rfl (fun _ => rfl) (fun _ => rfl)

theorem Tallied.step {parameters : Parameters} {state next : State n} {action : Action n}
    (hlock : LockStep state) (htallied : Tallied state)
    (hstep : CppProj.ThroughputTest.step parameters state action = some next)
    (hnew : Unrepeated state action) : Tallied next := by
  cases action with
  | advance =>
      obtain ⟨⟨publisher, commands⟩, hadvance, rfl⟩ := Option.map_eq_some_iff.mp hstep
      exact Tallied.advance hlock htallied (advances_of_advance hadvance)
  | prepare prepared =>
      obtain ⟨publisher, hprepare, rfl⟩ := Option.map_eq_some_iff.mp hstep
      exact htallied.proceed (proceeds_of_prepare hprepare)
  | dispose prepared =>
      obtain ⟨⟨publisher, commands⟩, hdispose, rfl⟩ := Option.map_eq_some_iff.mp hstep
      exact htallied.dispose (disposes_of_dispose hdispose)
  | acknowledge inTime =>
      obtain ⟨publisher, hacknowledge, rfl⟩ := Option.map_eq_some_iff.mp hstep
      exact htallied.proceed (proceeds_of_acknowledge hacknowledge)
  | send batches =>
      obtain ⟨publisher, hsend, rfl⟩ := Option.map_eq_some_iff.mp hstep
      exact htallied.proceed (proceeds_of_send hsend)
  | take index =>
      simp only [CppProj.ThroughputTest.step, takeStep] at hstep
      split at hstep
      case h_1 answer hanswer =>
        obtain ⟨publisher, htake, rfl⟩ := Option.map_eq_some_iff.mp hstep
        exact Tallied.take hlock htallied hanswer (takes_of_take htake)
      case h_2 => cases hstep
  | takeInvalid =>
      obtain ⟨publisher, htake, rfl⟩ := Option.map_eq_some_iff.mp hstep
      exact htallied.takeInvalid (takes_of_take htake)
  | timeout =>
      obtain ⟨publisher, htimeout, rfl⟩ := Option.map_eq_some_iff.mp hstep
      exact htallied.timeout htimeout (hnew rfl)
  | processMessage index prepared totalTime =>
      simp only [CppProj.ThroughputTest.step, processMessageStep] at hstep
      split_ifs at hstep
      split at hstep
      case h_1 command hcommand =>
        cases hstep
        have hfollows := (hlock.rounds.followed index).follows
        rcases (state.subscribers index).processMessage_cases command prepared totalTime with
          hstopped | ⟨answers, hlink, -⟩
        · rw [hstopped]
          exact htallied.withSubscriber rfl rfl
        · refine htallied.withSubscriber ?_ ?_
          · rw [hlink]
            rfl
          · rw [hlink]
            exact hfollows.received_handled answers
      case h_2 => cases hstep
  | atWriter event =>
      obtain ⟨publisher, hat, rfl⟩ := Option.map_eq_some_iff.mp hstep
      obtain ⟨_, _, _, rfl⟩ := (writerSteps_of_atWriter hat).eq
      exact htallied.withFound _ _ _
  | atReader index event =>
      obtain ⟨subscriber, hat, rfl⟩ := Option.map_eq_some_iff.mp hstep
      obtain ⟨hlink, -, -⟩ := (readerSteps_of_atReader hat).frame
      exact htallied.withSubscriber (by rw [hlink]; rfl) (by rw [hlink])

theorem Tallied.initial (parameters : Parameters) :
    Tallied (State.initial parameters : State n) := by
  refine ⟨Phase.noConfusion, fun _ _ => ?_⟩
  constructor
  case lengths =>
    intro index
    rw [openEntry_eq_zero (fun _ => Phase.noConfusion), ite_self]
    rfl
  case entries =>
    intro position entry hentry
    cases hentry
  case current => exact fun _ hphase => Phase.noConfusion hphase

/-! ## The plan -/

/-- What an entry is about: payload size, demand and recovery time. -/
abbrev Key := UInt32 × UInt32 × UInt32

def TroughputResults.key (entry : TroughputResults) : Key :=
  (entry.payloadSize, entry.demand, entry.recoveryTimeMs)

/-- The tests of these demands of a payload. -/
def testsOf (recoveryTimes : List UInt32) (size : UInt32) (demands : List UInt32) : List Key :=
  demands.flatMap fun demand =>
    recoveryTimes.map fun recoveryTime => (size + overhead, demand, recoveryTime)

/-- The tests of these payloads, in the order of the loops. -/
def plan (recoveryTimes : List UInt32) (sizes : List (UInt32 × List UInt32)) : List Key :=
  sizes.flatMap fun entry => testsOf recoveryTimes entry.1 entry.2

/-- The tests of a payload from this place of the inner loops on. -/
def testsFrom (recoveryTimes : List UInt32) (recovery : ℕ) (size : UInt32) :
    List UInt32 → List Key
  | [] => []
  | demand :: rest =>
      ((recoveryTimes.drop recovery).map fun recoveryTime =>
          (size + overhead, demand, recoveryTime)) ++
        testsOf recoveryTimes size rest

theorem testsFrom_zero (recoveryTimes : List UInt32) (size : UInt32) (demands : List UInt32) :
    testsFrom recoveryTimes 0 size demands = testsOf recoveryTimes size demands := by
  cases demands <;> rfl

/-- The tests from the current one on. -/
def Publisher.fromCurrent (parameters : Parameters) (publisher : Publisher n) : List Key :=
  match publisher.sizes with
  | [] => []
  | (size, _) :: later =>
      testsFrom parameters.recoveryTimes publisher.recovery.toNat size publisher.demands ++
        plan parameters.recoveryTimes later

/-- The tests that have no entry yet. -/
def Publisher.todo (parameters : Parameters) (publisher : Publisher n) : List Key :=
  match publisher.phase with
  | .sizes | .endpoints | .discovery => plan parameters.recoveryTimes publisher.sizes
  | .demands | .rigging _ | .starting | .startsAcknowledgment | .sending | .ending
  | .endsAcknowledgment | .results 0 => publisher.fromCurrent parameters
  | .results (_ + 1) => (publisher.fromCurrent parameters).tail
  | .disposing | .removing _ => plan parameters.recoveryTimes publisher.sizes.tail
  | .stopping | .printed | .returned | .aborted => []

/-- The loops stand at the test that runs. -/
structure Current (parameters : Parameters) (publisher : Publisher n) : Prop where
  sizes : ∃ demands later, publisher.sizes = (publisher.test.msgSize, demands) :: later
  demands : ∃ rest, publisher.demands = publisher.test.demand :: rest
  recovery : parameters.recoveryTimes[publisher.recovery.toNat]? =
    some publisher.test.recoveryTimeMs

def Phase.inTest : Phase → Prop
  | .rigging _ | .starting | .startsAcknowledgment | .sending | .ending | .endsAcknowledgment
  | .results _ => True
  | _ => False

/-- The entries are about the first tests of the plan. -/
structure Planned (parameters : Parameters) (publisher : Publisher n) : Prop where
  current : publisher.phase.inTest → Current parameters publisher
  plan : publisher.testFailure = false → publisher.phase ≠ .aborted →
    publisher.results.map TroughputResults.key ++ publisher.todo parameters =
      ThroughputTest.plan parameters.recoveryTimes parameters.demandPayload

theorem Current.of_eq {parameters : Parameters} {publisher next : Publisher n}
    (hcurrent : Current parameters publisher) (hsizes : next.sizes = publisher.sizes)
    (hdemands : next.demands = publisher.demands) (hrecovery : next.recovery = publisher.recovery)
    (htest : next.test = publisher.test) : Current parameters next where
  sizes := by
    rw [hsizes, htest]
    exact hcurrent.sizes
  demands := by
    rw [hdemands, htest]
    exact hcurrent.demands
  recovery := by
    rw [hrecovery, htest]
    exact hcurrent.recovery

/-- After a test the loops go on behind it. -/
theorem Current.fromCurrent {parameters : Parameters} {publisher : Publisher n}
    (hcurrent : Current parameters publisher)
    (hcount : parameters.recoveryTimes.length < 2 ^ 16) :
    publisher.fromCurrent parameters =
      (publisher.test.msgSize + overhead, publisher.test.demand, publisher.test.recoveryTimeMs) ::
        { publisher with recovery := publisher.recovery + 1 }.fromCurrent parameters := by
  obtain ⟨demands, later, hsizes⟩ := hcurrent.sizes
  obtain ⟨rest, hdemands⟩ := hcurrent.demands
  obtain ⟨hlt, hget⟩ := List.getElem?_eq_some_iff.mp hcurrent.recovery
  have hnext : (publisher.recovery + 1).toNat = publisher.recovery.toNat + 1 := by
    rw [UInt16.toNat_add, UInt16.toNat_one, Nat.mod_eq_of_lt (by omega)]
  simp only [Publisher.fromCurrent, hsizes, hdemands, testsFrom, hnext]
  rw [List.drop_eq_getElem_cons hlt, hget, List.map_cons, List.cons_append, List.cons_append]

theorem Planned.initial (parameters : Parameters) :
    Planned parameters (Publisher.initial parameters : Publisher n) where
  current := False.elim
  plan := fun _ _ => List.nil_append _

theorem Planned.advance {parameters : Parameters} {publisher next : Publisher n}
    {commands : List ThroughputCommandType}
    (hcount : parameters.recoveryTimes.length < 2 ^ 16) (hsome : 0 < n)
    (hplanned : Planned parameters publisher)
    (hadvance : Advances parameters publisher next commands) : Planned parameters next := by
  have hcurrent := hplanned.current
  have hplan := hplanned.plan
  unfold Publisher.todo at hplan
  cases hadvance with
  | noSize hphase hsizes =>
      rw [hphase, hsizes] at hplan
      exact ⟨False.elim, fun hfailure _ => hplan hfailure Phase.noConfusion⟩
  | announce hphase =>
      rw [hphase] at hplan
      exact ⟨False.elim, fun hfailure _ => hplan hfailure Phase.noConfusion⟩
  | found hphase hsizes =>
      rw [hphase] at hplan
      refine ⟨False.elim, fun hfailure _ => ?_⟩
      rw [← hplan hfailure Phase.noConfusion]
      simp only [Publisher.todo, Publisher.fromCurrent, hsizes, UInt16.toNat_zero,
        testsFrom_zero, ThroughputTest.plan, List.flatMap_cons]
  | waits hphase =>
      rw [hphase] at hplan
      refine ⟨?_, fun hfailure hrunning => ?_⟩
      · simp only [hphase]
        exact False.elim
      · simp only [Publisher.todo, hphase]
        exact hplan hfailure Phase.noConfusion
  | awake hphase hsizes hdemands hrecovery =>
      rw [hphase] at hplan
      refine ⟨fun _ => ⟨⟨_, _, hsizes⟩, ⟨_, hdemands⟩, hrecovery⟩, fun hfailure _ => ?_⟩
      exact hplan hfailure Phase.noConfusion
  | @nextDemand demand rest hphase hsizes hdemands hrecovery =>
      rw [hphase] at hplan
      refine ⟨?_, fun hfailure _ => ?_⟩
      · simp only [hphase]
        exact False.elim
      · rw [← hplan hfailure Phase.noConfusion]
        obtain ⟨⟨size, demands⟩, later, hcons⟩ := List.exists_cons_of_ne_nil hsizes
        have hdrop : parameters.recoveryTimes.drop publisher.recovery.toNat = [] :=
          List.drop_eq_nil_of_le (List.getElem?_eq_none_iff.mp hrecovery)
        simp only [Publisher.todo, hphase, Publisher.fromCurrent, hcons, hdemands,
          UInt16.toNat_zero, testsFrom_zero]
        rw [testsFrom, hdrop, List.map_nil, List.nil_append]
  | noDemand hphase hnone =>
      rw [hphase] at hplan
      refine ⟨False.elim, fun hfailure _ => ?_⟩
      rw [← hplan hfailure Phase.noConfusion]
      simp only [Publisher.todo, Publisher.fromCurrent]
      cases hsizes : publisher.sizes with
      | nil => rfl
      | cons entry later =>
          rw [hsizes] at hnone
          rcases hnone with hnil | hnil
          · cases hnil
          · simp only [hnil, testsFrom, List.nil_append, List.tail_cons]
  | rigged hphase =>
      rw [hphase] at hplan hcurrent
      exact ⟨fun _ => (hcurrent trivial).of_eq rfl rfl rfl rfl,
        fun hfailure _ => hplan hfailure Phase.noConfusion⟩
  | start hphase =>
      rw [hphase] at hplan hcurrent
      exact ⟨fun _ => (hcurrent trivial).of_eq rfl rfl rfl rfl,
        fun hfailure _ => hplan hfailure Phase.noConfusion⟩
  | finish hphase =>
      rw [hphase] at hplan hcurrent
      exact ⟨fun _ => (hcurrent trivial).of_eq rfl rfl rfl rfl,
        fun hfailure _ => hplan hfailure Phase.noConfusion⟩
  | @tested received hphase hreceived =>
      obtain ⟨before, rfl⟩ := Nat.exists_eq_succ_of_ne_zero (show received ≠ 0 by omega)
      rw [hphase] at hplan hcurrent
      refine ⟨False.elim, fun hfailure _ => ?_⟩
      rw [← hplan hfailure Phase.noConfusion, (hcurrent trivial).fromCurrent hcount]
      rfl
  | removed hphase =>
      rw [hphase] at hplan
      exact ⟨False.elim, fun hfailure _ => hplan hfailure Phase.noConfusion⟩
  | stop hphase =>
      rw [hphase] at hplan
      cases hfailure : publisher.testFailure with
      | true =>
          refine ⟨by simp only [if_true]; exact False.elim, fun hnone => ?_⟩
          cases hnone
      | false =>
          refine ⟨by simp only [Bool.false_eq_true, if_false]; exact False.elim, fun _ _ => ?_⟩
          exact hplan hfailure Phase.noConfusion

/-- A failed test leaves nothing of the plan to keep. -/
theorem Planned.of_failure {parameters : Parameters} {publisher : Publisher n}
    (hfailure : publisher.testFailure = true) (hphase : ¬ publisher.phase.inTest) :
    Planned parameters publisher := by
  refine ⟨fun hin => absurd hin hphase, fun hnone => ?_⟩
  rw [hfailure] at hnone
  cases hnone

theorem Planned.proceed {parameters : Parameters} {publisher next : Publisher n}
    (hplanned : Planned parameters publisher) (hproceed : Proceeds publisher next) :
    Planned parameters next := by
  have hcurrent := hplanned.current
  have hplan := hplanned.plan
  unfold Publisher.todo at hplan
  cases hproceed with
  | prepared hphase =>
      rw [hphase] at hplan
      exact ⟨False.elim, fun hfailure _ => hplan hfailure Phase.noConfusion⟩
  | started hphase =>
      rw [hphase] at hplan hcurrent
      exact ⟨fun _ => (hcurrent trivial).of_eq rfl rfl rfl rfl,
        fun hfailure _ => hplan hfailure Phase.noConfusion⟩
  | sent batches hphase =>
      rw [hphase] at hplan hcurrent
      exact ⟨fun _ => (hcurrent trivial).of_eq rfl rfl rfl rfl,
        fun hfailure _ => hplan hfailure Phase.noConfusion⟩
  | ended hphase =>
      rw [hphase] at hplan hcurrent
      exact ⟨fun _ => (hcurrent trivial).of_eq rfl rfl rfl rfl,
        fun hfailure _ => hplan hfailure Phase.noConfusion⟩
  | unprepared | unstarted | unended => exact Planned.of_failure rfl fun hin => hin

theorem Planned.dispose {parameters : Parameters} {publisher next : Publisher n}
    {commands : List ThroughputCommandType} (hplanned : Planned parameters publisher)
    (hdispose : Disposes publisher next commands) : Planned parameters next := by
  have hplan := hplanned.plan
  unfold Publisher.todo at hplan
  cases hdispose with
  | disposed hphase =>
      rw [hphase] at hplan
      exact ⟨False.elim, fun hfailure _ => hplan hfailure Phase.noConfusion⟩
  | undisposed => exact Planned.of_failure rfl fun hin => hin

theorem Planned.timeout {parameters : Parameters} {publisher next : Publisher n}
    (hplanned : Planned parameters publisher) (htimeout : publisher.timeout = some next)
    (hnew : ¬ publisher.Repeats) : Planned parameters next := by
  rcases timeout_cases htimeout hnew with rfl | ⟨received, hphase, rfl⟩
  · exact hplanned
  · exact Planned.of_failure rfl fun hin => hin

theorem Planned.takes {parameters : Parameters} {publisher next : Publisher n}
    {answer : Option ThroughputCommandType}
    (hcount : parameters.recoveryTimes.length < 2 ^ 16)
    (hplanned : Planned parameters publisher) (htake : Takes publisher answer next) :
    Planned parameters next := by
  have hcurrent := hplanned.current
  have hplan := hplanned.plan
  unfold Publisher.todo at hplan
  cases htake with
  | rigging hphase =>
      rw [hphase] at hplan hcurrent
      exact ⟨fun _ => (hcurrent trivial).of_eq rfl rfl rfl rfl,
        fun hfailure _ => hplan hfailure Phase.noConfusion⟩
  | removing hphase =>
      rw [hphase] at hplan
      exact ⟨False.elim, fun hfailure _ => hplan hfailure Phase.noConfusion⟩
  | @recorded received command hphase =>
      rw [hphase] at hplan hcurrent
      have hstands := hcurrent trivial
      refine ⟨fun _ => hstands.of_eq rfl rfl rfl rfl, fun hfailure _ => ?_⟩
      rw [← hplan hfailure Phase.noConfusion]
      cases received with
      | zero =>
          have hentry : (publisher.record command 0).map TroughputResults.key =
              publisher.results.map TroughputResults.key ++ [(publisher.test.msgSize + overhead,
                publisher.test.demand, publisher.test.recoveryTimeMs)] := by
            rw [Publisher.record, if_pos rfl, List.map_append]
            rfl
          have htail : Publisher.todo parameters
              { publisher with
                results := publisher.record command 0
                phase := .results 1 } = (publisher.fromCurrent parameters).tail := rfl
          dsimp only
          rw [htail, hentry, hstands.fromCurrent hcount, List.tail_cons, List.append_assoc,
            List.singleton_append]
      | succ received =>
          have hentry : (publisher.record command (received + 1)).map TroughputResults.key =
              publisher.results.map TroughputResults.key := by
            rw [Publisher.record, if_neg (by omega)]
            apply ListUpdate.map_modify_of_eq
            exact fun _ => rfl
          dsimp only
          rw [hentry]
          rfl
  | tooMany => exact ⟨False.elim, fun _ hphase => absurd rfl hphase⟩
  | failed => exact Planned.of_failure rfl fun hin => hin

theorem Planned.withFound {parameters : Parameters} {publisher : Publisher n}
    (hplanned : Planned parameters publisher) (found : Finset (Fin n)) (wait : WaitPhase)
    (notifications : ℕ) :
    Planned parameters
      { publisher with
        found := found
        discoveryWait := wait
        notifications := notifications } where
  current := fun hin => (hplanned.current hin).of_eq rfl rfl rfl rfl
  plan := hplanned.plan

theorem Planned.step {parameters : Parameters} {state next : State n} {action : Action n}
    (hcount : parameters.recoveryTimes.length < 2 ^ 16) (hsome : 0 < n)
    (hplanned : Planned parameters state.publisher)
    (hstep : CppProj.ThroughputTest.step parameters state action = some next)
    (hnew : Unrepeated state action) : Planned parameters next.publisher := by
  cases action with
  | advance =>
      obtain ⟨⟨publisher, commands⟩, hadvance, rfl⟩ := Option.map_eq_some_iff.mp hstep
      exact hplanned.advance hcount hsome (advances_of_advance hadvance)
  | prepare prepared =>
      obtain ⟨publisher, hprepare, rfl⟩ := Option.map_eq_some_iff.mp hstep
      exact hplanned.proceed (proceeds_of_prepare hprepare)
  | dispose prepared =>
      obtain ⟨⟨publisher, commands⟩, hdispose, rfl⟩ := Option.map_eq_some_iff.mp hstep
      exact hplanned.dispose (disposes_of_dispose hdispose)
  | acknowledge inTime =>
      obtain ⟨publisher, hacknowledge, rfl⟩ := Option.map_eq_some_iff.mp hstep
      exact hplanned.proceed (proceeds_of_acknowledge hacknowledge)
  | send batches =>
      obtain ⟨publisher, hsend, rfl⟩ := Option.map_eq_some_iff.mp hstep
      exact hplanned.proceed (proceeds_of_send hsend)
  | take index =>
      simp only [CppProj.ThroughputTest.step, takeStep] at hstep
      split at hstep
      case h_1 answer hanswer =>
        obtain ⟨publisher, htake, rfl⟩ := Option.map_eq_some_iff.mp hstep
        exact hplanned.takes hcount (takes_of_take htake)
      case h_2 => cases hstep
  | takeInvalid =>
      obtain ⟨publisher, htake, rfl⟩ := Option.map_eq_some_iff.mp hstep
      exact hplanned.takes hcount (takes_of_take htake)
  | timeout =>
      obtain ⟨publisher, htimeout, rfl⟩ := Option.map_eq_some_iff.mp hstep
      exact hplanned.timeout htimeout (hnew rfl)
  | processMessage index prepared totalTime =>
      simp only [CppProj.ThroughputTest.step, processMessageStep] at hstep
      split_ifs at hstep
      split at hstep
      case h_1 =>
        cases hstep
        exact hplanned
      case h_2 => cases hstep
  | atWriter event =>
      obtain ⟨publisher, hat, rfl⟩ := Option.map_eq_some_iff.mp hstep
      obtain ⟨_, _, _, rfl⟩ := (writerSteps_of_atWriter hat).eq
      exact hplanned.withFound _ _ _
  | atReader index event =>
      obtain ⟨subscriber, hat, rfl⟩ := Option.map_eq_some_iff.mp hstep
      exact hplanned

/-! ## The printed results -/

/-- One entry for every test of the plan, which adds up what every subscriber has
reported about this test, and nothing else was reported. -/
structure Complete (parameters : Parameters) (state : State n) : Prop where
  keys : state.publisher.results.map TroughputResults.key =
    plan parameters.recoveryTimes parameters.demandPayload
  reported : ∀ index, (reports (state.subscribers index).link.written).length =
    state.publisher.results.length
  sums : ∀ (position : ℕ) (entry : TroughputResults),
    state.publisher.results[position]? = some entry →
      ∃ samples, Sums entry samples fun index =>
        (reports (state.subscribers index).link.written)[position]?

theorem complete_of_printed {parameters : Parameters} {actions : List (Action n)}
    {state : State n}
    (hrun : (system parameters).run (State.initial parameters) actions = some state)
    (hsafe : Safe parameters actions)
    (hcount : parameters.recoveryTimes.length < 2 ^ 16) (hsome : 0 < n)
    (hprinted : state.publisher.phase = .printed) : Complete parameters state := by
  obtain ⟨hlock, htallied, hplanned⟩ := run_preserves_of_stepsMeet
    (fun state => LockStep state ∧ Tallied state ∧ Planned parameters state.publisher)
    (fun _ _ _ hinv hnew hstep =>
      ⟨hinv.1.step hstep hnew, hinv.2.1.step hinv.1 hstep hnew,
        hinv.2.2.step hcount hsome hstep hnew⟩)
    ⟨LockStep.initial parameters, Tallied.initial parameters, Planned.initial parameters⟩
    hsafe.stepsMeet hrun
  have hrunning : state.publisher.phase ≠ .aborted := by
    rw [hprinted]
    exact Phase.noConfusion
  have hfailure := htallied.1 hprinted
  have htally := htallied.2 hfailure hrunning
  have hround := hlock.rounds.round
  unfold Round at hround
  rw [hprinted] at hround
  have hwritten : ∀ index, state.reports index =
      reports (state.subscribers index).link.written := by
    intro index
    have hfollows := (hlock.rounds.followed index).follows
    rw [State.reports, hfollows.received_eq_written (hround hfailure index)]
  constructor
  case keys =>
    have hplan := hplanned.plan hfailure hrunning
    unfold Publisher.todo at hplan
    rw [hprinted, List.append_nil] at hplan
    exact hplan
  case reported =>
    intro index
    have hlength := htally.lengths index
    rw [if_pos (hround hfailure index)] at hlength
    rw [← hwritten]
    exact hlength
  case sums =>
    intro position entry hentry
    have hsums := htally.entries position entry hentry
    simp only [hwritten] at hsums
    exact hsums

/-- The whole run of one subscriber, with a wait that times out and a test whose
twelve samples bring two. -/
def untilPrinted : List (Action 1) :=
  untilSending ++
    [.send 4, .atReader lone (.takeNextSample (some ⟨true, 2⟩)),
      .atReader lone (.takeNextSample none), .processMessage lone true 0, .advance,
      .acknowledge true, .processMessage lone true 0, .take lone, .advance, .advance, .advance,
      .dispose true, .processMessage lone true 0, .take lone, .advance, .advance, .advance]

theorem run_untilPrinted :
    ∃ state, (system shortTest).run (State.initial shortTest) untilPrinted = some state ∧
      state.publisher.phase = .printed :=
  ⟨_, rfl, rfl⟩

theorem complete_of_printed_untilPrinted :
    ∃ state, (system shortTest).run (State.initial shortTest) untilPrinted = some state ∧
      Complete shortTest state := by
  obtain ⟨state, hrun, hprinted⟩ := run_untilPrinted
  exact ⟨state, hrun,
    complete_of_printed hrun (Or.inl le_rfl) (by decide) Nat.one_pos hprinted⟩

end CppProj.ThroughputTest
