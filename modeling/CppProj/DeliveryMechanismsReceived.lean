import CppProj.DeliveryMechanismsSamples
import Mathlib.Algebra.BigOperators.Fin
import Mathlib.Algebra.Order.BigOperators.Group.Finset

/-!
# What the readers of the delivery mechanisms example receive

A reader that stops itself has counted enough samples.  If no more than that
can be sent, nothing has failed for it and it has got all of them.
-/

namespace CppProj.DeliveryMechanisms

open TransitionSystem

variable {n : ℕ}

/-! ## What is received -/

/-- Without a failure a writer sends every number. -/
theorem Sends.written_sublist {config : Config} {app : App n} {loans : ℕ}
    (hsends : Sends config app loans) : app.written.Sublist (numbers loans) := by
  by_cases hphase : app.phase = .writing
  · obtain ⟨before, rfl, hbefore⟩ := hsends.writing hphase
    rw [numbers_succ]
    exact hbefore.trans (List.sublist_append_left _ _)
  · exact hsends.written hphase

theorem samplesFrom_received {configs : Fin n → Config} {state : State n}
    (haccounted : Accounted configs state) (writer reader : Fin n) :
    (samplesFrom writer (state.apps reader).received).Sublist (state.apps writer).written := by
  refine List.Sublist.trans ?_
    ((haccounted.receives writer reader).trans (List.take_sublist _ _))
  rw [App.got, samplesFrom_append, samplesFrom_append, List.append_assoc]
  exact List.sublist_append_left _ _

def firstSender : Fin 3 := ⟨0, Nat.zero_lt_succ 2⟩

def secondSender : Fin 3 := ⟨1, Nat.one_lt_succ_succ 1⟩

def lastReceiver : Fin 3 := Fin.last 2

/-- Two publishers, of two samples and of one, and a subscriber to all three. -/
def twoSenders (index : Fin 3) : Config :=
  if index = firstSender then { Config.initial .publisher with samples := 2 }
  else if index = secondSender then { Config.initial .publisher with samples := 1 }
  else { Config.initial .subscriber with samples := 3 }

def sendNext (writer : Fin 3) : List (Action 3) :=
  [.advance writer, .advance writer, .loan writer true, .write writer true, .rest writer]

def twoSendersRun : List (Action 3) :=
  [.publicationMatched firstSender lastReceiver, .publicationMatched secondSender lastReceiver] ++
    sendNext firstSender ++ sendNext secondSender ++ [.deliver firstSender lastReceiver] ++
    sendNext firstSender ++
    [.deliver secondSender lastReceiver, .deliver firstSender lastReceiver, .take lastReceiver 2,
      .receive lastReceiver, .receive lastReceiver, .take lastReceiver 1, .receive lastReceiver]

theorem samplesFrom_cons (writer : Fin n) (sample : Sample n) (samples : List (Sample n)) :
    (samplesFrom writer (sample :: samples)).length =
      (if writer = sample.1 then 1 else 0) + (samplesFrom writer samples).length := by
  rw [← List.singleton_append, samplesFrom_append, List.length_append]
  congr 1
  split_ifs with hwriter
  · rw [hwriter, samplesFrom_self]
    rfl
  · rw [samplesFrom_other (Ne.symm hwriter)]
    rfl

theorem length_eq_sum (samples : List (Sample n)) :
    samples.length = ∑ writer : Fin n, (samplesFrom writer samples).length := by
  induction samples with
  | nil => exact (Finset.sum_eq_zero fun _ _ => rfl).symm
  | cons sample samples ih =>
      rw [Finset.sum_congr rfl fun writer _ => samplesFrom_cons writer sample samples,
        Finset.sum_add_distrib, Finset.sum_ite_eq' Finset.univ sample.1 fun _ => 1,
        if_pos (Finset.mem_univ _), ← ih, List.length_cons, Nat.add_comm]

/-! ## A reader that stops itself -/

/-- The flag is raised by `run` or the listener, with enough samples received.
A subscriber does not go on with enough of them. -/
structure App.Stays (config : Config) (app next : App n) : Prop where
  received : app.received.length ≤ next.received.length
  stop : next.stop = true → app.stop = true ∨
    config.samples ≠ 0 ∧ config.wants next.receivedSamples = false
  goesOn : next.stop = false → app.stop = false ∧
    (config.entity = .subscriber → next.received.length = app.received.length ∨
      next.received.length = app.received.length + 1 ∧
        config.wants next.receivedSamples = true)

theorem App.Stays.same {config : Config} {app next : App n}
    (hreceived : next.received = app.received) (hstop : next.stop = app.stop) :
    App.Stays config app next where
  received := by rw [hreceived]
  stop := by
    rw [hstop]
    exact Or.inl
  goesOn := by
    rw [hstop, hreceived]
    exact fun hgoesOn => ⟨hgoesOn, fun _ => Or.inl rfl⟩

theorem stays_of_advance {config : Config} {app next : App n}
    (hadvance : app.advance config = some next) : App.Stays config app next := by
  rw [App.advance] at hadvance
  split at hadvance
  case h_5 =>
    split_ifs at hadvance
    cases hadvance
    exact App.Stays.same rfl rfl
  case h_1 | h_2 =>
    cases hadvance
    split_ifs
    all_goals exact App.Stays.same rfl rfl
  case h_3 | h_4 =>
    cases hadvance
    exact App.Stays.same rfl rfl
  case h_6 =>
    cases hadvance
    split_ifs with hreached
    · exact ⟨Nat.le_refl _, fun _ => Or.inr ⟨hreached.1, hreached.2.1⟩,
        fun hgoesOn => Bool.noConfusion hgoesOn⟩
    · exact App.Stays.same rfl rfl
  all_goals contradiction

theorem stays_of_receive {config : Config} {app next : App n}
    (hreceive : app.receive config = some next) : App.Stays config app next := by
  have hlength := (got_of_receive hreceive).2.2.2.2.2
  rw [App.receive] at hreceive
  split at hreceive
  case h_2 => contradiction
  case h_1 =>
    cases hreceive
    split_ifs at hlength ⊢ with hreached
    · refine ⟨by omega, fun _ => ?_, fun hgoesOn => Bool.noConfusion hgoesOn⟩
      obtain ⟨-, hwants⟩ := hreached
      refine Or.inr ⟨fun hzero => ?_, hwants⟩
      rw [Config.wants, hzero] at hwants
      exact Bool.noConfusion hwants
    · refine ⟨by omega, Or.inl, fun hgoesOn => ⟨hgoesOn, fun hsubscriber => ?_⟩⟩
      refine Or.inr ⟨hlength, ?_⟩
      by_contra hwants
      exact hreached ⟨hsubscriber, Bool.eq_false_of_not_eq_true hwants⟩

theorem stays_of_withApp {configs : Fin n → Config} {state : State n} {index other : Fin n}
    {app : App n} (hstays : App.Stays (configs index) (state.apps index) app) :
    App.Stays (configs other) (state.apps other) ((state.withApp index app).apps other) := by
  rw [update_apps]
  split_ifs with hother
  · rw [hother]
    exact hstays
  · exact App.Stays.same rfl rfl

/-- A step other than a signal for this application. -/
theorem stays_of_step {configs : Fin n → Config} {state next : State n} {action : Action n}
    {other : Fin n} (hsignal : action ≠ .signal other)
    (hstep : step configs state action = some next) :
    App.Stays (configs other) (state.apps other) (next.apps other) := by
  cases action with
  | advance index =>
      obtain ⟨app, hadvance, rfl⟩ := exists_of_appStep hstep
      exact stays_of_withApp (stays_of_advance hadvance)
  | loan index loaned =>
      obtain ⟨app, hloan, rfl⟩ := exists_of_appStep hstep
      rw [App.loan] at hloan
      split_ifs at hloan
      all_goals
        cases hloan
        exact stays_of_withApp (App.Stays.same rfl rfl)
  | write index succeeded =>
      obtain ⟨app, hwrite, rfl⟩ := exists_of_appStep hstep
      rw [App.write] at hwrite
      split_ifs at hwrite
      all_goals
        cases hwrite
        exact stays_of_withApp (App.Stays.same rfl rfl)
  | rest index =>
      obtain ⟨app, hrest, rfl⟩ := exists_of_appStep hstep
      rw [App.rest] at hrest
      split_ifs at hrest
      all_goals
        cases hrest
        exact stays_of_withApp (App.Stays.same rfl rfl)
  | notify index =>
      obtain ⟨app, hnotify, rfl⟩ := exists_of_appStep hstep
      rw [App.notify] at hnotify
      split_ifs at hnotify
      cases hnotify
      exact stays_of_withApp (App.Stays.same rfl rfl)
  | signal index =>
      dsimp only [step] at hstep
      obtain ⟨app, hstopped, rfl⟩ := exists_of_appStep hstep
      rw [update_apps, if_neg (fun hother => hsignal (by rw [hother]))]
      exact App.Stays.same rfl rfl
  | publicationMatched writer reader =>
      dsimp only [step, matchedStep] at hstep
      split_ifs at hstep
      cases hstep
      exact stays_of_withApp (App.Stays.same rfl rfl)
  | publicationUnmatched writer reader =>
      dsimp only [step, unmatchedStep] at hstep
      split_ifs at hstep
      cases hstep
      exact stays_of_withApp (App.Stays.same rfl rfl)
  | deliver writer reader =>
      rw [step, deliverStep] at hstep
      split at hstep
      case h_2 => contradiction
      case h_1 =>
        split_ifs at hstep
        cases hstep
        exact stays_of_withApp (App.Stays.same rfl rfl)
  | lose writer reader =>
      dsimp only [step, loseStep] at hstep
      split_ifs at hstep
      cases hstep
      exact App.Stays.same rfl rfl
  | take index count =>
      obtain ⟨app, htake, rfl⟩ := exists_of_appStep hstep
      rw [App.take] at htake
      split_ifs at htake
      cases htake
      exact stays_of_withApp (App.Stays.same rfl rfl)
  | receive index =>
      obtain ⟨app, hreceive, rfl⟩ := exists_of_appStep hstep
      exact stays_of_withApp (stays_of_receive hreceive)
  | delete index =>
      obtain ⟨app, hdelete, rfl⟩ := exists_of_appStep hstep
      rw [App.delete] at hdelete
      split_ifs at hdelete
      cases hdelete
      exact stays_of_withApp (App.Stays.same rfl rfl)

/-- The flag of this application says that it has received enough. -/
structure StopsItself (configs : Fin n → Config) (reader : Fin n) (state : State n) : Prop where
  accounted : Accounted configs state
  reached : (state.apps reader).stop = true →
    (configs reader).samples.toNat ≤ (state.apps reader).received.length

theorem StopsItself.initial (configs : Fin n → Config) (reader : Fin n) :
    StopsItself configs reader (State.initial configs) :=
  ⟨Accounted.initial configs, fun hstopped => Bool.noConfusion hstopped⟩

theorem StopsItself.step {configs : Fin n → Config} {state next : State n} {action : Action n}
    {reader : Fin n} (hstops : StopsItself configs reader state)
    (hsignal : action ≠ .signal reader)
    (hstep : step configs state action = some next) : StopsItself configs reader next := by
  have haccounted := hstops.accounted.step hstep
  obtain ⟨hreceived, hstop, -⟩ := stays_of_step hsignal hstep
  refine ⟨haccounted, fun hstopped => ?_⟩
  rcases hstop hstopped with hbefore | ⟨hsamples, hwants⟩
  · exact (hstops.reached hbefore).trans hreceived
  · have hreached : (configs reader).samples.toNat ≤ (next.apps reader).receivedSamples.toNat := by
      by_contra hless
      rw [Config.wants_eq_true_iff.mpr fun _ => Nat.lt_of_not_le hless] at hwants
      exact Bool.noConfusion hwants
    calc (configs reader).samples.toNat
        ≤ (next.apps reader).receivedSamples.toNat := hreached
      _ = (next.apps reader).received.length % 2 ^ 32 := by
          rw [haccounted.counts reader, UInt32.toNat_ofNat']
      _ ≤ (next.apps reader).received.length := Nat.mod_le _ _

theorem StopsItself.run {configs : Fin n → Config} {state : State n} {actions : List (Action n)}
    {reader : Fin n} (hsignal : Action.signal reader ∉ actions)
    (hrun : (system configs).run (State.initial configs) actions = some state) :
    StopsItself configs reader state := by
  refine (system configs).run_preserves_of_stepsMeet (StopsItself configs reader)
    (fun _ action _ hstops hother hstep => hstops.step hother hstep)
    (StopsItself.initial configs reader) ?_ hrun
  refine (system configs).stepsMeet_of_forall_mem ?_ _
  rintro action hmem rfl
  exact hsignal hmem

theorem Sends.length_written_le {config : Config} {app : App n} {loans : ℕ}
    (hsends : Sends config app loans) (hsamples : config.samples ≠ 0) :
    app.written.length ≤ config.samples.toNat := by
  have hlength := hsends.written_sublist.length_le
  rw [length_numbers] at hlength
  exact hlength.trans (hsends.limit hsamples)

theorem samplesFrom_incompatible {configs : Fin n → Config} {state : State n}
    (haccounted : Accounted configs state) {writer reader : Fin n}
    (hincompatible : ¬ Compatible configs writer reader) :
    samplesFrom writer (state.apps reader).received = [] := by
  refine List.filterMap_eq_nil_iff.mpr fun sample hmem => ?_
  refine if_neg ?_
  rintro rfl
  refine hincompatible (haccounted.origin reader sample ?_)
  rw [App.got, List.append_assoc]
  exact List.mem_append_left _ hmem

/-- If no more samples can be sent than a reader waits for, and it stops by
itself, then nothing has failed for it: every writer has sent each of its
samples, and the reader has got them all. -/
theorem received_of_stopped {configs : Fin n → Config} {state : State n}
    {actions : List (Action n)} {reader : Fin n}
    (hsignal : Action.signal reader ∉ actions)
    (hrun : (system configs).run (State.initial configs) actions = some state)
    (hlimited : ∀ writer, Compatible configs writer reader → (configs writer).samples ≠ 0)
    (hfew : ∑ writer with Compatible configs writer reader, (configs writer).samples.toNat ≤
      (configs reader).samples.toNat)
    (hstopped : (state.apps reader).stop = true) :
    (configs reader).samples.toNat =
        ∑ writer with Compatible configs writer reader, (configs writer).samples.toNat ∧
      ∀ writer, Compatible configs writer reader →
        (state.apps writer).written = numbers (configs writer).samples.toNat ∧
        samplesFrom writer (state.apps reader).received = (state.apps writer).written := by
  have hstops := StopsItself.run hsignal hrun
  have haccounted := hstops.accounted
  have hreceived (writer : Fin n) := samplesFrom_received haccounted writer reader
  have hlength :
      (state.apps reader).received.length =
        ∑ writer with Compatible configs writer reader,
          (samplesFrom writer (state.apps reader).received).length := by
    rw [length_eq_sum, Finset.sum_filter]
    refine Finset.sum_congr rfl fun writer _ => ?_
    split_ifs with hcompatible
    · rfl
    · rw [samplesFrom_incompatible haccounted hcompatible]
      rfl
  have hwritten (writer : Fin n) (hcompatible : Compatible configs writer reader) :
      (state.apps writer).written.length ≤ (configs writer).samples.toNat := by
    obtain ⟨loans, hsends⟩ := haccounted.sends writer
    exact hsends.length_written_le (hlimited writer hcompatible)
  have hle : ∀ writer ∈ Finset.univ.filter fun writer => Compatible configs writer reader,
      (samplesFrom writer (state.apps reader).received).length ≤
        (configs writer).samples.toNat := by
    intro writer hmem
    exact (hreceived writer).length_le.trans (hwritten writer (Finset.mem_filter.mp hmem).2)
  have hreached := hstops.reached hstopped
  have hsum := Finset.sum_le_sum hle
  have hequal := (Finset.sum_eq_sum_iff_of_le hle).mp (by omega)
  refine ⟨by omega, fun writer hcompatible => ?_⟩
  have hsame := hequal writer (Finset.mem_filter.mpr ⟨Finset.mem_univ _, hcompatible⟩)
  have hall := (hreceived writer).length_le
  obtain ⟨loans, hsends⟩ := haccounted.sends writer
  have hloans := hsends.written_sublist.length_le
  rw [length_numbers] at hloans
  have hlimit := hsends.limit (hlimited writer hcompatible)
  constructor
  · rw [show (configs writer).samples.toNat = loans by omega]
    refine hsends.written_sublist.eq_of_length_le ?_
    rw [length_numbers]
    omega
  · exact (hreceived writer).eq_of_length_le (by
      have := hwritten writer hcompatible
      omega)

theorem received_of_stopped_twoSenders :
    ∃ state,
      (system twoSenders).run (State.initial twoSenders) twoSendersRun = some state ∧
      (twoSenders lastReceiver).samples.toNat =
          ∑ writer with Compatible twoSenders writer lastReceiver,
            (twoSenders writer).samples.toNat ∧
        ∀ writer, Compatible twoSenders writer lastReceiver →
          (state.apps writer).written = numbers (twoSenders writer).samples.toNat ∧
          samplesFrom writer (state.apps lastReceiver).received =
            (state.apps writer).written := by
  have hsignal : Action.signal lastReceiver ∉ twoSendersRun := by decide
  have hlimited : ∀ writer, Compatible twoSenders writer lastReceiver →
      (twoSenders writer).samples ≠ 0 := by decide
  have hfew : ∑ writer with Compatible twoSenders writer lastReceiver,
      (twoSenders writer).samples.toNat ≤ (twoSenders lastReceiver).samples.toNat := by decide
  exact ⟨_, rfl, received_of_stopped hsignal rfl hlimited hfew rfl⟩

end CppProj.DeliveryMechanisms
