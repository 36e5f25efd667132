import CppProj.DeliveryMechanismsReceived

/-!
# The waits of the delivery mechanisms example

A notification is lost when it comes between the test of a wait and its sleep.
When none that is needed gets lost, the applications stop only for want of
something: a publisher of readers, and a subscriber of samples.
-/

namespace CppProj.DeliveryMechanisms

open TransitionSystem

variable {n : ℕ}

/-! ## Notifications -/

/-- An application that sleeps although it may go on has a notification to
come. -/
def App.Awake (config : Config) (app : App n) : Prop :=
  ∀ wait, app.phase = .waiting wait →
    WakeupPending (app.goesOn config) app.notifications wait

/-- The next notification would be lost, and is the last. -/
def App.InGap (config : Config) (app : App n) : Prop :=
  app.phase = .waiting .blocking ∧ app.goesOn config = true ∧ app.notifications = 1

instance (config : Config) (app : App n) : Decidable (app.InGap config) :=
  inferInstanceAs (Decidable (_ ∧ _ ∧ _))

/-- The step loses a notification that is needed. -/
def Loses (configs : Fin n → Config) (state : State n) : Action n → Prop
  | .notify index => (state.apps index).InGap (configs index)
  | _ => False

instance (configs : Fin n → Config) (state : State n) (action : Action n) :
    Decidable (Loses configs state action) :=
  match action with
  | .notify index => inferInstanceAs (Decidable ((state.apps index).InGap (configs index)))
  | .advance _ | .loan _ _ | .write _ _ | .rest _ | .signal _ | .publicationMatched _ _
  | .publicationUnmatched _ _ | .deliver _ _ | .lose _ _ | .take _ _ | .receive _
  | .delete _ => isFalse id

structure Waits (configs : Fin n → Config) (state : State n) : Prop where
  awake : ∀ index, (state.apps index).Awake (configs index)
  matched : ∀ index, (state.apps index).matched = state.currentCount index

theorem App.Awake.of_not_waiting {config : Config} {app : App n}
    (hphase : ∀ wait, app.phase ≠ .waiting wait) : app.Awake config :=
  fun wait hwait => absurd hwait (hphase wait)

/-- It is awake where its phase, its notifications and what it waits for are
unchanged. -/
theorem App.Awake.same {config : Config} {app next : App n} (hawake : app.Awake config)
    (hphase : next.phase = app.phase) (hgoesOn : next.goesOn config = app.goesOn config)
    (hnotifications : next.notifications = app.notifications) : next.Awake config := by
  rw [App.Awake, hphase, hgoesOn, hnotifications]
  exact hawake

/-- A notification on its way keeps any wait awake. -/
theorem App.Awake.raise {config : Config} {app : App n} (hpending : 0 < app.notifications) :
    app.Awake config :=
  fun _ _ _ _ => hpending

theorem awake_initial (config : Config) : (App.initial config : App n).Awake config := by
  intro wait hwait hgoesOn
  rw [App.goesOn, Bool.or_eq_true, Bool.and_eq_true, decide_eq_true_eq] at hgoesOn
  rcases hgoesOn with hstop | ⟨-, hmatched⟩
  · exact Bool.noConfusion hstop
  · exact absurd hmatched (Nat.lt_irrefl 0)

theorem Waits.initial (configs : Fin n → Config) : Waits configs (State.initial configs) where
  awake := fun index => awake_initial (configs index)
  matched := by
    intro index
    refine (Finset.card_eq_zero.mpr ?_).symm
    exact Finset.filter_false_of_mem fun _ _ => Bool.noConfusion

theorem App.Awake.advance {config : Config} {app next : App n} (hawake : app.Awake config)
    (hadvance : app.advance config = some next) : next.Awake config := by
  rw [App.advance] at hadvance
  split at hadvance
  case h_1 hphase =>
    cases hadvance
    split_ifs
    · exact App.Awake.of_not_waiting fun _ => Phase.noConfusion
    · rintro wait hwait
      cases hwait
      exact WakeupPending.awake WaitPhase.noConfusion WaitPhase.noConfusion
    · exact App.Awake.of_not_waiting fun _ => Phase.noConfusion
    · exact App.Awake.of_not_waiting fun _ => Phase.noConfusion
  case h_2 hphase =>
    cases hadvance
    split_ifs with hgoesOn
    · exact App.Awake.of_not_waiting fun _ => Phase.noConfusion
    · exact App.Awake.of_not_waiting fun _ => Phase.noConfusion
    · intro wait _ hflag
      exact absurd hflag hgoesOn
  case h_3 hphase =>
    cases hadvance
    rintro wait hwait
    cases hwait
    exact (hawake .blocking hphase).block
  case h_4 hphase =>
    cases hadvance
    rintro wait hwait
    cases hwait
    exact WakeupPending.awake WaitPhase.noConfusion WaitPhase.noConfusion
  case h_5 hphase =>
    split_ifs at hadvance
    cases hadvance
    exact App.Awake.of_not_waiting fun _ => Phase.noConfusion
  case h_6 hphase =>
    cases hadvance
    split_ifs
    · exact App.Awake.of_not_waiting fun _ => Phase.noConfusion
    · exact App.Awake.of_not_waiting fun _ => Phase.noConfusion
  all_goals contradiction

/-- A notification may be used up where it is not lost, or is not the last. -/
theorem App.awake_of_notify {config : Config} {app next : App n} (hgap : ¬ app.InGap config)
    (hnotify : app.notify = some next) : next.Awake config := by
  rw [App.notify] at hnotify
  split_ifs at hnotify with hpending
  cases hnotify
  intro wait hwait
  cases hphase : app.phase with
  | waiting before =>
      rw [hphase] at hwait
      cases hwait
      by_cases hblocking : before = .blocking
      · intro hgoesOn _
        have hlast : app.notifications ≠ 1 := by
          rintro hlast
          rw [hblocking] at hphase
          exact hgap ⟨hphase, hgoesOn, hlast⟩
        change 0 < app.notifications - 1
        omega
      · exact WakeupPending.notify hblocking
  | head | publishing | writing | resting | checking | returned =>
      rw [hphase] at hwait
      cases hwait

/-- A notification that is lost, and the last, leaves the application asleep. -/
theorem not_awake_of_inGap {config : Config} {app next : App n} (hgap : app.InGap config)
    (hnotify : app.notify = some next) : ¬ next.Awake config := by
  obtain ⟨hphase, hgoesOn, hlast⟩ := hgap
  rw [App.notify, hphase] at hnotify
  split_ifs at hnotify
  cases hnotify
  intro hawake
  have hpending := hawake .blocking rfl hgoesOn (Or.inl rfl)
  dsimp only at hpending
  omega

/-! ## The steps of the system -/

theorem Waits.withApp {configs : Fin n → Config} {state : State n} {index : Fin n} {app : App n}
    (hwaits : Waits configs state) (hawake : app.Awake (configs index))
    (hmatched : app.matched = (state.apps index).matched) :
    Waits configs (state.withApp index app) where
  awake := by
    intro other
    rw [update_apps]
    split_ifs with hother
    · rw [hother]
      exact hawake
    · exact hwaits.awake other
  matched := by
    intro other
    rw [update_apps]
    split_ifs with hother
    · rw [hother]
      exact hmatched.trans (hwaits.matched index)
    · exact hwaits.matched other

theorem currentCount_withLink_other {state : State n} {writer reader other : Fin n} {link : Link}
    (hother : other ≠ writer) :
    (state.withLink writer reader link).currentCount other = state.currentCount other := by
  refine congrArg Finset.card (Finset.filter_congr fun another _ => ?_)
  rw [update_links, if_neg fun hboth => hother hboth.1]

theorem currentCount_withLink_same {state : State n} {writer reader other : Fin n} {link : Link}
    (hmatched : link.matched = (state.links writer reader).matched) :
    (state.withLink writer reader link).currentCount other = state.currentCount other := by
  refine congrArg Finset.card (Finset.filter_congr fun another _ => ?_)
  rw [update_links]
  split_ifs with hboth
  · rw [hboth.1, hboth.2, hmatched]
  · rfl

theorem currentCount_unmatched_le {state : State n} {writer reader : Fin n} {link : Link}
    (hunmatched : link.matched = false) :
    (state.withLink writer reader link).currentCount writer ≤ state.currentCount writer := by
  refine Finset.card_le_card fun another => ?_
  rw [Finset.mem_filter, Finset.mem_filter, update_links]
  rintro ⟨huniv, hmatched⟩
  split_ifs at hmatched
  · rw [hunmatched] at hmatched
    exact Bool.noConfusion hmatched
  · exact ⟨huniv, hmatched⟩

/-- A link that stays matched or unmatched. -/
theorem Waits.withLink {configs : Fin n → Config} {state : State n} {writer reader : Fin n}
    {link : Link} (hwaits : Waits configs state)
    (hmatched : link.matched = (state.links writer reader).matched) :
    Waits configs (state.withLink writer reader link) where
  awake := hwaits.awake
  matched := by
    intro other
    rw [currentCount_withLink_same hmatched]
    exact hwaits.matched other

/-- A link of a writer and what the writer has been told of it. -/
theorem Waits.tell {configs : Fin n → Config} {state : State n} {writer reader : Fin n}
    {link : Link} {app : App n} (hwaits : Waits configs state)
    (hawake : app.Awake (configs writer))
    (hmatched : app.matched = (state.withLink writer reader link).currentCount writer) :
    Waits configs ((state.withLink writer reader link).withApp writer app) where
  awake := by
    intro other
    rw [update_apps]
    split_ifs with hother
    · rw [hother]
      exact hawake
    · exact hwaits.awake other
  matched := by
    intro other
    rw [update_apps]
    split_ifs with hother
    · rw [hother]
      exact hmatched
    · exact (hwaits.matched other).trans (currentCount_withLink_other hother).symm

theorem Waits.unmatched {configs : Fin n → Config} {state next : State n}
    {writer reader : Fin n} (hwaits : Waits configs state)
    (hunmatched : unmatchedStep state writer reader = some next) : Waits configs next := by
  dsimp only [unmatchedStep] at hunmatched
  split_ifs at hunmatched
  cases hunmatched
  refine hwaits.tell ?_ rfl
  intro wait hwait hgoesOn hasleep
  refine hwaits.awake writer wait hwait ?_ hasleep
  rw [App.goesOn, Bool.or_eq_true, Bool.and_eq_true, decide_eq_true_eq] at hgoesOn ⊢
  refine hgoesOn.imp_right fun hmatched => ⟨hmatched.1, ?_⟩
  rw [hwaits.matched writer]
  exact hmatched.2.trans_le (currentCount_unmatched_le rfl)

theorem matched_of_advance {config : Config} {app next : App n}
    (hadvance : app.advance config = some next) : next.matched = app.matched := by
  rw [App.advance] at hadvance
  split at hadvance
  case h_5 =>
    split_ifs at hadvance
    cases hadvance
    rfl
  case h_1 | h_2 | h_6 =>
    cases hadvance
    split_ifs
    all_goals rfl
  case h_3 | h_4 =>
    cases hadvance
    rfl
  all_goals contradiction

theorem awake_of_receive {config : Config} {app next : App n} (hawake : app.Awake config)
    (hreceive : app.receive config = some next) :
    next.Awake config ∧ next.matched = app.matched := by
  rw [App.receive] at hreceive
  split at hreceive
  case h_2 => contradiction
  case h_1 =>
    cases hreceive
    split_ifs
    · exact ⟨App.Awake.raise (Nat.succ_pos _), rfl⟩
    · exact ⟨hawake.same rfl rfl rfl, rfl⟩

/-- Every step but one that loses a notification. -/
theorem Waits.step {configs : Fin n → Config} {state next : State n} {action : Action n}
    (hwaits : Waits configs state) (hloses : ¬ Loses configs state action)
    (hstep : step configs state action = some next) : Waits configs next := by
  cases action with
  | advance index =>
      obtain ⟨app, hadvance, rfl⟩ := exists_of_appStep hstep
      exact hwaits.withApp ((hwaits.awake index).advance hadvance) (matched_of_advance hadvance)
  | loan index loaned =>
      obtain ⟨app, hloan, rfl⟩ := exists_of_appStep hstep
      rw [App.loan] at hloan
      split_ifs at hloan
      all_goals
        cases hloan
        exact hwaits.withApp (App.Awake.of_not_waiting fun _ => Phase.noConfusion) rfl
  | write index succeeded =>
      obtain ⟨app, hwrite, rfl⟩ := exists_of_appStep hstep
      rw [App.write] at hwrite
      split_ifs at hwrite
      all_goals
        cases hwrite
        exact hwaits.withApp (App.Awake.of_not_waiting fun _ => Phase.noConfusion) rfl
  | rest index =>
      obtain ⟨app, hrest, rfl⟩ := exists_of_appStep hstep
      rw [App.rest] at hrest
      split_ifs at hrest
      all_goals
        cases hrest
        exact hwaits.withApp (App.Awake.of_not_waiting fun _ => Phase.noConfusion) rfl
  | notify index =>
      obtain ⟨app, hnotify, rfl⟩ := exists_of_appStep hstep
      have hawake := App.awake_of_notify hloses hnotify
      rw [App.notify] at hnotify
      split_ifs at hnotify
      cases hnotify
      exact hwaits.withApp hawake rfl
  | signal index =>
      dsimp only [DeliveryMechanisms.step] at hstep
      obtain ⟨app, hsignal, rfl⟩ := exists_of_appStep hstep
      cases hsignal
      exact hwaits.withApp (App.Awake.raise (Nat.succ_pos _)) rfl
  | publicationMatched writer reader =>
      dsimp only [DeliveryMechanisms.step, matchedStep] at hstep
      split_ifs at hstep
      cases hstep
      exact hwaits.tell (App.Awake.raise (Nat.succ_pos _)) rfl
  | publicationUnmatched writer reader => exact hwaits.unmatched hstep
  | deliver writer reader =>
      rw [DeliveryMechanisms.step, deliverStep] at hstep
      split at hstep
      case h_2 => contradiction
      case h_1 =>
        split_ifs at hstep
        cases hstep
        refine Waits.withApp (hwaits.withLink rfl) ?_ rfl
        exact (hwaits.awake reader).same rfl rfl rfl
  | lose writer reader =>
      dsimp only [DeliveryMechanisms.step, loseStep] at hstep
      split_ifs at hstep
      cases hstep
      exact hwaits.withLink rfl
  | take index count =>
      obtain ⟨app, htake, rfl⟩ := exists_of_appStep hstep
      rw [App.take] at htake
      split_ifs at htake
      cases htake
      exact hwaits.withApp ((hwaits.awake index).same rfl rfl rfl) rfl
  | receive index =>
      obtain ⟨app, hreceive, rfl⟩ := exists_of_appStep hstep
      obtain ⟨hawake, hmatched⟩ := awake_of_receive (hwaits.awake index) hreceive
      exact hwaits.withApp hawake hmatched
  | delete index =>
      obtain ⟨app, hdelete, rfl⟩ := exists_of_appStep hstep
      rw [App.delete] at hdelete
      split_ifs at hdelete with henabled
      cases hdelete
      exact hwaits.withApp ((hwaits.awake index).same rfl rfl rfl) rfl

/-- In every state of a run all the applications are awake, exactly when none of
its steps loses the last notification of an application that may go on. -/
theorem awake_iff_not_loses {configs : Fin n → Config} {state : State n}
    {actions : List (Action n)}
    (hrun : (system configs).run (State.initial configs) actions = some state) :
    (system configs).Always (fun state => ∀ index, (state.apps index).Awake (configs index))
        (State.initial configs) actions ↔
      (system configs).StepsMeet (fun state action => ¬ Loses configs state action)
        (State.initial configs) actions := by
  refine (system configs).always_iff_stepsMeet (Waits configs) _
    (fun _ hwaits => hwaits.awake)
    (fun _ _ _ hwaits hloses hstep => hwaits.step hloses hstep) ?_ (Waits.initial configs) hrun
  intro before action next _ hloses hstep hawake
  cases action with
  | notify index =>
      obtain ⟨app, hnotify, rfl⟩ := exists_of_appStep hstep
      refine not_awake_of_inGap (not_not.mp hloses) hnotify ?_
      have hafter := hawake index
      rwa [update_apps, if_pos rfl] at hafter
  | advance | loan | write | rest | signal | publicationMatched | publicationUnmatched | deliver
  | lose | take | receive | delete => exact hloses id

def sender : Fin 2 := ⟨0, Nat.zero_lt_two⟩

def receiver : Fin 2 := ⟨1, Nat.one_lt_two⟩

/-- A publisher of two samples, and a subscriber that stops itself after one. -/
def twoForOne (index : Fin 2) : Config :=
  if index = sender then { Config.initial .publisher with samples := 2 }
  else { Config.initial .subscriber with samples := 1 }

/-- The publisher is matched just before it falls asleep. -/
def lostMatch : List (Action 2) :=
  [.advance sender, .advance sender, .publicationMatched sender receiver, .notify sender]

theorem awake_iff_not_loses_lostMatch :
    ¬ (system twoForOne).Always
      (fun state => ∀ index, (state.apps index).Awake (twoForOne index))
      (State.initial twoForOne) lostMatch := by
  rw [awake_iff_not_loses rfl]
  intro hmeet
  have hlast := (((hmeet.2 _ rfl).2 _ rfl).2 _ rfl).1
  exact hlast ⟨rfl, rfl, rfl⟩

/-! ## When nothing goes on -/

/-- A subscriber that has not been stopped still wants samples. -/
structure Counting (configs : Fin n → Config) (state : State n) : Prop where
  accounted : Accounted configs state
  wants : ∀ index, (configs index).entity = .subscriber → (configs index).samples ≠ 0 →
    (state.apps index).stop = false →
      (state.apps index).received.length < (configs index).samples.toNat

theorem Counting.initial (configs : Fin n → Config) :
    Counting configs (State.initial configs) where
  accounted := Accounted.initial configs
  wants := fun _ _ hsamples _ =>
    Nat.pos_of_ne_zero fun hzero => hsamples (UInt16.toNat_inj.mp hzero)

theorem Counting.step {configs : Fin n → Config} {state next : State n} {action : Action n}
    (hcounting : Counting configs state) (hstep : step configs state action = some next) :
    Counting configs next := by
  have haccounted := hcounting.accounted.step hstep
  refine ⟨haccounted, fun index hsubscriber hsamples hgoesOn => ?_⟩
  by_cases hsignal : action = .signal index
  · rw [hsignal] at hstep
    dsimp only [DeliveryMechanisms.step] at hstep
    obtain ⟨app, hstopped, rfl⟩ := exists_of_appStep hstep
    cases hstopped
    rw [update_apps, if_pos rfl] at hgoesOn
    exact Bool.noConfusion hgoesOn
  · obtain ⟨hbefore, hreceived⟩ := (stays_of_step hsignal hstep).goesOn hgoesOn
    have hless := hcounting.wants index hsubscriber hsamples hbefore
    rcases hreceived hsubscriber with hsame | ⟨hmore, hwants⟩
    · omega
    · have hlimit := (configs index).samples.toNat_lt
      have hcount := Config.wants_eq_true_iff.mp hwants hsamples
      rw [haccounted.counts index, UInt32.toNat_ofNat', Nat.mod_eq_of_lt (by omega)] at hcount
      exact hcount

theorem Counting.run {configs : Fin n → Config} {state : State n} {actions : List (Action n)}
    (hrun : (system configs).run (State.initial configs) actions = some state) :
    Counting configs state :=
  (system configs).run_preserves (Counting configs)
    (fun _ _ _ hcounting hstep => hcounting.step hstep) (Counting.initial configs) hrun

def Action.isSignal : Action n → Bool
  | .signal _ => true
  | _ => false

/-- No step is possible but a signal. -/
def Stuck (configs : Fin n → Config) (state : State n) : Prop :=
  ∀ action, action.isSignal = false → step configs state action = none

/-- What an application lacks that is left asleep: a publisher all the readers,
and a subscriber some of the samples. -/
structure LeftAsleep (configs : Fin n → Config) (state : State n) (index : Fin n) : Prop where
  phase : (state.apps index).phase = .waiting .blocked
  stop : (state.apps index).stop = false
  readers : (configs index).publishes = true →
    ∀ reader, Compatible configs index reader → (state.apps reader).deleted = true
  unsent : (configs index).publishes = true → (configs index).samples ≠ 0 →
    (state.apps index).indexOfLastSampleSent.toNat < (configs index).samples.toNat
  unreceived : (configs index).entity = .subscriber → (configs index).samples ≠ 0 →
    (state.apps index).received.length < (configs index).samples.toNat
  read : (configs index).entity = .subscriber →
    (state.apps index).got = (state.apps index).received

theorem none_of_appStep {state : State n} {index : Fin n} {move : App n → Option (App n)}
    (hstep : appStep state index move = none) : move (state.apps index) = none :=
  Option.map_eq_none_iff.mp hstep

/-- A thread that cannot move has returned or is asleep. -/
theorem phase_of_stuck {configs : Fin n → Config} {state : State n} (hstuck : Stuck configs state)
    (index : Fin n) :
    (state.apps index).phase = .returned ∨ (state.apps index).phase = .waiting .blocked := by
  have hadvance := none_of_appStep (hstuck (.advance index) rfl)
  have hloan := none_of_appStep (hstuck (.loan index true) rfl)
  have hwrite := none_of_appStep (hstuck (.write index true) rfl)
  have hrest := none_of_appStep (hstuck (.rest index) rfl)
  rw [App.advance] at hadvance
  rw [App.loan] at hloan
  rw [App.write] at hwrite
  rw [App.rest] at hrest
  cases hphase : (state.apps index).phase with
  | waiting wait =>
      cases wait with
      | blocked => exact Or.inr rfl
      | testing | blocking | notified => simp [hphase] at hadvance
  | publishing =>
      cases hstop : (state.apps index).stop with
      | true => simp [hphase, hstop] at hadvance
      | false => simp [hphase, hstop] at hloan
  | writing => simp [hphase] at hwrite
  | resting => simp [hphase] at hrest
  | returned => exact Or.inl rfl
  | head | checking => simp [hphase] at hadvance

theorem links_unmatched {state : State n} {writer : Fin n}
    (hcount : state.currentCount writer = 0) (reader : Fin n) :
    (state.links writer reader).matched = false := by
  have hnone := Finset.filter_eq_empty_iff.mp (Finset.card_eq_zero.mp hcount)
  exact Bool.eq_false_of_not_eq_true (hnone (Finset.mem_univ reader))

theorem readers_of_stuck {configs : Fin n → Config} {state : State n}
    (hstuck : Stuck configs state) {writer : Fin n}
    (hdeleted : (state.apps writer).deleted = false) (hcount : state.currentCount writer = 0)
    {reader : Fin n} (hcompatible : Compatible configs writer reader) :
    (state.apps reader).deleted = true := by
  have hmatched := hstuck (.publicationMatched writer reader) rfl
  dsimp only [step, matchedStep] at hmatched
  by_contra hreader
  rw [if_pos ⟨hcompatible, hdeleted, Bool.eq_false_of_not_eq_true hreader,
    links_unmatched hcount reader⟩] at hmatched
  contradiction

/-- When no needed notification has been lost and nothing can happen but a
signal, every application has ended, or lacks readers or samples. -/
theorem left_of_stuck {configs : Fin n → Config} {state : State n} {actions : List (Action n)}
    (hrun : (system configs).run (State.initial configs) actions = some state)
    (hmeet : (system configs).StepsMeet (fun state action => ¬ Loses configs state action)
      (State.initial configs) actions)
    (hstuck : Stuck configs state) (index : Fin n) :
    (state.apps index).deleted = true ∨ LeftAsleep configs state index := by
  have hwaits := (system configs).run_preserves_of_stepsMeet (Waits configs)
    (fun _ _ _ hwaits hloses hstep => hwaits.step hloses hstep) (Waits.initial configs) hmeet hrun
  have hcounting := Counting.run hrun
  refine or_iff_not_imp_left.mpr fun halive => ?_
  have hdeleted := Bool.eq_false_of_not_eq_true halive
  have hbatch : (state.apps index).batch = [] := by
    have hreceive := none_of_appStep (hstuck (.receive index) rfl)
    rw [App.receive] at hreceive
    split at hreceive
    · contradiction
    · assumption
  have hphase : (state.apps index).phase = .waiting .blocked := by
    refine (phase_of_stuck hstuck index).resolve_left fun hreturned => ?_
    have hdelete := none_of_appStep (hstuck (.delete index) rfl)
    rw [App.delete, if_pos ⟨hreturned, hbatch, hdeleted⟩] at hdelete
    contradiction
  have hnotifications : (state.apps index).notifications = 0 := by
    have hnotify := none_of_appStep (hstuck (.notify index) rfl)
    rw [App.notify] at hnotify
    split_ifs at hnotify with hpending
    omega
  -- A wait that is over would have a notification to come.
  have hwait : (state.apps index).goesOn (configs index) = false := by
    by_contra hgoesOn
    have hpending := hwaits.awake index .blocked hphase
      (Bool.eq_true_of_not_eq_false hgoesOn) (Or.inr rfl)
    omega
  rw [App.goesOn, Bool.or_eq_false_iff, Bool.and_eq_false_iff, decide_eq_false_iff_not] at hwait
  obtain ⟨hstop, hunmatched⟩ := hwait
  constructor
  case phase => exact hphase
  case stop => exact hstop
  case readers =>
    intro hpublishes reader hcompatible
    refine readers_of_stuck hstuck hdeleted ?_ hcompatible
    rw [← hwaits.matched index]
    refine Nat.eq_zero_of_not_pos (hunmatched.resolve_left ?_)
    rw [hpublishes]
    exact Bool.noConfusion
  case unsent =>
    intro hpublishes hsamples
    obtain ⟨loans, hsends⟩ := hcounting.accounted.sends index
    rw [hsends.index_toNat hsamples]
    exact hsends.wants hpublishes (by rw [hphase]; rfl) hsamples
  case unreceived =>
    exact fun hsubscriber hsamples => hcounting.wants index hsubscriber hsamples hstop
  case read =>
    intro hsubscriber
    have hhistory : (state.apps index).history = [] := by
      have htake := none_of_appStep (hstuck (.take index 1) rfl)
      rw [App.take] at htake
      by_contra hhistory
      have hkind (hpubsub : (configs index).entity = .pubsub) :
          (configs index).wants (state.apps index).receivedSamples = true :=
        EntityKind.noConfusion (hsubscriber.symm.trans hpubsub)
      rw [if_pos ⟨hdeleted, hbatch, hstop, Nat.one_pos, hhistory, hkind⟩] at htake
      contradiction
    rw [App.got, hbatch, hhistory, List.append_nil, List.append_nil]

/-- The subscriber gets a sample and leaves, and the publisher waits for another
one. -/
def abandoned : List (Action 2) :=
  [.publicationMatched sender receiver, .advance sender, .notify sender, .advance sender,
    .loan sender true, .write sender true, .lose sender sender, .deliver sender receiver,
    .take receiver 1, .receive receiver, .notify receiver, .advance receiver, .delete receiver,
    .publicationUnmatched sender receiver, .rest sender, .advance sender, .advance sender,
    .advance sender]

theorem stuck_of_abandoned :
    ∃ state,
      (system twoForOne).run (State.initial twoForOne) abandoned = some state ∧
        (state.apps receiver).deleted = true ∧ Stuck twoForOne state := by
  obtain ⟨state, hrun, hsender, hreceiver, hunmatched, hposition⟩ : ∃ state,
      (system twoForOne).run (State.initial twoForOne) abandoned = some state ∧
        state.apps sender = ⟨.waiting .blocked, 0, 1, 0, false, 0, [1], [], [], [], false⟩ ∧
        state.apps receiver = ⟨.returned, 0, 0, 1, true, 0, [], [], [], [(sender, 1)], true⟩ ∧
        (∀ writer reader, (state.links writer reader).matched = false) ∧
        ∀ reader, (state.links sender reader).position = 1 :=
    ⟨_, rfl, rfl, rfl, by decide, by decide⟩
  have heither : ∀ index : Fin 2, index = sender ∨ index = receiver := by decide
  refine ⟨state, hrun, by rw [hreceiver], fun action hsignal => ?_⟩
  cases action with
  | signal index => exact Bool.noConfusion hsignal
  | advance index | loan index | write index | rest index | notify index | receive index
  | delete index =>
      refine Option.map_eq_none_iff.mpr ?_
      rcases heither index with rfl | rfl
      · rw [hsender]
        rfl
      · rw [hreceiver]
        rfl
  | publicationMatched writer reader =>
      refine if_neg ?_
      rintro ⟨hcompatible, -, halive, -⟩
      rcases heither reader with rfl | rfl
      · exact Bool.noConfusion hcompatible.2.1
      · rw [hreceiver] at halive
        exact Bool.noConfusion halive
  | publicationUnmatched writer reader =>
      refine if_neg ?_
      rintro ⟨-, -, hmatched⟩
      rw [hunmatched] at hmatched
      exact Bool.noConfusion hmatched
  | deliver writer reader =>
      dsimp only [DeliveryMechanisms.step, deliverStep]
      rw [hunmatched]
      split <;> rfl
  | lose writer reader =>
      refine if_neg ?_
      rcases heither writer with rfl | rfl
      · rw [hposition, hsender]
        exact Nat.lt_irrefl 1
      · rw [hreceiver]
        exact Nat.not_lt_zero _
  | take index count =>
      refine Option.map_eq_none_iff.mpr (if_neg ?_)
      rintro ⟨-, -, -, -, hhistory, -⟩
      rcases heither index with rfl | rfl
      · rw [hsender] at hhistory
        exact hhistory rfl
      · rw [hreceiver] at hhistory
        exact hhistory rfl

theorem left_of_stuck_abandoned :
    ∃ state,
      (system twoForOne).run (State.initial twoForOne) abandoned = some state ∧
        (state.apps receiver).deleted = true ∧
        ((state.apps sender).deleted = true ∨ LeftAsleep twoForOne state sender) := by
  obtain ⟨state, hrun, hdeleted, hstuck⟩ := stuck_of_abandoned
  have hmeet : (system twoForOne).StepsMeet (fun state action => ¬ Loses twoForOne state action)
      (State.initial twoForOne) abandoned := by decide
  exact ⟨state, hrun, hdeleted, left_of_stuck hrun hmeet hstuck sender⟩

end CppProj.DeliveryMechanisms
