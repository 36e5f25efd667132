import CppProj.DeliveryMechanisms
import Mathlib.Tactic.Common

/-!
# The samples of the delivery mechanisms example

Whatever fails or is lost, a writer sends its numbers in order and none twice,
and what a reader gets of it is in the same order.
-/

namespace CppProj.DeliveryMechanisms

open TransitionSystem

variable {n : ℕ}

/-! ## The invariant -/

/-- What there is of one writer. -/
def samplesFrom (writer : Fin n) (samples : List (Sample n)) : List UInt32 :=
  samples.filterMap fun sample => if sample.1 = writer then some sample.2 else none

/-- The first numbers that a writer gives to its samples. -/
def numbers (count : ℕ) : List UInt32 := (List.range' 1 count).map UInt32.ofNat

/-- All that a reader has got, in order. -/
def App.got (app : App n) : List (Sample n) := app.received ++ app.batch ++ app.history

def Phase.mayPublish : Phase → Bool
  | .waiting _ | .publishing => true
  | _ => false

def Phase.publishes : Phase → Bool
  | .publishing | .writing => true
  | _ => false

/-- The application has had so many loans, one of which it may still have to
write. -/
structure Sends (config : Config) (app : App n) (loans : ℕ) : Prop where
  index : app.indexOfLastSampleSent = UInt32.ofNat loans
  written : app.phase ≠ .writing → app.written.Sublist (numbers loans)
  writing : app.phase = .writing →
    ∃ before, loans = before + 1 ∧ app.written.Sublist (numbers before)
  limit : config.samples ≠ 0 → loans ≤ config.samples.toNat
  wants : config.publishes = true → app.phase.mayPublish = true → config.samples ≠ 0 →
    loans < config.samples.toNat
  silent : config.publishes = false → loans = 0 ∧ app.phase.publishes = false

structure Accounted (configs : Fin n → Config) (state : State n) : Prop where
  sends : ∀ index, ∃ loans, Sends (configs index) (state.apps index) loans
  position_le : ∀ writer reader,
    (state.links writer reader).position ≤ (state.apps writer).written.length
  receives : ∀ writer reader, (samplesFrom writer (state.apps reader).got).Sublist
    ((state.apps writer).written.take (state.links writer reader).position)
  counts : ∀ index, (state.apps index).receivedSamples =
    UInt32.ofNat (state.apps index).received.length
  compatible : ∀ writer reader, (state.links writer reader).matched = true →
    Compatible configs writer reader
  origin : ∀ reader, ∀ sample ∈ (state.apps reader).got, Compatible configs sample.1 reader

theorem numbers_succ (count : ℕ) :
    numbers (count + 1) = numbers count ++ [UInt32.ofNat (count + 1)] := by
  rw [numbers, List.range'_1_concat, List.map_append, List.map_singleton, Nat.add_comm 1]
  rfl

theorem length_numbers (count : ℕ) : (numbers count).length = count := by
  rw [numbers, List.length_map, List.length_range']

theorem samplesFrom_append (writer : Fin n) (samples others : List (Sample n)) :
    samplesFrom writer (samples ++ others) =
      samplesFrom writer samples ++ samplesFrom writer others :=
  List.filterMap_append

theorem samplesFrom_self {writer : Fin n} {sample : UInt32} :
    samplesFrom writer [(writer, sample)] = [sample] := by
  simp [samplesFrom]

theorem samplesFrom_other {writer other : Fin n} {sample : UInt32} (hother : writer ≠ other) :
    samplesFrom other [(writer, sample)] = [] := by
  simp [samplesFrom, hother]

theorem sends_initial (config : Config) : Sends config (App.initial config : App n) 0 := by
  constructor
  case index => rfl
  case written => exact fun _ => List.Sublist.refl _
  case writing =>
    intro hwriting
    cases hentity : config.entity <;> simp [App.initial, hentity] at hwriting
  case limit => exact fun _ => Nat.zero_le _
  case wants =>
    intro _ _ hsamples
    exact Nat.pos_of_ne_zero fun hzero => hsamples (UInt16.toNat_inj.mp hzero)
  case silent =>
    intro _
    refine ⟨rfl, ?_⟩
    cases hentity : config.entity <;> simp [App.initial, hentity, Phase.publishes]

theorem Accounted.initial (configs : Fin n → Config) :
    Accounted configs (State.initial configs) where
  sends := fun index => ⟨0, sends_initial (configs index)⟩
  position_le := fun _ _ => Nat.le_refl _
  receives := fun _ _ => List.Sublist.refl _
  counts := fun _ => rfl
  compatible := nofun
  origin := nofun

/-! ## The steps of an application -/

theorem Config.wants_eq_true_iff {config : Config} {count : UInt32} :
    config.wants count = true ↔
      (config.samples ≠ 0 → count.toNat < config.samples.toNat) := by
  rw [Config.wants, Bool.or_eq_true, decide_eq_true_eq, decide_eq_true_eq, or_iff_not_imp_left]

/-- With a limit the index does not overflow. -/
theorem Sends.index_toNat {config : Config} {app : App n} {loans : ℕ}
    (hsends : Sends config app loans) (hsamples : config.samples ≠ 0) :
    app.indexOfLastSampleSent.toNat = loans := by
  have hlimit := hsends.limit hsamples
  have hlt := config.samples.toNat_lt
  rw [hsends.index, UInt32.toNat_ofNat', Nat.mod_eq_of_lt (by omega)]

/-- A move of the thread that leaves the samples alone. -/
theorem Sends.move {config : Config} {app next : App n} {loans : ℕ}
    (hsends : Sends config app loans) (hphase : app.phase ≠ .writing)
    (hindex : next.indexOfLastSampleSent = app.indexOfLastSampleSent)
    (hwritten : next.written = app.written) (hnext : next.phase ≠ .writing)
    (hwants : next.phase.mayPublish = true → app.phase.mayPublish = true ∨
      config.wants app.indexOfLastSampleSent = true)
    (hsilent : next.phase.publishes = true → config.publishes = true) :
    Sends config next loans where
  index := hindex.trans hsends.index
  written := by
    rw [hwritten]
    exact fun _ => hsends.written hphase
  writing := fun hwriting => absurd hwriting hnext
  limit := hsends.limit
  wants := by
    intro hpublishes hmay hsamples
    rcases hwants hmay with hbefore | hwanted
    · exact hsends.wants hpublishes hbefore hsamples
    · have hless := Config.wants_eq_true_iff.mp hwanted hsamples
      rwa [hsends.index_toNat hsamples] at hless
  silent := by
    intro hpublishes
    refine ⟨(hsends.silent hpublishes).1, ?_⟩
    cases hphaseNext : next.phase.publishes with
    | false => rfl
    | true => exact absurd (hsilent hphaseNext) (by rw [hpublishes]; exact Bool.false_ne_true)

theorem Sends.advance {config : Config} {app next : App n} {loans : ℕ}
    (hsends : Sends config app loans) (hadvance : app.advance config = some next) :
    Sends config next loans := by
  rw [App.advance] at hadvance
  split at hadvance
  case h_1 hphase =>
    cases hadvance
    split_ifs with hstop hwanted hpubsub
    · exact hsends.move (by simp [hphase]) rfl rfl nofun nofun nofun
    · exact hsends.move (by simp [hphase]) rfl rfl nofun (fun _ => Or.inr hwanted) nofun
    · exact hsends.move (by simp [hphase]) rfl rfl nofun nofun nofun
    · exact hsends.move (by simp [hphase]) rfl rfl nofun nofun nofun
  case h_2 hphase =>
    have hmay : app.phase.mayPublish = true := by rw [hphase]; rfl
    cases hadvance
    split_ifs with hgoesOn hpublishes
    · exact hsends.move (by simp [hphase]) rfl rfl nofun (fun _ => Or.inl hmay)
        fun _ => hpublishes
    · exact hsends.move (by simp [hphase]) rfl rfl nofun nofun nofun
    · exact hsends.move (by simp [hphase]) rfl rfl nofun (fun _ => Or.inl hmay) nofun
  case h_3 hphase =>
    have hmay : app.phase.mayPublish = true := by rw [hphase]; rfl
    cases hadvance
    exact hsends.move (by simp [hphase]) rfl rfl nofun (fun _ => Or.inl hmay) nofun
  case h_4 hphase =>
    have hmay : app.phase.mayPublish = true := by rw [hphase]; rfl
    cases hadvance
    exact hsends.move (by simp [hphase]) rfl rfl nofun (fun _ => Or.inl hmay) nofun
  case h_5 hphase =>
    split_ifs at hadvance
    cases hadvance
    exact hsends.move (by simp [hphase]) rfl rfl nofun nofun nofun
  case h_6 hphase =>
    cases hadvance
    split_ifs
    · exact hsends.move (by simp [hphase]) rfl rfl nofun nofun nofun
    · exact hsends.move (by simp [hphase]) rfl rfl nofun nofun nofun
  all_goals contradiction

theorem Sends.same {config : Config} {app next : App n} {loans : ℕ}
    (hsends : Sends config app loans) (hphase : next.phase = app.phase)
    (hindex : next.indexOfLastSampleSent = app.indexOfLastSampleSent)
    (hwritten : next.written = app.written) : Sends config next loans where
  index := hindex.trans hsends.index
  written := by
    rw [hphase, hwritten]
    exact hsends.written
  writing := by
    rw [hphase, hwritten]
    exact hsends.writing
  limit := hsends.limit
  wants := by
    rw [hphase]
    exact hsends.wants
  silent := by
    rw [hphase]
    exact hsends.silent

theorem Sends.loan {config : Config} {app next : App n} {loans : ℕ} {loaned : Bool}
    (hsends : Sends config app loans) (hloan : app.loan loaned = some next) :
    ∃ loans, Sends config next loans := by
  rw [App.loan] at hloan
  split_ifs at hloan with henabled hloaned
  all_goals cases hloan
  · obtain ⟨hphase, -⟩ := henabled
    have hpublishes : config.publishes = true := by
      by_contra hsilent
      have hsilent := (hsends.silent (Bool.eq_false_of_not_eq_true hsilent)).2
      rw [hphase] at hsilent
      exact Bool.noConfusion hsilent
    have hmay : app.phase.mayPublish = true := by rw [hphase]; rfl
    refine ⟨loans + 1, ?_⟩
    constructor
    case index =>
      change app.indexOfLastSampleSent + 1 = _
      rw [hsends.index, UInt32.ofNat_add]
      rfl
    case written => exact fun hwriting => absurd rfl hwriting
    case writing => exact fun _ => ⟨loans, rfl, hsends.written (by simp [hphase])⟩
    case limit => exact fun hsamples => hsends.wants hpublishes hmay hsamples
    case wants => exact fun _ => nofun
    case silent =>
      intro hsilent
      rw [hpublishes] at hsilent
      exact Bool.noConfusion hsilent
  · exact ⟨loans, hsends.move (by simp [henabled.1]) rfl rfl nofun nofun nofun⟩

/-- A sample that is not written leaves its number out. -/
theorem Sends.write {config : Config} {app next : App n} {loans : ℕ} {succeeded : Bool}
    (hsends : Sends config app loans) (hwrite : app.write succeeded = some next) :
    Sends config next loans ∧ app.written <+: next.written := by
  rw [App.write] at hwrite
  split_ifs at hwrite with hphase
  all_goals cases hwrite
  all_goals obtain ⟨before, rfl, hbefore⟩ := hsends.writing hphase
  · refine ⟨?_, List.prefix_append _ _⟩
    constructor
    case index => exact hsends.index
    case written =>
      intro _
      change (app.written ++ [app.indexOfLastSampleSent]).Sublist _
      rw [numbers_succ, hsends.index]
      exact hbefore.append (List.Sublist.refl _)
    case writing => exact nofun
    case limit => exact hsends.limit
    case wants => exact fun _ => nofun
    case silent => exact fun hsilent => ⟨(hsends.silent hsilent).1, rfl⟩
  · refine ⟨?_, List.prefix_refl _⟩
    constructor
    case index => exact hsends.index
    case written =>
      intro _
      rw [numbers_succ]
      exact hbefore.trans (List.sublist_append_left _ _)
    case writing => exact nofun
    case limit => exact hsends.limit
    case wants => exact fun _ => nofun
    case silent => exact fun hsilent => ⟨(hsends.silent hsilent).1, rfl⟩

theorem Sends.rest {config : Config} {app next : App n} {loans : ℕ}
    (hsends : Sends config app loans) (hrest : app.rest config = some next) :
    Sends config next loans := by
  rw [App.rest] at hrest
  split_ifs at hrest with hphase hpubsub
  all_goals cases hrest
  · exact hsends.move (by simp [hphase]) rfl rfl nofun nofun nofun
  · exact hsends.move (by simp [hphase]) rfl rfl nofun nofun nofun

theorem Sends.notify {config : Config} {app next : App n} {loans : ℕ}
    (hsends : Sends config app loans) (hnotify : app.notify = some next) :
    Sends config next loans := by
  rw [App.notify] at hnotify
  split_ifs at hnotify with hpending
  cases hnotify
  cases hphase : app.phase with
  | waiting wait =>
      have hmay : app.phase.mayPublish = true := by rw [hphase]; rfl
      exact hsends.move (by simp [hphase]) rfl rfl nofun (fun _ => Or.inl hmay) nofun
  | head | publishing | writing | resting | checking | returned =>
      exact hsends.same hphase.symm rfl rfl

/-! ## The steps of the system -/

theorem update_apps {state : State n} {index other : Fin n} {app : App n} :
    (state.withApp index app).apps other = if other = index then app else state.apps other :=
  Function.update_apply _ _ _ _

/-- An application has moved on, and its reader has got nothing. -/
theorem Accounted.withApp {configs : Fin n → Config} {state : State n} {index : Fin n}
    {app : App n} {loans : ℕ} (haccounted : Accounted configs state)
    (hsends : Sends (configs index) app loans)
    (hwritten : (state.apps index).written <+: app.written)
    (hgot : app.got = (state.apps index).got)
    (hcounts : app.receivedSamples = UInt32.ofNat app.received.length) :
    Accounted configs (state.withApp index app) := by
  have hextends (writer : Fin n) :
      (state.apps writer).written <+: ((state.withApp index app).apps writer).written := by
    rw [update_apps]
    split_ifs with hindex
    · rw [hindex]
      exact hwritten
    · exact List.prefix_refl _
  have hsame (reader : Fin n) :
      ((state.withApp index app).apps reader).got = (state.apps reader).got := by
    rw [update_apps]
    split_ifs with hindex
    · rw [hindex]
      exact hgot
    · rfl
  constructor
  case sends =>
    intro other
    rw [update_apps]
    split_ifs with hindex
    · rw [hindex]
      exact ⟨loans, hsends⟩
    · exact haccounted.sends other
  case position_le =>
    exact fun writer reader =>
      (haccounted.position_le writer reader).trans (hextends writer).length_le
  case receives =>
    intro writer reader
    rw [hsame]
    exact (haccounted.receives writer reader).trans ((hextends writer).take _).sublist
  case counts =>
    intro other
    rw [update_apps]
    split_ifs with hindex
    · exact hcounts
    · exact haccounted.counts other
  case compatible => exact haccounted.compatible
  case origin =>
    intro reader sample
    rw [hsame]
    exact haccounted.origin reader sample

theorem update_links {state : State n} {writer reader other another : Fin n} {link : Link} :
    (state.withLink writer reader link).links other another =
      if other = writer ∧ another = reader then link else state.links other another := by
  dsimp only [State.withLink]
  rw [Function.update_apply]
  split_ifs with hwriter hboth hboth
  · rw [hboth.2, Function.update_self]
  · rw [hwriter, Function.update_of_ne (fun hreader => hboth ⟨hwriter, hreader⟩)]
  · exact absurd hboth.1 hwriter
  · rfl

/-- A link has changed, and no history. -/
theorem Accounted.withLink {configs : Fin n → Config} {state : State n} {writer reader : Fin n}
    {link : Link} (haccounted : Accounted configs state)
    (hposition : (state.links writer reader).position ≤ link.position)
    (hwritten : link.position ≤ (state.apps writer).written.length)
    (hcompatible : link.matched = true → Compatible configs writer reader) :
    Accounted configs (state.withLink writer reader link) := by
  constructor
  case sends => exact haccounted.sends
  case position_le =>
    intro other another
    rw [update_links]
    split_ifs with hboth
    · rw [hboth.1]
      exact hwritten
    · exact haccounted.position_le other another
  case receives =>
    intro other another
    rw [update_links]
    split_ifs with hboth
    · rw [hboth.1, hboth.2]
      exact (haccounted.receives writer reader).trans
        (List.take_sublist_take_left hposition)
    · exact haccounted.receives other another
  case counts => exact haccounted.counts
  case compatible =>
    intro other another
    rw [update_links]
    split_ifs with hboth
    · rw [hboth.1, hboth.2]
      exact hcompatible
    · exact haccounted.compatible other another
  case origin => exact haccounted.origin

/-- The history of a reader has grown by a sample. -/
theorem Accounted.grow {configs : Fin n → Config} {state : State n} {writer reader : Fin n}
    {sample : UInt32} (haccounted : Accounted configs state)
    (hsample : (samplesFrom writer (state.apps reader).got ++ [sample]).Sublist
      ((state.apps writer).written.take (state.links writer reader).position))
    (hcompatible : Compatible configs writer reader) :
    Accounted configs
      (state.withApp reader
        { state.apps reader with
          history := (state.apps reader).history ++ [(writer, sample)] }) := by
  set app := { state.apps reader with
    history := (state.apps reader).history ++ [(writer, sample)] } with happ
  have hgot : app.got = (state.apps reader).got ++ [(writer, sample)] := by
    rw [happ, App.got, App.got, List.append_assoc _ (state.apps reader).history]
  have hwritten (other : Fin n) :
      ((state.withApp reader app).apps other).written = (state.apps other).written := by
    rw [update_apps]
    split_ifs with hother
    · rw [hother, happ]
    · rfl
  constructor
  case sends =>
    intro other
    rw [update_apps]
    split_ifs with hother
    · obtain ⟨loans, hsends⟩ := haccounted.sends reader
      rw [hother]
      exact ⟨loans, hsends.same rfl rfl rfl⟩
    · exact haccounted.sends other
  case position_le =>
    intro other another
    rw [hwritten]
    exact haccounted.position_le other another
  case receives =>
    intro other another
    rw [hwritten, update_apps]
    split_ifs with hanother
    · rw [hanother, hgot, samplesFrom_append]
      by_cases hother : writer = other
      · rw [← hother]
        rw [samplesFrom_self]
        exact hsample
      · rw [samplesFrom_other hother, List.append_nil]
        exact haccounted.receives other reader
    · exact haccounted.receives other another
  case counts =>
    intro other
    rw [update_apps]
    split_ifs with hother
    · exact haccounted.counts reader
    · exact haccounted.counts other
  case compatible => exact haccounted.compatible
  case origin =>
    intro other got
    rw [update_apps]
    split_ifs with hother
    · rw [hother, hgot, List.mem_append, List.mem_singleton]
      rintro (hbefore | rfl)
      · exact haccounted.origin reader got hbefore
      · exact hcompatible
    · exact haccounted.origin other got

theorem Accounted.deliver {configs : Fin n → Config} {state next : State n}
    {writer reader : Fin n} (haccounted : Accounted configs state)
    (hdeliver : deliverStep state writer reader = some next) : Accounted configs next := by
  rw [deliverStep] at hdeliver
  split at hdeliver
  case h_2 => contradiction
  case h_1 sample hsample =>
    split_ifs at hdeliver with henabled
    cases hdeliver
    have hcompatible := haccounted.compatible writer reader henabled.1
    refine Accounted.grow (haccounted.withLink (Nat.le_succ _)
      (List.getElem?_eq_some_iff.mp hsample).1 fun _ => hcompatible) ?_ hcompatible
    rw [update_links, if_pos ⟨rfl, rfl⟩]
    dsimp only [State.withLink]
    rw [List.take_add_one, hsample]
    exact (haccounted.receives writer reader).append (List.Sublist.refl _)

theorem Accounted.lose {configs : Fin n → Config} {state next : State n}
    {writer reader : Fin n} (haccounted : Accounted configs state)
    (hlose : loseStep state writer reader = some next) : Accounted configs next := by
  dsimp only [loseStep] at hlose
  split_ifs at hlose with hmore
  cases hlose
  exact haccounted.withLink (Nat.le_succ _) hmore (haccounted.compatible writer reader)

theorem Accounted.matched {configs : Fin n → Config} {state next : State n}
    {writer reader : Fin n} (haccounted : Accounted configs state)
    (hmatched : matchedStep configs state writer reader = some next) :
    Accounted configs next := by
  dsimp only [matchedStep] at hmatched
  split_ifs at hmatched with henabled
  cases hmatched
  obtain ⟨loans, hsends⟩ := haccounted.sends writer
  refine Accounted.withApp ?_ (hsends.same rfl rfl rfl) (List.prefix_refl _) rfl
    (haccounted.counts writer)
  exact haccounted.withLink (Nat.le_refl _) (haccounted.position_le writer reader)
    fun _ => henabled.1

theorem Accounted.unmatched {configs : Fin n → Config} {state next : State n}
    {writer reader : Fin n} (haccounted : Accounted configs state)
    (hunmatched : unmatchedStep state writer reader = some next) : Accounted configs next := by
  dsimp only [unmatchedStep] at hunmatched
  split_ifs at hunmatched with henabled
  cases hunmatched
  obtain ⟨loans, hsends⟩ := haccounted.sends writer
  refine Accounted.withApp ?_ (hsends.same rfl rfl rfl) (List.prefix_refl _) rfl
    (haccounted.counts writer)
  exact haccounted.withLink (Nat.le_refl _) (haccounted.position_le writer reader)
    fun hmatched => Bool.noConfusion hmatched

/-- A step that leaves what is written and got as it is. -/
structure App.SameSamples (app next : App n) : Prop where
  written : next.written = app.written
  got : next.got = app.got
  counts : next.receivedSamples = app.receivedSamples
  received : next.received = app.received

theorem Accounted.sameSamples {configs : Fin n → Config} {state : State n} {index : Fin n}
    {app : App n} {loans : ℕ} (haccounted : Accounted configs state)
    (hsends : Sends (configs index) app loans)
    (hsame : (state.apps index).SameSamples app) :
    Accounted configs (state.withApp index app) := by
  refine haccounted.withApp hsends ?_ hsame.got ?_
  · rw [hsame.written]
  · rw [hsame.counts, hsame.received]
    exact haccounted.counts index

theorem sameSamples_of_advance {config : Config} {app next : App n}
    (hadvance : app.advance config = some next) : app.SameSamples next := by
  rw [App.advance] at hadvance
  split at hadvance
  case h_5 =>
    split_ifs at hadvance
    cases hadvance
    exact ⟨rfl, rfl, rfl, rfl⟩
  case h_1 | h_2 | h_6 =>
    cases hadvance
    split_ifs
    all_goals exact ⟨rfl, rfl, rfl, rfl⟩
  case h_3 | h_4 =>
    cases hadvance
    exact ⟨rfl, rfl, rfl, rfl⟩
  all_goals contradiction

theorem sameSamples_of_loan {app next : App n} {loaned : Bool}
    (hloan : app.loan loaned = some next) : app.SameSamples next := by
  rw [App.loan] at hloan
  split_ifs at hloan
  all_goals cases hloan
  all_goals exact ⟨rfl, rfl, rfl, rfl⟩

theorem sameSamples_of_rest {config : Config} {app next : App n}
    (hrest : app.rest config = some next) : app.SameSamples next := by
  rw [App.rest] at hrest
  split_ifs at hrest
  all_goals cases hrest
  all_goals exact ⟨rfl, rfl, rfl, rfl⟩

theorem sameSamples_of_notify {app next : App n}
    (hnotify : app.notify = some next) : app.SameSamples next := by
  rw [App.notify] at hnotify
  split_ifs at hnotify
  cases hnotify
  exact ⟨rfl, rfl, rfl, rfl⟩

/-- What is taken was in the history, behind all that came before. -/
theorem sameSamples_of_take {config : Config} {app next : App n} {count : ℕ}
    (htake : app.take config count = some next) : app.SameSamples next := by
  rw [App.take] at htake
  split_ifs at htake with henabled
  cases htake
  refine ⟨rfl, ?_, rfl, rfl⟩
  dsimp only [App.got]
  rw [henabled.2.1, List.append_nil, List.append_assoc, List.take_append_drop]

theorem got_of_receive {config : Config} {app next : App n}
    (hreceive : app.receive config = some next) :
    next.phase = app.phase ∧ next.indexOfLastSampleSent = app.indexOfLastSampleSent ∧
      next.written = app.written ∧ next.got = app.got ∧
      next.receivedSamples = app.receivedSamples + 1 ∧
      next.received.length = app.received.length + 1 := by
  rw [App.receive] at hreceive
  split at hreceive
  case h_2 => contradiction
  case h_1 sample rest hbatch =>
    cases hreceive
    split_ifs
    all_goals
      refine ⟨rfl, rfl, rfl, ?_, rfl, List.length_append⟩
      dsimp only [App.got, App.stopped]
      rw [hbatch, List.append_assoc app.received, List.singleton_append]

/-! ## Every run -/

theorem exists_of_appStep {state next : State n} {index : Fin n}
    {move : App n → Option (App n)} (hstep : appStep state index move = some next) :
    ∃ app, move (state.apps index) = some app ∧ state.withApp index app = next :=
  Option.map_eq_some_iff.mp hstep

theorem Accounted.step {configs : Fin n → Config} {state next : State n} {action : Action n}
    (haccounted : Accounted configs state)
    (hstep : step configs state action = some next) : Accounted configs next := by
  cases action with
  | advance index =>
      obtain ⟨app, hadvance, rfl⟩ := exists_of_appStep hstep
      obtain ⟨loans, hsends⟩ := haccounted.sends index
      exact haccounted.sameSamples (hsends.advance hadvance) (sameSamples_of_advance hadvance)
  | loan index loaned =>
      obtain ⟨app, hloan, rfl⟩ := exists_of_appStep hstep
      obtain ⟨loans, hsends⟩ := haccounted.sends index
      obtain ⟨loansNext, hsendsNext⟩ := hsends.loan hloan
      exact haccounted.sameSamples hsendsNext (sameSamples_of_loan hloan)
  | write index succeeded =>
      obtain ⟨app, hwrite, rfl⟩ := exists_of_appStep hstep
      obtain ⟨loans, hsends⟩ := haccounted.sends index
      obtain ⟨hsendsNext, hwritten⟩ := hsends.write hwrite
      rw [App.write] at hwrite
      split_ifs at hwrite
      all_goals
        cases hwrite
        exact haccounted.withApp hsendsNext hwritten rfl (haccounted.counts index)
  | rest index =>
      obtain ⟨app, hrest, rfl⟩ := exists_of_appStep hstep
      obtain ⟨loans, hsends⟩ := haccounted.sends index
      exact haccounted.sameSamples (hsends.rest hrest) (sameSamples_of_rest hrest)
  | notify index =>
      obtain ⟨app, hnotify, rfl⟩ := exists_of_appStep hstep
      obtain ⟨loans, hsends⟩ := haccounted.sends index
      exact haccounted.sameSamples (hsends.notify hnotify) (sameSamples_of_notify hnotify)
  | signal index =>
      dsimp only [DeliveryMechanisms.step] at hstep
      obtain ⟨app, hsignal, rfl⟩ := exists_of_appStep hstep
      cases hsignal
      obtain ⟨loans, hsends⟩ := haccounted.sends index
      exact haccounted.sameSamples (hsends.same rfl rfl rfl) ⟨rfl, rfl, rfl, rfl⟩
  | publicationMatched writer reader => exact haccounted.matched hstep
  | publicationUnmatched writer reader => exact haccounted.unmatched hstep
  | deliver writer reader => exact haccounted.deliver hstep
  | lose writer reader => exact haccounted.lose hstep
  | take index count =>
      obtain ⟨app, htake, rfl⟩ := exists_of_appStep hstep
      have hsame := sameSamples_of_take htake
      rw [App.take] at htake
      split_ifs at htake
      cases htake
      obtain ⟨loans, hsends⟩ := haccounted.sends index
      exact haccounted.sameSamples (hsends.same rfl rfl rfl) hsame
  | receive index =>
      obtain ⟨app, hreceive, rfl⟩ := exists_of_appStep hstep
      obtain ⟨hphase, hindex, hwritten, hgot, hcounts, hlength⟩ := got_of_receive hreceive
      obtain ⟨loans, hsends⟩ := haccounted.sends index
      refine haccounted.withApp (hsends.same hphase hindex hwritten) ?_ hgot ?_
      · rw [hwritten]
      · rw [hcounts, hlength, haccounted.counts index, UInt32.ofNat_add]
        rfl
  | delete index =>
      obtain ⟨app, hdelete, rfl⟩ := exists_of_appStep hstep
      rw [App.delete] at hdelete
      split_ifs at hdelete
      cases hdelete
      obtain ⟨loans, hsends⟩ := haccounted.sends index
      exact haccounted.sameSamples (hsends.same rfl rfl rfl) ⟨rfl, rfl, rfl, rfl⟩

theorem Accounted.run {configs : Fin n → Config} {state : State n} {actions : List (Action n)}
    (hrun : (system configs).run (State.initial configs) actions = some state) :
    Accounted configs state :=
  (system configs).run_preserves (Accounted configs)
    (fun _ _ _ haccounted hstep => haccounted.step hstep) (Accounted.initial configs) hrun

end CppProj.DeliveryMechanisms
