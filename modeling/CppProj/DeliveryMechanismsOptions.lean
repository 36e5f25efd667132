import CppProj.NumberText
import Mathlib.Tactic.TFAE

/-!
# The command line of the delivery mechanisms example

`parse_cli_options` takes the entity and then one option after the other, each
with a value or without one.  Whatever it does not accept ends the program.
-/

namespace CppProj.DeliveryMechanisms

inductive EntityKind where
  | publisher
  | subscriber
  | pubsub
  | undefined
  deriving DecidableEq

inductive DeliveryMechanismKind where
  | dataSharing
  | intraProcess
  | largeData
  | shm
  | tcpv4
  | tcpv6
  | udpv4
  | udpv6
  | default
  deriving DecidableEq

def DeliveryMechanismKind.isTcp : DeliveryMechanismKind → Bool
  | .tcpv4 | .tcpv6 => true
  | _ => false

/-- `delivery_mechanisms_config` -/
structure Config where
  entity : EntityKind
  ignoreLocalEndpoints : Bool
  samples : UInt16
  domain : UInt32
  deliveryMechanism : DeliveryMechanismKind
  tcpIpAddress : String
  deriving DecidableEq

def Config.initial (entity : EntityKind) : Config :=
  ⟨entity, false, 0, 0, .default, ""⟩

/-- The code with which `print_help` ends the program. -/
inductive Exit where
  | success
  | failure
  deriving DecidableEq

/-! ## The parser -/

def readEntity (firstArgument : String) : Except Exit EntityKind :=
  if firstArgument = "publisher" then .ok .publisher
  else if firstArgument = "subscriber" then .ok .subscriber
  else if firstArgument = "pubsub" then .ok .pubsub
  else if firstArgument = "-h" ∨ firstArgument = "--help" then .error .success
  else .error .failure

/-- A number from 0 to the bound. -/
def readNumber (bound : ℤ) (value : String) : Except Exit ℕ :=
  match NumberText.stoi value.toList with
  | .ok input => if input < 0 ∨ bound < input then .error .failure else .ok input.toNat
  | .error _ => .error .failure

def readDomain (config : Config) (value : String) : Except Exit Config :=
  (readNumber 232 value).map fun input =>
    { config with domain := (UInt16.ofNat input).toUInt32 }

def readSamples (config : Config) (value : String) : Except Exit Config :=
  (readNumber 65535 value).map fun input => { config with samples := UInt16.ofNat input }

def mechanismKind (mechanism : String) : Option DeliveryMechanismKind :=
  if mechanism ∈ ["DATA-SHARING", "data-sharing", "DATA_SHARING", "data_sharing"] then
    some .dataSharing
  else if mechanism ∈ ["INTRA-PROCESS", "intra-process", "INTRA_PROCESS", "intra_process"] then
    some .intraProcess
  else if mechanism ∈ ["LARGE-DATA", "large-data", "LARGE_DATA", "large_data"] then
    some .largeData
  else if mechanism ∈ ["TCP", "tcp", "TCPv4", "tcpv4", "TCPV4"] then some .tcpv4
  else if mechanism ∈ ["TCPv6", "tcpv6", "TCPV6"] then some .tcpv6
  else if mechanism ∈ ["UDP", "udp", "UDPv4", "udpv4", "UDPV4"] then some .udpv4
  else if mechanism ∈ ["UDPv6", "udpv6", "UDPV6"] then some .udpv6
  else if mechanism ∈ ["SHM", "shm"] then some .shm
  else none

/-- Intra-process delivery is for an entity of both kinds only. -/
def readMechanism (config : Config) (mechanism : String) : Except Exit Config :=
  match mechanismKind mechanism with
  | some kind =>
      if kind = .intraProcess ∧ config.entity ≠ .pubsub then .error .failure
      else .ok { config with deliveryMechanism := kind }
  | none => .error .failure

/-- The options with a value. -/
inductive ValueOption where
  | address
  | domain
  | samples
  | mechanism
  deriving DecidableEq

def valueOption (arg : String) : Option ValueOption :=
  if arg = "-a" ∨ arg = "--address" then some .address
  else if arg = "-d" ∨ arg = "--domain" then some .domain
  else if arg = "-s" ∨ arg = "--samples" then some .samples
  else if arg = "-m" ∨ arg = "--mechanism" then some .mechanism
  else none

def ValueOption.read (config : Config) (value : String) : ValueOption → Except Exit Config
  | .address => .ok { config with tcpIpAddress := value }
  | .domain => readDomain config value
  | .samples => readSamples config value
  | .mechanism => readMechanism config value

def readIgnoreLocalEndpoints (config : Config) : Except Exit Config :=
  if config.entity = .pubsub then .ok { config with ignoreLocalEndpoints := true }
  else .error .failure

/-- The loop over the options. -/
def parseOptions (config : Config) : List String → Except Exit Config
  | [] => .ok config
  | arg :: args =>
      if arg = "-h" ∨ arg = "--help" then .error .success
      else
        match valueOption arg with
        | some option =>
            match args with
            | value :: rest =>
                (option.read config value).bind fun config => parseOptions config rest
            | [] => .error .failure
        | none =>
            if arg = "-i" ∨ arg = "--ignore-local-endpoints" then
              (readIgnoreLocalEndpoints config).bind fun config => parseOptions config args
            else .error .failure

/-- The checks after the loop: TCP to itself, and an address without TCP. -/
def Config.Consistent (config : Config) : Prop :=
  ¬ (config.entity = .pubsub ∧ config.ignoreLocalEndpoints = false ∧
      config.deliveryMechanism.isTcp = true) ∧
    ¬ (config.tcpIpAddress ≠ "" ∧ config.deliveryMechanism.isTcp = false)

instance (config : Config) : Decidable config.Consistent := inferInstanceAs (Decidable (_ ∧ _))

/-- `parse_cli_options`, for the arguments after the name of the program. -/
def parseCliOptions (args : List String) : Except Exit Config :=
  match args with
  | [] => .error .failure
  | firstArgument :: args =>
      (readEntity firstArgument).bind fun entity =>
        (parseOptions (Config.initial entity) args).bind fun config =>
          if config.Consistent then .ok config else .error .failure

/-! ## What the arguments mean -/

inductive Setting where
  | given (option : ValueOption) (value : String)
  | ignoreLocalEndpoints
  deriving DecidableEq

/-- The arguments give these settings. -/
inductive Spells : List String → List Setting → Prop where
  | nil : Spells [] []
  | given {arg value : String} {option : ValueOption} {args : List String}
      {settings : List Setting} (harg : valueOption arg = some option)
      (hargs : Spells args settings) :
      Spells (arg :: value :: args) (.given option value :: settings)
  | ignoreLocalEndpoints {arg : String} {args : List String} {settings : List Setting}
      (harg : arg = "-i" ∨ arg = "--ignore-local-endpoints") (hargs : Spells args settings) :
      Spells (arg :: args) (.ignoreLocalEndpoints :: settings)

/-- The value is a number up to the bound. -/
def Denotes (bound number : ℕ) (value : String) : Prop :=
  number ≤ bound ∧ NumberText.stoi value.toList = .ok number

/-- The number of a value, 0 for a text that is none. -/
def numberOf (value : String) : ℕ :=
  match NumberText.stoi value.toList with
  | .ok input => input.toNat
  | .error _ => 0

def domainOf (value : String) : UInt32 := (UInt16.ofNat (numberOf value)).toUInt32

def samplesOf (value : String) : UInt16 := UInt16.ofNat (numberOf value)

def mechanismOf (value : String) : DeliveryMechanismKind := (mechanismKind value).getD .default

def ValueOption.Accepts (entity : EntityKind) (value : String) : ValueOption → Prop
  | .address => True
  | .domain => ∃ number, Denotes 232 number value
  | .samples => ∃ number, Denotes 65535 number value
  | .mechanism => ∃ kind, mechanismKind value = some kind ∧
      (kind = .intraProcess → entity = .pubsub)

def Setting.Accepted (entity : EntityKind) : Setting → Prop
  | .given option value => option.Accepts entity value
  | .ignoreLocalEndpoints => entity = .pubsub

/-- What an accepted setting does. -/
def Setting.apply (config : Config) : Setting → Config
  | .given .address value => { config with tcpIpAddress := value }
  | .given .domain value => { config with domain := domainOf value }
  | .given .samples value => { config with samples := samplesOf value }
  | .given .mechanism value => { config with deliveryMechanism := mechanismOf value }
  | .ignoreLocalEndpoints => { config with ignoreLocalEndpoints := true }

/-- The value of the last such option. -/
def lastValue (option : ValueOption) : List Setting → Option String
  | [] => none
  | .given other value :: settings =>
      (lastValue option settings).or (if other = option then some value else none)
  | .ignoreLocalEndpoints :: settings => lastValue option settings

/-- Of every option the last one counts. -/
def configOf (entity : EntityKind) (settings : List Setting) : Config where
  entity := entity
  ignoreLocalEndpoints := decide (.ignoreLocalEndpoints ∈ settings)
  samples := ((lastValue .samples settings).map samplesOf).getD 0
  domain := ((lastValue .domain settings).map domainOf).getD 0
  deliveryMechanism := ((lastValue .mechanism settings).map mechanismOf).getD .default
  tcpIpAddress := (lastValue .address settings).getD ""

/-! ## The loop accepts settings -/

theorem readNumber_eq_ok_iff {bound : ℕ} {value : String} {number : ℕ} :
    readNumber bound value = .ok number ↔ Denotes bound number value := by
  unfold readNumber Denotes
  cases hread : NumberText.stoi value.toList with
  | error failure => simp
  | ok input =>
      simp only [Except.ok.injEq]
      split_ifs with hrange
      · simp only [false_iff, not_and]
        intro hle hnumber
        omega
      · rw [Except.ok.injEq]
        omega

theorem Denotes.numberOf {bound number : ℕ} {value : String}
    (hdenotes : Denotes bound number value) : numberOf value = number := by
  rw [DeliveryMechanisms.numberOf, hdenotes.2]
  exact Int.toNat_natCast number

theorem readMechanism_eq_ok_iff {config final : Config} {value : String} :
    readMechanism config value = .ok final ↔
      ValueOption.mechanism.Accepts config.entity value ∧
        final = Setting.apply config (.given .mechanism value) := by
  unfold readMechanism ValueOption.Accepts
  cases hkind : mechanismKind value with
  | none => simp only [reduceCtorEq, false_and, exists_false]
  | some kind =>
      have hmechanism : mechanismOf value = kind := by
        rw [mechanismOf, hkind]
        rfl
      simp only [Option.some.injEq, exists_eq_left', Setting.apply, hmechanism]
      split_ifs with hintra
      · simp only [false_iff, not_and]
        intro haccepts
        exact absurd (haccepts hintra.1) hintra.2
      · rw [Except.ok.injEq, eq_comm]
        exact ⟨fun heq => ⟨fun hintraKind => by_contra fun hne => hintra ⟨hintraKind, hne⟩, heq⟩,
          fun hboth => hboth.2⟩

theorem map_readNumber_eq_ok_iff {bound : ℕ} {value : String} {final : Config}
    (set : ℕ → Config) :
    (readNumber bound value).map set = .ok final ↔
      (∃ number, Denotes bound number value) ∧ final = set (numberOf value) := by
  constructor
  · intro hread
    cases hnumber : readNumber bound value with
    | error exit =>
        rw [hnumber] at hread
        cases hread
    | ok number =>
        have hdenotes := readNumber_eq_ok_iff.mp hnumber
        rw [hnumber] at hread
        cases hread
        exact ⟨⟨number, hdenotes⟩, by rw [hdenotes.numberOf]⟩
  · rintro ⟨⟨number, hdenotes⟩, rfl⟩
    rw [readNumber_eq_ok_iff.mpr hdenotes, hdenotes.numberOf]
    rfl

/-- An option is read if its value is accepted. -/
theorem ValueOption.read_eq_ok_iff {config final : Config} {option : ValueOption}
    {value : String} :
    option.read config value = .ok final ↔
      option.Accepts config.entity value ∧ final = Setting.apply config (.given option value) := by
  cases option with
  | address =>
      simp only [ValueOption.read, ValueOption.Accepts, Setting.apply, true_and, Except.ok.injEq]
      exact eq_comm
  | mechanism => exact readMechanism_eq_ok_iff
  | domain =>
      simp only [ValueOption.read, ValueOption.Accepts, Setting.apply, readDomain, domainOf]
      exact map_readNumber_eq_ok_iff fun input =>
        { config with domain := (UInt16.ofNat input).toUInt32 }
  | samples =>
      simp only [ValueOption.read, ValueOption.Accepts, Setting.apply, readSamples, samplesOf]
      exact map_readNumber_eq_ok_iff fun input => { config with samples := UInt16.ofNat input }

theorem readIgnoreLocalEndpoints_eq_ok_iff {config final : Config} :
    readIgnoreLocalEndpoints config = .ok final ↔
      Setting.ignoreLocalEndpoints.Accepted config.entity ∧
        final = Setting.apply config .ignoreLocalEndpoints := by
  unfold readIgnoreLocalEndpoints Setting.Accepted Setting.apply
  split_ifs with hpubsub
  · rw [Except.ok.injEq, eq_comm, and_iff_right hpubsub]
  · simp only [hpubsub, false_and]

theorem bind_eq_ok_iff {α β : Type} {result : Except Exit α} {next : α → Except Exit β}
    {final : β} :
    result.bind next = .ok final ↔ ∃ middle, result = .ok middle ∧ next middle = .ok final := by
  cases result with
  | error exit => simp [Except.bind]
  | ok middle => simp [Except.bind]

@[simp] theorem Setting.apply_entity (config : Config) (setting : Setting) :
    (Setting.apply config setting).entity = config.entity := by
  match setting with
  | .given .address _ | .given .domain _ | .given .samples _ | .given .mechanism _
  | .ignoreLocalEndpoints => rfl

theorem valueOption_ignoreLocalEndpoints {arg : String}
    (hignore : arg = "-i" ∨ arg = "--ignore-local-endpoints") : valueOption arg = none := by
  rcases hignore with rfl | rfl <;> rfl

/-- A setting and then the others. -/
theorem accepted_cons {config : Config} {setting : Setting} {settings : List Setting} :
    (∀ other ∈ setting :: settings, other.Accepted config.entity) ↔
      setting.Accepted config.entity ∧
        ∀ other ∈ settings, other.Accepted (Setting.apply config setting).entity := by
  rw [List.forall_mem_cons, Setting.apply_entity]

/-- What the loop accepts spells accepted settings, which it applies in order. -/
theorem settings_of_parseOptions {config final : Config} {args : List String}
    (hparse : parseOptions config args = .ok final) :
    ∃ settings, Spells args settings ∧ (∀ setting ∈ settings, setting.Accepted config.entity) ∧
      final = settings.foldl Setting.apply config := by
  induction config, args using parseOptions.induct with
  | case1 config =>
      rw [parseOptions, Except.ok.injEq] at hparse
      exact ⟨[], .nil, fun _ hmem => absurd hmem List.not_mem_nil, hparse.symm⟩
  | case2 config arg args hhelp =>
      rw [parseOptions, if_pos hhelp] at hparse
      cases hparse
  | case3 config arg hhelp option harg value rest ih =>
      rw [parseOptions, if_neg hhelp, harg] at hparse
      obtain ⟨next, hread, hrest⟩ := bind_eq_ok_iff.mp hparse
      obtain ⟨haccepts, rfl⟩ := ValueOption.read_eq_ok_iff.mp hread
      obtain ⟨settings, hspells, haccepted, hfinal⟩ := ih _ hrest
      exact ⟨.given option value :: settings, .given harg hspells,
        accepted_cons.mpr ⟨haccepts, haccepted⟩, hfinal⟩
  | case4 config arg hhelp option harg =>
      rw [parseOptions, if_neg hhelp, harg] at hparse
      cases hparse
  | case5 config arg args hhelp harg hignore ih =>
      rw [parseOptions, if_neg hhelp, harg] at hparse
      dsimp only at hparse
      rw [if_pos hignore] at hparse
      obtain ⟨next, hread, hrest⟩ := bind_eq_ok_iff.mp hparse
      obtain ⟨haccepts, rfl⟩ := readIgnoreLocalEndpoints_eq_ok_iff.mp hread
      obtain ⟨settings, hspells, haccepted, hfinal⟩ := ih _ hrest
      exact ⟨.ignoreLocalEndpoints :: settings, .ignoreLocalEndpoints hignore hspells,
        accepted_cons.mpr ⟨haccepts, haccepted⟩, hfinal⟩
  | case6 config arg args hhelp harg hignore =>
      rw [parseOptions, if_neg hhelp, harg] at hparse
      dsimp only at hparse
      rw [if_neg hignore] at hparse
      cases hparse

theorem not_help_of_valueOption {arg : String} {option : ValueOption}
    (harg : valueOption arg = some option) : ¬ (arg = "-h" ∨ arg = "--help") := by
  rintro (rfl | rfl) <;> cases harg

theorem parseOptions_of_settings {config : Config} {args : List String}
    {settings : List Setting} (hspells : Spells args settings)
    (haccepted : ∀ setting ∈ settings, setting.Accepted config.entity) :
    parseOptions config args = .ok (settings.foldl Setting.apply config) := by
  induction hspells generalizing config with
  | nil => rfl
  | given harg hargs ih =>
      obtain ⟨haccepts, hrest⟩ := accepted_cons.mp haccepted
      rw [parseOptions, if_neg (not_help_of_valueOption harg), harg]
      exact bind_eq_ok_iff.mpr ⟨_, ValueOption.read_eq_ok_iff.mpr ⟨haccepts, rfl⟩, ih hrest⟩
  | @ignoreLocalEndpoints arg args settings harg hargs ih =>
      obtain ⟨haccepts, hrest⟩ := accepted_cons.mp haccepted
      have hread : ((readIgnoreLocalEndpoints config).bind fun config =>
          parseOptions config args) = .ok (settings.foldl Setting.apply
            (Setting.apply config .ignoreLocalEndpoints)) :=
        bind_eq_ok_iff.mpr
          ⟨_, readIgnoreLocalEndpoints_eq_ok_iff.mpr ⟨haccepts, rfl⟩, ih hrest⟩
      rcases harg with rfl | rfl
      · exact hread
      · exact hread

/-- Of every option the last value counts. -/
theorem foldl_apply (config : Config) (settings : List Setting) :
    settings.foldl Setting.apply config =
      { entity := config.entity
        ignoreLocalEndpoints :=
          config.ignoreLocalEndpoints || decide (.ignoreLocalEndpoints ∈ settings)
        samples := ((lastValue .samples settings).map samplesOf).getD config.samples
        domain := ((lastValue .domain settings).map domainOf).getD config.domain
        deliveryMechanism :=
          ((lastValue .mechanism settings).map mechanismOf).getD config.deliveryMechanism
        tcpIpAddress := (lastValue .address settings).getD config.tcpIpAddress } := by
  induction settings generalizing config with
  | nil => simp [lastValue]
  | cons setting settings ih =>
      rw [List.foldl_cons, ih]
      match setting with
      | .given .address value =>
          cases hlast : lastValue .address settings <;> simp [Setting.apply, lastValue, hlast]
      | .given .domain value =>
          cases hlast : lastValue .domain settings <;> simp [Setting.apply, lastValue, hlast]
      | .given .samples value =>
          cases hlast : lastValue .samples settings <;> simp [Setting.apply, lastValue, hlast]
      | .given .mechanism value =>
          cases hlast : lastValue .mechanism settings <;> simp [Setting.apply, lastValue, hlast]
      | .ignoreLocalEndpoints => simp [Setting.apply, lastValue]

theorem foldl_apply_initial (entity : EntityKind) (settings : List Setting) :
    settings.foldl Setting.apply (Config.initial entity) = configOf entity settings := by
  rw [foldl_apply]
  simp [Config.initial, configOf]

/-! ## The command line -/

theorem parseCliOptions_eq_ok_iff {args : List String} {config : Config} :
    parseCliOptions args = .ok config ↔
      ∃ firstArgument rest settings, args = firstArgument :: rest ∧
        readEntity firstArgument = .ok config.entity ∧ Spells rest settings ∧
        (∀ setting ∈ settings, setting.Accepted config.entity) ∧
        config = configOf config.entity settings ∧ config.Consistent := by
  constructor
  · intro hparse
    match args with
    | [] => cases hparse
    | firstArgument :: rest =>
        obtain ⟨entity, hentity, hrest⟩ := bind_eq_ok_iff.mp hparse
        obtain ⟨final, hoptions, hfinal⟩ := bind_eq_ok_iff.mp hrest
        split_ifs at hfinal with hconsistent
        cases hfinal
        obtain ⟨settings, hspells, haccepted, hconfig⟩ := settings_of_parseOptions hoptions
        rw [foldl_apply_initial] at hconfig
        have hsame : config.entity = entity := by
          rw [hconfig]
          rfl
        subst hsame
        exact ⟨firstArgument, rest, settings, rfl, hentity, hspells, haccepted, hconfig,
          hconsistent⟩
  · rintro ⟨firstArgument, rest, settings, rfl, hentity, hspells, haccepted, hconfig,
      hconsistent⟩
    have hoptions : parseOptions (Config.initial config.entity) rest =
        .ok (settings.foldl Setting.apply (Config.initial config.entity)) :=
      parseOptions_of_settings hspells haccepted
    rw [foldl_apply_initial, ← hconfig] at hoptions
    exact bind_eq_ok_iff.mpr
      ⟨_, hentity, bind_eq_ok_iff.mpr ⟨config, hoptions, if_pos hconsistent⟩⟩

/-! ## The configurations that can be had -/

/-- What holds of every configuration that is accepted. -/
structure Config.Valid (config : Config) : Prop where
  entity : config.entity ≠ .undefined
  domain : config.domain.toNat ≤ 232
  intraProcess : config.deliveryMechanism = .intraProcess → config.entity = .pubsub
  ignoreLocalEndpoints : config.ignoreLocalEndpoints = true → config.entity = .pubsub
  consistent : config.Consistent

def EntityKind.name : EntityKind → String
  | .publisher => "publisher"
  | .subscriber => "subscriber"
  | .pubsub => "pubsub"
  | .undefined => ""

def DeliveryMechanismKind.name : DeliveryMechanismKind → Option String
  | .dataSharing => some "DATA-SHARING"
  | .intraProcess => some "INTRA-PROCESS"
  | .largeData => some "LARGE-DATA"
  | .shm => some "SHM"
  | .tcpv4 => some "TCPv4"
  | .tcpv6 => some "TCPv6"
  | .udpv4 => some "UDPv4"
  | .udpv6 => some "UDPv6"
  | .default => none

def numberText (number : ℕ) : String := String.ofList (NumberText.format number)

/-- Settings that give a configuration. -/
def Config.settings (config : Config) : List Setting :=
  [.given .domain (numberText config.domain.toNat),
    .given .samples (numberText config.samples.toNat), .given .address config.tcpIpAddress] ++
  (config.deliveryMechanism.name.map (Setting.given .mechanism)).toList ++
  if config.ignoreLocalEndpoints then [.ignoreLocalEndpoints] else []

def Setting.args : Setting → List String
  | .given .address value => ["-a", value]
  | .given .domain value => ["-d", value]
  | .given .samples value => ["-s", value]
  | .given .mechanism value => ["-m", value]
  | .ignoreLocalEndpoints => ["-i"]

/-- A command line for a configuration. -/
def Config.args (config : Config) : List String :=
  config.entity.name :: config.settings.flatMap Setting.args

theorem spells_args (settings : List Setting) :
    Spells (settings.flatMap Setting.args) settings := by
  induction settings with
  | nil => exact .nil
  | cons setting settings ih =>
      match setting with
      | .given .address _ | .given .domain _ | .given .samples _ | .given .mechanism _ =>
          exact .given rfl ih
      | .ignoreLocalEndpoints => exact .ignoreLocalEndpoints (Or.inl rfl) ih

theorem denotes_numberText {bound number : ℕ} (hle : number ≤ bound) (hbound : bound < 2147483648) :
    Denotes bound number (numberText number) := by
  refine ⟨hle, ?_⟩
  rw [numberText, String.toList_ofList]
  exact NumberText.stoi_format ⟨by omega, by omega⟩

theorem mechanismKind_name {kind : DeliveryMechanismKind} {name : String}
    (hname : kind.name = some name) : mechanismKind name = some kind := by
  cases kind <;> cases hname <;> rfl

theorem readEntity_name {entity : EntityKind} (hentity : entity ≠ .undefined) :
    readEntity entity.name = .ok entity := by
  cases entity with
  | publisher | subscriber | pubsub => rfl
  | undefined => exact absurd rfl hentity

theorem domainOf_numberText {domain : UInt32} (hle : domain.toNat ≤ 232) :
    domainOf (numberText domain.toNat) = domain := by
  rw [domainOf, (denotes_numberText hle (by decide)).numberOf]
  apply UInt32.toNat_inj.mp
  rw [UInt16.toNat_toUInt32, UInt16.toNat_ofNat', Nat.mod_eq_of_lt (by omega)]

theorem samplesOf_numberText (samples : UInt16) :
    samplesOf (numberText samples.toNat) = samples := by
  have hle : samples.toNat ≤ 65535 := Nat.le_of_lt_succ samples.toNat_lt
  rw [samplesOf, (denotes_numberText hle (by decide)).numberOf, UInt16.ofNat_toNat]

theorem accepted_settings {config : Config} (hvalid : config.Valid) :
    ∀ setting ∈ config.settings, setting.Accepted config.entity := by
  have hle : config.samples.toNat ≤ 65535 := Nat.le_of_lt_succ config.samples.toNat_lt
  unfold Config.settings
  simp only [List.forall_mem_append, List.forall_mem_cons, List.not_mem_nil]
  refine ⟨⟨⟨⟨_, denotes_numberText hvalid.domain (by decide)⟩,
    ⟨_, denotes_numberText hle (by decide)⟩, trivial, fun _ => False.elim⟩, ?_⟩, ?_⟩
  · intro setting hmem
    rw [Option.mem_toList, Option.map_eq_some_iff] at hmem
    obtain ⟨name, hname, rfl⟩ := hmem
    exact ⟨_, mechanismKind_name hname, hvalid.intraProcess⟩
  · intro setting hmem
    split_ifs at hmem with hignore
    · rw [List.mem_singleton.mp hmem]
      exact hvalid.ignoreLocalEndpoints hignore
    · exact absurd hmem List.not_mem_nil

theorem lastValue_append (option : ValueOption) (settings others : List Setting) :
    lastValue option (settings ++ others) =
      (lastValue option others).or (lastValue option settings) := by
  induction settings with
  | nil => rw [List.nil_append, lastValue, Option.or_none]
  | cons setting settings ih =>
      match setting with
      | .given other value => rw [List.cons_append, lastValue, ih, lastValue, Option.or_assoc]
      | .ignoreLocalEndpoints => rw [List.cons_append, lastValue, ih, lastValue]

theorem configOf_settings {config : Config} (hdomain : config.domain.toNat ≤ 232) :
    configOf config.entity config.settings = config := by
  have hignore : ∀ option, lastValue option
      (if config.ignoreLocalEndpoints then [.ignoreLocalEndpoints] else []) = none := by
    intro option
    split_ifs <;> rfl
  have hmechanism : ((lastValue .mechanism config.settings).map mechanismOf).getD .default =
      config.deliveryMechanism := by
    rw [Config.settings, lastValue_append, hignore, lastValue_append]
    cases config.deliveryMechanism <;> rfl
  have hlast : ∀ option, option ≠ .mechanism → lastValue option
      (config.deliveryMechanism.name.map (Setting.given .mechanism)).toList = none := by
    intro option hne
    cases config.deliveryMechanism <;>
      simp [DeliveryMechanismKind.name, lastValue, Ne.symm hne]
  have hdomainValue : lastValue .domain config.settings =
      some (numberText config.domain.toNat) := by
    rw [Config.settings, lastValue_append, hignore, lastValue_append, hlast _ (by decide)]
    rfl
  have hsamplesValue : lastValue .samples config.settings =
      some (numberText config.samples.toNat) := by
    rw [Config.settings, lastValue_append, hignore, lastValue_append, hlast _ (by decide)]
    rfl
  have haddressValue : lastValue .address config.settings = some config.tcpIpAddress := by
    rw [Config.settings, lastValue_append, hignore, lastValue_append, hlast _ (by decide)]
    rfl
  have hendpoints : decide (.ignoreLocalEndpoints ∈ config.settings) =
      config.ignoreLocalEndpoints := by
    rw [Config.settings]
    cases config.ignoreLocalEndpoints <;> simp
  rw [configOf, hmechanism, hdomainValue, hsamplesValue, haddressValue, hendpoints,
    Option.map_some, Option.map_some, Option.getD_some, Option.getD_some, Option.getD_some,
    domainOf_numberText hdomain, samplesOf_numberText]

theorem parseCliOptions_args {config : Config} (hvalid : config.Valid) :
    parseCliOptions config.args = .ok config :=
  parseCliOptions_eq_ok_iff.mpr ⟨_, _, _, rfl, readEntity_name hvalid.entity, spells_args _,
    accepted_settings hvalid, (configOf_settings hvalid.domain).symm, hvalid.consistent⟩

/-! ## Every accepted configuration is valid -/

theorem exists_mem_of_lastValue {option : ValueOption} {settings : List Setting}
    {value : String} (hlast : lastValue option settings = some value) :
    .given option value ∈ settings := by
  induction settings with
  | nil => cases hlast
  | cons setting settings ih =>
      match setting with
      | .ignoreLocalEndpoints => exact List.mem_cons_of_mem _ (ih hlast)
      | .given other text =>
          rw [lastValue, Option.or_eq_some_iff] at hlast
          rcases hlast with hlater | ⟨-, hhere⟩
          · exact List.mem_cons_of_mem _ (ih hlater)
          · split_ifs at hhere with hsame
            rw [hsame, Option.some.inj hhere]
            exact List.mem_cons_self

theorem entity_of_readEntity {firstArgument : String} {entity : EntityKind}
    (hread : readEntity firstArgument = .ok entity) : entity ≠ .undefined := by
  rintro rfl
  unfold readEntity at hread
  split_ifs at hread <;> cases hread

theorem valid_of_parseCliOptions {args : List String} {config : Config}
    (hparse : parseCliOptions args = .ok config) : config.Valid := by
  obtain ⟨firstArgument, rest, settings, -, hentity, -, haccepted, hconfig, hconsistent⟩ :=
    parseCliOptions_eq_ok_iff.mp hparse
  constructor
  case entity => exact entity_of_readEntity hentity
  case domain =>
    rw [hconfig, configOf]
    cases hlast : lastValue .domain settings with
    | none => exact Nat.zero_le _
    | some value =>
        obtain ⟨number, hdenotes⟩ := haccepted _ (exists_mem_of_lastValue hlast)
        rw [Option.map_some, Option.getD_some, domainOf, hdenotes.numberOf,
          UInt16.toNat_toUInt32, UInt16.toNat_ofNat']
        exact (Nat.mod_le _ _).trans hdenotes.1
  case intraProcess =>
    intro hkind
    rw [hconfig, configOf] at hkind
    cases hlast : lastValue .mechanism settings with
    | none =>
        rw [hlast] at hkind
        cases hkind
    | some value =>
        obtain ⟨kind, hname, hintra⟩ := haccepted _ (exists_mem_of_lastValue hlast)
        rw [hlast, Option.map_some, Option.getD_some, mechanismOf, hname] at hkind
        exact hintra hkind
  case ignoreLocalEndpoints =>
    intro hignore
    rw [hconfig, configOf, decide_eq_true_eq] at hignore
    exact haccepted _ hignore
  case consistent => exact hconsistent

/-- What is accepted is well formed, and every valid configuration can be asked
for. -/
theorem accepted_configs (config : Config) :
    List.TFAE [config.Valid, parseCliOptions config.args = .ok config,
      ∃ args, parseCliOptions args = .ok config] := by
  tfae_have 1 → 2 := parseCliOptions_args
  tfae_have 2 → 3 := fun hparse => ⟨config.args, hparse⟩
  tfae_have 3 → 1 := fun ⟨_, hparse⟩ => valid_of_parseCliOptions hparse
  tfae_finish

theorem Spells.unique {args : List String} {settings others : List Setting}
    (hspells : Spells args settings) (hother : Spells args others) : settings = others := by
  induction hspells generalizing others with
  | nil =>
      cases hother
      rfl
  | given harg hargs ih =>
      cases hother with
      | given hsame hrest =>
          rw [harg, Option.some.injEq] at hsame
          rw [hsame, ih hrest]
      | ignoreLocalEndpoints hignore hrest =>
          rw [valueOption_ignoreLocalEndpoints hignore] at harg
          cases harg
  | ignoreLocalEndpoints hignore hargs ih =>
      cases hother with
      | given hsame hrest =>
          rw [valueOption_ignoreLocalEndpoints hignore] at hsame
          cases hsame
      | ignoreLocalEndpoints hsame hrest => rw [ih hrest]

/-- Only the last value of each option counts for the result, and of the others
that they are accepted: the order of different options does not matter, nor how
they are spelled. -/
theorem parseCliOptions_congr {firstArgument : String} {args others : List String}
    {settings otherSettings : List Setting} (hspells : Spells args settings)
    (hothers : Spells others otherSettings)
    (hsame : ∀ setting, setting ∈ settings ↔ setting ∈ otherSettings)
    (hlast : ∀ option, lastValue option settings = lastValue option otherSettings)
    (config : Config) :
    parseCliOptions (firstArgument :: args) = .ok config ↔
      parseCliOptions (firstArgument :: others) = .ok config := by
  have hconfig : ∀ entity, configOf entity settings = configOf entity otherSettings := by
    intro entity
    simp only [configOf, hlast, hsame]
  constructor
  · intro hparse
    obtain ⟨_, _, found, heq, hentity, hfound, haccepted, hvalue, hconsistent⟩ :=
      parseCliOptions_eq_ok_iff.mp hparse
    cases heq
    obtain rfl := hspells.unique hfound
    refine parseCliOptions_eq_ok_iff.mpr ⟨_, _, otherSettings, rfl, hentity, hothers,
      fun setting hmem => haccepted setting ((hsame setting).mpr hmem), ?_, hconsistent⟩
    rw [← hconfig]
    exact hvalue
  · intro hparse
    obtain ⟨_, _, found, heq, hentity, hfound, haccepted, hvalue, hconsistent⟩ :=
      parseCliOptions_eq_ok_iff.mp hparse
    cases heq
    obtain rfl := hothers.unique hfound
    refine parseCliOptions_eq_ok_iff.mpr ⟨_, _, settings, rfl, hentity, hspells,
      fun setting hmem => haccepted setting ((hsame setting).mp hmem), ?_, hconsistent⟩
    rw [hconfig]
    exact hvalue

/-- The second of two numbers of samples counts, wherever the flag stands. -/
theorem parseCliOptions_congr_pubsub :
    parseCliOptions ["pubsub", "--ignore-local-endpoints", "-s", "5", "--samples", "7"] =
      .ok ⟨.pubsub, true, 7, 0, .default, ""⟩ := by
  have hspells : Spells ["-s", "5", "-i", "-s", "7"]
      [.given .samples "5", .ignoreLocalEndpoints, .given .samples "7"] :=
    .given rfl (.ignoreLocalEndpoints (Or.inl rfl) (.given rfl .nil))
  have hothers : Spells ["--ignore-local-endpoints", "-s", "5", "--samples", "7"]
      [.ignoreLocalEndpoints, .given .samples "5", .given .samples "7"] :=
    .ignoreLocalEndpoints (Or.inr rfl) (.given rfl (.given rfl .nil))
  refine (parseCliOptions_congr hspells hothers (fun setting => ?_) (fun option => ?_) _).mp rfl
  · simp only [List.mem_cons, List.not_mem_nil, or_false]
    exact or_left_comm
  · cases option <;> rfl

end CppProj.DeliveryMechanisms
