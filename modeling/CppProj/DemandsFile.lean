import CppProj.DelimitedText
import Mathlib.Algebra.Order.BigOperators.Group.List
import Mathlib.Algebra.Order.Group.Nat
import Mathlib.Data.List.TakeWhile
import Mathlib.Data.Nat.Notation
import Mathlib.Logic.Function.Basic
import Mathlib.Tactic.Common

/-!
# The demands file of `test.cpp`

Each line of the file gives a payload and its demands, with `;` between them.  `getline`
delivers the lines without their line ends.  A variable that may be read before it is set
holds `none` until then.
-/

namespace CppProj.DemandsFile

open DelimitedText

def delim : Char := ';'

def overhead : UInt32 := 8

/-! ## Reading an unsigned number from a stream -/

def isSpace (c : Char) : Bool :=
  [' ', '\t', '\n', '\x0b', '\x0c', '\r'].contains c

def digitValue (c : Char) : ℕ := c.toNat - '0'.toNat

def decimal (digits : List Char) : ℕ :=
  digits.foldl (fun value c => 10 * value + digitValue c) 0

/-- What `>>` does with its target: at the end of the text it leaves it alone, otherwise it
stores a number, and in some cases fails all the same. -/
inductive Extraction where
  | untouched
  | failed (value : UInt32)
  | stored (value : UInt32)
  deriving DecidableEq

def extractDigits (negative : Bool) (text : List Char) : Extraction :=
  let digits := text.takeWhile Char.isDigit
  if digits = [] then .failed 0
  else if decimal digits < 2 ^ 32 then
    .stored (if negative then - UInt32.ofNat (decimal digits) else UInt32.ofNat (decimal digits))
  else .failed (UInt32.ofNat (2 ^ 32 - 1))

def extract (text : List Char) : Extraction :=
  match text.dropWhile isSpace with
  | [] => .untouched
  | '-' :: rest => extractDigits true rest
  | '+' :: rest => extractDigits false rest
  | rest => extractDigits false rest

def Extraction.store (old : Option UInt32) : Extraction → Option UInt32
  | .untouched => old
  | .failed value => some value
  | .stored value => some value

/-! ## The loops -/

abbrev DemandMap := UInt32 → Option (List UInt32)

def DemandMap.empty : DemandMap := fun _ => none

def DemandMap.push (map : DemandMap) (payload demand : UInt32) : DemandMap :=
  Function.update map payload (some ((map payload).getD [] ++ [demand]))

structure LineState where
  start : ℕ
  stop : Option ℕ
  first : Bool
  more : Bool
  demand : Option UInt32
  payload : Option UInt32
  demandPayload : DemandMap

/-- Why the reading ends before the end of the file: a payload below the overhead, a
variable read before it is set, a position behind the line. -/
inductive Abort where
  | minimumPayload
  | indeterminate
  | outOfRange
  deriving DecidableEq

/-- The field from `start` to `stop` goes to the payload if it is the first one, and to the
demands otherwise. -/
def readField (line : List Char) (state : LineState) : Except Abort LineState :=
  match substr line state.start state.stop with
  | none => .error .outOfRange
  | some iss =>
      if state.first then
        match (extract iss).store state.payload with
        | none => .error .indeterminate
        | some payload =>
            if payload < overhead then .error .minimumPayload
            else .ok { state with payload := some (payload - overhead), first := false }
      else
        match (extract iss).store state.demand, state.payload with
        | some demand, some payload =>
            .ok { state with
              demand := some demand
              demandPayload := state.demandPayload.push payload demand }
        | _, _ => .error .indeterminate

/-- To the next field.  The last one is read into `demand`; the statement that follows in
the source is empty. -/
def advance (line : List Char) (state : LineState) : Except Abort LineState :=
  let start := afterDelim state.stop
  let stop := find line delim start
  match stop with
  | some _ => .ok { state with start := start, stop := stop }
  | none =>
      match substr line start stop with
      | none => .error .outOfRange
      | some nIss =>
          .ok { state with
            start := start
            stop := stop
            more := false
            demand := (extract nIss).store state.demand }

/-- The loop over the fields of a line, `none` when it takes more passes than given. -/
def lineLoop (line : List Char) : ℕ → LineState → Option (Except Abort LineState)
  | 0, _ => none
  | passes + 1, state =>
      if state.more then
        match readField line state with
        | .error abort => some (.error abort)
        | .ok read =>
            match advance line read with
            | .error abort => some (.error abort)
            | .ok next => lineLoop line passes next
      else some (.ok state)

def lineStart (line : List Char) (payload : Option UInt32) (map : DemandMap) : LineState where
  start := 0
  stop := find line delim 0
  first := true
  more := true
  demand := none
  payload := payload
  demandPayload := map

/-- The loop over the lines, each of them with so many passes. -/
def fileLoop (passes : ℕ) (payload : Option UInt32) (map : DemandMap) :
    List (List Char) → Option (Except Abort (Option UInt32 × DemandMap))
  | [] => some (.ok (payload.map (· + overhead), map))
  | line :: lines =>
      match lineLoop line passes (lineStart line payload map) with
      | none => none
      | some (.error abort) => some (.error abort)
      | some (.ok state) => fileLoop passes state.payload state.demandPayload lines

def readDemands (passes : ℕ) (lines : List (List Char)) :
    Option (Except Abort (Option UInt32 × DemandMap)) :=
  fileLoop passes none DemandMap.empty lines

/-! ## Files of payloads and demands -/

/-- An unsigned 32-bit number in decimal digits. -/
structure Field where
  digits : List Char
  nonempty : digits ≠ []
  decimalDigits : ∀ c ∈ digits, c.isDigit = true
  fits : decimal digits < 2 ^ 32

def Field.value (field : Field) : UInt32 := UInt32.ofNat (decimal field.digits)

def fieldsText (fields : List Field) : List Char :=
  joinFields delim (fields.map Field.digits)

/-- A line `p;d1;d2;...;dk`. -/
structure Line where
  payload : Field
  demands : List Field
  someDemand : demands ≠ []
  enough : overhead ≤ payload.value

namespace Line

def text (line : Line) : List Char := fieldsText (line.payload :: line.demands)

def key (line : Line) : UInt32 := line.payload.value - overhead

def values (line : Line) : List UInt32 := line.demands.map Field.value

end Line

/-- For each key the demands of all lines with that key, in the order of the file. -/
def expected (lines : List Line) : DemandMap := fun key =>
  match lines.filter (fun line => line.key = key) with
  | [] => none
  | selected => some (selected.flatMap Line.values)

/-! ## One field -/

theorem ne_of_isDigit {c other : Char} (hdigit : c.isDigit = true)
    (hother : other.isDigit = false) : c ≠ other := by
  intro heq
  rw [heq, hother] at hdigit
  cases hdigit

theorem isSpace_of_isDigit {c : Char} (hdigit : c.isDigit = true) : isSpace c = false := by
  have hspaces : ∀ other ∈ [' ', '\t', '\n', '\x0b', '\x0c', '\r'], other.isDigit = false := by
    simp only [List.forall_mem_cons]
    exact ⟨rfl, rfl, rfl, rfl, rfl, rfl, by simp⟩
  rw [isSpace, Bool.eq_false_iff]
  intro hspace
  have hmem := List.contains_iff_mem.mp hspace
  exact ne_of_isDigit hdigit (hspaces c hmem) rfl

theorem extract_field (field : Field) : extract field.digits = .stored field.value := by
  obtain ⟨head, tail, hdigits⟩ := List.exists_cons_of_ne_nil field.nonempty
  have hall := field.decimalDigits
  have hhead : head.isDigit = true := hall head (by simp [hdigits])
  have hstrip : field.digits.dropWhile isSpace = field.digits := by
    rw [hdigits, List.dropWhile_cons_of_neg]
    rw [isSpace_of_isDigit hhead]
    exact Bool.false_ne_true
  have htake : field.digits.takeWhile Char.isDigit = field.digits :=
    List.takeWhile_eq_self_iff.mpr hall
  have hread : extractDigits false field.digits = .stored field.value := by
    unfold extractDigits
    simp only [htake]
    rw [if_neg field.nonempty, if_pos field.fits]
    rfl
  have hminus : head ≠ '-' := ne_of_isDigit hhead rfl
  have hplus : head ≠ '+' := ne_of_isDigit hhead rfl
  unfold extract
  rw [hstrip]
  split
  · rename_i hempty
    exact (field.nonempty hempty).elim
  · rename_i rest hrest
    rw [hdigits] at hrest
    exact (hminus (List.cons.inj hrest).1).elim
  · rename_i rest hrest
    rw [hdigits] at hrest
    exact (hplus (List.cons.inj hrest).1).elim
  · exact hread

theorem delim_not_mem (field : Field) : delim ∉ field.digits := by
  intro hmem
  have hdigit := field.decimalDigits delim hmem
  revert hdigit
  decide

theorem fieldsText_cons (field next : Field) (rest : List Field) :
    fieldsText (field :: next :: rest) =
      field.digits ++ delim :: fieldsText (next :: rest) :=
  joinFields_cons (by simp) field.digits

/-! ## One pass of the loop -/

/-- The pass is about to treat the first one of the fields. -/
structure AtField (line before : List Char) (fields : List Field) (state : LineState) : Prop where
  text : line = before ++ fieldsText fields
  start : state.start = before.length
  stop : state.stop = find line delim state.start

namespace AtField

variable {line before : List Char} {field next : Field} {rest : List Field}
  {state : LineState}

theorem stop_eq (hat : AtField line before (field :: next :: rest) state) :
    state.stop = some (before.length + field.digits.length) := by
  rw [hat.stop, hat.start, hat.text, fieldsText_cons]
  exact find_field (delim_not_mem field) _ _

theorem stop_eq_none (hat : AtField line before [field] state) : state.stop = none := by
  rw [hat.stop, hat.start, hat.text, fieldsText, List.map_singleton, joinFields_singleton]
  exact find_last_field (delim_not_mem field) _

theorem substr_eq (hat : AtField line before (field :: next :: rest) state) :
    substr line state.start state.stop = some field.digits := by
  rw [hat.stop_eq, hat.start, hat.text, fieldsText_cons]
  exact substr_field _ _ _

theorem substr_last (hat : AtField line before [field] state) :
    substr line state.start state.stop = some field.digits := by
  rw [hat.stop_eq_none, hat.start, hat.text, fieldsText, List.map_singleton,
    joinFields_singleton]
  exact substr_last_field _ _

/-- To the next field: the loop ends when that field is the last one. -/
theorem advance_spec (hat : AtField line before (field :: next :: rest) state)
    (hmore : state.more = true) :
    ∃ after, advance line state = .ok after ∧
      AtField line (before ++ (field.digits ++ [delim])) (next :: rest) after ∧
      after.more = !rest.isEmpty ∧ after.first = state.first ∧
      after.payload = state.payload ∧ after.demandPayload = state.demandPayload := by
  let start := afterDelim state.stop
  have hstart : start = (before ++ (field.digits ++ [delim])).length := by
    simp [start, hat.stop_eq, afterDelim, Nat.add_assoc]
  have htext : line = before ++ (field.digits ++ [delim]) ++ fieldsText (next :: rest) := by
    rw [hat.text, fieldsText_cons]
    simp
  have hnext : AtField line (before ++ (field.digits ++ [delim])) (next :: rest)
      { state with start := start, stop := find line delim start } :=
    ⟨htext, hstart, rfl⟩
  cases rest with
  | nil =>
      have hstop : find line delim start = none := hnext.stop_eq_none
      have hsubstr : substr line start (find line delim start) = some next.digits :=
        hnext.substr_last
      refine ⟨{ state with
        start := start
        stop := find line delim start
        more := false
        demand := (extract next.digits).store state.demand }, ?_, ?_, rfl, rfl, rfl, rfl⟩
      · simp only [advance]
        rw [hstop] at hsubstr
        simp only [start] at hstop hsubstr ⊢
        rw [hstop]
        simp only
        rw [hsubstr]
      · exact ⟨htext, hstart, rfl⟩
  | cons another rest =>
      refine ⟨{ state with start := start, stop := find line delim start }, ?_, hnext, hmore,
        rfl, rfl, rfl⟩
      have hstop := hnext.stop_eq
      simp only [start] at hstop
      simp only [advance, start]
      rw [hstop]

theorem readField_payload (hat : AtField line before (field :: next :: rest) state)
    (hfirst : state.first = true) (henough : overhead ≤ field.value) :
    readField line state =
      .ok { state with payload := some (field.value - overhead), first := false } := by
  have hnot : ¬ field.value < overhead := UInt32.not_lt.mpr henough
  simp [readField, hat.substr_eq, hfirst, extract_field, Extraction.store, hnot]

theorem readField_demand (hat : AtField line before (field :: next :: rest) state)
    (hfirst : state.first = false) {payload : UInt32} (hpayload : state.payload = some payload) :
    readField line state =
      .ok { state with
        demand := some field.value
        demandPayload := state.demandPayload.push payload field.value } := by
  simp [readField, hat.substr_eq, hfirst, extract_field, Extraction.store, hpayload]

end AtField

/-! ## The loop over a line -/

def DemandMap.pushAll (map : DemandMap) (payload : UInt32) (demands : List UInt32) : DemandMap :=
  demands.foldl (fun map demand => map.push payload demand) map

theorem lineLoop_of_not_more {line : List Char} {passes : ℕ} {state : LineState}
    (hpasses : 0 < passes) (hmore : state.more = false) :
    lineLoop line passes state = some (.ok state) := by
  obtain ⟨passes, rfl⟩ := Nat.exists_eq_succ_of_ne_zero hpasses.ne'
  simp [lineLoop, hmore]

theorem lineLoop_pass {line : List Char} {passes : ℕ} {state read next : LineState}
    (hmore : state.more = true) (hread : readField line state = .ok read)
    (hadvance : advance line read = .ok next) :
    lineLoop line (passes + 1) state = lineLoop line passes next := by
  simp [lineLoop, hmore, hread, hadvance]

/-- One pass leads from a state to the next field. -/
structure PassesTo (line before : List Char) (rest : List Field) (state after : LineState) :
    Prop where
  loop : ∀ passes, lineLoop line (passes + 1) state = lineLoop line passes after
  atField : AtField line before rest after
  more : after.more = !rest.tail.isEmpty
  first : after.first = false

namespace AtField

variable {line before : List Char} {field next : Field} {rest : List Field}
  {state : LineState}

theorem pass_payload (hat : AtField line before (field :: next :: rest) state)
    (hmore : state.more = true) (hfirst : state.first = true)
    (henough : overhead ≤ field.value) :
    ∃ after, PassesTo line (before ++ (field.digits ++ [delim])) (next :: rest) state after ∧
      after.payload = some (field.value - overhead) ∧
      after.demandPayload = state.demandPayload := by
  have hread := hat.readField_payload hfirst henough
  have hatRead : AtField line before (field :: next :: rest)
      { state with payload := some (field.value - overhead), first := false } :=
    ⟨hat.text, hat.start, hat.stop⟩
  obtain ⟨after, hadvance, hatAfter, hmoreAfter, hfirstAfter, hpayload, hmap⟩ :=
    hatRead.advance_spec hmore
  exact ⟨after, ⟨fun _ => lineLoop_pass hmore hread hadvance, hatAfter, hmoreAfter, hfirstAfter⟩,
    hpayload, hmap⟩

theorem pass_demand (hat : AtField line before (field :: next :: rest) state)
    (hmore : state.more = true) (hfirst : state.first = false) {payload : UInt32}
    (hpayload : state.payload = some payload) :
    ∃ after, PassesTo line (before ++ (field.digits ++ [delim])) (next :: rest) state after ∧
      after.payload = some payload ∧
      after.demandPayload = state.demandPayload.push payload field.value := by
  have hread := hat.readField_demand hfirst hpayload
  have hatRead : AtField line before (field :: next :: rest)
      { state with
        demand := some field.value
        demandPayload := state.demandPayload.push payload field.value } :=
    ⟨hat.text, hat.start, hat.stop⟩
  obtain ⟨after, hadvance, hatAfter, hmoreAfter, hfirstAfter, hpayloadAfter, hmap⟩ :=
    hatRead.advance_spec hmore
  exact ⟨after, ⟨fun _ => lineLoop_pass hmore hread hadvance, hatAfter, hmoreAfter,
    hfirstAfter.trans hfirst⟩, hpayloadAfter.trans hpayload, hmap⟩

end AtField

/-- From a demand on, the loop keeps every demand but the last one of the line. -/
theorem lineLoop_demands {line : List Char} {payload : UInt32} (rest : List Field) :
    ∀ (before : List Char) (field : Field) (state : LineState) (passes : ℕ),
      AtField line before (field :: rest) state → state.more = !rest.isEmpty →
      state.first = false → state.payload = some payload → rest.length + 1 ≤ passes →
      ∃ final, lineLoop line passes state = some (.ok final) ∧
        final.payload = some payload ∧
        final.demandPayload = state.demandPayload.pushAll payload
          ((field :: rest).map Field.value).dropLast := by
  induction rest with
  | nil =>
      intro before field state passes _ hmore _ hpayload hpasses
      exact ⟨state, lineLoop_of_not_more (by omega) hmore, hpayload, rfl⟩
  | cons next rest ih =>
      intro before field state passes hat hmore hfirst hpayload hpasses
      simp only [List.length_cons] at hpasses
      obtain ⟨after, hpass, hpayloadAfter, hmapAfter⟩ :=
        hat.pass_demand hmore hfirst hpayload
      obtain ⟨final, hloop, hpayloadFinal, hmapFinal⟩ :=
        ih _ next after (passes - 1) hpass.atField hpass.more hpass.first hpayloadAfter
          (by omega)
      refine ⟨final, ?_, hpayloadFinal, ?_⟩
      · rw [show passes = passes - 1 + 1 by omega, hpass.loop]
        exact hloop
      · rw [hmapFinal, hmapAfter]
        rfl

theorem lineLoop_line (line : Line) (payload : Option UInt32) (map : DemandMap) {passes : ℕ}
    (hpasses : line.demands.length + 1 ≤ passes) :
    ∃ final, lineLoop line.text passes (lineStart line.text payload map) = some (.ok final) ∧
      final.payload = some line.key ∧
      final.demandPayload = map.pushAll line.key line.values.dropLast := by
  obtain ⟨demand, demands, hdemands⟩ := List.exists_cons_of_ne_nil line.someDemand
  have hat : AtField line.text [] (line.payload :: demand :: demands)
      (lineStart line.text payload map) :=
    ⟨by rw [Line.text, hdemands]; rfl, rfl, rfl⟩
  obtain ⟨after, hpass, hpayload, hmap⟩ := hat.pass_payload rfl rfl line.enough
  rw [hdemands, List.length_cons] at hpasses
  obtain ⟨final, hloop, hpayloadFinal, hmapFinal⟩ :=
    lineLoop_demands demands _ demand after (passes - 1) hpass.atField hpass.more hpass.first
      hpayload (by omega)
  refine ⟨final, ?_, hpayloadFinal, ?_⟩
  · rw [show passes = passes - 1 + 1 by omega, hpass.loop]
    exact hloop
  · rw [hmapFinal, hmap, Line.values, hdemands]
    rfl

/-! ## The loop over the file -/

/-- The demands that the loops collect: of each line all but the last one. -/
def collected (map : DemandMap) (lines : List Line) : DemandMap :=
  lines.foldl (fun map line => map.pushAll line.key line.values.dropLast) map

theorem fileLoop_lines (lines : List Line) (passes : ℕ)
    (hpasses : ∀ line ∈ lines, line.demands.length + 1 ≤ passes) :
    ∀ (payload : Option UInt32) (map : DemandMap), ∃ last,
      fileLoop passes payload map (lines.map Line.text) =
        some (.ok (last, collected map lines)) := by
  induction lines with
  | nil =>
      intro payload map
      exact ⟨_, rfl⟩
  | cons line lines ih =>
      intro payload map
      obtain ⟨hline, hlines⟩ := List.forall_mem_cons.mp hpasses
      obtain ⟨final, hloop, _, hmap⟩ := lineLoop_line line payload map hline
      obtain ⟨last, hrest⟩ := ih hlines final.payload final.demandPayload
      refine ⟨last, ?_⟩
      rw [List.map_cons, fileLoop, hloop]
      simp only
      rw [hrest, hmap]
      rfl

/-- The loops end, and this is what they have collected then. -/
theorem readDemands_terminates (lines : List Line) :
    ∃ enough, ∀ passes ≥ enough, ∃ last,
      readDemands passes (lines.map Line.text) =
        some (.ok (last, collected DemandMap.empty lines)) := by
  refine ⟨(lines.map fun line => line.demands.length + 1).sum, ?_⟩
  intro passes hpasses
  refine fileLoop_lines lines passes ?_ none DemandMap.empty
  intro line hline
  have hmem : line.demands.length + 1 ∈ lines.map fun line => line.demands.length + 1 :=
    List.mem_map_of_mem hline
  exact (List.single_le_sum (fun _ _ => Nat.zero_le _) _ hmem).trans hpasses

/-! ## What is collected and what is in the file -/

def DemandMap.held (map : DemandMap) (key : UInt32) : List UInt32 := (map key).getD []

theorem DemandMap.held_push (map : DemandMap) (payload demand key : UInt32) :
    (map.push payload demand).held key =
      map.held key ++ if payload = key then [demand] else [] := by
  by_cases heq : payload = key
  · subst heq
    simp [held, push]
  · simp [held, push, heq, Function.update_of_ne (Ne.symm heq)]

theorem DemandMap.held_pushAll (map : DemandMap) (payload key : UInt32) (demands : List UInt32) :
    (map.pushAll payload demands).held key =
      map.held key ++ if payload = key then demands else [] := by
  induction demands generalizing map with
  | nil => simp [pushAll]
  | cons demand demands ih =>
      have hrest := ih (map.push payload demand)
      rw [held_push] at hrest
      refine hrest.trans ?_
      split
      · simp
      · simp

theorem held_collected (lines : List Line) (map : DemandMap) (key : UInt32) :
    (collected map lines).held key =
      map.held key ++
        (lines.filter (fun line => line.key = key)).flatMap fun line => line.values.dropLast := by
  induction lines generalizing map with
  | nil => simp [collected]
  | cons line lines ih =>
      have hrest := ih (map.pushAll line.key line.values.dropLast)
      rw [DemandMap.held_pushAll] at hrest
      refine hrest.trans ?_
      by_cases heq : line.key = key
      · simp [heq]
      · simp [heq]

theorem held_expected (lines : List Line) (key : UInt32) :
    (expected lines).held key =
      (lines.filter (fun line => line.key = key)).flatMap Line.values := by
  unfold DemandMap.held expected
  split
  · rename_i hnone
    simp [hnone]
  · rfl

theorem length_dropLast_lt (selected : List Line) (hne : selected ≠ []) :
    (selected.flatMap fun line => line.values.dropLast).length <
      (selected.flatMap Line.values).length := by
  have hline : ∀ line : Line, line.values.dropLast.length + 1 = line.values.length := by
    intro line
    have hpositive : 0 < line.values.length := by
      rw [Line.values, List.length_map]
      exact List.length_pos_of_ne_nil line.someDemand
    rw [List.length_dropLast]
    omega
  induction selected with
  | nil => exact (hne rfl).elim
  | cons line rest ih =>
      have hfirst := hline line
      simp only [List.flatMap_cons, List.length_append]
      by_cases hrest : rest = []
      · subst hrest
        simp only [List.flatMap_nil, List.length_nil]
        omega
      · have hlater := ih hrest
        omega

/-- The reading ends, and the map then holds exactly the demands of the file. -/
def CollectsEvery (lines : List Line) : Prop :=
  ∃ enough, ∀ passes ≥ enough, ∃ last,
    readDemands passes (lines.map Line.text) = some (.ok (last, expected lines))

/-- The last demand of every line is read and dropped, so only the file without lines is
collected completely. -/
theorem collectsEvery_iff (lines : List Line) : CollectsEvery lines ↔ lines = [] := by
  constructor
  · rintro ⟨enough, hcollects⟩
    obtain ⟨bound, hreads⟩ := readDemands_terminates lines
    obtain ⟨last, hexpected⟩ := hcollects (max enough bound) (le_max_left _ _)
    obtain ⟨other, hcollected⟩ := hreads (max enough bound) (le_max_right _ _)
    have hmaps : expected lines = collected DemandMap.empty lines := by
      rw [hexpected] at hcollected
      exact (Prod.ext_iff.mp (Except.ok.inj (Option.some.inj hcollected))).2
    by_contra hne
    obtain ⟨line, rest, hlines⟩ := List.exists_cons_of_ne_nil hne
    let selected := lines.filter fun other => other.key = line.key
    have hselected : selected ≠ [] := by
      simp [selected, hlines]
    have hheld : (expected lines).held line.key =
        (collected DemandMap.empty lines).held line.key := by
      rw [hmaps]
    rw [held_expected, held_collected] at hheld
    have hlength := congrArg List.length hheld
    have hfewer := length_dropLast_lt selected hselected
    simp only [DemandMap.held, DemandMap.empty, Option.getD_none, List.nil_append] at hlength
    exact (hfewer.ne hlength.symm).elim
  · intro hnone
    subst hnone
    exact ⟨0, fun _ _ => ⟨_, rfl⟩⟩

def oneDemand : Line where
  payload := ⟨['1', '6'], by decide, List.forall_mem_cons.mpr ⟨rfl, by simp⟩, by decide⟩
  demands := [⟨['5'], by decide, by simp, by decide⟩]
  someDemand := by decide
  enough := by decide

theorem not_collectsEvery_oneDemand :
    oneDemand.text = "16;5".toList ∧ expected [oneDemand] 8 = some [5] ∧
      (∃ last, readDemands 2 [oneDemand.text] = some (.ok (last, DemandMap.empty))) ∧
      ¬ CollectsEvery [oneDemand] := by
  have hexpected : expected [oneDemand] 8 = some [5] := by
    decide
  refine ⟨by decide, hexpected, fileLoop_lines [oneDemand] 2 (by decide) none _, ?_⟩
  rintro ⟨enough, hcollects⟩
  obtain ⟨bound, hreads⟩ := readDemands_terminates [oneDemand]
  obtain ⟨last, hwhole⟩ := hcollects (max enough bound) (le_max_left _ _)
  obtain ⟨other, hcollected⟩ := hreads (max enough bound) (le_max_right _ _)
  rw [hwhole] at hcollected
  have hmaps : expected [oneDemand] = collected DemandMap.empty [oneDemand] :=
    (Prod.ext_iff.mp (Except.ok.inj (Option.some.inj hcollected))).2
  have hkey := congrFun hmaps 8
  rw [hexpected] at hkey
  cases hkey

end CppProj.DemandsFile
