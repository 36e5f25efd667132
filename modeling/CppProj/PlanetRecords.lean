import CppProj.FixedWidthRecords
import CppProj.TransitionSystem
import Mathlib.Data.List.TakeWhile

/-!
# The planets file

One program appends records to `planets.dat` and another replaces one of them,
both as images of the same variable `pl`, whose old bytes stay where nothing new
is written.  For all that the file is a list of planets: what the programs print
is what was typed in.
-/

namespace CppProj.PlanetRecords

open FixedWidthRecords

/-- The bytes of a `planet`: the name, a gap of 4, the population and `g`. -/
abbrev Memory := { bytes : List UInt8 // bytes.length = 40 }

/-- A double is known by its bits. -/
structure Planet where
  name : List UInt8
  population : UInt64
  g : UInt64
  deriving DecidableEq

/-- What is typed in for a planet; `name` is a line. -/
structure Entry where
  name : List UInt8
  population : UInt64
  g : UInt64
  deriving DecidableEq

namespace Memory

def store (pl : Memory) (position : ℕ) (bytes : List UInt8)
    (hroom : position + bytes.length ≤ 40) : Memory :=
  ⟨overwrite pl.1 position bytes, by rw [length_overwrite (by omega), pl.2]⟩

/-- `cin.get(pl.name, 20)` -/
def getName (pl : Memory) (line : List UInt8) : Memory :=
  pl.store 0 (line.take 19 ++ [0]) (by
    rw [List.length_append, List.length_take, List.length_singleton]
    omega)

/-- `cin >> pl.population` and `cin >> pl.g` -/
def getNumbers (pl : Memory) (population g : UInt64) : Memory :=
  (pl.store 24 (toBytes 8 population.toNat) (by rw [length_toBytes]; omega)).store 32
    (toBytes 8 g.toNat) (by rw [length_toBytes])

def getPlanet (pl : Memory) (entry : Entry) : Memory :=
  (pl.getName entry.name).getNumbers entry.population entry.g

/-- The name ends within its 20 bytes. -/
def Terminated (pl : Memory) : Prop := 0 ∈ pl.1.take 20

/-- What is printed of a record whose name is terminated. -/
def planet (pl : Memory) : Planet where
  name := (pl.1.take 20).takeWhile (· ≠ 0)
  population := UInt64.ofNat (BitFields.littleEndian ((pl.1.drop 24).take 8))
  g := UInt64.ofNat (BitFields.littleEndian (pl.1.drop 32))

/-- `read((char *) &pl, sizeof pl)`, which stores what there is. -/
def read (pl : Memory) (source : List UInt8) : Memory :=
  pl.store 0 (source.take 40) (by rw [List.length_take]; omega)

end Memory

/-- The loop that shows a file, and what it leaves in `pl`. -/
def readLoop (pl : Memory) (file : List UInt8) : List Memory × Memory :=
  if 40 ≤ file.length then
    let next := readLoop (pl.read file) (file.drop 40)
    (pl.read file :: next.1, next.2)
  else ([], pl.read file)
termination_by file.length
decreasing_by
  rw [List.length_drop]
  omega

/-- The loop of `binary.cpp` over what is typed in, up to the empty line. -/
def appendLoop (pl : Memory) : List Entry → List UInt8
  | [] => []
  | entry :: rest =>
      if (pl.getName entry.name).planet.name = [] then []
      else (pl.getPlanet entry).1 ++ appendLoop (pl.getPlanet entry) rest

/-- `printed` are the contents that were shown, one after the other. -/
structure State where
  file : Option (List UInt8)
  printed : List (List Planet)
  deriving DecidableEq

/-- A run of either program.  `pl` is what happens to be in the memory. -/
inductive Action where
  | binary (pl : Memory) (entries : List Entry)
  | random (pl : Memory) (number : ℤ) (entry : Entry)

def planets (records : List Memory) : List Planet := records.map Memory.planet

def binary (state : State) (pl : Memory) (entries : List Entry) : State :=
  let shown := state.file.map (readLoop pl)
  let before := (shown.map Prod.snd).getD pl
  let file := state.file.getD [] ++ appendLoop before entries
  { file := some file
    printed := state.printed ++ (shown.map fun loop => planets loop.1).toList ++
      [planets (readLoop pl file).1] }

/-- An empty line for the new name ends in an endless loop before anything is
written. -/
def random (state : State) (pl : Memory) (number : ℤ) (entry : Entry) : State :=
  match state.file with
  | none => state
  | some file =>
      let shown := readLoop pl file
      let printed := state.printed ++ [planets shown.1]
      if number < 0 ∨ shown.1.length ≤ number then { state with printed := printed }
      else
        let place := 40 * number.toNat
        let chosen := shown.2.read (file.drop place)
        let printed := printed ++ [[chosen.planet]]
        if entry.name = [] then { state with printed := printed }
        else
          let next := overwrite file place (chosen.getPlanet entry).1
          { file := some next
            printed := printed ++ [planets (readLoop pl next).1] }

def step (state : State) : Action → Option State
  | .binary pl entries => some (binary state pl entries)
  | .random pl number entry => some (random state pl number entry)

def system : TransitionSystem State Action := ⟨⟨none, []⟩, step⟩

/-! ## The store of planets -/

def Entry.planet (entry : Entry) : Planet where
  name := (entry.name.take 19).takeWhile (· ≠ 0)
  population := entry.population
  g := entry.g

structure Store where
  planets : Option (List Planet)
  printed : List (List Planet)
  deriving DecidableEq

def Store.append (store : Store) (entries : List Entry) : Store :=
  let next := store.planets.getD [] ++
    (entries.takeWhile fun entry => entry.planet.name ≠ []).map Entry.planet
  ⟨some next, store.printed ++ store.planets.toList ++ [next]⟩

def Store.replace (store : Store) (number : ℤ) (entry : Entry) : Store :=
  match store.planets with
  | none => store
  | some planets =>
      let printed := store.printed ++ [planets]
      if number < 0 ∨ planets.length ≤ number then { store with printed := printed }
      else
        let printed := printed ++ [planets[number.toNat]?.toList]
        if entry.name = [] then { store with printed := printed }
        else
          let next := planets.set number.toNat entry.planet
          ⟨some next, printed ++ [next]⟩

/-- The specification does not see what is in the memory. -/
def specification : TransitionSystem Store Action where
  initial := ⟨none, []⟩
  step := fun store action =>
    match action with
    | .binary _ entries => some (store.append entries)
    | .random _ number entry => some (store.replace number entry)

/-! ## One record -/

theorem takeWhile_append_zero (text rest : List UInt8) :
    (text ++ 0 :: rest).takeWhile (· ≠ 0) = text.takeWhile (· ≠ 0) := by
  induction text with
  | nil => rfl
  | cons byte text ih =>
      rw [List.cons_append, List.takeWhile_cons, List.takeWhile_cons, ih]

/-- The name and its end are the first bytes of `pl`. -/
theorem take_getName (pl : Memory) (line : List UInt8) :
    ∃ rest, (pl.getName line).1.take 20 = line.take 19 ++ 0 :: rest := by
  have hshort : (line.take 19 ++ [0]).length ≤ 20 := by
    rw [List.length_append, List.length_take, List.length_singleton]
    omega
  have hbytes : (pl.getName line).1 =
      line.take 19 ++ [0] ++ pl.1.drop (0 + (line.take 19 ++ [0]).length) := rfl
  rw [hbytes, List.take_append, List.take_of_length_le hshort, List.append_assoc]
  exact ⟨_, rfl⟩

theorem planet_name (pl : Memory) (line : List UInt8) :
    (pl.getName line).planet.name = (line.take 19).takeWhile (· ≠ 0) := by
  obtain ⟨rest, hbytes⟩ := take_getName pl line
  rw [Memory.planet, hbytes, takeWhile_append_zero]

theorem take_getNumbers (pl : Memory) (population g : UInt64) {count : ℕ} (hcount : count ≤ 24) :
    (pl.getNumbers population g).1.take count = pl.1.take count := by
  have hlength := pl.2
  dsimp only [Memory.getNumbers, Memory.store]
  rw [take_overwrite _ (by omega), take_overwrite (by omega) hcount]
  rw [length_overwrite (by rw [length_toBytes]; omega)]
  omega

theorem population_getNumbers (pl : Memory) (population g : UInt64) :
    ((pl.getNumbers population g).1.drop 24).take 8 = toBytes 8 population.toNat := by
  have hlength := pl.2
  have hsame : ((pl.getNumbers population g).1.drop 24).take 8 =
      ((overwrite pl.1 24 (toBytes 8 population.toNat)).drop 24).take 8 := by
    rw [List.take_drop, List.take_drop]
    refine congrArg (List.drop 24) (take_overwrite ?_ (Nat.le_refl _))
    rw [(Memory.store _ _ _ _).2]
    omega
  rw [hsame, drop_overwrite (by omega)]
  exact List.take_left' (length_toBytes 8 _)

theorem g_getNumbers (pl : Memory) (population g : UInt64) :
    (pl.getNumbers population g).1.drop 32 = toBytes 8 g.toNat := by
  have hlength := (pl.store 24 (toBytes 8 population.toNat) (by rw [length_toBytes]; omega)).2
  dsimp only [Memory.getNumbers, Memory.store] at hlength ⊢
  rw [drop_overwrite (by omega), length_toBytes, List.drop_of_length_le (by omega),
    List.append_nil]

/-- An entry is shown as it was typed in, whatever `pl` was before. -/
theorem planet_getPlanet (pl : Memory) (entry : Entry) :
    (pl.getPlanet entry).planet = entry.planet := by
  have hnumber (number : UInt64) :
      UInt64.ofNat (BitFields.littleEndian (toBytes 8 number.toNat)) = number := by
    rw [littleEndian_toBytes number.toNat_lt, UInt64.ofNat_toNat]
  have hname : ((pl.getPlanet entry).1.take 20).takeWhile (· ≠ 0) =
      (entry.name.take 19).takeWhile (· ≠ 0) := by
    rw [Memory.getPlanet, take_getNumbers _ _ _ (by omega)]
    exact planet_name pl entry.name
  rw [Memory.planet, hname]
  dsimp only [Memory.getPlanet]
  rw [population_getNumbers, g_getNumbers, hnumber, hnumber]
  rfl

theorem terminated_getPlanet (pl : Memory) (entry : Entry) :
    (pl.getPlanet entry).Terminated := by
  obtain ⟨rest, hbytes⟩ := take_getName pl entry.name
  rw [Memory.Terminated, Memory.getPlanet, take_getNumbers _ _ _ (by omega), hbytes]
  exact List.mem_append_right _ List.mem_cons_self

/-! ## The file -/

/-- The bytes of so many records. -/
def image (records : List Memory) : List UInt8 := (records.map Subtype.val).flatten

theorem image_cons (record : Memory) (records : List Memory) :
    image (record :: records) = record.1 ++ image records := rfl

theorem image_append (records others : List Memory) :
    image (records ++ others) = image records ++ image others := by
  rw [image, List.map_append, List.flatten_append]
  rfl

theorem length_image (records : List Memory) : (image records).length = 40 * records.length := by
  induction records with
  | nil => rfl
  | cons record records ih =>
      rw [image_cons, List.length_append, record.2, ih, List.length_cons]
      omega

theorem read_append (pl record : Memory) (rest : List UInt8) :
    pl.read (record.1 ++ rest) = record := by
  apply Subtype.ext
  change overwrite pl.1 0 ((record.1 ++ rest).take 40) = record.1
  rw [List.take_left' record.2]
  exact (congrArg (record.1 ++ ·) (List.drop_of_length_le (by rw [pl.2, record.2]))).trans
    (List.append_nil _)

theorem readLoop_image (pl : Memory) (records : List Memory) :
    (readLoop pl (image records)).1 = records := by
  induction records generalizing pl with
  | nil =>
      rw [readLoop, if_neg (by rw [length_image]; exact Nat.not_succ_le_zero _)]
  | cons record records ih =>
      have hlong : 40 ≤ (image (record :: records)).length := by
        rw [length_image, List.length_cons]
        omega
      rw [readLoop, if_pos hlong, image_cons, read_append, List.drop_left' record.2]
      exact congrArg (record :: ·) (ih record)

theorem image_split {records : List Memory} {index : ℕ} {record : Memory}
    (hget : records[index]? = some record) :
    ∃ before after, records = before ++ record :: after ∧ before.length = index := by
  obtain ⟨hlt, rfl⟩ := List.getElem?_eq_some_iff.mp hget
  refine ⟨records.take index, records.drop (index + 1), ?_, List.length_take_of_le (by omega)⟩
  rw [← List.drop_eq_getElem_cons hlt, List.take_append_drop]

/-- A record is replaced in its place. -/
theorem overwrite_image {records : List Memory} {index : ℕ} {record : Memory}
    (hget : records[index]? = some record) (changed : Memory) :
    overwrite (image records) (40 * index) changed.1 = image (records.set index changed) ∧
      (image records).drop (40 * index) =
        record.1 ++ (image records).drop (40 * index + 40) := by
  obtain ⟨before, after, rfl, hlength⟩ := image_split hget
  have hbefore : (image before).length = 40 * index := by rw [length_image, hlength]
  have hboth : (image before ++ record.1).length = 40 * index + 40 := by
    rw [List.length_append, hbefore, record.2]
  have hset : (before ++ record :: after).set index changed = before ++ changed :: after := by
    rw [← hlength, List.set_append_right _ _ (Nat.le_refl _), Nat.sub_self]
    rfl
  rw [hset, image_append, image_append, image_cons, image_cons, overwrite, changed.2,
    List.take_left' hbefore, List.drop_left' hbefore, ← List.append_assoc (image before),
    List.drop_left' hboth]
  exact ⟨List.append_assoc _ _ _, rfl⟩

/-- What the loop appends are the entries, as records. -/
theorem appendLoop_eq (pl : Memory) (entries : List Entry) :
    ∃ records, appendLoop pl entries = image records ∧
      planets records =
        (entries.takeWhile fun entry => entry.planet.name ≠ []).map Entry.planet ∧
      ∀ record ∈ records, record.Terminated := by
  induction entries generalizing pl with
  | nil => exact ⟨[], rfl, rfl, fun _ hmem => absurd hmem List.not_mem_nil⟩
  | cons entry entries ih =>
      have hname : (pl.getName entry.name).planet.name = entry.planet.name :=
        planet_name pl entry.name
      rw [appendLoop, hname, List.takeWhile_cons]
      by_cases hempty : entry.planet.name = []
      · rw [if_pos hempty, if_neg (by rw [decide_eq_true_eq]; exact not_not.mpr hempty)]
        exact ⟨[], rfl, rfl, fun _ hmem => absurd hmem List.not_mem_nil⟩
      · obtain ⟨records, hrecords, hplanets, hterminated⟩ := ih (pl.getPlanet entry)
        rw [if_neg hempty, if_pos (decide_eq_true hempty), hrecords, List.map_cons, ← hplanets,
          ← planet_getPlanet pl entry]
        refine ⟨pl.getPlanet entry :: records, rfl, rfl, ?_⟩
        intro record hmem
        rcases List.mem_cons.mp hmem with rfl | hmem
        · exact terminated_getPlanet pl entry
        · exact hterminated record hmem

/-! ## The programs -/

/-- The file consists of whole records, each with a name that ends, and shows
the planets of the store. -/
structure Shows (records : Option (List Memory)) (state : State) (store : Store) : Prop where
  file : state.file = records.map image
  planets : store.planets = records.map planets
  printed : state.printed = store.printed
  terminated : ∀ record ∈ records.getD [], record.Terminated

def Related (state : State) (store : Store) : Prop := ∃ records, Shows records state store

theorem binary_related {state : State} {store : Store} (hrelated : Related state store)
    (pl : Memory) (entries : List Entry) :
    Related (binary state pl entries) (store.append entries) := by
  obtain ⟨records, hfile, hplanets, hprinted, hterminated⟩ := hrelated
  set before := ((state.file.map (readLoop pl)).map Prod.snd).getD pl with hbefore
  obtain ⟨added, hadded, hshown, hnames⟩ := appendLoop_eq before entries
  have hnext : state.file.getD [] ++ appendLoop before entries =
      image (records.getD [] ++ added) := by
    rw [image_append, hadded, hfile]
    cases records with
    | none => rfl
    | some records => rfl
  have hfirst : (state.file.map (readLoop pl)).map (fun loop => planets loop.1) =
      records.map planets := by
    rw [hfile]
    cases records with
    | none => rfl
    | some records => exact congrArg (some ∘ planets) (readLoop_image pl records)
  have hall : planets (records.getD [] ++ added) =
      store.planets.getD [] ++
        (entries.takeWhile fun entry => entry.planet.name ≠ []).map Entry.planet := by
    rw [planets, List.map_append, ← hshown, hplanets]
    cases records with
    | none => rfl
    | some records => rfl
  refine ⟨some (records.getD [] ++ added), ?_, ?_, ?_, ?_⟩
  · exact congrArg some hnext
  · exact congrArg some hall.symm
  · dsimp only [binary, Store.append]
    rw [← hbefore, hnext, hfirst, readLoop_image, hall, hprinted, hplanets]
  · intro record hmem
    rcases List.mem_append.mp hmem with hold | hnew
    · exact hterminated record hold
    · exact hnames record hnew

theorem random_related {state : State} {store : Store} (hrelated : Related state store)
    (pl : Memory) (number : ℤ) (entry : Entry) :
    Related (random state pl number entry) (store.replace number entry) := by
  obtain ⟨records, hfile, hplanets, hprinted, hterminated⟩ := hrelated
  cases records with
  | none =>
      have hsame : random state pl number entry = state := by
        rw [random, hfile]
        rfl
      have hother : store.replace number entry = store := by
        rw [Store.replace, hplanets]
        rfl
      rw [hsame, hother]
      exact ⟨none, hfile, hplanets, hprinted, hterminated⟩
  | some records =>
      have hlength : (planets records).length = records.length := List.length_map _
      rw [Option.map_some] at hfile hplanets
      rw [random, hfile, Store.replace, hplanets]
      dsimp only
      rw [readLoop_image, hlength]
      split_ifs with hinvalid hempty
      · exact ⟨some records, rfl, rfl, by rw [hprinted], hterminated⟩
      all_goals
        have hlt : number.toNat < records.length := by omega
        have hget := List.getElem?_eq_getElem hlt
        have hchosen : (readLoop pl (image records)).2.read
            ((image records).drop (40 * number.toNat)) = records[number.toNat] := by
          rw [(overwrite_image hget records[number.toNat]).2, read_append]
        have hshown : (planets records)[number.toNat]? =
            some records[number.toNat].planet := by
          rw [planets, List.getElem?_map, hget, Option.map_some]
        rw [hchosen, hshown, hprinted]
      · exact ⟨some records, rfl, rfl, rfl, hterminated⟩
      · set changed := records[number.toNat].getPlanet entry with hchanged
        have hset := (overwrite_image hget changed).1
        have hnext : planets (records.set number.toNat changed) =
            (planets records).set number.toNat entry.planet := by
          rw [planets, List.map_set, hchanged, planet_getPlanet]
          rfl
        refine ⟨some (records.set number.toNat changed), congrArg some hset,
          congrArg some hnext.symm, ?_, ?_⟩
        · dsimp only
          rw [hset, readLoop_image, hnext]
          rfl
        · intro record hmem
          rcases List.mem_or_eq_of_mem_set hmem with hold | rfl
          · exact hterminated record hold
          · exact terminated_getPlanet _ entry

/-- Whatever is in the memory of the programs, in any sequence of their runs they
keep and show the planets that were typed in. -/
theorem related_of_run (actions : List Action) :
    Option.Rel Related (system.run system.initial actions)
      (specification.run specification.initial actions) := by
  have hinitial : Related system.initial specification.initial :=
    ⟨none, rfl, rfl, rfl, fun _ hmem => absurd hmem List.not_mem_nil⟩
  refine system.run_rel Related ?_ actions hinitial
  intro state store action hrelated
  cases action with
  | binary pl entries => exact .some (binary_related hrelated pl entries)
  | random pl number entry => exact .some (random_related hrelated pl number entry)

end CppProj.PlanetRecords
