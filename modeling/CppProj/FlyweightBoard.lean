import CppProj.OrderedMaps
import CppProj.TransitionSystem
import Mathlib.Data.List.Nodup
import Mathlib.Data.Nat.Basic

/-!
# The shared pieces of `sharemeta.cpp`

All the stones of one colour are the same object, a `CGomoku` that the factory makes the
first time the colour is asked for.  A move gets the piece, sets its point and draws it;
drawing inserts the pointer into the map of the board, which leaves a point that is
already occupied as it was.

The address of a piece is its position among the pieces made.
-/

namespace CppProj.FlyweightBoard

open OrderedMaps

structure POINT where
  x : ℤ
  y : ℤ
  deriving DecidableEq

/-- The comparison as it is written in `POINT`. -/
def POINT.lessThan (point other : POINT) : Bool :=
  if point.x < other.x then true
  else if point.x = other.x then point.y < other.y
  else false

abbrev POINT.Less (point other : POINT) : Prop := point.lessThan other = true

inductive PIECECOLOR where
  | BLACK
  | WHITE
  deriving DecidableEq

/-- The constructor leaves the point without a value. -/
structure CPiece where
  m_color : PIECECOLOR
  m_point : Option POINT
  deriving DecidableEq

theorem POINT.less_iff {point other : POINT} :
    point.Less other ↔ point.x < other.x ∨ point.x = other.x ∧ point.y < other.y := by
  unfold POINT.Less POINT.lessThan
  split_ifs with hx heq
  · simp [hx]
  · simp [heq]
  · simp [hx, heq]

theorem POINT.equivalent_iff {point other : POINT} :
    Equivalent POINT.Less point other ↔ point = other := by
  rw [Equivalent, POINT.less_iff, POINT.less_iff, POINT.mk.injEq]
  omega

instance : IsStrictWeakOrder POINT POINT.Less where
  irrefl point := by
    rw [POINT.less_iff]
    omega
  trans first second third := by
    rw [POINT.less_iff, POINT.less_iff, POINT.less_iff]
    omega
  incomp_trans first second third hleft hright := by
    have hfirst := POINT.equivalent_iff.mp hleft
    have hsecond := POINT.equivalent_iff.mp hright
    exact POINT.equivalent_iff.mpr (hfirst.trans hsecond)

/-- The pieces made so far, the vector of the factory and the map of the board. -/
structure Game where
  pieces : List CPiece
  m_vecPiece : List ℕ
  m_mapPieces : OrderedMap POINT.Less ℕ

def initial : Game := ⟨[], [], OrderedMap.empty⟩

/-! ## The factory and the board -/

/-- The loop of `GetPiece`; a pointer to nothing is `none`. -/
def findPiece (pieces : List CPiece) (color : PIECECOLOR) : List ℕ → Option (Option ℕ)
  | [] => some none
  | it :: rest => do
      let piece ← pieces[it]?
      if piece.m_color = color then some (some it) else findPiece pieces color rest

def newPiece (game : Game) (color : PIECECOLOR) : Game × ℕ :=
  let pPiece := game.pieces.length
  ({ game with
      pieces := game.pieces ++ [⟨color, none⟩], m_vecPiece := game.m_vecPiece ++ [pPiece] },
    pPiece)

def getPiece (game : Game) (color : PIECECOLOR) : Option (Game × ℕ) :=
  if game.m_vecPiece = [] then some (newPiece game color)
  else
    match findPiece game.pieces color game.m_vecPiece with
    | some (some pPiece) => some (game, pPiece)
    | some none => some (newPiece game color)
    | none => none

def setpoint (game : Game) (pPiece : ℕ) (point : POINT) : Option Game := do
  let piece ← game.pieces[pPiece]?
  some { game with pieces := game.pieces.set pPiece { piece with m_point := some point } }

def drawText (color : PIECECOLOR) (point : POINT) : String :=
  match color with
  | .WHITE => "Draw a White" ++ "at (" ++ toString point.x ++ "," ++ toString point.y ++ ")"
  | .BLACK => "Draw a Black" ++ "at (" ++ toString point.x ++ "," ++ toString point.y ++ ")"

/-- What `Draw` prints, and the board after it; a point without a value is `none`. -/
def draw (game : Game) (pPiece : ℕ) : Option (String × Game) := do
  let piece ← game.pieces[pPiece]?
  let point ← piece.m_point
  some (drawText piece.m_color point,
    { game with m_mapPieces := game.m_mapPieces.insert point pPiece })

def showText (point : POINT) (color : PIECECOLOR) : String :=
  match color with
  | .WHITE => "(" ++ toString point.x ++ "," ++ toString point.y ++ ") has a white chese."
  | .BLACK => "(" ++ toString point.x ++ "," ++ toString point.y ++ ") has a Black chese."

def showAllPieces (game : Game) : Option (List String) :=
  game.m_mapPieces.entries.mapM fun it => do
    let piece ← game.pieces[it.2]?
    some (showText it.1 piece.m_color)

structure Move where
  color : PIECECOLOR
  point : POINT
  deriving DecidableEq

def move (game : Game) (action : Move) : Option Game := do
  let got ← getPiece game action.color
  let placed ← setpoint got.1 got.2 action.point
  let drawn ← draw placed got.2
  some drawn.2

def flyweight : TransitionSystem Game Move := ⟨initial, move⟩

def Game.colour (game : Game) (pPiece : ℕ) : Option PIECECOLOR :=
  game.pieces[pPiece]?.map CPiece.m_color

/-- The colour of the first move at a point. -/
def firstColor (moves : List Move) (point : POINT) : Option PIECECOLOR :=
  (moves.find? fun action => action.point = point).map Move.color

structure BoardInvariant (moves : List Move) (game : Game) : Prop where
  vector_eq : game.m_vecPiece = List.range game.pieces.length
  colors_nodup : (game.pieces.map CPiece.m_color).Nodup
  made : ∀ action ∈ moves, ∃ pPiece, game.colour pPiece = some action.color
  mem_entries : ∀ point pPiece, (point, pPiece) ∈ game.m_mapPieces.entries ↔
    ∃ color, firstColor moves point = some color ∧ game.colour pPiece = some color

/-! ## What the functions do -/

section Functions

variable {moves : List Move} {game : Game} {color : PIECECOLOR}

theorem initial_boardInvariant : BoardInvariant [] initial := by
  constructor
  case vector_eq => rfl
  case colors_nodup => exact List.nodup_nil
  case made => simp
  case mem_entries => simp [initial, OrderedMap.empty, firstColor]

theorem BoardInvariant.colour_injective (hgood : BoardInvariant moves game) {left right : ℕ}
    (hleft : game.colour left = some color) (hright : game.colour right = some color) :
    left = right := by
  have hcolors := hgood.colors_nodup
  rw [Game.colour, ← List.getElem?_map] at hleft hright
  obtain ⟨hlt, -⟩ := List.getElem?_eq_some_iff.mp hleft
  exact (List.getElem?_inj hlt hcolors).mp (hleft.trans hright.symm)

theorem findPiece_spec (color : PIECECOLOR) {pieces : List CPiece} {pointers : List ℕ}
    (hpointers : ∀ it ∈ pointers, it < pieces.length) :
    ∃ found, findPiece pieces color pointers = some found ∧
      (∀ pPiece, found = some pPiece → pieces[pPiece]?.map CPiece.m_color = some color) ∧
      (found = none → ∀ it ∈ pointers, pieces[it]?.map CPiece.m_color ≠ some color) := by
  induction pointers with
  | nil => exact ⟨none, rfl, by simp, by simp⟩
  | cons it rest ih =>
      obtain ⟨piece, hpiece⟩ : ∃ piece, pieces[it]? = some piece :=
        ⟨_, List.getElem?_eq_getElem (hpointers it List.mem_cons_self)⟩
      by_cases hcolor : piece.m_color = color
      · refine ⟨some it, by simp [findPiece, hpiece, hcolor], ?_, by simp⟩
        rintro pPiece ⟨rfl⟩
        rw [hpiece, Option.map_some, hcolor]
      · obtain ⟨found, hfind, hsome, hnone⟩ :=
          ih fun other hother => hpointers other (List.mem_cons_of_mem it hother)
        refine ⟨found, by simp [findPiece, hpiece, hcolor, hfind], hsome, ?_⟩
        intro hfound other hother
        rcases List.mem_cons.mp hother with rfl | hrest
        · simp [hpiece, hcolor]
        · exact hnone hfound other hrest

theorem colour_lt {pPiece : ℕ} (hcolour : game.colour pPiece = some color) :
    pPiece < game.pieces.length := by
  obtain ⟨piece, hpiece, -⟩ := Option.map_eq_some_iff.mp hcolour
  exact (List.getElem?_eq_some_iff.mp hpiece).1

theorem newPiece_colour_iff {pPiece : ℕ} {other : PIECECOLOR} :
    (newPiece game color).1.colour pPiece = some other ↔
      game.colour pPiece = some other ∨ (pPiece = game.pieces.length ∧ other = color) := by
  simp only [newPiece, Game.colour]
  rcases lt_trichotomy pPiece game.pieces.length with hlt | rfl | hgt
  · rw [List.getElem?_append_left hlt]
    simp [Nat.ne_of_lt hlt]
  · simp [eq_comm]
  · have hle := Nat.le_of_lt hgt
    rw [List.getElem?_append_right hle, List.getElem?_eq_none hle,
      List.getElem?_eq_none (by rw [List.length_singleton]; omega)]
    simp [Nat.ne_of_gt hgt]

theorem exists_of_firstColor {point : POINT} (hfirst : firstColor moves point = some color) :
    ∃ action ∈ moves, action.point = point ∧ action.color = color := by
  obtain ⟨action, hfind, hcolor⟩ := Option.map_eq_some_iff.mp hfirst
  have hpoint := List.find?_some hfind
  exact ⟨action, List.mem_of_find?_eq_some hfind, of_decide_eq_true hpoint, hcolor⟩

theorem BoardInvariant.exists_colour (hgood : BoardInvariant moves game) {point : POINT}
    (hfirst : firstColor moves point = some color) : ∃ pPiece, game.colour pPiece = some color := by
  obtain ⟨action, haction, -, rfl⟩ := exists_of_firstColor hfirst
  exact hgood.made action haction

theorem BoardInvariant.newPiece (hgood : BoardInvariant moves game)
    (hnew : ∀ pPiece, game.colour pPiece ≠ some color) :
    BoardInvariant moves (newPiece game color).1 := by
  constructor
  case vector_eq =>
    simp [FlyweightBoard.newPiece, hgood.vector_eq, List.range_succ]
  case colors_nodup =>
    simp only [FlyweightBoard.newPiece, List.map_append, List.map_cons, List.map_nil]
    rw [← List.concat_eq_append]
    refine hgood.colors_nodup.concat ?_
    intro hmem
    obtain ⟨pPiece, hpiece⟩ := List.mem_iff_getElem?.mp hmem
    rw [List.getElem?_map] at hpiece
    exact hnew pPiece hpiece
  case made =>
    intro action haction
    obtain ⟨pPiece, hcolour⟩ := hgood.made action haction
    exact ⟨pPiece, newPiece_colour_iff.mpr (Or.inl hcolour)⟩
  case mem_entries =>
    intro point pPiece
    rw [show (FlyweightBoard.newPiece game color).1.m_mapPieces = game.m_mapPieces from rfl,
      hgood.mem_entries]
    refine exists_congr fun other => and_congr_right fun hother => ?_
    obtain ⟨made, hmade⟩ := hgood.exists_colour hother
    have hne : other ≠ color := fun heq => hnew made (heq ▸ hmade)
    rw [newPiece_colour_iff]
    simp [hne]

/-- The game after it has only gained pieces and entries. -/
structure Extends (game later : Game) : Prop where
  colour : ∀ pPiece color, game.colour pPiece = some color → later.colour pPiece = some color
  entries : ∀ entry ∈ game.m_mapPieces.entries, entry ∈ later.m_mapPieces.entries

/-- Asking for a colour again gives the piece that is there, and the first time a new one. -/
theorem BoardInvariant.getPiece (hgood : BoardInvariant moves game) (color : PIECECOLOR) :
    ∃ next pPiece, getPiece game color = some (next, pPiece) ∧ BoardInvariant moves next ∧
      Extends game next ∧ next.colour pPiece = some color := by
  have hpointers : ∀ it ∈ game.m_vecPiece, it < game.pieces.length := by
    intro it hit
    rw [hgood.vector_eq] at hit
    exact List.mem_range.mp hit
  obtain ⟨found, hfind, hsome, hnone⟩ := findPiece_spec color hpointers
  have hmade : (∀ pPiece, game.colour pPiece ≠ some color) →
      BoardInvariant moves (FlyweightBoard.newPiece game color).1 ∧
        Extends game (FlyweightBoard.newPiece game color).1 ∧
        (FlyweightBoard.newPiece game color).1.colour (FlyweightBoard.newPiece game color).2 =
          some color := by
    intro hnew
    refine ⟨hgood.newPiece hnew, ⟨?_, fun entry hentry => hentry⟩, ?_⟩
    · intro pPiece other hcolour
      exact newPiece_colour_iff.mpr (Or.inl hcolour)
    · exact newPiece_colour_iff.mpr (Or.inr ⟨rfl, rfl⟩)
  by_cases hempty : game.m_vecPiece = []
  · have hnew : ∀ pPiece, game.colour pPiece ≠ some color := by
      intro pPiece hcolour
      have hmem := List.mem_range.mpr (colour_lt hcolour)
      rw [← hgood.vector_eq, hempty] at hmem
      exact List.not_mem_nil hmem
    exact ⟨_, _, if_pos hempty, hmade hnew⟩
  · cases found with
    | some pPiece =>
        refine ⟨game, pPiece, ?_, hgood, ⟨fun _ _ => id, fun _ => id⟩, hsome pPiece rfl⟩
        simp [FlyweightBoard.getPiece, hempty, hfind]
    | none =>
        have hnew : ∀ pPiece, game.colour pPiece ≠ some color := by
          intro pPiece hcolour
          refine hnone rfl pPiece ?_ hcolour
          rw [hgood.vector_eq]
          exact List.mem_range.mpr (colour_lt hcolour)
        refine ⟨_, _, ?_, hmade hnew⟩
        simp [FlyweightBoard.getPiece, hempty, hfind]

theorem setpoint_spec {pPiece : ℕ} (hcolour : game.colour pPiece = some color) (point : POINT) :
    ∃ pieces, setpoint game pPiece point = some { game with pieces } ∧
      pieces.map CPiece.m_color = game.pieces.map CPiece.m_color ∧
      pieces[pPiece]? = some ⟨color, some point⟩ := by
  obtain ⟨piece, hpiece, rfl⟩ := Option.map_eq_some_iff.mp hcolour
  obtain ⟨hlt, hget⟩ := List.getElem?_eq_some_iff.mp hpiece
  refine ⟨game.pieces.set pPiece ⟨piece.m_color, some point⟩, ?_, ?_, ?_⟩
  · simp [setpoint, hpiece]
  · rw [List.map_set, ← hget, ← List.getElem_map CPiece.m_color, List.set_getElem_self]
    simpa using hlt
  · exact List.getElem?_set_self hlt

theorem colour_of_colors {pieces : List CPiece}
    (hcolors : pieces.map CPiece.m_color = game.pieces.map CPiece.m_color) (pPiece : ℕ) :
    Game.colour { game with pieces } pPiece = game.colour pPiece := by
  simp only [Game.colour, ← List.getElem?_map, hcolors]

theorem BoardInvariant.of_colors (hgood : BoardInvariant moves game) {pieces : List CPiece}
    (hcolors : pieces.map CPiece.m_color = game.pieces.map CPiece.m_color) :
    BoardInvariant moves { game with pieces } := by
  have hcolour := colour_of_colors hcolors
  have hlength : pieces.length = game.pieces.length := by
    simpa using congrArg List.length hcolors
  constructor
  case vector_eq => rw [hgood.vector_eq, hlength]
  case colors_nodup => rw [hcolors]; exact hgood.colors_nodup
  case made => simpa only [hcolour] using hgood.made
  case mem_entries => simpa only [hcolour] using hgood.mem_entries

theorem firstColor_append (action : Move) (point : POINT) :
    firstColor (moves ++ [action]) point =
      (firstColor moves point).or (if action.point = point then some action.color else none) := by
  rw [firstColor, firstColor, List.find?_append]
  cases hfind : moves.find? fun action => action.point = point with
  | some first => rfl
  | none =>
      by_cases hpoint : action.point = point <;> simp [hpoint]

/-- No entry has the point for its key exactly when no move was made there. -/
theorem BoardInvariant.free_iff (hgood : BoardInvariant moves game) {point : POINT} :
    (∀ entry ∈ game.m_mapPieces.entries, ¬ Equivalent POINT.Less entry.1 point) ↔
      firstColor moves point = none := by
  rw [Option.eq_none_iff_forall_ne_some]
  constructor
  · intro hfree color hfirst
    obtain ⟨pPiece, hcolour⟩ := hgood.exists_colour hfirst
    have hentry := (hgood.mem_entries point pPiece).mpr ⟨color, hfirst, hcolour⟩
    exact hfree _ hentry (POINT.equivalent_iff.mpr rfl)
  · rintro hfirst ⟨key, pPiece⟩ hentry hequivalent
    obtain rfl : key = point := POINT.equivalent_iff.mp hequivalent
    obtain ⟨color, hcolor, -⟩ := (hgood.mem_entries key pPiece).mp hentry
    exact hfirst color hcolor

theorem BoardInvariant.insert (hgood : BoardInvariant moves game) {action : Move} {pPiece : ℕ}
    (hcolour : game.colour pPiece = some action.color) :
    BoardInvariant (moves ++ [action])
      { game with m_mapPieces := game.m_mapPieces.insert action.point pPiece } := by
  constructor
  case vector_eq => exact hgood.vector_eq
  case colors_nodup => exact hgood.colors_nodup
  case made =>
    intro other hother
    rcases List.mem_append.mp hother with hold | hnew
    · exact hgood.made other hold
    · rw [List.mem_singleton.mp hnew]
      exact ⟨pPiece, hcolour⟩
  case mem_entries =>
    intro point other
    have hpiece : game.colour other = some action.color ↔ other = pPiece :=
      ⟨fun hother => hgood.colour_injective hother hcolour, fun heq => heq ▸ hcolour⟩
    rw [OrderedMap.mem_insert_iff, hgood.free_iff, hgood.mem_entries, firstColor_append,
      Prod.mk.injEq]
    show _ ↔ ∃ color, _ ∧ game.colour other = some color
    by_cases hpoint : action.point = point
    · subst hpoint
      cases hfirst : firstColor moves action.point with
      | some color => simp
      | none => simp [hpiece]
    · simp [hpoint, Ne.symm hpoint]

/-- One move: the piece of its colour, and a new entry unless the point is occupied. -/
theorem BoardInvariant.move (hgood : BoardInvariant moves game) (action : Move) :
    ∃ next, move game action = some next ∧ BoardInvariant (moves ++ [action]) next ∧
      Extends game next := by
  obtain ⟨got, pPiece, hget, hgot, hextends, hcolour⟩ := hgood.getPiece action.color
  obtain ⟨pieces, hset, hcolors, hpiece⟩ := setpoint_spec hcolour action.point
  have hplaced := hgot.of_colors hcolors
  have hsame := colour_of_colors hcolors
  have hdrawn : Game.colour { got with pieces } pPiece = some action.color :=
    (hsame pPiece).trans hcolour
  have hinsert := hplaced.insert hdrawn
  refine ⟨_, ?_, hinsert, ?_, ?_⟩
  · simp [FlyweightBoard.move, hget, hset, draw, hpiece]
  · intro other color hother
    exact (hsame other).trans (hextends.colour other color hother)
  · intro entry hentry
    exact OrderedMap.mem_insert_of_mem (hextends.entries entry hentry)

end Functions

/-! ## Whole games -/

section Games

variable {moves after : List Move} {game later : Game}

theorem Extends.refl (game : Game) : Extends game game :=
  ⟨fun _ _ => id, fun _ => id⟩

theorem Extends.trans {middle : Game} (hfirst : Extends game middle)
    (hsecond : Extends middle later) : Extends game later :=
  ⟨fun pPiece color hcolour => hsecond.colour pPiece color (hfirst.colour pPiece color hcolour),
    fun entry hentry => hsecond.entries entry (hfirst.entries entry hentry)⟩

theorem run_of_boardInvariant (after : List Move) (hgood : BoardInvariant moves game) :
    ∃ later, flyweight.run game after = some later ∧ BoardInvariant (moves ++ after) later ∧
      Extends game later := by
  induction after generalizing moves game with
  | nil => exact ⟨game, rfl, by simpa using hgood, Extends.refl game⟩
  | cons action rest ih =>
      obtain ⟨next, hmove, hnext, hextends⟩ := hgood.move action
      obtain ⟨later, hrun, hlater, hrest⟩ := ih hnext
      refine ⟨later, ?_, by simpa using hlater, hextends.trans hrest⟩
      exact TransitionSystem.run_cons_eq_some.mpr ⟨next, hmove, hrun⟩

theorem firstColor_isSome_iff {point : POINT} :
    (firstColor moves point).isSome ↔ point ∈ moves.map Move.point := by
  rw [firstColor, Option.isSome_map, List.find?_isSome, List.mem_map]
  simp only [decide_eq_true_eq]

theorem BoardInvariant.of_find (hgood : BoardInvariant moves game) {point : POINT}
    {entry : POINT × ℕ} (hfind : game.m_mapPieces.find point = some entry) :
    entry.1 = point ∧ entry.2 ∈ game.m_vecPiece ∧
      game.colour entry.2 = firstColor moves point := by
  obtain ⟨hentry, hequivalent⟩ := OrderedMap.find_eq_some_iff.mp hfind
  obtain rfl := POINT.equivalent_iff.mp hequivalent
  obtain ⟨color, hfirst, hcolour⟩ := (hgood.mem_entries entry.1 entry.2).mp hentry
  refine ⟨rfl, ?_, hcolour.trans hfirst.symm⟩
  rw [hgood.vector_eq]
  exact List.mem_range.mpr (colour_lt hcolour)

theorem BoardInvariant.find_isSome_iff (hgood : BoardInvariant moves game) {point : POINT} :
    (game.m_mapPieces.find point).isSome ↔ point ∈ moves.map Move.point := by
  rw [← firstColor_isSome_iff, Option.isSome_iff_exists, Option.isSome_iff_exists]
  constructor
  · rintro ⟨entry, hfind⟩
    obtain ⟨hentry, -⟩ := OrderedMap.find_eq_some_iff.mp hfind
    obtain ⟨hpoint, -, -⟩ := hgood.of_find hfind
    obtain ⟨color, hfirst, -⟩ := (hgood.mem_entries entry.1 entry.2).mp hentry
    exact ⟨color, hpoint ▸ hfirst⟩
  · rintro ⟨color, hfirst⟩
    obtain ⟨pPiece, hcolour⟩ := hgood.exists_colour hfirst
    have hentry := (hgood.mem_entries point pPiece).mpr ⟨color, hfirst, hcolour⟩
    exact ⟨_, OrderedMap.find_eq_some_iff.mpr ⟨hentry, POINT.equivalent_iff.mpr rfl⟩⟩

/-- The list shows each drawn point with the colour of the first move there. -/
theorem BoardInvariant.showAllPieces (hgood : BoardInvariant moves game) :
    showAllPieces game =
      game.m_mapPieces.entries.mapM fun it => (firstColor moves it.1).map (showText it.1) := by
  have hshow : ∀ it ∈ game.m_mapPieces.entries,
      (do let piece ← game.pieces[it.2]?; some (showText it.1 piece.m_color)) =
        (firstColor moves it.1).map (showText it.1) := by
    intro it hit
    obtain ⟨color, hfirst, hcolour⟩ := (hgood.mem_entries it.1 it.2).mp hit
    obtain ⟨piece, hpiece, hcolor⟩ := Option.map_eq_some_iff.mp hcolour
    simp [hpiece, hfirst, hcolor]
  rw [FlyweightBoard.showAllPieces]
  generalize game.m_mapPieces.entries = entries at hshow
  induction entries with
  | nil => rfl
  | cons it rest ih =>
      rw [List.mapM_cons, List.mapM_cons, hshow it List.mem_cons_self,
        ih fun other hother => hshow other (List.mem_cons_of_mem it hother)]

theorem BoardInvariant.vector_colors_nodup (hgood : BoardInvariant moves game) :
    (game.m_vecPiece.map game.colour).Nodup := by
  rw [hgood.vector_eq]
  apply List.Nodup.map_on _ List.nodup_range
  intro left hleft right _ heq
  obtain ⟨color, hcolour⟩ : ∃ color, game.colour left = some color :=
    ⟨_, congrArg (Option.map CPiece.m_color) (List.getElem?_eq_getElem (List.mem_range.mp hleft))⟩
  exact hgood.colour_injective hcolour (heq ▸ hcolour)

/-- Every game goes through.  The factory has one piece for each colour at most, the board
has the points drawn, each with the piece of the colour drawn there first, which is what it
shows, and later moves leave the entries and their colours as they are. -/
theorem board_of_moves (before after : List Move) :
    ∃ game later, flyweight.run initial before = some game ∧
      flyweight.run game after = some later ∧
      (game.m_vecPiece.map game.colour).Nodup ∧
      (∀ point, (game.m_mapPieces.find point).isSome ↔ point ∈ before.map Move.point) ∧
      (∀ point entry, game.m_mapPieces.find point = some entry →
        entry.1 = point ∧ entry.2 ∈ game.m_vecPiece ∧
          game.colour entry.2 = firstColor before point) ∧
      (showAllPieces game = game.m_mapPieces.entries.mapM fun it =>
        (firstColor before it.1).map (showText it.1)) ∧
      (∀ entry ∈ game.m_mapPieces.entries, entry ∈ later.m_mapPieces.entries ∧
        later.colour entry.2 = game.colour entry.2) := by
  obtain ⟨game, hbefore, hgame, -⟩ := run_of_boardInvariant before initial_boardInvariant
  obtain ⟨later, hafter, -, hextends⟩ := run_of_boardInvariant after hgame
  rw [List.nil_append] at hgame
  refine ⟨game, later, hbefore, hafter, hgame.vector_colors_nodup,
    fun point => hgame.find_isSome_iff, fun point entry => hgame.of_find, hgame.showAllPieces,
    ?_⟩
  intro entry hentry
  obtain ⟨color, -, hcolour⟩ := (hgame.mem_entries entry.1 entry.2).mp hentry
  exact ⟨hextends.entries entry hentry, (hextends.colour _ _ hcolour).trans hcolour.symm⟩

end Games

end CppProj.FlyweightBoard
