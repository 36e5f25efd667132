import Mathlib.Data.List.Basic
import Mathlib.Data.List.Flatten
import Mathlib.Algebra.Ring.Nat
import Mathlib.Order.Lattice
import Mathlib.Tactic.Common

/-!
# The instruction interpreter of `interpreter_pattern.cc`

An instruction is a composite of clauses joined by the word `and`, each a
direction, an action and a distance.  `Handle` goes through the words and
builds the tree; `Output` interprets it once, which deletes the words in its
leaves.  No two leaves of one tree share a word, so a tree is a value here.
-/

namespace CppProj.InstructionHandler

/-- A wide string without its terminator. -/
abbrev Word := List Char

/-- `wcscasecmp` returns zero, in the locale of a program that has just started. -/
def wcsCaseEqual (left right : Word) : Bool :=
  left.map Char.toLower == right.map Char.toLower

def DOWN : Word := ['d', 'o', 'w', 'n']
def UP : Word := ['u', 'p']
def LEFT : Word := ['l', 'e', 'f', 't']
def RIGHT : Word := ['r', 'i', 'g', 'h', 't']
def MOVE : Word := ['m', 'o', 'v', 'e']
def WALK : Word := ['w', 'a', 'l', 'k']
def AND : Word := ['a', 'n', 'd']

def directionText (word : Word) : Word :=
  if wcsCaseEqual word DOWN then ['向', '下']
  else if wcsCaseEqual word UP then ['向', '上']
  else if wcsCaseEqual word LEFT then ['向', '左']
  else if wcsCaseEqual word RIGHT then ['向', '右']
  else ['未', '知', '方', '向']

def actionText (word : Word) : Word :=
  if wcsCaseEqual word MOVE then ['移', '动']
  else if wcsCaseEqual word WALK then ['行', '走']
  else ['未', '知', '动', '作']

def distanceText (word : Word) : Word := word ++ ['米']

/-- A pointer to a node with what is below it.  The word of a leaf is `none` once it
is deleted. -/
inductive AbstractNode where
  | null
  | andNode (pLeft pRight : AbstractNode)
  | sentenceNode (pDirection pAction pDistance : AbstractNode)
  | directionNode (pDirection : Option Word)
  | actionNode (pAction : Option Word)
  | distanceNode (pDistance : Option Word)
  deriving DecidableEq

namespace AbstractNode

/-- The text, and the node with its words deleted.  `none` stands for reading
through a null pointer. -/
def interpret : AbstractNode → Option (Word × AbstractNode)
  | null => none
  | andNode pLeft pRight => do
      let (leftText, left) ← pLeft.interpret
      let (rightText, right) ← pRight.interpret
      some (leftText ++ rightText, andNode left right)
  | sentenceNode pDirection pAction pDistance => do
      let (directionText, direction) ← pDirection.interpret
      let (actionText, action) ← pAction.interpret
      let (distanceText, distance) ← pDistance.interpret
      some (directionText ++ actionText ++ distanceText, sentenceNode direction action distance)
  | directionNode pDirection => pDirection.map fun word => (directionText word, directionNode none)
  | actionNode pAction => pAction.map fun word => (actionText word, actionNode none)
  | distanceNode pDistance => pDistance.map fun word => (distanceText word, distanceNode none)

def ofWords (direction action distance : Word) : AbstractNode :=
  sentenceNode (directionNode (some direction)) (actionNode (some action))
    (distanceNode (some distance))

/-- A second interpretation reads deleted words. -/
theorem interpret_interpreted {node rest : AbstractNode} {text : Word}
    (hinterpret : node.interpret = some (text, rest)) : rest.interpret = none := by
  induction node generalizing text rest with
  | null => cases hinterpret
  | andNode pLeft pRight ihLeft _ =>
      simp only [interpret, Option.bind_eq_bind, Option.bind_eq_some_iff, Option.some.injEq,
        Prod.mk.injEq, Prod.exists] at hinterpret
      obtain ⟨_, _, hleft, _, _, _, _, rfl⟩ := hinterpret
      simp [interpret, ihLeft hleft]
  | sentenceNode pDirection pAction pDistance ihDirection _ _ =>
      simp only [interpret, Option.bind_eq_bind, Option.bind_eq_some_iff, Option.some.injEq,
        Prod.mk.injEq, Prod.exists] at hinterpret
      obtain ⟨_, _, hdirection, _, _, _, _, _, _, _, rfl⟩ := hinterpret
      simp [interpret, ihDirection hdirection]
  | directionNode pDirection =>
      simp only [interpret, Option.map_eq_some_iff, Prod.mk.injEq] at hinterpret
      obtain ⟨_, _, _, rfl⟩ := hinterpret
      rfl
  | actionNode pAction =>
      simp only [interpret, Option.map_eq_some_iff, Prod.mk.injEq] at hinterpret
      obtain ⟨_, _, _, rfl⟩ := hinterpret
      rfl
  | distanceNode pDistance =>
      simp only [interpret, Option.map_eq_some_iff, Prod.mk.injEq] at hinterpret
      obtain ⟨_, _, _, rfl⟩ := hinterpret
      rfl

end AbstractNode

/-- The loop over `InstructionArray`, with `pLeft` and the vector `node`.  `none`
stands for a read behind the last word. -/
def handleLoop : List Word → AbstractNode → List AbstractNode → Option (List AbstractNode)
  | [], _, node => some node
  | word :: second :: third :: rest, pLeft, node =>
      if wcsCaseEqual word AND then
        match rest with
        | fourth :: rest =>
            let pRight := AbstractNode.ofWords second third fourth
            handleLoop rest pLeft (node ++ [.andNode pLeft pRight])
        | [] => none
      else
        let pLeft := AbstractNode.ofWords word second third
        handleLoop rest pLeft (node ++ [pLeft])
  | _, _, _ => none

/-- What `Output` prints behind its heading. -/
def output (pTree : AbstractNode) : Option Word :=
  pTree.interpret.map Prod.fst

/-- `current` is the word that is being filled; every blank ends one. -/
def splitLoop : Word → List Word → Word → List Word
  | [], words, current => words ++ [current]
  | letter :: rest, words, current =>
      if letter = ' ' then splitLoop rest (words ++ [current]) []
      else splitLoop rest words (current ++ [letter])

def splitInstruction (instruction : Word) : List Word :=
  splitLoop instruction [] []

/-- `Handle` after the split.  The last node is the tree; an empty array leaves
none. -/
def handleArray (instructionArray : List Word) : Option AbstractNode :=
  (handleLoop instructionArray .null []).bind List.getLast?

def handle (instruction : Word) : Option AbstractNode :=
  handleArray (splitInstruction instruction)

/-! ## The composite of the grammar -/

structure Clause where
  direction : Word
  action : Word
  distance : Word
  deriving DecidableEq

namespace Clause

def words (clause : Clause) : List Word :=
  [clause.direction, clause.action, clause.distance]

def node (clause : Clause) : AbstractNode :=
  AbstractNode.ofWords clause.direction clause.action clause.distance

def text (clause : Clause) : Word :=
  directionText clause.direction ++ actionText clause.action ++ distanceText clause.distance

end Clause

def andClauses (clauses : List Clause) : List Word :=
  clauses.flatMap fun clause => AND :: clause.words

def compositeWords (first : Clause) (others : List Clause) : List Word :=
  first.words ++ andClauses others

/-- The meaning of a composite: those of its expressions, in order. -/
def compositeText (clauses : List Clause) : Word :=
  clauses.flatMap Clause.text

theorem Clause.output_node (clause : Clause) : output clause.node = some clause.text := rfl

theorem Clause.text_ne_nil (clause : Clause) : clause.text ≠ [] := by
  simp [Clause.text, distanceText]

theorem output_andNode (left right : Clause) :
    output (.andNode left.node right.node) = some (left.text ++ right.text) := rfl

theorem handleLoop_clause {word : Word} (hword : wcsCaseEqual word AND = false)
    (second third : Word) (rest : List Word) (pLeft : AbstractNode) (node : List AbstractNode) :
    handleLoop (word :: second :: third :: rest) pLeft node =
      handleLoop rest (.ofWords word second third)
        (node ++ [.ofWords word second third]) := by
  cases rest with
  | nil => simp [handleLoop, hword]
  | cons fourth rest => simp [handleLoop, hword]

theorem handleLoop_and (second third fourth : Word) (rest : List Word) (pLeft : AbstractNode)
    (node : List AbstractNode) :
    handleLoop (AND :: second :: third :: fourth :: rest) pLeft node =
      handleLoop rest pLeft (node ++ [.andNode pLeft (.ofWords second third fourth)]) := by
  have hand : wcsCaseEqual AND AND = true := rfl
  simp [handleLoop, hand]

theorem handleLoop_andClauses (clauses : List Clause) (pLeft : AbstractNode)
    (node : List AbstractNode) :
    handleLoop (andClauses clauses) pLeft node =
      some (node ++ clauses.map fun clause => .andNode pLeft clause.node) := by
  induction clauses generalizing node with
  | nil => simp [andClauses, handleLoop]
  | cons clause rest ih =>
      have hwords : andClauses (clause :: rest) =
          AND :: clause.direction :: clause.action :: clause.distance :: andClauses rest := rfl
      rw [hwords, handleLoop_and, ih, List.append_assoc, List.map_cons, List.singleton_append]
      rfl

theorem handleArray_compositeWords {first : Clause}
    (hfirst : wcsCaseEqual first.direction AND = false) (others : List Clause) :
    handleArray (compositeWords first others) =
      (first.node :: others.map fun clause => .andNode first.node clause.node).getLast? := by
  have hwords : compositeWords first others =
      first.direction :: first.action :: first.distance :: andClauses others := rfl
  rw [handleArray, hwords, handleLoop_clause hfirst, handleLoop_andClauses]
  rfl

/-- The tree joins the first clause and the last one. -/
theorem output_handleArray {first : Clause} (hfirst : wcsCaseEqual first.direction AND = false)
    (middle : List Clause) (final : Clause) :
    (handleArray (compositeWords first (middle ++ [final]))).bind output =
      some (first.text ++ final.text) := by
  rw [handleArray_compositeWords hfirst, List.map_append, List.map_singleton, ← List.cons_append,
    List.getLast?_concat]
  exact output_andNode first final

theorem compositeText_eq_nil_iff (clauses : List Clause) :
    compositeText clauses = [] ↔ clauses = [] := by
  cases clauses with
  | nil => simp [compositeText]
  | cons clause rest => simp [compositeText, clause.text_ne_nil]

/-- The interpretation is the meaning of the composite exactly when there are at
most two clauses. -/
theorem output_eq_compositeText_iff {first : Clause}
    (hfirst : wcsCaseEqual first.direction AND = false) (others : List Clause) :
    (handleArray (compositeWords first others)).bind output =
        some (compositeText (first :: others)) ↔
      (first :: others).length ≤ 2 := by
  rcases List.eq_nil_or_concat' others with rfl | ⟨middle, final, rfl⟩
  · rw [handleArray_compositeWords hfirst]
    simp [compositeText, Clause.output_node]
  · have hmeaning : compositeText (first :: (middle ++ [final])) =
        first.text ++ (compositeText middle ++ final.text) := by
      simp [compositeText]
    rw [output_handleArray hfirst, hmeaning, Option.some.injEq, List.append_cancel_left_eq,
      List.self_eq_append_left, compositeText_eq_nil_iff]
    cases middle with
    | nil => simp
    | cons clause rest => simp

/-- Where the words are joined by single blanks, the split finds them again. -/
theorem splitLoop_append {word : Word} (hword : ' ' ∉ word) (rest : Word) (words : List Word)
    (current : Word) :
    splitLoop (word ++ rest) words current = splitLoop rest words (current ++ word) := by
  induction word generalizing current with
  | nil => simp
  | cons letter word ih =>
      rw [List.mem_cons, not_or] at hword
      rw [List.cons_append, splitLoop, if_neg (Ne.symm hword.1), ih hword.2, List.append_assoc,
        List.singleton_append]

theorem splitLoop_joined {word : Word} {others : List Word}
    (hblanks : ∀ member ∈ word :: others, ' ' ∉ member) (words : List Word) :
    splitLoop (word ++ others.flatMap fun other => ' ' :: other) words [] =
      words ++ word :: others := by
  induction others generalizing word words with
  | nil =>
      rw [splitLoop_append (hblanks word (by simp))]
      simp [splitLoop]
  | cons second others ih =>
      rw [splitLoop_append (hblanks word (by simp)), List.flatMap_cons, List.cons_append, splitLoop,
        if_pos rfl, ih fun member hmem => hblanks member (List.mem_cons_of_mem word hmem)]
      simp

theorem handle_joined {word : Word} {others : List Word}
    (hblanks : ∀ member ∈ word :: others, ' ' ∉ member) :
    handle (word ++ others.flatMap fun other => ' ' :: other) = handleArray (word :: others) := by
  rw [handle, splitInstruction, splitLoop_joined hblanks, List.nil_append]

/-- The instruction of `main`: `up move 5 and down walk 10`. -/
theorem output_main :
    (handleArray (compositeWords ⟨UP, MOVE, ['5']⟩ [⟨DOWN, WALK, ['1', '0']⟩])).bind output =
      some ['向', '上', '移', '动', '5', '米', '向', '下', '行', '走', '1', '0', '米'] :=
  (output_eq_compositeText_iff (by decide) _).mpr (by decide)

/-- `up move 5 and down walk 10 and left move 3`: the second clause is lost. -/
theorem output_threeClauses :
    (handleArray (compositeWords ⟨UP, MOVE, ['5']⟩
      [⟨DOWN, WALK, ['1', '0']⟩, ⟨LEFT, MOVE, ['3']⟩])).bind output =
        some ['向', '上', '移', '动', '5', '米', '向', '左', '移', '动', '3', '米'] ∧
    compositeText [⟨UP, MOVE, ['5']⟩, ⟨DOWN, WALK, ['1', '0']⟩, ⟨LEFT, MOVE, ['3']⟩] =
      ['向', '上', '移', '动', '5', '米', '向', '下', '行', '走', '1', '0', '米',
        '向', '左', '移', '动', '3', '米'] :=
  ⟨by decide, by decide⟩

end CppProj.InstructionHandler
