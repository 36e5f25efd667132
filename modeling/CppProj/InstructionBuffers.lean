import CppProj.InstructionHandler
import CppProj.OwnedBuffers

/-!
# The buffers of the instruction interpreter

`SplitInstruction` copies the words of an instruction into ten buffers of ten characters,
all cleared before, and counts the words; every blank ends one.  `Handle` takes the words of
a clause with `++i`.  Neither looks at the size of the buffers or at the number of words.

The words themselves, and the tree made of them, are in `CppProj.InstructionHandler`.
-/

namespace CppProj.InstructionBuffers

open OwnedBuffers InstructionHandler

def nul : Char := '\x00'

/-- A wide string before its NUL. -/
structure Instruction where
  chars : Word
  noNul : nul ∉ chars

abbrev Buffers := List (List Char)

def newBuffers : Buffers := List.replicate 10 (List.replicate 10 nul)

def increment (value : ℕ) : Except Fault ℕ :=
  if value + 1 < 2 ^ 31 then .ok (value + 1) else .error .overflow

/-- `instruction[size][n] = letter` -/
def writeChar (buffers : Buffers) (size n : ℕ) (letter : Char) : Except Fault Buffers :=
  match buffers[size]? with
  | none => .error .outOfBounds
  | some buffer =>
      if n < buffer.length then .ok (buffers.set size (buffer.set n letter))
      else .error .outOfBounds

/-- The loop of `SplitInstruction` and the increment after it. -/
def copyLoop : Word → Buffers → ℕ → ℕ → Except Fault (Buffers × ℕ)
  | [], buffers, size, _ => do
      let size ← increment size
      .ok (buffers, size)
  | letter :: rest, buffers, size, n =>
      if letter = ' ' then do
        let size ← increment size
        copyLoop rest buffers size 0
      else do
        let buffers ← writeChar buffers size n letter
        let n ← increment n
        copyLoop rest buffers size n

def splitInstruction (instruction : Instruction) : Except Fault (Buffers × ℕ) :=
  copyLoop instruction.chars newBuffers 0 0

/-- The characters up to the NUL. -/
def cString : List Char → Except Fault Word
  | [] => .error .outOfBounds
  | letter :: rest =>
      if letter = nul then .ok []
      else do
        let word ← cString rest
        .ok (letter :: word)

def wordAt (array : Buffers) (index : ℕ) : Except Fault Word :=
  match array[index]? with
  | none => .error .outOfBounds
  | some buffer => cString buffer

/-- `InstructionArray[++i]`, with the index that is read. -/
def nextWord (array : Buffers) (index : ℕ) : Except Fault ℕ :=
  if index < array.length then .ok index else .error .outOfBounds

/-- The indices that the loop of `Handle` reads with `++i`. -/
def handleReads (array : Buffers) (size i : ℕ) : Except Fault (List ℕ) :=
  if _h : i < size then do
    -- the comparison may stop before the NUL; without one the word is out of bounds anyway
    let word ← wordAt array i
    if wcsCaseEqual word AND then do
      let pDirectionStr ← nextWord array (i + 1)
      let pActionStr ← nextWord array (i + 2)
      let pDistanceStr ← nextWord array (i + 3)
      let rest ← handleReads array size (i + 4)
      .ok (pDirectionStr :: pActionStr :: pDistanceStr :: rest)
    else do
      let pActionStr ← nextWord array (i + 1)
      let pDistanceStr ← nextWord array (i + 2)
      let rest ← handleReads array size (i + 3)
      .ok (pActionStr :: pDistanceStr :: rest)
  else .ok []
termination_by size - i

/-- The split stays in its buffers and ends each word with a NUL, the words joined by
blanks are the instruction, and every `++i` is the index of a word. -/
def InBounds (instruction : Instruction) : Prop :=
  ∃ buffers size words reads,
    splitInstruction instruction = .ok (buffers, size) ∧
    words.length = size ∧
    (∀ k word, words[k]? = some word → wordAt buffers k = .ok word) ∧
    List.intercalate [' '] words = instruction.chars ∧
    handleReads buffers size 0 = .ok reads ∧
    ∀ index ∈ reads, index < size

/-- The words are clauses of three, or of four that begin with `and`. -/
def Clauses : List Word → Prop
  | [] => True
  | word :: rest =>
      let others := if wcsCaseEqual word AND then 3 else 2
      others ≤ rest.length ∧ Clauses (rest.drop others)
termination_by words => words.length
decreasing_by
  rw [List.length_drop, List.length_cons]
  omega

/-- At most ten words of at most nine characters, which are clauses. -/
structure Fits (instruction : Instruction) : Prop where
  few : instruction.chars.count ' ' ≤ 9
  short : ∀ word ∈ instruction.chars.splitOn ' ', word.length ≤ 9
  clauses : Clauses (instruction.chars.splitOn ' ')

/-! ## The words of an instruction -/

theorem splitLoop_eq_splitOn (text : Word) : ∀ (words : List Word) (current : Word),
    splitLoop text words current =
      words ++ (text.splitOn ' ').modifyHead (current ++ ·) := by
  induction text with
  | nil => simp [splitLoop]
  | cons letter text ih =>
      intro words current
      rw [splitLoop, List.splitOn_cons_eq_if_modifyHead]
      by_cases hblank : letter = ' '
      · rw [if_pos hblank, ih, if_pos (by simpa using hblank)]
        cases text.splitOn ' ' <;> simp
      · rw [if_neg hblank, ih, if_neg (by simpa using hblank)]
        cases text.splitOn ' ' <;> simp

theorem splitInstruction_eq_splitOn (text : Word) :
    InstructionHandler.splitInstruction text = text.splitOn ' ' := by
  rw [InstructionHandler.splitInstruction, splitLoop_eq_splitOn]
  cases text.splitOn ' ' <;> simp

theorem splitLoop_length (text : Word) : ∀ (words : List Word) (current : Word),
    (splitLoop text words current).length = words.length + text.count ' ' + 1 := by
  induction text with
  | nil => simp [splitLoop]
  | cons letter text ih =>
      intro words current
      rw [splitLoop]
      by_cases hblank : letter = ' '
      · rw [if_pos hblank, ih, hblank, List.count_cons_self, List.length_append,
          List.length_singleton]
        omega
      · rw [if_neg hblank, ih, List.count_cons_of_ne hblank]

/-- The word that is being read grows to one of the words. -/
theorem exists_longer (text : Word) (words : List Word) (current : Word) :
    ∃ word ∈ splitLoop text words current, current.length ≤ word.length := by
  rw [splitLoop_eq_splitOn]
  cases hsplit : text.splitOn ' ' with
  | nil => exact absurd hsplit (List.splitOn_ne_nil ' ' text)
  | cons first others =>
      refine ⟨current ++ first, by simp, ?_⟩
      rw [List.length_append]
      omega

/-! ## The buffers with words in them -/

/-- A buffer with a word: the rest of its ten characters are NULs. -/
def padded (word : Word) : List Char := word ++ List.replicate (10 - word.length) nul

def filled (words : List Word) : Buffers :=
  words.map padded ++ List.replicate (10 - words.length) (padded [])

theorem filled_length (words : List Word) (hwords : words.length ≤ 10) :
    (filled words).length = 10 := by
  rw [filled, List.length_append, List.length_map, List.length_replicate]
  omega

theorem filled_append_empty {words : List Word} (hwords : words.length < 10) :
    filled (words ++ [[]]) = filled words := by
  rw [filled, filled, replicate_sub_eq_cons hwords, List.map_append, List.append_assoc,
    List.length_append, List.length_singleton]
  rfl

theorem getElem?_filled {words : List Word} {k : ℕ} {word : Word}
    (hword : words[k]? = some word) : (filled words)[k]? = some (padded word) := by
  have hlt := (List.getElem?_eq_some_iff.mp hword).1
  rw [filled, List.getElem?_append_left (by rwa [List.length_map]), List.getElem?_map, hword]
  rfl

theorem padded_set {word : Word} (hword : word.length < 10) (letter : Char) :
    (padded word).set word.length letter = padded (word ++ [letter]) := by
  rw [padded, padded, replicate_sub_eq_cons hword, List.set_append_right _ _ (Nat.le_refl _),
    Nat.sub_self, List.append_assoc, List.length_append, List.length_singleton]
  rfl

theorem padded_length (word : Word) : (padded word).length = word.length + (10 - word.length) := by
  rw [padded, List.length_append, List.length_replicate]

theorem filled_concat (words : List Word) (current : Word) :
    filled (words ++ [current]) =
      words.map padded ++ padded current ::
        List.replicate (10 - (words.length + 1)) (padded []) := by
  simp [filled]

/-- A letter goes into the buffer of the word that is being read, as long as there is room. -/
theorem writeChar_filled (words : List Word) (current : Word) (letter : Char) :
    writeChar (filled (words ++ [current])) words.length current.length letter =
      if current.length < 10 then .ok (filled (words ++ [current ++ [letter]]))
      else .error .outOfBounds := by
  have hbuffer : (filled (words ++ [current]))[words.length]? = some (padded current) :=
    getElem?_filled (by simp)
  have hset : ∀ buffer, (filled (words ++ [current])).set words.length buffer =
      words.map padded ++ buffer :: List.replicate (10 - (words.length + 1)) (padded []) := by
    intro buffer
    rw [filled_concat, List.set_append_right _ _ (by rw [List.length_map]), List.length_map,
      Nat.sub_self]
    rfl
  rw [writeChar, hbuffer]
  dsimp only
  rw [padded_length]
  by_cases hroom : current.length < 10
  · rw [if_pos hroom, if_pos (by omega), hset, padded_set hroom, filled_concat]
  · rw [if_neg hroom, if_neg (by omega)]

/-! ## The split -/

section Splits

variable {text : Word} {words : List Word} {current : Word} {letter : Char}

theorem splitLoop_blank : splitLoop (' ' :: text) words current =
    splitLoop text (words ++ [current]) [] := by
  rw [splitLoop, if_pos rfl]

theorem splitLoop_letter (hletter : letter ≠ ' ') : splitLoop (letter :: text) words current =
    splitLoop text words (current ++ [letter]) := by
  rw [splitLoop, if_neg hletter]

theorem copyLoop_blank {buffers : Buffers} {size n : ℕ} :
    copyLoop (' ' :: text) buffers size n =
      (increment size >>= fun size => copyLoop text buffers size 0) := by
  rw [copyLoop, if_pos rfl]

theorem copyLoop_letter (hletter : letter ≠ ' ') {buffers : Buffers} {size n : ℕ} :
    copyLoop (letter :: text) buffers size n =
      (writeChar buffers size n letter >>= fun buffers =>
        increment n >>= fun n => copyLoop text buffers size n) := by
  rw [copyLoop, if_neg hletter]

theorem increment_eq {value : ℕ} (hvalue : value < 10) : increment value = .ok (value + 1) :=
  if_pos (by omega)

theorem increment_ok {value result : ℕ} (hincrement : increment value = .ok result) :
    result = value + 1 := by
  unfold increment at hincrement
  split_ifs at hincrement
  exact (Except.ok.inj hincrement).symm

/-- The words go into the buffers one after the other, as long as they fit. -/
theorem copyLoop_of_short (text : Word) : ∀ (words : List Word) (current : Word),
    (splitLoop text words current).length ≤ 10 →
      (∀ word ∈ splitLoop text words current, word.length ≤ 10) →
        copyLoop text (filled (words ++ [current])) words.length current.length =
          .ok (filled (splitLoop text words current), (splitLoop text words current).length) := by
  induction text with
  | nil =>
      intro words current hfew hshort
      rw [splitLoop, List.length_append, List.length_singleton] at *
      rw [copyLoop, increment_eq (by omega), ok_bind]
  | cons letter text ih =>
      intro words current hfew hshort
      by_cases hblank : letter = ' '
      · subst hblank
        rw [splitLoop_blank] at *
        have hlength := splitLoop_length text (words ++ [current]) []
        have hrest := ih (words ++ [current]) [] hfew hshort
        rw [List.length_append, List.length_singleton] at hlength hrest
        rw [filled_append_empty (by rw [List.length_append, List.length_singleton]; omega)] at hrest
        rw [copyLoop_blank, increment_eq (by omega), ok_bind]
        exact hrest
      · rw [splitLoop_letter hblank] at *
        obtain ⟨word, hword, hlonger⟩ := exists_longer text words (current ++ [letter])
        have hroom := hshort word hword
        have hrest := ih words (current ++ [letter]) hfew hshort
        rw [List.length_append, List.length_singleton] at hlonger hrest
        rw [copyLoop_letter hblank, writeChar_filled, if_pos (by omega), ok_bind,
          increment_eq (by omega), ok_bind]
        exact hrest

theorem writeChar_length {buffers next : Buffers} {size n : ℕ}
    (hwrite : writeChar buffers size n letter = .ok next) : next.length = buffers.length := by
  unfold writeChar at hwrite
  cases hbuffer : buffers[size]? with
  | none =>
      rw [hbuffer] at hwrite
      cases hwrite
  | some buffer =>
      rw [hbuffer] at hwrite
      dsimp only at hwrite
      split_ifs at hwrite
      rw [← Except.ok.inj hwrite, List.length_set]

theorem copyLoop_size (text : Word) : ∀ (buffers : Buffers) (size n : ℕ) (result : Buffers × ℕ),
    copyLoop text buffers size n = .ok result →
      result.1.length = buffers.length ∧ result.2 = size + text.count ' ' + 1 := by
  induction text with
  | nil =>
      intro buffers size n result hcopy
      obtain ⟨next, hnext, hcopy⟩ := bind_eq_ok_iff.mp hcopy
      cases hcopy
      exact ⟨rfl, increment_ok hnext⟩
  | cons letter text ih =>
      intro buffers size n result hcopy
      by_cases hblank : letter = ' '
      · subst hblank
        rw [copyLoop_blank] at hcopy
        obtain ⟨next, hnext, hcopy⟩ := bind_eq_ok_iff.mp hcopy
        obtain ⟨hlength, hsize⟩ := ih buffers next 0 result hcopy
        rw [increment_ok hnext] at hsize
        rw [List.count_cons_self]
        exact ⟨hlength, by omega⟩
      · rw [copyLoop_letter hblank] at hcopy
        obtain ⟨written, hwrite, hcopy⟩ := bind_eq_ok_iff.mp hcopy
        obtain ⟨next, -, hcopy⟩ := bind_eq_ok_iff.mp hcopy
        obtain ⟨hlength, hsize⟩ := ih written size next result hcopy
        rw [List.count_cons_of_ne hblank]
        exact ⟨hlength.trans (writeChar_length hwrite), hsize⟩

/-- A split that goes through has put no word into a buffer that is too short for it. -/
theorem short_of_copyLoop (text : Word) : ∀ (words : List Word) (current : Word)
    (result : Buffers × ℕ), (splitLoop text words current).length ≤ 10 →
      (∀ word ∈ words ++ [current], word.length ≤ 10) →
        copyLoop text (filled (words ++ [current])) words.length current.length = .ok result →
          ∀ word ∈ splitLoop text words current, word.length ≤ 10 := by
  induction text with
  | nil => exact fun words current result _ hshort _ => hshort
  | cons letter text ih =>
      intro words current result hfew hshort hcopy
      by_cases hblank : letter = ' '
      · subst hblank
        rw [splitLoop_blank] at *
        have hlength := splitLoop_length text (words ++ [current]) []
        rw [List.length_append, List.length_singleton] at hlength
        rw [copyLoop_blank, increment_eq (by omega), ok_bind,
          ← filled_append_empty (by rw [List.length_append, List.length_singleton]; omega)] at hcopy
        refine ih (words ++ [current]) [] result hfew ?_ ?_
        · intro word hword
          rcases List.mem_append.mp hword with hold | hnew
          · exact hshort word hold
          · rw [List.mem_singleton.mp hnew]
            exact Nat.zero_le 10
        · rw [List.length_append, List.length_singleton]
          exact hcopy
      · rw [splitLoop_letter hblank] at *
        rw [copyLoop_letter hblank, writeChar_filled] at hcopy
        by_cases hroom : current.length < 10
        · rw [if_pos hroom, ok_bind, increment_eq hroom, ok_bind] at hcopy
          refine ih words (current ++ [letter]) result hfew ?_ ?_
          · intro word hword
            rcases List.mem_append.mp hword with hold | hnew
            · exact hshort word (List.mem_append_left _ hold)
            · rw [List.mem_singleton.mp hnew, List.length_append]
              exact hroom
          · rw [List.length_append]
            exact hcopy
        · rw [if_neg hroom] at hcopy
          cases hcopy

end Splits

/-! ## Reading the words -/

section Words

variable {word : Word}

theorem cString_eq_error (hnul : nul ∉ word) : cString word = .error .outOfBounds := by
  induction word with
  | nil => rfl
  | cons letter word ih =>
      obtain ⟨hletter, hword⟩ := List.ne_and_not_mem_of_not_mem_cons hnul
      rw [cString, if_neg hletter.symm, ih hword]
      rfl

theorem cString_append (hnul : nul ∉ word) (rest : Word) :
    cString (word ++ nul :: rest) = .ok word := by
  induction word with
  | nil => rfl
  | cons letter word ih =>
      obtain ⟨hletter, hword⟩ := List.ne_and_not_mem_of_not_mem_cons hnul
      rw [List.cons_append, cString, if_neg hletter.symm, ih hword]
      rfl

/-- A word of ten characters fills its buffer and leaves no room for the NUL. -/
theorem cString_padded (hnul : nul ∉ word) :
    cString (padded word) = if word.length ≤ 9 then .ok word else .error .outOfBounds := by
  rw [padded]
  split_ifs with hshort
  · rw [replicate_sub_eq_cons (Nat.lt_succ_of_le hshort)]
    exact cString_append hnul _
  · have hnone : 10 - word.length = 0 := by omega
    rw [hnone, List.replicate_zero, List.append_nil]
    exact cString_eq_error hnul

end Words

/-! ## The reads of `Handle` -/

section Reads

variable {buffers : Buffers} {words : List Word}

theorem clauses_nil : Clauses [] := by
  rw [Clauses]
  exact trivial

theorem nextWord_eq_ok_iff {index result : ℕ} :
    nextWord buffers index = .ok result ↔ index < buffers.length ∧ index = result := by
  unfold nextWord
  split_ifs with hindex
  · rw [Except.ok.injEq, and_iff_right hindex]
  · refine iff_of_false ?_ fun hnext => hindex hnext.1
    intro hnext
    cases hnext

theorem clauses_cons {word : Word} {rest : List Word} :
    Clauses (word :: rest) ↔
      if wcsCaseEqual word AND then 3 ≤ rest.length ∧ Clauses (rest.drop 3)
      else 2 ≤ rest.length ∧ Clauses (rest.drop 2) := by
  rw [Clauses]
  split_ifs <;> rfl

/-- The words are clauses exactly when the loop of `Handle` finds a word for each leaf. -/
theorem handleLoop_isSome_iff (words : List Word) (pLeft : AbstractNode)
    (node : List AbstractNode) : (handleLoop words pLeft node).isSome ↔ Clauses words := by
  fun_induction handleLoop words pLeft node with
  | case1 pLeft node => simp [clauses_nil]
  | case2 word second third pLeft node hand fourth rest pRight ih =>
      rw [ih, clauses_cons, if_pos hand]
      simp
  | case3 word second third pLeft node hand =>
      rw [clauses_cons, if_pos hand]
      simp
  | case4 word second third rest pLeft node hand pLeft' ih =>
      rw [ih, clauses_cons, if_neg hand]
      simp
  | case5 words pLeft node hnil hlong =>
      refine iff_of_false Bool.false_ne_true ?_
      match words with
      | [] => exact absurd rfl hnil
      | [word] =>
          rw [clauses_cons]
          split_ifs <;> simp
      | [word, second] =>
          rw [clauses_cons]
          split_ifs <;> simp
      | word :: second :: third :: rest => exact (hlong word second third rest rfl).elim

/-- The reads from `i` on go through and are indices of words. -/
def ReadsWords (buffers : Buffers) (size i : ℕ) : Prop :=
  ∃ reads, handleReads buffers size i = .ok reads ∧ ∀ index ∈ reads, index < size

theorem readsWords_end {size : ℕ} : ReadsWords buffers size size := by
  refine ⟨[], ?_, fun _ hindex => absurd hindex List.not_mem_nil⟩
  rw [handleReads, dif_neg (Nat.lt_irrefl size)]

/-- The reads of one clause, of which `last` is the greatest index. -/
theorem readsWords_iff_of_reads (clause : List ℕ) {size i next last : ℕ}
    (hlast : last ∈ clause) (hclause : ∀ index ∈ clause, index ≤ last)
    (hbuffers : size ≤ buffers.length)
    (hreads : ∀ reads, handleReads buffers size i = .ok reads ↔ last < buffers.length ∧
      ∃ rest, handleReads buffers size next = .ok rest ∧ clause ++ rest = reads) :
    ReadsWords buffers size i ↔ last < size ∧ ReadsWords buffers size next := by
  constructor
  · rintro ⟨reads, hrun, hbelow⟩
    obtain ⟨-, rest, hrest, rfl⟩ := (hreads reads).mp hrun
    refine ⟨hbelow last (List.mem_append_left _ hlast), rest, hrest, ?_⟩
    exact fun index hindex => hbelow index (List.mem_append_right _ hindex)
  · rintro ⟨hsize, rest, hrest, hbelow⟩
    refine ⟨clause ++ rest, (hreads _).mpr ⟨by omega, rest, hrest, rfl⟩, ?_⟩
    intro index hindex
    rcases List.mem_append.mp hindex with hmem | hmem
    · exact lt_of_le_of_lt (hclause index hmem) hsize
    · exact hbelow index hmem

theorem readsWords_and {size i : ℕ} {word : Word} (hlt : i < size)
    (hbuffers : size ≤ buffers.length) (hword : wordAt buffers i = .ok word)
    (hand : wcsCaseEqual word AND = true) :
    ReadsWords buffers size i ↔ i + 3 < size ∧ ReadsWords buffers size (i + 4) := by
  apply readsWords_iff_of_reads [i + 1, i + 2, i + 3] (by simp) (by simp) hbuffers
  intro reads
  rw [handleReads, dif_pos hlt, hword, ok_bind, if_pos hand]
  simp only [bind_eq_ok_iff, nextWord_eq_ok_iff, and_assoc, exists_and_left, exists_eq_left',
    Except.ok.injEq, List.cons_append, List.nil_append]
  constructor
  · exact fun ⟨_, _, hlast, hrest⟩ => ⟨hlast, hrest⟩
  · exact fun ⟨hlast, hrest⟩ => ⟨by omega, by omega, hlast, hrest⟩

theorem readsWords_clause {size i : ℕ} {word : Word} (hlt : i < size)
    (hbuffers : size ≤ buffers.length) (hword : wordAt buffers i = .ok word)
    (hand : ¬ wcsCaseEqual word AND = true) :
    ReadsWords buffers size i ↔ i + 2 < size ∧ ReadsWords buffers size (i + 3) := by
  apply readsWords_iff_of_reads [i + 1, i + 2] (by simp) (by simp) hbuffers
  intro reads
  rw [handleReads, dif_pos hlt, hword, ok_bind, if_neg hand]
  simp only [bind_eq_ok_iff, nextWord_eq_ok_iff, and_assoc, exists_and_left, exists_eq_left',
    Except.ok.injEq, List.cons_append, List.nil_append]
  constructor
  · exact fun ⟨_, hlast, hrest⟩ => ⟨hlast, hrest⟩
  · exact fun ⟨hlast, hrest⟩ => ⟨by omega, hlast, hrest⟩

/-- Every `++i` is the index of a word exactly when the words that are left are clauses. -/
theorem readsWords_iff_clauses (hbuffers : words.length ≤ buffers.length)
    (hwords : ∀ k word, words[k]? = some word → wordAt buffers k = .ok word) (left : ℕ) :
    ∀ i, words.length - i ≤ left → i ≤ words.length →
      (ReadsWords buffers words.length i ↔ Clauses (words.drop i)) := by
  induction left with
  | zero =>
      intro i hleft hle
      obtain rfl : i = words.length := by omega
      rw [List.drop_length]
      exact iff_of_true readsWords_end clauses_nil
  | succ left ih =>
      intro i hleft hle
      by_cases hlt : i < words.length
      · have hword := hwords i words[i] (List.getElem?_eq_getElem hlt)
        rw [List.drop_eq_getElem_cons hlt, clauses_cons, List.length_drop, List.drop_drop,
          List.drop_drop]
        by_cases hand : wcsCaseEqual words[i] AND = true
        · rw [readsWords_and hlt hbuffers hword hand, if_pos hand]
          constructor
          · rintro ⟨hthird, hrest⟩
            exact ⟨by omega, (ih (i + 4) (by omega) (by omega)).mp hrest⟩
          · rintro ⟨hthird, hrest⟩
            exact ⟨by omega, (ih (i + 4) (by omega) (by omega)).mpr hrest⟩
        · rw [readsWords_clause hlt hbuffers hword hand, if_neg hand]
          constructor
          · rintro ⟨hsecond, hrest⟩
            exact ⟨by omega, (ih (i + 3) (by omega) (by omega)).mp hrest⟩
          · rintro ⟨hsecond, hrest⟩
            exact ⟨by omega, (ih (i + 3) (by omega) (by omega)).mpr hrest⟩
      · obtain rfl : i = words.length := by omega
        rw [List.drop_length]
        exact iff_of_true readsWords_end clauses_nil

end Reads

/-! ## When everything stays in bounds -/

section Bounds

variable {instruction : Instruction}

theorem wordAt_filled {words : List Word} (hnul : ∀ word ∈ words, nul ∉ word) {k : ℕ}
    {word : Word} (hword : words[k]? = some word) :
    wordAt (filled words) k = if word.length ≤ 9 then .ok word else .error .outOfBounds := by
  rw [wordAt, getElem?_filled hword]
  exact cString_padded (hnul word (List.mem_of_getElem? hword))

theorem mem_of_mem_splitOn {text word : Word} {letter : Char} (hword : word ∈ text.splitOn ' ')
    (hletter : letter ∈ word) : letter ∈ text := by
  obtain ⟨k, hk⟩ := List.mem_iff_getElem?.mp hword
  have hmem : word ∈ (text.splitOn ' ').intersperse [' '] :=
    List.mem_of_getElem? (List.getElem?_intersperse_two_mul.trans hk)
  have hjoined : List.intercalate [' '] (text.splitOn ' ') = text := List.intercalate_splitOn ' '
  rw [← hjoined]
  exact List.mem_flatten.mpr ⟨word, hmem, hletter⟩

theorem nul_notMem_word : ∀ word ∈ instruction.chars.splitOn ' ', nul ∉ word :=
  fun _ hword hnul => instruction.noNul (mem_of_mem_splitOn hword hnul)

theorem splitOn_length (instruction : Instruction) : (instruction.chars.splitOn ' ').length =
    instruction.chars.count ' ' + 1 := by
  rw [← splitInstruction_eq_splitOn, InstructionHandler.splitInstruction, splitLoop_length]
  rw [List.length_nil, Nat.zero_add]

theorem splitInstruction_of_short (hfew : instruction.chars.count ' ' ≤ 9)
    (hshort : ∀ word ∈ instruction.chars.splitOn ' ', word.length ≤ 10) :
    splitInstruction instruction =
      .ok (filled (instruction.chars.splitOn ' '), (instruction.chars.splitOn ' ').length) := by
  have hlength := splitOn_length instruction
  rw [← splitInstruction_eq_splitOn] at *
  have hcopy := copyLoop_of_short instruction.chars [] [] (by
    rw [InstructionHandler.splitInstruction] at hlength
    omega) hshort
  exact hcopy

theorem inBounds_of_fits (hfits : Fits instruction) : InBounds instruction := by
  have hfew := hfits.few
  have hlength := splitOn_length instruction
  have hwords : ∀ k word, (instruction.chars.splitOn ' ')[k]? = some word →
      wordAt (filled (instruction.chars.splitOn ' ')) k = .ok word := by
    intro k word hword
    rw [wordAt_filled nul_notMem_word hword, if_pos (hfits.short word (List.mem_of_getElem? hword))]
  have hbuffers := filled_length (instruction.chars.splitOn ' ') (by omega)
  obtain ⟨reads, hreads, hbelow⟩ := (readsWords_iff_clauses (by omega) hwords _ 0 (Nat.le_refl _)
    (Nat.zero_le _)).mpr hfits.clauses
  refine ⟨_, _, _, reads, splitInstruction_of_short hfew ?_, rfl, hwords,
    List.intercalate_splitOn ' ', hreads, hbelow⟩
  intro word hword
  exact Nat.le_succ_of_le (hfits.short word hword)

/-- There are ten buffers to read words from. -/
theorem count_le_of_words {buffers : Buffers} {words : List Word}
    (hsplit : splitInstruction instruction = .ok (buffers, words.length))
    (hwords : ∀ k word, words[k]? = some word → wordAt buffers k = .ok word) :
    instruction.chars.count ' ' ≤ 9 := by
  obtain ⟨hlength, hsize⟩ := copyLoop_size _ _ _ _ _ hsplit
  rw [newBuffers, List.length_replicate] at hlength
  dsimp only at hlength hsize
  by_contra hmany
  have hread := hwords 10 _ (List.getElem?_eq_getElem (by omega))
  rw [wordAt, List.getElem?_eq_none (by omega)] at hread
  cases hread

theorem short_of_split {buffers : Buffers} {size : ℕ}
    (hfew : instruction.chars.count ' ' ≤ 9)
    (hsplit : splitInstruction instruction = .ok (buffers, size)) :
    ∀ word ∈ instruction.chars.splitOn ' ', word.length ≤ 10 := by
  rw [← splitInstruction_eq_splitOn]
  refine short_of_copyLoop instruction.chars [] [] (buffers, size) ?_ (by simp) hsplit
  rw [splitLoop_length, List.length_nil]
  omega

theorem fits_of_inBounds (hbounds : InBounds instruction) : Fits instruction := by
  obtain ⟨buffers, size, words, reads, hsplit, rfl, hwords, -, hreads, hbelow⟩ := hbounds
  have hfew := count_le_of_words hsplit hwords
  have hfilled := splitInstruction_of_short hfew (short_of_split hfew hsplit)
  rw [hsplit] at hfilled
  obtain ⟨rfl, hsize⟩ := Prod.mk.inj (Except.ok.inj hfilled)
  have hshort : ∀ (k : ℕ) (word : Word), (instruction.chars.splitOn ' ')[k]? = some word →
      word.length ≤ 9 := by
    intro k word hword
    have hlt := (List.getElem?_eq_some_iff.mp hword).1
    have hread := hwords k _ (List.getElem?_eq_getElem (by omega))
    rw [wordAt_filled nul_notMem_word hword] at hread
    split_ifs at hread with hnine
    exact hnine
  have hsame : ∀ k word, (instruction.chars.splitOn ' ')[k]? = some word →
      wordAt (filled (instruction.chars.splitOn ' ')) k = .ok word := by
    intro k word hword
    rw [wordAt_filled nul_notMem_word hword, if_pos (hshort k word hword)]
  rw [hsize] at hreads hbelow
  have hlength := splitOn_length instruction
  have hbuffers := filled_length (instruction.chars.splitOn ' ') (by omega)
  constructor
  case few => exact hfew
  case short =>
    intro word hword
    obtain ⟨k, hk⟩ := List.mem_iff_getElem?.mp hword
    exact hshort k word hk
  case clauses =>
    exact (readsWords_iff_clauses (by omega) hsame _ 0 (Nat.le_refl _) (Nat.zero_le _)).mp
      ⟨reads, hreads, hbelow⟩

/-- The split stays in its buffers and `Handle` among the words exactly for the
instructions that fit. -/
theorem inBounds_iff_fits (instruction : Instruction) :
    InBounds instruction ↔ Fits instruction :=
  ⟨fits_of_inBounds, inBounds_of_fits⟩

theorem handleLoop_of_inBounds (hbounds : InBounds instruction) :
    (handleLoop (InstructionHandler.splitInstruction instruction.chars) .null []).isSome := by
  rw [splitInstruction_eq_splitOn, handleLoop_isSome_iff]
  exact (fits_of_inBounds hbounds).clauses

end Bounds

/-- `up move 5 and down walk 10 and left move 3` -/
def threeClauses : Instruction :=
  ⟨List.intercalate [' '] [UP, MOVE, ['5'], AND, DOWN, WALK, ['1', '0'], AND, LEFT, MOVE, ['3']],
    by decide⟩

/-- The eleventh word is written behind the last buffer. -/
theorem threeClauses_out_of_bounds :
    splitInstruction threeClauses = .error .outOfBounds ∧ ¬ InBounds threeClauses := by
  have hsplit : splitInstruction threeClauses = .error .outOfBounds := by decide
  refine ⟨hsplit, ?_⟩
  rintro ⟨buffers, size, words, reads, hok, -⟩
  rw [hsplit] at hok
  cases hok

end CppProj.InstructionBuffers
