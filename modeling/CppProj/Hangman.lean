import Mathlib.Algebra.Ring.Int.Defs
import Mathlib.Algebra.Ring.Nat
import Mathlib.Data.List.Dedup
import Mathlib.Data.List.Infix
import Mathlib.Data.List.Perm.Subperm
import Mathlib.Data.Int.Order.Basic
import Mathlib.Tactic.Common

/-!
# The word game of `hangman.cpp`

One round guesses a word letter by letter.  `attempt` shows the letters found so far, with
`-` at the other places, and `badchars` collects the letters that the word does not have.
The results of `find` pass through an `int`, in which `npos` is -1.

A character may be typed again, also a `-`, and the loop reads on only while it runs.  The
invariant `Judged` says what the four variables are for the characters read so far.
-/

namespace CppProj.Hangman

def dash : UInt8 := 45

def npos : ℕ := 2 ^ 64 - 1

def toInt (value : ℕ) : ℤ := Int.bmod value (2 ^ 32)

def toSize (value : ℤ) : ℕ := (value % 2 ^ 64).toNat

/-- A word to guess.  `main` keeps its length in an `int`. -/
structure Word where
  letters : List UInt8
  noDash : dash ∉ letters
  length_lt : letters.length < 2 ^ 31

def ofString (word : String) : List UInt8 := word.toList.map Char.toUInt8

def worldlist : List (List UInt8) :=
  ["apiary", "beetle", "cereal", "danger", "ensign", "florid", "garage", "health", "insult",
    "jackal", "keeper", "loaner", "manage", "nonce", "onset", "plaid", "quilt", "remote",
    "stolid", "train", "useful", "valid", "whence", "xenon", "yearn", "zippy"].map ofString

/-- `find` of a character, from a position on. -/
def find (text : List UInt8) (letter : UInt8) (pos : ℕ) : ℕ :=
  match (text.drop pos).findIdx? (· == letter) with
  | some k => pos + k
  | none => npos

/-- `text[loc] = letter`; a place that the text does not have is `none`. -/
def assign (text : List UInt8) (loc : ℤ) (letter : UInt8) : Option (List UInt8) :=
  if toSize loc < text.length then some (text.set (toSize loc) letter) else none

/-- The state of a round. -/
structure Round where
  attempt : List UInt8
  badchars : List UInt8
  guesses : ℤ
  deriving DecidableEq

section Rounds

variable (target : Word)

def start : Round where
  attempt := List.replicate target.letters.length dash
  badchars := []
  guesses := 6

def Round.Running (state : Round) : Prop :=
  0 < state.guesses ∧ state.attempt ≠ target.letters

instance (state : Round) : Decidable (state.Running target) :=
  inferInstanceAs (Decidable (_ ∧ _))

/-- The loop that looks for the letter again; `none` also when the fuel is used up. -/
def fillLoop (letter : UInt8) : ℕ → ℤ → List UInt8 → Option (List UInt8)
  | 0, _, _ => none
  | fuel + 1, loc, attempt =>
      if toSize loc = npos then some attempt
      else do
        let attempt ← assign attempt loc letter
        fillLoop letter fuel (toInt (find target.letters letter (toSize (loc + 1)))) attempt

/-- The body of the inner loop, for one character read. -/
def guess (state : Round) (letter : UInt8) : Option Round :=
  if find state.badchars letter 0 ≠ npos ∨ find state.attempt letter 0 ≠ npos then some state
  else
    let loc := toInt (find target.letters letter 0)
    if toSize loc = npos then
      some { state with guesses := state.guesses - 1, badchars := state.badchars ++ [letter] }
    else do
      let attempt ← assign state.attempt loc letter
      let loc := toInt (find target.letters letter (toSize (loc + 1)))
      let attempt ← fillLoop target letter (target.letters.length + 1) loc attempt
      some { state with attempt }

/-- The inner loop over what is typed, with the characters it leaves unread. -/
def play (state : Round) : List UInt8 → Option (Round × List UInt8)
  | [] => some (state, [])
  | letter :: typed =>
      if state.Running target then do
        let state ← guess target state letter
        play state typed
      else some (state, letter :: typed)

/-- The distinct wrong characters among those read. -/
def wrong (read : List UInt8) : List UInt8 :=
  (read.filter fun letter => letter ≠ dash ∧ letter ∉ target.letters).dedup

/-- Every letter of the word has been guessed, before six distinct wrong ones. -/
def Guessed (read : List UInt8) : Prop :=
  (∀ letter ∈ target.letters, letter ∈ read) ∧ (wrong target read).length < 6

/-- What the variables of a round are after the characters read. -/
structure Judged (read : List UInt8) (state : Round) : Prop where
  attempt_eq : state.attempt =
    target.letters.map fun letter => if letter ∈ read then letter else dash
  badchars_nodup : state.badchars.Nodup
  mem_badchars : ∀ letter, letter ∈ state.badchars ↔
    letter ∈ read ∧ letter ≠ dash ∧ letter ∉ target.letters
  badchars_le : state.badchars.length ≤ 6
  guesses_eq : state.guesses = 6 - state.badchars.length

end Rounds

/-- The words that the program picks from can all be played. -/
theorem exists_word_of_mem_worldlist :
    ∀ letters ∈ worldlist, ∃ target : Word, target.letters = letters := by
  have hwords : ∀ letters ∈ worldlist, dash ∉ letters ∧ letters.length < 2 ^ 31 := by decide
  intro letters hletters
  obtain ⟨hdash, hlength⟩ := hwords letters hletters
  exact ⟨⟨letters, hdash, hlength⟩, rfl⟩

/-! ## Positions in a text -/

theorem toInt_of_lt {value : ℕ} (hvalue : value < 2 ^ 31) : toInt value = value := by
  unfold toInt
  exact Int.bmod_eq_of_le (by omega) (by omega)

theorem toSize_natCast {value : ℕ} (hvalue : value < 2 ^ 64) : toSize value = value := by
  unfold toSize
  omega

theorem toSize_toInt {value : ℕ} (hvalue : value < 2 ^ 31) : toSize (toInt value) = value := by
  rw [toInt_of_lt hvalue, toSize_natCast (by omega)]

theorem toSize_toInt_add_one {value : ℕ} (hvalue : value < 2 ^ 31) :
    toSize (toInt value + 1) = value + 1 := by
  rw [toInt_of_lt hvalue]
  have hnext : value + 1 < 2 ^ 64 := by omega
  exact toSize_natCast hnext

theorem toSize_toInt_npos : toSize (toInt npos) = npos := by decide

section Searches

variable (text : List UInt8) (letter : UInt8) (pos : ℕ)

/-- Either the character is not there any more, or its next place is found. -/
theorem find_cases :
    (find text letter pos = npos ∧ ∀ i, pos ≤ i → text[i]? ≠ some letter) ∨
      ∃ loc, find text letter pos = loc ∧ pos ≤ loc ∧ loc < text.length ∧
        text[loc]? = some letter ∧ ∀ i, pos ≤ i → i < loc → text[i]? ≠ some letter := by
  cases hfind : (text.drop pos).findIdx? (· == letter) with
  | none =>
      refine Or.inl ⟨by simp [find, hfind], ?_⟩
      intro i hi hletter
      rw [List.findIdx?_eq_none_iff] at hfind
      have hmem : letter ∈ text.drop pos := by
        apply List.mem_of_getElem? (i := i - pos)
        rw [List.getElem?_drop, Nat.add_sub_cancel' hi, hletter]
      simpa using hfind letter hmem
  | some k =>
      obtain ⟨hk, hletter, hbefore⟩ := List.findIdx?_eq_some_iff_getElem.mp hfind
      rw [List.length_drop] at hk
      rw [List.getElem_drop, beq_iff_eq] at hletter
      refine Or.inr ⟨pos + k, by simp [find, hfind], by omega, by omega, ?_, ?_⟩
      · rw [List.getElem?_eq_getElem (by omega), hletter]
      · intro i hi hik hsome
        have hne := hbefore (i - pos) (by omega)
        rw [List.getElem_drop, beq_iff_eq] at hne
        apply hne
        rw [List.getElem?_eq_getElem (by omega), Option.some.injEq] at hsome
        simpa [Nat.add_sub_cancel' hi] using hsome

theorem find_zero_eq_npos_iff {text : List UInt8} {letter : UInt8} (hlength : text.length < npos) :
    find text letter 0 = npos ↔ letter ∉ text := by
  rcases find_cases text letter 0 with
    ⟨hfind, hnone⟩ | ⟨loc, hfind, -, hloc, hletter, -⟩
  · refine iff_of_true hfind ?_
    intro hmem
    obtain ⟨i, hi⟩ := List.mem_iff_getElem?.mp hmem
    exact hnone i (Nat.zero_le i) hi
  · refine iff_of_false (by omega) ?_
    exact not_not_intro (List.mem_of_getElem? hletter)

end Searches

/-! ## Filling in a letter -/

section Filling

variable {target : Word} {letter : UInt8}

theorem fillLoop_succ {loc : ℕ} (fuel : ℕ) (attempt : List UInt8) (hloc : loc < 2 ^ 31) :
    fillLoop target letter (fuel + 1) (toInt loc) attempt =
      (assign attempt (toInt loc) letter).bind
        (fillLoop target letter fuel (toInt (find target.letters letter (loc + 1)))) := by
  have hne : loc ≠ npos := by
    simp only [npos]
    omega
  rw [fillLoop, toSize_toInt hloc, toSize_toInt_add_one hloc, if_neg hne]
  rfl

/-- From a position on, every place of the letter is filled in. -/
theorem fillLoop_spec (letter : UInt8) (fuel : ℕ) :
    ∀ (pos : ℕ) (attempt : List UInt8), pos ≤ target.letters.length →
      target.letters.length - pos < fuel → attempt.length = target.letters.length →
      ∃ filled, fillLoop target letter fuel (toInt (find target.letters letter pos)) attempt =
          some filled ∧
        ∀ i, filled[i]? =
          if pos ≤ i ∧ target.letters[i]? = some letter then some letter else attempt[i]? := by
  induction fuel with
  | zero =>
      intro pos attempt hpos hfuel hlength
      omega
  | succ fuel ih =>
      intro pos attempt hpos hfuel hlength
      have hbound := target.length_lt
      rcases find_cases target.letters letter pos with
        ⟨hfind, hnone⟩ | ⟨loc, hfind, hle, hloc, hletter, hbefore⟩
      · refine ⟨attempt, ?_, ?_⟩
        · simp [fillLoop, hfind, toSize_toInt_npos]
        · intro i
          rw [if_neg]
          rintro ⟨hi, hsome⟩
          exact hnone i hi hsome
      · obtain ⟨filled, hrun, hfilled⟩ := ih (loc + 1) (attempt.set loc letter) (by omega)
          (by omega) (by rw [List.length_set, hlength])
        refine ⟨filled, ?_, ?_⟩
        · have hassign : assign attempt (toInt loc) letter = some (attempt.set loc letter) := by
            rw [assign, toSize_toInt (by omega), if_pos (by omega)]
          rw [hfind, fillLoop_succ fuel attempt (by omega), hassign, Option.bind_some, hrun]
        · intro i
          rw [hfilled i]
          rcases lt_trichotomy i loc with hlt | rfl | hgt
          · rw [if_neg (by omega), List.getElem?_set_ne (by omega)]
            by_cases hi : pos ≤ i
            · rw [if_neg (by simp [hbefore i hi hlt])]
            · rw [if_neg (by simp [hi])]
          · rw [if_neg (by omega), List.getElem?_set_self (by omega), if_pos ⟨hle, hletter⟩]
          · rw [List.getElem?_set_ne (by omega)]
            have hiff : loc + 1 ≤ i ↔ pos ≤ i := by omega
            simp only [hiff]

end Filling

/-! ## One guess -/

section Guesses

variable {target : Word} {read : List UInt8} {state : Round} {letter : UInt8}

theorem Judged.attempt_length (hjudged : Judged target read state) :
    state.attempt.length = target.letters.length := by
  rw [hjudged.attempt_eq, List.length_map]

theorem Judged.mem_attempt_iff (hjudged : Judged target read state) (hletter : letter ≠ dash) :
    letter ∈ state.attempt ↔ letter ∈ target.letters ∧ letter ∈ read := by
  rw [hjudged.attempt_eq, List.mem_map]
  constructor
  · rintro ⟨other, hother, heq⟩
    split at heq
    case isTrue hread => exact ⟨heq ▸ hother, heq ▸ hread⟩
    case isFalse => exact absurd heq.symm hletter
  · rintro ⟨htarget, hread⟩
    exact ⟨letter, htarget, if_pos hread⟩

theorem Judged.attempt_eq_target_iff (hjudged : Judged target read state) :
    state.attempt = target.letters ↔ ∀ letter ∈ target.letters, letter ∈ read := by
  rw [hjudged.attempt_eq]
  nth_rewrite 2 [← List.map_id target.letters]
  rw [List.map_inj_left]
  refine forall₂_congr fun other hother => ?_
  have hdash : other ≠ dash := fun heq => target.noDash (heq ▸ hother)
  by_cases hread : other ∈ read <;> simp [hread, hdash.symm]

/-- While a letter is missing there is a `-` to be found. -/
theorem Judged.dash_mem_attempt (hjudged : Judged target read state)
    (hrunning : state.Running target) : dash ∈ state.attempt := by
  have hmissing := hrunning.2
  rw [Ne, hjudged.attempt_eq_target_iff] at hmissing
  push Not at hmissing
  obtain ⟨other, hother, hread⟩ := hmissing
  rw [hjudged.attempt_eq, List.mem_map]
  exact ⟨other, hother, if_neg hread⟩

theorem Judged.wrong_length (hjudged : Judged target read state) :
    (wrong target read).length = state.badchars.length := by
  apply List.Perm.length_eq
  rw [wrong, List.perm_ext_iff_of_nodup (List.nodup_dedup _) hjudged.badchars_nodup]
  intro letter
  simp [hjudged.mem_badchars letter]

theorem Judged.guessed_iff (hjudged : Judged target read state) :
    Guessed target read ↔ state.attempt = target.letters ∧ 0 < state.guesses := by
  rw [Guessed, hjudged.wrong_length, hjudged.attempt_eq_target_iff, hjudged.guesses_eq]
  refine and_congr_right fun _ => ?_
  omega

theorem judged_start (target : Word) : Judged target [] (start target) := by
  constructor
  case attempt_eq => simp [start, List.map_const']
  case badchars_nodup => exact List.nodup_nil
  case mem_badchars => simp [start]
  case badchars_le => simp [start]
  case guesses_eq => rfl

/-- The test of the loop: the character is a bad one, found, or a `-`. -/
theorem Judged.test_iff (hjudged : Judged target read state) :
    (find state.badchars letter 0 ≠ npos ∨ find state.attempt letter 0 ≠ npos) ↔
      letter ∈ state.badchars ∨ letter ∈ state.attempt := by
  have hbound := target.length_lt
  have hbad := hjudged.badchars_le
  have hattempt := hjudged.attempt_length
  rw [Ne, Ne, find_zero_eq_npos_iff (by simp only [npos]; omega),
    find_zero_eq_npos_iff (by simp only [npos]; omega), not_not, not_not]

theorem guess_of_mem (hjudged : Judged target read state)
    (hmem : letter ∈ state.badchars ∨ letter ∈ state.attempt) :
    guess target state letter = some state := by
  rw [guess, if_pos (hjudged.test_iff.mpr hmem)]

/-- A character judged already, and a `-`, is in one of the two strings. -/
theorem Judged.mem_of_read (hjudged : Judged target read state)
    (hrunning : state.Running target) (hletter : letter ∈ read ∨ letter = dash) :
    letter ∈ state.badchars ∨ letter ∈ state.attempt := by
  by_cases hdash : letter = dash
  · exact Or.inr (hdash ▸ hjudged.dash_mem_attempt hrunning)
  · have hread := hletter.resolve_right hdash
    rw [hjudged.mem_badchars, hjudged.mem_attempt_iff hdash]
    by_cases htarget : letter ∈ target.letters
    · exact Or.inr ⟨htarget, hread⟩
    · exact Or.inl ⟨hread, hdash, htarget⟩

theorem guess_bad (hjudged : Judged target read state) (hnew : letter ∉ state.badchars)
    (hattempt : letter ∉ state.attempt) (htarget : letter ∉ target.letters) :
    guess target state letter = some { state with
      guesses := state.guesses - 1, badchars := state.badchars ++ [letter] } := by
  have hbound := target.length_lt
  have hfind : find target.letters letter 0 = npos :=
    (find_zero_eq_npos_iff (by simp only [npos]; omega)).mpr htarget
  rw [guess, if_neg (by rw [hjudged.test_iff]; exact not_or_intro hnew hattempt), hfind]
  rw [if_pos toSize_toInt_npos]

theorem guess_good (hjudged : Judged target read state) (hnew : letter ∉ state.badchars)
    (hattempt : letter ∉ state.attempt) (htarget : letter ∈ target.letters) :
    ∃ filled : List UInt8, guess target state letter = some { state with attempt := filled } ∧
      ∀ i : ℕ, filled[i]? =
        if target.letters[i]? = some letter then some letter else state.attempt[i]? := by
  have hbound := target.length_lt
  obtain ⟨filled, hfill, hfilled⟩ := fillLoop_spec letter
    (target.letters.length + 1 + 1) 0 state.attempt (Nat.zero_le _) (by omega)
    hjudged.attempt_length
  refine ⟨filled, ?_, by simpa using hfilled⟩
  have hfind : find target.letters letter 0 ≠ npos := by
    rw [Ne, find_zero_eq_npos_iff (by simp only [npos]; omega)]
    exact not_not_intro htarget
  rcases find_cases target.letters letter 0 with
    ⟨hnone, -⟩ | ⟨loc, hloc, -, hlt, -⟩
  · exact absurd hnone hfind
  · have hne : loc ≠ npos := by
      rw [← hloc]
      exact hfind
    have hsmall : loc < 2 ^ 31 := lt_trans hlt hbound
    have hsize := toSize_toInt hsmall
    have hnext := toSize_toInt_add_one hsmall
    have htest := mt hjudged.test_iff.mp (not_or_intro hnew hattempt)
    rw [hloc, fillLoop_succ _ _ hsmall, Option.bind_eq_some_iff] at hfill
    obtain ⟨attempt, hassign, hrun⟩ := hfill
    rw [guess, if_neg htest, hloc]
    dsimp only
    rw [hsize, hnext, if_neg hne, hassign, Option.bind_eq_bind, Option.bind_some, hrun]
    rfl

/-- Reading a `-`, or a character a second time, is reading nothing new. -/
theorem Judged.of_read_iff {again : List UInt8} (hjudged : Judged target read state)
    (hread : ∀ other, other ≠ dash → (other ∈ again ↔ other ∈ read)) :
    Judged target again state := by
  constructor
  case attempt_eq =>
    rw [hjudged.attempt_eq]
    apply List.map_congr_left
    intro other hother
    have hdash : other ≠ dash := fun heq => target.noDash (heq ▸ hother)
    simp only [hread other hdash]
  case badchars_nodup => exact hjudged.badchars_nodup
  case mem_badchars =>
    intro other
    rw [hjudged.mem_badchars]
    by_cases hdash : other = dash
    · simp [hdash]
    · rw [hread other hdash]
  case badchars_le => exact hjudged.badchars_le
  case guesses_eq => exact hjudged.guesses_eq

theorem Judged.again (hjudged : Judged target read state)
    (hmem : letter ∈ state.badchars ∨ letter ∈ state.attempt) :
    Judged target (read ++ [letter]) state := by
  apply hjudged.of_read_iff
  intro other hdash
  rw [List.mem_append, List.mem_singleton]
  refine ⟨?_, Or.inl⟩
  rintro (hread | rfl)
  · exact hread
  · rcases hmem with hbad | hattempt
    · exact ((hjudged.mem_badchars other).mp hbad).1
    · exact ((hjudged.mem_attempt_iff hdash).mp hattempt).2

theorem Judged.bad (hjudged : Judged target read state) (hrunning : state.Running target)
    (hnew : letter ∉ state.badchars) (hdash : letter ≠ dash) (htarget : letter ∉ target.letters) :
    Judged target (read ++ [letter]) { state with
      guesses := state.guesses - 1, badchars := state.badchars ++ [letter] } := by
  have hguesses := hjudged.guesses_eq
  have hpositive := hrunning.1
  constructor
  case attempt_eq =>
    rw [hjudged.attempt_eq]
    apply List.map_congr_left
    intro other hother
    have hne : other ≠ letter := fun heq => htarget (heq ▸ hother)
    simp [hne]
  case badchars_nodup =>
    rw [← List.concat_eq_append]
    exact hjudged.badchars_nodup.concat hnew
  case mem_badchars =>
    intro other
    rw [List.mem_append, List.mem_append, hjudged.mem_badchars, List.mem_singleton]
    constructor
    · rintro (⟨hread, hother⟩ | rfl)
      · exact ⟨Or.inl hread, hother⟩
      · exact ⟨Or.inr rfl, hdash, htarget⟩
    · rintro ⟨hread | heq, hother⟩
      · exact Or.inl ⟨hread, hother⟩
      · exact Or.inr heq
  case badchars_le =>
    rw [List.length_append, List.length_singleton]
    omega
  case guesses_eq =>
    rw [List.length_append, List.length_singleton]
    push_cast
    omega

theorem Judged.good {filled : List UInt8} (hjudged : Judged target read state)
    (htarget : letter ∈ target.letters)
    (hfilled : ∀ i : ℕ, filled[i]? =
      if target.letters[i]? = some letter then some letter else state.attempt[i]?) :
    Judged target (read ++ [letter]) { state with attempt := filled } := by
  constructor
  case attempt_eq =>
    apply List.ext_getElem?
    intro i
    rw [hfilled i, hjudged.attempt_eq, List.getElem?_map, List.getElem?_map]
    cases hi : target.letters[i]? with
    | none => simp
    | some other =>
        by_cases heq : other = letter
        · simp [heq]
        · simp [heq]
  case badchars_nodup => exact hjudged.badchars_nodup
  case mem_badchars =>
    intro other
    rw [hjudged.mem_badchars, List.mem_append, List.mem_singleton]
    constructor
    · rintro ⟨hread, hother⟩
      exact ⟨Or.inl hread, hother⟩
    · rintro ⟨hread | rfl, hdash, hother⟩
      · exact ⟨hread, hdash, hother⟩
      · exact absurd htarget hother
  case badchars_le => exact hjudged.badchars_le
  case guesses_eq => exact hjudged.guesses_eq

/-- One character read by the running loop. -/
theorem Judged.guess (hjudged : Judged target read state) (hrunning : state.Running target)
    (letter : UInt8) :
    ∃ next, guess target state letter = some next ∧ Judged target (read ++ [letter]) next := by
  by_cases hmem : letter ∈ state.badchars ∨ letter ∈ state.attempt
  · exact ⟨state, guess_of_mem hjudged hmem, hjudged.again hmem⟩
  · have hdash : letter ≠ dash :=
      fun heq => hmem (hjudged.mem_of_read hrunning (Or.inr heq))
    obtain ⟨hnew, hattempt⟩ := not_or.mp hmem
    by_cases htarget : letter ∈ target.letters
    · obtain ⟨filled, hguess, hfilled⟩ := guess_good hjudged hnew hattempt htarget
      exact ⟨_, hguess, hjudged.good htarget hfilled⟩
    · exact ⟨_, guess_bad hjudged hnew hattempt htarget,
        hjudged.bad hrunning hnew hdash htarget⟩

end Guesses

/-! ## Whole rounds -/

section Rounds

variable {target : Word} {before : List UInt8} {state : Round}

theorem Judged.guessed_iff_of_running (hjudged : Judged target before state)
    (hrunning : state.Running target) : ¬ Guessed target before := by
  rw [hjudged.guessed_iff]
  exact fun hguessed => hrunning.2 hguessed.1

theorem wrong_length_le_append (target : Word) (before read : List UInt8) :
    (wrong target before).length ≤ (wrong target (before ++ read)).length := by
  apply List.Subperm.length_le
  apply (List.nodup_dedup _).subperm
  intro letter
  simp only [wrong, List.mem_dedup, List.mem_filter, List.mem_append]
  exact fun hletter => ⟨Or.inl hletter.1, hletter.2⟩

/-- A round that has stopped is won exactly when the word was complete in time. -/
theorem Judged.won_iff_of_stopped (hjudged : Judged target before state)
    (hstopped : ¬ state.Running target) (typed : List UInt8) :
    (¬ state.Running target ∧ 0 < state.guesses) ↔
      ∃ guessed, guessed <+: typed ∧ Guessed target (before ++ guessed) := by
  constructor
  · rintro ⟨-, hpositive⟩
    have hattempt : state.attempt = target.letters := by
      by_contra hne
      exact hstopped ⟨hpositive, hne⟩
    refine ⟨[], List.nil_prefix, ?_⟩
    rw [List.append_nil, hjudged.guessed_iff]
    exact ⟨hattempt, hpositive⟩
  · rintro ⟨guessed, -, -, hfew⟩
    have hle := wrong_length_le_append target before guessed
    rw [hjudged.wrong_length] at hle
    have hguesses := hjudged.guesses_eq
    exact ⟨hstopped, by omega⟩

/-- A running round is won only by what is still typed. -/
theorem Judged.won_cons_iff (hjudged : Judged target before state)
    (hrunning : state.Running target) (letter : UInt8) (typed : List UInt8) :
    (∃ guessed, guessed <+: letter :: typed ∧ Guessed target (before ++ guessed)) ↔
      ∃ guessed, guessed <+: typed ∧ Guessed target (before ++ [letter] ++ guessed) := by
  simp only [List.append_assoc, List.singleton_append]
  constructor
  · rintro ⟨guessed, hprefix, hguessed⟩
    cases guessed with
    | nil =>
        rw [List.append_nil] at hguessed
        exact absurd hguessed (hjudged.guessed_iff_of_running hrunning)
    | cons other guessed =>
        obtain ⟨rfl, hrest⟩ := List.cons_prefix_cons.mp hprefix
        exact ⟨guessed, hrest, hguessed⟩
  · rintro ⟨guessed, hprefix, hguessed⟩
    exact ⟨letter :: guessed, List.cons_prefix_cons.mpr ⟨rfl, hprefix⟩, hguessed⟩

theorem play_spec (typed : List UInt8) :
    ∀ (before : List UInt8) (state : Round), Judged target before state →
      ∃ read unread final, typed = read ++ unread ∧
        play target state typed = some (final, unread) ∧
        (unread ≠ [] → ¬ final.Running target) ∧
        Judged target (before ++ read) final ∧
        ((¬ final.Running target ∧ 0 < final.guesses) ↔
          ∃ guessed, guessed <+: typed ∧ Guessed target (before ++ guessed)) := by
  induction typed with
  | nil =>
      intro before state hjudged
      refine ⟨[], [], state, rfl, rfl, by simp, by simpa using hjudged, ?_⟩
      simp only [List.prefix_nil, exists_eq_left, List.append_nil, hjudged.guessed_iff,
        Round.Running]
      tauto
  | cons letter typed ih =>
      intro before state hjudged
      by_cases hrunning : state.Running target
      · obtain ⟨next, hguess, hnext⟩ := hjudged.guess hrunning letter
        obtain ⟨read, unread, final, rfl, hplay, hstop, hfinal, hwon⟩ := ih _ next hnext
        refine ⟨letter :: read, unread, final, rfl, ?_, hstop, by simpa using hfinal, ?_⟩
        · simp [play, hrunning, hguess, hplay]
        · rw [hwon, hjudged.won_cons_iff hrunning]
      · exact ⟨[], letter :: typed, state, rfl, by simp [play, hrunning], fun _ => hrunning,
          by simpa using hjudged, hjudged.won_iff_of_stopped hrunning _⟩

/-- Over any word and anything typed, the round is what has been read of it: letters
found, wrong characters and guesses left, and it is won when the word is complete before
the sixth wrong character. -/
theorem round_of_typed (target : Word) (typed : List UInt8) :
    ∃ read unread state, typed = read ++ unread ∧
      play target (start target) typed = some (state, unread) ∧
      (unread ≠ [] → ¬ state.Running target) ∧
      Judged target read state ∧
      (∀ letter ∈ read, state.Running target → guess target state letter = some state) ∧
      ((¬ state.Running target ∧ 0 < state.guesses) ↔
        ∃ guessed, guessed <+: typed ∧ Guessed target guessed) := by
  obtain ⟨read, unread, state, htyped, hplay, hstop, hjudged, hwon⟩ :=
    play_spec typed [] (start target) (judged_start target)
  refine ⟨read, unread, state, htyped, hplay, hstop, hjudged, ?_, hwon⟩
  intro letter hread hrunning
  exact guess_of_mem hjudged (hjudged.mem_of_read hrunning (Or.inl hread))

end Rounds

end CppProj.Hangman
