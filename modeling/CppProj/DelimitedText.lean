import Mathlib.Data.List.Basic

/-!
# Texts cut at a delimiter by positions

The string functions behind a hand-written split: a search from a position on, the part
between two positions, and the position behind a delimiter.  A text of fields is the
fields with one delimiter between any two of them; `find_field` and `substr_field` say what
the functions give when the search starts at a field.
-/

universe u

namespace CppProj.DelimitedText

variable {α : Type u}

/-- The first position of the delimiter from `start` on. -/
def find [DecidableEq α] (text : List α) (delim : α) (start : ℕ) : Option ℕ :=
  ((text.drop start).idxOf? delim).map (start + ·)

/-- The characters from `start` up to `stop`, or up to the end of the text.  There are none
when `start` lies behind the text. -/
def substr (text : List α) (start : ℕ) (stop : Option ℕ) : Option (List α) :=
  if start ≤ text.length then
    match stop with
    | none => some (text.drop start)
    | some stop => some ((text.drop start).take (stop - start))
  else none

/-- One past the position found.  The position of nothing is the greatest number, and one
past it is zero. -/
def afterDelim : Option ℕ → ℕ
  | some stop => stop + 1
  | none => 0

def joinFields (delim : α) (fields : List (List α)) : List α :=
  [delim].intercalate fields

theorem joinFields_singleton (delim : α) (field : List α) :
    joinFields delim [field] = field :=
  List.intercalate_singleton

theorem joinFields_cons {delim : α} {fields : List (List α)} (hne : fields ≠ [])
    (field : List α) :
    joinFields delim (field :: fields) = field ++ delim :: joinFields delim fields := by
  rw [joinFields, List.intercalate_cons_of_ne_nil hne, List.append_assoc]
  rfl

theorem idxOf?_field [DecidableEq α] {delim : α} {field : List α}
    (hfree : delim ∉ field) (rest : List α) :
    (field ++ delim :: rest).idxOf? delim = some field.length := by
  induction field with
  | nil => simp [List.idxOf?_cons]
  | cons head field ih =>
      obtain ⟨hhead, htail⟩ := not_or.mp (fun h => hfree (List.mem_cons.mpr h))
      have hne : (head == delim) = false := by
        simpa using Ne.symm hhead
      simp [List.idxOf?_cons, hne, ih htail]

theorem find_field [DecidableEq α] {delim : α} {field : List α}
    (hfree : delim ∉ field) (before rest : List α) :
    find (before ++ (field ++ delim :: rest)) delim before.length =
      some (before.length + field.length) := by
  rw [find, List.drop_left, idxOf?_field hfree]
  rfl

theorem find_last_field [DecidableEq α] {delim : α} {field : List α}
    (hfree : delim ∉ field) (before : List α) :
    find (before ++ field) delim before.length = none := by
  rw [find, List.drop_left, List.idxOf?_eq_none_iff.mpr hfree]
  rfl

theorem substr_field (before field rest : List α) :
    substr (before ++ (field ++ rest)) before.length (some (before.length + field.length)) =
      some field := by
  have hwithin : before.length ≤ (before ++ (field ++ rest)).length := by
    rw [List.length_append]
    exact Nat.le_add_right _ _
  rw [substr, if_pos hwithin, Nat.add_sub_cancel_left, List.drop_left, List.take_left]

theorem substr_last_field (before field : List α) :
    substr (before ++ field) before.length none = some field := by
  have hwithin : before.length ≤ (before ++ field).length := by
    rw [List.length_append]
    exact Nat.le_add_right _ _
  rw [substr, if_pos hwithin, List.drop_left]

end CppProj.DelimitedText
