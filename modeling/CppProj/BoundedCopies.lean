import CppProj.OwnedBuffers

/-!
# Bounded copies of terminated strings

`strncpy` and `memset` of the C library, for characters of any type.  The copy reads the
source up to its terminator or up to the bound, pads with the terminator, and writes no
terminator of its own when the string is as long as the bound.
-/

universe u

namespace BoundedCopies

open OwnedBuffers

variable {α : Type u}

def memset (dst : Cells α) (value : α) (count : ℕ) : Except Fault (Cells α) :=
  if dst.length < count then .error .outOfBounds
  else .ok (List.replicate count (some value) ++ dst.drop count)

theorem memset_eq {dst : Cells α} {count : ℕ} (hdst : count ≤ dst.length) (value : α) :
    memset dst value count = .ok (List.replicate count (some value) ++ dst.drop count) :=
  if_neg (by omega)

variable [DecidableEq α] (nul : α)

/-- The characters before the terminator, at most so many. -/
def readString : ℕ → Cells α → Except Fault (List α)
  | 0, _ => .ok []
  | _ + 1, [] => .error .outOfBounds
  | _ + 1, none :: _ => .error .indeterminate
  | count + 1, some char :: rest =>
      if char = nul then .ok []
      else do
        let text ← readString count rest
        .ok (char :: text)

def strncpy (dst src : Cells α) (count : ℕ) : Except Fault (Cells α) := do
  let text ← readString nul count src
  if dst.length < count then .error .outOfBounds
  else .ok (text.map some ++
    (List.replicate (count - text.length) (some nul) ++ dst.drop count))

variable {nul}

/-- The terminator has to be there only when the string is shorter than the bound. -/
theorem readString_append {text : List α} (hnul : nul ∉ text) (count : ℕ) {rest : Cells α}
    (hrest : text.length < count → rest.head? = some (some nul)) :
    readString nul count (text.map some ++ rest) = .ok (text.take count) := by
  induction count generalizing text with
  | zero => rfl
  | succ count ih =>
      cases text with
      | nil =>
          obtain ⟨tail, rfl⟩ := List.head?_eq_some_iff.mp (hrest (Nat.succ_pos count))
          simp [readString]
      | cons char text =>
          obtain ⟨hchar, htext⟩ := List.ne_and_not_mem_of_not_mem_cons hnul
          have hread := ih htext fun hlt => hrest (Nat.succ_lt_succ hlt)
          simp [readString, hchar.symm, hread]

theorem strncpy_append {text : List α} (hnul : nul ∉ text) {count : ℕ} {dst rest : Cells α}
    (hrest : text.length < count → rest.head? = some (some nul)) (hdst : count ≤ dst.length) :
    strncpy nul dst (text.map some ++ rest) count =
      .ok ((text.take count).map some ++
        (List.replicate (count - (text.take count).length) (some nul) ++ dst.drop count)) := by
  rw [strncpy, readString_append hnul count hrest, ok_bind, if_neg (by omega)]

end BoundedCopies
