import CppProj.BitFields
import Mathlib.Algebra.BigOperators.Group.List.Basic
import Mathlib.Tactic.Common

/-!
# Records of fixed-width fields in a byte buffer

A record is a list of fields, each given by its bytes.  It is copied into a
buffer field by field behind a cursor and read back by the widths of the fields.
An access outside the buffer has no result.  A number is the field of its bytes,
the least significant first.
-/

namespace FixedWidthRecords

open BitFields

abbrev Field := List UInt8

def toBytes : ℕ → ℕ → Field
  | 0, _ => []
  | width + 1, value => UInt8.ofNat value :: toBytes width (value / 256)

def size (fields : List Field) : ℕ :=
  (fields.map List.length).sum

structure Cursor where
  data : List UInt8
  position : ℕ
  deriving DecidableEq

/-- The buffer with these bytes from the position on. -/
def overwrite (data : List UInt8) (position : ℕ) (bytes : List UInt8) : List UInt8 :=
  data.take position ++ bytes ++ data.drop (position + bytes.length)

/-- Copy one field to the cursor and move behind it. -/
def put (field : Field) (cursor : Cursor) : Option Cursor :=
  if cursor.position + field.length ≤ cursor.data.length then
    some
      { data := overwrite cursor.data cursor.position field
        position := cursor.position + field.length }
  else none

def putAll : List Field → Cursor → Option Cursor
  | [], cursor => some cursor
  | field :: rest, cursor => (put field cursor).bind (putAll rest)

/-- Read one field at the cursor and move behind it. -/
def get (width : ℕ) (cursor : Cursor) : Option (Field × Cursor) :=
  if cursor.position + width ≤ cursor.data.length then
    some
      ((cursor.data.drop cursor.position).take width,
        { cursor with position := cursor.position + width })
  else none

def getAll : List ℕ → Cursor → Option (List Field)
  | [], _ => some []
  | width :: rest, cursor =>
      (get width cursor).bind fun (field, next) => (getAll rest next).map (field :: ·)

/-! ## Numbers -/

@[simp] theorem length_toBytes (width value : ℕ) : (toBytes width value).length = width := by
  induction width generalizing value with
  | zero => rfl
  | succ width ih => rw [toBytes, List.length_cons, ih]

theorem littleEndian_toBytes {width value : ℕ} (hfits : value < 256 ^ width) :
    littleEndian (toBytes width value) = value := by
  induction width generalizing value with
  | zero =>
      rw [pow_zero, Nat.lt_one_iff] at hfits
      rw [hfits]
      rfl
  | succ width ih =>
      have hquotient : value / 256 < 256 ^ width := by
        apply Nat.div_lt_of_lt_mul
        rw [← Nat.pow_succ']
        exact hfits
      rw [toBytes, littleEndian_cons, ih hquotient, UInt8.toNat_ofNat']
      exact Nat.div_add_mod value 256

/-! ## One field -/

theorem length_overwrite {data : List UInt8} {position : ℕ} {bytes : List UInt8}
    (hroom : position + bytes.length ≤ data.length) :
    (overwrite data position bytes).length = data.length := by
  simp only [overwrite, List.length_append, List.length_take, List.length_drop]
  omega

theorem take_overwrite {data : List UInt8} {position count : ℕ} {bytes : List UInt8}
    (hinside : position ≤ data.length) (hcount : count ≤ position) :
    (overwrite data position bytes).take count = data.take count := by
  have hlength : count ≤ (data.take position).length := by
    rw [List.length_take_of_le hinside]
    exact hcount
  rw [overwrite, List.append_assoc, List.take_append_of_le_length hlength, List.take_take,
    Nat.min_eq_left hcount]

theorem drop_overwrite {data : List UInt8} {position : ℕ} {bytes : List UInt8}
    (hinside : position ≤ data.length) :
    (overwrite data position bytes).drop position =
      bytes ++ data.drop (position + bytes.length) := by
  rw [overwrite, List.append_assoc]
  exact List.drop_left' (List.length_take_of_le hinside)

/-- Bytes copied behind others are one copy. -/
theorem overwrite_overwrite {data : List UInt8} {position : ℕ} {first second : List UInt8}
    (hroom : position + first.length ≤ data.length) :
    overwrite (overwrite data position first) (position + first.length) second =
      overwrite data position (first ++ second) := by
  have hprefix : (data.take position ++ first).length = position + first.length := by
    rw [List.length_append, List.length_take_of_le (by omega)]
  rw [overwrite, overwrite, overwrite, List.take_left' hprefix, ← List.drop_drop,
    List.drop_left' hprefix, List.drop_drop, List.length_append, ← Nat.add_assoc,
    List.append_assoc (data.take position)]

theorem put_of_room {field : Field} {data : List UInt8} {position : ℕ}
    (hroom : position + field.length ≤ data.length) :
    put field ⟨data, position⟩ =
      some ⟨overwrite data position field, position + field.length⟩ :=
  if_pos hroom

theorem put_of_no_room {field : Field} {data : List UInt8} {position : ℕ}
    (hroom : data.length < position + field.length) : put field ⟨data, position⟩ = none :=
  if_neg (Nat.not_le.mpr hroom)

theorem get_of_room {width position : ℕ} {data : List UInt8}
    (hroom : position + width ≤ data.length) :
    get width ⟨data, position⟩ =
      some ((data.drop position).take width, ⟨data, position + width⟩) :=
  if_pos hroom

/-! ## Records -/

@[simp] theorem size_nil : size [] = 0 := rfl

@[simp] theorem size_cons (field : Field) (rest : List Field) :
    size (field :: rest) = field.length + size rest := by
  simp [size]

theorem length_flatten (fields : List Field) : fields.flatten.length = size fields :=
  List.length_flatten

/-- A record that has room is copied to the cursor. -/
theorem putAll_of_room {fields : List Field} {data : List UInt8} {position : ℕ}
    (hroom : position + size fields ≤ data.length) :
    putAll fields ⟨data, position⟩ =
      some ⟨overwrite data position fields.flatten, position + size fields⟩ := by
  induction fields generalizing data position with
  | nil => simp [putAll, overwrite]
  | cons field rest ih =>
      rw [size_cons] at hroom
      have hfield : position + field.length ≤ data.length := by omega
      rw [putAll, put_of_room hfield, Option.bind_some,
        ih (by rw [length_overwrite hfield]; omega), overwrite_overwrite hfield, size_cons,
        List.flatten_cons, Nat.add_assoc]

theorem putAll_of_no_room {fields : List Field} {data : List UInt8} {position : ℕ}
    (hinside : position ≤ data.length) (hroom : data.length < position + size fields) :
    putAll fields ⟨data, position⟩ = none := by
  induction fields generalizing data position with
  | nil =>
      rw [size_nil] at hroom
      omega
  | cons field rest ih =>
      rw [size_cons] at hroom
      rw [putAll]
      by_cases hfield : position + field.length ≤ data.length
      · have hlength := length_overwrite hfield
        rw [put_of_room hfield, Option.bind_some]
        exact ih (by omega) (by omega)
      · rw [put_of_no_room (by omega), Option.bind_none]

/-- A record is read back from where its bytes stand. -/
theorem getAll_flatten (fields : List Field) (before after : List UInt8) :
    getAll (fields.map List.length) ⟨before ++ fields.flatten ++ after, before.length⟩ =
      some fields := by
  induction fields generalizing before with
  | nil => rfl
  | cons field rest ih =>
      have hread : ((before ++ (field :: rest).flatten ++ after).drop before.length).take
          field.length = field := by
        rw [List.append_assoc, List.drop_left, List.flatten_cons, List.append_assoc]
        exact List.take_left
      have hnext := ih (before ++ field)
      rw [List.length_append, List.append_assoc before, ← List.flatten_cons] at hnext
      have hroom : before.length + field.length ≤
          (before ++ (field :: rest).flatten ++ after).length := by
        simp only [List.flatten_cons, List.length_append]
        omega
      rw [List.map_cons, getAll, get_of_room hroom, Option.bind_some, hread]
      dsimp only
      rw [hnext]
      rfl

/-- What was copied to a position is read from there. -/
theorem getAll_overwrite (fields : List Field) {data : List UInt8} {position : ℕ}
    (hinside : position ≤ data.length) :
    getAll (fields.map List.length) ⟨overwrite data position fields.flatten, position⟩ =
      some fields := by
  have hread := getAll_flatten fields (data.take position)
    (data.drop (position + fields.flatten.length))
  rw [List.length_take_of_le hinside] at hread
  exact hread

end FixedWidthRecords
