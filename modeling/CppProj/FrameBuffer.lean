import CppProj.OwnedBuffers
import Mathlib.Algebra.Ring.Nat

/-!
# Drawing into the frame buffer in `camDisplay.c`

`lcd_show_rgb` goes through the rows and pixels of an image, exchanges red and blue of each
pixel in place and copies its three bytes to the frame buffer, where a pixel has four.  The
inner loop counts the pixels of a row with `j` and tests `i`.

Both memories are lists of bytes, and their pointers are offsets in them.  Widths and
heights are not negative here.
-/

namespace CppProj.FrameBuffer

open OwnedBuffers

structure Memory where
  rgbdata : List UInt8
  frame : List UInt8
  deriving DecidableEq

/-- An image, and a display that has room for it. -/
structure Picture where
  lcd_w : ℕ
  lcd_h : ℕ
  w : ℕ
  h : ℕ
  memory : Memory
  w_le : w ≤ lcd_w
  h_le : h ≤ lcd_h
  rgbdata_length : memory.rgbdata.length = 3 * (w * h)
  frame_length : memory.frame.length = 4 * (lcd_w * lcd_h)

def int (value : ℕ) : Except Fault ℕ :=
  if value < 2 ^ 31 then .ok value else .error .overflow

def byte (bytes : List UInt8) (offset : ℕ) : Except Fault UInt8 :=
  match bytes[offset]? with
  | some value => .ok value
  | none => .error .outOfBounds

/-- `bytes[dst] ^= bytes[src]` -/
def xorAssign (bytes : List UInt8) (dst src : ℕ) : Except Fault (List UInt8) := do
  let left ← byte bytes dst
  let right ← byte bytes src
  .ok (bytes.set dst (left ^^^ right))

def memcpy (dst : List UInt8) (offset : ℕ) (src : List UInt8) (start count : ℕ) :
    Except Fault (List UInt8) :=
  if offset + count ≤ dst.length ∧ start + count ≤ src.length then
    .ok (dst.take offset ++ (src.drop start).take count ++ dst.drop (offset + count))
  else .error .outOfBounds

/-- The body of the inner loop.  `ptr` counts pixels and `rgbdata` bytes. -/
def showPixel (ptr rgbdata j : ℕ) (memory : Memory) : Except Fault Memory := do
  let red ← int (j * 3)
  let blue ← int (j * 3 + 2)
  let bytes ← xorAssign memory.rgbdata (rgbdata + red) (rgbdata + blue)
  let bytes ← xorAssign bytes (rgbdata + blue) (rgbdata + red)
  let bytes ← xorAssign bytes (rgbdata + red) (rgbdata + blue)
  let frame ← memcpy memory.frame (4 * (ptr + j)) bytes (rgbdata + red) 3
  .ok ⟨bytes, frame⟩

/-- `for (int j = 0; i < w; j++)`; `none` when the fuel is used up. -/
def pixelLoop (w i ptr rgbdata : ℕ) : ℕ → ℕ → Memory → Option (Except Fault Memory)
  | 0, _, _ => none
  | fuel + 1, j, memory =>
      if i < w then
        match showPixel ptr rgbdata j memory with
        | .ok memory => pixelLoop w i ptr rgbdata fuel (j + 1) memory
        | .error fault => some (.error fault)
      else some (.ok memory)

def rowLoop (lcd_w w h fuel : ℕ) : ℕ → ℕ → ℕ → ℕ → Memory → Option (Except Fault Memory)
  | 0, _, _, _, _ => none
  | rows + 1, i, ptr, rgbdata, memory =>
      if i < h then
        match pixelLoop w i ptr rgbdata fuel 0 memory with
        | some (.ok memory) =>
            match int (w * 3) with
            | .ok stride =>
                rowLoop lcd_w w h fuel rows (i + 1) (ptr + lcd_w) (rgbdata + stride) memory
            | .error fault => some (.error fault)
        | some (.error fault) => some (.error fault)
        | none => none
      else some (.ok memory)

def lcdShowRgb (picture : Picture) (fuel : ℕ) : Option (Except Fault Memory) :=
  rowLoop picture.lcd_w picture.w picture.h fuel fuel 0 0 0 picture.memory

/-- The function returns, and has drawn every pixel with red and blue exchanged, and
nothing else. -/
def DrawsFrame (picture : Picture) : Prop :=
  ∃ fuel after, lcdShowRgb picture fuel = some (.ok after) ∧
    after.rgbdata.length = picture.memory.rgbdata.length ∧
    after.frame.length = picture.memory.frame.length ∧
    (∀ i j byte, i < picture.h → j < picture.w → byte < 3 →
      after.frame[4 * (i * picture.lcd_w + j) + byte]? =
        picture.memory.rgbdata[3 * (i * picture.w + j) + (2 - byte)]?) ∧
    (∀ offset, (∀ i j byte, i < picture.h → j < picture.w → byte < 4 →
        offset ≠ 4 * (i * picture.lcd_w + j) + byte) →
      after.frame[offset]? = picture.memory.frame[offset]?)

/-! ## The loops -/

section Loops

variable {lcd_w w h i ptr rgbdata : ℕ}

/-- A loop that tests the number of its row ends at once or with a fault. -/
theorem pixelLoop_ne_ok (hrow : i < w) (fuel : ℕ) : ∀ (j : ℕ) (memory after : Memory),
    pixelLoop w i ptr rgbdata fuel j memory ≠ some (.ok after) := by
  induction fuel with
  | zero =>
      intro j memory after heq
      cases heq
  | succ fuel ih =>
      intro j memory after
      rw [pixelLoop, if_pos hrow]
      cases showPixel ptr rgbdata j memory with
      | ok next => exact ih (j + 1) next after
      | error fault =>
          intro heq
          cases heq

theorem rowLoop_ne_ok (hw : 0 < w) (hh : 0 < h) (fuel rows : ℕ) (memory after : Memory) :
    rowLoop lcd_w w h fuel rows 0 ptr rgbdata memory ≠ some (.ok after) := by
  intro heq
  cases rows with
  | zero => cases heq
  | succ rows =>
      rw [rowLoop, if_pos hh] at heq
      cases hpixels : pixelLoop w 0 ptr rgbdata fuel 0 memory with
      | none =>
          rw [hpixels] at heq
          cases heq
      | some result =>
          cases result with
          | ok next => exact pixelLoop_ne_ok hw fuel 0 memory next hpixels
          | error fault =>
              rw [hpixels] at heq
              cases heq

/-- Rows without pixels leave the memory alone. -/
theorem rowLoop_of_no_pixels (fuel rows : ℕ) (memory : Memory) : ∀ i ptr rgbdata,
    i ≤ h → h < i + rows →
      rowLoop lcd_w 0 h (fuel + 1) rows i ptr rgbdata memory = some (.ok memory) := by
  induction rows with
  | zero =>
      intro i ptr rgbdata hle hlt
      omega
  | succ rows ih =>
      intro i ptr rgbdata hle hlt
      rw [rowLoop]
      split_ifs with hrow
      · rw [show pixelLoop 0 i ptr rgbdata (fuel + 1) 0 memory = some (.ok memory) from rfl]
        exact ih (i + 1) (ptr + lcd_w) (rgbdata + 0) hrow (by omega)
      · rfl

theorem lt_length_of_byte {bytes : List UInt8} {offset : ℕ} {value : UInt8}
    (hbyte : byte bytes offset = .ok value) : offset < bytes.length := by
  unfold byte at hbyte
  by_contra hge
  rw [List.getElem?_eq_none (Nat.not_lt.mp hge)] at hbyte
  cases hbyte

theorem xorAssign_ok {bytes next : List UInt8} {dst src : ℕ}
    (hassign : xorAssign bytes dst src = .ok next) :
    src < bytes.length ∧ next.length = bytes.length := by
  obtain ⟨left, -, hassign⟩ := bind_eq_ok_iff.mp hassign
  obtain ⟨right, hright, hassign⟩ := bind_eq_ok_iff.mp hassign
  cases hassign
  exact ⟨lt_length_of_byte hright, List.length_set⟩

theorem int_eq_ok {value result : ℕ} (hint : int value = .ok result) : result = value := by
  unfold int at hint
  split_ifs at hint
  exact (Except.ok.inj hint).symm

/-- A pixel is shown only inside the image. -/
theorem showPixel_ok {j : ℕ} {memory after : Memory}
    (hshow : showPixel ptr rgbdata j memory = .ok after) :
    j < memory.rgbdata.length ∧ after.rgbdata.length = memory.rgbdata.length := by
  obtain ⟨red, -, hshow⟩ := bind_eq_ok_iff.mp hshow
  obtain ⟨blue, hblue, hshow⟩ := bind_eq_ok_iff.mp hshow
  obtain ⟨first, hfirst, hshow⟩ := bind_eq_ok_iff.mp hshow
  obtain ⟨second, hsecond, hshow⟩ := bind_eq_ok_iff.mp hshow
  obtain ⟨third, hthird, hshow⟩ := bind_eq_ok_iff.mp hshow
  obtain ⟨frame, -, hshow⟩ := bind_eq_ok_iff.mp hshow
  cases hshow
  have hindex := int_eq_ok hblue
  obtain ⟨hlt, hlength⟩ := xorAssign_ok hfirst
  refine ⟨by omega, ?_⟩
  rw [(xorAssign_ok hthird).2, (xorAssign_ok hsecond).2, hlength]

theorem pixelLoop_error (ptr rgbdata : ℕ) (hrow : i < w) (fuel : ℕ) : ∀ (j : ℕ) (memory : Memory),
    memory.rgbdata.length < j + fuel →
      ∃ fault, pixelLoop w i ptr rgbdata (fuel + 1) j memory = some (.error fault) := by
  induction fuel with
  | zero =>
      intro j memory hfuel
      rw [pixelLoop, if_pos hrow]
      cases hshow : showPixel ptr rgbdata j memory with
      | ok next => exact absurd (showPixel_ok hshow).1 (by omega)
      | error fault => exact ⟨fault, rfl⟩
  | succ fuel ih =>
      intro j memory hfuel
      rw [pixelLoop, if_pos hrow]
      cases hshow : showPixel ptr rgbdata j memory with
      | ok next => exact ih (j + 1) next (by rw [(showPixel_ok hshow).2]; omega)
      | error fault => exact ⟨fault, rfl⟩

end Loops

/-! ## When the frame is drawn -/

theorem lcdShowRgb_of_empty {picture : Picture} (hempty : picture.w = 0 ∨ picture.h = 0) :
    lcdShowRgb picture (picture.h + 1) = some (.ok picture.memory) := by
  unfold lcdShowRgb
  rcases hempty with hw | hh
  · rw [hw]
    exact rowLoop_of_no_pixels picture.h _ picture.memory 0 0 0 (Nat.zero_le _) (by omega)
  · rw [hh]
    rfl

/-- An image with a pixel is read beyond its end. -/
theorem lcdShowRgb_error {picture : Picture} (hw : 0 < picture.w) (hh : 0 < picture.h) :
    ∃ fuel fault, lcdShowRgb picture fuel = some (.error fault) := by
  obtain ⟨fault, hpixels⟩ := pixelLoop_error 0 0 hw (picture.memory.rgbdata.length + 1) 0
    picture.memory (by omega)
  refine ⟨picture.memory.rgbdata.length + 1 + 1, fault, ?_⟩
  rw [lcdShowRgb, rowLoop, if_pos hh, hpixels]

theorem drawsFrame_of_empty {picture : Picture} (hempty : picture.w = 0 ∨ picture.h = 0) :
    DrawsFrame picture := by
  refine ⟨_, _, lcdShowRgb_of_empty hempty, rfl, rfl, ?_, fun _ _ => rfl⟩
  intro i j byte hi hj
  omega

theorem not_drawsFrame {picture : Picture} (hw : 0 < picture.w) (hh : 0 < picture.h) :
    ¬ DrawsFrame picture := by
  rintro ⟨fuel, after, hrun, -⟩
  exact rowLoop_ne_ok hw hh fuel fuel picture.memory after hrun

/-- Only an image without pixels is drawn. -/
theorem drawsFrame_iff (picture : Picture) :
    DrawsFrame picture ↔ picture.w = 0 ∨ picture.h = 0 := by
  refine ⟨?_, drawsFrame_of_empty⟩
  intro hdraws
  by_contra hpixels
  exact not_drawsFrame (by omega) (by omega) hdraws

/-- One red pixel on a display of one pixel. -/
def onePixel : Picture := ⟨1, 1, 1, 1, ⟨[255, 0, 0], [0, 0, 0, 0]⟩, by decide, by decide, rfl, rfl⟩

theorem onePixel_read_beyond_end :
    lcdShowRgb onePixel 2 = some (.error .outOfBounds) ∧ ¬ DrawsFrame onePixel :=
  ⟨by decide, not_drawsFrame (by decide) (by decide)⟩

end CppProj.FrameBuffer
