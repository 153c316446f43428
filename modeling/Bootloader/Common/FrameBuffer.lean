/-
Bootloader.Common.FrameBuffer — the text writer the logger draws with
(`common/src/framebuffer.rs`: `FrameBufferWriter`).

The writer keeps a cursor `(x_pos, y_pos)` in pixels. A printable character
first starts a new line when its raster would reach the right edge. It then
clears the screen when the line would reach the bottom edge. Last, it draws
its raster pixel by pixel from the cursor and moves the cursor right. `'\n'`
moves the cursor one line down and back to the left edge, with no check;
`'\r'` only moves it back.

The rasters come from the `noto_sans_mono_bitmap` crate, which is not part of
the repository. `Font` stands for it: its fields are `CHAR_RASTER_WIDTH` and
the raster of each character, and the shape the writer relies on, namely
`CHAR_RASTER_HEIGHT` rows of `CHAR_RASTER_WIDTH` intensities. Cursor
positions are naturals. `y_pos` grows by 18 per `'\n'`, so the overflow check
that would stop it at `2^64` is left out.

* `renderPosition_bounds`: whatever the cursor, the two checks leave room for
  a whole raster.
* `writeChar_ok`: on a frame buffer its info describes (`Fits`) and that is
  large enough for its info (`Supported`), `write_char` never panics and the
  writer still fits. From it, by induction over the text, the same holds for
  any sequence of `write_str` calls.
* `writeStr_pixels_in_bounds`: so from `FrameBufferWriter::new`, every
  sequence of strings is written without a panic, and every pixel drawn lies
  inside the screen.
-/
import Bootloader.Api.Info
import Bootloader.X86.Addr
import Bootloader.Lib.Except

namespace Bootloader

/-- `LINE_SPACING`. -/
def LINE_SPACING : Nat := 2

/-- `LETTER_SPACING`. -/
def LETTER_SPACING : Nat := 0

/-- `BORDER_PADDING`. -/
def BORDER_PADDING : Nat := 1

/-- `CHAR_RASTER_HEIGHT.val()`, of `RasterHeight::Size16`. -/
def CHAR_RASTER_HEIGHT : Nat := 16

/-- `RasterizedChar`: rows of intensities, and the raster's width. -/
structure RasterizedChar where
  raster : List (List UInt8)
  width : Nat

/-- `get_char_raster` at `FONT_WEIGHT` and `CHAR_RASTER_HEIGHT`, with
`CHAR_RASTER_WIDTH`: every raster has `CHAR_RASTER_HEIGHT` rows of
`CHAR_RASTER_WIDTH` intensities. -/
structure Font where
  charRasterWidth : Nat
  getCharRaster : Char → RasterizedChar
  length_raster : ∀ c, (getCharRaster c).raster.length = CHAR_RASTER_HEIGHT
  length_row : ∀ c, ∀ row ∈ (getCharRaster c).raster, row.length = charRasterWidth

/-- `FrameBufferWriter`. -/
structure FrameBufferWriter where
  framebuffer : List UInt8
  info : FrameBufferInfo
  xPos : Nat
  yPos : Nat

namespace FrameBufferWriter

/-- `clear`: the cursor to the top left corner, the frame buffer to black. -/
def clear (self : FrameBufferWriter) : FrameBufferWriter :=
  { self with xPos := BORDER_PADDING, yPos := BORDER_PADDING,
              framebuffer := List.replicate self.framebuffer.length 0 }

/-- `FrameBufferWriter::new`. -/
def new (framebuffer : List UInt8) (info : FrameBufferInfo) : FrameBufferWriter :=
  clear ⟨framebuffer, info, 0, 0⟩

/-- `carriage_return`. -/
def carriageReturn (self : FrameBufferWriter) : FrameBufferWriter :=
  { self with xPos := BORDER_PADDING }

/-- `newline`. -/
def newline (self : FrameBufferWriter) : FrameBufferWriter :=
  carriageReturn { self with yPos := self.yPos + (CHAR_RASTER_HEIGHT + LINE_SPACING) }

@[simp] theorem clear_xPos (self : FrameBufferWriter) : self.clear.xPos = BORDER_PADDING := rfl
@[simp] theorem clear_yPos (self : FrameBufferWriter) : self.clear.yPos = BORDER_PADDING := rfl
@[simp] theorem clear_info (self : FrameBufferWriter) : self.clear.info = self.info := rfl
@[simp] theorem newline_xPos (self : FrameBufferWriter) : self.newline.xPos = BORDER_PADDING := rfl
@[simp] theorem newline_yPos (self : FrameBufferWriter) :
    self.newline.yPos = self.yPos + (CHAR_RASTER_HEIGHT + LINE_SPACING) := rfl
@[simp] theorem newline_info (self : FrameBufferWriter) : self.newline.info = self.info := rfl

/-- `width`. -/
def width (self : FrameBufferWriter) : Nat := self.info.width

/-- `height`. -/
def height (self : FrameBufferWriter) : Nat := self.info.height

/-- The `color` of `write_pixel`: four bytes in the three formats the logger
supports, an explicit panic in any other. -/
def pixelColor (pixelFormat : PixelFormat) (intensity : UInt8) : Except Panic (List UInt8) :=
  match pixelFormat with
  | .rgb => .ok [intensity, intensity, intensity / 2, 0]
  | .bgr => .ok [intensity / 2, intensity, intensity, 0]
  | .u8 => .ok [if intensity > 200 then 0xf else 0, 0, 0, 0]
  | .unknown .. => .error .explicit

/-- `write_pixel`: the first `bytes_per_pixel` bytes of the colour at the
pixel's offset. The range of the frame buffer, the prefix of the colour and
the volatile read of the first byte are each checked. -/
def writePixel (self : FrameBufferWriter) (x y : Nat) (intensity : UInt8) :
    Except Panic FrameBufferWriter := do
  let pixelOffset := y * self.info.stride + x
  let color ← pixelColor self.info.pixelFormat intensity
  let bytesPerPixel := self.info.bytesPerPixel
  let byteOffset := pixelOffset * bytesPerPixel
  if self.framebuffer.length < byteOffset + bytesPerPixel ∨ 4 < bytesPerPixel ∨
      self.framebuffer.length ≤ byteOffset then
    throw .indexOutOfBounds
  pure { self with framebuffer := self.framebuffer.take byteOffset ++ color.take bytesPerPixel ++
    self.framebuffer.drop (byteOffset + bytesPerPixel) }

/-- The pixels `write_rendered_char` writes from the cursor `(xPos, yPos)`,
row by row, as `(x, y, intensity)`. -/
def rasterPixels (xPos yPos : Nat) (raster : List (List UInt8)) : List (Nat × Nat × UInt8) :=
  raster.zipIdx.flatMap fun (row, y) => row.zipIdx.map fun (byte, x) => (xPos + x, yPos + y, byte)

/-- `write_rendered_char`. `write_pixel` leaves the cursor alone, so the
loops draw `rasterPixels` from the cursor they start at. -/
def writeRenderedChar (self : FrameBufferWriter) (renderedChar : RasterizedChar) :
    Except Panic FrameBufferWriter := do
  let drawn ← (rasterPixels self.xPos self.yPos renderedChar.raster).foldlM
    (fun writer pixel => writer.writePixel pixel.1 pixel.2.1 pixel.2.2) self
  pure { drawn with xPos := drawn.xPos + (renderedChar.width + LETTER_SPACING) }

/-- The writer as `write_char` leaves it before drawing a printable
character: a new line if the raster would reach the right edge, then a clear
screen if the line would reach the bottom edge. -/
def renderPosition (font : Font) (self : FrameBufferWriter) : FrameBufferWriter :=
  let self := if self.xPos + font.charRasterWidth ≥ self.width then self.newline else self
  if self.yPos + CHAR_RASTER_HEIGHT + BORDER_PADDING ≥ self.height then self.clear else self

/-- `write_char`. -/
def writeChar (font : Font) (self : FrameBufferWriter) (c : Char) : Except Panic FrameBufferWriter :=
  match c with
  | '\n' => .ok self.newline
  | '\r' => .ok self.carriageReturn
  | c => (self.renderPosition font).writeRenderedChar (font.getCharRaster c)

/-- `write_str` of `fmt::Write`, over the string's characters. -/
def writeStr (font : Font) (self : FrameBufferWriter) (s : List Char) :
    Except Panic FrameBufferWriter :=
  s.foldlM (writeChar font) self

/-- The pixels `write_char` draws for a printable character. -/
def charPixels (font : Font) (self : FrameBufferWriter) (c : Char) : List (Nat × Nat × UInt8) :=
  let at_ := self.renderPosition font
  rasterPixels at_.xPos at_.yPos (font.getCharRaster c).raster

/-! ## The cursor's checks -/

/-- Every pixel of a raster of the font lies in the raster's box at the
cursor. -/
theorem rasterPixels_lt (font : Font) (c : Char) (xPos yPos : Nat) :
    ∀ p ∈ rasterPixels xPos yPos (font.getCharRaster c).raster,
      p.1 < xPos + font.charRasterWidth ∧ p.2.1 < yPos + CHAR_RASTER_HEIGHT := by
  intro p hp
  obtain ⟨⟨row, y⟩, hrow, hp⟩ := List.mem_flatMap.mp hp
  obtain ⟨⟨byte, x⟩, hbyte, rfl⟩ := List.mem_map.mp hp
  have hy : y < (font.getCharRaster c).raster.length := by
    simpa using List.snd_lt_of_mem_zipIdx hrow
  have hx : x < row.length := by simpa using List.snd_lt_of_mem_zipIdx hbyte
  rw [font.length_raster c] at hy
  rw [font.length_row c row (List.fst_mem_of_mem_zipIdx hrow)] at hx
  exact ⟨by simp only; omega, by simp only; omega⟩

/-- The size conditions under which the writer is safe: a pixel format the
logger draws, one to four bytes a pixel, lines no wider than the stride,
room for a raster inside the border, and a frame buffer that holds every
pixel of the screen. -/
structure Supported (font : Font) (info : FrameBufferInfo) : Prop where
  pixelFormat : info.pixelFormat = .rgb ∨ info.pixelFormat = .bgr ∨ info.pixelFormat = .u8
  one_le_bytesPerPixel : 1 ≤ info.bytesPerPixel
  bytesPerPixel_le : info.bytesPerPixel ≤ 4
  width_le_stride : info.width ≤ info.stride
  raster_lt_width : BORDER_PADDING + font.charRasterWidth < info.width
  raster_lt_height : BORDER_PADDING + CHAR_RASTER_HEIGHT < info.height
  screen_le_byteLen : ((info.height - 1) * info.stride + info.width) * info.bytesPerPixel ≤ info.byteLen

/-- A writer over a frame buffer of the length its info gives. -/
def Fits (info : FrameBufferInfo) (self : FrameBufferWriter) : Prop :=
  self.info = info ∧ self.framebuffer.length = info.byteLen

section Bounds

variable {font : Font} {info : FrameBufferInfo}

theorem Fits.clear {self : FrameBufferWriter} (h : Fits info self) : Fits info self.clear :=
  ⟨h.1, by rw [FrameBufferWriter.clear, List.length_replicate, h.2]⟩

theorem Fits.newline {self : FrameBufferWriter} (h : Fits info self) : Fits info self.newline := h

theorem Fits.carriageReturn {self : FrameBufferWriter} (h : Fits info self) :
    Fits info self.carriageReturn := h

theorem fits_new {framebuffer : List UInt8} (hlen : framebuffer.length = info.byteLen) :
    Fits info (new framebuffer info) :=
  Fits.clear ⟨rfl, hlen⟩

/-- Whatever the cursor, the checks of `write_char` leave room for a whole
raster: the new line makes room on the right whenever there is none, and the
clear screen makes room below. -/
theorem renderPosition_bounds (h : Supported font info) {self : FrameBufferWriter}
    (hfits : Fits info self) :
    Fits info (self.renderPosition font) ∧
      (self.renderPosition font).xPos + font.charRasterWidth < info.width ∧
      (self.renderPosition font).yPos + CHAR_RASTER_HEIGHT < info.height := by
  have hwidth := h.raster_lt_width
  have hheight := h.raster_lt_height
  have hinfo := hfits.1
  unfold renderPosition
  dsimp only
  -- the `width` and `height` the checks read are those of `info`
  by_cases hx : self.xPos + font.charRasterWidth ≥ self.width
  · -- a new line: the raster starts at the border
    rw [if_pos hx]
    split_ifs with hy
    · exact ⟨hfits.newline.clear, by simp only [clear_xPos]; omega, by simp only [clear_yPos]; omega⟩
    · simp only [height, newline_info, newline_yPos, hinfo] at hy
      exact ⟨hfits.newline, by simp only [newline_xPos]; omega, by simp only [newline_yPos]; omega⟩
  · rw [if_neg hx]
    simp only [width, hinfo] at hx
    split_ifs with hy
    · exact ⟨hfits.clear, by simp only [clear_xPos]; omega, by simp only [clear_yPos]; omega⟩
    · simp only [height, hinfo] at hy
      exact ⟨hfits, by omega, by omega⟩

/-- Every pixel `write_char` draws lies inside the screen. -/
theorem charPixels_lt (h : Supported font info) {self : FrameBufferWriter} (hfits : Fits info self)
    (c : Char) : ∀ p ∈ self.charPixels font c, p.1 < info.width ∧ p.2.1 < info.height := by
  intro p hp
  obtain ⟨-, hx, hy⟩ := renderPosition_bounds h hfits
  have hp := rasterPixels_lt font c _ _ p hp
  omega

/-- A pixel of the screen is one byte offset of the frame buffer from which
a whole pixel fits. -/
theorem pixel_end_le (h : Supported font info) {x y : Nat} (hx : x < info.width)
    (hy : y < info.height) :
    (y * info.stride + x) * info.bytesPerPixel + info.bytesPerPixel ≤ info.byteLen := by
  have hrow : y * info.stride ≤ (info.height - 1) * info.stride :=
    Nat.mul_le_mul_right _ (by omega)
  have hoffset : y * info.stride + x + 1 ≤ (info.height - 1) * info.stride + info.width := by omega
  calc (y * info.stride + x) * info.bytesPerPixel + info.bytesPerPixel
      = (y * info.stride + x + 1) * info.bytesPerPixel := by rw [Nat.succ_mul]
    _ ≤ ((info.height - 1) * info.stride + info.width) * info.bytesPerPixel :=
        Nat.mul_le_mul_right _ hoffset
    _ ≤ info.byteLen := h.screen_le_byteLen

/-- A supported format has a colour of four bytes. -/
theorem pixelColor_eq_ok (h : Supported font info) (intensity : UInt8) :
    ∃ color, pixelColor info.pixelFormat intensity = .ok color ∧ color.length = 4 := by
  rcases h.pixelFormat with hf | hf | hf <;> simp [pixelColor, hf]

/-- `write_pixel` on a pixel of the screen returns, and keeps the frame
buffer's length. -/
theorem writePixel_ok (h : Supported font info) {self : FrameBufferWriter} (hfits : Fits info self)
    {x y : Nat} (hx : x < info.width) (hy : y < info.height) (intensity : UInt8) :
    ∃ self', self.writePixel x y intensity = .ok self' ∧ Fits info self' := by
  obtain ⟨color, hcolor, hlen⟩ := pixelColor_eq_ok h intensity
  have hend := pixel_end_le h hx hy
  have hbpp := h.bytesPerPixel_le
  have hpos := h.one_le_bytesPerPixel
  unfold writePixel
  rw [hfits.1, hcolor, Except.ok_bind]
  dsimp only
  rw [if_neg (by rw [hfits.2]; omega)]
  refine ⟨_, rfl, rfl, ?_⟩
  -- the bytes before the pixel, the pixel's bytes and the bytes after it
  simp only [List.length_append, List.length_take, List.length_drop, hfits.2, hlen]
  omega

/-- `write_rendered_char` returns when every pixel it draws lies inside the
screen. -/
theorem writeRenderedChar_ok (h : Supported font info) {self : FrameBufferWriter}
    (hfits : Fits info self) (renderedChar : RasterizedChar)
    (hpixels : ∀ p ∈ rasterPixels self.xPos self.yPos renderedChar.raster,
      p.1 < info.width ∧ p.2.1 < info.height) :
    ∃ self', self.writeRenderedChar renderedChar = .ok self' ∧ Fits info self' := by
  -- each pixel keeps the writer fitting, so the loop over them returns
  obtain ⟨drawn, hdrawn, hfits'⟩ := List.foldlM_ok_of_invariant
    (fun writer hwriter pixel hpixel =>
      writePixel_ok h hwriter (hpixels pixel hpixel).1 (hpixels pixel hpixel).2 pixel.2.2)
    hfits
  exact ⟨{ drawn with xPos := drawn.xPos + (renderedChar.width + LETTER_SPACING) },
    by rw [writeRenderedChar, hdrawn, Except.ok_bind]; rfl, hfits'⟩

/-- `write_char` returns from any writer that fits. -/
theorem writeChar_ok (h : Supported font info) {self : FrameBufferWriter} (hfits : Fits info self)
    (c : Char) : ∃ self', self.writeChar font c = .ok self' ∧ Fits info self' := by
  unfold writeChar
  split
  · exact ⟨_, rfl, hfits.newline⟩
  · exact ⟨_, rfl, hfits.carriageReturn⟩
  · -- a printable character is drawn at the position the checks leave
    exact writeRenderedChar_ok h (renderPosition_bounds h hfits).1 _ (charPixels_lt h hfits _)

/-- `write_str` returns from any writer that fits. -/
theorem writeStr_ok (h : Supported font info) {self : FrameBufferWriter} (hfits : Fits info self)
    (s : List Char) : ∃ self', self.writeStr font s = .ok self' ∧ Fits info self' :=
  List.foldlM_ok_of_invariant (fun _ hwriter c _ => writeChar_ok h hwriter c) hfits

/-- Any sequence of `write_str` calls returns from any writer that fits. -/
theorem foldlM_writeStr_ok (h : Supported font info) {self : FrameBufferWriter}
    (hfits : Fits info self) (strs : List (List Char)) :
    ∃ self', strs.foldlM (writeStr font) self = .ok self' ∧ Fits info self' :=
  List.foldlM_ok_of_invariant (fun _ hwriter s _ => writeStr_ok h hwriter s) hfits

end Bounds

/-- On a supported frame buffer, any sequence of strings written to
`FrameBufferWriter::new` is written without a panic, and after it every
pixel that the next printable character draws lies inside the screen. -/
theorem writeStr_pixels_in_bounds (font : Font) (framebuffer : List UInt8) (info : FrameBufferInfo)
    (h : Supported font info) (hlen : framebuffer.length = info.byteLen) (strs : List (List Char)) :
    (∃ self, strs.foldlM (writeStr font) (new framebuffer info) = .ok self) ∧
      ∀ self, strs.foldlM (writeStr font) (new framebuffer info) = .ok self →
        ∀ c, ∀ p ∈ self.charPixels font c, p.1 < info.width ∧ p.2.1 < info.height := by
  obtain ⟨written, hwritten, hfits⟩ := foldlM_writeStr_ok h (fits_new hlen) strs
  refine ⟨⟨written, hwritten⟩, fun self hself => ?_⟩
  rw [hwritten] at hself
  cases hself
  exact charPixels_lt h hfits

/-- A font whose every raster is blank, seven columns wide. -/
def blankFont : Font where
  charRasterWidth := 7
  getCharRaster _ := ⟨List.replicate CHAR_RASTER_HEIGHT (List.replicate 7 0), 7⟩
  length_raster _ := List.length_replicate
  length_row _ _ hrow := by rw [List.eq_of_mem_replicate hrow, List.length_replicate]

/-- A grey screen of 10×18 pixels, one byte a pixel. -/
def smallScreen : FrameBufferInfo := ⟨180, 10, 18, .u8, 1, 10⟩

/-- The smallest screen a raster fits on, with `hi` and a new line. -/
theorem writeStr_pixels_in_bounds_on_small_screen :
    Supported blankFont smallScreen ∧ (List.replicate 180 0).length = smallScreen.byteLen ∧
      (∃ self, [['h', 'i', '\n']].foldlM (writeStr blankFont) (new (List.replicate 180 0) smallScreen) =
        .ok self) ∧
      ∀ self, [['h', 'i', '\n']].foldlM (writeStr blankFont) (new (List.replicate 180 0) smallScreen) =
        .ok self → ∀ c, ∀ p ∈ self.charPixels blankFont c, p.1 < smallScreen.width ∧ p.2.1 < smallScreen.height :=
  have hsupported : Supported blankFont smallScreen :=
    ⟨.inr (.inr rfl), by decide, by decide, by decide, by decide, by decide, by decide⟩
  ⟨hsupported, rfl, writeStr_pixels_in_bounds blankFont _ smallScreen hsupported rfl _⟩

end FrameBufferWriter

end Bootloader
