import Repiu.ByteMemory

/-!
# Frame buffer texels

The 565 texels of the linear frame buffer, the source pixels that are converted to them, and the
RGBA8 pixels that they are shown as.
-/

namespace Repiu.Glide

/-! ## Colours -/

def kGlideColorFormatArgb : Word := 0

def kGlideColorFormatAbgr : Word := 1

def kGlideColorFormatRgba : Word := 2

def kGlideColorFormatBgra : Word := 3

/-- Whether blue is in the high five bits of a texel. -/
def glideColorFormatUsesBgrOrder (colorFormat : Word) : Bool :=
  colorFormat = kGlideColorFormatAbgr || colorFormat = kGlideColorFormatBgra

def expandGlideChannel5 (value : Word) : Byte :=
  let five := value &&& 0x1F
  ((five <<< 3) ||| (five >>> 2)).setWidth 8

def expandGlideChannel6 (value : Word) : Byte :=
  let six := value &&& 0x3F
  ((six <<< 2) ||| (six >>> 4)).setWidth 8

def packGlideTexel565 (red green blue colorFormat : Word) : BitVec 16 :=
  let bgr := glideColorFormatUsesBgrOrder colorFormat
  let high := if bgr then blue else red
  let low := if bgr then red else blue
  (((high >>> 3) <<< 11) ||| ((green >>> 2) <<< 5) ||| (low >>> 3)).setWidth 16

/-- A texel of `DecodeGlideLfb565ToRgba8`. -/
def decodeGlideTexel565 (texel colorFormat : Word) : List Byte :=
  let high := expandGlideChannel5 (texel >>> 11)
  let low := expandGlideChannel5 texel
  let bgr := glideColorFormatUsesBgrOrder colorFormat
  [if bgr then low else high, expandGlideChannel6 (texel >>> 5), if bgr then high else low, 255]

/-! ## Source pixels -/

def kGlideLfbSrcFmt565 : Word := 0x00

def kGlideLfbSrcFmt555 : Word := 0x01

def kGlideLfbSrcFmt1555 : Word := 0x02

def kGlideLfbSrcFmt888 : Word := 0x04

def kGlideLfbSrcFmt8888 : Word := 0x05

def kGlideLfbSrcFmt565Depth : Word := 0x0C

def kGlideLfbSrcFmt555Depth : Word := 0x0D

def kGlideLfbSrcFmt1555Depth : Word := 0x0E

def kGlideLfbSrcFmtZa16 : Word := 0x0F

def glideLfbSrcFormatBytesPerPixel (srcFormat : Word) : Word :=
  if srcFormat = kGlideLfbSrcFmt565 ∨ srcFormat = kGlideLfbSrcFmt555 ∨ srcFormat = kGlideLfbSrcFmt1555 ∨
      srcFormat = kGlideLfbSrcFmtZa16 then 2
  else if srcFormat = kGlideLfbSrcFmt888 ∨ srcFormat = kGlideLfbSrcFmt8888 ∨ srcFormat = kGlideLfbSrcFmt565Depth ∨
      srcFormat = kGlideLfbSrcFmt555Depth ∨ srcFormat = kGlideLfbSrcFmt1555Depth then 4
  else 0

def glideLfbSrcFormatSupported (srcFormat : Word) : Bool :=
  srcFormat = kGlideLfbSrcFmt565 || srcFormat = kGlideLfbSrcFmt555 || srcFormat = kGlideLfbSrcFmt1555 ||
    srcFormat = kGlideLfbSrcFmt888 || srcFormat = kGlideLfbSrcFmt8888

/-- Byte offsets in a little-endian 32-bit source word. -/
structure ChannelOffsets where
  red : ℕ
  green : ℕ
  blue : ℕ

def resolveChannelOffsets (colorFormat : Word) : ChannelOffsets :=
  if colorFormat = kGlideColorFormatAbgr then ⟨0, 1, 2⟩
  else if colorFormat = kGlideColorFormatRgba then ⟨3, 2, 1⟩
  else if colorFormat = kGlideColorFormatBgra then ⟨1, 2, 3⟩
  else ⟨2, 1, 0⟩

/-- The two bytes of a 16-bit pixel. -/
def pixelTexel (pixel : ℕ → Byte) : Word := (pixel 0).setWidth 32 ||| ((pixel 1).setWidth 32 <<< 8)

/-- `ConvertSourcePixelTo565` of the bytes of a pixel. -/
def convertSourcePixelTo565 (pixel : ℕ → Byte) (srcFormat srcColorFormat surfaceColorFormat : Word) : BitVec 16 :=
  let sourceIsBgr := glideColorFormatUsesBgrOrder srcColorFormat
  if srcFormat = kGlideLfbSrcFmt565 then
    let texel := pixelTexel pixel
    let high := expandGlideChannel5 (texel >>> 11)
    let low := expandGlideChannel5 texel
    packGlideTexel565 ((if sourceIsBgr then low else high).setWidth 32)
      ((expandGlideChannel6 (texel >>> 5)).setWidth 32) ((if sourceIsBgr then high else low).setWidth 32)
      surfaceColorFormat
  else if srcFormat = kGlideLfbSrcFmt555 ∨ srcFormat = kGlideLfbSrcFmt1555 then
    let texel := pixelTexel pixel
    let high := expandGlideChannel5 (texel >>> 10)
    let low := expandGlideChannel5 texel
    packGlideTexel565 ((if sourceIsBgr then low else high).setWidth 32)
      ((expandGlideChannel5 (texel >>> 5)).setWidth 32) ((if sourceIsBgr then high else low).setWidth 32)
      surfaceColorFormat
  else
    let offsets := resolveChannelOffsets srcColorFormat
    packGlideTexel565 ((pixel offsets.red).setWidth 32) ((pixel offsets.green).setWidth 32)
      ((pixel offsets.blue).setWidth 32) surfaceColorFormat

/-- Whether the pixels of a format are words of 16 bits. -/
def IsTexelFormat (srcFormat : Word) : Prop :=
  srcFormat = kGlideLfbSrcFmt565 ∨ srcFormat = kGlideLfbSrcFmt555 ∨ srcFormat = kGlideLfbSrcFmt1555

instance (srcFormat : Word) : Decidable (IsTexelFormat srcFormat) := inferInstanceAs (Decidable (_ ∨ _ ∨ _))

/-- The bytes of a pixel that are read of it. -/
def pixelReads (srcFormat srcColorFormat : Word) : List ℕ :=
  if IsTexelFormat srcFormat then [0, 1]
  else
    let offsets := resolveChannelOffsets srcColorFormat
    [offsets.red, offsets.green, offsets.blue]

def texelBytes (texel : BitVec 16) : List Byte := [texel.setWidth 8, (texel >>> 8).setWidth 8]

/-! ## Conversions -/

section
variable {srcFormat srcColorFormat surfaceColorFormat : Word} {pixel pixel' : ℕ → Byte}

/-- A conversion depends on the bytes that are read. -/
theorem convert_congr (h : ∀ k ∈ pixelReads srcFormat srcColorFormat, pixel k = pixel' k) :
    convertSourcePixelTo565 pixel srcFormat srcColorFormat surfaceColorFormat =
      convertSourcePixelTo565 pixel' srcFormat srcColorFormat surfaceColorFormat := by
  unfold pixelReads at h
  unfold convertSourcePixelTo565
  dsimp only
  by_cases h565 : srcFormat = kGlideLfbSrcFmt565
  · have htexel : IsTexelFormat srcFormat := .inl h565
    rw [if_pos htexel] at h
    rw [if_pos h565, if_pos h565, pixelTexel, pixelTexel, h 0 (by simp), h 1 (by simp)]
  by_cases h555 : srcFormat = kGlideLfbSrcFmt555 ∨ srcFormat = kGlideLfbSrcFmt1555
  · have htexel : IsTexelFormat srcFormat := .inr h555
    rw [if_pos htexel] at h
    rw [if_neg h565, if_pos h555, if_neg h565, if_pos h555, pixelTexel, pixelTexel, h 0 (by simp), h 1 (by simp)]
  · have hword : ¬IsTexelFormat srcFormat := by
      rintro (h' | h')
      · exact h565 h'
      · exact h555 h'
    rw [if_neg hword] at h
    rw [if_neg h565, if_neg h555, if_neg h565, if_neg h555, h _ (by simp), h _ (by simp), h _ (by simp)]

/-- Black is converted to zero. -/
theorem convert_zero (h : ∀ k ∈ pixelReads srcFormat srcColorFormat, pixel k = 0) :
    convertSourcePixelTo565 pixel srcFormat srcColorFormat surfaceColorFormat = 0 := by
  have hconst := @convert_congr _ _ surfaceColorFormat pixel (fun _ => 0) h
  rw [hconst]
  unfold convertSourcePixelTo565 packGlideTexel565
  dsimp only
  split_ifs <;> rfl

/-- White is converted to ones. -/
theorem convert_ones (h : ∀ k ∈ pixelReads srcFormat srcColorFormat, pixel k = 0xFF) :
    convertSourcePixelTo565 pixel srcFormat srcColorFormat surfaceColorFormat = 0xFFFF := by
  have hconst := @convert_congr _ _ surfaceColorFormat pixel (fun _ => 0xFF) h
  rw [hconst]
  unfold convertSourcePixelTo565 packGlideTexel565
  dsimp only
  split_ifs <;> rfl

/-- The reads of a pixel of a supported format are inside it. -/
theorem pixelReads_lt (hsupported : glideLfbSrcFormatSupported srcFormat = true) :
    ∀ k ∈ pixelReads srcFormat srcColorFormat, k < (glideLfbSrcFormatBytesPerPixel srcFormat).toNat := by
  simp only [glideLfbSrcFormatSupported, Bool.or_eq_true, decide_eq_true_eq] at hsupported
  unfold pixelReads
  rcases hsupported with (((rfl | rfl) | rfl) | rfl) | rfl
  · rw [if_pos (by decide)]
    decide
  · rw [if_pos (by decide)]
    decide
  · rw [if_pos (by decide)]
    decide
  all_goals
    rw [if_neg (by decide)]
    unfold resolveChannelOffsets
    split_ifs
    all_goals decide

/-- The low bits of a word. -/
theorem and_low (n : ℕ) (value : Word) :
    value &&& (BitVec.allOnes n).setWidth 32 = (value.setWidth n).setWidth 32 := by
  ext i hi
  rw [BitVec.getElem_and, BitVec.getElem_setWidth, BitVec.getElem_setWidth, BitVec.getLsbD_allOnes,
    BitVec.getLsbD_setWidth, BitVec.getLsbD_eq_getElem hi, Bool.and_comm]

/-- A channel of five bits that is expanded and cut again. -/
theorem expand5_shift (value : Word) : (expandGlideChannel5 value).setWidth 32 >>> 3 = value &&& 0x1F := by
  have hfive : ∀ five : BitVec 5, (expandGlideChannel5 (five.setWidth 32)).setWidth 32 >>> 3 = five.setWidth 32 := by
    decide
  have hlow : value &&& 0x1F = (value.setWidth 5).setWidth 32 := and_low 5 value
  have hexpand : expandGlideChannel5 value = expandGlideChannel5 ((value.setWidth 5).setWidth 32) := by
    unfold expandGlideChannel5
    dsimp only
    rw [← hlow, BitVec.and_assoc, BitVec.and_self]
  rw [hexpand, hfive, hlow]

/-- A channel of six bits that is expanded and cut again. -/
theorem expand6_shift (value : Word) : (expandGlideChannel6 value).setWidth 32 >>> 2 = value &&& 0x3F := by
  have hsix : ∀ six : BitVec 6, (expandGlideChannel6 (six.setWidth 32)).setWidth 32 >>> 2 = six.setWidth 32 := by
    decide
  have hlow : value &&& 0x3F = (value.setWidth 6).setWidth 32 := and_low 6 value
  have hexpand : expandGlideChannel6 value = expandGlideChannel6 ((value.setWidth 6).setWidth 32) := by
    unfold expandGlideChannel6
    dsimp only
    rw [← hlow, BitVec.and_assoc, BitVec.and_self]
  rw [hexpand, hsix, hlow]

/-- The three channels of a texel are the texel. -/
theorem channels_texel (texel : Word) :
    ((((texel >>> 11) &&& 0x1F) <<< 11) ||| (((texel >>> 5) &&& 0x3F) <<< 5) ||| (texel &&& 0x1F)).setWidth 16 =
      texel.setWidth 16 := by
  ext i hi
  simp only [BitVec.getElem_setWidth, BitVec.getLsbD_or, BitVec.getLsbD_shiftLeft, BitVec.getLsbD_and,
    BitVec.getLsbD_ushiftRight]
  interval_cases i
  all_goals simp

/-- A 565 pixel in the order of the surface is stored as it is. -/
theorem convert_565
    (horder : glideColorFormatUsesBgrOrder srcColorFormat = glideColorFormatUsesBgrOrder surfaceColorFormat) :
    texelBytes (convertSourcePixelTo565 pixel kGlideLfbSrcFmt565 srcColorFormat surfaceColorFormat) =
      [pixel 0, pixel 1] := by
  have hconvert : convertSourcePixelTo565 pixel kGlideLfbSrcFmt565 srcColorFormat surfaceColorFormat =
      (pixelTexel pixel).setWidth 16 := by
    unfold convertSourcePixelTo565 packGlideTexel565
    rw [if_pos rfl, horder]
    cases glideColorFormatUsesBgrOrder surfaceColorFormat
    all_goals
      dsimp only
      simp only [if_true, if_false, Bool.false_eq_true]
      rw [expand5_shift, expand5_shift, expand6_shift, channels_texel]
  rw [hconvert]
  unfold texelBytes pixelTexel
  congr 1
  · ext i hi
    simp
  · congr 1
    ext i hi
    have hbit : 8 + i < 16 ∧ i < 16 := by omega
    simp [hbit, hi]

end

end Repiu.Glide
