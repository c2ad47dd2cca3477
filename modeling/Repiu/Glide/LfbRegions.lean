import Repiu.CheckedBuffers
import Repiu.Glide.LfbTexels
import Repiu.HostSize

/-!
# Frame buffer regions

Rectangles that are transferred between guest memory and the staging surface, clipped to the
surface: into its 565 texels, into the RGBA8 shadow of them, and out of them.
-/

namespace Repiu.Glide

open CheckedBuffers

variable (host : SizeWidth)

/-! ## Plans -/

/-- The rectangle of a transfer, and the stride of the guest's side, an `int32_t`. -/
structure RegionRequest where
  x : Word
  y : Word
  width : Word
  height : Word
  stride : Word

def resolveGlideLfbRegionStride (width bytesPerPixel stride : Word) : Word :=
  if stride ≠ 0 then stride else width * bytesPerPixel

structure RegionPlan where
  width : Word
  height : Word
  surfaceRowPitch : ℕ
  externalRowPitch : ℕ

/-- `PlanRegion`, nothing where the plan is not valid. -/
def planRegion (request : RegionRequest) (bytesPerPixel surfaceWidth surfaceHeight : Word) : Option RegionPlan :=
  if surfaceWidth = 0 ∨ surfaceHeight = 0 ∨ request.width = 0 ∨ request.height = 0 ∨ bytesPerPixel = 0 then none
  else if request.stride.toInt < 0 then none
  else if surfaceWidth ≤ request.x ∨ surfaceHeight ≤ request.y then none
  else
    let width := if request.x + request.width > surfaceWidth then surfaceWidth - request.x else request.width
    let height := if request.y + request.height > surfaceHeight then surfaceHeight - request.y else request.height
    let externalRowPitch :=
      host.ofInt32 (resolveGlideLfbRegionStride request.width bytesPerPixel request.stride)
    if width ≠ 0 ∧ height ≠ 0 ∧ externalRowPitch ≠ 0 then
      some ⟨width, height, host.wrap (surfaceWidth.toNat * 2), externalRowPitch⟩
    else none

/-- The bytes that a plan needs of the guest's side. -/
def requiredBytes (height : Word) (externalRowPitch : ℕ) (width bytesPerPixel : Word) : ℕ :=
  host.wrap ((height.toNat - 1) * externalRowPitch + width.toNat * bytesPerPixel.toNat)

/-! ## Transfers -/

/-- The bytes of a pixel that are read of it, from a place in the buffer. -/
def loadPixel (src : List Byte) (start : ℕ) (reads : List ℕ) : Except BufferFault (ℕ → Byte) :=
  if ∀ k ∈ reads, host.wrap (start + k) < src.length then .ok fun k => src.getD (host.wrap (start + k)) 0
  else .error .outside

/-- The loops over the rows and columns of a rectangle, which store one pixel after another. -/
def storePixels (rows columns : ℕ) (start : ℕ → ℕ → ℕ) (pixel : ℕ → ℕ → Except BufferFault (List Byte))
    (target : List Byte) : Except BufferFault (List Byte) :=
  storeEach ((List.range rows).flatMap fun row => (List.range columns).map fun column =>
    (pixel row column).map fun bytes => (start row column, bytes)) target

/-- `WriteGlideLfbRegion`: whether it succeeds, and the pixels of the surface behind it. -/
def writeGlideLfbRegion (request : RegionRequest) (srcFormat : Word) (src : Option (List Byte))
    (srcColorFormat surfaceColorFormat surfaceWidth surfaceHeight : Word) (pixels : List Byte) :
    Except BufferFault (Bool × List Byte) :=
  match src with
  | none => .ok (false, pixels)
  | some src =>
    if glideLfbSrcFormatSupported srcFormat = false then .ok (false, pixels)
    else
      let bytesPerPixel := glideLfbSrcFormatBytesPerPixel srcFormat
      match planRegion host request bytesPerPixel surfaceWidth surfaceHeight with
      | none => .ok (false, pixels)
      | some plan =>
        let required := requiredBytes host plan.height plan.externalRowPitch plan.width bytesPerPixel
        if src.length < required then .ok (false, pixels)
        else
          -- the offset of a column is taken in 32 bits
          let start := fun row column =>
            host.wrap ((request.y + BitVec.ofNat 32 row).toNat * plan.surfaceRowPitch + request.x.toNat * 2 +
              (BitVec.ofNat 32 column * 2).toNat)
          let pixel := fun row column => do
            let pixel ← loadPixel host src (row * plan.externalRowPitch + column * bytesPerPixel.toNat)
              (pixelReads srcFormat srcColorFormat)
            .ok (texelBytes (convertSourcePixelTo565 pixel srcFormat srcColorFormat surfaceColorFormat))
          (storePixels plan.height.toNat plan.width.toNat start pixel pixels).map fun pixels => (true, pixels)

/-- `WriteGlideLfbRegionRgba8`: whether it succeeds, and the shadow behind it. -/
def writeGlideLfbRegionRgba8 (request : RegionRequest) (srcFormat : Word) (src : Option (List Byte))
    (srcColorFormat surfaceColorFormat surfaceWidth surfaceHeight : Word) (shadow : List Byte) :
    Except BufferFault (Bool × List Byte) :=
  match src with
  | none => .ok (false, shadow)
  | some src =>
    if glideLfbSrcFormatSupported srcFormat = false ∨ surfaceWidth = 0 ∨ surfaceHeight = 0 ∨
        shadow.length < host.wrap (surfaceWidth.toNat * surfaceHeight.toNat * 4) then .ok (false, shadow)
    else
      let bytesPerPixel := glideLfbSrcFormatBytesPerPixel srcFormat
      if request.stride.toInt < 0 ∨ surfaceWidth ≤ request.x ∨ surfaceHeight ≤ request.y ∨ request.width = 0 ∨
          request.height = 0 then .ok (false, shadow)
      else
        let clippedWidth :=
          if request.x + request.width > surfaceWidth then surfaceWidth - request.x else request.width
        let clippedHeight :=
          if request.y + request.height > surfaceHeight then surfaceHeight - request.y else request.height
        let externalRowPitch :=
          host.ofInt32 (resolveGlideLfbRegionStride request.width bytesPerPixel request.stride)
        if externalRowPitch = 0 then .ok (false, shadow)
        else if src.length < requiredBytes host clippedHeight externalRowPitch clippedWidth bytesPerPixel then
          .ok (false, shadow)
        else
          let fullPrecision := srcFormat = kGlideLfbSrcFmt888 || srcFormat = kGlideLfbSrcFmt8888
          let offsets := resolveChannelOffsets srcColorFormat
          let surfaceBgr := glideColorFormatUsesBgrOrder surfaceColorFormat
          let shadowRowPitch := host.wrap (surfaceWidth.toNat * 4)
          let start := fun row column =>
            host.wrap ((request.y + BitVec.ofNat 32 row).toNat * shadowRowPitch + request.x.toNat * 4 + column * 4)
          let pixel := fun row column => do
            let pixel ← loadPixel host src (row * externalRowPitch + column * bytesPerPixel.toNat)
              (pixelReads srcFormat srcColorFormat)
            if fullPrecision then .ok [pixel offsets.red, pixel offsets.green, pixel offsets.blue, 255]
            else
              let texel : Word :=
                (convertSourcePixelTo565 pixel srcFormat srcColorFormat surfaceColorFormat).setWidth 32
              let high := expandGlideChannel5 (texel >>> 11)
              let low := expandGlideChannel5 texel
              .ok [if surfaceBgr then low else high, expandGlideChannel6 (texel >>> 5),
                if surfaceBgr then high else low, 255]
          (storePixels clippedHeight.toNat clippedWidth.toNat start pixel shadow).map fun shadow => (true, shadow)

/-- What a read leaves behind: whether it succeeds, the data, and the rectangle that it reports. -/
structure RegionCopy where
  done : Bool
  dst : Option (List Byte)
  copiedWidth : ℕ
  copiedHeight : ℕ

/-- `ReadGlideLfbRegion`. -/
def readGlideLfbRegion (request : RegionRequest) (surfaceWidth surfaceHeight : Word) (pixels : List Byte)
    (dst : Option (List Byte)) : Except BufferFault RegionCopy :=
  match dst with
  | none => .ok ⟨false, none, 0, 0⟩
  | some dst =>
    match planRegion host request 2 surfaceWidth surfaceHeight with
    | none => .ok ⟨false, some dst, 0, 0⟩
    | some plan =>
      if dst.length < requiredBytes host plan.height plan.externalRowPitch plan.width 2 then
        .ok ⟨false, some dst, 0, 0⟩
      else
        let rowBytes := fun row : ℕ =>
          readSpan pixels (host.wrap ((request.y + BitVec.ofNat 32 row).toNat * plan.surfaceRowPitch +
            request.x.toNat * 2)) (host.wrap (plan.width.toNat * 2))
        let blocks := (List.range plan.height.toNat).map fun row =>
          (rowBytes row).map fun bytes => (host.wrap (row * plan.externalRowPitch), bytes)
        (storeEach blocks dst).map fun dst => ⟨true, some dst, plan.width.toNat, plan.height.toNat⟩

/-! ## What is to be transferred -/

/-- The part of a side of the rectangle that lies on the surface. -/
def clipped (position size limit : Word) : ℕ := min size.toNat (limit.toNat - position.toNat)

namespace RegionRequest

variable (request : RegionRequest) (surfaceWidth surfaceHeight : Word)

def columns : ℕ := clipped request.x request.width surfaceWidth

def rows : ℕ := clipped request.y request.height surfaceHeight

/-- From a row of the guest's side to the next one. -/
def rowStride (bytesPerPixel : ℕ) : ℕ :=
  if request.stride = 0 then request.width.toNat * bytesPerPixel else request.stride.toNat

/-- The bytes of the guest's side up to the last pixel that is transferred. -/
def neededBytes (bytesPerPixel : ℕ) : ℕ :=
  (request.rows surfaceHeight - 1) * request.rowStride bytesPerPixel + request.columns surfaceWidth * bytesPerPixel

/-- The rectangle meets the surface, from the top down. -/
def Meets : Prop :=
  0 ≤ request.stride.toInt ∧ 0 < request.columns surfaceWidth ∧ 0 < request.rows surfaceHeight

/-- There is something to be transferred, and the guest's side has room for it. -/
def Transfers (bytesPerPixel count : ℕ) : Prop :=
  request.Meets surfaceWidth surfaceHeight ∧ request.neededBytes surfaceWidth surfaceHeight bytesPerPixel ≤ count

/-- The rectangle, without an end to the numbers. -/
def Covers (column row : ℕ) : Prop :=
  (request.x.toNat ≤ column ∧ column < request.x.toNat + request.width.toNat) ∧
    request.y.toNat ≤ row ∧ row < request.y.toNat + request.height.toNat

instance : Decidable (request.Meets surfaceWidth surfaceHeight) := inferInstanceAs (Decidable (_ ∧ _ ∧ _))

instance (bytesPerPixel count : ℕ) : Decidable (request.Transfers surfaceWidth surfaceHeight bytesPerPixel count) :=
  inferInstanceAs (Decidable (_ ∧ _))

instance (column row : ℕ) : Decidable (request.Covers column row) :=
  inferInstanceAs (Decidable ((_ ∧ _) ∧ _ ∧ _))

/-- An image whose pixels in the rectangle are new, by their row and column in the rectangle. -/
def paint (size : ℕ) (pixel : ℕ → ℕ → List Byte) (image : List Byte) : List Byte :=
  (List.range image.length).map fun i =>
    let column := i / size % surfaceWidth.toNat
    let row := i / size / surfaceWidth.toNat
    if request.Covers column row then
      (pixel (row - request.y.toNat) (column - request.x.toNat)).getD (i % size) 0
    else image.getD i 0

/-- The bytes of the guest's side from a pixel on. -/
def sourcePixel (bytesPerPixel : ℕ) (src : List Byte) (row column k : ℕ) : Byte :=
  src.getD (row * request.rowStride bytesPerPixel + column * bytesPerPixel + k) 0

/-- A row of the rectangle in the pixels of the surface. -/
def surfaceRow (pixels : List Byte) (row : ℕ) : List Byte :=
  (pixels.drop (((request.y.toNat + row) * surfaceWidth.toNat + request.x.toNat) * 2)).take
    (request.columns surfaceWidth * 2)

end RegionRequest

/-- What a write is to do. -/
def expectedWrite (request : RegionRequest) (srcFormat : Word) (src : Option (List Byte))
    (srcColorFormat surfaceColorFormat surfaceWidth surfaceHeight : Word) (pixels : List Byte) : Bool × List Byte :=
  match src with
  | none => (false, pixels)
  | some src =>
    let bytesPerPixel := (glideLfbSrcFormatBytesPerPixel srcFormat).toNat
    if glideLfbSrcFormatSupported srcFormat ∧
        request.Transfers surfaceWidth surfaceHeight bytesPerPixel src.length then
      (true, request.paint surfaceWidth 2 (fun row column => texelBytes (convertSourcePixelTo565
        (request.sourcePixel bytesPerPixel src row column) srcFormat srcColorFormat surfaceColorFormat)) pixels)
    else (false, pixels)

/-- What the shadow is to show of a pixel: its own channels, or its texel decoded. -/
def shadowPixel (pixel : ℕ → Byte) (srcFormat srcColorFormat surfaceColorFormat : Word) : List Byte :=
  if IsTexelFormat srcFormat then
    decodeGlideTexel565 ((convertSourcePixelTo565 pixel srcFormat srcColorFormat surfaceColorFormat).setWidth 32)
      surfaceColorFormat
  else
    let offsets := resolveChannelOffsets srcColorFormat
    [pixel offsets.red, pixel offsets.green, pixel offsets.blue, 255]

/-- What a write to the shadow is to do: the same requests, the same pixels. -/
def expectedRgba8 (request : RegionRequest) (srcFormat : Word) (src : Option (List Byte))
    (srcColorFormat surfaceColorFormat surfaceWidth surfaceHeight : Word) (shadow : List Byte) : Bool × List Byte :=
  match src with
  | none => (false, shadow)
  | some src =>
    let bytesPerPixel := (glideLfbSrcFormatBytesPerPixel srcFormat).toNat
    if glideLfbSrcFormatSupported srcFormat ∧
        request.Transfers surfaceWidth surfaceHeight bytesPerPixel src.length then
      (true, request.paint surfaceWidth 4 (fun row column => shadowPixel
        (request.sourcePixel bytesPerPixel src row column) srcFormat srcColorFormat surfaceColorFormat) shadow)
    else (false, shadow)

/-- What a read is to do: the rows of the rectangle, one after another. -/
def expectedRead (request : RegionRequest) (surfaceWidth surfaceHeight : Word) (pixels : List Byte)
    (dst : Option (List Byte)) : RegionCopy :=
  match dst with
  | none => ⟨false, none, 0, 0⟩
  | some dst =>
    if request.Transfers surfaceWidth surfaceHeight 2 dst.length then
      let rows := request.rows surfaceHeight
      let copy := fun dst row =>
        overlay dst (row * request.rowStride 2) (request.surfaceRow surfaceWidth pixels row)
      ⟨true, some ((List.range rows).foldl copy dst), request.columns surfaceWidth, rows⟩
    else ⟨false, some dst, 0, 0⟩

/-- A request with the sizes of its surface and buffers, which fit the host. -/
structure RegionCase where
  request : RegionRequest
  srcFormat : Word
  surfaceWidth : Word
  surfaceHeight : Word
  sourceCount : ℕ
  targetCount : ℕ
  surface_fits : 2 * (surfaceWidth.toNat * surfaceHeight.toNat * 2) < host.modulus
  source_fits : 2 * sourceCount < host.modulus
  target_fits : 2 * targetCount < host.modulus

/-- The transfers of a request are exact, whatever the surface and the buffers hold. -/
structure TransfersExactly (g : RegionCase host) : Prop where
  write : ∀ (src : Option (List Byte)) (srcColorFormat surfaceColorFormat : Word) (pixels : List Byte),
    (∀ bytes ∈ src, bytes.length = g.sourceCount) →
    pixels.length = g.surfaceWidth.toNat * g.surfaceHeight.toNat * 2 →
      writeGlideLfbRegion host g.request g.srcFormat src srcColorFormat surfaceColorFormat g.surfaceWidth
          g.surfaceHeight pixels =
        .ok (expectedWrite g.request g.srcFormat src srcColorFormat surfaceColorFormat g.surfaceWidth g.surfaceHeight
          pixels)
  rgba8 : ∀ (src : Option (List Byte)) (srcColorFormat surfaceColorFormat : Word) (shadow : List Byte),
    (∀ bytes ∈ src, bytes.length = g.sourceCount) →
    shadow.length = g.surfaceWidth.toNat * g.surfaceHeight.toNat * 4 →
      writeGlideLfbRegionRgba8 host g.request g.srcFormat src srcColorFormat surfaceColorFormat g.surfaceWidth
          g.surfaceHeight shadow =
        .ok (expectedRgba8 g.request g.srcFormat src srcColorFormat surfaceColorFormat g.surfaceWidth g.surfaceHeight
          shadow)
  read : ∀ (pixels : List Byte) (dst : Option (List Byte)),
    pixels.length = g.surfaceWidth.toNat * g.surfaceHeight.toNat * 2 →
    (∀ bytes ∈ dst, bytes.length = g.targetCount) →
      readGlideLfbRegion host g.request g.surfaceWidth g.surfaceHeight pixels dst =
        .ok (expectedRead g.request g.surfaceWidth g.surfaceHeight pixels dst)
  readBack : ∀ (src pixels pixels' dst dst' : List Byte) (srcColorFormat surfaceColorFormat : Word)
    (copiedWidth copiedHeight : ℕ), g.srcFormat = kGlideLfbSrcFmt565 →
    glideColorFormatUsesBgrOrder srcColorFormat = glideColorFormatUsesBgrOrder surfaceColorFormat →
    src.length = g.sourceCount → dst.length = g.targetCount →
    pixels.length = g.surfaceWidth.toNat * g.surfaceHeight.toNat * 2 →
    writeGlideLfbRegion host g.request g.srcFormat (some src) srcColorFormat surfaceColorFormat g.surfaceWidth
      g.surfaceHeight pixels = .ok (true, pixels') →
    readGlideLfbRegion host g.request g.surfaceWidth g.surfaceHeight pixels' (some dst) =
      .ok ⟨true, some dst', copiedWidth, copiedHeight⟩ →
      ∀ row < g.request.rows g.surfaceHeight, ∀ column < g.request.columns g.surfaceWidth, ∀ k < 2,
        dst'[row * g.request.rowStride 2 + column * 2 + k]? = src[row * g.request.rowStride 2 + column * 2 + k]?

end Repiu.Glide
