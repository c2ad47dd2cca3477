import Repiu.ByteMemory

/-!
# The logical state and its image

What the boundary itself knows of the Glide state, and the image of it that the guest can
keep (`BuildGlideStateImage`, `ParseGlideStateImage` in `glide_hle.cpp`).
-/

namespace Repiu.Glide

/-- `GlideAlphaCombineState`, and `GlideColorCombineState`. -/
structure GlideCombineState where
  function : Word := 0
  factor : Word := 0
  localSource : Word := 0
  other : Word := 0
  invert : Bool := false
  valid : Bool := false
deriving DecidableEq

structure GlideAlphaBlendState where
  rgbSource : Word := 0
  rgbDestination : Word := 0
  alphaSource : Word := 0
  alphaDestination : Word := 0
  valid : Bool := false
deriving DecidableEq

structure GlideLogicalState where
  initialized : Bool := false
  selectedBoard : Word := 0
  windowOpen : Bool := false
  width : Word := 0
  height : Word := 0
  colorFormat : Word := 0
  origin : Word := 0
  colorBufferCount : Word := 0
  auxiliaryBufferCount : Word := 0
  textureMemoryBytes : Word := 0
  lfbWriteColorFormat : Word := 0
  alphaCombine : GlideCombineState := {}
  colorCombine : GlideCombineState := {}
  alphaBlend : GlideAlphaBlendState := {}
  alphaTestFunction : Word := 0
  alphaTestReference : Word := 0
  depthBufferFunction : Word := 0
  fogMode : Word := 0
  fogColor : Word := 0
  fogTablePointer : Word := 0
  fogTable : List Byte := List.replicate 64 0
  fogTableValid : Bool := false
  clipMinX : Word := 0
  clipMinY : Word := 0
  clipMaxX : Word := 0
  clipMaxY : Word := 0
  cullMode : Word := 0
  ditherMode : Word := 0
  constantColor : Word := 0xFFFFFFFF
  stwHint : Word := 0
  fifoCheckHint : Word := 0
  fpuPrecisionHint : Word := 0
  allowMipmapDitherHint : Word := 0
  hintsSeen : Bool := false
  paletteRgba8 : List Byte := List.replicate 1024 0
  paletteValid : Bool := false
deriving DecidableEq

/-! ## The image -/

def kGlide2StateImageBytes : ℕ := 312
def kStateMagic : Word := 0x53504952
def kStateVersion : Word := 3

structure GlideStateImage where
  bytes : List Byte
  size : bytes.length = kGlide2StateImageBytes

namespace GlideLogicalState

/-- The words of the image, in their order. -/
def imageWords (state : GlideLogicalState) : List Word :=
  [kStateMagic, kStateVersion, if state.initialized then 1 else 0, state.selectedBoard,
    if state.windowOpen then 1 else 0, state.width, state.height, state.colorFormat, state.origin,
    state.colorBufferCount, state.auxiliaryBufferCount, state.textureMemoryBytes, state.lfbWriteColorFormat,
    state.alphaTestFunction, state.depthBufferFunction, state.fogMode, state.clipMinX, state.clipMinY,
    state.clipMaxX, state.clipMaxY, state.cullMode, state.ditherMode, state.constantColor]

theorem length_imageWords (state : GlideLogicalState) : state.imageWords.length = 23 := rfl

end GlideLogicalState

theorem length_flatMap_le32 (words : List Word) : (words.flatMap le32).length = 4 * words.length := by
  simp [List.length_flatMap, Nat.mul_comm]

/-- `BuildGlideStateImage`. -/
def buildGlideStateImage (state : GlideLogicalState) : GlideStateImage where
  bytes := state.imageWords.flatMap le32 ++ List.replicate (kGlide2StateImageBytes - 4 * 23) 0
  size := by
    rw [List.length_append, List.length_replicate, length_flatMap_le32, GlideLogicalState.length_imageWords]
    rfl

/-- `read_u32`, at the cursor behind `index` words. -/
def GlideStateImage.readU32 (image : GlideStateImage) (index : ℕ) : Word :=
  word32 (image.bytes.getD (4 * index) 0) (image.bytes.getD (4 * index + 1) 0)
    (image.bytes.getD (4 * index + 2) 0) (image.bytes.getD (4 * index + 3) 0)

/-- `ParseGlideStateImage`: the state it leaves, where it accepts the image. -/
def parseGlideStateImage (image : GlideStateImage) (state : GlideLogicalState) : Option GlideLogicalState :=
  if image.readU32 0 ≠ kStateMagic ∨ image.readU32 1 ≠ kStateVersion then none
  else
    some
      { state with
        initialized := image.readU32 2 != 0
        selectedBoard := image.readU32 3
        windowOpen := image.readU32 4 != 0
        width := image.readU32 5
        height := image.readU32 6
        colorFormat := image.readU32 7
        origin := image.readU32 8
        colorBufferCount := image.readU32 9
        auxiliaryBufferCount := image.readU32 10
        textureMemoryBytes := image.readU32 11
        lfbWriteColorFormat := image.readU32 12
        alphaTestFunction := image.readU32 13
        depthBufferFunction := image.readU32 14
        fogMode := image.readU32 15
        clipMinX := image.readU32 16
        clipMinY := image.readU32 17
        clipMaxX := image.readU32 18
        clipMaxY := image.readU32 19
        cullMode := image.readU32 20
        ditherMode := image.readU32 21
        constantColor := image.readU32 22 }

/-! ## The round trip -/

/-- The word at an index of a run of little-endian words. -/
theorem word32_flatMap_le32 (words : List Word) (rest : List Byte) {index : ℕ} (h : index < words.length) :
    let bytes := words.flatMap le32 ++ rest
    word32 (bytes.getD (4 * index) 0) (bytes.getD (4 * index + 1) 0) (bytes.getD (4 * index + 2) 0)
      (bytes.getD (4 * index + 3) 0) = words[index] := by
  induction words generalizing index with
  | nil => cases h
  | cons w words ih =>
    cases index with
    | zero => exact word32_le32 w
    | succ index => exact ih (Nat.lt_of_succ_lt_succ h)

theorem readU32_build (state : GlideLogicalState) {index : ℕ} (h : index < 23) :
    (buildGlideStateImage state).readU32 index = state.imageWords.getD index 0 := by
  rw [List.getD_eq_getElem _ _ h]
  exact word32_flatMap_le32 state.imageWords _ h

/-- What a state becomes when the image of another one is restored over it. -/
def GlideLogicalState.restoredTo (state saved : GlideLogicalState) : GlideLogicalState :=
  { state with
    initialized := saved.initialized
    selectedBoard := saved.selectedBoard
    windowOpen := saved.windowOpen
    width := saved.width
    height := saved.height
    colorFormat := saved.colorFormat
    origin := saved.origin
    colorBufferCount := saved.colorBufferCount
    auxiliaryBufferCount := saved.auxiliaryBufferCount
    textureMemoryBytes := saved.textureMemoryBytes
    lfbWriteColorFormat := saved.lfbWriteColorFormat
    alphaTestFunction := saved.alphaTestFunction
    depthBufferFunction := saved.depthBufferFunction
    fogMode := saved.fogMode
    clipMinX := saved.clipMinX
    clipMinY := saved.clipMinY
    clipMaxX := saved.clipMaxX
    clipMaxY := saved.clipMaxY
    cullMode := saved.cullMode
    ditherMode := saved.ditherMode
    constantColor := saved.constantColor }

/-- An image is accepted over any state, and restores the fields it holds. -/
theorem parse_build (saved state : GlideLogicalState) :
    parseGlideStateImage (buildGlideStateImage saved) state = some (state.restoredTo saved) := by
  have hflag : ∀ flag : Bool, ((if flag then 1 else 0 : Word) != 0) = flag := by decide
  simp (disch := decide) only [parseGlideStateImage, readU32_build]
  rw [if_neg (by simp [GlideLogicalState.imageWords])]
  simp only [GlideLogicalState.restoredTo, GlideLogicalState.imageWords, List.getD_cons_succ, List.getD_cons_zero,
    hflag]

end Repiu.Glide
