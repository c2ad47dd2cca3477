import Repiu.Glide.Backend
import Repiu.Glide.SetterState

/-!
# The setter gates

What `HandleGlideGateBoundary` does to the logical state and to the backend, gate by gate
(`linexe_glide_boundary.cpp`). Presents, swaps and read-backs leave the render state as they
find it.
-/

namespace Repiu.Glide

/-- The logical state, and the backend. -/
structure GlideState where
  mirror : GlideLogicalState := {}
  backend : GlideOpenGlBackend := {}

/-- A call of a gate: its argument words, whether it is turned away before its dispatch, what its
pointers name where they can be read, and the answers of the backend. -/
structure GlideCall where
  gate : GlideGateId
  words : List Word := []
  rejected : Bool := false
  outcome : Outcome := .applied
  /-- The shader has a program. -/
  supported : Bool := true
  opening : GlideOpenGlBackend.Opening := .window
  bytes : Option (List Byte) := none
  /-- The texels, where they can be decoded. -/
  texels : Option TextureImage := none
  image : Option GlideStateImage := none

/-- An argument word. -/
def GlideCall.arg (c : GlideCall) (i : ℕ) : Word := c.words.getD i 0

def convertGlideColorToArgb (value colorFormat : Word) : Word :=
  let byte (i : ℕ) : Byte := value.extractLsb' i 8
  match colorFormat with
  | 1 => byte 24 ++ byte 0 ++ byte 8 ++ byte 16
  | 2 => byte 0 ++ byte 24 ++ byte 16 ++ byte 8
  | 3 => byte 0 ++ byte 8 ++ byte 16 ++ byte 24
  | _ => value

def decodeGlideResolution (resolution : Word) : Option (Word × Word) :=
  if resolution = 7 then some (640, 480) else none

/-- `DecodeGlidePaletteToRgba8`: the low three bytes of each word, the highest first. -/
def decodeGlidePaletteToRgba8 (source : List Byte) : List Byte :=
  (List.range 256).flatMap fun i => [source.getD (4 * i + 2) 0, source.getD (4 * i + 1) 0, source.getD (4 * i) 0, 255]

/-- The equation of a combine gate. -/
def combineOf (arg : ℕ → Word) : GlideCombineState where
  function := arg 0
  factor := arg 1
  localSource := arg 2
  other := arg 3
  invert := arg 4 != 0
  valid := true

/-- The functions of the blend gate. -/
def alphaBlendOf (arg : ℕ → Word) : GlideAlphaBlendState where
  rgbSource := arg 0
  rgbDestination := arg 1
  alphaSource := arg 2
  alphaDestination := arg 3
  valid := true

namespace GlideState

variable (s : GlideState)

/-- The states behind a gate and whether it recorded no issue: a setter that the backend answers, with the
mirror to write where it does. -/
def settle (answer : GlideOpenGlBackend × Bool) (mirror : GlideLogicalState) : GlideState × Bool :=
  if answer.2 then ({ mirror, backend := answer.1 }, true) else ({ s with backend := answer.1 }, false)

/-- The same, of a gate that keeps an equation the backend does not express. -/
def settleExpressed (answer : GlideOpenGlBackend × GlideOpenGlBackend.Expressed) (mirror : GlideLogicalState) :
    GlideState × Bool :=
  if answer.2 = .failed then ({ s with backend := answer.1 }, false)
  else ({ mirror, backend := answer.1 }, answer.2 = .applied)

def grHints (c : GlideCall) : GlideState × Bool :=
  let mirror := { s.mirror with hintsSeen := true }
  match c.arg 0 with
  | 0 => ({ s with mirror := { mirror with stwHint := c.arg 1 } }, c.arg 1 &&& ~~~0x7F == 0)
  | 1 => ({ s with mirror := { mirror with fifoCheckHint := c.arg 1 } }, true)
  | 2 => ({ s with mirror := { mirror with fpuPrecisionHint := c.arg 1 } }, true)
  | 3 => ({ s with mirror := { mirror with allowMipmapDitherHint := c.arg 1 } }, true)
  | _ => ({ s with mirror }, false)

def grSstWinOpen (c : GlideCall) : GlideState × Bool :=
  match if c.arg 0 = 0 ∧ c.arg 2 = 0 then decodeGlideResolution (c.arg 1) else none with
  | none => (s, false)
  | some (width, height) =>
    s.settle (s.backend.openWindowed width height (c.arg 5) (c.arg 4) c.opening)
      { s.mirror with
        windowOpen := true, width, height, colorFormat := c.arg 3, lfbWriteColorFormat := c.arg 3
        origin := c.arg 4, colorBufferCount := c.arg 5, auxiliaryBufferCount := c.arg 6 }

def grTexDownloadTable (c : GlideCall) : GlideState × Bool :=
  match if c.arg 1 = 2 then c.bytes else none with
  | none => (s, false)
  | some data =>
    let palette := decodeGlidePaletteToRgba8 data
    ({ mirror := { s.mirror with paletteRgba8 := palette, paletteValid := true }
       backend := s.backend.refreshPalettizedTextures palette }, true)

def grTexDownloadMipMapLevel (c : GlideCall) : GlideState × Bool :=
  match c.texels with
  | none => (s, false)
  | some texels =>
    let palette := if s.mirror.paletteValid then some s.mirror.paletteRgba8 else none
    s.settle (s.backend.storeTexture (c.arg 1) { texels with palette } c.outcome) s.mirror

def grColorCombine (c : GlideCall) : GlideState × Bool :=
  let state := combineOf c.arg
  let backend := s.backend.setTextureCombineEnabled (state.function == 3 && state.other == 1)
  ({ s with backend } : GlideState).settleExpressed (backend.setColorCombine state c.supported c.outcome)
    { s.mirror with colorCombine := state }

def grAlphaCombine (c : GlideCall) : GlideState × Bool :=
  let state := combineOf c.arg
  s.settleExpressed (s.backend.setAlphaCombine state c.supported c.outcome) { s.mirror with alphaCombine := state }

def grAlphaBlendFunction (c : GlideCall) : GlideState × Bool :=
  let state := alphaBlendOf c.arg
  s.settleExpressed (s.backend.setAlphaBlend state c.outcome) { s.mirror with alphaBlend := state }

def grFogColorValue (c : GlideCall) : GlideState × Bool :=
  let fogColor := convertGlideColorToArgb (c.arg 0) s.mirror.colorFormat
  let mirror := { s.mirror with fogColor }
  ({ s with mirror } : GlideState).settle (s.backend.setFogColor fogColor c.outcome) mirror

def grConstantColorValue (c : GlideCall) : GlideState × Bool :=
  let constantColor := convertGlideColorToArgb (c.arg 0) s.mirror.colorFormat
  let mirror := { s.mirror with constantColor }
  ({ s with mirror } : GlideState).settle (s.backend.setConstantColor constantColor c.outcome) mirror

def grFogTable (c : GlideCall) : GlideState × Bool :=
  let mirror := { s.mirror with fogTablePointer := c.arg 0 }
  match c.bytes with
  | none => ({ s with mirror }, false)
  | some table =>
    let mirror := { mirror with fogTable := table, fogTableValid := true }
    ({ s with mirror } : GlideState).settle (s.backend.setFogTable table c.outcome) mirror

def grGlideSetState (c : GlideCall) : GlideState × Bool :=
  match c.image.bind (parseGlideStateImage · s.mirror) with
  | none => (s, false)
  | some mirror => ({ s with mirror }, true)

/-- The switch of `HandleGlideGateBoundary`: the state, and whether no issue was recorded. -/
def dispatch (c : GlideCall) : GlideState × Bool :=
  match c.gate with
  | .kGrHints => s.grHints c
  | .kGrGlideInit => ({ s with mirror := { s.mirror with initialized := true } }, true)
  | .kGrSstSelect => if c.arg 0 = 0 then ({ s with mirror := { s.mirror with selectedBoard := 0 } }, true) else (s, false)
  | .kGrSstWinOpen => s.grSstWinOpen c
  | .kGrSstWinClose =>
    ({ mirror := { s.mirror with windowOpen := false }, backend := s.backend.close }, true)
  | .kGrTexDownloadTable => s.grTexDownloadTable c
  | .kGrTexDownloadMipMapLevel => s.grTexDownloadMipMapLevel c
  | .kGrTexSource => s.settle (s.backend.sourceTexture (c.arg 1)) s.mirror
  | .kGrColorMask => s.settle (s.backend.setColorMask (c.arg 0 != 0) (c.arg 1 != 0) c.outcome) s.mirror
  | .kGrRenderBuffer => s.settle (s.backend.setRenderBuffer (c.arg 0) c.outcome) s.mirror
  | .kGrDepthMask => s.settle (s.backend.setDepthMask (c.arg 0 != 0) c.outcome) s.mirror
  | .kGrDepthBufferMode => s.settle (s.backend.setDepthBufferMode (c.arg 0) c.outcome) s.mirror
  | .kGrLfbWriteColorFormat => ({ s with mirror := { s.mirror with lfbWriteColorFormat := c.arg 0 } }, true)
  | .kGrAlphaCombine => s.grAlphaCombine c
  | .kGrColorCombine => s.grColorCombine c
  | .kGrAlphaBlendFunction => s.grAlphaBlendFunction c
  | .kGrAlphaTestFunction =>
    s.settle (s.backend.setAlphaTestFunction (c.arg 0) c.outcome) { s.mirror with alphaTestFunction := c.arg 0 }
  | .kGrAlphaTestReferenceValue =>
    s.settle (s.backend.setAlphaTestReferenceValue (c.arg 0) c.outcome) { s.mirror with alphaTestReference := c.arg 0 }
  | .kGrDepthBufferFunction =>
    s.settle (s.backend.setDepthBufferFunction (c.arg 0) c.outcome) { s.mirror with depthBufferFunction := c.arg 0 }
  | .kGrClipWindow =>
    s.settle (s.backend.setClipWindow (c.arg 0) (c.arg 1) (c.arg 2) (c.arg 3) c.outcome)
      { s.mirror with clipMinX := c.arg 0, clipMinY := c.arg 1, clipMaxX := c.arg 2, clipMaxY := c.arg 3 }
  | .kGrCullMode => s.settle (s.backend.setCullMode (c.arg 0) c.outcome) { s.mirror with cullMode := c.arg 0 }
  | .kGrGlideSetState => s.grGlideSetState c
  | .kGrDitherMode => s.settle (s.backend.setDitherMode (c.arg 0) c.outcome) { s.mirror with ditherMode := c.arg 0 }
  | .kGrFogMode => s.settle (s.backend.setFogMode (c.arg 0) c.outcome) { s.mirror with fogMode := c.arg 0 }
  | .kGrFogColorValue => s.grFogColorValue c
  | .kGrFogTable => s.grFogTable c
  | .kGrConstantColorValue => s.grConstantColorValue c
  | .kGrTexClampMode => ({ s with backend := s.backend.setTextureClampMode (c.arg 1) (c.arg 2) }, true)
  | .kGrTexFilterMode => ({ s with backend := s.backend.setTextureFilterMode (c.arg 1) (c.arg 2) }, true)
  | .kGrDrawLine | .kGrAADrawLine | .kGrDrawTriangle | .kGrAADrawTriangle | .kGrDrawPoint | .kGrAADrawPoint
  | .kGrDrawPlanarPolygon | .kGrDrawPolygon | .kGrAADrawPolygon | .kGrDrawPlanarPolygonVertexList
  | .kGrDrawPolygonVertexList | .kGrAADrawPolygonVertexList =>
    if c.bytes = none then (s, false) else ({ s with backend := s.backend.prepareDrawState c.outcome }, c.outcome.ok)
  | .kGrTexMipMapMode | .kGrTexCombine => (s, true)
  -- they set nothing
  | .kGrBufferClear | .kGrBufferSwap | .kGrBufferNumPending
  | .kGrSstQueryHardware | .kGrSstScreenWidth | .kGrSstScreenHeight | .kGrTexTextureMemRequired | .kGrTexMinAddress
  | .kGrTexMaxAddress | .kGuFogGenerateExp | .kGrGlideGetState | .kGrLfbLock | .kGrLfbUnlock | .kGrLfbWriteRegion
  | .kGrLfbReadRegion => (s, c.outcome.ok)
  -- the depth bias and the LFB constants among them, and the catalogue's default
  | _ => (s, false)

/-- The gate as it acts when nothing is skipped. -/
def apply (c : GlideCall) : GlideState := if c.rejected then s else (s.dispatch c).1

end GlideState

end Repiu.Glide
