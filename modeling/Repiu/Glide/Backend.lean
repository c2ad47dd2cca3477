import Mathlib.Logic.Function.Basic
import Repiu.Glide.LogicalState

/-!
# The backend's setters

The render state behind the setters (`glide_opengl_backend.cpp`,
`glide_opengl_shader.cpp`): the members of the backend, and the OpenGL context they are
written to.
-/

namespace Repiu.Glide

/-! ## The answer of a call -/

/-- A call of the backend takes effect and reports so, or reports a failure of which only some
commands took effect. -/
inductive Outcome
  | applied
  | failed (effects : ℕ → Bool)

namespace Outcome

def ok : Outcome → Bool
  | applied => true
  | failed _ => false

/-- Whether a command of the call took effect. -/
def effect : Outcome → ℕ → Bool
  | applied, _ => true
  | failed effects, i => effects i

end Outcome

/-! ## OpenGL -/

inductive GlBlendFactor
  | zero | one | srcAlpha | dstColor | srcColor | dstAlpha | oneMinusSrcAlpha | oneMinusDstColor
  | oneMinusSrcColor | oneMinusDstAlpha | srcAlphaSaturate
deriving DecidableEq

inductive GlideOpenGlCullFace
  | kDisabled | kFront | kBack
deriving DecidableEq

/-- The parameters of a texture object: `GL_LINEAR` filters, and `GL_CLAMP_TO_EDGE` wraps. -/
structure Sampler where
  minLinear : Bool := false
  magLinear : Bool := true
  clampS : Bool := false
  clampT : Bool := false
deriving DecidableEq

/-- What a texture was decoded from. -/
structure TextureImage where
  format : Word
  width : Word
  height : Word
  source : List Byte
  palette : Option (List Byte)
deriving DecidableEq

/-- The context, as far as setters and draws write it. -/
structure GlContext where
  colorMaskRgb : Bool := true
  colorMaskAlpha : Bool := true
  drawBuffer : Word := 1
  depthMask : Bool := true
  depthTest : Bool := false
  depthFunc : Word := 1
  blend : Bool := false
  blendFunc : GlBlendFactor × GlBlendFactor := (.one, .zero)
  alphaTest : Bool := false
  /-- The comparison, and the reference in parts of 255. -/
  alphaFunc : Word × Word := (7, 0)
  scissorTest : Bool := false
  /-- The picture whose rectangle is the viewport and the scissor box. -/
  viewport : Option (Word × Word) := none
  cullFace : Bool := false
  cullFaceMode : GlideOpenGlCullFace := .kBack
  dither : Bool := true
  fog : Bool := false
  boundTexture : ℕ := 0
  samplers : ℕ → Sampler := fun _ => {}
  images : ℕ → Option TextureImage := fun _ => none
  -- the uniforms of the shader
  alphaCombine : GlideCombineState := {}
  colorCombine : GlideCombineState := {}
  constantColor : Word := 0
  fogMode : Word := 0
  fogColor : Word := 0
  fogTable : List Byte := []
  textureEnabled : Bool := false

/-! ## The backend -/

structure TextureEntry where
  glName : ℕ
  image : TextureImage
  paletteGeneration : BitVec 64

structure GlideOpenGlBackend where
  /-- `window_ != nullptr` -/
  window : Bool := false
  dummyMode : Bool := false
  logicalWidth : Word := 0
  logicalHeight : Word := 0
  originLowerLeft : Bool := false
  alphaTestFunction : Word := 7
  alphaTestReference : Word := 0
  tmuSClamp : Word := 0
  tmuTClamp : Word := 0
  tmuMinFilter : Word := 0
  tmuMagFilter : Word := 0
  textures : Word → Option TextureEntry := fun _ => none
  currentTexture : Option Word := none
  textureCombineEnabled : Bool := false
  paletteRgba8 : List Byte := List.replicate 1024 0
  paletteValid : Bool := false
  paletteGeneration : BitVec 64 := 0
  gl : GlContext := {}
  /-- The name that `glGenTextures` gives next. -/
  nextTextureName : ℕ := 1

namespace GlideOpenGlBackend

variable (b : GlideOpenGlBackend)

def isOpen : Bool := b.window || b.dummyMode

/-- A command of a call, where it takes effect. -/
def command (outcome : Outcome) (i : ℕ) (f : GlContext → GlContext) : GlideOpenGlBackend :=
  if outcome.effect i then { b with gl := f b.gl } else b

/-- A setter that is refused, or taken, and then sent to the context where there is one. -/
def send (accepted : Prop) [Decidable accepted] (sent : GlideOpenGlBackend) (outcome : Outcome) :
    GlideOpenGlBackend × Bool :=
  if ¬accepted then (b, false)
  else if b.dummyMode then (b, true)
  else (sent, outcome.ok)

/-- The entry behind `current_texture_`. -/
def currentEntry : Option TextureEntry := b.currentTexture.bind b.textures

def setColorMask (rgb alpha : Bool) (outcome : Outcome) : GlideOpenGlBackend × Bool :=
  b.send b.isOpen (b.command outcome 0 fun gl => { gl with colorMaskRgb := rgb, colorMaskAlpha := alpha }) outcome

def setRenderBuffer (buffer : Word) (outcome : Outcome) : GlideOpenGlBackend × Bool :=
  b.send (b.isOpen ∧ (buffer = 0 ∨ buffer = 1)) (b.command outcome 0 fun gl => { gl with drawBuffer := buffer })
    outcome

def setDepthMask (enabled : Bool) (outcome : Outcome) : GlideOpenGlBackend × Bool :=
  b.send b.isOpen (b.command outcome 0 fun gl => { gl with depthMask := enabled }) outcome

def setDepthBufferMode (mode : Word) (outcome : Outcome) : GlideOpenGlBackend × Bool :=
  b.send (b.isOpen ∧ (mode = 0 ∨ mode = 1)) (b.command outcome 0 fun gl => { gl with depthTest := mode == 1 }) outcome

/-- The uniforms of a combine equation, of which each takes effect or not. -/
def uploadCombine (old new : GlideCombineState) (outcome : Outcome) : GlideCombineState where
  function := if outcome.effect 0 then new.function else old.function
  factor := if outcome.effect 1 then new.factor else old.factor
  localSource := if outcome.effect 2 then new.localSource else old.localSource
  other := if outcome.effect 3 then new.other else old.other
  invert := if outcome.effect 4 then new.invert else old.invert
  valid := new.valid

/-- The backend's answer to an equation: applied, failed, or one that the shader refuses. -/
inductive Expressed
  | applied | failed | unsupported
deriving DecidableEq

/-- `supported`: the shader has a program. -/
def setAlphaCombine (state : GlideCombineState) (supported : Bool) (outcome : Outcome) :
    GlideOpenGlBackend × Expressed :=
  if ¬b.isOpen then (b, .failed)
  else if b.dummyMode then (b, .applied)
  else if ¬supported ∨ ¬state.valid then (b, .unsupported)
  else
    ({ b with gl := { b.gl with alphaCombine := uploadCombine b.gl.alphaCombine state outcome } },
      if outcome.ok then .applied else .failed)

def setColorCombine (state : GlideCombineState) (supported : Bool) (outcome : Outcome) :
    GlideOpenGlBackend × Expressed :=
  if ¬b.isOpen then (b, .failed)
  else if b.dummyMode then (b, .applied)
  else if ¬supported ∨ ¬state.valid then (b, .unsupported)
  else
    ({ b with gl := { b.gl with colorCombine := uploadCombine b.gl.colorCombine state outcome } },
      if outcome.ok then .applied else .failed)

def setTextureCombineEnabled (enabled : Bool) : GlideOpenGlBackend := { b with textureCombineEnabled := enabled }

def setConstantColor (argb : Word) (outcome : Outcome) : GlideOpenGlBackend × Bool :=
  b.send b.isOpen (b.command outcome 0 fun gl => { gl with constantColor := argb }) outcome

def mapGlideBlendFactor (factor : Word) (isSource : Bool) : Option GlBlendFactor :=
  match factor with
  | 0 => some .zero
  | 1 => some .srcAlpha
  | 2 => some (if isSource then .dstColor else .srcColor)
  | 3 => some .dstAlpha
  | 4 => some .one
  | 5 => some .oneMinusSrcAlpha
  | 6 => some (if isSource then .oneMinusDstColor else .oneMinusSrcColor)
  | 7 => some .oneMinusDstAlpha
  | 15 => some .srcAlphaSaturate
  | _ => none

def setAlphaBlend (state : GlideAlphaBlendState) (outcome : Outcome) : GlideOpenGlBackend × Expressed :=
  if ¬b.isOpen ∨ ¬state.valid then (b, .unsupported)
  else
    match mapGlideBlendFactor state.rgbSource true, mapGlideBlendFactor state.rgbDestination false with
    | some source, some destination =>
      if b.dummyMode then (b, .applied)
      else
        (if state.rgbSource = 4 ∧ state.rgbDestination = 0 then
            b.command outcome 0 fun gl => { gl with blend := false }
          else
            (b.command outcome 0 fun gl => { gl with blend := true }).command outcome 1
              fun gl => { gl with blendFunc := (source, destination) },
          if outcome.ok then .applied else .failed)
    | _, _ => (b, .unsupported)

def setAlphaTestFunction (function : Word) (outcome : Outcome) : GlideOpenGlBackend × Bool :=
  if ¬(b.isOpen ∧ function ≤ 7) then (b, false)
  else
    let b := { b with alphaTestFunction := function }
    b.send True
      (if function = 7 then b.command outcome 0 fun gl => { gl with alphaTest := false }
        else
          (b.command outcome 0 fun gl => { gl with alphaTest := true }).command outcome 1
            fun gl => { gl with alphaFunc := (function, b.alphaTestReference) })
      outcome

def setAlphaTestReferenceValue (referenceValue : Word) (outcome : Outcome) : GlideOpenGlBackend × Bool :=
  if ¬b.isOpen then (b, false)
  else
    let b := { b with alphaTestReference := referenceValue }
    b.send True
      (if b.alphaTestFunction = 7 then b
        else b.command outcome 0 fun gl => { gl with alphaFunc := (b.alphaTestFunction, referenceValue) })
      outcome

def setDepthBufferFunction (function : Word) (outcome : Outcome) : GlideOpenGlBackend × Bool :=
  b.send (b.isOpen ∧ function ≤ 7) (b.command outcome 0 fun gl => { gl with depthFunc := function }) outcome

def setFogMode (mode : Word) (outcome : Outcome) : GlideOpenGlBackend × Bool :=
  b.send (b.isOpen ∧ (mode = 0 ∨ mode = 2))
    ((b.command outcome 0 fun gl => { gl with fog := false }).command outcome 1 fun gl => { gl with fogMode := mode })
    outcome

def setFogColor (argb : Word) (outcome : Outcome) : GlideOpenGlBackend × Bool :=
  b.send b.isOpen (b.command outcome 0 fun gl => { gl with fogColor := argb }) outcome

def setFogTable (table : List Byte) (outcome : Outcome) : GlideOpenGlBackend × Bool :=
  b.send b.isOpen (b.command outcome 0 fun gl => { gl with fogTable := table }) outcome

/-- `ApplyDrawableViewport` is the first command. -/
def setClipWindow (minX minY maxX maxY : Word) (outcome : Outcome) : GlideOpenGlBackend × Bool :=
  b.send (b.isOpen ∧ minX = 0 ∧ minY = 0 ∧ maxX = b.logicalWidth ∧ maxY = b.logicalHeight)
    ((b.command outcome 0 fun gl => { gl with viewport := some (b.logicalWidth, b.logicalHeight) }).command outcome 1
      fun gl => { gl with scissorTest := true })
    outcome

def translateGlideOpenGlCullMode (mode : Word) (originLowerLeft : Bool) : Option GlideOpenGlCullFace :=
  if 2 < mode then none
  else if mode = 0 then some .kDisabled
  else if (if originLowerLeft then mode = 2 else mode = 1) then some .kFront
  else some .kBack

def setCullMode (mode : Word) (outcome : Outcome) : GlideOpenGlBackend × Bool :=
  match translateGlideOpenGlCullMode mode b.originLowerLeft with
  | none => (b, false)
  | some face =>
    b.send b.isOpen
      (if face = .kDisabled then b.command outcome 0 fun gl => { gl with cullFace := false }
        else
          -- the front face is never another one
          (b.command outcome 1 fun gl => { gl with cullFaceMode := face }).command outcome 2
            fun gl => { gl with cullFace := true })
      outcome

def setDitherMode (mode : Word) (outcome : Outcome) : GlideOpenGlBackend × Bool :=
  b.send (b.isOpen ∧ mode = 2) (b.command outcome 0 fun gl => { gl with dither := true }) outcome

/-! ## Textures -/

/-- `glBindTexture`, and parameters of the texture that is bound. -/
def bindWith (name : ℕ) (f : Sampler → Sampler) : GlideOpenGlBackend :=
  { b with
    gl := { b.gl with boundTexture := name, samplers := Function.update b.gl.samplers name (f (b.gl.samplers name)) } }

def sourceTexture (startAddress : Word) : GlideOpenGlBackend × Bool :=
  match b.textures startAddress with
  | none => ({ b with currentTexture := none }, false)
  | some entry =>
    (({ b with currentTexture := some startAddress } : GlideOpenGlBackend).bindWith entry.glName fun _ =>
      { minLinear := b.tmuMinFilter == 1
        magLinear := b.tmuMagFilter == 1
        clampS := b.tmuSClamp == 1
        clampT := b.tmuTClamp == 1 }, true)

/-- The name of the current texture, where its parameters are written at once. -/
def liveTexture : Option ℕ :=
  if b.isOpen ∧ ¬b.dummyMode then (b.currentEntry.map TextureEntry.glName).filter (· ≠ 0) else none

def setTextureClampMode (sClamp tClamp : Word) : GlideOpenGlBackend :=
  let b := { b with tmuSClamp := sClamp, tmuTClamp := tClamp }
  match b.liveTexture with
  | none => b
  | some name => b.bindWith name fun sampler => { sampler with clampS := sClamp == 1, clampT := tClamp == 1 }

def setTextureFilterMode (minFilter magFilter : Word) : GlideOpenGlBackend :=
  let b := { b with tmuMinFilter := minFilter, tmuMagFilter := magFilter }
  match b.liveTexture with
  | none => b
  | some name => b.bindWith name fun sampler => { sampler with minLinear := minFilter == 1, magLinear := magFilter == 1 }

def isGlidePalettizedTextureFormat (format : Word) : Bool := format == 5 || format == 14

/-- `StoreTexture`, of texels that it can decode. -/
def storeTexture (startAddress : Word) (image : TextureImage) (outcome : Outcome) : GlideOpenGlBackend × Bool :=
  if ¬b.isOpen ∨ b.dummyMode then (b, false)
  else
    let name := ((b.textures startAddress).map TextureEntry.glName).getD b.nextTextureName
    let paletteGeneration :=
      if isGlidePalettizedTextureFormat image.format ∧ b.paletteValid ∧ image.palette = some b.paletteRgba8 then
        b.paletteGeneration
      else 0
    (({ b with
        textures := Function.update b.textures startAddress (some { glName := name, image, paletteGeneration })
        nextTextureName := max b.nextTextureName (name + 1)
        gl := { b.gl with boundTexture := name } } : GlideOpenGlBackend).command outcome 0
      fun gl => { gl with images := Function.update gl.images name (some image) }, outcome.ok)

def refreshPalettizedTextures (paletteRgba8 : List Byte) : GlideOpenGlBackend :=
  if b.paletteValid ∧ b.paletteRgba8 = paletteRgba8 then b
  else if b.paletteGeneration + 1 = 0 then
    { b with
      paletteRgba8, paletteValid := true, paletteGeneration := 1
      textures := fun address => (b.textures address).map fun entry => { entry with paletteGeneration := 0 } }
  else { b with paletteRgba8, paletteValid := true, paletteGeneration := b.paletteGeneration + 1 }

/-- `RefreshCurrentPalettizedTexture`. The first effect is the decoder's, the second the upload's. -/
def refreshCurrentPalettizedTexture (outcome : Outcome) : GlideOpenGlBackend × Bool :=
  match b.currentTexture, b.currentEntry with
  | some address, some entry =>
    if ¬isGlidePalettizedTextureFormat entry.image.format ∨ entry.image.source = [] ∨ ¬b.paletteValid ∨
        entry.paletteGeneration = b.paletteGeneration then (b, true)
    else if ¬outcome.effect 0 then (b, false)
    else
      let bound := { b with gl := { b.gl with boundTexture := entry.glName } }
      let image := { entry.image with palette := some b.paletteRgba8 }
      if ¬outcome.effect 1 then (bound, false)
      else
        ({ bound with
            textures := Function.update b.textures address (some { entry with paletteGeneration := b.paletteGeneration })
            gl := { bound.gl with images := Function.update b.gl.images entry.glName (some image) } }, true)
  | _, _ => (b, true)

/-- `PrepareDrawState`, of a draw that is not dropped before. -/
def prepareDrawState (outcome : Outcome) : GlideOpenGlBackend :=
  if ¬b.isOpen ∨ b.dummyMode then b
  else
    match b.textureCombineEnabled, (b.currentEntry.map TextureEntry.glName).filter (· ≠ 0) with
    | true, some name =>
      let refreshed := b.refreshCurrentPalettizedTexture outcome
      if ¬refreshed.2 then refreshed.1
      else { refreshed.1 with gl := { refreshed.1.gl with boundTexture := name, textureEnabled := true } }
    | _, _ => { b with gl := { b.gl with textureEnabled := false } }

/-! ## The window -/

/-- `Close`, with the context gone. -/
def close : GlideOpenGlBackend :=
  if b.dummyMode then
    { b with
      dummyMode := false, logicalWidth := 0, logicalHeight := 0
      paletteRgba8 := List.replicate 1024 0, paletteValid := false, paletteGeneration := 0 }
  else
    { b with
      window := false, logicalWidth := 0, logicalHeight := 0, originLowerLeft := false
      textures := fun _ => none, currentTexture := none
      paletteRgba8 := List.replicate 1024 0, paletteValid := false, paletteGeneration := 0
      textureCombineEnabled := false, gl := {} }

/-- What the host makes of a request for a window. -/
inductive Opening
  | window | noVideo | noShader
  -- an exception, before or behind the window
  | throws (window : Bool)
deriving DecidableEq

/-- `OpenWindowed`. -/
def openWindowed (width height colorBufferCount origin : Word) (opening : Opening) : GlideOpenGlBackend × Bool :=
  let b := { b.close with dummyMode := false, originLowerLeft := origin == 1 }
  if width = 0 ∨ height = 0 ∨ colorBufferCount < 2 then (b, false)
  else
    match opening with
    | .throws window => ({ b with window }, false)
    | .noVideo => ({ b with dummyMode := true, logicalWidth := width, logicalHeight := height }, true)
    | .noShader =>
      -- the window is open by then, and is closed again
      ({ ({ b with window := true } : GlideOpenGlBackend).close with
          dummyMode := true, logicalWidth := width, logicalHeight := height }, true)
    | .window =>
      ({ b with
          window := true, logicalWidth := width, logicalHeight := height
          gl := { viewport := some (width, height) } }, true)

end GlideOpenGlBackend

end Repiu.Glide
