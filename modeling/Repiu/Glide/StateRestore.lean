import Repiu.Glide.SetterGates

/-!
# Keeping and restoring the state

`grGlideGetState` and `grGlideSetState`. The image holds a part of the logical state, and
restoring it writes nothing to the backend.
-/

namespace Repiu.Glide

/-- `grGlideGetState`: what it writes for the guest. -/
def GlideState.grGlideGetState (s : GlideState) : GlideStateImage := buildGlideStateImage s.mirror

/-- A call of `grGlideSetState`, with the image where its memory can be read. -/
def grGlideSetStateCall (image : Option GlideStateImage) : GlideCall where
  gate := .kGrGlideSetState
  image

/-! ## The fields that setters change -/

/-- Two logical states agree in the setter fields that the image holds. -/
structure SameHeld (m m' : GlideLogicalState) : Prop where
  alphaTestFunction : m.alphaTestFunction = m'.alphaTestFunction
  depthBufferFunction : m.depthBufferFunction = m'.depthBufferFunction
  fogMode : m.fogMode = m'.fogMode
  clipMinX : m.clipMinX = m'.clipMinX
  clipMinY : m.clipMinY = m'.clipMinY
  clipMaxX : m.clipMaxX = m'.clipMaxX
  clipMaxY : m.clipMaxY = m'.clipMaxY
  cullMode : m.cullMode = m'.cullMode
  ditherMode : m.ditherMode = m'.ditherMode
  constantColor : m.constantColor = m'.constantColor

/-- Two logical states agree in the setter fields that the image lacks. -/
structure SameBeside (m m' : GlideLogicalState) : Prop where
  alphaCombine : m.alphaCombine = m'.alphaCombine
  colorCombine : m.colorCombine = m'.colorCombine
  alphaBlend : m.alphaBlend = m'.alphaBlend
  alphaTestReference : m.alphaTestReference = m'.alphaTestReference
  fogColor : m.fogColor = m'.fogColor
  fogTable : m.fogTable = m'.fogTable

/-- Two backends draw with the same setter state. -/
structure SameRender (b b' : GlideOpenGlBackend) : Prop where
  colorMaskRgb : b.gl.colorMaskRgb = b'.gl.colorMaskRgb
  colorMaskAlpha : b.gl.colorMaskAlpha = b'.gl.colorMaskAlpha
  depthMask : b.gl.depthMask = b'.gl.depthMask
  depthTest : b.gl.depthTest = b'.gl.depthTest
  depthFunc : b.gl.depthFunc = b'.gl.depthFunc
  blend : b.gl.blend = b'.gl.blend
  blendFunc : b.gl.blendFunc = b'.gl.blendFunc
  alphaTest : b.gl.alphaTest = b'.gl.alphaTest
  alphaFunc : b.gl.alphaFunc = b'.gl.alphaFunc
  scissorTest : b.gl.scissorTest = b'.gl.scissorTest
  viewport : b.gl.viewport = b'.gl.viewport
  cullFace : b.gl.cullFace = b'.gl.cullFace
  cullFaceMode : b.gl.cullFaceMode = b'.gl.cullFaceMode
  dither : b.gl.dither = b'.gl.dither
  fog : b.gl.fog = b'.gl.fog
  alphaCombine : b.gl.alphaCombine = b'.gl.alphaCombine
  colorCombine : b.gl.colorCombine = b'.gl.colorCombine
  textureCombineEnabled : b.textureCombineEnabled = b'.textureCombineEnabled
  constantColor : b.gl.constantColor = b'.gl.constantColor
  fogMode : b.gl.fogMode = b'.gl.fogMode
  fogColor : b.gl.fogColor = b'.gl.fogColor
  fogTable : b.gl.fogTable = b'.gl.fogTable

/-- Two states agree in every field that a setter can change. -/
structure SameSetters (s s' : GlideState) : Prop where
  held : SameHeld s.mirror s'.mirror
  beside : SameBeside s.mirror s'.mirror
  render : SameRender s.backend s'.backend

/-! ## Restoring -/

variable (saved later : GlideState)

/-- The image of a state restores the part of the logical state that it holds, and only that. -/
theorem apply_grGlideSetState_image :
    later.apply (grGlideSetStateCall (some saved.grGlideGetState)) =
      { later with mirror := later.mirror.restoredTo saved.mirror } := by
  have hread : (grGlideSetStateCall (some saved.grGlideGetState)).image.bind (parseGlideStateImage · later.mirror) =
      some (later.mirror.restoredTo saved.mirror) := parse_build saved.mirror later.mirror
  show (later.grGlideSetState (grGlideSetStateCall (some saved.grGlideGetState))).1 = _
  rw [GlideState.grGlideSetState, hread]

theorem sameHeld_restoredTo (m saved : GlideLogicalState) : SameHeld (m.restoredTo saved) saved := by
  constructor <;> rfl

theorem sameBeside_restoredTo_iff {m saved m' : GlideLogicalState} :
    SameBeside (m.restoredTo saved) m' ↔ SameBeside m m' := by
  constructor <;> intro h <;>
    exact ⟨h.alphaCombine, h.colorCombine, h.alphaBlend, h.alphaTestReference, h.fogColor, h.fogTable⟩

/-- An image that is not accepted, or cannot be read, changes nothing. -/
theorem apply_grGlideSetState_of_none {image : Option GlideStateImage}
    (h : image.bind (parseGlideStateImage · later.mirror) = none) :
    later.apply (grGlideSetStateCall image) = later := by
  have hread : (grGlideSetStateCall image).image.bind (parseGlideStateImage · later.mirror) = none := h
  show (later.grGlideSetState (grGlideSetStateCall image)).1 = later
  rw [GlideState.grGlideSetState, hread]

/-- Behind any calls, the image of a state gives the logical state the fields it holds, leaves its other
fields and the backend as the calls left them, and so gives the whole setter state back exactly where the
calls did not change the part that is not in the image. A refused image changes nothing. -/
theorem grGlideSetState_restores_image (calls : List GlideCall) :
    let later := calls.foldl GlideState.apply saved
    let restored := later.apply (grGlideSetStateCall (some saved.grGlideGetState))
    SameHeld restored.mirror saved.mirror ∧
      restored = { later with mirror := later.mirror.restoredTo saved.mirror } ∧
      (SameSetters restored saved ↔
        SameBeside later.mirror saved.mirror ∧ SameRender later.backend saved.backend) ∧
      ∀ image : Option GlideStateImage, image.bind (parseGlideStateImage · later.mirror) = none →
        later.apply (grGlideSetStateCall image) = later := by
  intro later restored
  have hrestored : restored = { later with mirror := later.mirror.restoredTo saved.mirror } :=
    apply_grGlideSetState_image saved later
  refine ⟨?_, hrestored, ?_, fun _ => apply_grGlideSetState_of_none later⟩
  · rw [hrestored]
    exact sameHeld_restoredTo _ _
  · rw [hrestored]
    constructor
    · intro h
      exact ⟨sameBeside_restoredTo_iff.mp h.beside, h.render⟩
    · rintro ⟨hbeside, hrender⟩
      exact ⟨sameHeld_restoredTo _ _, sameBeside_restoredTo_iff.mpr hbeside, hrender⟩

/-- A state behind `grSstWinOpen`. -/
def openState : GlideState where
  mirror := { windowOpen := true, width := 640, height := 480 }
  backend := { window := true, logicalWidth := 640, logicalHeight := 480 }

/-- A cull mode that is set behind the image stays in the backend. -/
theorem grGlideSetState_leaves_backend :
    ¬ ∀ (saved : GlideState) (calls : List GlideCall), (∀ c ∈ calls, c.gate.isGlideSetterStateGate = true) →
      SameSetters
        ((calls.foldl GlideState.apply saved).apply (grGlideSetStateCall (some saved.grGlideGetState))) saved := by
  intro h
  have hsame := h openState [{ gate := .kGrCullMode, words := [1] }] (by decide)
  rw [apply_grGlideSetState_image] at hsame
  exact absurd hsame.render.cullFace (by decide)

end Repiu.Glide
