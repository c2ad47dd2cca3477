import Repiu.ByteMemory
import Repiu.Glide.Gates

/-!
# The staging shadow

Host copies of the two colour buffers (`glide_lfb_staging_shadow.cpp`), kept so that a
frame buffer lock need not read the buffer back. The copies are compared with the
buffers themselves, which only draws, clears, swaps and write-backs change.
-/

namespace Repiu.Glide

/-! ## The copies -/

/-- The bytes a 565 surface occupies; zero where it is not stored. -/
def shadowByteCount (width height : Word) : ℕ :=
  let required := width.toNat * height.toNat * 2
  if width = 0 ∨ height = 0 ∨ 32 * 1024 * 1024 < required then 0 else required

/-- `GlideLfbBufferShadow`. -/
structure GlideLfbBufferShadow where
  valid : Bool := false
  colorFormat : Word := 0
  width : Word := 0
  height : Word := 0
  pixels : List Byte := []
deriving DecidableEq, Repr

/-- `GlideLfbStagingShadowState`. -/
structure GlideLfbStagingShadowState where
  buffers : Fin 2 → GlideLfbBufferShadow := fun _ => {}
  renderBuffer : Word := 1

/-- `GlideLfbStagingShadowBufferIndexed`, with the index. -/
def bufferIndexed (buffer : Word) : Option (Fin 2) :=
  if h : buffer.toNat < 2 then some ⟨buffer.toNat, h⟩ else none

namespace GlideLfbStagingShadowState

/-- `SetGlideLfbStagingShadowRenderBuffer`. -/
def setRenderBuffer (s : GlideLfbStagingShadowState) (buffer : Word) : GlideLfbStagingShadowState :=
  if (bufferIndexed buffer).isSome then { s with renderBuffer := buffer } else s

/-- `CanReuseGlideLfbStagingShadow`. -/
def canReuse (s : GlideLfbStagingShadowState) (buffer colorFormat width height : Word) : Bool :=
  match bufferIndexed buffer with
  | none => false
  | some i =>
    let shadow := s.buffers i
    let required := shadowByteCount width height
    shadow.valid && required ≠ 0 && shadow.pixels.length = required && shadow.colorFormat = colorFormat &&
      shadow.width = width && shadow.height = height

/-- `LoadGlideLfbStagingShadow` into a surface of `byteCount` bytes: the bytes written to its front. -/
def load (s : GlideLfbStagingShadowState) (buffer : Word) (byteCount : ℕ) (colorFormat width height : Word) :
    Option (List Byte) :=
  if ¬s.canReuse buffer colorFormat width height then none
  else
    (bufferIndexed buffer).bind fun i =>
      if byteCount < (s.buffers i).pixels.length then none else some (s.buffers i).pixels

/-- `InvalidateGlideLfbStagingShadowBuffer`. -/
def invalidateBuffer (s : GlideLfbStagingShadowState) (buffer : Word) : GlideLfbStagingShadowState :=
  match bufferIndexed buffer with
  | none => s
  | some i => { s with buffers := Function.update s.buffers i { s.buffers i with valid := false } }

/-- `InvalidateGlideLfbStagingShadows`. -/
def invalidate (s : GlideLfbStagingShadowState) : GlideLfbStagingShadowState :=
  (s.invalidateBuffer 0).invalidateBuffer 1

/-- `RotateGlideLfbStagingShadows`. -/
def rotate (s : GlideLfbStagingShadowState) : GlideLfbStagingShadowState :=
  { s with buffers := s.buffers ∘ Equiv.swap 0 1 }

/-- `StoreGlideLfbStagingShadow`; whether the copy can be allocated is an input. -/
def store (s : GlideLfbStagingShadowState) (buffer : Word) (pixels : Option (List Byte))
    (colorFormat width height : Word) (allocated : Bool) : GlideLfbStagingShadowState :=
  match bufferIndexed buffer with
  | none => s.invalidate
  | some i =>
    let required := shadowByteCount width height
    match pixels with
    | none => s.invalidateBuffer buffer
    | some bytes =>
      if required = 0 ∨ bytes.length < required then s.invalidateBuffer buffer
      else if ¬allocated then s.invalidateBuffer buffer
      else
        let shadow := { valid := true, colorFormat, width, height, pixels := bytes.take required }
        { s with buffers := Function.update s.buffers i shadow }

end GlideLfbStagingShadowState

/-! ## Gates -/

/-- `GlideOrdinalPreservesLfbStagingShadow`. -/
def GlideGateId.preservesLfbStagingShadow : GlideGateId → Bool
  | .kGrBufferSwap | .kGrLfbLock | .kGrLfbUnlock | .kGrBufferNumPending
  | .kGrSstQueryHardware | .kGrSstQueryBoards | .kGrSstScreenWidth | .kGrSstScreenHeight
  | .kGrSstIdle | .kGrSstIsBusy | .kGrSstStatus | .kGrSstVideoLine
  | .kGrSstVRetraceOn | .kGrSstPerfStats | .kGrSstResetPerfStats | .kGrGlideGetState
  | .kGrTexTextureMemRequired | .kGrTexCalcMemRequired | .kGrHints | .kGrSstSelect
  | .kGrColorMask | .kGrDepthMask | .kGrDepthBiasLevel | .kGrDepthBufferMode
  | .kGrDepthBufferFunction | .kGrAlphaCombine | .kGrColorCombine | .kGrAlphaBlendFunction
  | .kGrAlphaTestFunction | .kGrAlphaTestReferenceValue | .kGrChromaKeyMode | .kGrChromaKeyValue
  | .kGrConstantColorValue | .kGrConstantColorValue4 | .kGrCullMode | .kGrDitherMode
  | .kGrClipWindow | .kGrGammaCorrectionValue | .kGrAlphaControlSitRgbLighting | .kGrFogMode
  | .kGrFogColorValue | .kGrFogTable | .kGuFogGenerateExp | .kGrTexMinAddress
  | .kGrTexMaxAddress | .kGrTexDownloadMipMap | .kGrTexDownloadMipMapLevel
  | .kGrTexDownloadMipMapLevelPartial | .kGrTexDownloadTable | .kGrTexDownloadTablePartial
  | .kGrTexNccTable | .kGrTexClampMode | .kGrTexCombine | .kGrTexCombineFunction
  | .kGrTexDetailControl | .kGrTexFilterMode | .kGrTexLodBiasValue | .kGrTexMipMapMode
  | .kGrTexMultiBase | .kGrTexMultiBaseAddress | .kGrTexSource | .kGrLfbConstantAlpha
  | .kGrLfbConstantDepth => true
  | _ => false

/-- The reasons of `GlideLfbStagingShadowInvalidation` that are gates. -/
inductive GlideLfbStagingShadowInvalidation
  | kSwapGate | kDrawGate | kClearGate | kRegionGate | kOtherGate
deriving DecidableEq, Repr

/-- `ClassifyGlideLfbStagingShadowGate`. -/
def GlideGateId.classifyLfbStagingShadow : GlideGateId → GlideLfbStagingShadowInvalidation
  | .kGrBufferSwap => .kSwapGate
  | .kGrBufferClear => .kClearGate
  | .kGrDrawLine | .kGrDrawPoint | .kGrDrawTriangle | .kGrDrawPlanarPolygon
  | .kGrDrawPlanarPolygonVertexList | .kGrDrawPolygon | .kGrDrawPolygonVertexList | .kGrAADrawPoint
  | .kGrAADrawLine | .kGrAADrawTriangle | .kGrAADrawPolygon | .kGrAADrawPolygonVertexList => .kDrawGate
  | .kGrLfbWriteRegion | .kGrLfbReadRegion => .kRegionGate
  | _ => .kOtherGate

/-- `GlideOrdinalTargetsRenderBufferOnly`. -/
def GlideGateId.targetsRenderBufferOnly (gate : GlideGateId) : Bool :=
  match gate.classifyLfbStagingShadow with
  | .kDrawGate | .kClearGate => true
  | _ => false

/-- `ApplyGlideLfbStagingShadowGate`. -/
def GlideLfbStagingShadowState.applyGate (s : GlideLfbStagingShadowState) (gate : GlideGateId) :
    GlideLfbStagingShadowState :=
  if gate = .kGrBufferSwap then s.rotate
  else if gate.preservesLfbStagingShadow then s
  else if gate.targetsRenderBufferOnly then s.invalidateBuffer s.renderBuffer
  else s.invalidate

/-! ## The buffers -/

/-- What a buffer reads as, by colour format, width and height. -/
abbrev BufferContent := Word → Word → Word → List Byte

/-- The buffers by number, the one last selected for rendering, and the copies. -/
structure LfbScreen where
  contents : Word → BufferContent
  selected : Word := 1
  shadow : GlideLfbStagingShadowState := {}

/-- A write-back of pixels: behind it the buffer reads as them, in their format and size. -/
structure WriteBack where
  buffer : Word
  pixels : Option (List Byte)
  colorFormat : Word
  width : Word
  height : Word
  after : BufferContent
  reads_back : ∀ bytes ∈ pixels, shadowByteCount width height ≤ bytes.length →
    after colorFormat width height = bytes.take (shadowByteCount width height)

/-- A gate that draws into, or clears, the buffer selected for rendering. -/
def GlideGateId.draws (gate : GlideGateId) : Prop :=
  gate.classifyLfbStagingShadow = .kDrawGate ∨ gate.classifyLfbStagingShadow = .kClearGate

instance (gate : GlideGateId) : Decidable gate.draws := inferInstanceAs (Decidable (_ ∨ _))

/-- What happens to the buffers and the copies. A gate comes with what it would leave in each
buffer, a write-back with whether the copy is allocated. -/
inductive LfbEvent
  | setRenderBuffer (buffer : Word)
  | gate (id : GlideGateId) (painted : Word → BufferContent)
  | store (w : WriteBack) (allocated : Bool)
  | load (buffer : Word) (byteCount : ℕ) (colorFormat width height : Word)

namespace LfbScreen

/-- The buffers behind a gate. -/
def paint (s : LfbScreen) (id : GlideGateId) (painted : Word → BufferContent) : Word → BufferContent :=
  if id = .kGrBufferSwap then s.contents ∘ Equiv.swap 0 1
  else if id.preservesLfbStagingShadow then s.contents
  else if id.draws then Function.update s.contents s.selected (painted s.selected)
  else painted

/-- One event. -/
def step (s : LfbScreen) : LfbEvent → LfbScreen
  | .setRenderBuffer buffer => { s with selected := buffer, shadow := s.shadow.setRenderBuffer buffer }
  | .gate id painted => { s with contents := s.paint id painted, shadow := s.shadow.applyGate id }
  | .store w allocated =>
    { s with
      contents := Function.update s.contents w.buffer w.after
      shadow := s.shadow.store w.buffer w.pixels w.colorFormat w.width w.height allocated }
  | .load .. => s

/-- The screen behind a run. -/
def run (s : LfbScreen) (events : List LfbEvent) : LfbScreen := events.foldl step s

end LfbScreen

/-! ## Coherence -/

/-- The number of a buffer. -/
def bufferNumber (i : Fin 2) : Word := BitVec.ofNat 32 i

theorem bufferIndexed_eq_some {buffer : Word} {i : Fin 2} : bufferIndexed buffer = some i ↔ buffer = bufferNumber i := by
  unfold bufferIndexed bufferNumber
  split_ifs with h
  · rw [Option.some.injEq, Fin.ext_iff, ← BitVec.toNat_inj, BitVec.toNat_ofNat, Nat.mod_eq_of_lt (by omega)]
  · constructor
    · intro hnone
      cases hnone
    · intro heq
      rw [heq, BitVec.toNat_ofNat, Nat.mod_eq_of_lt (by omega)] at h
      exact absurd i.isLt h

@[simp] theorem bufferIndexed_bufferNumber (i : Fin 2) : bufferIndexed (bufferNumber i) = some i :=
  bufferIndexed_eq_some.mpr rfl

theorem bufferNumber_injective : Function.Injective bufferNumber := by
  intro i j hij
  have hi := bufferIndexed_bufferNumber i
  rw [hij, bufferIndexed_bufferNumber, Option.some.injEq] at hi
  exact hi.symm

theorem bufferNumber_swap (i : Fin 2) : Equiv.swap 0 1 (bufferNumber i) = bufferNumber (Equiv.swap 0 1 i) := by
  fin_cases i <;> decide

/-- A valid copy holds what its buffer reads as. -/
def Holds (content : BufferContent) (shadow : GlideLfbBufferShadow) : Prop :=
  shadow.valid = true → content shadow.colorFormat shadow.width shadow.height = shadow.pixels

/-- The copies hold the buffers, and draws are tracked where they land on one that has a copy. -/
structure Coherent (s : LfbScreen) : Prop where
  tracked : ∀ i, s.selected = bufferNumber i → s.shadow.renderBuffer = bufferNumber i
  holds : ∀ i, Holds (s.contents (bufferNumber i)) (s.shadow.buffers i)

section
variable {s : GlideLfbStagingShadowState}

@[simp] theorem renderBuffer_invalidateBuffer (buffer : Word) :
    (s.invalidateBuffer buffer).renderBuffer = s.renderBuffer := by
  unfold GlideLfbStagingShadowState.invalidateBuffer
  cases bufferIndexed buffer <;> rfl

@[simp] theorem renderBuffer_invalidate : s.invalidate.renderBuffer = s.renderBuffer := by
  simp [GlideLfbStagingShadowState.invalidate]

theorem buffers_invalidateBuffer (i j : Fin 2) :
    (s.invalidateBuffer (bufferNumber j)).buffers i =
      if i = j then { s.buffers i with valid := false } else s.buffers i := by
  unfold GlideLfbStagingShadowState.invalidateBuffer
  rw [bufferIndexed_bufferNumber]
  by_cases hij : i = j
  · subst hij
    simp
  · rw [if_neg hij]
    exact Function.update_of_ne hij _ _

/-- Invalidating one copy keeps the others, whatever became of its buffer. -/
theorem Holds.invalidateBuffer {content : BufferContent} {i j : Fin 2}
    (h : i ≠ j → Holds content (s.buffers i)) :
    Holds content ((s.invalidateBuffer (bufferNumber j)).buffers i) := by
  rw [buffers_invalidateBuffer]
  by_cases hij : i = j
  · rw [if_pos hij]
    intro hvalid
    cases hvalid
  · rw [if_neg hij]
    exact h hij

theorem Holds.invalidate (content : BufferContent) (i : Fin 2) : Holds content (s.invalidate.buffers i) := by
  have hone : i ≠ 1 → Holds content ((s.invalidateBuffer (bufferNumber 0)).buffers i) :=
    fun hi => Holds.invalidateBuffer fun h0 => absurd (show i = 0 by omega) h0
  exact Holds.invalidateBuffer hone

end

namespace Coherent

variable {s : LfbScreen}

theorem setRenderBuffer (h : Coherent s) (buffer : Word) : Coherent (s.step (.setRenderBuffer buffer)) := by
  constructor
  · intro i hi
    show (s.shadow.setRenderBuffer buffer).renderBuffer = bufferNumber i
    replace hi : buffer = bufferNumber i := hi
    unfold GlideLfbStagingShadowState.setRenderBuffer
    rw [hi, if_pos (by simp)]
  · intro i
    show Holds _ ((s.shadow.setRenderBuffer buffer).buffers i)
    have hbuffers : (s.shadow.setRenderBuffer buffer).buffers = s.shadow.buffers := by
      unfold GlideLfbStagingShadowState.setRenderBuffer
      split_ifs <;> rfl
    rw [hbuffers]
    exact h.holds i

theorem draws_iff (id : GlideGateId) : id.draws ↔ id.targetsRenderBufferOnly = true := by
  unfold GlideGateId.draws GlideGateId.targetsRenderBufferOnly
  cases id.classifyLfbStagingShadow <;> simp

theorem gate (h : Coherent s) (id : GlideGateId) (painted : Word → BufferContent) :
    Coherent (s.step (.gate id painted)) := by
  have hrender : (s.shadow.applyGate id).renderBuffer = s.shadow.renderBuffer := by
    unfold GlideLfbStagingShadowState.applyGate
    split_ifs <;> simp [GlideLfbStagingShadowState.rotate]
  constructor
  · intro i hi
    exact hrender.trans (h.tracked i hi)
  · intro i
    show Holds (s.paint id painted (bufferNumber i)) ((s.shadow.applyGate id).buffers i)
    unfold LfbScreen.paint GlideLfbStagingShadowState.applyGate
    by_cases hswap : id = .kGrBufferSwap
    · rw [if_pos hswap, if_pos hswap, Function.comp_apply, bufferNumber_swap]
      exact h.holds (Equiv.swap 0 1 i)
    rw [if_neg hswap, if_neg hswap]
    by_cases hkept : id.preservesLfbStagingShadow = true
    · rw [if_pos hkept, if_pos hkept]
      exact h.holds i
    rw [if_neg hkept, if_neg hkept]
    by_cases hdraws : id.draws
    swap
    · rw [if_neg hdraws, if_neg ((draws_iff id).not.mp hdraws)]
      exact Holds.invalidate _ i
    rw [if_pos hdraws, if_pos ((draws_iff id).mp hdraws)]
    -- the buffer drawn into is the tracked one, or has no copy
    by_cases hselected : s.selected = bufferNumber i
    · rw [h.tracked i hselected]
      exact Holds.invalidateBuffer fun hne => absurd rfl hne
    · rw [Function.update_of_ne (Ne.symm hselected)]
      cases hindex : bufferIndexed s.shadow.renderBuffer with
      | none =>
        unfold GlideLfbStagingShadowState.invalidateBuffer
        rw [hindex]
        exact h.holds i
      | some j =>
        rw [bufferIndexed_eq_some.mp hindex]
        exact Holds.invalidateBuffer fun _ => h.holds i

theorem store (h : Coherent s) (w : WriteBack) (allocated : Bool) : Coherent (s.step (.store w allocated)) := by
  have hrender : (s.shadow.store w.buffer w.pixels w.colorFormat w.width w.height allocated).renderBuffer =
      s.shadow.renderBuffer := by
    unfold GlideLfbStagingShadowState.store
    cases bufferIndexed w.buffer with
    | none => simp
    | some j =>
      cases w.pixels with
      | none => simp
      | some bytes =>
        dsimp only
        split_ifs <;> simp
  constructor
  · intro i hi
    exact hrender.trans (h.tracked i hi)
  · intro i
    show Holds (Function.update s.contents w.buffer w.after (bufferNumber i))
      ((s.shadow.store w.buffer w.pixels w.colorFormat w.width w.height allocated).buffers i)
    unfold GlideLfbStagingShadowState.store
    cases hindex : bufferIndexed w.buffer with
    | none => exact Holds.invalidate _ i
    | some j =>
      have hbuffer := bufferIndexed_eq_some.mp hindex
      have hother : i ≠ j → Holds (Function.update s.contents w.buffer w.after (bufferNumber i))
          (s.shadow.buffers i) := by
        intro hij
        rw [hbuffer, Function.update_of_ne (bufferNumber_injective.ne hij)]
        exact h.holds i
      have hinvalid : Holds (Function.update s.contents w.buffer w.after (bufferNumber i))
          ((s.shadow.invalidateBuffer w.buffer).buffers i) := by
        rw [hbuffer] at hother ⊢
        exact Holds.invalidateBuffer hother
      cases hpixels : w.pixels with
      | none => exact hinvalid
      | some bytes =>
        dsimp only
        split_ifs with hshort hallocated
        · exact hinvalid
        · show Holds _ (Function.update s.shadow.buffers j _ i)
          by_cases hij : i = j
          · subst hij
            rw [Function.update_self, hbuffer, Function.update_self]
            intro _
            exact w.reads_back bytes hpixels (by omega)
          · rw [Function.update_of_ne hij]
            exact hother hij
        · exact hinvalid

/-- No event breaks coherence. -/
theorem step (h : Coherent s) (event : LfbEvent) : Coherent (s.step event) := by
  cases event with
  | setRenderBuffer buffer => exact h.setRenderBuffer buffer
  | gate id painted => exact h.gate id painted
  | store w allocated => exact h.store w allocated
  | load buffer byteCount colorFormat width height => exact h

theorem run (h : Coherent s) (events : List LfbEvent) : Coherent (s.run events) := by
  induction events generalizing s with
  | nil => exact h
  | cons event events ih => exact ih (h.step event)

/-- Nothing is copied at first, and the back buffer is drawn into. -/
theorem fresh (contents : Word → BufferContent) : Coherent { contents := contents } := by
  constructor
  · intro i hi
    exact hi
  · intro i hvalid
    cases hvalid

/-- What can be reused is the buffer's content. -/
theorem reuse (h : Coherent s) {buffer colorFormat width height : Word}
    (hreuse : s.shadow.canReuse buffer colorFormat width height = true) :
    ∃ i, bufferIndexed buffer = some i ∧
      s.contents buffer colorFormat width height = (s.shadow.buffers i).pixels := by
  unfold GlideLfbStagingShadowState.canReuse at hreuse
  cases hindex : bufferIndexed buffer with
  | none =>
    rw [hindex] at hreuse
    cases hreuse
  | some i =>
    rw [hindex] at hreuse
    simp only [Bool.and_eq_true, decide_eq_true_eq] at hreuse
    obtain ⟨⟨⟨⟨⟨hvalid, -⟩, -⟩, hformat⟩, hwidth⟩, hheight⟩ := hreuse
    refine ⟨i, rfl, ?_⟩
    rw [bufferIndexed_eq_some.mp hindex, ← hformat, ← hwidth, ← hheight]
    exact h.holds i hvalid

end Coherent

/-- Over any run, a copy that can be reused for a buffer in a format and size holds what the buffer
reads as in them, and a load gives exactly that. -/
theorem reusable_shadow_current (contents : Word → BufferContent) (events : List LfbEvent)
    (buffer colorFormat width height : Word) :
    let s := LfbScreen.run { contents := contents } events
    (s.shadow.canReuse buffer colorFormat width height = true →
      ∃ i, bufferIndexed buffer = some i ∧
        s.contents buffer colorFormat width height = (s.shadow.buffers i).pixels) ∧
    ∀ byteCount pixels, s.shadow.load buffer byteCount colorFormat width height = some pixels →
      pixels = s.contents buffer colorFormat width height := by
  intro s
  have hcoherent : Coherent s := (Coherent.fresh contents).run events
  refine ⟨hcoherent.reuse, ?_⟩
  intro byteCount pixels hload
  unfold GlideLfbStagingShadowState.load at hload
  by_cases hreuse : s.shadow.canReuse buffer colorFormat width height = true
  swap
  · rw [if_pos hreuse] at hload
    cases hload
  obtain ⟨i, hindex, hpixels⟩ := hcoherent.reuse hreuse
  rw [if_neg (not_not.mpr hreuse), hindex, Option.bind_some] at hload
  split_ifs at hload
  rw [hpixels]
  exact (Option.some.inj hload).symm

end Repiu.Glide
