import Repiu.Glide.Gates

/-!
# Setters

The gates that set state, and those whose repeats are not applied
(`glide_setter_state_cache.cpp`, `glide_setter_state_model.cpp`).
-/

namespace Repiu.Glide

namespace GlideGateId

def isGlideSetterBatchFourElisionGate : GlideGateId → Bool
  | .kGrFogColorValue | .kGrDitherMode => true
  | _ => false

def isGlideSetterBatchThreeElisionGate : GlideGateId → Bool
  | .kGrTexSource | .kGrConstantColorValue | .kGrDepthMask => true
  | _ => false

def isGlideSetterTextureStateElisionGate : GlideGateId → Bool
  | .kGrTexClampMode | .kGrTexFilterMode | .kGrTexMipMapMode => true
  | _ => false

def isGlideSetterElisionGate : GlideGateId → Bool
  | .kGrColorMask | .kGrAlphaBlendFunction | .kGrClipWindow | .kGrAlphaTestFunction | .kGrFogMode
  | .kGrCullMode | .kGrDepthBufferFunction => true
  | _ => false

/-- The setters whose repeats are not applied. -/
def elisionCandidate (gate : GlideGateId) : Bool :=
  gate.isGlideSetterElisionGate || gate.isGlideSetterTextureStateElisionGate ||
    gate.isGlideSetterBatchThreeElisionGate || gate.isGlideSetterBatchFourElisionGate

def isGlideSetterStateGate : GlideGateId → Bool
  | .kGrColorMask | .kGrDepthMask | .kGrDepthBufferMode | .kGrDepthBufferFunction | .kGrDepthBiasLevel
  | .kGrRenderBuffer | .kGrAlphaBlendFunction | .kGrAlphaTestFunction | .kGrAlphaTestReferenceValue
  | .kGrAlphaCombine | .kGrColorCombine | .kGrConstantColorValue | .kGrConstantColorValue4 | .kGrFogMode
  | .kGrFogColorValue | .kGrClipWindow | .kGrCullMode | .kGrDitherMode | .kGrChromaKeyMode
  | .kGrChromaKeyValue | .kGrTexCombine | .kGrTexCombineFunction | .kGrTexClampMode | .kGrTexFilterMode
  | .kGrTexMipMapMode | .kGrTexLodBiasValue | .kGrTexSource | .kGrLfbWriteColorFormat
  | .kGrLfbWriteColorSwizzle | .kGrLfbConstantAlpha | .kGrLfbConstantDepth => true
  | _ => false

end GlideGateId

end Repiu.Glide
