/-!
# Gates

The entry points of the graphics library that the guest calls (`glide_hle.h`).
-/

namespace Repiu.Glide

/-- `GlideGateId`. -/
inductive GlideGateId
  | kUnknown | kGrGlideInit | kGrBufferClear | kGrBufferSwap
  | kGrBufferNumPending | kGrHints | kGrSstQueryHardware | kGrSstSelect
  | kGrSstWinClose | kGrSstWinOpen | kGrSstScreenWidth | kGrSstScreenHeight
  | kGrTexMinAddress | kGrTexMaxAddress | kGuFogGenerateExp | kGrColorMask
  | kGrRenderBuffer | kGrDepthMask | kGrDepthBiasLevel | kGrDepthBufferMode
  | kGrLfbWriteColorFormat | kGrAlphaCombine | kGrColorCombine | kGrAlphaBlendFunction
  | kGrAlphaTestFunction | kGrAlphaTestReferenceValue | kGrDepthBufferFunction | kGrFogMode
  | kGrFogColorValue | kGrFogTable | kGrClipWindow | kGrTexTextureMemRequired
  | kGrGlideGetState | kGrGlideSetState | kGrTexDownloadMipMapLevel | kGrDrawLine
  | kGrDrawPoint | kGrDrawTriangle | kGrDrawPlanarPolygon | kGrDrawPlanarPolygonVertexList
  | kGrDrawPolygon | kGrGlideShutdown | kGrLfbLock | kGrLfbUnlock
  | kGrLfbWriteRegion | kGrLfbReadRegion | kGrLfbConstantAlpha | kGrLfbConstantDepth
  | kGrLfbWriteColorSwizzle | kGrChromaKeyMode | kGrChromaKeyValue | kGrConstantColorValue
  | kGrConstantColorValue4 | kGrAADrawPoint | kGrAADrawLine | kGrAADrawTriangle
  | kGrAADrawPolygon | kGrAADrawPolygonVertexList | kGrDrawPolygonVertexList | kGrTexDownloadMipMap
  | kGrTexDownloadMipMapLevelPartial | kGrTexDownloadTable | kGrTexDownloadTablePartial | kGrTexNccTable
  | kGrTexCalcMemRequired | kGrTexCombineFunction | kGrTexDetailControl | kGrTexLodBiasValue
  | kGrTexMultiBase | kGrTexMultiBaseAddress | kGrSstIdle | kGrSstIsBusy
  | kGrSstStatus | kGrSstVideoLine | kGrSstVRetraceOn | kGrSstControl
  | kGrSstOrigin | kGrSstConfigPipeline | kGrSstVidMode | kGrSstQueryBoards
  | kGrSstPerfStats | kGrSstResetPerfStats | kGrGammaCorrectionValue | kGrAlphaControlSitRgbLighting
  | kGrCullMode | kGrDitherMode | kGrTexClampMode | kGrTexCombine
  | kGrTexFilterMode | kGrTexMipMapMode | kGrTexSource
deriving DecidableEq, Repr

end Repiu.Glide
