import Repiu.Glide.LfbRegions

/-!
# Clipping of frame buffer regions

When the transfers of a request are exact. The sums and products of the plan are taken in 32 bits;
a side of the rectangle that ends beyond them is not clipped, and rows that are longer have a wrong
stride.
-/

namespace Repiu.Glide

open CheckedBuffers SizeWidth

/-! ## When transfers are exact -/

/-- The side of a rectangle by the sums of the plan: not clipped where it ends beyond 32 bits. -/
def planSide (position size limit : Word) : ℕ :=
  if position.toNat + size.toNat < 2 ^ 32 then clipped position size limit else size.toNat

namespace RegionRequest

variable (request : RegionRequest)

/-- The stride of the guest's side by the products of the plan. -/
def planPitch (host : SizeWidth) (bytesPerPixel : Word) : ℕ :=
  host.ofInt32 (resolveGlideLfbRegionStride request.width bytesPerPixel request.stride)

/-- The bytes of the guest's side by the sums and products of the plan. -/
def planBytes (host : SizeWidth) (surfaceWidth surfaceHeight bytesPerPixel : Word) : ℕ :=
  host.wrap ((planSide request.y request.height surfaceHeight - 1) * request.planPitch host bytesPerPixel +
    planSide request.x request.width surfaceWidth * bytesPerPixel.toNat)

/-- A transfer is exact. Where the buffer has room, the rectangle ends within 32 bits, and so does a
row, unless there is only one; where it has none, the plan sees that. -/
def ExactWithin (host : SizeWidth) (surfaceWidth surfaceHeight bytesPerPixel : Word) (count : ℕ)
    (narrow : Prop) : Prop :=
  request.Meets surfaceWidth surfaceHeight →
    if request.neededBytes surfaceWidth surfaceHeight bytesPerPixel.toNat ≤ count then
      request.x.toNat + request.width.toNat < 2 ^ 32 ∧ request.y.toNat + request.height.toNat < 2 ^ 32 ∧
        (request.rowStride bytesPerPixel.toNat < 2 ^ 31 ∨
          request.rows surfaceHeight = 1 ∧ request.width * bytesPerPixel ≠ 0) ∧ narrow
    else request.planPitch host bytesPerPixel = 0 ∨
      count < request.planBytes host surfaceWidth surfaceHeight bytesPerPixel

end RegionRequest

/-- Both directions are exact. The column offsets of a write are taken in 32 bits as well. -/
def RegionCase.IsExact {host : SizeWidth} (g : RegionCase host) : Prop :=
  (glideLfbSrcFormatSupported g.srcFormat = true →
    g.request.ExactWithin host g.surfaceWidth g.surfaceHeight (glideLfbSrcFormatBytesPerPixel g.srcFormat)
      g.sourceCount (g.request.columns g.surfaceWidth ≤ 2 ^ 31)) ∧
    g.request.ExactWithin host g.surfaceWidth g.surfaceHeight 2 g.targetCount True

/-! ## Plans -/

section
variable {host : SizeWidth} {request : RegionRequest}
  {position size limit surfaceWidth surfaceHeight bytesPerPixel : Word}

theorem planSide_eq (h : position.toNat < limit.toNat) :
    (if position + size > limit then limit - position else size).toNat = planSide position size limit := by
  have hlimit := limit.isLt
  have hsub : (limit - position).toNat = limit.toNat - position.toNat :=
    BitVec.toNat_sub_of_le (BitVec.le_def.mpr h.le)
  unfold planSide clipped
  by_cases hsum : position.toNat + size.toNat < 2 ^ 32
  · have hadd : (position + size).toNat = position.toNat + size.toNat := by
      rw [BitVec.toNat_add, Nat.mod_eq_of_lt hsum]
    rw [if_pos hsum]
    by_cases hover : position + size > limit
    · rw [if_pos hover, hsub]
      rw [gt_iff_lt, BitVec.lt_def, hadd] at hover
      omega
    · rw [if_neg hover]
      rw [gt_iff_lt, BitVec.lt_def, hadd] at hover
      omega
  · have hsize := size.isLt
    have hadd : (position + size).toNat = position.toNat + size.toNat - 2 ^ 32 := by
      rw [BitVec.toNat_add, Nat.mod_eq_sub_mod (by omega), Nat.mod_eq_of_lt (by omega)]
    have hover : ¬position + size > limit := by
      rw [gt_iff_lt, BitVec.lt_def, hadd]
      omega
    rw [if_neg hsum, if_neg hover]

theorem clipped_pos_iff : 0 < clipped position size limit ↔ position.toNat < limit.toNat ∧ size ≠ 0 := by
  have hsize : size ≠ 0 ↔ size.toNat ≠ 0 := by
    rw [ne_eq, ne_eq, ← BitVec.toNat_inj]
    rfl
  unfold clipped
  rw [hsize]
  omega

theorem meets_iff : request.Meets surfaceWidth surfaceHeight ↔ 0 ≤ request.stride.toInt ∧
    (request.x.toNat < surfaceWidth.toNat ∧ request.width ≠ 0) ∧
      request.y.toNat < surfaceHeight.toNat ∧ request.height ≠ 0 := by
  rw [RegionRequest.Meets, RegionRequest.columns, RegionRequest.rows, clipped_pos_iff, clipped_pos_iff]

theorem ne_zero_of_toNat_pos {n : Word} (h : 0 < n.toNat) : n ≠ 0 := by
  rintro rfl
  exact absurd h (by decide)

theorem planSide_pos (h : 0 < clipped position size limit) : 0 < planSide position size limit := by
  unfold planSide
  split_ifs
  · exact h
  · unfold clipped at h
    omega

/-- The plan of a rectangle that meets the surface. -/
theorem planRegion_some (hmeets : request.Meets surfaceWidth surfaceHeight) (hbytes : bytesPerPixel ≠ 0)
    (hpitch : request.planPitch host bytesPerPixel ≠ 0)
    (hsurface : 2 * (surfaceWidth.toNat * surfaceHeight.toNat * 2) < host.modulus) :
    ∃ width height : Word, planRegion host request bytesPerPixel surfaceWidth surfaceHeight =
        some ⟨width, height, surfaceWidth.toNat * 2, request.planPitch host bytesPerPixel⟩ ∧
      width.toNat = planSide request.x request.width surfaceWidth ∧
      height.toNat = planSide request.y request.height surfaceHeight := by
  obtain ⟨hstride, hcolumns, hrows⟩ := meets_iff.mp hmeets
  have hwidth := @planSide_eq request.x request.width surfaceWidth hcolumns.1
  have hheight := @planSide_eq request.y request.height surfaceHeight hrows.1
  have hrowPitch : host.wrap (surfaceWidth.toNat * 2) = surfaceWidth.toNat * 2 := by
    apply wrap_of_lt
    have hfactor := Nat.le_mul_of_pos_right surfaceWidth.toNat (show 0 < surfaceHeight.toNat by omega)
    omega
  refine ⟨_, _, ?_, hwidth, hheight⟩
  unfold planRegion
  rw [if_neg, if_neg (by omega), if_neg]
  · dsimp only
    rw [if_pos, hrowPitch]
    · rfl
    · refine ⟨ne_zero_of_toNat_pos ?_, ne_zero_of_toNat_pos ?_, hpitch⟩
      · rw [hwidth]
        exact planSide_pos hmeets.2.1
      · rw [hheight]
        exact planSide_pos hmeets.2.2
  · rw [not_or, BitVec.le_def, BitVec.le_def]
    omega
  · simp only [not_or]
    exact ⟨ne_zero_of_toNat_pos (by omega), ne_zero_of_toNat_pos (by omega), hcolumns.2, hrows.2, hbytes⟩

/-- There is no plan otherwise. -/
theorem planRegion_none (h : ¬request.Meets surfaceWidth surfaceHeight ∨ request.planPitch host bytesPerPixel = 0) :
    planRegion host request bytesPerPixel surfaceWidth surfaceHeight = none := by
  unfold planRegion
  split
  case isTrue => rfl
  case isFalse hzero =>
    split
    case isTrue => rfl
    case isFalse hstride =>
      split
      case isTrue => rfl
      case isFalse hinside =>
        dsimp only
        rw [if_neg]
        rintro ⟨-, -, hpitch⟩
        rcases h with h | h
        · simp only [not_or] at hzero hinside
          rw [BitVec.le_def, BitVec.le_def] at hinside
          exact h (meets_iff.mpr ⟨by omega, ⟨by omega, hzero.2.2.1⟩, by omega, hzero.2.2.2.1⟩)
        · exact hpitch h

end

/-! ## Painting -/

section
variable {request : RegionRequest} {surfaceWidth surfaceHeight : Word} {size : ℕ} {target : List Byte}
  {pixel : ℕ → ℕ → List Byte}

theorem paint_length : (request.paint surfaceWidth size pixel target).length = target.length := by
  rw [RegionRequest.paint, List.length_map, List.length_range]

theorem paint_getElem? {i : ℕ} (hi : i < target.length) :
    (request.paint surfaceWidth size pixel target)[i]? =
      some (if request.Covers (i / size % surfaceWidth.toNat) (i / size / surfaceWidth.toNat) then
        (pixel (i / size / surfaceWidth.toNat - request.y.toNat) (i / size % surfaceWidth.toNat - request.x.toNat)).getD
          (i % size) 0
      else target.getD i 0) := by
  unfold RegionRequest.paint
  rw [List.getElem?_map, List.getElem?_range hi, Option.map_some]

/-- Where a pixel of an image begins. -/
def pixelStart (surfaceWidth : Word) (size column row : ℕ) : ℕ := (row * surfaceWidth.toNat + column) * size

/-- A byte of a pixel. -/
theorem pixelStart_div {column row k : ℕ} (hcolumn : column < surfaceWidth.toNat) (hk : k < size) :
    (pixelStart surfaceWidth size column row + k) / size % surfaceWidth.toNat = column ∧
      (pixelStart surfaceWidth size column row + k) / size / surfaceWidth.toNat = row ∧
      (pixelStart surfaceWidth size column row + k) % size = k := by
  have hpixel : (pixelStart surfaceWidth size column row + k) / size = row * surfaceWidth.toNat + column := by
    unfold pixelStart
    rw [Nat.mul_comm, Nat.mul_add_div (by omega), Nat.div_eq_of_lt hk, Nat.add_zero]
  rw [hpixel]
  refine ⟨?_, ?_, ?_⟩
  · rw [Nat.mul_comm, Nat.mul_add_mod, Nat.mod_eq_of_lt hcolumn]
  · rw [Nat.mul_comm, Nat.mul_add_div (by omega), Nat.div_eq_of_lt hcolumn, Nat.add_zero]
  · unfold pixelStart
    rw [Nat.mul_comm, Nat.mul_add_mod, Nat.mod_eq_of_lt hk]

/-- A byte is one of the pixel at its column and row. -/
theorem eq_pixelStart (i : ℕ) :
    i = pixelStart surfaceWidth size (i / size % surfaceWidth.toNat) (i / size / surfaceWidth.toNat) + i % size := by
  unfold pixelStart
  have hpixel := Nat.div_add_mod' (i / size) surfaceWidth.toNat
  rw [hpixel, Nat.div_add_mod']

/-- A pixel lies in its image. -/
theorem pixelStart_lt {column row k : ℕ} (hcolumn : column < surfaceWidth.toNat) (hrow : row < surfaceHeight.toNat)
    (hk : k < size) :
    pixelStart surfaceWidth size column row + k < surfaceWidth.toNat * surfaceHeight.toNat * size := by
  have hpixel : row * surfaceWidth.toNat + column + 1 ≤ surfaceWidth.toNat * surfaceHeight.toNat :=
    calc row * surfaceWidth.toNat + column + 1 ≤ (row + 1) * surfaceWidth.toNat := by
          rw [Nat.succ_mul]
          omega
      _ ≤ surfaceHeight.toNat * surfaceWidth.toNat := Nat.mul_le_mul_right _ hrow
      _ = surfaceWidth.toNat * surfaceHeight.toNat := Nat.mul_comm _ _
  have hbytes := Nat.mul_le_mul_right size hpixel
  rw [Nat.succ_mul] at hbytes
  unfold pixelStart
  omega

/-- The pixels of the rectangle on the surface are those that are covered. -/
theorem covers_of_lt {row column : ℕ} (hrow : row < request.rows surfaceHeight)
    (hcolumn : column < request.columns surfaceWidth) :
    request.Covers (request.x.toNat + column) (request.y.toNat + row) ∧
      request.x.toNat + column < surfaceWidth.toNat ∧ request.y.toNat + row < surfaceHeight.toNat := by
  unfold RegionRequest.rows clipped at hrow
  unfold RegionRequest.columns clipped at hcolumn
  unfold RegionRequest.Covers
  omega

/-- A byte of a pixel in the rectangle is new. -/
theorem paint_covered {row column k : ℕ} (htarget : target.length = surfaceWidth.toNat * surfaceHeight.toNat * size)
    (hrow : row < request.rows surfaceHeight) (hcolumn : column < request.columns surfaceWidth) (hk : k < size) :
    (request.paint surfaceWidth size pixel target)[pixelStart surfaceWidth size (request.x.toNat + column)
      (request.y.toNat + row) + k]? = some ((pixel row column).getD k 0) := by
  obtain ⟨hcovers, hx, hy⟩ := covers_of_lt hrow hcolumn
  obtain ⟨hcolumnOf, hrowOf, hbyteOf⟩ := @pixelStart_div surfaceWidth size _ (request.y.toNat + row) k hx hk
  rw [paint_getElem? (by rw [htarget]; exact pixelStart_lt hx hy hk), hcolumnOf, hrowOf, hbyteOf, if_pos hcovers,
    Nat.add_sub_cancel_left, Nat.add_sub_cancel_left]

/-- A byte of a pixel outside the rectangle is old. -/
theorem paint_uncovered {row column k : ℕ} (htarget : target.length = surfaceWidth.toNat * surfaceHeight.toNat * size)
    (hx : column < surfaceWidth.toNat) (hy : row < surfaceHeight.toNat) (hcovers : ¬request.Covers column row)
    (hk : k < size) :
    (request.paint surfaceWidth size pixel target)[pixelStart surfaceWidth size column row + k]? =
      target[pixelStart surfaceWidth size column row + k]? := by
  have hlt : pixelStart surfaceWidth size column row + k < target.length := by
    rw [htarget]
    exact pixelStart_lt hx hy hk
  obtain ⟨hcolumnOf, hrowOf, -⟩ := @pixelStart_div surfaceWidth size _ row k hx hk
  rw [paint_getElem? hlt, hcolumnOf, hrowOf, if_neg hcovers, List.getD_eq_getElem _ _ hlt, List.getElem?_eq_getElem hlt]

theorem mem_pixelBlocks {rows columns start : ℕ} {starts : ℕ → ℕ → ℕ} {bytes : List Byte}
    {pixels : ℕ → ℕ → Except BufferFault (List Byte)} :
    Except.ok (start, bytes) ∈ ((List.range rows).flatMap fun row => (List.range columns).map fun column =>
        (pixels row column).map fun bytes => (starts row column, bytes)) ↔
      ∃ row < rows, ∃ column < columns, pixels row column = .ok bytes ∧ starts row column = start := by
  simp only [List.mem_flatMap, List.mem_range, List.mem_map]
  apply exists_congr
  intro row
  apply and_congr_right'
  apply exists_congr
  intro column
  apply and_congr_right'
  cases pixels row column with
  | error fault => exact iff_of_false nofun fun h => by cases h.1
  | ok bytes' =>
    show Except.ok (starts row column, bytes') = Except.ok (start, bytes) ↔ _
    rw [Except.ok.injEq, Except.ok.injEq, Prod.mk.injEq]
    exact and_comm

/-- The loops over the rectangle on the surface paint it. -/
theorem storePixels_paint {starts : ℕ → ℕ → ℕ} {pixels : ℕ → ℕ → Except BufferFault (List Byte)}
    (htarget : target.length = surfaceWidth.toNat * surfaceHeight.toNat * size) (hsize : 0 < size)
    (hlength : ∀ row column, (pixel row column).length = size)
    (hpixels : ∀ row < request.rows surfaceHeight, ∀ column < request.columns surfaceWidth,
      pixels row column = .ok (pixel row column) ∧
        starts row column = pixelStart surfaceWidth size (request.x.toNat + column) (request.y.toNat + row)) :
    storePixels (request.rows surfaceHeight) (request.columns surfaceWidth) starts pixels target =
      .ok (request.paint surfaceWidth size pixel target) := by
  have hinside : ∃ result, storePixels (request.rows surfaceHeight) (request.columns surfaceWidth) starts pixels
      target = .ok result := by
    apply storeEach_ok_iff.mpr
    intro block hblock
    simp only [List.mem_flatMap, List.mem_range, List.mem_map] at hblock
    obtain ⟨row, hrow, column, hcolumn, rfl⟩ := hblock
    obtain ⟨hbytes, hstart⟩ := hpixels row hrow column hcolumn
    obtain ⟨-, hx, hy⟩ := covers_of_lt hrow hcolumn
    refine ⟨starts row column, pixel row column, by rw [hbytes]; rfl, ?_⟩
    have hlast := pixelStart_lt hx hy (Nat.sub_lt hsize Nat.one_pos)
    rw [hlength, hstart, htarget]
    omega
  obtain ⟨result, hresult⟩ := hinside
  rw [hresult]
  congr 1
  apply List.ext_getElem?
  intro i
  have hresultLength := storeEach_length hresult
  by_cases hi : i < target.length
  swap
  · rw [List.getElem?_eq_none (by omega), List.getElem?_eq_none (by rw [paint_length]; omega)]
  rw [paint_getElem? hi]
  rcases storeEach_cell hresult i with ⟨hsame, hnone⟩ | ⟨start, bytes, hmem, hlow, hhigh, hcell⟩
  · rw [hsame, if_neg, List.getD_eq_getElem _ _ hi, List.getElem?_eq_getElem hi]
    intro hcovers
    have hpos : 0 < surfaceWidth.toNat := by
      apply Nat.pos_of_ne_zero
      intro hzero
      rw [htarget, hzero] at hi
      simp at hi
    have hcolumn := Nat.mod_lt (i / size) hpos
    have hrow : i / size / surfaceWidth.toNat < surfaceHeight.toNat := by
      apply Nat.div_lt_of_lt_mul
      apply Nat.div_lt_of_lt_mul
      rw [Nat.mul_comm]
      omega
    obtain ⟨hcolumns, hrows⟩ := hcovers
    have hrow' : i / size / surfaceWidth.toNat - request.y.toNat < request.rows surfaceHeight := by
      unfold RegionRequest.rows clipped
      omega
    have hcolumn' : i / size % surfaceWidth.toNat - request.x.toNat < request.columns surfaceWidth := by
      unfold RegionRequest.columns clipped
      omega
    obtain ⟨hbytes, hstart⟩ := hpixels _ hrow' _ hcolumn'
    apply hnone _ _ (mem_pixelBlocks.mpr ⟨_, hrow', _, hcolumn', hbytes, hstart⟩)
    rw [hlength, Nat.add_sub_cancel' hcolumns.1, Nat.add_sub_cancel' hrows.1]
    have hsplit := @eq_pixelStart surfaceWidth size i
    have hmod := Nat.mod_lt i hsize
    omega
  · obtain ⟨row, hrow, column, hcolumn, hbytes, hstart⟩ := mem_pixelBlocks.mp hmem
    obtain ⟨hpixel, hplace⟩ := hpixels row hrow column hcolumn
    obtain ⟨hcovers, hx, -⟩ := covers_of_lt hrow hcolumn
    rw [hpixel, Except.ok.injEq] at hbytes
    subst hbytes
    rw [hlength] at hhigh
    obtain ⟨k, hk, rfl⟩ : ∃ k < size, i = pixelStart surfaceWidth size (request.x.toNat + column)
        (request.y.toNat + row) + k := ⟨i - start, by omega, by omega⟩
    obtain ⟨hcolumnOf, hrowOf, hbyteOf⟩ := @pixelStart_div surfaceWidth size _ (request.y.toNat + row) k hx hk
    have hoffset : pixelStart surfaceWidth size (request.x.toNat + column) (request.y.toNat + row) + k - start = k := by
      omega
    rw [hcell, hcolumnOf, hrowOf, hbyteOf, if_pos hcovers, Nat.add_sub_cancel_left, Nat.add_sub_cancel_left, hoffset,
      List.getElem?_eq_getElem (by rw [hlength]; exact hk), List.getD_eq_getElem]

end

/-! ## Planned transfers -/

/-- Where a write stores a texel. -/
def writeStart (host : SizeWidth) (request : RegionRequest) (surfaceWidth : Word) (row column : ℕ) : ℕ :=
  host.wrap ((request.y + BitVec.ofNat 32 row).toNat * (surfaceWidth.toNat * 2) + request.x.toNat * 2 +
    (BitVec.ofNat 32 column * 2).toNat)

/-- Where a write stores a pixel of the shadow. -/
def shadowStart (host : SizeWidth) (request : RegionRequest) (surfaceWidth : Word) (row column : ℕ) : ℕ :=
  host.wrap ((request.y + BitVec.ofNat 32 row).toNat * (surfaceWidth.toNat * 4) + request.x.toNat * 4 + column * 4)

/-- A pixel of the source, by a stride, and what becomes of it. -/
def convertedPixel (host : SizeWidth) (src : List Byte) (srcFormat srcColorFormat : Word) (pitch : ℕ)
    (convert : (ℕ → Byte) → List Byte) (row column : ℕ) : Except BufferFault (List Byte) :=
  (loadPixel host src (row * pitch + column * (glideLfbSrcFormatBytesPerPixel srcFormat).toNat)
    (pixelReads srcFormat srcColorFormat)).map convert

section
variable {host : SizeWidth} {request : RegionRequest} {srcFormat srcColorFormat surfaceColorFormat : Word}
  {surfaceWidth surfaceHeight : Word} {src pixels shadow dst : List Byte}

theorem bytesPerPixel_pos (hsupported : glideLfbSrcFormatSupported srcFormat = true) :
    0 < (glideLfbSrcFormatBytesPerPixel srcFormat).toNat ∧ (glideLfbSrcFormatBytesPerPixel srcFormat).toNat ≤ 4 := by
  simp only [glideLfbSrcFormatSupported, Bool.or_eq_true, decide_eq_true_eq] at hsupported
  rcases hsupported with (((rfl | rfl) | rfl) | rfl) | rfl
  all_goals decide

theorem bytesPerPixel_ne_zero (hsupported : glideLfbSrcFormatSupported srcFormat = true) :
    glideLfbSrcFormatBytesPerPixel srcFormat ≠ 0 := by
  intro hzero
  have hpos := (bytesPerPixel_pos hsupported).1
  rw [hzero] at hpos
  exact absurd hpos (by decide)

/-- A write without a plan. -/
theorem write_refused (h : glideLfbSrcFormatSupported srcFormat = false ∨ ¬request.Meets surfaceWidth surfaceHeight ∨
      request.planPitch host (glideLfbSrcFormatBytesPerPixel srcFormat) = 0) :
    writeGlideLfbRegion host request srcFormat (some src) srcColorFormat surfaceColorFormat surfaceWidth surfaceHeight
      pixels = .ok (false, pixels) := by
  unfold writeGlideLfbRegion
  dsimp only
  split
  case isTrue => rfl
  case isFalse hsupported => rw [planRegion_none (h.resolve_left hsupported)]

theorem fullPrecision_iff (hsupported : glideLfbSrcFormatSupported srcFormat = true) :
    (srcFormat = kGlideLfbSrcFmt888 || srcFormat = kGlideLfbSrcFmt8888) = true ↔ ¬IsTexelFormat srcFormat := by
  simp only [glideLfbSrcFormatSupported, Bool.or_eq_true, decide_eq_true_eq] at hsupported
  rcases hsupported with (((rfl | rfl) | rfl) | rfl) | rfl
  all_goals decide

theorem ofInt32_of_lt {n : Word} (h : n.toNat < 2 ^ 31) : host.ofInt32 n = n.toNat := if_pos h

theorem toNat_lt_of_toInt {n : Word} (h : 0 ≤ n.toInt) : n.toNat < 2 ^ 31 := by
  rw [BitVec.toInt_eq_toNat_cond] at h
  split_ifs at h <;> omega

/-- A stride within 32 bits is the stride of the plan. -/
theorem planPitch_eq {bytesPerPixel : Word} (hstride : 0 ≤ request.stride.toInt)
    (h : request.rowStride bytesPerPixel.toNat < 2 ^ 31) :
    request.planPitch host bytesPerPixel = request.rowStride bytesPerPixel.toNat := by
  unfold RegionRequest.planPitch resolveGlideLfbRegionStride
  unfold RegionRequest.rowStride at h ⊢
  by_cases hzero : request.stride = 0
  · rw [if_pos hzero] at h
    have hproduct : (request.width * bytesPerPixel).toNat = request.width.toNat * bytesPerPixel.toNat := by
      rw [BitVec.toNat_mul, Nat.mod_eq_of_lt (by omega)]
    rw [if_neg (not_not_intro hzero), if_pos hzero, ofInt32_of_lt (by omega), hproduct]
  · rw [if_pos hzero, if_neg hzero, ofInt32_of_lt (toNat_lt_of_toInt hstride)]

theorem toNat_pos {n : Word} (h : n ≠ 0) : 0 < n.toNat := by
  apply Nat.pos_of_ne_zero
  intro hzero
  exact h (BitVec.eq_of_toNat_eq hzero)

theorem rowStride_pos {bytesPerPixel : Word} (hmeets : request.Meets surfaceWidth surfaceHeight)
    (hbytes : 0 < bytesPerPixel.toNat) : 0 < request.rowStride bytesPerPixel.toNat := by
  obtain ⟨-, hcolumns, -⟩ := meets_iff.mp hmeets
  unfold RegionRequest.rowStride
  split_ifs with hzero
  · exact Nat.mul_pos (toNat_pos hcolumns.2) hbytes
  · exact toNat_pos hzero

theorem ofInt32_ne_zero {n : Word} (h : n ≠ 0) : host.ofInt32 n ≠ 0 := by
  have hpos := toNat_pos h
  have hmodulus := modulus_ge host
  have hlt := n.isLt
  unfold SizeWidth.ofInt32
  split_ifs <;> omega

/-- What the plan of an exact transfer needs, and where its rows are. -/
theorem exact_plan {bytesPerPixel : Word} {count : ℕ} (hmeets : request.Meets surfaceWidth surfaceHeight)
    (hbytes : 0 < bytesPerPixel.toNat) (hcount : 2 * count < host.modulus)
    (hneeded : request.neededBytes surfaceWidth surfaceHeight bytesPerPixel.toNat ≤ count)
    (hx : request.x.toNat + request.width.toNat < 2 ^ 32) (hy : request.y.toNat + request.height.toNat < 2 ^ 32)
    (hstride : request.rowStride bytesPerPixel.toNat < 2 ^ 31 ∨
      request.rows surfaceHeight = 1 ∧ request.width * bytesPerPixel ≠ 0) :
    request.planPitch host bytesPerPixel ≠ 0 ∧
      request.planBytes host surfaceWidth surfaceHeight bytesPerPixel =
        request.neededBytes surfaceWidth surfaceHeight bytesPerPixel.toNat ∧
      ∀ row < request.rows surfaceHeight,
        row * request.planPitch host bytesPerPixel = row * request.rowStride bytesPerPixel.toNat := by
  have hrows : planSide request.y request.height surfaceHeight = request.rows surfaceHeight := if_pos hy
  have hcolumns : planSide request.x request.width surfaceWidth = request.columns surfaceWidth := if_pos hx
  unfold RegionRequest.planBytes
  rw [hrows, hcolumns]
  rcases hstride with hstride | ⟨hone, hproduct⟩
  · have hpitch := @planPitch_eq host request bytesPerPixel hmeets.1 hstride
    have hpos := rowStride_pos hmeets hbytes
    rw [hpitch]
    refine ⟨by omega, ?_, fun _ _ => rfl⟩
    apply wrap_of_lt
    unfold RegionRequest.neededBytes at hneeded
    omega
  · have hpitch : request.planPitch host bytesPerPixel ≠ 0 := by
      unfold RegionRequest.planPitch resolveGlideLfbRegionStride
      apply ofInt32_ne_zero
      split_ifs with hzero
      · exact hzero
      · exact hproduct
    unfold RegionRequest.neededBytes at hneeded ⊢
    rw [hone] at hneeded ⊢
    refine ⟨hpitch, ?_, ?_⟩
    · rw [Nat.sub_self, Nat.zero_mul, Nat.zero_mul, wrap_of_lt (by omega)]
    · intro row hrow
      have hfirst : row = 0 := by omega
      rw [hfirst, Nat.zero_mul, Nat.zero_mul]

/-- A byte of a pixel is one of those that are needed. -/
theorem sourcePixel_lt {bytesPerPixel row column k : ℕ} (hrow : row < request.rows surfaceHeight)
    (hcolumn : column < request.columns surfaceWidth) (hk : k < bytesPerPixel) :
    row * request.rowStride bytesPerPixel + column * bytesPerPixel + k <
      request.neededBytes surfaceWidth surfaceHeight bytesPerPixel := by
  have hrows : row * request.rowStride bytesPerPixel ≤
      (request.rows surfaceHeight - 1) * request.rowStride bytesPerPixel :=
    Nat.mul_le_mul_right _ (by omega)
  have hcolumns : (column + 1) * bytesPerPixel ≤ request.columns surfaceWidth * bytesPerPixel :=
    Nat.mul_le_mul_right _ hcolumn
  rw [Nat.succ_mul] at hcolumns
  unfold RegionRequest.neededBytes
  omega

/-- A pixel of the source is read where it is. -/
theorem convertedPixel_exact {pitch row column : ℕ} {convert : (ℕ → Byte) → List Byte}
    (hconvert : ∀ pixel pixel' : ℕ → Byte, (∀ k ∈ pixelReads srcFormat srcColorFormat, pixel k = pixel' k) →
      convert pixel = convert pixel')
    (hsupported : glideLfbSrcFormatSupported srcFormat = true) (hsrc : 2 * src.length < host.modulus)
    (hneeded : request.neededBytes surfaceWidth surfaceHeight (glideLfbSrcFormatBytesPerPixel srcFormat).toNat ≤
      src.length)
    (hrow : row < request.rows surfaceHeight) (hcolumn : column < request.columns surfaceWidth)
    (hpitch : row * pitch = row * request.rowStride (glideLfbSrcFormatBytesPerPixel srcFormat).toNat) :
    convertedPixel host src srcFormat srcColorFormat pitch convert row column =
      .ok (convert (request.sourcePixel (glideLfbSrcFormatBytesPerPixel srcFormat).toNat src row column)) := by
  have hreads : ∀ k ∈ pixelReads srcFormat srcColorFormat,
      host.wrap (row * pitch + column * (glideLfbSrcFormatBytesPerPixel srcFormat).toNat + k) =
          row * request.rowStride (glideLfbSrcFormatBytesPerPixel srcFormat).toNat +
            column * (glideLfbSrcFormatBytesPerPixel srcFormat).toNat + k ∧
        row * request.rowStride (glideLfbSrcFormatBytesPerPixel srcFormat).toNat +
            column * (glideLfbSrcFormatBytesPerPixel srcFormat).toNat + k < src.length := by
    intro k hk
    have hlt := sourcePixel_lt hrow hcolumn (pixelReads_lt hsupported k hk)
    rw [hpitch]
    exact ⟨wrap_of_lt (by omega), by omega⟩
  unfold convertedPixel loadPixel
  rw [if_pos]
  · rw [Except.map]
    congr 1
    apply hconvert
    intro k hk
    unfold RegionRequest.sourcePixel
    rw [(hreads k hk).1]
  · intro k hk
    rw [(hreads k hk).1]
    exact (hreads k hk).2

theorem shadowPixel_congr {pixel pixel' : ℕ → Byte}
    (h : ∀ k ∈ pixelReads srcFormat srcColorFormat, pixel k = pixel' k) :
    shadowPixel pixel srcFormat srcColorFormat surfaceColorFormat =
      shadowPixel pixel' srcFormat srcColorFormat surfaceColorFormat := by
  unfold shadowPixel
  rw [convert_congr h]
  by_cases htexel : IsTexelFormat srcFormat
  · rw [if_pos htexel, if_pos htexel]
  · unfold pixelReads at h
    rw [if_neg htexel] at h
    rw [if_neg htexel, if_neg htexel]
    dsimp only at h ⊢
    rw [h _ (by simp), h _ (by simp), h _ (by simp)]

theorem shadowPixel_length (pixel : ℕ → Byte) :
    (shadowPixel pixel srcFormat srcColorFormat surfaceColorFormat).length = 4 := by
  unfold shadowPixel
  split_ifs <;> rfl

/-- The rows of a rectangle on the surface. -/
theorem row_toNat {row : ℕ} (hrow : row < request.rows surfaceHeight) :
    (request.y + BitVec.ofNat 32 row).toNat = request.y.toNat + row := by
  have hheight := surfaceHeight.isLt
  unfold RegionRequest.rows clipped at hrow
  rw [BitVec.toNat_add, BitVec.toNat_ofNat, Nat.mod_eq_of_lt (show row < 2 ^ 32 by omega), Nat.mod_eq_of_lt (by omega)]

/-- An exact transfer is refused by its plan, or planned as it is to be done. -/
theorem exact_cases {bytesPerPixel : Word} {count : ℕ} {narrow : Prop} (hbytes : 0 < bytesPerPixel.toNat)
    (hcount : 2 * count < host.modulus)
    (hexact : request.ExactWithin host surfaceWidth surfaceHeight bytesPerPixel count narrow) :
    (¬request.Transfers surfaceWidth surfaceHeight bytesPerPixel.toNat count ∧
        ((¬request.Meets surfaceWidth surfaceHeight ∨ request.planPitch host bytesPerPixel = 0) ∨
          request.Meets surfaceWidth surfaceHeight ∧ request.planPitch host bytesPerPixel ≠ 0 ∧
            count < request.planBytes host surfaceWidth surfaceHeight bytesPerPixel)) ∨
      (request.Transfers surfaceWidth surfaceHeight bytesPerPixel.toNat count ∧
        request.planPitch host bytesPerPixel ≠ 0 ∧
        ¬count < request.planBytes host surfaceWidth surfaceHeight bytesPerPixel ∧
        planSide request.x request.width surfaceWidth = request.columns surfaceWidth ∧
        planSide request.y request.height surfaceHeight = request.rows surfaceHeight ∧
        (∀ row < request.rows surfaceHeight,
          row * request.planPitch host bytesPerPixel = row * request.rowStride bytesPerPixel.toNat) ∧ narrow) := by
  by_cases hmeets : request.Meets surfaceWidth surfaceHeight
  swap
  · exact .inl ⟨fun h => hmeets h.1, .inl (.inl hmeets)⟩
  have hcondition := hexact hmeets
  by_cases hneeded : request.neededBytes surfaceWidth surfaceHeight bytesPerPixel.toNat ≤ count
  · rw [if_pos hneeded] at hcondition
    obtain ⟨hx, hy, hstride, hnarrow⟩ := hcondition
    obtain ⟨hpitch, hplan, hrows⟩ := @exact_plan host _ _ _ _ _ hmeets hbytes hcount hneeded hx hy hstride
    exact .inr ⟨⟨hmeets, hneeded⟩, hpitch, by omega, if_pos hx, if_pos hy, hrows, hnarrow⟩
  · rw [if_neg hneeded] at hcondition
    refine .inl ⟨fun h => hneeded h.2, ?_⟩
    by_cases hpitch : request.planPitch host bytesPerPixel = 0
    · exact .inl (.inr hpitch)
    · exact .inr ⟨hmeets, hpitch, hcondition.resolve_left hpitch⟩

/-- A write to the shadow without a plan. -/
theorem rgba8_refused (h : glideLfbSrcFormatSupported srcFormat = false ∨ ¬request.Meets surfaceWidth surfaceHeight ∨
      request.planPitch host (glideLfbSrcFormatBytesPerPixel srcFormat) = 0) :
    writeGlideLfbRegionRgba8 host request srcFormat (some src) srcColorFormat surfaceColorFormat surfaceWidth
      surfaceHeight shadow = .ok (false, shadow) := by
  unfold writeGlideLfbRegionRgba8
  dsimp only
  split
  case isTrue => rfl
  case isFalse hsurface =>
    split
    case isTrue => rfl
    case isFalse hinside =>
      rw [if_pos]
      simp only [not_or] at hsurface hinside
      rcases h with hsupported | hmeets | hpitch
      · exact absurd hsupported hsurface.1
      · rw [BitVec.le_def, BitVec.le_def] at hinside
        exact absurd (meets_iff.mpr ⟨by omega, ⟨by omega, hinside.2.2.2.1⟩, by omega, hinside.2.2.2.2⟩) hmeets
      · exact hpitch

/-- A read without a plan. -/
theorem read_refused (h : ¬request.Meets surfaceWidth surfaceHeight ∨ request.planPitch host 2 = 0) :
    readGlideLfbRegion host request surfaceWidth surfaceHeight pixels (some dst) =
      .ok ⟨false, some dst, 0, 0⟩ := by
  unfold readGlideLfbRegion
  dsimp only
  rw [planRegion_none h]

/-- A row of the rectangle lies in the pixels of the surface. -/
theorem surfaceRow_end {row : ℕ} (hcolumns : 0 < request.columns surfaceWidth)
    (hrow : row < request.rows surfaceHeight) :
    ((request.y.toNat + row) * surfaceWidth.toNat + request.x.toNat) * 2 + request.columns surfaceWidth * 2 ≤
      surfaceWidth.toNat * surfaceHeight.toNat * 2 := by
  obtain ⟨-, hx, hy⟩ := @covers_of_lt request surfaceWidth surfaceHeight row _ hrow (Nat.sub_lt hcolumns Nat.one_pos)
  have hlast := @pixelStart_lt surfaceWidth surfaceHeight 2 _ _ 1 hx hy (by decide)
  unfold pixelStart at hlast
  omega

theorem surfaceRow_length {row : ℕ} (hpixels : pixels.length = surfaceWidth.toNat * surfaceHeight.toNat * 2)
    (hcolumns : 0 < request.columns surfaceWidth) (hrow : row < request.rows surfaceHeight) :
    (request.surfaceRow surfaceWidth pixels row).length = request.columns surfaceWidth * 2 := by
  have hend := surfaceRow_end hcolumns hrow
  unfold RegionRequest.surfaceRow
  rw [List.length_take, List.length_drop]
  omega

/-- A row of the guest's side ends among the bytes that are needed. -/
theorem guestRow_end {row : ℕ} (hcolumns : 0 < request.columns surfaceWidth) (hrow : row < request.rows surfaceHeight) :
    row * request.rowStride 2 + request.columns surfaceWidth * 2 ≤
      request.neededBytes surfaceWidth surfaceHeight 2 := by
  have hlast := @sourcePixel_lt request surfaceWidth surfaceHeight 2 row _ 1 hrow (Nat.sub_lt hcolumns Nat.one_pos)
    (by decide)
  omega

/-! ## Exact transfers -/

variable (hsurface : 2 * (surfaceWidth.toNat * surfaceHeight.toNat * 2) < host.modulus)
include hsurface

/-- A write of a rectangle that has a plan. -/
theorem write_planned (hsupported : glideLfbSrcFormatSupported srcFormat = true)
    (hmeets : request.Meets surfaceWidth surfaceHeight)
    (hpitch : request.planPitch host (glideLfbSrcFormatBytesPerPixel srcFormat) ≠ 0) :
    writeGlideLfbRegion host request srcFormat (some src) srcColorFormat surfaceColorFormat surfaceWidth surfaceHeight
        pixels =
      if src.length < request.planBytes host surfaceWidth surfaceHeight (glideLfbSrcFormatBytesPerPixel srcFormat) then
        .ok (false, pixels)
      else
        (storePixels (planSide request.y request.height surfaceHeight) (planSide request.x request.width surfaceWidth)
          (writeStart host request surfaceWidth)
          (convertedPixel host src srcFormat srcColorFormat
            (request.planPitch host (glideLfbSrcFormatBytesPerPixel srcFormat)) fun pixel =>
              texelBytes (convertSourcePixelTo565 pixel srcFormat srcColorFormat surfaceColorFormat))
          pixels).map fun pixels => (true, pixels) := by
  obtain ⟨width, height, hplan, hwidth, hheight⟩ :=
    planRegion_some hmeets (bytesPerPixel_ne_zero hsupported) hpitch hsurface
  unfold writeGlideLfbRegion
  dsimp only
  rw [if_neg (by rw [hsupported]; decide), hplan]
  dsimp only
  unfold requiredBytes
  rw [hwidth, hheight]
  rfl

/-- A write to the shadow of a rectangle that has a plan. -/
theorem rgba8_planned (hsupported : glideLfbSrcFormatSupported srcFormat = true)
    (hmeets : request.Meets surfaceWidth surfaceHeight)
    (hpitch : request.planPitch host (glideLfbSrcFormatBytesPerPixel srcFormat) ≠ 0)
    (hshadow : shadow.length = surfaceWidth.toNat * surfaceHeight.toNat * 4) :
    writeGlideLfbRegionRgba8 host request srcFormat (some src) srcColorFormat surfaceColorFormat surfaceWidth
        surfaceHeight shadow =
      if src.length < request.planBytes host surfaceWidth surfaceHeight (glideLfbSrcFormatBytesPerPixel srcFormat) then
        .ok (false, shadow)
      else
        (storePixels (planSide request.y request.height surfaceHeight) (planSide request.x request.width surfaceWidth)
          (shadowStart host request surfaceWidth)
          (convertedPixel host src srcFormat srcColorFormat
            (request.planPitch host (glideLfbSrcFormatBytesPerPixel srcFormat)) fun pixel =>
              shadowPixel pixel srcFormat srcColorFormat surfaceColorFormat)
          shadow).map fun shadow => (true, shadow) := by
  obtain ⟨hstride, hcolumns, hrows⟩ := meets_iff.mp hmeets
  have hfactor := Nat.le_mul_of_pos_right surfaceWidth.toNat (show 0 < surfaceHeight.toNat by omega)
  have hrowPitch : host.wrap (surfaceWidth.toNat * 4) = surfaceWidth.toNat * 4 := wrap_of_lt (by omega)
  have hbytes : host.wrap (surfaceWidth.toNat * surfaceHeight.toNat * 4) =
      surfaceWidth.toNat * surfaceHeight.toNat * 4 := wrap_of_lt (by omega)
  have hpitch' : host.ofInt32
      (resolveGlideLfbRegionStride request.width (glideLfbSrcFormatBytesPerPixel srcFormat) request.stride) ≠ 0 :=
    hpitch
  unfold writeGlideLfbRegionRgba8
  dsimp only
  rw [if_neg, if_neg, if_neg hpitch', hrowPitch]
  · unfold requiredBytes
    rw [planSide_eq hcolumns.1, planSide_eq hrows.1]
    congr 3
    funext row column
    unfold convertedPixel RegionRequest.planPitch shadowPixel
    cases loadPixel host src _ (pixelReads srcFormat srcColorFormat) with
    | error fault => rfl
    | ok pixel =>
      rw [ok_bind]
      by_cases htexel : IsTexelFormat srcFormat
      · rw [if_neg (by rw [fullPrecision_iff hsupported]; exact not_not_intro htexel), Except.map, if_pos htexel]
        rfl
      · rw [if_pos (by rw [fullPrecision_iff hsupported]; exact htexel), Except.map, if_neg htexel]
  · rw [BitVec.le_def, BitVec.le_def]
    simp only [not_or]
    exact ⟨by omega, by omega, by omega, hcolumns.2, hrows.2⟩
  · simp only [not_or]
    exact ⟨by rw [hsupported]; decide, ne_zero_of_toNat_pos (by omega), ne_zero_of_toNat_pos (by omega), by omega⟩

theorem writeStart_exact {row column : ℕ} (hrow : row < request.rows surfaceHeight)
    (hcolumn : column < request.columns surfaceWidth) (hnarrow : request.columns surfaceWidth ≤ 2 ^ 31) :
    writeStart host request surfaceWidth row column =
      pixelStart surfaceWidth 2 (request.x.toNat + column) (request.y.toNat + row) := by
  obtain ⟨-, hx, hy⟩ := covers_of_lt hrow hcolumn
  have hlt := @pixelStart_lt surfaceWidth surfaceHeight 2 _ _ 0 hx hy (by decide)
  have hplace : (request.y.toNat + row) * (surfaceWidth.toNat * 2) + request.x.toNat * 2 + column * 2 =
      pixelStart surfaceWidth 2 (request.x.toNat + column) (request.y.toNat + row) := by
    unfold pixelStart
    ring
  have hcolumn' : (BitVec.ofNat 32 column * 2).toNat = column * 2 := by
    rw [BitVec.toNat_mul, BitVec.toNat_ofNat, Nat.mod_eq_of_lt (show column < 2 ^ 32 by omega)]
    exact Nat.mod_eq_of_lt (show column * 2 < 2 ^ 32 by omega)
  unfold writeStart
  rw [row_toNat hrow, hcolumn', hplace, wrap_of_lt (by omega)]

theorem shadowStart_exact {row column : ℕ} (hrow : row < request.rows surfaceHeight)
    (hcolumn : column < request.columns surfaceWidth) :
    shadowStart host request surfaceWidth row column =
      pixelStart surfaceWidth 4 (request.x.toNat + column) (request.y.toNat + row) := by
  obtain ⟨-, hx, hy⟩ := covers_of_lt hrow hcolumn
  have hlt := @pixelStart_lt surfaceWidth surfaceHeight 4 _ _ 0 hx hy (by decide)
  have hplace : (request.y.toNat + row) * (surfaceWidth.toNat * 4) + request.x.toNat * 4 + column * 4 =
      pixelStart surfaceWidth 4 (request.x.toNat + column) (request.y.toNat + row) := by
    unfold pixelStart
    ring
  unfold shadowStart
  rw [row_toNat hrow, hplace, wrap_of_lt (by omega)]

theorem rgba8_exact
    (hsrc : 2 * src.length < host.modulus) (hshadow : shadow.length = surfaceWidth.toNat * surfaceHeight.toNat * 4)
    (hexact : glideLfbSrcFormatSupported srcFormat = true → request.ExactWithin host surfaceWidth surfaceHeight
      (glideLfbSrcFormatBytesPerPixel srcFormat) src.length (request.columns surfaceWidth ≤ 2 ^ 31)) :
    writeGlideLfbRegionRgba8 host request srcFormat (some src) srcColorFormat surfaceColorFormat surfaceWidth
        surfaceHeight shadow =
      .ok (expectedRgba8 request srcFormat (some src) srcColorFormat surfaceColorFormat surfaceWidth surfaceHeight
        shadow) := by
  unfold expectedRgba8
  dsimp only
  by_cases hsupported : glideLfbSrcFormatSupported srcFormat = true
  swap
  · rw [if_neg (fun h => hsupported h.1), rgba8_refused (.inl (by simpa using hsupported))]
  have hbytes := (bytesPerPixel_pos hsupported).1
  rcases exact_cases hbytes hsrc (hexact hsupported) with
    ⟨hnone, hrefused⟩ | ⟨htransfers, hpitch, hroom, hcolumns, hrows, hstride, -⟩
  · rw [if_neg (fun h => hnone h.2)]
    rcases hrefused with hplan | ⟨hmeets, hpitch, hcount⟩
    · exact rgba8_refused (.inr hplan)
    · rw [rgba8_planned hsurface hsupported hmeets hpitch hshadow, if_pos hcount]
  · rw [if_pos ⟨hsupported, htransfers⟩, rgba8_planned hsurface hsupported htransfers.1 hpitch hshadow, if_neg hroom,
      hcolumns, hrows, storePixels_paint hshadow (by decide) ?_ ?_]
    · rfl
    · exact fun _ _ => shadowPixel_length _
    · intro row hrow column hcolumn
      refine ⟨?_, shadowStart_exact hsurface hrow hcolumn⟩
      apply convertedPixel_exact ?_ hsupported hsrc htransfers.2 hrow hcolumn (hstride row hrow)
      intro pixel pixel' h
      exact shadowPixel_congr h

/-- A read of a rectangle that has a plan. -/
theorem read_planned (hmeets : request.Meets surfaceWidth surfaceHeight) (hpitch : request.planPitch host 2 ≠ 0) :
    readGlideLfbRegion host request surfaceWidth surfaceHeight pixels (some dst) =
      if dst.length < request.planBytes host surfaceWidth surfaceHeight 2 then .ok ⟨false, some dst, 0, 0⟩
      else
        (storeEach ((List.range (planSide request.y request.height surfaceHeight)).map fun row =>
          (readSpan pixels (host.wrap ((request.y + BitVec.ofNat 32 row).toNat * (surfaceWidth.toNat * 2) +
            request.x.toNat * 2)) (host.wrap (planSide request.x request.width surfaceWidth * 2))).map fun bytes =>
              (host.wrap (row * request.planPitch host 2), bytes)) dst).map fun dst =>
          ⟨true, some dst, planSide request.x request.width surfaceWidth,
            planSide request.y request.height surfaceHeight⟩ := by
  obtain ⟨width, height, hplan, hwidth, hheight⟩ :=
    @planRegion_some host request surfaceWidth surfaceHeight 2 hmeets (by decide) hpitch hsurface
  unfold readGlideLfbRegion
  dsimp only
  rw [hplan]
  dsimp only
  unfold requiredBytes
  rw [hwidth, hheight]
  rfl

variable (hpixels : pixels.length = surfaceWidth.toNat * surfaceHeight.toNat * 2)
include hpixels

theorem write_exact
    (hsrc : 2 * src.length < host.modulus)
    (hexact : glideLfbSrcFormatSupported srcFormat = true → request.ExactWithin host surfaceWidth surfaceHeight
      (glideLfbSrcFormatBytesPerPixel srcFormat) src.length (request.columns surfaceWidth ≤ 2 ^ 31)) :
    writeGlideLfbRegion host request srcFormat (some src) srcColorFormat surfaceColorFormat surfaceWidth surfaceHeight
        pixels =
      .ok (expectedWrite request srcFormat (some src) srcColorFormat surfaceColorFormat surfaceWidth surfaceHeight
        pixels) := by
  unfold expectedWrite
  dsimp only
  by_cases hsupported : glideLfbSrcFormatSupported srcFormat = true
  swap
  · rw [if_neg (fun h => hsupported h.1), write_refused (.inl (by simpa using hsupported))]
  have hbytes := (bytesPerPixel_pos hsupported).1
  rcases exact_cases hbytes hsrc (hexact hsupported) with
    ⟨hnone, hrefused⟩ | ⟨htransfers, hpitch, hroom, hcolumns, hrows, hstride, hnarrow⟩
  · rw [if_neg (fun h => hnone h.2)]
    rcases hrefused with hplan | ⟨hmeets, hpitch, hcount⟩
    · exact write_refused (.inr hplan)
    · rw [write_planned hsurface hsupported hmeets hpitch, if_pos hcount]
  · rw [if_pos ⟨hsupported, htransfers⟩, write_planned hsurface hsupported htransfers.1 hpitch, if_neg hroom, hcolumns,
      hrows, storePixels_paint hpixels (by decide) ?_ ?_]
    · rfl
    · exact fun _ _ => rfl
    · intro row hrow column hcolumn
      refine ⟨?_, writeStart_exact hsurface hrow hcolumn hnarrow⟩
      apply convertedPixel_exact ?_ hsupported hsrc htransfers.2 hrow hcolumn (hstride row hrow)
      intro pixel pixel' h
      rw [convert_congr h]

/-- The rows of an exact read. -/
theorem read_rows
    (hdst : 2 * dst.length < host.modulus)
    (htransfers : request.Transfers surfaceWidth surfaceHeight 2 dst.length)
    (hexact : request.ExactWithin host surfaceWidth surfaceHeight 2 dst.length True) :
    readGlideLfbRegion host request surfaceWidth surfaceHeight pixels (some dst) =
      (storeEach ((List.range (request.rows surfaceHeight)).map fun row =>
        .ok (row * request.rowStride 2, request.surfaceRow surfaceWidth pixels row)) dst).map fun dst =>
          ⟨true, some dst, request.columns surfaceWidth, request.rows surfaceHeight⟩ := by
  obtain ⟨hmeets, hneeded⟩ := htransfers
  have hcolumnsPos := hmeets.2.1
  rcases exact_cases (by decide) hdst hexact with ⟨hnone, -⟩ | ⟨-, hpitch, hroom, hcolumns, hrows, hstride, -⟩
  · exact absurd ⟨hmeets, hneeded⟩ hnone
  have hwidth : host.wrap (request.columns surfaceWidth * 2) = request.columns surfaceWidth * 2 := by
    apply wrap_of_lt
    have hend := @surfaceRow_end request surfaceWidth surfaceHeight 0 hcolumnsPos hmeets.2.2
    omega
  rw [read_planned hsurface hmeets hpitch, if_neg hroom, hcolumns, hrows, hwidth]
  congr 2
  apply List.map_congr_left
  intro row hrow
  rw [List.mem_range] at hrow
  have hend := @surfaceRow_end request surfaceWidth surfaceHeight row hcolumnsPos hrow
  have hguest := guestRow_end hcolumnsPos hrow
  have hplace : (request.y.toNat + row) * (surfaceWidth.toNat * 2) + request.x.toNat * 2 =
      ((request.y.toNat + row) * surfaceWidth.toNat + request.x.toNat) * 2 := by
    ring
  have hpitchRow : row * request.planPitch host 2 = row * request.rowStride 2 := hstride row hrow
  rw [row_toNat hrow, hplace, hpitchRow, wrap_of_lt (by omega), wrap_of_lt (by omega), readSpan_of_le (by omega)]
  rfl

theorem read_exact
    (hdst : 2 * dst.length < host.modulus)
    (hexact : request.ExactWithin host surfaceWidth surfaceHeight 2 dst.length True) :
    readGlideLfbRegion host request surfaceWidth surfaceHeight pixels (some dst) =
      .ok (expectedRead request surfaceWidth surfaceHeight pixels (some dst)) := by
  unfold expectedRead
  dsimp only
  by_cases htransfers : request.Transfers surfaceWidth surfaceHeight 2 dst.length
  · rw [if_pos htransfers, read_rows hsurface hpixels hdst htransfers hexact, storeEach_map]
    · rfl
    · intro row hrow
      rw [List.mem_range] at hrow
      have hguest := guestRow_end htransfers.1.2.1 hrow
      have hneeded := htransfers.2
      rw [surfaceRow_length hpixels htransfers.1.2.1 hrow]
      omega
  · rw [if_neg htransfers]
    rcases exact_cases (by decide) hdst hexact with ⟨-, hplan | ⟨hmeets, hpitch, hcount⟩⟩ | ⟨hthere, -⟩
    · exact read_refused hplan
    · rw [read_planned hsurface hmeets hpitch, if_pos hcount]
    · exact absurd hthere htransfers

/-- What is read of a rectangle that was written is what was written. -/
theorem readBack_exact {pixels' dst' : List Byte} {copiedWidth copiedHeight : ℕ}
    (hsrc : 2 * src.length < host.modulus) (hdst : 2 * dst.length < host.modulus)
    (horder : glideColorFormatUsesBgrOrder srcColorFormat = glideColorFormatUsesBgrOrder surfaceColorFormat)
    (hwriteExact : request.ExactWithin host surfaceWidth surfaceHeight 2 src.length
      (request.columns surfaceWidth ≤ 2 ^ 31))
    (hreadExact : request.ExactWithin host surfaceWidth surfaceHeight 2 dst.length True)
    (hwrite : writeGlideLfbRegion host request kGlideLfbSrcFmt565 (some src) srcColorFormat surfaceColorFormat
      surfaceWidth surfaceHeight pixels = .ok (true, pixels'))
    (hread : readGlideLfbRegion host request surfaceWidth surfaceHeight pixels' (some dst) =
      .ok ⟨true, some dst', copiedWidth, copiedHeight⟩) {row column k : ℕ} (hrow : row < request.rows surfaceHeight)
    (hcolumn : column < request.columns surfaceWidth) (hk : k < 2) :
    dst'[row * request.rowStride 2 + column * 2 + k]? = src[row * request.rowStride 2 + column * 2 + k]? := by
  have hbytes : glideLfbSrcFormatBytesPerPixel kGlideLfbSrcFmt565 = 2 := by decide
  have hbytes' : (2 : Word).toNat = 2 := by decide
  have hsupported : glideLfbSrcFormatSupported kGlideLfbSrcFmt565 = true := by decide
  rw [write_exact hsurface hpixels hsrc fun _ => by rw [hbytes]; exact hwriteExact] at hwrite
  unfold expectedWrite at hwrite
  dsimp only at hwrite
  rw [hbytes, hbytes'] at hwrite
  by_cases hwrites : request.Transfers surfaceWidth surfaceHeight 2 src.length
  swap
  · rw [if_neg (fun h => hwrites h.2)] at hwrite
    cases hwrite
  rw [if_pos ⟨hsupported, hwrites⟩, Except.ok.injEq, Prod.mk.injEq] at hwrite
  have hpainted := hwrite.2
  have hpixels' : pixels'.length = surfaceWidth.toNat * surfaceHeight.toNat * 2 := by
    rw [← hpainted, paint_length, hpixels]
  have hreads : request.Transfers surfaceWidth surfaceHeight 2 dst.length := by
    by_contra hnone
    rw [read_exact hsurface hpixels' hdst hreadExact] at hread
    unfold expectedRead at hread
    dsimp only at hread
    rw [if_neg hnone] at hread
    cases hread
  rw [read_rows hsurface hpixels' hdst hreads hreadExact] at hread
  have hcolumns := hwrites.1.2.1
  have hneeded := hwrites.2
  have hpixel := @sourcePixel_lt request surfaceWidth surfaceHeight 2 row column k hrow hcolumn hk
  have hrowEnd := Nat.mul_le_mul_right 2 hcolumn
  cases hstored : storeEach ((List.range (request.rows surfaceHeight)).map fun row =>
      .ok (row * request.rowStride 2, request.surfaceRow surfaceWidth pixels' row)) dst with
  | error fault =>
    rw [hstored] at hread
    cases hread
  | ok result =>
    rw [hstored] at hread
    cases hread
    rcases storeEach_cell hstored (row * request.rowStride 2 + column * 2 + k) with
      ⟨-, hnone⟩ | ⟨start, bytes, hmem, hlow, hhigh, hcell⟩
    · refine absurd ⟨?_, ?_⟩ (hnone _ _ (List.mem_map.mpr ⟨row, List.mem_range.mpr hrow, rfl⟩))
      · omega
      · rw [surfaceRow_length hpixels' hcolumns hrow]
        omega
    · obtain ⟨row', hrow', heq⟩ := List.mem_map.mp hmem
      rw [List.mem_range] at hrow'
      cases heq
      rw [surfaceRow_length hpixels' hcolumns hrow'] at hhigh
      -- the byte is one of a pixel of that row, which is not the one it was asked for where rows overlap
      obtain ⟨offset, hoffset, hplace⟩ : ∃ offset < request.columns surfaceWidth * 2,
          row * request.rowStride 2 + column * 2 + k = row' * request.rowStride 2 + offset :=
        ⟨_, by omega, (Nat.add_sub_cancel' hlow).symm⟩
      have hhalf : offset / 2 < request.columns surfaceWidth := by omega
      have hindex : ((request.y.toNat + row') * surfaceWidth.toNat + request.x.toNat) * 2 + offset =
          pixelStart surfaceWidth 2 (request.x.toNat + offset / 2) (request.y.toNat + row') + offset % 2 := by
        unfold pixelStart
        omega
      have hsource : row' * request.rowStride 2 + offset / 2 * 2 + offset % 2 =
          row * request.rowStride 2 + column * 2 + k := by
        omega
      have hbyte : [request.sourcePixel 2 src row' (offset / 2) 0, request.sourcePixel 2 src row' (offset / 2) 1].getD
          (offset % 2) 0 = request.sourcePixel 2 src row' (offset / 2) (offset % 2) := by
        rcases Nat.mod_two_eq_zero_or_one offset with hmod | hmod <;> rw [hmod] <;> rfl
      rw [hcell, hplace, Nat.add_sub_cancel_left, RegionRequest.surfaceRow, List.getElem?_take_of_lt hoffset,
        List.getElem?_drop, hindex, ← hpainted, paint_covered hpixels hrow' hhalf (Nat.mod_lt _ (by decide)),
        convert_565 horder, hbyte, RegionRequest.sourcePixel, hsource, ← hplace, List.getElem?_eq_getElem (by omega),
        List.getD_eq_getElem]

end

end Repiu.Glide
