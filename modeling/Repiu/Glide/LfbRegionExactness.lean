import Repiu.Glide.LfbRegionClipping

/-!
# Exactness of frame buffer regions

Transfers that are exact for all contents meet the conditions on their rectangle: a rectangle that
does not is told apart by some surface and buffer.
-/

namespace Repiu.Glide

open CheckedBuffers SizeWidth

/-! ## Stores of a rectangle -/

section
variable {rows columns : ℕ} {starts : ℕ → ℕ → ℕ} {pixels : ℕ → ℕ → Except BufferFault (List Byte)}
  {target result : List Byte}

theorem storePixels_inside (h : storePixels rows columns starts pixels target = .ok result) {row column : ℕ}
    (hrow : row < rows) (hcolumn : column < columns) :
    ∃ bytes, pixels row column = .ok bytes ∧ starts row column + bytes.length ≤ target.length := by
  have hmem : (pixels row column).map (fun bytes => (starts row column, bytes)) ∈
      (List.range rows).flatMap fun row => (List.range columns).map fun column =>
        (pixels row column).map fun bytes => (starts row column, bytes) := by
    simp only [List.mem_flatMap, List.mem_range, List.mem_map]
    exact ⟨row, hrow, column, hcolumn, rfl⟩
  obtain ⟨start, bytes, heq, hinside⟩ := storeEach_inside h _ hmem
  obtain ⟨bytes', hpixel, hpair⟩ := map_ok heq
  rw [Prod.mk.injEq] at hpair
  obtain ⟨rfl, rfl⟩ := hpair
  exact ⟨bytes', hpixel, hinside⟩

/-- A byte behind the stores of a rectangle is the old one, or one of a pixel over it. -/
theorem storePixels_cell (h : storePixels rows columns starts pixels target = .ok result) (i : ℕ) :
    (result[i]? = target[i]? ∧ ∀ row < rows, ∀ column < columns, ∀ bytes, pixels row column = .ok bytes →
        ¬(starts row column ≤ i ∧ i < starts row column + bytes.length)) ∨
      ∃ row < rows, ∃ column < columns, ∃ bytes, pixels row column = .ok bytes ∧ starts row column ≤ i ∧
        i < starts row column + bytes.length ∧ result[i]? = bytes[i - starts row column]? := by
  rcases storeEach_cell h i with ⟨hsame, hnone⟩ | ⟨start, bytes, hmem, hlow, hhigh, hcell⟩
  · refine .inl ⟨hsame, ?_⟩
    intro row hrow column hcolumn bytes hbytes
    exact hnone _ _ (mem_pixelBlocks.mpr ⟨row, hrow, column, hcolumn, hbytes, rfl⟩)
  · obtain ⟨row, hrow, column, hcolumn, hbytes, rfl⟩ := mem_pixelBlocks.mp hmem
    exact .inr ⟨row, hrow, column, hcolumn, bytes, hbytes, hlow, hhigh, hcell⟩

/-- The last pixel over a byte decides it. -/
theorem storePixels_last (h : storePixels rows columns starts pixels target = .ok result) {row column i : ℕ}
    {bytes : List Byte} (hrow : row < rows) (hcolumn : column < columns) (hbytes : pixels row column = .ok bytes)
    (hi : starts row column ≤ i ∧ i < starts row column + bytes.length)
    (hlater : ∀ row' < rows, ∀ column' < columns, row < row' ∨ row = row' ∧ column < column' →
      ∀ bytes, pixels row' column' = .ok bytes →
        ¬(starts row' column' ≤ i ∧ i < starts row' column' + bytes.length)) :
    result[i]? = bytes[i - starts row column]? := by
  obtain ⟨moreRows, rfl⟩ : ∃ more, rows = row + (more + 1) := ⟨rows - row - 1, by omega⟩
  obtain ⟨moreColumns, rfl⟩ : ∃ more, columns = column + (more + 1) := ⟨columns - column - 1, by omega⟩
  have hsplit : ∀ a b : ℕ, List.range (a + (b + 1)) = List.range a ++ a :: (List.range b).map fun k => a + (k + 1) := by
    intro a b
    rw [List.range_add, List.range_succ_eq_map, List.map_cons, Nat.add_zero, List.map_map]
    rfl
  let block : ℕ → ℕ → Except BufferFault (ℕ × List Byte) :=
    fun row column => (pixels row column).map fun bytes => (starts row column, bytes)
  have hblock : block row column = .ok (starts row column, bytes) := by
    show (pixels row column).map _ = _
    rw [hbytes]
    rfl
  have hcolumns : (List.range (column + (moreColumns + 1))).map (block row) =
      (List.range column).map (block row) ++ .ok (starts row column, bytes) ::
        ((List.range moreColumns).map fun k => column + (k + 1)).map (block row) := by
    rw [hsplit, List.map_append, List.map_cons, hblock]
  have hlist : ((List.range (row + (moreRows + 1))).flatMap fun row =>
        (List.range (column + (moreColumns + 1))).map (block row)) =
      (((List.range row).flatMap fun row => (List.range (column + (moreColumns + 1))).map (block row)) ++
        (List.range column).map (block row)) ++ .ok (starts row column, bytes) ::
          (((List.range moreColumns).map fun k => column + (k + 1)).map (block row) ++
            ((List.range moreRows).map fun k => row + (k + 1)).flatMap fun row =>
              (List.range (column + (moreColumns + 1))).map (block row)) := by
    rw [hsplit row, List.flatMap_append, List.flatMap_cons, hcolumns, List.append_assoc, List.append_assoc,
      List.cons_append]
  have hstored : storeEach ((List.range (row + (moreRows + 1))).flatMap fun row =>
      (List.range (column + (moreColumns + 1))).map (block row)) target = .ok result := h
  rw [hlist] at hstored
  apply storeEach_last hstored hi
  intro start bytes' hmem
  have hwhere : ∃ row' < row + (moreRows + 1), ∃ column' < column + (moreColumns + 1),
      (row < row' ∨ row = row' ∧ column < column') ∧ block row' column' = .ok (start, bytes') := by
    simp only [List.mem_append, List.mem_flatMap, List.mem_map, List.mem_range] at hmem
    rcases hmem with ⟨column', ⟨k, hk, rfl⟩, heq⟩ | ⟨row', ⟨k, hk, rfl⟩, column', hcolumn', heq⟩
    · exact ⟨row, by omega, column + (k + 1), by omega, .inr ⟨rfl, by omega⟩, heq⟩
    · exact ⟨row + (k + 1), by omega, column', hcolumn', .inl (by omega), heq⟩
  obtain ⟨row', hrow', column', hcolumn', horder, heq⟩ := hwhere
  have hpixel : pixels row' column' = .ok bytes' ∧ starts row' column' = start := by
    have heq' : (pixels row' column').map (fun bytes => (starts row' column', bytes)) = .ok (start, bytes') := heq
    obtain ⟨value, hvalue, hpair⟩ := map_ok heq'
    rw [Prod.mk.injEq] at hpair
    exact ⟨hpair.2 ▸ hvalue, hpair.1⟩
  rw [← hpixel.2]
  exact hlater row' hrow' column' hcolumn' horder bytes' hpixel.1

end

/-! ## Writes -/

/-- A pixel of the source as it is stored, in the default order of both sides. -/
def storedTexel (srcFormat : Word) (pixel : ℕ → Byte) : List Byte :=
  texelBytes (convertSourcePixelTo565 pixel srcFormat 0 0)

/-- A write of a rectangle stores what it is to store, whatever the surface and the source hold. -/
def StoresExactly (host : SizeWidth) (request : RegionRequest) (srcFormat surfaceWidth surfaceHeight : Word)
    (count : ℕ) : Prop :=
  ∀ src pixels : List Byte, src.length = count → pixels.length = surfaceWidth.toNat * surfaceHeight.toNat * 2 →
    storePixels (planSide request.y request.height surfaceHeight) (planSide request.x request.width surfaceWidth)
        (writeStart host request surfaceWidth)
        (convertedPixel host src srcFormat 0 (request.planPitch host (glideLfbSrcFormatBytesPerPixel srcFormat))
          (storedTexel srcFormat)) pixels =
      .ok (request.paint surfaceWidth 2 (fun row column =>
        storedTexel srcFormat (request.sourcePixel (glideLfbSrcFormatBytesPerPixel srcFormat).toNat src row column))
          pixels)

section
variable {host : SizeWidth} {request : RegionRequest} {srcFormat surfaceWidth surfaceHeight : Word} {count : ℕ}

/-- What is stored of a pixel has the length of a texel. -/
theorem convertedPixel_length {src bytes : List Byte} {pitch row column : ℕ}
    (h : convertedPixel host src srcFormat 0 pitch (storedTexel srcFormat) row column = .ok bytes) :
    bytes.length = 2 := by
  obtain ⟨pixel, -, rfl⟩ := map_ok h
  rfl

theorem storedTexel_zero {pixel : ℕ → Byte} (h : ∀ k ∈ pixelReads srcFormat 0, pixel k = 0) :
    storedTexel srcFormat pixel = [0, 0] := by
  unfold storedTexel
  rw [convert_zero h]
  rfl

theorem storedTexel_ones {pixel : ℕ → Byte} (h : ∀ k ∈ pixelReads srcFormat 0, pixel k = 0xFF) :
    storedTexel srcFormat pixel = [0xFF, 0xFF] := by
  unfold storedTexel
  rw [convert_ones h]
  rfl

/-- What is stored of a pixel is made of the bytes that are read of it. -/
theorem convertedPixel_ok {src bytes : List Byte} {pitch row column : ℕ}
    (h : convertedPixel host src srcFormat 0 pitch (storedTexel srcFormat) row column = .ok bytes) :
    (∀ k ∈ pixelReads srcFormat 0,
      host.wrap (row * pitch + column * (glideLfbSrcFormatBytesPerPixel srcFormat).toNat + k) < src.length) ∧
      bytes = storedTexel srcFormat fun k =>
        src.getD (host.wrap (row * pitch + column * (glideLfbSrcFormatBytesPerPixel srcFormat).toNat + k)) 0 := by
  obtain ⟨pixel, hload, rfl⟩ := map_ok h
  unfold loadPixel at hload
  split at hload
  case isTrue hreads =>
    cases hload
    exact ⟨hreads, rfl⟩
  case isFalse => cases hload

theorem getD_replicate_zero (n i : ℕ) : (List.replicate n (0 : Byte)).getD i 0 = 0 := by
  rw [List.getD_eq_getElem?_getD, List.getElem?_replicate]
  split_ifs <;> rfl

/-- A black source is stored as zeros. -/
theorem storedTexel_black (bytesPerPixel n row column : ℕ) :
    storedTexel srcFormat (request.sourcePixel bytesPerPixel (List.replicate n 0) row column) = [0, 0] :=
  storedTexel_zero fun _ _ => getD_replicate_zero _ _

theorem convertedPixel_black {n pitch row column : ℕ} {bytes : List Byte}
    (h : convertedPixel host (List.replicate n 0) srcFormat 0 pitch (storedTexel srcFormat) row column = .ok bytes) :
    bytes = [0, 0] := by
  rw [(convertedPixel_ok h).2]
  exact storedTexel_zero fun _ _ => getD_replicate_zero _ _

theorem black_ne_white (i : ℕ) : ([0, 0] : List Byte)[i]? ≠ some 0xFF := by
  match i with
  | 0 => decide
  | 1 => decide
  | i + 2 => nofun

/-- A source that is white for a stretch, and black before and behind it. -/
def whiteStretch (before n count : ℕ) : List Byte :=
  List.replicate before 0 ++ (List.replicate n 0xFF ++ List.replicate (count - before - n) 0)

theorem whiteStretch_length {before n count : ℕ} (h : before + n ≤ count) :
    (whiteStretch before n count).length = count := by
  unfold whiteStretch
  simp only [List.length_append, List.length_replicate]
  omega

theorem whiteStretch_inside {before n count i : ℕ} (h : before ≤ i ∧ i < before + n) :
    (whiteStretch before n count).getD i 0 = 0xFF := by
  unfold whiteStretch
  rw [List.getD_eq_getElem?_getD, List.getElem?_append_right (by rw [List.length_replicate]; omega),
    List.getElem?_append_left (by simp only [List.length_replicate]; omega), List.getElem?_replicate,
    if_pos (by rw [List.length_replicate]; omega)]
  rfl

theorem whiteStretch_outside {before n count i : ℕ} (h : ¬(before ≤ i ∧ i < before + n)) :
    (whiteStretch before n count).getD i 0 = 0 := by
  unfold whiteStretch
  rw [List.getD_eq_getElem?_getD]
  by_cases hbefore : i < before
  · rw [List.getElem?_append_left (by rw [List.length_replicate]; omega), List.getElem?_replicate, if_pos hbefore]
    rfl
  · rw [List.getElem?_append_right (by rw [List.length_replicate]; omega), List.length_replicate,
      List.getElem?_append_right (by rw [List.length_replicate]; omega), ← List.getD_eq_getElem?_getD]
    exact getD_replicate_zero _ _

/-- An image with one white byte. -/
theorem exists_whiteByte {place count : ℕ} (h : place < count) :
    ∃ image : List Byte, image.length = count ∧ image[place]? = some 0xFF ∧ ∀ i, image[i]? = some 0xFF → i = place := by
  refine ⟨whiteStretch place 1 count, whiteStretch_length h, ?_, ?_⟩
  · have hlength := @whiteStretch_length place 1 count h
    rw [List.getElem?_eq_getElem (by omega), ← List.getD_eq_getElem _ 0, whiteStretch_inside (by omega)]
  · intro i hi
    by_contra hne
    have hvalue := @whiteStretch_outside place 1 count i (by omega)
    rw [List.getD_eq_getElem?_getD, hi] at hvalue
    exact absurd hvalue (by decide)

theorem columnOffset (column : ℕ) : (BitVec.ofNat 32 column * 2).toNat = column * 2 % 2 ^ 32 := by
  rw [BitVec.toNat_mul, BitVec.toNat_ofNat]
  show column % 2 ^ 32 * 2 % 2 ^ 32 = column * 2 % 2 ^ 32
  omega

theorem writeStart_eq {row column : ℕ} (hrow : row < request.rows surfaceHeight) :
    writeStart host request surfaceWidth row column =
      host.wrap (pixelStart surfaceWidth 2 request.x.toNat (request.y.toNat + row) + column * 2 % 2 ^ 32) := by
  unfold writeStart pixelStart
  rw [row_toNat hrow, columnOffset]
  congr 1
  ring

/-- A row of a surface that is wider than the column offsets reach. -/
theorem wideRow_lt {row column : ℕ} (hrow : row < request.rows surfaceHeight)
    (hcolumns : 2 ^ 31 ≤ request.columns surfaceWidth)
    (hsurface : 2 * (surfaceWidth.toNat * surfaceHeight.toNat * 2) < host.modulus) :
    pixelStart surfaceWidth 2 request.x.toNat (request.y.toNat + row) + column * 2 % 2 ^ 32 < host.modulus := by
  obtain ⟨-, hx, hy⟩ := @covers_of_lt request surfaceWidth surfaceHeight row 0 hrow (by omega)
  have hlast := @pixelStart_lt surfaceWidth surfaceHeight 2 _ _ 0 hx hy (by decide)
  have hfactor := Nat.le_mul_of_pos_right surfaceWidth.toNat (show 0 < surfaceHeight.toNat by omega)
  unfold RegionRequest.columns clipped at hcolumns
  simp only [Nat.add_zero] at hlast
  omega

theorem modulus_of_lt (h : 2 ^ 32 < host.modulus) : host.modulus = 2 ^ 64 := by
  cases host with
  | bits32 => exact absurd h (Nat.lt_irrefl _)
  | bits64 => rfl

/-- A stride beyond 32 bits is a short one for the plan, or one that leads out of the buffer. -/
theorem planPitch_far {bytesPerPixel : Word} {k : ℕ} (hstride : request.stride = 0)
    (hover : 2 ^ 31 ≤ request.width.toNat * bytesPerPixel.toNat) (hk : k < 4) (hcount : 2 * count < host.modulus)
    (hinside : host.wrap (request.planPitch host bytesPerPixel + k) < count) :
    host.wrap (request.planPitch host bytesPerPixel + k) < request.width.toNat * bytesPerPixel.toNat := by
  have hmodulus := modulus_ge host
  have hproduct : (request.width * bytesPerPixel).toNat = request.width.toNat * bytesPerPixel.toNat % 2 ^ 32 :=
    BitVec.toNat_mul _ _
  unfold RegionRequest.planPitch resolveGlideLfbRegionStride SizeWidth.ofInt32 at hinside ⊢
  rw [if_neg (not_not_intro hstride), hproduct] at hinside ⊢
  split at hinside
  case isTrue hshort =>
    rw [if_pos hshort, wrap_of_lt (by omega)]
    omega
  case isFalse hlong =>
    rw [if_neg hlong]
    rcases Nat.lt_or_ge (host.modulus - (2 ^ 32 - request.width.toNat * bytesPerPixel.toNat % 2 ^ 32) + k)
      host.modulus with hlt | hge
    · rw [wrap_of_lt hlt] at hinside
      omega
    · unfold SizeWidth.wrap
      rw [Nat.mod_eq_sub_mod hge, Nat.mod_eq_of_lt (by omega)]
      omega

/-- The rows of a rectangle whose stride is beyond 32 bits. -/
theorem packed_of_over {bytesPerPixel : Word} (hstride : 0 ≤ request.stride.toInt)
    (hover : 2 ^ 31 ≤ request.rowStride bytesPerPixel.toNat) :
    request.stride = 0 ∧ request.rowStride bytesPerPixel.toNat = request.width.toNat * bytesPerPixel.toNat := by
  have hlt := toNat_lt_of_toInt hstride
  unfold RegionRequest.rowStride at hover ⊢
  by_cases hzero : request.stride = 0
  · exact ⟨hzero, if_pos hzero⟩
  · rw [if_neg hzero] at hover
    omega

theorem product_ne_zero {bytesPerPixel : Word} (hstride : request.stride = 0)
    (hpitch : request.planPitch host bytesPerPixel ≠ 0) : request.width * bytesPerPixel ≠ 0 := by
  intro hzero
  apply hpitch
  unfold RegionRequest.planPitch resolveGlideLfbRegionStride
  rw [if_neg (not_not_intro hstride), hzero]
  rfl

/-- A pixel whose bytes alone are white is painted white. -/
theorem paint_white (hsupported : glideLfbSrcFormatSupported srcFormat = true) {row column before n : ℕ}
    {pixels : List Byte} (hpixels : pixels.length = surfaceWidth.toNat * surfaceHeight.toNat * 2)
    (hrow : row < request.rows surfaceHeight) (hcolumn : column < request.columns surfaceWidth)
    (hbytes : (glideLfbSrcFormatBytesPerPixel srcFormat).toNat = n)
    (hbefore : row * request.rowStride n + column * n = before) :
    (request.paint surfaceWidth 2 (fun row column =>
      storedTexel srcFormat (request.sourcePixel n (whiteStretch before n count) row column)) pixels)[pixelStart
        surfaceWidth 2 (request.x.toNat + column) (request.y.toNat + row) + 0]? = some 0xFF := by
  rw [paint_covered hpixels hrow hcolumn (by decide), storedTexel_ones]
  · rfl
  · intro k hk
    have hlt := pixelReads_lt hsupported k hk
    unfold RegionRequest.sourcePixel
    apply whiteStretch_inside
    omega

/-- Another row than the first begins behind it. -/
theorem eq_zero_or_le_row (row : ℕ) : row = 0 ∨ surfaceWidth.toNat ≤ row * surfaceWidth.toNat := by
  rcases Nat.eq_zero_or_pos row with hzero | hpos
  · exact .inl hzero
  · exact .inr (Nat.le_mul_of_pos_left _ hpos)

section
variable (hmeets : request.Meets surfaceWidth surfaceHeight)
  (hsurface : 2 * (surfaceWidth.toNat * surfaceHeight.toNat * 2) < host.modulus)

include hmeets hsurface

/-- An exact write with room is planned, and stores what it is to store. -/
theorem write_stores (hsupported : glideLfbSrcFormatSupported srcFormat = true)
    (hneeded : request.neededBytes surfaceWidth surfaceHeight (glideLfbSrcFormatBytesPerPixel srcFormat).toNat ≤ count)
    (hwrite : ∀ src pixels : List Byte, src.length = count →
      pixels.length = surfaceWidth.toNat * surfaceHeight.toNat * 2 →
        writeGlideLfbRegion host request srcFormat (some src) 0 0 surfaceWidth surfaceHeight pixels =
          .ok (expectedWrite request srcFormat (some src) 0 0 surfaceWidth surfaceHeight pixels)) :
    request.planPitch host (glideLfbSrcFormatBytesPerPixel srcFormat) ≠ 0 ∧
      StoresExactly host request srcFormat surfaceWidth surfaceHeight count := by
  have hexpected : ∀ src pixels : List Byte, src.length = count →
      expectedWrite request srcFormat (some src) 0 0 surfaceWidth surfaceHeight pixels =
        (true, request.paint surfaceWidth 2 (fun row column => storedTexel srcFormat
          (request.sourcePixel (glideLfbSrcFormatBytesPerPixel srcFormat).toNat src row column)) pixels) := by
    intro src pixels hsrc
    unfold expectedWrite
    dsimp only
    rw [if_pos ⟨hsupported, hmeets, by rw [hsrc]; exact hneeded⟩]
    rfl
  have hpitch : request.planPitch host (glideLfbSrcFormatBytesPerPixel srcFormat) ≠ 0 := by
    intro hzero
    have hrefused := hwrite (List.replicate count 0) (List.replicate (surfaceWidth.toNat * surfaceHeight.toNat * 2) 0)
      List.length_replicate List.length_replicate
    rw [write_refused (.inr (.inr hzero)), hexpected _ _ List.length_replicate] at hrefused
    cases hrefused
  refine ⟨hpitch, ?_⟩
  intro src pixels hsrc hpixels
  have hrun := hwrite src pixels hsrc hpixels
  rw [write_planned hsurface hsupported hmeets hpitch, hexpected src pixels hsrc] at hrun
  by_cases hroom : src.length < request.planBytes host surfaceWidth surfaceHeight
      (glideLfbSrcFormatBytesPerPixel srcFormat)
  · rw [if_pos hroom] at hrun
    cases hrun
  · rw [if_neg hroom] at hrun
    obtain ⟨result, hresult, heq⟩ := map_ok hrun
    rw [Prod.mk.injEq] at heq
    rw [← heq.2]
    exact hresult

/-- The rectangle of a write that stores exactly does not end beyond 32 bits from the top down: the row
below the surface would be stored. -/
theorem StoresExactly.height (h : StoresExactly host request srcFormat surfaceWidth surfaceHeight count) :
    request.y.toNat + request.height.toNat < 2 ^ 32 := by
  by_contra hover
  obtain ⟨-, hcolumns, hrows⟩ := hmeets
  have hwidth := planSide_pos hcolumns
  have hlimit := surfaceHeight.isLt
  rw [RegionRequest.rows, clipped_pos_iff] at hrows
  have hheight : planSide request.y request.height surfaceHeight = request.height.toNat := if_neg hover
  have hstored := h (List.replicate count 0) (List.replicate (surfaceWidth.toNat * surfaceHeight.toNat * 2) 0)
    List.length_replicate List.length_replicate
  obtain ⟨bytes, hbytes, hinside⟩ := storePixels_inside hstored
    (show surfaceHeight.toNat - request.y.toNat < planSide request.y request.height surfaceHeight by omega) hwidth
  have hrow : (request.y + BitVec.ofNat 32 (surfaceHeight.toNat - request.y.toNat)).toNat = surfaceHeight.toNat := by
    rw [BitVec.toNat_add, BitVec.toNat_ofNat, Nat.mod_eq_of_lt (show _ < 2 ^ 32 by omega), Nat.mod_eq_of_lt (by omega)]
    omega
  have hx : request.x.toNat < surfaceWidth.toNat := by
    rw [RegionRequest.columns, clipped_pos_iff] at hcolumns
    exact hcolumns.1
  have hfactor := Nat.le_mul_of_pos_right surfaceWidth.toNat (show 0 < surfaceHeight.toNat by omega)
  have hplace : surfaceHeight.toNat * (surfaceWidth.toNat * 2) = surfaceWidth.toNat * surfaceHeight.toNat * 2 := by
    ring
  have hzero : (BitVec.ofNat 32 0 * 2).toNat = 0 := by decide
  rw [convertedPixel_length hbytes, List.length_replicate, writeStart, hrow, hzero, hplace,
    wrap_of_lt (by omega)] at hinside
  omega

theorem StoresExactly.rows (h : StoresExactly host request srcFormat surfaceWidth surfaceHeight count) :
    planSide request.y request.height surfaceHeight = request.rows surfaceHeight :=
  if_pos (h.height hmeets hsurface)

/-- The columns of a write that stores exactly are within the reach of their offsets. -/
theorem StoresExactly.narrow (h : StoresExactly host request srcFormat surfaceWidth surfaceHeight count) :
    request.columns surfaceWidth ≤ 2 ^ 31 := by
  by_contra hwide
  have hrows := h.rows hmeets hsurface
  obtain ⟨reach, hreach⟩ : ∃ reach, reach = 2 ^ 31 := ⟨_, rfl⟩
  rw [← hreach] at hwide
  have hcolumn : reach < request.columns surfaceWidth := by omega
  have hwidth : reach < surfaceWidth.toNat := by
    unfold RegionRequest.columns clipped at hcolumn
    omega
  have hpixels : (List.replicate (surfaceWidth.toNat * surfaceHeight.toNat * 2) (0xFF : Byte)).length =
    surfaceWidth.toNat * surfaceHeight.toNat * 2 := List.length_replicate
  have hstored := h (List.replicate count 0) _ List.length_replicate hpixels
  obtain ⟨-, hx, hy⟩ := covers_of_lt hmeets.2.2 hcolumn
  have hlt := @pixelStart_lt surfaceWidth surfaceHeight 2 _ _ 0 hx hy (by decide)
  -- the pixel that no offset reaches
  have hnew := @paint_covered request surfaceWidth surfaceHeight 2 _ (fun row column =>
    storedTexel srcFormat (request.sourcePixel (glideLfbSrcFormatBytesPerPixel srcFormat).toNat
      (List.replicate count 0) row column)) 0 reach 0 hpixels hmeets.2.2 hcolumn (by decide)
  rw [storedTexel_black] at hnew
  rcases storePixels_cell hstored (pixelStart surfaceWidth 2 (request.x.toNat + reach) (request.y.toNat + 0) + 0) with
    ⟨hsame, -⟩ | ⟨row, hrow, column, -, bytes, hbytes, hlow, hhigh, -⟩
  · rw [hnew, List.getElem?_replicate, if_pos hlt] at hsame
    exact absurd hsame (by decide)
  · rw [hrows] at hrow
    rw [convertedPixel_length hbytes] at hhigh
    rw [writeStart_eq hrow, wrap_of_lt (wideRow_lt hrow (by omega) hsurface)] at hlow hhigh
    simp only [pixelStart, Nat.add_zero, Nat.add_mul] at hlow hhigh
    rcases @eq_zero_or_le_row surfaceWidth row with rfl | hfactor <;> omega

/-- A column that does not end at the surface is stored in the row below it. -/
theorem StoresExactly.width_of_lt (h : StoresExactly host request srcFormat surfaceWidth surfaceHeight count)
    (hreach : request.columns surfaceWidth < 2 ^ 31) : request.x.toNat + request.width.toNat < 2 ^ 32 := by
  by_contra hover
  have hrows := h.rows hmeets hsurface
  have hwidth : planSide request.x request.width surfaceWidth = request.width.toNat := if_neg hover
  obtain ⟨-, hx, hy⟩ := covers_of_lt hmeets.2.2 hmeets.2.1
  have hlimit := surfaceWidth.isLt
  have hcolumns : request.x.toNat + request.columns surfaceWidth = surfaceWidth.toNat := by
    unfold RegionRequest.columns clipped
    omega
  have hbeyond : request.columns surfaceWidth < planSide request.x request.width surfaceWidth := by omega
  have hpixels : (List.replicate (surfaceWidth.toNat * surfaceHeight.toNat * 2) (0xFF : Byte)).length =
    surfaceWidth.toNat * surfaceHeight.toNat * 2 := List.length_replicate
  have hstored := h (List.replicate count 0) _ List.length_replicate hpixels
  obtain ⟨bytes, hbytes, hinside⟩ := storePixels_inside hstored (hrows ▸ hmeets.2.2) hbeyond
  have hnext : pixelStart surfaceWidth 2 request.x.toNat (request.y.toNat + 0) +
      request.columns surfaceWidth * 2 % 2 ^ 32 = pixelStart surfaceWidth 2 0 (request.y.toNat + 1) := by
    simp only [pixelStart, Nat.add_zero, Nat.add_mul]
    omega
  have hlast : request.y.toNat * surfaceWidth.toNat + surfaceWidth.toNat ≤
      surfaceHeight.toNat * surfaceWidth.toNat := by
    rw [← Nat.succ_mul]
    exact Nat.mul_le_mul_right _ (by omega)
  have hcommute := Nat.mul_comm surfaceWidth.toNat surfaceHeight.toNat
  have hfits : pixelStart surfaceWidth 2 0 (request.y.toNat + 1) < host.modulus := by
    simp only [pixelStart, Nat.add_mul]
    omega
  have hstart : writeStart host request surfaceWidth 0 (request.columns surfaceWidth) =
      pixelStart surfaceWidth 2 0 (request.y.toNat + 1) := by
    rw [writeStart_eq hmeets.2.2, hnext, wrap_of_lt hfits]
  rw [hstart, convertedPixel_length hbytes, hpixels] at hinside
  have hbelow : request.y.toNat + 1 < surfaceHeight.toNat := by
    by_contra hbottom
    have hheight : surfaceHeight.toNat = request.y.toNat + 1 := by omega
    rw [hheight] at hinside
    simp only [pixelStart, Nat.add_mul, Nat.mul_add] at hinside
    rw [Nat.mul_comm surfaceWidth.toNat request.y.toNat] at hinside
    omega
  have hcovers : ¬request.Covers 0 (request.y.toNat + 1) := by
    unfold RegionRequest.Covers
    have := request.width.isLt
    omega
  have hold := @paint_uncovered request surfaceWidth surfaceHeight 2 _ (fun row column =>
    storedTexel srcFormat (request.sourcePixel (glideLfbSrcFormatBytesPerPixel srcFormat).toNat
      (List.replicate count 0) row column)) (request.y.toNat + 1) 0 0 hpixels (by omega) hbelow hcovers (by decide)
  rcases storePixels_cell hstored (pixelStart surfaceWidth 2 0 (request.y.toNat + 1) + 0) with
    ⟨-, hnone⟩ | ⟨row, hrow, column, -, bytes', hbytes', hlow, hhigh, hcell⟩
  · apply hnone 0 (hrows ▸ hmeets.2.2) _ hbeyond bytes hbytes
    rw [hstart, convertedPixel_length hbytes]
    omega
  · have hblack := convertedPixel_black hbytes'
    subst hblack
    rw [hold, List.getElem?_replicate, if_pos (by omega)] at hcell
    exact black_ne_white _ hcell.symm

/-- The rectangle of a write that stores exactly does not end beyond 32 bits from left to right: a
column in the row below would be stored, or the first one stored again. -/
theorem StoresExactly.width (h : StoresExactly host request srcFormat surfaceWidth surfaceHeight count)
    (hsupported : glideLfbSrcFormatSupported srcFormat = true)
    (hneeded : request.neededBytes surfaceWidth surfaceHeight (glideLfbSrcFormatBytesPerPixel srcFormat).toNat ≤
      count) :
    request.x.toNat + request.width.toNat < 2 ^ 32 := by
  obtain ⟨reach, hreach⟩ : ∃ reach, reach = 2 ^ 31 := ⟨_, rfl⟩
  rcases Nat.lt_or_ge (request.columns surfaceWidth) reach with hlt | hge
  · exact h.width_of_lt hmeets hsurface (hreach ▸ hlt)
  have hnarrow := h.narrow hmeets hsurface
  by_contra hover
  have hrows := h.rows hmeets hsurface
  have hwidth : planSide request.x request.width surfaceWidth = request.width.toNat := if_neg hover
  obtain ⟨hbytesPos, hbytesLe⟩ := bytesPerPixel_pos hsupported
  generalize hbytes : (glideLfbSrcFormatBytesPerPixel srcFormat).toNat = bytesPerPixel at hneeded hbytesPos hbytesLe
  have hlimit := surfaceWidth.isLt
  obtain ⟨-, hx, hy⟩ := covers_of_lt hmeets.2.2 hmeets.2.1
  have hcolumns : request.x.toNat + request.columns surfaceWidth = surfaceWidth.toNat := by
    unfold RegionRequest.columns clipped
    omega
  have hfirst : bytesPerPixel ≤ request.columns surfaceWidth * bytesPerPixel :=
    Nat.le_mul_of_pos_left _ hmeets.2.1
  have hcount : 0 + bytesPerPixel ≤ count := by
    unfold RegionRequest.neededBytes at hneeded
    omega
  have hfactor := Nat.le_mul_of_pos_right surfaceWidth.toNat (show 0 < surfaceHeight.toNat by omega)
  have hmodulus := @modulus_of_lt host (by omega)
  have hpixels : (List.replicate (surfaceWidth.toNat * surfaceHeight.toNat * 2) (0xFF : Byte)).length =
    surfaceWidth.toNat * surfaceHeight.toNat * 2 := List.length_replicate
  have hstored := h (whiteStretch 0 bytesPerPixel count) _ (whiteStretch_length hcount) hpixels
  have hnew := @paint_white request srcFormat surfaceWidth surfaceHeight count hsupported 0 0 0 _ _ hpixels
    hmeets.2.2 hmeets.2.1 hbytes (by omega)
  rw [hbytes] at hstored
  obtain ⟨bytes, hagain, hinside⟩ := storePixels_inside hstored (hrows ▸ hmeets.2.2)
    (show reach < planSide request.x request.width surfaceWidth by omega)
  have hblack : bytes = [0, 0] := by
    rw [(convertedPixel_ok hagain).2]
    apply storedTexel_zero
    intro k hk
    have hlt := pixelReads_lt hsupported k hk
    have hfar : reach ≤ reach * bytesPerPixel := Nat.le_mul_of_pos_right _ hbytesPos
    have hnear : reach * bytesPerPixel ≤ reach * 4 := Nat.mul_le_mul_left _ hbytesLe
    rw [hbytes]
    apply whiteStretch_outside
    rw [Nat.zero_mul, Nat.zero_add, wrap_of_lt (by omega)]
    omega
  have hpixel := @pixelStart_lt surfaceWidth surfaceHeight 2 _ _ 0 hx hy (by decide)
  have hstart : writeStart host request surfaceWidth 0 reach =
      pixelStart surfaceWidth 2 (request.x.toNat + 0) (request.y.toNat + 0) := by
    rw [writeStart_eq hmeets.2.2, wrap_of_lt (wideRow_lt hmeets.2.2 (by omega) hsurface)]
    simp only [Nat.add_zero]
    omega
  have hlast := @storePixels_last _ _ _ _ _ _ hstored 0 reach
    (pixelStart surfaceWidth 2 (request.x.toNat + 0) (request.y.toNat + 0) + 0) bytes (hrows ▸ hmeets.2.2) (by omega)
    hagain (by rw [hstart, convertedPixel_length hagain]; omega) ?_
  · rw [hlast, hblack] at hnew
    exact black_ne_white _ hnew
  · intro row hrow column hcolumn horder bytes' hbytes'
    rw [hrows] at hrow
    rw [convertedPixel_length hbytes', writeStart_eq hrow, wrap_of_lt (wideRow_lt hrow (by omega) hsurface)]
    have hcolumnLt := request.width.isLt
    simp only [pixelStart, Nat.add_zero, Nat.add_mul]
    rcases @eq_zero_or_le_row surfaceWidth row with rfl | hfactor <;> omega

/-- The stride of a write that stores exactly is within 32 bits, unless there is only one row: the second
one would be taken from elsewhere. -/
theorem StoresExactly.pitch (h : StoresExactly host request srcFormat surfaceWidth surfaceHeight count)
    (hsupported : glideLfbSrcFormatSupported srcFormat = true) (hcount : 2 * count < host.modulus)
    (hneeded : request.neededBytes surfaceWidth surfaceHeight (glideLfbSrcFormatBytesPerPixel srcFormat).toNat ≤ count)
    (hpitch : request.planPitch host (glideLfbSrcFormatBytesPerPixel srcFormat) ≠ 0) :
    request.rowStride (glideLfbSrcFormatBytesPerPixel srcFormat).toNat < 2 ^ 31 ∨
      request.rows surfaceHeight = 1 ∧ request.width * glideLfbSrcFormatBytesPerPixel srcFormat ≠ 0 := by
  rcases Nat.lt_or_ge (request.rowStride (glideLfbSrcFormatBytesPerPixel srcFormat).toNat) (2 ^ 31) with hlt | hover
  · exact .inl hlt
  refine .inr ?_
  obtain ⟨hpacked, hstride⟩ := packed_of_over hmeets.1 hover
  refine ⟨?_, product_ne_zero hpacked hpitch⟩
  by_contra hmore
  have hsecond : 1 < request.rows surfaceHeight := by
    have := hmeets.2.2
    omega
  have hcolumns : planSide request.x request.width surfaceWidth = request.columns surfaceWidth :=
    if_pos (h.width hmeets hsurface hsupported hneeded)
  have hrows := h.rows hmeets hsurface
  have hnarrow := h.narrow hmeets hsurface
  obtain ⟨hbytesPos, hbytesLe⟩ := bytesPerPixel_pos hsupported
  have hwithin := @sourcePixel_lt request surfaceWidth surfaceHeight
    (glideLfbSrcFormatBytesPerPixel srcFormat).toNat 1 0 _ hsecond hmeets.2.1 (Nat.sub_lt hbytesPos Nat.one_pos)
  have hstretch : request.rowStride (glideLfbSrcFormatBytesPerPixel srcFormat).toNat +
      (glideLfbSrcFormatBytesPerPixel srcFormat).toNat ≤ count := by
    omega
  have hpixels : (List.replicate (surfaceWidth.toNat * surfaceHeight.toNat * 2) (0 : Byte)).length =
    surfaceWidth.toNat * surfaceHeight.toNat * 2 := List.length_replicate
  have hstored := h (whiteStretch _ _ count) _ (whiteStretch_length hstretch) hpixels
  have hnew := @paint_white request srcFormat surfaceWidth surfaceHeight count hsupported 1 0
    (request.rowStride (glideLfbSrcFormatBytesPerPixel srcFormat).toNat) _ _ hpixels hsecond hmeets.2.1 rfl (by omega)
  obtain ⟨-, hx, hy⟩ := covers_of_lt hsecond hmeets.2.1
  have hpixel := @pixelStart_lt surfaceWidth surfaceHeight 2 _ _ 0 hx hy (by decide)
  rcases storePixels_cell hstored (pixelStart surfaceWidth 2 (request.x.toNat + 0) (request.y.toNat + 1) + 0) with
    ⟨hsame, -⟩ | ⟨row, hrow, column, hcolumn, bytes, hbytes, hlow, hhigh, hcell⟩
  · rw [hnew, List.getElem?_replicate, if_pos hpixel] at hsame
    exact absurd hsame (by decide)
  · rw [hrows] at hrow
    rw [hcolumns] at hcolumn
    rw [convertedPixel_length hbytes, writeStart_exact hsurface hrow hcolumn hnarrow] at hhigh
    rw [writeStart_exact hsurface hrow hcolumn hnarrow] at hlow
    -- only the first pixel of the second row lies there
    obtain ⟨-, hx', -⟩ := covers_of_lt hrow hcolumn
    have hplace := @pixelStart_div surfaceWidth 2 _ (request.y.toNat + 1) 0 hx (by decide)
    obtain ⟨k, hk, hsame⟩ : ∃ k < 2, pixelStart surfaceWidth 2 (request.x.toNat + 0) (request.y.toNat + 1) + 0 =
        pixelStart surfaceWidth 2 (request.x.toNat + column) (request.y.toNat + row) + k := ⟨_, by omega,
      (Nat.add_sub_cancel' hlow).symm⟩
    have hplace' := @pixelStart_div surfaceWidth 2 _ (request.y.toNat + row) k hx' hk
    rw [hsame, hplace'.1, hplace'.2.1] at hplace
    obtain ⟨rfl, rfl⟩ : row = 1 ∧ column = 0 := by omega
    obtain ⟨hreads, hmade⟩ := convertedPixel_ok hbytes
    have hblack : bytes = [0, 0] := by
      rw [hmade]
      apply storedTexel_zero
      intro k hk
      have hlt := pixelReads_lt hsupported k hk
      have hread := hreads k hk
      rw [whiteStretch_length hstretch, Nat.one_mul, Nat.zero_mul, Nat.add_zero] at hread
      have hfar := planPitch_far hpacked (hstride ▸ hover) (by omega) hcount hread
      rw [Nat.one_mul, Nat.zero_mul, Nat.add_zero]
      apply whiteStretch_outside
      omega
    rw [hnew, hblack] at hcell
    exact black_ne_white _ hcell.symm

end

/-- A write that is exact for all contents meets the conditions. -/
theorem exactWithin_of_write (hsupported : glideLfbSrcFormatSupported srcFormat = true)
    (hsurface : 2 * (surfaceWidth.toNat * surfaceHeight.toNat * 2) < host.modulus) (hcount : 2 * count < host.modulus)
    (hwrite : ∀ src pixels : List Byte, src.length = count →
      pixels.length = surfaceWidth.toNat * surfaceHeight.toNat * 2 →
        writeGlideLfbRegion host request srcFormat (some src) 0 0 surfaceWidth surfaceHeight pixels =
          .ok (expectedWrite request srcFormat (some src) 0 0 surfaceWidth surfaceHeight pixels)) :
    request.ExactWithin host surfaceWidth surfaceHeight (glideLfbSrcFormatBytesPerPixel srcFormat) count
      (request.columns surfaceWidth ≤ 2 ^ 31) := by
  intro hmeets
  split
  case isTrue hneeded =>
    obtain ⟨hpitch, hstores⟩ := write_stores hmeets hsurface hsupported hneeded hwrite
    exact ⟨hstores.width hmeets hsurface hsupported hneeded, hstores.height hmeets hsurface,
      hstores.pitch hmeets hsurface hsupported hcount hneeded hpitch, hstores.narrow hmeets hsurface⟩
  case isFalse hshort =>
    by_contra haccepts
    rw [not_or] at haccepts
    have hrun := hwrite (List.replicate count 0) (List.replicate (surfaceWidth.toNat * surfaceHeight.toNat * 2) 0)
      List.length_replicate List.length_replicate
    unfold expectedWrite at hrun
    dsimp only at hrun
    rw [write_planned hsurface hsupported hmeets haccepts.1, List.length_replicate, if_neg haccepts.2,
      if_neg fun h => hshort h.2.2] at hrun
    obtain ⟨result, -, hpair⟩ := map_ok hrun
    cases hpair

/-! ## Reads -/

/-- The rows of a read, as its plan has them. -/
def plannedRow (host : SizeWidth) (request : RegionRequest) (surfaceWidth : Word) (pixels : List Byte) (row : ℕ) :
    Except BufferFault (ℕ × List Byte) :=
  (readSpan pixels (host.wrap ((request.y + BitVec.ofNat 32 row).toNat * (surfaceWidth.toNat * 2) +
    request.x.toNat * 2)) (host.wrap (planSide request.x request.width surfaceWidth * 2))).map fun bytes =>
      (host.wrap (row * request.planPitch host 2), bytes)

/-- A read of a rectangle copies the rows that it is to copy, whatever the surface and the target hold. -/
def CopiesExactly (host : SizeWidth) (request : RegionRequest) (surfaceWidth surfaceHeight : Word) (count : ℕ) : Prop :=
  ∀ pixels dst : List Byte, pixels.length = surfaceWidth.toNat * surfaceHeight.toNat * 2 → dst.length = count →
    storeEach ((List.range (planSide request.y request.height surfaceHeight)).map
        (plannedRow host request surfaceWidth pixels)) dst =
      .ok ((List.range (request.rows surfaceHeight)).foldl (fun dst row =>
        overlay dst (row * request.rowStride 2) (request.surfaceRow surfaceWidth pixels row)) dst)

/-- An exact read with room is planned, copies what it is to copy, and reports it. -/
theorem read_copies (hmeets : request.Meets surfaceWidth surfaceHeight)
    (hsurface : 2 * (surfaceWidth.toNat * surfaceHeight.toNat * 2) < host.modulus)
    (hneeded : request.neededBytes surfaceWidth surfaceHeight 2 ≤ count)
    (hread : ∀ pixels dst : List Byte, pixels.length = surfaceWidth.toNat * surfaceHeight.toNat * 2 →
      dst.length = count → readGlideLfbRegion host request surfaceWidth surfaceHeight pixels (some dst) =
        .ok (expectedRead request surfaceWidth surfaceHeight pixels (some dst))) :
    request.planPitch host 2 ≠ 0 ∧ planSide request.x request.width surfaceWidth = request.columns surfaceWidth ∧
      planSide request.y request.height surfaceHeight = request.rows surfaceHeight ∧
      CopiesExactly host request surfaceWidth surfaceHeight count := by
  have hblank : (List.replicate (surfaceWidth.toNat * surfaceHeight.toNat * 2) (0 : Byte)).length =
    surfaceWidth.toNat * surfaceHeight.toNat * 2 := List.length_replicate
  have hexpected : ∀ pixels dst : List Byte, dst.length = count →
      expectedRead request surfaceWidth surfaceHeight pixels (some dst) =
        ⟨true, some ((List.range (request.rows surfaceHeight)).foldl (fun dst row =>
          overlay dst (row * request.rowStride 2) (request.surfaceRow surfaceWidth pixels row)) dst),
          request.columns surfaceWidth, request.rows surfaceHeight⟩ := by
    intro pixels dst hdst
    unfold expectedRead
    dsimp only
    rw [if_pos ⟨hmeets, hdst ▸ hneeded⟩]
  have hpitch : request.planPitch host 2 ≠ 0 := by
    intro hzero
    have hrefused := hread _ (List.replicate count 0) hblank List.length_replicate
    rw [read_refused (.inr hzero), hexpected _ _ List.length_replicate] at hrefused
    cases hrefused
  have hrun : ∀ pixels dst : List Byte, pixels.length = surfaceWidth.toNat * surfaceHeight.toNat * 2 →
      dst.length = count → ∃ result, storeEach ((List.range (planSide request.y request.height surfaceHeight)).map
          (plannedRow host request surfaceWidth pixels)) dst = .ok result ∧
        (⟨true, some result, planSide request.x request.width surfaceWidth,
          planSide request.y request.height surfaceHeight⟩ : RegionCopy) =
            expectedRead request surfaceWidth surfaceHeight pixels (some dst) := by
    intro pixels dst hpixels hdst
    have hplanned := hread pixels dst hpixels hdst
    rw [read_planned hsurface hmeets hpitch] at hplanned
    by_cases hroom : dst.length < request.planBytes host surfaceWidth surfaceHeight 2
    · rw [if_pos hroom, hexpected pixels dst hdst] at hplanned
      cases hplanned
    · rw [if_neg hroom] at hplanned
      exact map_ok hplanned
  obtain ⟨_, -, hreported⟩ := hrun _ (List.replicate count 0) hblank List.length_replicate
  rw [hexpected _ _ List.length_replicate] at hreported
  injection hreported with _ _ hcolumns hrows
  refine ⟨hpitch, hcolumns, hrows, ?_⟩
  intro pixels dst hpixels hdst
  obtain ⟨result, hresult, hcopy⟩ := hrun pixels dst hpixels hdst
  rw [hexpected pixels dst hdst] at hcopy
  injection hcopy with _ hdata _ _
  rw [hresult, Option.some.inj hdata]

/-- A side of a rectangle that is clipped ends within 32 bits. -/
theorem within_of_clipped {position size limit : Word} (hpos : 0 < clipped position size limit)
    (h : planSide position size limit = clipped position size limit) : position.toNat + size.toNat < 2 ^ 32 := by
  have hlimit := limit.isLt
  rw [clipped_pos_iff] at hpos
  by_contra hover
  unfold planSide clipped at h
  rw [if_neg hover] at h
  omega

/-- The rows of an exact copy, by the bytes of the target. -/
theorem copied_cell {pixels dst result : List Byte}
    (hpixels : pixels.length = surfaceWidth.toNat * surfaceHeight.toNat * 2)
    (hmeets : request.Meets surfaceWidth surfaceHeight)
    (hneeded : request.neededBytes surfaceWidth surfaceHeight 2 ≤ dst.length)
    (hresult : (List.range (request.rows surfaceHeight)).foldl (fun dst row =>
      overlay dst (row * request.rowStride 2) (request.surfaceRow surfaceWidth pixels row)) dst = result)
    {row offset : ℕ} (hrow : row < request.rows surfaceHeight) (hoffset : offset < request.columns surfaceWidth * 2)
    (hpacked : request.columns surfaceWidth * 2 ≤ request.rowStride 2) :
    result[row * request.rowStride 2 + offset]? = (request.surfaceRow surfaceWidth pixels row)[offset]? := by
  have hstored := @storeEach_map dst _ (List.range (request.rows surfaceHeight)) (fun row => row * request.rowStride 2)
    (request.surfaceRow surfaceWidth pixels) (by
      intro row hrow
      rw [List.mem_range] at hrow
      have hend := guestRow_end hmeets.2.1 hrow
      rw [surfaceRow_length hpixels hmeets.2.1 hrow]
      omega)
  rw [hresult] at hstored
  rcases storeEach_cell hstored (row * request.rowStride 2 + offset) with
    ⟨-, hnone⟩ | ⟨start, bytes, hmem, hlow, hhigh, hcell⟩
  · refine absurd ⟨?_, ?_⟩ (hnone _ _ (List.mem_map.mpr ⟨row, List.mem_range.mpr hrow, rfl⟩))
    · omega
    · rw [surfaceRow_length hpixels hmeets.2.1 hrow]
      omega
  · obtain ⟨row', hrow', heq⟩ := List.mem_map.mp hmem
    rw [List.mem_range] at hrow'
    cases heq
    rw [surfaceRow_length hpixels hmeets.2.1 hrow'] at hhigh
    have hsame : row' = row := by
      rcases Nat.lt_trichotomy row' row with hlt | heq | hgt
      · have hrows := Nat.mul_le_mul_right (request.rowStride 2) hlt
        rw [Nat.succ_mul] at hrows
        omega
      · exact heq
      · have hrows := Nat.mul_le_mul_right (request.rowStride 2) hgt
        rw [Nat.succ_mul] at hrows
        omega
    subst hsame
    rw [hcell, Nat.add_sub_cancel_left]

/-- The stride of a read that copies exactly is within 32 bits, unless there is only one row: the second
one would be copied elsewhere. -/
theorem CopiesExactly.pitch (h : CopiesExactly host request surfaceWidth surfaceHeight count)
    (hmeets : request.Meets surfaceWidth surfaceHeight)
    (hsurface : 2 * (surfaceWidth.toNat * surfaceHeight.toNat * 2) < host.modulus) (hcount : 2 * count < host.modulus)
    (hneeded : request.neededBytes surfaceWidth surfaceHeight 2 ≤ count) (hpitch : request.planPitch host 2 ≠ 0)
    (hcolumns : planSide request.x request.width surfaceWidth = request.columns surfaceWidth)
    (hrows : planSide request.y request.height surfaceHeight = request.rows surfaceHeight) :
    request.rowStride 2 < 2 ^ 31 ∨ request.rows surfaceHeight = 1 ∧ request.width * 2 ≠ 0 := by
  have hbytes : (2 : Word).toNat = 2 := by decide
  rcases Nat.lt_or_ge (request.rowStride 2) (2 ^ 31) with hlt | hover
  · exact .inl hlt
  refine .inr ?_
  obtain ⟨hpacked, hstride⟩ := @packed_of_over request 2 hmeets.1 (by rw [hbytes]; exact hover)
  refine ⟨?_, product_ne_zero hpacked hpitch⟩
  rw [hbytes] at hstride
  by_contra hmore
  have hsecond : 1 < request.rows surfaceHeight := by
    have := hmeets.2.2
    omega
  have hwithin : request.columns surfaceWidth * 2 ≤ request.rowStride 2 := by
    rw [hstride]
    exact Nat.mul_le_mul_right 2 (Nat.min_le_left _ _)
  have hcolumnsPos := hmeets.2.1
  obtain ⟨-, hx, hy⟩ := covers_of_lt hsecond hcolumnsPos
  have hpixel := @pixelStart_lt surfaceWidth surfaceHeight 2 _ _ 0 hx hy (by decide)
  simp only [Nat.add_zero] at hx hpixel
  obtain ⟨image, himage, hwhite, honly⟩ := exists_whiteByte hpixel
  have hlength : (List.replicate count (0 : Byte)).length = count := List.length_replicate
  have hstored := h image (List.replicate count 0) himage hlength
  have hguest := guestRow_end hcolumnsPos hsecond
  have hnew := @copied_cell request surfaceWidth surfaceHeight image (List.replicate count 0) _ himage hmeets
    (hlength.symm ▸ hneeded) rfl 1 0 hsecond (by omega) hwithin
  rw [RegionRequest.surfaceRow, List.getElem?_take_of_lt (by omega), List.getElem?_drop, Nat.add_zero] at hnew
  generalize (List.range (request.rows surfaceHeight)).foldl (fun dst row =>
    overlay dst (row * request.rowStride 2) (request.surfaceRow surfaceWidth image row)) (List.replicate count 0) =
      result at hstored hnew
  rw [show ((request.y.toNat + 1) * surfaceWidth.toNat + request.x.toNat) * 2 =
    pixelStart surfaceWidth 2 request.x.toNat (request.y.toNat + 1) from rfl, Nat.add_zero, hwhite, Nat.one_mul] at hnew
  rcases storeEach_cell hstored (request.rowStride 2) with ⟨hsame, -⟩ | ⟨start, bytes, hmem, hlow, hhigh, hcell⟩
  · rw [hnew, List.getElem?_replicate, if_pos (by omega)] at hsame
    exact absurd hsame (by decide)
  · rw [hnew] at hcell
    obtain ⟨start', bytes', hsame, hinside⟩ := storeEach_inside hstored _ hmem
    cases hsame
    obtain ⟨row, hrow, hplanned⟩ := List.mem_map.mp hmem
    rw [List.mem_range, hrows] at hrow
    obtain ⟨slice, hslice, hpair⟩ := map_ok hplanned
    rw [Prod.mk.injEq] at hpair
    obtain ⟨rfl, rfl⟩ := hpair
    rw [hlength] at hinside
    have hend := surfaceRow_end hcolumnsPos hrow
    have hplace : (request.y.toNat + row) * (surfaceWidth.toNat * 2) + request.x.toNat * 2 =
        ((request.y.toNat + row) * surfaceWidth.toNat + request.x.toNat) * 2 := by
      ring
    rw [row_toNat hrow, hplace, hcolumns, wrap_of_lt (by omega), wrap_of_lt (by omega), readSpan_of_le (by omega),
      Except.ok.injEq] at hslice
    subst hslice
    have hshort : request.rowStride 2 - host.wrap (row * request.planPitch host 2) <
        request.columns surfaceWidth * 2 := by
      rw [List.length_take] at hhigh
      omega
    rw [List.getElem?_take_of_lt hshort, List.getElem?_drop] at hcell
    have hwhere := honly _ hcell.symm
    obtain ⟨-, hx', -⟩ := covers_of_lt hrow hcolumnsPos
    -- the white byte is the first one of the second row
    have hfirst : row = 1 ∧ request.rowStride 2 = host.wrap (row * request.planPitch host 2) := by
      have hcolumnsLe : request.columns surfaceWidth ≤ surfaceWidth.toNat := by
        unfold RegionRequest.columns clipped
        omega
      have hrowFactor : row = 0 ∨ row = 1 ∨ 2 * surfaceWidth.toNat ≤ row * surfaceWidth.toNat := by
        rcases Nat.lt_or_ge row 2 with hlt | hge
        · omega
        · exact .inr (.inr (Nat.mul_le_mul_right _ hge))
      simp only [pixelStart, Nat.add_mul] at hwhere
      rcases hrowFactor with rfl | rfl | hrowFactor <;> omega
    obtain ⟨rfl, hstart⟩ := hfirst
    have hslicePos : 0 < ((image.drop (((request.y.toNat + 1) * surfaceWidth.toNat + request.x.toNat) * 2)).take
        (request.columns surfaceWidth * 2)).length := by
      omega
    have hfar := @planPitch_far host request count 2 0 hpacked (by rw [hbytes, ← hstride]; exact hover) (by decide)
      hcount (by rw [Nat.add_zero, ← Nat.one_mul (request.planPitch host 2)]; omega)
    rw [Nat.add_zero, ← Nat.one_mul (request.planPitch host 2), ← hstart, hbytes, ← hstride] at hfar
    exact Nat.lt_irrefl _ hfar

/-- A read that is exact for all contents meets the conditions. -/
theorem exactWithin_of_read (hsurface : 2 * (surfaceWidth.toNat * surfaceHeight.toNat * 2) < host.modulus)
    (hcount : 2 * count < host.modulus)
    (hread : ∀ pixels dst : List Byte, pixels.length = surfaceWidth.toNat * surfaceHeight.toNat * 2 →
      dst.length = count → readGlideLfbRegion host request surfaceWidth surfaceHeight pixels (some dst) =
        .ok (expectedRead request surfaceWidth surfaceHeight pixels (some dst))) :
    request.ExactWithin host surfaceWidth surfaceHeight 2 count True := by
  intro hmeets
  have hbytes : (2 : Word).toNat = 2 := by decide
  rw [hbytes]
  split
  case isTrue hneeded =>
    obtain ⟨hpitch, hcolumns, hrows, hcopies⟩ := read_copies hmeets hsurface hneeded hread
    exact ⟨within_of_clipped hmeets.2.1 hcolumns, within_of_clipped hmeets.2.2 hrows,
      hcopies.pitch hmeets hsurface hcount hneeded hpitch hcolumns hrows, trivial⟩
  case isFalse hshort =>
    by_contra haccepts
    rw [not_or] at haccepts
    have hrun := hread (List.replicate (surfaceWidth.toNat * surfaceHeight.toNat * 2) 0) (List.replicate count 0)
      List.length_replicate List.length_replicate
    unfold expectedRead at hrun
    dsimp only at hrun
    rw [read_planned hsurface hmeets haccepts.1, List.length_replicate, if_neg haccepts.2,
      if_neg fun h => hshort h.2] at hrun
    obtain ⟨result, -, hcopy⟩ := map_ok hrun
    cases hcopy

end

/-! ## Exact requests -/

theorem exact_of_transfersExactly {host : SizeWidth} {g : RegionCase host} (h : TransfersExactly host g) :
    g.IsExact := by
  refine ⟨fun hsupported => ?_, ?_⟩
  · apply exactWithin_of_write hsupported g.surface_fits g.source_fits
    intro src pixels hsrc hpixels
    apply h.write (some src) 0 0 pixels ?_ hpixels
    intro bytes hbytes
    cases hbytes
    exact hsrc
  · apply exactWithin_of_read g.surface_fits g.target_fits
    intro pixels dst hpixels hdst
    apply h.read pixels (some dst) hpixels
    intro bytes hbytes
    cases hbytes
    exact hdst

/-- The transfers of a request are exact where its sums and products stay within 32 bits, or have no
effect. -/
theorem transfersExactly_iff (host : SizeWidth) (g : RegionCase host) : TransfersExactly host g ↔ g.IsExact := by
  refine ⟨exact_of_transfersExactly, ?_⟩
  intro hexact
  refine ⟨?_, ?_, ?_, ?_⟩
  · intro src srcColorFormat surfaceColorFormat pixels hsrc hpixels
    cases src with
    | none => rfl
    | some src =>
      have hlength := hsrc src rfl
      have hfits := g.source_fits
      exact write_exact g.surface_fits hpixels (by omega) (by rw [hlength]; exact hexact.1)
  · intro src srcColorFormat surfaceColorFormat shadow hsrc hshadow
    cases src with
    | none => rfl
    | some src =>
      have hlength := hsrc src rfl
      have hfits := g.source_fits
      exact rgba8_exact g.surface_fits (by omega) hshadow (by rw [hlength]; exact hexact.1)
  · intro pixels dst hpixels hdst
    cases dst with
    | none => rfl
    | some dst =>
      have hlength := hdst dst rfl
      have hfits := g.target_fits
      exact read_exact g.surface_fits hpixels (by omega) (by rw [hlength]; exact hexact.2)
  · intro src pixels pixels' dst dst' srcColorFormat surfaceColorFormat copiedWidth copiedHeight hformat horder hsrc
      hdst hpixels hwrite hread row hrow column hcolumn k hk
    have hsource := g.source_fits
    have htarget := g.target_fits
    have hbytes : glideLfbSrcFormatBytesPerPixel kGlideLfbSrcFmt565 = 2 := by decide
    have hwriteExact := hexact.1 (by rw [hformat]; decide)
    rw [hformat, hbytes, ← hsrc] at hwriteExact
    rw [hformat] at hwrite
    exact readBack_exact g.surface_fits hpixels (by omega) (by omega) horder hwriteExact (hdst ▸ hexact.2) hwrite hread
      hrow hcolumn hk

/-- Three rows from the second column of a small surface on, as wide as a number can be, and a source
of one pixel. -/
def sampleWideRegion : RegionCase .bits32 where
  request := ⟨1, 0, 0xFFFFFFFF, 3, 2⟩
  srcFormat := kGlideLfbSrcFmt565
  surfaceWidth := 2
  surfaceHeight := 3
  sourceCount := 2
  targetCount := 0
  surface_fits := by decide
  source_fits := by decide
  target_fits := by decide

/-- The plan of a rectangle that ends beyond 32 bits takes one pixel for all that it needs. -/
theorem transfersExactly_fails_wide : ¬∀ (host : SizeWidth) (g : RegionCase host), TransfersExactly host g := by
  intro hall
  have hexact := (exact_of_transfersExactly (hall .bits32 sampleWideRegion)).1 (by decide) (by decide)
  rw [if_neg (by decide)] at hexact
  rcases hexact with hpitch | hroom
  · exact absurd hpitch (by decide)
  · exact absurd hroom (by decide)

end Repiu.Glide
