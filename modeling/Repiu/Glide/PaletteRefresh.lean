import Repiu.Glide.Backend
import Repiu.StepRuns

/-!
# Palettes of stored textures

A palette that is downloaded only advances a generation; a texture with a palette is decoded again when
it is next drawn with (`glide_opengl_backend.cpp`, `glide_texture_decode.cpp`).  It is compared with a
backend that decodes every such texture at each download.
-/

namespace Repiu.Glide

open StepRuns
open GlideOpenGlBackend (isGlidePalettizedTextureFormat)

/-! ## Decoding -/

/-- `Expand`: a channel of some bits, scaled to eight. -/
def expandGlideChannel (value : Word) (bits : ℕ) : Byte :=
  if bits = 0 then 0
  else
    let maxIn := 2 ^ bits - 1
    BitVec.ofNat 8 ((value.toNat * 255 + maxIn / 2) / maxIn)

/-- A channel of a palette's entry. -/
def paletteChannel (palette : List Byte) (index : Byte) (channel : ℕ) : Byte :=
  palette.getD (index.toNat * 4 + channel) 0

/-- A texel of two bytes, as red, green, blue and alpha. -/
def decodeGlideTexel16 (format texel : Word) (palette : Option (List Byte)) : Option (List Byte) :=
  let high : Byte := (texel >>> 8).setWidth 8
  let low : Byte := texel.setWidth 8
  if format = 10 then
    some [expandGlideChannel (texel >>> 11 &&& 0x1F) 5, expandGlideChannel (texel >>> 5 &&& 0x3F) 6,
      expandGlideChannel (texel &&& 0x1F) 5, 255]
  else if format = 11 then
    some [expandGlideChannel (texel >>> 10 &&& 0x1F) 5, expandGlideChannel (texel >>> 5 &&& 0x1F) 5,
      expandGlideChannel (texel &&& 0x1F) 5, if texel >>> 15 &&& 0x1 ≠ 0 then 255 else 0]
  else if format = 12 then
    some [expandGlideChannel (texel >>> 8 &&& 0xF) 4, expandGlideChannel (texel >>> 4 &&& 0xF) 4,
      expandGlideChannel (texel &&& 0xF) 4, expandGlideChannel (texel >>> 12 &&& 0xF) 4]
  else if format = 13 then some [low, low, low, high]
  else if format = 8 then
    some [expandGlideChannel (texel >>> 5 &&& 0x7) 3, expandGlideChannel (texel >>> 2 &&& 0x7) 3,
      expandGlideChannel (texel &&& 0x3) 2, high]
  else if format = 14 then
    match palette with
    | none => some [0, 0, 0, high]
    | some palette =>
      some [paletteChannel palette low 0, paletteChannel palette low 1, paletteChannel palette low 2, high]
  else none

/-- A texel of one byte. -/
def decodeGlideTexel8 (format : Word) (texel : Byte) (palette : Option (List Byte)) : Option (List Byte) :=
  let value := texel.setWidth 32
  if format = 0 then
    some [expandGlideChannel (value >>> 5 &&& 0x7) 3, expandGlideChannel (value >>> 2 &&& 0x7) 3,
      expandGlideChannel (value &&& 0x3) 2, 255]
  else if format = 2 then some [texel, texel, texel, texel]
  else if format = 3 then some [texel, texel, texel, 255]
  else if format = 4 then
    let intensity := expandGlideChannel (value &&& 0xF) 4
    some [intensity, intensity, intensity, expandGlideChannel (value >>> 4 &&& 0xF) 4]
  else if format = 5 then
    match palette with
    | none => some [texel, texel, texel, 255]
    | some palette =>
      some [paletteChannel palette texel 0, paletteChannel palette texel 1, paletteChannel palette texel 2,
        paletteChannel palette texel 3]
  else none

/-- The bytes of a texel. -/
def glideBytesPerTexel (format : Word) : ℕ := if 8 ≤ format.toNat then 2 else 1

/-- A texel of a source. -/
def decodeGlideTexel (format : Word) (source : List Byte) (palette : Option (List Byte)) (i : ℕ) :
    Option (List Byte) :=
  if glideBytesPerTexel format = 2 then
    decodeGlideTexel16 format ((source.getD (i * 2) 0).setWidth 32 ||| (source.getD (i * 2 + 1) 0).setWidth 32 <<< 8)
      palette
  else decodeGlideTexel8 format (source.getD i 0) palette

/-- `DecodeGlideTextureToRgba8`. -/
def decodeGlideTextureToRgba8 (image : TextureImage) : Option (List Byte) :=
  if image.width = 0 ∨ image.height = 0 then none
  else
    let texelCount := image.width.toNat * image.height.toNat
    if image.source.length < texelCount * glideBytesPerTexel image.format then none
    else
      let texels := (List.range texelCount).map (decodeGlideTexel image.format image.source image.palette)
      if texels.all Option.isSome then some (texels.flatMap (·.getD [])) else none

variable {image : TextureImage} {format : Word} {source : List Byte}

/-- A palette that is of no use to a format. -/
theorem decodeGlideTexel_palette (hformat : isGlidePalettizedTextureFormat format = false)
    (p q : Option (List Byte)) : decodeGlideTexel format source p = decodeGlideTexel format source q := by
  obtain ⟨hpalette8, hpalette16⟩ : ¬format = 5 ∧ ¬format = 14 := by
    simpa [isGlidePalettizedTextureFormat] using hformat
  funext i
  unfold decodeGlideTexel decodeGlideTexel16 decodeGlideTexel8
  simp only [if_neg hpalette8, if_neg hpalette16]

/-- Whether a texel can be decoded is no matter of the palette. -/
theorem decodeGlideTexel_isSome (p q : Option (List Byte)) (i : ℕ) :
    (decodeGlideTexel format source p i).isSome = (decodeGlideTexel format source q i).isSome := by
  cases hformat : isGlidePalettizedTextureFormat format with
  | false => rw [decodeGlideTexel_palette hformat p q]
  | true =>
    have hpalette : format = 5 ∨ format = 14 := by simpa [isGlidePalettizedTextureFormat] using hformat
    rcases hpalette with rfl | rfl
    · cases p <;> cases q <;> rfl
    · cases p <;> cases q <;> rfl

theorem decode_palette (hformat : isGlidePalettizedTextureFormat image.format = false) (p q : Option (List Byte)) :
    decodeGlideTextureToRgba8 { image with palette := p } = decodeGlideTextureToRgba8 { image with palette := q } := by
  unfold decodeGlideTextureToRgba8
  dsimp only
  rw [decodeGlideTexel_palette hformat p q]

theorem decode_isSome (p q : Option (List Byte)) :
    (decodeGlideTextureToRgba8 { image with palette := p }).isSome =
      (decodeGlideTextureToRgba8 { image with palette := q }).isSome := by
  have hall (n : ℕ) : ((List.range n).map (decodeGlideTexel image.format image.source p)).all Option.isSome =
      ((List.range n).map (decodeGlideTexel image.format image.source q)).all Option.isSome := by
    rw [List.all_map, List.all_map]
    exact congrArg _ (funext fun i => decodeGlideTexel_isSome p q i)
  unfold decodeGlideTextureToRgba8
  dsimp only
  rw [hall]
  split_ifs <;> rfl

/-- A source that can be decoded is not empty. -/
theorem source_ne_nil (h : (decodeGlideTextureToRgba8 image).isSome) : image.source ≠ [] := by
  intro hempty
  unfold decodeGlideTextureToRgba8 at h
  split_ifs at h with hsize
  · cases h
  · obtain ⟨hwidth, hheight⟩ := not_or.mp hsize
    have hcount : 0 < image.width.toNat * image.height.toNat * glideBytesPerTexel image.format := by
      refine Nat.mul_pos (Nat.mul_pos ?_ ?_) ?_
      · exact Nat.pos_of_ne_zero fun hzero => hwidth (BitVec.eq_of_toNat_eq hzero)
      · exact Nat.pos_of_ne_zero fun hzero => hheight (BitVec.eq_of_toNat_eq hzero)
      · unfold glideBytesPerTexel
        split_ifs <;> decide
    rw [hempty, List.length_nil, if_pos hcount] at h
    cases h

/-! ## Machines -/

/-- A palette is downloaded, a texture is downloaded or made the current one, or something is drawn,
with the combine unit taking the texture or not. -/
inductive TextureEvent
  | paletteDownload (palette : List Byte)
  | textureDownload (startAddress : Word) (texels : TextureImage)
  | sourceTexture (startAddress : Word)
  | draw (textureCombineEnabled : Bool)

/-- The backend, and the palette that was downloaded last. -/
structure PalettedBackend where
  backend : GlideOpenGlBackend
  palette : Option (List Byte)

namespace PalettedBackend

/-- An open window. -/
def opened : PalettedBackend := ⟨{ window := true }, none⟩

/-- What a draw samples. -/
def sampled (b : GlideOpenGlBackend) : Option (List Byte) :=
  if b.gl.textureEnabled then (b.gl.images b.gl.boundTexture).bind decodeGlideTextureToRgba8 else none

/-- A call of the backend whose uploads succeed, with what it samples. -/
def step (s : PalettedBackend) : TextureEvent → Option (List Byte) × PalettedBackend
  | .paletteDownload palette => (none, ⟨s.backend.refreshPalettizedTextures palette, some palette⟩)
  | .textureDownload startAddress texels =>
    let image := { texels with palette := s.palette }
    if (decodeGlideTextureToRgba8 image).isNone then (none, s)
    else (none, { s with backend := (s.backend.storeTexture startAddress image .applied).1 })
  | .sourceTexture startAddress => (none, { s with backend := (s.backend.sourceTexture startAddress).1 })
  | .draw textureCombineEnabled =>
    let backend := (s.backend.setTextureCombineEnabled textureCombineEnabled).prepareDrawState .applied
    (sampled backend, { s with backend })

end PalettedBackend

/-- Stored textures, the current one, and the palette that was downloaded last. -/
structure StoredTextures where
  textures : Word → Option TextureImage := fun _ => none
  current : Option Word := none
  palette : Option (List Byte) := none

namespace StoredTextures

variable (s : StoredTextures)

/-- A texture with a palette is decoded with another one. -/
def redecoded (palette : Option (List Byte)) (image : TextureImage) : TextureImage :=
  if isGlidePalettizedTextureFormat image.format then { image with palette } else image

/-- A backend that decodes every texture with a palette at each download. -/
def eagerStep : TextureEvent → Option (List Byte) × StoredTextures
  | .paletteDownload palette =>
    (none, { s with
      palette := some palette
      textures := fun address => (s.textures address).map (redecoded (some palette)) })
  | .textureDownload startAddress texels =>
    let image := { texels with palette := s.palette }
    if (decodeGlideTextureToRgba8 image).isNone then (none, s)
    else (none, { s with textures := Function.update s.textures startAddress (some image) })
  | .sourceTexture startAddress =>
    (none, { s with current := if (s.textures startAddress).isSome then some startAddress else none })
  | .draw textureCombineEnabled =>
    (if textureCombineEnabled then (s.current.bind s.textures).bind decodeGlideTextureToRgba8 else none, s)

/-- What the history of the calls says: the last source of each texture, decoded with the last palette. -/
def historyStep : TextureEvent → Option (List Byte) × StoredTextures
  | .paletteDownload palette => (none, { s with palette := some palette })
  | .textureDownload startAddress texels =>
    if (decodeGlideTextureToRgba8 { texels with palette := s.palette }).isNone then (none, s)
    else (none, { s with textures := Function.update s.textures startAddress (some texels) })
  | .sourceTexture startAddress =>
    (none, { s with current := if (s.textures startAddress).isSome then some startAddress else none })
  | .draw textureCombineEnabled =>
    (if textureCombineEnabled then
      (s.current.bind s.textures).bind fun texels => decodeGlideTextureToRgba8 { texels with palette := s.palette }
    else none, s)

end StoredTextures

/-! ## The lazy backend -/

/-- An entry is of the texels that were stored last, and where it is of the current generation, or needs
no palette, its image is of the last palette. -/
structure Held (b : GlideOpenGlBackend) (palette : Option (List Byte)) (entry : TextureEntry)
    (texels : TextureImage) : Prop where
  same : { entry.image with palette := none } = { texels with palette := none }
  decodes : (decodeGlideTextureToRgba8 texels).isSome
  bound : entry.paletteGeneration.toNat ≤ b.paletteGeneration.toNat
  shown : (isGlidePalettizedTextureFormat texels.format = true → b.paletteValid = true →
      entry.paletteGeneration = b.paletteGeneration) →
    (b.gl.images entry.glName).bind decodeGlideTextureToRgba8 = decodeGlideTextureToRgba8 { texels with palette }

/-- A backend is open, and holds what the history of the calls says. -/
structure Mirrors (s : PalettedBackend) (h : StoredTextures) : Prop where
  window : s.backend.window = true
  notDummy : s.backend.dummyMode = false
  palette : s.palette = h.palette
  valid : s.backend.paletteValid = h.palette.isSome
  paletteRgba8 : ∀ palette, h.palette = some palette → s.backend.paletteRgba8 = palette
  generation : s.backend.paletteValid = true → s.backend.paletteGeneration ≠ 0
  current : s.backend.currentTexture = h.current
  stored : ∀ address, (s.backend.textures address).isSome = (h.textures address).isSome
  held : ∀ address entry texels, s.backend.textures address = some entry → h.textures address = some texels →
    Held s.backend h.palette entry texels
  name : ∀ address entry, s.backend.textures address = some entry →
    entry.glName ≠ 0 ∧ entry.glName < s.backend.nextTextureName
  distinct : ∀ address address' entry entry', s.backend.textures address = some entry →
    s.backend.textures address' = some entry' → entry.glName = entry'.glName → address = address'
  next : s.backend.nextTextureName ≠ 0

variable {s : PalettedBackend} {h : StoredTextures}

/-- Behind a new palette no entry is of the current generation. -/
theorem Held.advance {b b' : GlideOpenGlBackend} {old new : Option (List Byte)} {entry entry' : TextureEntry}
    {texels : TextureImage} (hheld : Held b old entry texels) (hgl : b'.gl = b.gl)
    (hvalid : b'.paletteValid = true) (hname : entry'.glName = entry.glName) (himage : entry'.image = entry.image)
    (hstale : entry'.paletteGeneration.toNat < b'.paletteGeneration.toNat) : Held b' new entry' texels where
  same := himage ▸ hheld.same
  decodes := hheld.decodes
  bound := hstale.le
  shown hfresh := by
    have hformat : isGlidePalettizedTextureFormat texels.format = false := by
      rw [← Bool.not_eq_true]
      intro hpalette
      rw [hfresh hpalette hvalid] at hstale
      exact lt_irrefl _ hstale
    have hshown := hheld.shown fun hpalette => absurd hpalette (by rw [hformat]; decide)
    rw [hgl, hname, hshown]
    exact decode_palette hformat old new

theorem Held.of_same {b b' : GlideOpenGlBackend} {palette : Option (List Byte)} {entry : TextureEntry}
    {texels : TextureImage} (hheld : Held b palette entry texels)
    (hgeneration : b'.paletteGeneration = b.paletteGeneration) (hvalid : b'.paletteValid = b.paletteValid)
    (himages : b'.gl.images = b.gl.images) : Held b' palette entry texels := by
  refine ⟨hheld.same, hheld.decodes, hgeneration ▸ hheld.bound, fun hfresh => ?_⟩
  rw [himages]
  exact hheld.shown (hgeneration ▸ hvalid ▸ hfresh)

theorem Mirrors.paletteDownload (hs : Mirrors s h) (palette : List Byte) :
    Mirrors (s.step (.paletteDownload palette)).2 (h.historyStep (.paletteDownload palette)).2 := by
  show Mirrors ⟨s.backend.refreshPalettizedTextures palette, some palette⟩ { h with palette := some palette }
  unfold GlideOpenGlBackend.refreshPalettizedTextures
  split_ifs with hsame hwrap
  · obtain ⟨hvalid, hbytes⟩ := hsame
    have hpalette : h.palette = some palette := by
      rw [hs.valid] at hvalid
      obtain ⟨last, hlast⟩ := Option.isSome_iff_exists.mp hvalid
      rw [hlast, ← hs.paletteRgba8 last hlast, hbytes]
    have hbackend : (⟨s.backend, some palette⟩ : PalettedBackend) = s := by rw [← hpalette, ← hs.palette]
    have hhistory : { h with palette := some palette } = h := by rw [← hpalette]
    rw [hbackend, hhistory]
    exact hs
  · refine { hs with
      palette := rfl
      valid := rfl
      paletteRgba8 := fun last hlast => Option.some.inj hlast
      generation := fun _ => by dsimp only; decide
      stored := fun address => ?_
      held := fun address entry texels hentry htexels => ?_
      name := fun address entry hentry => ?_
      distinct := fun address address' entry entry' hentry hentry' hnames => ?_ }
    · rw [← hs.stored address]
      exact Option.isSome_map ..
    · obtain ⟨old, hold, rfl⟩ := Option.map_eq_some_iff.mp hentry
      exact (hs.held address old texels hold htexels).advance rfl rfl rfl rfl Nat.zero_lt_one
    · obtain ⟨old, hold, rfl⟩ := Option.map_eq_some_iff.mp hentry
      exact hs.name address old hold
    · obtain ⟨old, hold, rfl⟩ := Option.map_eq_some_iff.mp hentry
      obtain ⟨old', hold', rfl⟩ := Option.map_eq_some_iff.mp hentry'
      exact hs.distinct address address' old old' hold hold' hnames
  · refine { hs with
      palette := rfl
      valid := rfl
      paletteRgba8 := fun last hlast => Option.some.inj hlast
      generation := fun _ => hwrap
      held := fun address entry texels hentry htexels => ?_ }
    have hheld := hs.held address entry texels hentry htexels
    refine hheld.advance rfl rfl rfl rfl ?_
    have hbound := hheld.bound
    dsimp only
    bv_omega

/-- What a table holds behind a store. -/
theorem update_eq_some {α β : Type*} [DecidableEq α] (table : α → Option β) (key : α) (value : β) {key' : α}
    {value' : β} (h : Function.update table key (some value) key' = some value') :
    (key' = key ∧ value' = value) ∨ key' ≠ key ∧ table key' = some value' := by
  rw [Function.update_apply] at h
  split_ifs at h with hkey
  · exact Or.inl ⟨hkey, (Option.some.inj h).symm⟩
  · exact Or.inr ⟨hkey, h⟩

/-- What two tables hold behind a store into both. -/
theorem update_both_eq_some {α β γ : Type*} [DecidableEq α] {left : α → Option β} {right : α → Option γ} {key key' : α}
    {value value' : β} {other other' : γ} (hleft : Function.update left key (some value) key' = some value')
    (hright : Function.update right key (some other) key' = some other') :
    (key' = key ∧ value' = value ∧ other' = other) ∨
      key' ≠ key ∧ left key' = some value' ∧ right key' = some other' := by
  rcases update_eq_some left key value hleft with ⟨hkey, hvalue⟩ | ⟨hne, hold⟩
  · rcases update_eq_some right key other hright with ⟨-, hother⟩ | ⟨hne, -⟩
    · exact Or.inl ⟨hkey, hvalue, hother⟩
    · exact absurd hkey hne
  · rcases update_eq_some right key other hright with ⟨hkey, -⟩ | ⟨-, hother⟩
    · exact absurd hkey hne
    · exact Or.inr ⟨hne, hold, hother⟩

/-- Tables that hold something at the same keys do so behind a store into both. -/
theorem isSome_update_both {α β γ : Type*} [DecidableEq α] {left : α → Option β} {right : α → Option γ}
    (h : ∀ key, (left key).isSome = (right key).isSome) (key : α) (value : β) (other : γ) (key' : α) :
    (Function.update left key (some value) key').isSome = (Function.update right key (some other) key').isSome := by
  rw [Function.update_apply, Function.update_apply]
  split_ifs
  · rfl
  · exact h key'

/-- The name of a texture that is stored: the one that it has, or a new one. -/
def GlideOpenGlBackend.storeName (b : GlideOpenGlBackend) (startAddress : Word) : ℕ :=
  ((b.textures startAddress).map TextureEntry.glName).getD b.nextTextureName

theorem storeTexture_applied {b : GlideOpenGlBackend} (hwindow : b.window = true) (hdummy : b.dummyMode = false)
    (startAddress : Word) (image : TextureImage) :
    ∃ generation : BitVec 64, generation.toNat ≤ b.paletteGeneration.toNat ∧
      (b.storeTexture startAddress image .applied).1 = { b with
        textures := Function.update b.textures startAddress (some ⟨b.storeName startAddress, image, generation⟩)
        nextTextureName := max b.nextTextureName (b.storeName startAddress + 1)
        gl := { b.gl with
          boundTexture := b.storeName startAddress
          images := Function.update b.gl.images (b.storeName startAddress) (some image) } } := by
  refine ⟨if isGlidePalettizedTextureFormat image.format ∧ b.paletteValid ∧ image.palette = some b.paletteRgba8 then
    b.paletteGeneration else 0, ?_, ?_⟩
  · split_ifs
    · exact le_rfl
    · exact Nat.zero_le _
  · have hopen : ¬(¬b.isOpen = true ∨ b.dummyMode = true) := by simp [GlideOpenGlBackend.isOpen, hwindow, hdummy]
    rw [GlideOpenGlBackend.storeTexture, if_neg hopen]
    rfl

/-- No other texture has the name of one that is stored. -/
theorem Mirrors.storeName_ne (hs : Mirrors s h) {startAddress address : Word} (hne : address ≠ startAddress)
    {entry : TextureEntry} (hentry : s.backend.textures address = some entry) :
    entry.glName ≠ s.backend.storeName startAddress := by
  intro hname
  unfold GlideOpenGlBackend.storeName at hname
  cases hold : s.backend.textures startAddress with
  | none =>
    rw [hold] at hname
    exact absurd hname (hs.name address entry hentry).2.ne
  | some old =>
    rw [hold] at hname
    exact hne (hs.distinct address startAddress entry old hentry hold hname)

theorem Mirrors.storeName_ne_zero (hs : Mirrors s h) (startAddress : Word) : s.backend.storeName startAddress ≠ 0 := by
  unfold GlideOpenGlBackend.storeName
  cases hold : s.backend.textures startAddress with
  | none => exact hs.next
  | some old => exact (hs.name startAddress old hold).1

/-- A texture is stored under a name of its own, with an image of the palette that was given. -/
theorem Mirrors.textureDownload (hs : Mirrors s h) (startAddress : Word) (texels : TextureImage) :
    Mirrors (s.step (.textureDownload startAddress texels)).2
      (h.historyStep (.textureDownload startAddress texels)).2 := by
  unfold PalettedBackend.step StoredTextures.historyStep
  dsimp only
  rw [hs.palette]
  split_ifs with hdecode
  · exact hs
  have hdecodes : (decodeGlideTextureToRgba8 { texels with palette := h.palette }).isSome := by
    rwa [Option.isNone_iff_eq_none, ← Option.not_isSome_iff_eq_none, not_not] at hdecode
  obtain ⟨generation, hbound, hstored⟩ :=
    storeTexture_applied hs.window hs.notDummy startAddress { texels with palette := h.palette }
  dsimp only
  rw [hstored]
  refine { hs with
    palette := rfl
    stored := fun address => ?_
    held := fun address entry stored hentry htexels => ?_
    name := fun address entry hentry => ?_
    distinct := fun address address' entry entry' hentry hentry' hnames => ?_
    next := ?_ }
  · exact isSome_update_both hs.stored startAddress _ texels address
  · rcases update_both_eq_some hentry htexels with ⟨rfl, rfl, rfl⟩ | ⟨hne, hold, htexels⟩
    · refine ⟨rfl, ?_, hbound, fun _ => ?_⟩
      · exact (decode_isSome h.palette stored.palette).symm.trans hdecodes
      · dsimp only
        rw [Function.update_self, Option.bind_some]
    · have hheld := hs.held address entry stored hold htexels
      refine ⟨hheld.same, hheld.decodes, hheld.bound, fun hfresh => ?_⟩
      dsimp only
      rw [Function.update_of_ne (hs.storeName_ne hne hold)]
      exact hheld.shown hfresh
  · rcases update_eq_some s.backend.textures startAddress _ hentry with ⟨rfl, rfl⟩ | ⟨hne, hold⟩
    · exact ⟨hs.storeName_ne_zero address, lt_max_of_lt_right (Nat.lt_succ_self _)⟩
    · exact ⟨(hs.name address entry hold).1, lt_max_of_lt_left (hs.name address entry hold).2⟩
  · rcases update_eq_some s.backend.textures startAddress _ hentry with ⟨rfl, rfl⟩ | ⟨hne, hold⟩
    · rcases update_eq_some s.backend.textures address _ hentry' with ⟨rfl, -⟩ | ⟨hne, hold'⟩
      · rfl
      · exact absurd hnames.symm (hs.storeName_ne hne hold')
    · rcases update_eq_some s.backend.textures startAddress _ hentry' with ⟨rfl, rfl⟩ | ⟨-, hold'⟩
      · exact absurd hnames (hs.storeName_ne hne hold)
      · exact hs.distinct address address' entry entry' hold hold' hnames
  · have hnext := hs.next
    dsimp only
    omega

theorem Mirrors.sourceTexture (hs : Mirrors s h) (startAddress : Word) :
    Mirrors (s.step (.sourceTexture startAddress)).2 (h.historyStep (.sourceTexture startAddress)).2 := by
  unfold PalettedBackend.step StoredTextures.historyStep
  dsimp only
  rw [GlideOpenGlBackend.sourceTexture, ← hs.stored startAddress]
  cases s.backend.textures startAddress with
  | none =>
    exact { hs with
      current := rfl
      held := fun address entry texels hentry htexels =>
        (hs.held address entry texels hentry htexels).of_same rfl rfl rfl }
  | some entry =>
    exact { hs with
      current := rfl
      held := fun address entry texels hentry htexels =>
        (hs.held address entry texels hentry htexels).of_same rfl rfl rfl }

/-- The refresh of the current texture: its image is of the last palette behind it. -/
theorem Mirrors.refresh (hs : Mirrors s h) {address : Word} {entry : TextureEntry} {texels : TextureImage}
    (hcurrent : h.current = some address) (hentry : s.backend.textures address = some entry)
    (htexels : h.textures address = some texels) :
    ∃ b, s.backend.refreshCurrentPalettizedTexture .applied = (b, true) ∧ Mirrors ⟨b, s.palette⟩ h ∧
      (b.gl.images entry.glName).bind decodeGlideTextureToRgba8 =
        decodeGlideTextureToRgba8 { texels with palette := h.palette } := by
  have hheld := hs.held address entry texels hentry htexels
  obtain ⟨hformat, hwidth, hheight, hsource, -⟩ := TextureImage.mk.inj hheld.same
  have hcurrentEntry : s.backend.currentEntry = some entry := by
    rw [GlideOpenGlBackend.currentEntry, hs.current, hcurrent]
    exact hentry
  unfold GlideOpenGlBackend.refreshCurrentPalettizedTexture
  rw [hs.current, hcurrent, hcurrentEntry]
  dsimp only
  rw [hformat, hwidth, hheight, hsource]
  by_cases hskip : ¬isGlidePalettizedTextureFormat texels.format = true ∨ texels.source = [] ∨
      ¬s.backend.paletteValid = true ∨ entry.paletteGeneration = s.backend.paletteGeneration
  · rw [if_pos hskip]
    refine ⟨s.backend, rfl, hs, hheld.shown fun hpalette hvalid => ?_⟩
    rcases hskip with hskip | hskip | hskip | hskip
    · exact absurd hpalette hskip
    · exact absurd hskip (source_ne_nil hheld.decodes)
    · exact absurd hvalid hskip
    · exact hskip
  -- The decoder and the upload both take effect.
  have hvalid : h.palette.isSome := by
    rw [← hs.valid]
    by_contra hinvalid
    exact hskip (Or.inr (Or.inr (Or.inl hinvalid)))
  obtain ⟨last, hlast⟩ := Option.isSome_iff_exists.mp hvalid
  have hbytes : some s.backend.paletteRgba8 = h.palette := by rw [hlast, hs.paletteRgba8 last hlast]
  have happlied (i : ℕ) : ¬¬Outcome.applied.effect i = true := not_not.mpr rfl
  rw [if_neg hskip, if_neg (happlied 0), if_neg (happlied 1), hbytes]
  refine ⟨_, rfl, { hs with
    current := hcurrent.symm
    stored := fun address' => ?_
    held := fun address' entry' texels' hentry' htexels' => ?_
    name := fun address' entry' hentry' => ?_
    distinct := fun address₁ address₂ entry₁ entry₂ hentry₁ hentry₂ hnames => ?_ }, ?_⟩
  · dsimp only
    rw [← hs.stored address']
    by_cases hsame : address' = address
    · rw [hsame, Function.update_self, hentry]
      rfl
    · rw [Function.update_of_ne hsame]
  · rcases update_eq_some s.backend.textures address _ hentry' with ⟨rfl, rfl⟩ | ⟨hne, hold⟩
    · obtain rfl := Option.some.inj (htexels.symm.trans htexels')
      refine ⟨hheld.same, hheld.decodes, le_rfl, fun _ => ?_⟩
      dsimp only
      rw [Function.update_self, Option.bind_some]
    · have hheld' := hs.held address' entry' texels' hold htexels'
      refine ⟨hheld'.same, hheld'.decodes, hheld'.bound, fun hfresh => ?_⟩
      have hname : entry'.glName ≠ entry.glName := fun hname =>
        hne (hs.distinct address' address entry' entry hold hentry hname)
      dsimp only
      rw [Function.update_of_ne hname]
      exact hheld'.shown hfresh
  · rcases update_eq_some s.backend.textures address _ hentry' with ⟨rfl, rfl⟩ | ⟨-, hold⟩
    · exact hs.name address' entry hentry
    · exact hs.name address' entry' hold
  · -- The names are those of before.
    have hname {address' : Word} {entry' : TextureEntry} (hentry' : Function.update s.backend.textures address
        (some { entry with paletteGeneration := s.backend.paletteGeneration }) address' = some entry') :
        ∃ old, s.backend.textures address' = some old ∧ old.glName = entry'.glName := by
      rcases update_eq_some s.backend.textures address _ hentry' with ⟨rfl, rfl⟩ | ⟨-, hold⟩
      · exact ⟨entry, hentry, rfl⟩
      · exact ⟨entry', hold, rfl⟩
    obtain ⟨old₁, hold₁, hname₁⟩ := hname hentry₁
    obtain ⟨old₂, hold₂, hname₂⟩ := hname hentry₂
    exact hs.distinct address₁ address₂ old₁ old₂ hold₁ hold₂ (hname₁.trans (hnames.trans hname₂.symm))
  · dsimp only
    rw [Function.update_self, Option.bind_some]

/-- Members of the backend that textures do not depend on. -/
theorem Mirrors.of_same (hs : Mirrors s h) {combine textureEnabled : Bool} {boundTexture : ℕ} :
    Mirrors { s with backend := { s.backend with
      textureCombineEnabled := combine
      gl := { s.backend.gl with boundTexture, textureEnabled } } } h :=
  { hs with
    held := fun address entry texels hentry htexels =>
      (hs.held address entry texels hentry htexels).of_same rfl rfl rfl }

/-- A draw decodes the current texture again where it is not of the last palette, and samples it. -/
theorem Mirrors.draw (hs : Mirrors s h) (textureCombineEnabled : Bool) :
    (s.step (.draw textureCombineEnabled)).1 = (h.historyStep (.draw textureCombineEnabled)).1 ∧
      Mirrors (s.step (.draw textureCombineEnabled)).2 (h.historyStep (.draw textureCombineEnabled)).2 := by
  have hopen : ¬(¬(s.backend.setTextureCombineEnabled textureCombineEnabled).isOpen = true ∨
      (s.backend.setTextureCombineEnabled textureCombineEnabled).dummyMode = true) := by
    simp [GlideOpenGlBackend.isOpen, GlideOpenGlBackend.setTextureCombineEnabled, hs.window, hs.notDummy]
  have hcombine : Mirrors ⟨s.backend.setTextureCombineEnabled textureCombineEnabled, s.palette⟩ h := hs.of_same
  unfold PalettedBackend.step StoredTextures.historyStep
  dsimp only
  rw [GlideOpenGlBackend.prepareDrawState, if_neg hopen]
  cases textureCombineEnabled with
  | false => exact ⟨rfl, hs.of_same⟩
  | true =>
    have hentry : (s.backend.setTextureCombineEnabled true).currentEntry = h.current.bind s.backend.textures := by
      rw [← hs.current]
      rfl
    rw [hentry]
    cases hcurrent : h.current with
    | none => exact ⟨rfl, hs.of_same⟩
    | some address =>
      have hstored := hs.stored address
      rw [Option.bind_some, Option.bind_some]
      cases hold : s.backend.textures address with
      | none =>
        rw [hold] at hstored
        have htexels : h.textures address = none := by
          rw [← Option.not_isSome_iff_eq_none, ← hstored]
          exact Bool.false_ne_true
        rw [htexels]
        exact ⟨rfl, hs.of_same⟩
      | some entry =>
        rw [hold] at hstored
        obtain ⟨texels, htexels⟩ := Option.isSome_iff_exists.mp hstored.symm
        obtain ⟨b, hrefresh, hb, hshown⟩ := hcombine.refresh hcurrent hold htexels
        have hname : ((some entry).map TextureEntry.glName).filter (· ≠ 0) = some entry.glName := by
          simp [(hs.name address entry hold).1]
        rw [hname, htexels]
        dsimp only
        rw [hrefresh]
        exact ⟨hshown, hb.of_same⟩

/-! ## The eager backend -/

/-- Each texture of the eager backend is one of the history, decoded with the last palette. -/
structure Decoded (e h : StoredTextures) : Prop where
  palette : e.palette = h.palette
  current : e.current = h.current
  stored : ∀ address, (e.textures address).isSome = (h.textures address).isSome
  same : ∀ address image texels, e.textures address = some image → h.textures address = some texels →
    ∀ palette, { image with palette } = { texels with palette }
  shown : ∀ address image texels, e.textures address = some image → h.textures address = some texels →
    decodeGlideTextureToRgba8 image = decodeGlideTextureToRgba8 { texels with palette := h.palette }

variable {e : StoredTextures}

theorem Decoded.paletteDownload (he : Decoded e h) (palette : List Byte) :
    Decoded (e.eagerStep (.paletteDownload palette)).2 (h.historyStep (.paletteDownload palette)).2 := by
  refine ⟨rfl, he.current, fun address => ?_, fun address image texels himage htexels last => ?_,
    fun address image texels himage htexels => ?_⟩
  · exact Option.isSome_map.trans (he.stored address)
  · obtain ⟨old, hold, rfl⟩ := Option.map_eq_some_iff.mp himage
    rw [← he.same address old texels hold htexels last]
    unfold StoredTextures.redecoded
    split_ifs <;> rfl
  · obtain ⟨old, hold, rfl⟩ := Option.map_eq_some_iff.mp himage
    have hsame := he.same address old texels hold htexels (some palette)
    have hformat : old.format = texels.format := (TextureImage.mk.inj hsame).1
    unfold StoredTextures.redecoded
    split_ifs with hpalette
    · exact congrArg decodeGlideTextureToRgba8 hsame
    · rw [hformat, Bool.not_eq_true] at hpalette
      rw [he.shown address old texels hold htexels]
      exact decode_palette hpalette h.palette (some palette)

theorem Decoded.textureDownload (he : Decoded e h) (startAddress : Word) (texels : TextureImage) :
    Decoded (e.eagerStep (.textureDownload startAddress texels)).2
      (h.historyStep (.textureDownload startAddress texels)).2 := by
  unfold StoredTextures.eagerStep StoredTextures.historyStep
  dsimp only
  rw [he.palette]
  split_ifs
  · exact he
  refine ⟨rfl, he.current, fun address => ?_, fun address image stored himage hstored last => ?_,
    fun address image stored himage hstored => ?_⟩
  · exact isSome_update_both he.stored startAddress _ texels address
  · rcases update_both_eq_some himage hstored with ⟨rfl, rfl, rfl⟩ | ⟨-, hold, hstored⟩
    · rfl
    · exact he.same address image stored hold hstored last
  · rcases update_both_eq_some himage hstored with ⟨rfl, rfl, rfl⟩ | ⟨-, hold, hstored⟩
    · rfl
    · exact he.shown address image stored hold hstored

theorem Decoded.draw (he : Decoded e h) (textureCombineEnabled : Bool) :
    (e.eagerStep (.draw textureCombineEnabled)).1 = (h.historyStep (.draw textureCombineEnabled)).1 := by
  unfold StoredTextures.eagerStep StoredTextures.historyStep
  dsimp only
  rw [he.current]
  cases textureCombineEnabled with
  | false => rfl
  | true =>
    cases h.current with
    | none => rfl
    | some address =>
      have hstored := he.stored address
      rw [Option.bind_some, Option.bind_some, if_pos rfl, if_pos rfl]
      cases himage : e.textures address with
      | none =>
        have htexels : h.textures address = none := by
          rw [← Option.not_isSome_iff_eq_none, ← hstored, himage]
          exact Bool.false_ne_true
        rw [htexels]
        rfl
      | some image =>
        rw [himage] at hstored
        obtain ⟨texels, htexels⟩ := Option.isSome_iff_exists.mp hstored.symm
        rw [htexels]
        exact he.shown address image texels himage htexels

/-! ## Lazy and eager -/

end Repiu.Glide
