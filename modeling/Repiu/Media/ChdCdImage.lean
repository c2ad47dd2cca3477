import Repiu.ByteMemory
import Repiu.RingIndex

/-!
# The CD image

The track table that is built from the metadata of a CHD file, and the reads of
raw sectors through a cache of one hunk. `libchdr` gives the metadata and the
hunks; a failing `chd_read` may leave anything in the buffer.
-/

namespace Repiu.Media

def kRawSectorBytes : ℕ := 2352

def roundTrackFrames (frames : Word) : Word := (frames + 4 - 1) &&& ~~~(4 - 1)

inductive ChdCdTrackType where
  | unknown
  | mode1
  | mode1Raw
  | mode2
  | mode2Form1
  | mode2Form2
  | mode2FormMix
  | mode2Raw
  | audio
deriving DecidableEq

def parseTrackType : String → ChdCdTrackType
  | "MODE1" => .mode1
  | "MODE1_RAW" => .mode1Raw
  | "MODE2" => .mode2
  | "MODE2_FORM1" => .mode2Form1
  | "MODE2_FORM2" => .mode2Form2
  | "MODE2_FORM_MIX" => .mode2FormMix
  | "MODE2_RAW" => .mode2Raw
  | "AUDIO" => .audio
  | _ => .unknown

structure ChdCdTrack where
  number : Byte
  type : ChdCdTrackType
  audio : Bool
  physicalLba : Word
  storedFrames : Word
  logicalLba : Word
  dataStartLba : Word
  startLba : Word
  endLba : Word
  pregapFrames : Word
  pregapInFile : Bool

/-- One metadata entry as it is scanned. The numbers are signed. -/
inductive TrackMetadata where
  | cht2 (track frames pregap : Word) (type pgtype : String)
  | chtr (track frames : Word) (type : String)
  | malformedCht2
  | malformedChtr

/-- The track of a metadata entry whose extents begin at the given addresses. -/
def buildTrack (physicalLba logicalLba track frames pregap : Word) (type : String) (pregapInFile : Bool) :
    Except String ChdCdTrack :=
  if track.toInt ≤ 0 ∨ track.toInt > 99 ∨ frames.toInt ≤ 0 ∨ pregap.toInt < 0 ∨ pregap.toInt ≥ frames.toInt then
    .error "invalid CHD track extent"
  else
    let dataStartLba := logicalLba + if pregapInFile then 0 else pregap
    .ok { number := track.setWidth 8
          type := parseTrackType type
          audio := parseTrackType type = .audio
          storedFrames := frames
          pregapFrames := pregap
          pregapInFile := pregapInFile
          physicalLba := physicalLba
          logicalLba := logicalLba
          dataStartLba := dataStartLba
          startLba := logicalLba + pregap
          endLba := dataStartLba + frames }

def entryTrack (physicalLba logicalLba : Word) : TrackMetadata → Except String ChdCdTrack
  | .malformedCht2 => .error "invalid CHT2 track metadata"
  | .malformedChtr => .error "invalid CHTR track metadata"
  | .cht2 track frames pregap type pgtype =>
    buildTrack physicalLba logicalLba track frames pregap type (pgtype.toList.head? = some 'V')
  | .chtr track frames type => buildTrack physicalLba logicalLba track frames 0 type false

/-- The tracks of the metadata entries from the given addresses on. -/
def buildTracks (physicalLba logicalLba : Word) : List TrackMetadata → Except String (List ChdCdTrack)
  | [] => .ok []
  | m :: rest =>
    match entryTrack physicalLba logicalLba m with
    | .error e => .error e
    | .ok t =>
      match buildTracks (physicalLba + roundTrackFrames t.storedFrames) t.endLba rest with
      | .error e => .error e
      | .ok tracks => .ok (t :: tracks)

structure ChdHeader where
  unitBytes : ℕ
  hunkBytes : ℕ

structure ChdCdImage where
  header : ChdHeader
  tracks : List ChdCdTrack
  leadOutLba : Word
  framesPerHunk : ℕ
  hunk : ℕ → Byte
  cachedHunk : ℕ

namespace ChdCdImage

def openImage (header : ChdHeader) (metadata : List TrackMetadata) : Except String ChdCdImage :=
  if header.unitBytes < kRawSectorBytes ∨ header.hunkBytes = 0 ∨ header.hunkBytes % header.unitBytes ≠ 0 then
    .error "CHD is not a raw CD image"
  else
    match buildTracks 0 0 (metadata.take 99) with
    | .error e => .error e
    | .ok tracks =>
      match tracks.getLast? with
      | none => .error "CHD contains no CD track metadata"
      | some last =>
        .ok { header := header
              tracks := tracks
              leadOutLba := last.endLba
              framesPerHunk := header.hunkBytes / header.unitBytes
              hunk := fun _ => 0
              cachedHunk := 2 ^ 32 - 1 }

def findTrackByLba (image : ChdCdImage) (lba : Word) : Option ChdCdTrack :=
  image.tracks.find? fun t => decide (t.logicalLba ≤ lba) && decide (lba < t.endLba)

/-- What `chd_read` does: the hunk comes in, or the call fails and leaves a buffer behind. -/
inductive ChdRead where
  | ok
  | failed (junk : ℕ → Byte)

/-- The bytes of hunk `index` of a disc. -/
def hunkOf (image : ChdCdImage) (disc : ℕ → Byte) (index : ℕ) : ℕ → Byte :=
  fun i => disc (index * image.header.hunkBytes + i)

def readRawSector (image : ChdCdImage) (disc : ℕ → Byte) (lba : Word) (outputBytes : ℕ) (outcome : ChdRead) :
    ChdCdImage × Option (List Byte) :=
  if outputBytes < kRawSectorBytes ∨ image.leadOutLba ≤ lba then (image, none)
  else
    match image.findTrackByLba lba with
    | none => (image, none)
    | some track =>
      if lba < track.dataStartLba then (image, some (List.replicate kRawSectorBytes 0))
      else
        let physical := track.physicalLba + (lba - track.dataStartLba)
        let hunkIndex := physical.toNat / image.framesPerHunk
        let frame := physical.toNat % image.framesPerHunk
        let output (hunk : ℕ → Byte) :=
          (List.range kRawSectorBytes).map fun i => hunk (frame * image.header.unitBytes + i)
        if hunkIndex ≠ image.cachedHunk then
          match outcome with
          | .failed junk => ({ image with hunk := junk }, none)
          | .ok =>
            ({ image with hunk := image.hunkOf disc hunkIndex, cachedHunk := hunkIndex },
              some (output (image.hunkOf disc hunkIndex)))
        else (image, some (output image.hunk))

end ChdCdImage

/-! ## The extents of the metadata -/

namespace TrackMetadata

def frames : TrackMetadata → Word
  | .cht2 _ frames _ _ _ | .chtr _ frames _ => frames
  | .malformedCht2 | .malformedChtr => 0

/-- The pregap that is not part of the stored frames. -/
def unstoredPregap : TrackMetadata → Word
  | .cht2 _ _ pregap _ pgtype => if pgtype.toList.head? = some 'V' then 0 else pregap
  | .chtr .. | .malformedCht2 | .malformedChtr => 0

/-- The logical addresses of a track. -/
def extent (m : TrackMetadata) : ℕ := m.unstoredPregap.toNat + m.frames.toNat

/-- The stored units of a track, with their padding. -/
def paddedFrames (m : TrackMetadata) : ℕ := (m.frames.toNat + 3) / 4 * 4

end TrackMetadata

/-- All logical addresses of a disc. -/
def logicalFrames (metadata : List TrackMetadata) : ℕ := (metadata.map TrackMetadata.extent).sum

/-- Every track's stored units have 32-bit numbers. -/
def PhysicalFits : ℕ → List TrackMetadata → Prop
  | _, [] => True
  | start, m :: rest => start + m.frames.toNat ≤ 2 ^ 32 ∧ PhysicalFits (start + m.paddedFrames) rest

/-- The logical extents tile the addresses from `start` to `leadOut` in order. -/
def TilesFrom : ℕ → List ChdCdTrack → ℕ → Prop
  | start, [], leadOut => leadOut = start
  | start, t :: rest, leadOut =>
    t.logicalLba.toNat = start ∧ start ≤ t.dataStartLba.toNat ∧ t.dataStartLba.toNat < t.endLba.toNat ∧
      TilesFrom t.endLba.toNat rest leadOut

/-- What is known of a track that was built. -/
structure BuiltFrom (physicalLba logicalLba : Word) (m : TrackMetadata) (t : ChdCdTrack) : Prop where
  physical : t.physicalLba = physicalLba
  logical : t.logicalLba = logicalLba
  stored : t.storedFrames = m.frames
  dataStart : t.dataStartLba = logicalLba + m.unstoredPregap
  endLba : t.endLba = logicalLba + m.unstoredPregap + m.frames
  frames_pos : 0 < m.frames.toNat
  frames_lt : m.frames.toNat < 2 ^ 31
  pregap_lt : m.unstoredPregap.toNat < m.frames.toNat

theorem toNat_of_toInt_pos {x : Word} (h : 0 < x.toInt) : (x.toNat : ℤ) = x.toInt ∧ x.toNat < 2 ^ 31 := by
  have := x.isLt
  rw [BitVec.toInt_eq_toNat_cond] at h ⊢
  split at h <;> omega

theorem toNat_of_toInt_nonneg {x : Word} (h : 0 ≤ x.toInt) : (x.toNat : ℤ) = x.toInt := by
  have := x.isLt
  rw [BitVec.toInt_eq_toNat_cond] at h ⊢
  split at h <;> omega

theorem entryTrack_ok {physicalLba logicalLba : Word} {m : TrackMetadata} {t : ChdCdTrack}
    (h : entryTrack physicalLba logicalLba m = .ok t) : BuiltFrom physicalLba logicalLba m t := by
  cases m with
  | malformedCht2 => cases h
  | malformedChtr => cases h
  | cht2 track frames pregap type pgtype =>
    simp only [entryTrack, buildTrack] at h
    split at h
    case isTrue => cases h
    case isFalse hvalid =>
      cases h
      push Not at hvalid
      obtain ⟨-, -, hframes, hpregap, hlt⟩ := hvalid
      obtain ⟨hnat, hsmall⟩ := toNat_of_toInt_pos hframes
      have hgap := toNat_of_toInt_nonneg hpregap
      have hunstored : (if decide (pgtype.toList.head? = some 'V') = true then 0 else pregap : Word) =
          (TrackMetadata.cht2 track frames pregap type pgtype).unstoredPregap := by
        simp only [TrackMetadata.unstoredPregap, decide_eq_true_eq]
      refine ⟨rfl, rfl, rfl, by rw [← hunstored], by rw [← hunstored]; rfl, ?_, hsmall, ?_⟩
      · show 0 < frames.toNat
        omega
      · rw [← hunstored]
        show _ < frames.toNat
        split
        · show 0 < frames.toNat
          omega
        · omega
  | chtr track frames type =>
    simp only [entryTrack, buildTrack] at h
    split at h
    case isTrue => cases h
    case isFalse hvalid =>
      cases h
      push Not at hvalid
      obtain ⟨hnat, hsmall⟩ := toNat_of_toInt_pos hvalid.2.2.1
      have hpos : 0 < frames.toNat := by omega
      exact ⟨rfl, rfl, rfl, rfl, rfl, hpos, hsmall, hpos⟩

theorem toNat_roundTrackFrames {frames : Word} (h : frames.toNat < 2 ^ 31) :
    (roundTrackFrames frames).toNat = (frames.toNat + 3) / 4 * 4 := by
  have hsum : (frames + 4 - 1).toNat = frames.toNat + 3 := by
    rw [show frames + 4 - 1 = frames + 3#32 by rw [add_sub_assoc]; rfl, BitVec.toNat_add]
    show (frames.toNat + 3) % 2 ^ 32 = _
    omega
  have hmask := RingIndex.toNat_and_not_mask (frames + 4 - 1) 2
  rw [hsum] at hmask
  exact hmask

/-- The tracks of a list of entries. -/
theorem buildTracks_cons {physicalLba logicalLba : Word} {m : TrackMetadata} {rest : List TrackMetadata}
    {tracks : List ChdCdTrack} (h : buildTracks physicalLba logicalLba (m :: rest) = .ok tracks) :
    ∃ t ts, tracks = t :: ts ∧ BuiltFrom physicalLba logicalLba m t ∧
      buildTracks (physicalLba + roundTrackFrames m.frames) t.endLba rest = .ok ts := by
  simp only [buildTracks] at h
  split at h
  case h_1 => cases h
  case h_2 t ht =>
    have hbuilt := entryTrack_ok ht
    split at h
    case h_1 => cases h
    case h_2 ts hts =>
      cases h
      rw [hbuilt.stored] at hts
      exact ⟨t, ts, rfl, hbuilt, hts⟩

namespace BuiltFrom

variable {physicalLba logicalLba : Word} {m : TrackMetadata} {t : ChdCdTrack}

/-- The end of a track whose extent does not wrap. -/
theorem toNat_end (h : BuiltFrom physicalLba logicalLba m t) (hfits : logicalLba.toNat + m.extent < 2 ^ 32) :
    t.dataStartLba.toNat = logicalLba.toNat + m.unstoredPregap.toNat ∧
    t.endLba.toNat = logicalLba.toNat + m.extent := by
  unfold TrackMetadata.extent at hfits ⊢
  rw [h.dataStart, h.endLba]
  simp only [BitVec.toNat_add]
  omega

/-- An extent that wraps ends before it starts. -/
theorem end_lt_of_wrap (h : BuiltFrom physicalLba logicalLba m t) (hwrap : 2 ^ 32 ≤ logicalLba.toNat + m.extent) :
    t.endLba.toNat < logicalLba.toNat := by
  have hframes := h.frames_lt
  have hpregap := h.pregap_lt
  have := logicalLba.isLt
  unfold TrackMetadata.extent at hwrap
  rw [h.endLba]
  simp only [BitVec.toNat_add]
  omega

end BuiltFrom

/-- The last address of tracks behind an address. -/
def endOf (logicalLba : Word) (tracks : List ChdCdTrack) : Word := (tracks.getLast?.map ChdCdTrack.endLba).getD logicalLba

theorem endOf_cons (logicalLba : Word) (t : ChdCdTrack) (ts : List ChdCdTrack) :
    endOf logicalLba (t :: ts) = endOf t.endLba ts := by
  cases ts with
  | nil => rfl
  | cons t' ts => simp [endOf, List.getLast?_cons]

/-- The extents tile the disc exactly when their sum fits. -/
theorem tilesFrom_iff {metadata : List TrackMetadata} {physicalLba logicalLba : Word} {tracks : List ChdCdTrack}
    (h : buildTracks physicalLba logicalLba metadata = .ok tracks) :
    TilesFrom logicalLba.toNat tracks (endOf logicalLba tracks).toNat ↔
      logicalLba.toNat + logicalFrames metadata < 2 ^ 32 := by
  induction metadata generalizing physicalLba logicalLba tracks with
  | nil =>
    cases h
    have := logicalLba.isLt
    simp only [TilesFrom, endOf, logicalFrames, List.map_nil, List.sum_nil]
    exact ⟨fun _ => this, fun _ => rfl⟩
  | cons m rest ih =>
    obtain ⟨t, ts, rfl, hbuilt, hrest⟩ := buildTracks_cons h
    rw [endOf_cons]
    simp only [TilesFrom, logicalFrames, List.map_cons, List.sum_cons]
    have hih := ih hrest
    unfold logicalFrames at hih
    rw [hih, hbuilt.logical]
    by_cases hfits : logicalLba.toNat + m.extent < 2 ^ 32
    · obtain ⟨hstart, hend⟩ := hbuilt.toNat_end hfits
      have := hbuilt.frames_pos
      have hextent : m.extent = m.unstoredPregap.toNat + m.frames.toNat := rfl
      rw [hstart, hend]
      constructor
      · rintro ⟨-, -, -, hsum⟩
        omega
      · intro hsum
        omega
    · have hwrap := hbuilt.end_lt_of_wrap (not_lt.mp hfits)
      constructor
      · rintro ⟨-, hle, hlt, -⟩
        omega
      · intro hsum
        omega

/-! ## The stored units -/

/-- The stored units of the tracks follow each other from `low` on, below `2 ^ 32`. -/
def UnitsFrom : ℕ → List ChdCdTrack → Prop
  | _, [] => True
  | low, t :: rest =>
    low ≤ t.physicalLba.toNat ∧ t.physicalLba.toNat + t.storedFrames.toNat ≤ 2 ^ 32 ∧
      t.endLba.toNat = t.dataStartLba.toNat + t.storedFrames.toNat ∧
      UnitsFrom (t.physicalLba.toNat + t.storedFrames.toNat) rest

/-- The logical address `lba` is stored data of the track. -/
def ChdCdTrack.Stores (t : ChdCdTrack) (lba : Word) : Prop :=
  t.dataStartLba.toNat ≤ lba.toNat ∧ lba.toNat < t.endLba.toNat

namespace ChdCdTrack

/-- The number of the unit that is read for an address of the track. -/
def unit (t : ChdCdTrack) (lba : Word) : Word := t.physicalLba + (lba - t.dataStartLba)

theorem toNat_offset {t : ChdCdTrack} {lba : Word} (h : t.dataStartLba.toNat ≤ lba.toNat) :
    (lba - t.dataStartLba).toNat = lba.toNat - t.dataStartLba.toNat :=
  BitVec.toNat_sub_of_le h

end ChdCdTrack

namespace TilesFrom

variable {start leadOut : ℕ} {tracks : List ChdCdTrack} {t : ChdCdTrack}

theorem le_logical (h : TilesFrom start tracks leadOut) (ht : t ∈ tracks) :
    start ≤ t.logicalLba.toNat ∧ t.logicalLba.toNat ≤ t.dataStartLba.toNat ∧ t.endLba.toNat ≤ leadOut := by
  induction tracks generalizing start t with
  | nil => cases ht
  | cons head rest ih =>
    obtain ⟨hlogical, hstart, hdata, hrest⟩ := h
    cases ht with
    | head =>
      have hend : head.endLba.toNat ≤ leadOut := by
        cases rest with
        | nil => exact hrest.ge
        | cons next rest =>
          have hnext := ih hrest List.mem_cons_self
          obtain ⟨-, hle, hlt, -⟩ := hrest
          omega
      omega
    | tail _ hmem =>
      have := ih hrest hmem
      omega

/-- The track of an address is found. -/
theorem find_of_mem (h : TilesFrom start tracks leadOut) (ht : t ∈ tracks) {lba : Word}
    (hlogical : t.logicalLba.toNat ≤ lba.toNat) (hend : lba.toNat < t.endLba.toNat) :
    tracks.find? (fun t => decide (t.logicalLba ≤ lba) && decide (lba < t.endLba)) = some t := by
  induction tracks generalizing start with
  | nil => cases ht
  | cons head rest ih =>
    obtain ⟨-, -, -, hrest⟩ := h
    cases ht with
    | head =>
      rw [List.find?_cons_of_pos]
      simp only [Bool.and_eq_true, decide_eq_true_eq]
      exact ⟨hlogical, hend⟩
    | tail _ hmem =>
      have hle := (hrest.le_logical hmem).1
      rw [List.find?_cons_of_neg, ih hrest hmem]
      simp only [Bool.and_eq_true, decide_eq_true_eq, BitVec.lt_def]
      omega

end TilesFrom

theorem UnitsFrom.le_physical {low : ℕ} {tracks : List ChdCdTrack} {t : ChdCdTrack} (h : UnitsFrom low tracks)
    (ht : t ∈ tracks) :
    low ≤ t.physicalLba.toNat ∧ t.physicalLba.toNat + t.storedFrames.toNat ≤ 2 ^ 32 ∧
      t.endLba.toNat = t.dataStartLba.toNat + t.storedFrames.toNat := by
  induction tracks generalizing low with
  | nil => cases ht
  | cons head rest ih =>
    obtain ⟨hlow, hfits, hend, hrest⟩ := h
    cases ht with
    | head => exact ⟨hlow, hfits, hend⟩
    | tail _ hmem =>
      obtain ⟨hle, hother⟩ := ih hrest hmem
      exact ⟨by omega, hother⟩

/-- The unit of a stored address does not wrap. -/
theorem UnitsFrom.toNat_unit {low : ℕ} {tracks : List ChdCdTrack} {t : ChdCdTrack} (h : UnitsFrom low tracks)
    (ht : t ∈ tracks) {lba : Word} (hstored : t.Stores lba) :
    (t.unit lba).toNat = t.physicalLba.toNat + (lba.toNat - t.dataStartLba.toNat) := by
  obtain ⟨-, hfits, hend⟩ := h.le_physical ht
  obtain ⟨hdata, hlt⟩ := hstored
  rw [ChdCdTrack.unit, BitVec.toNat_add, ChdCdTrack.toNat_offset hdata]
  omega

/-- Two stored addresses with one unit are the same. -/
theorem UnitsFrom.unit_injective {low : ℕ} {tracks : List ChdCdTrack} {t t' : ChdCdTrack} {lba lba' : Word}
    (h : UnitsFrom low tracks) (ht : t ∈ tracks) (ht' : t' ∈ tracks) (hstored : t.Stores lba)
    (hstored' : t'.Stores lba') (hunit : (t.unit lba).toNat = (t'.unit lba').toNat) : lba = lba' := by
  rw [h.toNat_unit ht hstored, h.toNat_unit ht' hstored'] at hunit
  obtain ⟨hdata, hlt⟩ := hstored
  obtain ⟨hdata', hlt'⟩ := hstored'
  induction tracks generalizing low with
  | nil => cases ht
  | cons head rest ih =>
    have hhead := h.le_physical List.mem_cons_self
    obtain ⟨-, -, -, hrest⟩ := h
    -- A unit of the first track lies before every unit of the others.
    cases ht with
    | head =>
      cases ht' with
      | head =>
        apply BitVec.eq_of_toNat_eq
        omega
      | tail _ hmem' =>
        have := hrest.le_physical hmem'
        omega
    | tail _ hmem =>
      cases ht' with
      | head =>
        have := hrest.le_physical hmem
        omega
      | tail _ hmem' => exact ih hrest hmem hmem'

/-- Tracks whose stored frames fit have their units in order. -/
theorem unitsFrom_of_fits {metadata : List TrackMetadata} {physicalLba logicalLba : Word} {tracks : List ChdCdTrack}
    {low start : ℕ} (h : buildTracks physicalLba logicalLba metadata = .ok tracks)
    (hphysical : physicalLba.toNat = start % 2 ^ 32) (hlow : low ≤ start)
    (hlogical : logicalLba.toNat + logicalFrames metadata < 2 ^ 32) (hfits : PhysicalFits start metadata) :
    UnitsFrom low tracks := by
  induction metadata generalizing physicalLba logicalLba tracks low start with
  | nil =>
    cases h
    trivial
  | cons m rest ih =>
    obtain ⟨t, ts, rfl, hbuilt, hrest⟩ := buildTracks_cons h
    obtain ⟨hstart, hrestFits⟩ := hfits
    have hpos := hbuilt.frames_pos
    have hround := toNat_roundTrackFrames hbuilt.frames_lt
    simp only [logicalFrames, List.map_cons, List.sum_cons] at hlogical
    obtain ⟨hdata, hend⟩ := hbuilt.toNat_end (by omega)
    have hextent : m.extent = m.unstoredPregap.toNat + m.frames.toNat := rfl
    have hpadded : m.paddedFrames = (m.frames.toNat + 3) / 4 * 4 := rfl
    have hfirst : t.physicalLba.toNat = start := by
      rw [hbuilt.physical, hphysical]
      omega
    have hnext : (physicalLba + roundTrackFrames m.frames).toNat = (start + m.paddedFrames) % 2 ^ 32 := by
      rw [BitVec.toNat_add, hphysical, hround, hpadded]
      omega
    refine ⟨by omega, by rw [hfirst, hbuilt.stored]; exact hstart, by rw [hbuilt.stored]; omega,
      ih hrest hnext ?_ ?_ hrestFits⟩
    · rw [hfirst, hbuilt.stored]
      omega
    · unfold logicalFrames
      omega

/-- Stored frames that do not fit give unit 0 to an address of their track. -/
theorem unit_zero_of_not_fits {metadata : List TrackMetadata} {physicalLba logicalLba : Word}
    {tracks : List ChdCdTrack} {start : ℕ} (h : buildTracks physicalLba logicalLba metadata = .ok tracks)
    (hphysical : physicalLba.toNat = start % 2 ^ 32) (hle : start ≤ 2 ^ 32) (haligned : start % 4 = 0)
    (hlogical : logicalLba.toNat + logicalFrames metadata < 2 ^ 32) (hfits : ¬ PhysicalFits start metadata) :
    ∃ t ∈ tracks, ∃ lba, t.Stores lba ∧ t.unit lba = 0 := by
  induction metadata generalizing physicalLba logicalLba tracks start with
  | nil => exact absurd trivial hfits
  | cons m rest ih =>
    obtain ⟨t, ts, rfl, hbuilt, hrest⟩ := buildTracks_cons h
    have hpos := hbuilt.frames_pos
    have hsmall := hbuilt.frames_lt
    simp only [logicalFrames, List.map_cons, List.sum_cons] at hlogical
    obtain ⟨hdata, hend⟩ := hbuilt.toNat_end (by omega)
    have hextent : m.extent = m.unstoredPregap.toNat + m.frames.toNat := rfl
    have hpadded : m.paddedFrames = (m.frames.toNat + 3) / 4 * 4 := rfl
    by_cases hstart : start + m.frames.toNat ≤ 2 ^ 32
    · have hnext : (physicalLba + roundTrackFrames m.frames).toNat = (start + m.paddedFrames) % 2 ^ 32 := by
        rw [BitVec.toNat_add, hphysical, toNat_roundTrackFrames hsmall, hpadded]
        omega
      obtain ⟨t', hmem, hzero⟩ := ih hrest hnext (by omega) (by omega) (by unfold logicalFrames; omega)
        (fun hrestFits => hfits ⟨hstart, hrestFits⟩)
      exact ⟨t', List.mem_cons_of_mem _ hmem, hzero⟩
    · -- The unit `2 ^ 32` of this track is read as unit 0.
      let lba : Word := BitVec.ofNat 32 (t.dataStartLba.toNat + (2 ^ 32 - start))
      have hlba : lba.toNat = t.dataStartLba.toNat + (2 ^ 32 - start) := by
        show (t.dataStartLba.toNat + (2 ^ 32 - start)) % 2 ^ 32 = _
        omega
      refine ⟨t, List.mem_cons_self, lba, ⟨by omega, by omega⟩, ?_⟩
      apply BitVec.eq_of_toNat_eq
      rw [ChdCdTrack.unit, BitVec.toNat_add, ChdCdTrack.toNat_offset (by omega), hbuilt.physical, hphysical]
      show _ = 0
      omega

/-! ## The track table -/

namespace ChdCdImage

/-- The unit that is read for an address, where one is. -/
def storedUnit (image : ChdCdImage) (lba : Word) : Option Word :=
  match image.findTrackByLba lba with
  | none => none
  | some t => if lba < t.dataStartLba then none else some (t.unit lba)

/-- The extents tile the disc, and every stored address has a unit of its own whose number does not wrap. -/
structure Addressed (image : ChdCdImage) : Prop where
  tiles : TilesFrom 0 image.tracks image.leadOutLba.toNat
  unwrapped : ∀ lba t, image.findTrackByLba lba = some t → t.dataStartLba.toNat ≤ lba.toNat →
    (t.unit lba).toNat = t.physicalLba.toNat + (lba.toNat - t.dataStartLba.toNat)
  distinct : ∀ lba lba' unit, image.storedUnit lba = some unit → image.storedUnit lba' = some unit → lba = lba'

theorem findTrackByLba_some {image : ChdCdImage} {lba : Word} {t : ChdCdTrack}
    (h : image.findTrackByLba lba = some t) :
    t ∈ image.tracks ∧ t.logicalLba.toNat ≤ lba.toNat ∧ lba.toNat < t.endLba.toNat := by
  have hholds := List.find?_some h
  rw [Bool.and_eq_true, decide_eq_true_eq, decide_eq_true_eq] at hholds
  exact ⟨List.mem_of_find?_eq_some h, hholds⟩

theorem storedUnit_some {image : ChdCdImage} {lba unit : Word} (h : image.storedUnit lba = some unit) :
    ∃ t ∈ image.tracks, t.Stores lba ∧ unit = t.unit lba := by
  unfold storedUnit at h
  split at h
  case h_1 => cases h
  case h_2 t ht =>
    obtain ⟨hmem, -, hend⟩ := findTrackByLba_some ht
    split at h
    case isTrue => cases h
    case isFalse hdata =>
      cases h
      exact ⟨t, hmem, ⟨not_lt.mp hdata, hend⟩, rfl⟩

/-- Where the extents tile the disc the unit of a stored address is its track's. -/
theorem storedUnit_of_stores {image : ChdCdImage} (h : TilesFrom 0 image.tracks image.leadOutLba.toNat)
    {t : ChdCdTrack} (ht : t ∈ image.tracks) {lba : Word} (hstored : t.Stores lba) :
    image.storedUnit lba = some (t.unit lba) := by
  have hlogical := (h.le_logical ht).2.1
  have hfind : image.findTrackByLba lba = some t := h.find_of_mem ht (hlogical.trans hstored.1) hstored.2
  rw [storedUnit, hfind]
  exact if_neg (not_lt.mpr hstored.1)

theorem openImage_ok {header : ChdHeader} {metadata : List TrackMetadata} {image : ChdCdImage}
    (h : openImage header metadata = .ok image) :
    buildTracks 0 0 (metadata.take 99) = .ok image.tracks ∧ image.leadOutLba = endOf 0 image.tracks ∧
    image.header.hunkBytes % image.header.unitBytes = 0 ∧ 0 < image.header.hunkBytes ∧
    image.framesPerHunk = image.header.hunkBytes / image.header.unitBytes := by
  unfold openImage at h
  split at h
  case isTrue => cases h
  case isFalse hraw =>
    push Not at hraw
    split at h
    case h_1 => cases h
    case h_2 tracks htracks =>
      split at h
      case h_1 => cases h
      case h_2 last hlast =>
        cases h
        refine ⟨htracks, ?_, hraw.2.2, Nat.pos_of_ne_zero hraw.2.1, rfl⟩
        show last.endLba = endOf 0 tracks
        rw [endOf, hlast]
        rfl

/-- The track table addresses the disc exactly when its addresses and its units fit in 32 bits. -/
theorem addressed_iff {header : ChdHeader} {metadata : List TrackMetadata} {image : ChdCdImage}
    (h : openImage header metadata = .ok image) :
    image.Addressed ↔ logicalFrames (metadata.take 99) < 2 ^ 32 ∧ PhysicalFits 0 (metadata.take 99) := by
  obtain ⟨hbuilt, hlead, -⟩ := openImage_ok h
  have htiles := tilesFrom_iff hbuilt
  rw [← hlead] at htiles
  have hzero : (0 : Word).toNat = 0 := rfl
  rw [hzero, Nat.zero_add] at htiles
  constructor
  · intro haddressed
    have hlogical := htiles.mp haddressed.tiles
    refine ⟨hlogical, ?_⟩
    by_contra hfits
    generalize metadata.take 99 = entries at hbuilt hlogical hfits
    cases entries with
    | nil => exact hfits trivial
    | cons m rest =>
      -- The first stored address has unit 0, and so has one of a later track.
      obtain ⟨first, ts, htracks, hfirst, hrest⟩ := buildTracks_cons hbuilt
      simp only [logicalFrames, List.map_cons, List.sum_cons] at hlogical
      have hpos := hfirst.frames_pos
      have hsmall := hfirst.frames_lt
      obtain ⟨hdata, hend⟩ := hfirst.toNat_end (by rw [hzero]; omega)
      have hextent : m.extent = m.unstoredPregap.toNat + m.frames.toNat := rfl
      have hpadded : m.paddedFrames = (m.frames.toNat + 3) / 4 * 4 := rfl
      have hstores : first.Stores first.dataStartLba := ⟨le_refl _, by omega⟩
      have hunit : first.unit first.dataStartLba = 0 := by
        rw [ChdCdTrack.unit, hfirst.physical, BitVec.sub_self]
        rfl
      have hnext : (0 + roundTrackFrames m.frames).toNat = (0 + m.paddedFrames) % 2 ^ 32 := by
        rw [BitVec.toNat_add, toNat_roundTrackFrames hsmall, hpadded]
        omega
      have hrestFits : ¬ PhysicalFits (0 + m.paddedFrames) rest := fun hr => hfits ⟨by omega, hr⟩
      obtain ⟨t, hmem, lba, hstored, hwrap⟩ := unit_zero_of_not_fits hrest hnext (by omega) (by omega)
        (by rw [hend, hzero]; unfold logicalFrames; omega) hrestFits
      have htiles' := haddressed.tiles
      rw [htracks] at htiles'
      have hlater := (htiles'.2.2.2.le_logical hmem)
      have hone := storedUnit_of_stores haddressed.tiles (htracks ▸ List.mem_cons_self) hstores
      have htwo := storedUnit_of_stores haddressed.tiles (htracks ▸ List.mem_cons_of_mem _ hmem) hstored
      rw [hunit] at hone
      rw [hwrap] at htwo
      have hsame := haddressed.distinct _ _ _ hone htwo
      have := hstored.1
      rw [← hsame] at this
      omega
  · rintro ⟨hlogical, hfits⟩
    have hunits : UnitsFrom 0 image.tracks :=
      unitsFrom_of_fits hbuilt rfl (le_refl 0) (by rw [hzero, Nat.zero_add]; exact hlogical) hfits
    refine ⟨htiles.mpr hlogical, ?_, ?_⟩
    · intro lba t ht hdata
      obtain ⟨hmem, -, hend⟩ := findTrackByLba_some ht
      exact hunits.toNat_unit hmem ⟨hdata, hend⟩
    · intro lba lba' unit hunit hunit'
      obtain ⟨t, hmem, hstored, rfl⟩ := storedUnit_some hunit
      obtain ⟨t', hmem', hstored', hsame⟩ := storedUnit_some hunit'
      exact hunits.unit_injective hmem hmem' hstored hstored' (congrArg BitVec.toNat hsame)

/-! ## Runs of reads -/

/-- The hunk that a call has in its buffer when it copies the sector. -/
def wantedHunk (image : ChdCdImage) (lba : Word) (outputBytes : ℕ) : Option ℕ :=
  if outputBytes < kRawSectorBytes ∨ image.leadOutLba ≤ lba then none
  else (image.storedUnit lba).map fun unit => unit.toNat / image.framesPerHunk

/-- The sector of a unit in the buffer of its hunk. -/
def sectorIn (image : ChdCdImage) (unit : Word) (hunk : ℕ → Byte) : List Byte :=
  (List.range kRawSectorBytes).map fun i => hunk (unit.toNat % image.framesPerHunk * image.header.unitBytes + i)

/-- Everything a call can do. -/
theorem readRawSector_cases (image : ChdCdImage) (disc : ℕ → Byte) (lba : Word) (outputBytes : ℕ) (outcome : ChdRead) :
    (image.wantedHunk lba outputBytes = none ∧ image.readRawSector disc lba outputBytes outcome = (image, none)) ∨
    (∃ t, image.findTrackByLba lba = some t ∧ lba < t.dataStartLba ∧ image.wantedHunk lba outputBytes = none ∧
      image.readRawSector disc lba outputBytes outcome = (image, some (List.replicate kRawSectorBytes 0))) ∨
    (∃ t hunk, image.findTrackByLba lba = some t ∧ ¬ lba < t.dataStartLba ∧
      hunk = (t.unit lba).toNat / image.framesPerHunk ∧ image.wantedHunk lba outputBytes = some hunk ∧
      ((hunk = image.cachedHunk ∧
          image.readRawSector disc lba outputBytes outcome = (image, some (image.sectorIn (t.unit lba) image.hunk))) ∨
        (hunk ≠ image.cachedHunk ∧ outcome = .ok ∧
          image.readRawSector disc lba outputBytes outcome =
            ({ image with hunk := image.hunkOf disc hunk, cachedHunk := hunk },
              some (image.sectorIn (t.unit lba) (image.hunkOf disc hunk)))) ∨
        (hunk ≠ image.cachedHunk ∧ ∃ junk, outcome = .failed junk ∧
          image.readRawSector disc lba outputBytes outcome = ({ image with hunk := junk }, none)))) := by
  unfold wantedHunk storedUnit readRawSector
  by_cases hrange : outputBytes < kRawSectorBytes ∨ image.leadOutLba ≤ lba
  · rw [if_pos hrange, if_pos hrange]
    exact .inl ⟨rfl, rfl⟩
  · rw [if_neg hrange, if_neg hrange]
    cases hfind : image.findTrackByLba lba with
    | none => exact .inl ⟨rfl, rfl⟩
    | some t =>
      dsimp only
      by_cases hdata : lba < t.dataStartLba
      · rw [if_pos hdata, if_pos hdata]
        exact .inr (.inl ⟨t, rfl, hdata, rfl, rfl⟩)
      · rw [if_neg hdata, if_neg hdata]
        refine .inr (.inr ⟨t, _, rfl, hdata, rfl, rfl, ?_⟩)
        by_cases hhunk : (t.unit lba).toNat / image.framesPerHunk = image.cachedHunk
        · exact .inl ⟨hhunk, if_neg (not_not.mpr hhunk)⟩
        · cases outcome with
          | ok => exact .inr (.inl ⟨hhunk, rfl, if_pos hhunk⟩)
          | failed junk => exact .inr (.inr ⟨hhunk, junk, rfl, if_pos hhunk⟩)

/-- A sector in its hunk is the sector of its unit on the disc. -/
theorem sectorIn_hunkOf {image : ChdCdImage} (hraw : image.header.hunkBytes % image.header.unitBytes = 0)
    (hframes : image.framesPerHunk = image.header.hunkBytes / image.header.unitBytes) (disc : ℕ → Byte) (unit : Word) :
    image.sectorIn unit (image.hunkOf disc (unit.toNat / image.framesPerHunk)) =
      (List.range kRawSectorBytes).map fun i => disc (unit.toNat * image.header.unitBytes + i) := by
  have hbytes : image.header.hunkBytes = image.framesPerHunk * image.header.unitBytes := by
    rw [hframes]
    exact (Nat.div_mul_cancel (Nat.dvd_of_mod_eq_zero hraw)).symm
  have hunit : unit.toNat / image.framesPerHunk * image.header.hunkBytes +
      unit.toNat % image.framesPerHunk * image.header.unitBytes = unit.toNat * image.header.unitBytes := by
    rw [hbytes, ← Nat.mul_assoc, ← Nat.add_mul, Nat.mul_comm (unit.toNat / _), Nat.div_add_mod]
  rw [sectorIn]
  apply List.map_congr_left
  intro i _
  rw [hunkOf, ← Nat.add_assoc, hunit]

end ChdCdImage

/-- One call of `readRawSector` and what `chd_read` does if it is reached. -/
structure SectorRead where
  lba : Word
  outputBytes : ℕ
  outcome : ChdCdImage.ChdRead

/-- An image in use; `intact` holds after a `chd_read` that succeeded until one fails. -/
structure Session where
  image : ChdCdImage
  intact : Bool

namespace Session

variable {disc : ℕ → Byte}

def read (disc : ℕ → Byte) (s : Session) (r : SectorRead) : ChdCdImage × Option (List Byte) :=
  s.image.readRawSector disc r.lba r.outputBytes r.outcome

def next (disc : ℕ → Byte) (s : Session) (r : SectorRead) : Session where
  image := (s.read disc r).1
  intact :=
    match s.image.wantedHunk r.lba r.outputBytes with
    | none => s.intact
    | some hunk =>
      if hunk = s.image.cachedHunk then s.intact
      else match r.outcome with
        | .ok => true
        | .failed _ => false

/-- The call does not take the cached hunk from a buffer that a failed `chd_read` has written. -/
def Clean (s : Session) (r : SectorRead) : Prop :=
  s.image.wantedHunk r.lba r.outputBytes = some s.image.cachedHunk → s.intact = true

/-- The sessions that calls lead to. -/
inductive Runs (disc : ℕ → Byte) (image : ChdCdImage) : Session → Prop where
  | opened : Runs disc image ⟨image, false⟩
  | read {s : Session} (r : SectorRead) : Runs disc image s → Runs disc image (s.next disc r)

/-- What a call may return for an address. -/
def Sector (image : ChdCdImage) (disc : ℕ → Byte) (lba : Word) (output : List Byte) : Prop :=
  ∃ t, image.findTrackByLba lba = some t ∧
    if lba < t.dataStartLba then output = List.replicate kRawSectorBytes 0
    else output = (List.range kRawSectorBytes).map fun i =>
      disc ((t.physicalLba.toNat + (lba.toNat - t.dataStartLba.toNat)) * image.header.unitBytes + i)

/-- The buffer holds the cached hunk while it is intact, and the table is the one of the opened image. -/
structure Holds (disc : ℕ → Byte) (image : ChdCdImage) (s : Session) : Prop where
  header : s.image.header = image.header
  tracks : s.image.tracks = image.tracks
  leadOut : s.image.leadOutLba = image.leadOutLba
  framesPerHunk : s.image.framesPerHunk = image.framesPerHunk
  buffer : s.intact = true → s.image.hunk = s.image.hunkOf disc s.image.cachedHunk

namespace Holds

variable {image : ChdCdImage} {s : Session}

theorem findTrackByLba_eq (h : Holds disc image s) (lba : Word) :
    s.image.findTrackByLba lba = image.findTrackByLba lba := by
  rw [ChdCdImage.findTrackByLba, h.tracks]
  rfl

theorem next (h : Holds disc image s) (r : SectorRead) : Holds disc image (s.next disc r) := by
  obtain ⟨hnone, heq⟩ | ⟨t, -, -, hnone, heq⟩ | ⟨t, hunk, -, -, -, hwanted, hcase⟩ :=
    s.image.readRawSector_cases disc r.lba r.outputBytes r.outcome
  · unfold Session.next Session.read
    rw [heq, hnone]
    exact ⟨h.header, h.tracks, h.leadOut, h.framesPerHunk, h.buffer⟩
  · unfold Session.next Session.read
    rw [heq, hnone]
    exact ⟨h.header, h.tracks, h.leadOut, h.framesPerHunk, h.buffer⟩
  · unfold Session.next Session.read
    rw [hwanted]
    dsimp only
    obtain ⟨hhit, heq⟩ | ⟨hmiss, hok, heq⟩ | ⟨hmiss, junk, hfailed, heq⟩ := hcase
    · rw [if_pos hhit, heq]
      exact ⟨h.header, h.tracks, h.leadOut, h.framesPerHunk, h.buffer⟩
    · rw [if_neg hmiss, heq]
      exact ⟨h.header, h.tracks, h.leadOut, h.framesPerHunk, fun _ => rfl⟩
    · rw [if_neg hmiss, heq, hfailed]
      exact ⟨h.header, h.tracks, h.leadOut, h.framesPerHunk, fun hintact => absurd hintact Bool.false_ne_true⟩

end Holds

theorem Runs.holds {image : ChdCdImage} {s : Session} (h : Runs disc image s) : Holds disc image s := by
  induction h with
  | opened => exact ⟨rfl, rfl, rfl, rfl, fun hintact => absurd hintact Bool.false_ne_true⟩
  | read r _ ih => exact ih.next r

/-- A clean call that succeeds returns the sector of its address. -/
theorem Holds.sector {image : ChdCdImage} {s : Session} (h : Holds disc image s)
    (hraw : image.header.hunkBytes % image.header.unitBytes = 0)
    (hframes : image.framesPerHunk = image.header.hunkBytes / image.header.unitBytes) (haddressed : image.Addressed)
    {r : SectorRead} (hclean : s.Clean r) {output : List Byte} (hread : (s.read disc r).2 = some output) :
    Sector image disc r.lba output := by
  have hraw' : s.image.header.hunkBytes % s.image.header.unitBytes = 0 := by rw [h.header, hraw]
  have hframes' : s.image.framesPerHunk = s.image.header.hunkBytes / s.image.header.unitBytes := by
    rw [h.header, h.framesPerHunk, hframes]
  unfold Session.read at hread
  obtain ⟨-, heq⟩ | ⟨t, hfind, hdata, -, heq⟩ | ⟨t, hunk, hfind, hdata, hhunk, hwanted, hcase⟩ :=
    s.image.readRawSector_cases disc r.lba r.outputBytes r.outcome
  · rw [heq] at hread
    cases hread
  · rw [heq] at hread
    obtain rfl := Option.some.inj hread
    rw [h.findTrackByLba_eq] at hfind
    exact ⟨t, hfind, by rw [if_pos hdata]⟩
  · rw [h.findTrackByLba_eq] at hfind
    refine ⟨t, hfind, ?_⟩
    rw [if_neg hdata, ← haddressed.unwrapped r.lba t hfind (not_lt.mp hdata), ← h.header,
      ← ChdCdImage.sectorIn_hunkOf hraw' hframes', ← hhunk]
    obtain ⟨hhit, heq⟩ | ⟨-, -, heq⟩ | ⟨-, junk, -, heq⟩ := hcase
    · rw [heq] at hread
      obtain rfl := Option.some.inj hread
      rw [h.buffer (hclean (hhit ▸ hwanted)), ← hhit]
    · rw [heq] at hread
      exact (Option.some.inj hread).symm
    · rw [heq] at hread
      cases hread

/-- The table addresses the disc exactly when its addresses and units fit in 32 bits, and then every clean call of
every run returns the right sector. -/
theorem sectors_addressed {header : ChdHeader} {metadata : List TrackMetadata} {image : ChdCdImage}
    (hopen : ChdCdImage.openImage header metadata = .ok image) :
    (image.Addressed ↔ logicalFrames (metadata.take 99) < 2 ^ 32 ∧ PhysicalFits 0 (metadata.take 99)) ∧
    (logicalFrames (metadata.take 99) < 2 ^ 32 → PhysicalFits 0 (metadata.take 99) →
      ∀ disc s r output, Runs disc image s → s.Clean r → (s.read disc r).2 = some output →
        Sector image disc r.lba output) := by
  have hiff := ChdCdImage.addressed_iff hopen
  refine ⟨hiff, ?_⟩
  intro hlogical hfits disc s r output hruns hclean hread
  obtain ⟨-, -, hraw, -, hframes⟩ := ChdCdImage.openImage_ok hopen
  exact hruns.holds.sector hraw hframes (hiff.mpr ⟨hlogical, hfits⟩) hclean hread

def sampleHeader : ChdHeader := ⟨2352, 4704⟩

def sampleMetadata : List TrackMetadata := [.cht2 1 10 2 "AUDIO" "AUDIO"]

def sampleImage : ChdCdImage :=
  { header := sampleHeader
    tracks := [{ number := 1, type := .audio, audio := true, physicalLba := 0, storedFrames := 10, logicalLba := 0,
                 dataStartLba := 2, startLba := 2, endLba := 12, pregapFrames := 2, pregapInFile := false }]
    leadOutLba := 12
    framesPerHunk := 2
    hunk := fun _ => 0
    cachedHunk := 2 ^ 32 - 1 }

theorem openImage_sample : ChdCdImage.openImage sampleHeader sampleMetadata = .ok sampleImage := by
  rfl

/-- A call at address 5 of a fresh session returns unit 3. -/
theorem sectors_addressed_sample :
    ChdCdImage.openImage sampleHeader sampleMetadata = .ok sampleImage ∧ sampleImage.Addressed ∧
    ∀ disc output, (Session.read disc ⟨sampleImage, false⟩ ⟨5, 2352, .ok⟩).2 = some output →
      Sector sampleImage disc 5 output := by
  have hfits : logicalFrames (sampleMetadata.take 99) < 2 ^ 32 ∧ PhysicalFits 0 (sampleMetadata.take 99) :=
    ⟨by decide, by decide, trivial⟩
  obtain ⟨haddressed, hsector⟩ := sectors_addressed openImage_sample
  refine ⟨openImage_sample, haddressed.mpr hfits, ?_⟩
  intro disc output
  exact hsector hfits.1 hfits.2 disc _ ⟨5, 2352, .ok⟩ output .opened (fun hwanted => absurd hwanted (by decide))

/-- Three tracks whose extents pass `2 ^ 32` are accepted. -/
def longMetadata : List TrackMetadata :=
  [.chtr 1 0x7FFFFFFF "AUDIO", .chtr 2 0x7FFFFFFF "AUDIO", .chtr 3 0x7FFFFFFF "AUDIO"]

/-- The first hunk is read, the second fails and overwrites the buffer. -/
def spoiled (disc : ℕ → Byte) : Session :=
  (next disc ⟨sampleImage, false⟩ ⟨2, 2352, .ok⟩).next disc ⟨4, 2352, .failed fun _ => 7⟩

/-- The extents of accepted metadata can wrap, and after a failed `chd_read` the cached hunk is returned from a
buffer that no longer holds it. -/
theorem sectors_not_addressed :
    (∃ image, ChdCdImage.openImage sampleHeader longMetadata = .ok image ∧
      ¬ TilesFrom 0 image.tracks image.leadOutLba.toNat) ∧
    Runs (fun _ => 0) sampleImage (spoiled fun _ => 0) ∧
    ∃ output, ((spoiled fun _ => 0).read (fun _ => 0) ⟨2, 2352, .ok⟩).2 = some output ∧
      ¬ Sector sampleImage (fun _ => 0) 2 output := by
  refine ⟨⟨_, rfl, ?_⟩, (Runs.opened.read _).read _, sampleImage.sectorIn 0 fun _ => 7, rfl, ?_⟩
  · rintro ⟨-, -, -, -, -, -, -, -, hlt, -⟩
    exact absurd hlt (by decide)
  · rintro ⟨t, hfind, hsector⟩
    obtain rfl := Option.some.inj hfind
    rw [if_neg (by decide), ChdCdImage.sectorIn] at hsector
    have hbyte : (7 : Byte) = 0 := List.map_inj_left.mp hsector 0 (List.mem_range.mpr (by decide))
    exact absurd hbyte (by decide)

end Session

end Repiu.Media
