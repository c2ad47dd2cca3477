import Repiu.CheckedBuffers
import Repiu.HostSize
import Repiu.Update.ReleaseArchive

/-!
# Tar archives

The reader of an uncompressed tar archive. A name stands in the header, in the prefix and the
header, or in a record before it, which the next entry that is not a record takes up.
-/

namespace Repiu.Update

open CheckedBuffers SizeWidth

/-- `kMaxReleaseArchiveBytes`. -/
def kMaxReleaseArchiveBytes : ℕ := 512 * 2 ^ 20

/-- Bytes as characters. -/
def nameText (name : List Byte) : PathName := name.map fun byte => Char.ofNat byte.toNat

/-! ## Fields -/

/-- The digits of an octal field, up to a blank. -/
def parseOctalDigits (value : ℕ) (any : Bool) : List Byte → Option ℕ
  | [] => if any then some value else none
  | character :: rest =>
    if character = 0x20 ∨ character = 0 then if any then some value else none
    else if character.toNat < 0x30 ∨ 0x37 < character.toNat then none
    else parseOctalDigits ((value * 8 + (character.toNat - 0x30)) % 2 ^ 64) true rest

/-- `ParseOctal`, nothing where it is not ok. -/
def parseOctal (field : List Byte) : Option ℕ :=
  parseOctalDigits 0 false (field.dropWhile fun character => character = 0x20 ∨ character = 0)

/-- `FieldString`: `strnlen` bytes of a field. -/
def fieldString (field : List Byte) : List Byte := field.takeWhile fun character => character ≠ 0

/-! ## Pax records -/

variable (width : SizeWidth)

/-- The first space in the last `left` bytes, or the end of the data. -/
def findSpace (data : List Byte) : ℕ → ℕ → Except BufferFault ℕ
  | 0, space => .ok space
  | left + 1, space => do
    let character ← readByte data space
    if character ≠ 0x20 then findSpace data left (space + 1) else .ok space

/-- The number in `left` bytes, nothing where one is not a digit. -/
def paxLength (data : List Byte) : ℕ → ℕ → ℕ → Except BufferFault (Option ℕ)
  | 0, _, length => .ok (some length)
  | left + 1, index, length => do
    let digit ← readByte data index
    if digit.toNat < 0x30 ∨ 0x39 < digit.toNat then .ok none
    else paxLength data left (index + 1) (width.wrap (length * 10 + (digit.toNat - 0x30)))

/-- `path=` -/
def pathKey : List Byte := [0x70, 0x61, 0x74, 0x68, 0x3D]

/-- One record of `PaxPath`. -/
def paxRecord (data : List Byte) (position : ℕ) : Except BufferFault (Round ℕ (List Byte)) :=
  if data.length ≤ position then .ok (.done [])
  else do
    let space ← findSpace data (data.length - position) position
    match ← paxLength width data (space - position) position 0 with
    | none => .ok (.done [])
    | some length =>
      let stop := width.wrap (position + length)
      if stop < width.wrap (space + 2) then .ok (.done [])
      else if length = 0 ∨ data.length < stop then .ok (.done [])
      else do
        let record ← readSpan data (space + 1) (stop - space - 2)
        if pathKey.isPrefixOf record then .ok (.done (record.drop 5)) else .ok (.next stop)

/-- `PaxPath`. -/
def paxPath (data : List Byte) : Except BufferFault (List Byte) :=
  runLoop (paxRecord width data) (data.length + 1) 0

/-! ## Entries -/

/-- What `ReadTar` has when it returns: the entries, and an error where it fails. -/
structure TarReading where
  entries : List ArchiveEntry
  error : Option String

structure TarState where
  position : ℕ := 0
  pendingName : List Byte := []
  total : ℕ := 0
  entries : List ArchiveEntry := []

/-- `ustar` -/
def ustarMagic : List Byte := [0x75, 0x73, 0x74, 0x61, 0x72]

/-- The name of an entry: the pending one, or that of its header. -/
def entryName (pendingName header : List Byte) : Except BufferFault (List Byte) :=
  if pendingName ≠ [] then .ok pendingName
  else do
    let name ← readSpan header 0 100
    let magic ← readSpan header 257 5
    if magic = ustarMagic then do
      let leading ← readSpan header 345 155
      if fieldString leading ≠ [] then .ok (fieldString leading ++ 0x2F :: fieldString name)
      else .ok (fieldString name)
    else .ok (fieldString name)

/-- An entry behind its header and data, `L`, `x`, `g`, a directory or a file. -/
def readEntry (header data : List Byte) (type : Byte) (mode : Option ℕ) (s : TarState) :
    Except BufferFault (Round TarState TarReading) :=
  if type = 0x4C then .ok (.next { s with pendingName := fieldString data })
  else if type = 0x78 then do
    let name ← paxPath width data
    .ok (.next { s with pendingName := name })
  else if type = 0x67 then .ok (.next s)
  else do
    let name ← entryName s.pendingName header
    if type = 0x35 then .ok (.next { s with pendingName := [] })
    else if type ≠ 0x30 ∧ type ≠ 0 ∧ type ≠ 0x37 then
      .ok (.done ⟨s.entries, some ("unsupported tar entry type for " ++ String.ofList (nameText name))⟩)
    else
      let total := (s.total + data.length) % 2 ^ 64
      if kMaxReleaseArchiveBytes < total then .ok (.done ⟨s.entries, some "archive content too large"⟩)
      else
        let executable := mode.any fun mode => decide (mode &&& 0o111 ≠ 0)
        .ok (.next { s with
          pendingName := []
          total := total
          entries := s.entries ++ [⟨nameText name, data, executable⟩] })

/-- One round of `ReadTar`. -/
def tarRound (tar : List Byte) (s : TarState) : Except BufferFault (Round TarState TarReading) :=
  let dataStart := width.wrap (s.position + 512)
  if tar.length < dataStart then .ok (.done ⟨s.entries, some "tar archive has no end block"⟩)
  else do
    let header ← readSpan tar s.position 512
    if header.all fun c => c = 0 then .ok (.done ⟨s.entries, none⟩)
    else do
      let sizeField ← readSpan header 124 12
      let modeField ← readSpan header 100 8
      match parseOctal sizeField with
      | none => .ok (.done ⟨s.entries, some "bad tar entry size"⟩)
      | some size =>
        if kMaxReleaseArchiveBytes < size then .ok (.done ⟨s.entries, some "bad tar entry size"⟩)
        else do
          let type ← readByte header 156
          let padded := width.wrap ((size + 511) / 512 * 512)
          if tar.length < (dataStart + size) % 2 ^ 64 then .ok (.done ⟨s.entries, some "truncated tar entry"⟩)
          else do
            let data ← readSpan tar dataStart size
            readEntry width header data type (parseOctal modeField)
              { s with position := width.wrap (dataStart + padded) }

/-- `ReadTar`. -/
def readTar (tar : List Byte) : Except BufferFault TarReading :=
  runLoop (tarRound width tar) (tar.length + 1) {}

/-! ## Every buffer -/

variable {width} {data : List Byte} {position : ℕ}

theorem findSpace_ok {left space : ℕ} (h : space + left ≤ data.length) :
    ∃ found, findSpace data left space = .ok found ∧ space ≤ found ∧ found ≤ space + left := by
  induction left generalizing space with
  | zero => exact ⟨space, rfl, le_refl _, le_refl _⟩
  | succ left ih =>
    rw [findSpace, readByte_of_lt (by omega), ok_bind]
    split
    case isTrue =>
      obtain ⟨found, hfound, hlow, hhigh⟩ := @ih (space + 1) (by omega)
      exact ⟨found, hfound, by omega, by omega⟩
    case isFalse => exact ⟨space, rfl, by omega, by omega⟩

theorem paxLength_ok {left index length : ℕ} (h : index + left ≤ data.length) (hlength : length < width.modulus) :
    ∃ result, paxLength width data left index length = .ok result ∧ ∀ n, result = some n → n < width.modulus := by
  induction left generalizing index length with
  | zero =>
    refine ⟨some length, rfl, ?_⟩
    intro n hn
    cases hn
    exact hlength
  | succ left ih =>
    rw [paxLength, readByte_of_lt (by omega), ok_bind]
    split
    case isTrue => exact ⟨none, rfl, nofun⟩
    case isFalse => exact ih (by omega) (Nat.mod_lt _ (by have := modulus_ge width; omega))

/-- A record is read inside the data, and the next one begins behind it: a length that does not fit
`size_t` ends before its own digits. -/
theorem paxRecord_ok (hsize : 2 * data.length < width.modulus) (position : ℕ) :
    ∃ round, paxRecord width data position = .ok round ∧
      ∀ next, round = .next next → position < next ∧ next ≤ data.length := by
  have hmodulus := modulus_ge width
  unfold paxRecord
  split
  case isTrue => exact ⟨_, rfl, nofun⟩
  case isFalse hinside =>
    obtain ⟨space, hspace, hlow, hhigh⟩ := @findSpace_ok data (data.length - position) position (by omega)
    obtain ⟨length?, hlength, hbound⟩ :=
      @paxLength_ok width data (space - position) position 0 (by omega) (by omega)
    rw [hspace, ok_bind, hlength, ok_bind]
    cases length? with
    | none => exact ⟨_, rfl, nofun⟩
    | some length =>
      have hfits := hbound length rfl
      have hstart : width.wrap (space + 2) = space + 2 := wrap_of_lt (by omega)
      have hstop : width.wrap (position + length) = position + length ∨
          width.wrap (position + length) < position := by
        rcases Nat.lt_or_ge (position + length) width.modulus with hlt | hge
        · exact .inl (wrap_of_lt hlt)
        · refine .inr ?_
          unfold SizeWidth.wrap
          rw [Nat.mod_eq_sub_mod hge, Nat.mod_eq_of_lt (by omega)]
          omega
      dsimp only
      rw [hstart]
      split
      case isTrue => exact ⟨_, rfl, nofun⟩
      case isFalse hbehind =>
        split
        case isTrue => exact ⟨_, rfl, nofun⟩
        case isFalse hwithin =>
          rw [readSpan_of_le (by omega), ok_bind]
          split
          case isTrue => exact ⟨_, rfl, nofun⟩
          case isFalse =>
            refine ⟨_, rfl, ?_⟩
            intro next hnext
            cases hnext
            omega

theorem paxPath_ok (hsize : 2 * data.length < width.modulus) : ∃ path, paxPath width data = .ok path := by
  apply runLoop_ok (fun _ => True) (fun position => data.length - position) ?_ trivial (by omega)
  intro position _
  obtain ⟨round, hround, hnext⟩ := paxRecord_ok hsize position
  refine ⟨round, hround, ?_⟩
  intro next heq
  have := hnext next heq
  exact ⟨trivial, by omega⟩

theorem entryName_ok {pendingName header : List Byte} (h : header.length = 512) :
    ∃ name, entryName pendingName header = .ok name := by
  unfold entryName
  rw [readSpan_of_le (by omega), readSpan_of_le (by omega), readSpan_of_le (by omega)]
  simp only [ok_bind]
  split_ifs
  all_goals exact ⟨_, rfl⟩

/-- An entry changes no position. -/
theorem readEntry_ok {header : List Byte} {type : Byte} {mode : Option ℕ} {s : TarState}
    (hheader : header.length = 512) (hsize : 2 * data.length < width.modulus) :
    ∃ round, readEntry width header data type mode s = .ok round ∧
      ∀ s', round = .next s' → s'.position = s.position := by
  obtain ⟨path, hpath⟩ := paxPath_ok hsize
  obtain ⟨name, hname⟩ := @entryName_ok s.pendingName header hheader
  unfold readEntry
  rw [hpath, hname]
  simp only [ok_bind]
  split_ifs
  all_goals
    refine ⟨_, rfl, ?_⟩
    intro s' hs'
    cases hs'
  all_goals rfl

/-- A round of the archive reads inside the buffer, and the next one begins behind its header. -/
theorem tarRound_ok {tar : List Byte} (hsize : 2 * tar.length < width.modulus) {s : TarState}
    (hs : s.position ≤ tar.length + 511) :
    ∃ round, tarRound width tar s = .ok round ∧
      ∀ s', round = .next s' → s.position < s'.position ∧ s.position < tar.length ∧
        s'.position ≤ tar.length + 511 := by
  have hmodulus := modulus_ge width
  unfold tarRound
  dsimp only
  rw [wrap_of_lt (by omega)]
  split
  case isTrue => exact ⟨_, rfl, nofun⟩
  case isFalse hblock =>
    rw [readSpan_of_le (by omega), ok_bind]
    have hheader : ((tar.drop s.position).take 512).length = 512 := by
      rw [List.length_take, List.length_drop]
      omega
    generalize (tar.drop s.position).take 512 = header at hheader
    split
    case isTrue => exact ⟨_, rfl, nofun⟩
    case isFalse =>
      rw [readSpan_of_le (by omega), readSpan_of_le (by omega), ok_bind, ok_bind]
      cases parseOctal ((header.drop 124).take 12) with
      | none => exact ⟨_, rfl, nofun⟩
      | some size =>
        dsimp only
        split
        case isTrue => exact ⟨_, rfl, nofun⟩
        case isFalse hlimit =>
          unfold kMaxReleaseArchiveBytes at hlimit
          rw [readByte_of_lt (by omega), ok_bind]
          split
          case isTrue => exact ⟨_, rfl, nofun⟩
          case isFalse hdata =>
            rw [Nat.mod_eq_of_lt (by have := modulus_le width; omega)] at hdata
            rw [wrap_of_lt (show (size + 511) / 512 * 512 < width.modulus by omega), wrap_of_lt (by omega),
              readSpan_of_le (by omega), ok_bind]
            have hfits : 2 * ((tar.drop (s.position + 512)).take size).length < width.modulus := by
              rw [List.length_take, List.length_drop]
              omega
            obtain ⟨round, hround, hnext⟩ := readEntry_ok hheader hfits
            refine ⟨round, hround, ?_⟩
            intro s' hs'
            rw [hnext s' hs']
            show s.position < s.position + 512 + (size + 511) / 512 * 512 ∧ s.position < tar.length ∧
              s.position + 512 + (size + 511) / 512 * 512 ≤ tar.length + 511
            omega

theorem readTar_ok {tar : List Byte} (hsize : 2 * tar.length < width.modulus) :
    ∃ reading, readTar width tar = .ok reading := by
  apply runLoop_ok (fun s : TarState => s.position ≤ tar.length + 511) (fun s => tar.length - s.position) ?_
    (Nat.zero_le _) (by omega)
  intro s hs
  obtain ⟨round, hround, hnext⟩ := tarRound_ok hsize hs
  refine ⟨round, hround, ?_⟩
  intro s' hs'
  have := hnext s' hs'
  omega

end Repiu.Update
