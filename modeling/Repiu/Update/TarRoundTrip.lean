import Repiu.Update.TarArchive

/-!
# Written archives

The archives of regular files as the ustar, GNU and pax formats write them, and what the reader
returns for them.
-/

namespace Repiu.Update

open CheckedBuffers SizeWidth

/-! ## Numbers and texts -/

/-- The digits of a number, the highest first. -/
def digitBytes {base : ℕ} (digits : List (Fin base)) : List Byte := digits.map fun d => BitVec.ofNat 8 (0x30 + d.val)

def digitsValue {base : ℕ} (digits : List (Fin base)) : ℕ := Nat.ofDigits base (digits.map Fin.val).reverse

/-- An octal number, behind spaces and up to a blank or the end of the field. -/
def OctalField (value : ℕ) (field : List Byte) : Prop :=
  ∃ (pad : List Byte) (digits : List (Fin 8)) (rest : List Byte), field = pad ++ (digitBytes digits ++ rest) ∧
    (∀ c ∈ pad, c = 0x20) ∧ digits ≠ [] ∧ digitsValue digits = value ∧ ∀ c ∈ rest.head?, c = 0x20 ∨ c = 0

/-- A text, up to a zero or the end of the field. -/
def TextField (text field : List Byte) : Prop :=
  ∃ rest, field = text ++ rest ∧ 0 ∉ text ∧ ∀ c ∈ rest.head?, c = 0

section
variable {base : ℕ} {digits : List (Fin base)} {value : ℕ}

@[simp] theorem digitBytes_cons (d : Fin base) (digits : List (Fin base)) :
    digitBytes (d :: digits) = BitVec.ofNat 8 (0x30 + d.val) :: digitBytes digits := rfl

@[simp] theorem digitBytes_length (digits : List (Fin base)) : (digitBytes digits).length = digits.length :=
  List.length_map _

theorem digitByte_toNat (hbase : base ≤ 10) (d : Fin base) : (BitVec.ofNat 8 (0x30 + d.val)).toNat = 0x30 + d.val := by
  rw [BitVec.toNat_ofNat, Nat.mod_eq_of_lt (by omega)]

theorem digitsValue_cons (d : Fin base) (digits : List (Fin base)) :
    digitsValue (d :: digits) = d.val * base ^ digits.length + digitsValue digits := by
  unfold digitsValue
  rw [List.map_cons, List.reverse_cons, Nat.ofDigits_append, Nat.ofDigits_singleton, List.length_reverse,
    List.length_map]
  ring

/-- Another digit of a number whose first digits are read. -/
theorem value_step (value : ℕ) (d : Fin base) (digits : List (Fin base)) :
    value * base ^ (d :: digits).length + digitsValue (d :: digits) =
      (value * base + d.val) * base ^ digits.length + digitsValue digits := by
  rw [digitsValue_cons, List.length_cons, pow_succ]
  ring

/-- What is read of a number is below it. -/
theorem value_le (hbase : 0 < base) (value : ℕ) (digits : List (Fin base)) :
    value ≤ value * base ^ digits.length + digitsValue digits :=
  le_add_right (Nat.le_mul_of_pos_right value (Nat.pow_pos hbase))

theorem digitsValue_lt (hbase : 1 < base) (digits : List (Fin base)) : digitsValue digits < base ^ digits.length := by
  unfold digitsValue
  have hlt := @Nat.ofDigits_lt_base_pow_length base (digits.map Fin.val).reverse hbase (by simp)
  rwa [List.length_reverse, List.length_map] at hlt

end

theorem parseOctalDigits_digits {digits : List (Fin 8)} {value : ℕ} {any : Bool} {rest : List Byte}
    (hvalue : value * 8 ^ digits.length + digitsValue digits < 2 ^ 64) :
    parseOctalDigits value any (digitBytes digits ++ rest) =
      parseOctalDigits (value * 8 ^ digits.length + digitsValue digits) (any || !digits.isEmpty) rest := by
  induction digits generalizing value any with
  | nil => simp [digitBytes, digitsValue]
  | cons d digits ih =>
    rw [value_step] at hvalue ⊢
    have hbyte := digitByte_toNat (by decide) d
    have hblank : ¬(BitVec.ofNat 8 (0x30 + d.val) = (0x20 : Byte) ∨ BitVec.ofNat 8 (0x30 + d.val) = (0 : Byte)) := by
      rintro (h | h) <;> rw [h] at hbyte <;> simp at hbyte <;> omega
    have hnext := value_le (by decide) (value * 8 + d.val) digits
    rw [digitBytes_cons, List.cons_append, parseOctalDigits, if_neg hblank, hbyte, if_neg (by omega),
      Nat.add_sub_cancel_left, Nat.mod_eq_of_lt (by omega), ih hvalue]
    simp

theorem parseOctalDigits_end {value : ℕ} {rest : List Byte} (h : ∀ c ∈ rest.head?, c = 0x20 ∨ c = 0) :
    parseOctalDigits value true rest = some value := by
  cases rest with
  | nil => rfl
  | cons c rest => rw [parseOctalDigits, if_pos (h c rfl), if_pos rfl]

/-- A field of at most 21 digits holds no number that does not fit. -/
theorem parseOctal_field {value : ℕ} {field : List Byte} (h : OctalField value field) (hlength : field.length ≤ 21) :
    parseOctal field = some value := by
  obtain ⟨pad, digits, rest, rfl, hpad, hdigits, rfl, hrest⟩ := h
  have hfirst : (pad ++ (digitBytes digits ++ rest)).dropWhile (fun character => character = 0x20 ∨ character = 0) =
      digitBytes digits ++ rest := by
    rw [List.dropWhile_append_of_pos (by intro c hc; simp [hpad c hc])]
    cases digits with
    | nil => exact absurd rfl hdigits
    | cons d digits =>
      have hbyte := digitByte_toNat (by decide) d
      rw [digitBytes_cons, List.cons_append, List.dropWhile_cons_of_neg]
      simp only [decide_eq_true_eq]
      rintro (h | h) <;> rw [h] at hbyte <;> simp at hbyte <;> omega
  have hsmall : digitsValue digits < 2 ^ 64 := by
    have hpow : 8 ^ digits.length ≤ 8 ^ 21 := by
      apply Nat.pow_le_pow_right (by decide)
      simp only [List.length_append, digitBytes_length] at hlength
      omega
    exact (digitsValue_lt (by decide) digits).trans (by omega)
  unfold parseOctal
  rw [hfirst, parseOctalDigits_digits (by omega), Nat.zero_mul, Nat.zero_add, Bool.false_or]
  have hany : (!digits.isEmpty) = true := by simpa using hdigits
  rw [hany, parseOctalDigits_end hrest]

theorem fieldString_text {text field : List Byte} (h : TextField text field) : fieldString field = text := by
  obtain ⟨rest, rfl, htext, hrest⟩ := h
  unfold fieldString
  have hnonzero : ∀ c ∈ text, decide (c ≠ 0) = true := by
    intro c hc
    have hne : c ≠ 0 := fun h0 => htext (h0 ▸ hc)
    simpa using hne
  rw [List.takeWhile_append_of_pos hnonzero]
  cases rest with
  | nil => simp
  | cons c rest => rw [List.takeWhile_cons_of_neg (by simp [hrest c rfl]), List.append_nil]

/-! ## Pax records -/

/-- A record: its own length, a space, the content and a newline. -/
def PaxRecord (content record : List Byte) : Prop :=
  ∃ digits : List (Fin 10), record = digitBytes digits ++ 0x20 :: (content ++ [0x0A]) ∧
    digitsValue digits = record.length

/-- The data of an extended header with one record for the path. -/
inductive PaxData (path : List Byte) : List Byte → Prop
  | path {record : List Byte} (h : PaxRecord (pathKey ++ path) record) (rest : List Byte) :
    PaxData path (record ++ rest)
  | other {content record rest : List Byte} (h : PaxRecord content record) (hother : ¬pathKey <+: content)
      (hrest : PaxData path rest) : PaxData path (record ++ rest)

section
variable {width : SizeWidth} {before : List Byte}

theorem findSpace_digits {digits : List (Fin 10)} {rest : List Byte} {left : ℕ} (h : digits.length < left) :
    findSpace (before ++ (digitBytes digits ++ 0x20 :: rest)) left before.length =
      .ok (before.length + digits.length) := by
  induction digits generalizing before left with
  | nil =>
    obtain ⟨left, rfl⟩ : ∃ left', left = left' + 1 := ⟨left - 1, by omega⟩
    show findSpace (before ++ 0x20 :: rest) (left + 1) before.length = .ok before.length
    rw [findSpace, readByte_append _ rfl, ok_bind, if_neg (by decide)]
  | cons d digits ih =>
    rw [List.length_cons] at h
    obtain ⟨left, rfl⟩ : ∃ left', left = left' + 1 := ⟨left - 1, by omega⟩
    have hbyte := digitByte_toNat (by decide) d
    have hdigit : BitVec.ofNat 8 (0x30 + d.val) ≠ (0x20 : Byte) := by
      intro h
      rw [h] at hbyte
      simp at hbyte
      omega
    rw [digitBytes_cons, List.cons_append, findSpace, readByte_append _ rfl, ok_bind, if_pos hdigit]
    have hnext := @ih (before ++ [BitVec.ofNat 8 (0x30 + d.val)]) left (by omega)
    rw [List.append_assoc, List.singleton_append, List.length_append, List.length_singleton] at hnext
    rw [hnext, List.length_cons, Nat.add_assoc, Nat.add_comm 1]

theorem paxLength_digits {digits : List (Fin 10)} {rest : List Byte} {length : ℕ}
    (h : length * 10 ^ digits.length + digitsValue digits < width.modulus) :
    paxLength width (before ++ (digitBytes digits ++ rest)) digits.length before.length length =
      .ok (some (length * 10 ^ digits.length + digitsValue digits)) := by
  induction digits generalizing before length with
  | nil => simp [paxLength, digitsValue]
  | cons d digits ih =>
    rw [value_step] at h ⊢
    have hbyte := digitByte_toNat (by decide) d
    have hstep := value_le (by decide) (length * 10 + d.val) digits
    rw [digitBytes_cons, List.cons_append, List.length_cons, paxLength, readByte_append _ rfl, ok_bind, hbyte,
      if_neg (by omega), Nat.add_sub_cancel_left, wrap_of_lt (by omega)]
    have hnext := @ih (before ++ [BitVec.ofNat 8 (0x30 + d.val)]) (length * 10 + d.val) h
    rw [List.append_assoc, List.singleton_append, List.length_append, List.length_singleton] at hnext
    exact hnext

/-- A record is read as its content. -/
theorem paxRecord_record {content record rest : List Byte} (h : PaxRecord content record)
    (hsize : 2 * (before ++ (record ++ rest)).length < width.modulus) :
    paxRecord width (before ++ (record ++ rest)) before.length =
      .ok (if pathKey.isPrefixOf content then .done (content.drop 5) else .next (before ++ record).length) := by
  have hmodulus := modulus_ge width
  obtain ⟨digits, hrecord, hvalue⟩ := h
  have hlength : record.length = digits.length + (content.length + 2) := by
    rw [hrecord]
    simp
  have hdata : before ++ (record ++ rest) =
      before ++ (digitBytes digits ++ 0x20 :: (content ++ ([0x0A] ++ rest))) := by
    rw [hrecord]
    simp
  have hsplit : before ++ (digitBytes digits ++ 0x20 :: (content ++ ([0x0A] ++ rest))) =
      (before ++ (digitBytes digits ++ [0x20])) ++ (content ++ ([0x0A] ++ rest)) := by
    simp
  simp only [List.length_append] at hsize
  unfold paxRecord
  rw [if_neg (by simp only [List.length_append]; omega), hdata,
    findSpace_digits (by simp only [List.length_append, List.length_cons, digitBytes_length]; omega), ok_bind,
    Nat.add_sub_cancel_left, paxLength_digits (by rw [hvalue]; omega), ok_bind, hvalue, Nat.zero_mul, Nat.zero_add]
  dsimp only
  rw [wrap_of_lt (by omega), wrap_of_lt (by omega), if_neg (by omega), if_neg ?_, hsplit,
    readSpan_append ?_ ?_, ok_bind, List.length_append]
  · split_ifs <;> rfl
  · simp
    omega
  · omega
  · rw [← hdata]
    simp only [List.length_append]
    omega

theorem paxPath_data {path data : List Byte} (h : PaxData path data) (hsize : 2 * data.length < width.modulus) :
    paxPath width data = .ok path := by
  obtain ⟨result, hresult⟩ := paxPath_ok hsize
  have hyields : ∀ before rest : List Byte, PaxData path rest → data = before ++ rest →
      Yields (paxRecord width data) before.length path := by
    intro before rest hrest
    induction hrest generalizing before with
    | @path record hrecord rest =>
      intro heq
      apply Yields.done
      rw [heq] at hsize ⊢
      rw [paxRecord_record hrecord hsize, if_pos (by simp)]
      rfl
    | @other content record rest hrecord hother _ ih =>
      intro heq
      have hround := @paxRecord_record width before _ _ rest hrecord (heq ▸ hsize)
      rw [if_neg (by simpa using hother), ← heq] at hround
      apply Yields.next hround
      apply ih
      rw [heq, List.append_assoc]
  rw [hresult, (hyields [] data h rfl).runLoop_eq hresult]

end

/-! ## Archives -/

/-- A regular file. -/
structure TarFile where
  name : List Byte
  data : List Byte
  mode : ℕ

/-- What is to be read of a file. -/
def TarFile.entry (file : TarFile) : ArchiveEntry where
  name := nameText file.name
  data := file.data
  executable := decide (file.mode &&& 0o111 ≠ 0)

/-- The header block of `size` bytes of data. -/
structure HeaderBlock (header : List Byte) (type : Byte) (size : ℕ) : Prop where
  length_eq : header.length = 512
  size_field : OctalField size ((header.drop 124).take 12)
  type_eq : header[156]? = some type
  magic_eq : (header.drop 257).take 5 = ustarMagic

/-- Data, filled up to whole blocks. -/
def PaddedData (data blocks : List Byte) : Prop :=
  ∃ padding, blocks = data ++ padding ∧ blocks.length = (data.length + 511) / 512 * 512

/-- A record before an entry, with its header. -/
def RecordBlocks (type : Byte) (data records : List Byte) : Prop :=
  ∃ header blocks, HeaderBlock header type data.length ∧ PaddedData data blocks ∧
    data.length ≤ kMaxReleaseArchiveBytes ∧ records = header ++ blocks

/-- The ways in which an archive carries a name, in the header of a file or in records before it. -/
inductive CarriesName (name : List Byte) : List Byte → List Byte → Prop
  | nameField {header : List Byte} (hname : TextField name ((header.drop 0).take 100))
      (hpart : TextField [] ((header.drop 345).take 155)) : CarriesName name [] header
  | prefixField {header leading last : List Byte} (hjoin : name = leading ++ 0x2F :: last) (hne : leading ≠ [])
      (hpart : TextField leading ((header.drop 345).take 155))
      (hname : TextField last ((header.drop 0).take 100)) : CarriesName name [] header
  | longName {records header text : List Byte} (hne : name ≠ []) (htext : TextField name text)
      (hrecords : RecordBlocks 0x4C text records) : CarriesName name records header
  | paxPath {records header data : List Byte} (hne : name ≠ []) (hdata : PaxData name data)
      (hrecords : RecordBlocks 0x78 data records) : CarriesName name records header

/-- A regular file in an archive: the records and the header that carry its name, and its data. -/
structure FileBlocks (file : TarFile) (records header blocks : List Byte) : Prop where
  carries : CarriesName file.name records header
  isHeader : ∃ type ∈ [0x30, 0x00, 0x37], HeaderBlock header type file.data.length
  mode_field : OctalField file.mode ((header.drop 100).take 8)
  isPadded : PaddedData file.data blocks

/-- The block of zeros at the end. -/
def endBlock : List Byte := List.replicate 512 0

/-- An archive of regular files. -/
inductive TarArchive : List TarFile → List Byte → Prop
  | nil (rest : List Byte) : TarArchive [] (endBlock ++ rest)
  | cons {file : TarFile} {files : List TarFile} {records header blocks rest : List Byte}
      (hfile : FileBlocks file records header blocks) (hrest : TarArchive files rest) :
      TarArchive (file :: files) (records ++ (header ++ (blocks ++ rest)))

def totalSize (files : List TarFile) : ℕ := (files.map fun file => file.data.length).sum

/-! ## Rounds -/

section
variable {width : SizeWidth} {tar before header blocks after data : List Byte} {type : Byte} {s : TarState}
  {reading : TarReading}

theorem endBlock_length : endBlock.length = 512 := List.length_replicate

theorem endBlock_zero : (endBlock.all fun c => c = 0) = true := by
  rw [List.all_eq_true]
  intro c hc
  rw [List.eq_of_mem_replicate hc]
  rfl

/-- The types of files are no others. -/
theorem fileType_ne (h : type ∈ [0x30, 0x00, 0x37]) :
    type ≠ 0x4C ∧ type ≠ 0x78 ∧ type ≠ 0x67 ∧ type ≠ 0x35 ∧ ¬(type ≠ 0x30 ∧ type ≠ 0 ∧ type ≠ 0x37) := by
  revert type
  decide

theorem HeaderBlock.not_zero {size : ℕ} (h : HeaderBlock header type size) : (header.all fun c => c = 0) = false := by
  obtain ⟨pad, digits, rest, hfield, -, hdigits, -, -⟩ := h.size_field
  cases digits with
  | nil => exact absurd rfl hdigits
  | cons d digits =>
    have hbyte := digitByte_toNat (by decide) d
    have hmem : BitVec.ofNat 8 (0x30 + d.val) ∈ header := by
      apply List.mem_of_mem_drop
      apply List.mem_of_mem_take
      rw [hfield]
      simp
    rw [List.all_eq_false]
    refine ⟨_, hmem, ?_⟩
    intro hzero
    rw [of_decide_eq_true hzero] at hbyte
    simp at hbyte
    omega

/-- A round reads one header and its data, and stands behind them. -/
theorem tarRound_block (htar : tar = before ++ (header ++ (blocks ++ after))) (hsize : 2 * tar.length < width.modulus)
    (hheader : HeaderBlock header type data.length) (hdata : PaddedData data blocks)
    (hlimit : data.length ≤ kMaxReleaseArchiveBytes) (hs : s.position = before.length) :
    tarRound width tar s = readEntry width header data type (parseOctal ((header.drop 100).take 8))
      { s with position := (before ++ (header ++ blocks)).length } := by
  have hmodulus := modulus_ge width
  have hmodulus' := modulus_le width
  obtain ⟨padding, hpadding, hblocks⟩ := hdata
  have hlength : tar.length = before.length + (512 + (blocks.length + after.length)) := by
    rw [htar]
    simp [hheader.length_eq]
  have hstart : width.wrap (s.position + 512) = before.length + 512 := by
    rw [hs, wrap_of_lt (by omega)]
  have hsizeField : ((header.drop 124).take 12).length ≤ 21 := by
    rw [List.length_take]
    omega
  have hbehind : tar = (before ++ header) ++ (data ++ (padding ++ after)) := by
    rw [htar, hpadding]
    simp
  have hread : readSpan tar (before.length + 512) data.length = .ok data := by
    rw [hbehind]
    apply readSpan_append _ rfl
    rw [List.length_append, hheader.length_eq]
  have htype : readByte header 156 = .ok type := by
    unfold readByte
    rw [hheader.type_eq]
  unfold kMaxReleaseArchiveBytes at hlimit
  have hpadded : blocks.length = data.length + padding.length := by
    rw [hpadding, List.length_append]
  have hheaderRead : readSpan tar s.position 512 = .ok header := by
    rw [htar]
    exact readSpan_append hs.symm hheader.length_eq
  unfold tarRound
  dsimp only
  rw [hstart, if_neg (by omega), hheaderRead, ok_bind, if_neg (by rw [hheader.not_zero]; decide),
    readSpan_of_le (by rw [hheader.length_eq]; decide), readSpan_of_le (by rw [hheader.length_eq]; decide),
    ok_bind, ok_bind,
    parseOctal_field hheader.size_field hsizeField]
  dsimp only
  rw [if_neg (by unfold kMaxReleaseArchiveBytes; omega), htype, ok_bind, Nat.mod_eq_of_lt (by omega), if_neg (by omega),
    hread, ok_bind, ← hblocks, wrap_of_lt (show blocks.length < width.modulus by omega), wrap_of_lt (by omega)]
  congr 2
  simp [hheader.length_eq]
  omega

/-- The records before a header leave the name pending. -/
theorem CarriesName.yields {name records : List Byte} (h : CarriesName name records header)
    (htar : tar = before ++ (records ++ after)) (hsize : 2 * tar.length < width.modulus)
    (hheader : header.length = 512) (hmagic : (header.drop 257).take 5 = ustarMagic)
    (hs : s.position = before.length) (hpending : s.pendingName = []) :
    ∃ pending, entryName pending header = .ok name ∧
      (Yields (tarRound width tar) { s with position := (before ++ records).length, pendingName := pending } reading →
        Yields (tarRound width tar) s reading) := by
  have hmagicRead : readSpan header 257 5 = .ok ustarMagic := by
    rw [readSpan_of_le (by omega), hmagic]
  have hnameRead := readSpan_of_le (show 0 + 100 ≤ header.length by omega)
  have hprefixRead := readSpan_of_le (show 345 + 155 ≤ header.length by omega)
  have hsame : { s with position := (before ++ ([] : List Byte)).length, pendingName := [] } = s := by
    rw [List.append_nil, ← hs, ← hpending]
  cases h with
  | nameField hname hpart =>
    refine ⟨[], ?_, by rw [hsame]; exact id⟩
    unfold entryName
    rw [if_neg (by simp), hnameRead, hmagicRead, hprefixRead]
    simp only [ok_bind, if_true]
    rw [fieldString_text hpart, fieldString_text hname]
    rfl
  | prefixField hjoin hne hpart hname =>
    refine ⟨[], ?_, by rw [hsame]; exact id⟩
    unfold entryName
    rw [if_neg (by simp), hnameRead, hmagicRead, hprefixRead]
    simp only [ok_bind, if_true]
    rw [fieldString_text hpart, fieldString_text hname, if_pos hne, hjoin]
  | longName hne htext hrecords =>
    obtain ⟨record, blocks, hrecord, hblocks, hlimit, rfl⟩ := hrecords
    refine ⟨name, by unfold entryName; rw [if_pos hne], ?_⟩
    have hround := tarRound_block (by rw [htar, List.append_assoc]) hsize hrecord hblocks hlimit hs
    unfold readEntry at hround
    rw [if_pos rfl, fieldString_text htext] at hround
    exact Yields.next hround
  | paxPath hne hdata hrecords =>
    obtain ⟨record, blocks, hrecord, hblocks, hlimit, rfl⟩ := hrecords
    refine ⟨name, by unfold entryName; rw [if_pos hne], ?_⟩
    have hround := tarRound_block (by rw [htar, List.append_assoc]) hsize hrecord hblocks hlimit hs
    have hpath := paxPath_data hdata (show 2 * _ < width.modulus by
      obtain ⟨padding, rfl, -⟩ := hblocks
      rw [htar] at hsize
      simp only [List.length_append] at hsize
      omega)
    unfold readEntry at hround
    rw [if_neg (by decide), if_pos rfl, hpath, ok_bind] at hround
    exact Yields.next hround

/-- A file is read into its entry. -/
theorem FileBlocks.yields {file : TarFile} {records : List Byte} (h : FileBlocks file records header blocks)
    (htar : tar = before ++ (records ++ (header ++ (blocks ++ after)))) (hsize : 2 * tar.length < width.modulus)
    (hs : s.position = before.length) (hpending : s.pendingName = [])
    (hlimit : s.total + file.data.length ≤ kMaxReleaseArchiveBytes)
    (hrest : Yields (tarRound width tar)
      ⟨(before ++ (records ++ (header ++ blocks))).length, [], s.total + file.data.length, s.entries ++ [file.entry]⟩
      reading) :
    Yields (tarRound width tar) s reading := by
  obtain ⟨type, htype, hheader⟩ := h.isHeader
  obtain ⟨pending, hname, hyields⟩ := h.carries.yields htar hsize hheader.length_eq hheader.magic_eq hs hpending
  apply hyields
  have hmode : parseOctal ((header.drop 100).take 8) = some file.mode :=
    parseOctal_field h.mode_field (by rw [List.length_take]; omega)
  have htar' : tar = (before ++ records) ++ (header ++ (blocks ++ after)) := by
    rw [htar, List.append_assoc]
  have hround := tarRound_block htar' hsize hheader h.isPadded (by omega)
    (show TarState.position { s with position := (before ++ records).length, pendingName := pending } = _ from rfl)
  obtain ⟨hlong, hpax, hglobal, hdirectory, hfile⟩ := fileType_ne htype
  unfold readEntry at hround
  unfold kMaxReleaseArchiveBytes at hlimit
  rw [if_neg hlong, if_neg hpax, if_neg hglobal, hname, ok_bind, if_neg hdirectory, if_neg hfile, hmode] at hround
  dsimp only at hround
  rw [Nat.mod_eq_of_lt (by omega), if_neg (by unfold kMaxReleaseArchiveBytes; omega)] at hround
  apply Yields.next hround
  rw [← List.append_assoc] at hrest
  exact hrest

theorem TarArchive.yields {files : List TarFile} {archive : List Byte} (h : TarArchive files archive)
    (htar : tar = before ++ archive) (hsize : 2 * tar.length < width.modulus)
    (hs : s.position = before.length) (hpending : s.pendingName = [])
    (hlimit : s.total + totalSize files ≤ kMaxReleaseArchiveBytes) :
    Yields (tarRound width tar) s ⟨s.entries ++ files.map TarFile.entry, none⟩ := by
  induction h generalizing before s with
  | nil rest =>
    have hmodulus := modulus_ge width
    have hlength : tar.length = before.length + (512 + rest.length) := by
      rw [htar, List.length_append, List.length_append, endBlock_length]
    have hread : readSpan tar s.position 512 = .ok endBlock := by
      rw [htar]
      exact readSpan_append hs.symm endBlock_length
    apply Yields.done
    unfold tarRound
    dsimp only
    rw [hs, wrap_of_lt (by omega), if_neg (by omega), ← hs, hread, ok_bind, if_pos endBlock_zero,
      List.map_nil, List.append_nil]
  | @cons file files records header blocks rest hfile hrest ih =>
    have hsum : totalSize (file :: files) = file.data.length + totalSize files := by
      unfold totalSize
      rw [List.map_cons, List.sum_cons]
    apply hfile.yields htar hsize hs hpending (by omega)
    have hyields := @ih (before ++ (records ++ (header ++ blocks)))
      ⟨(before ++ (records ++ (header ++ blocks))).length, [], s.total + file.data.length, s.entries ++ [file.entry]⟩
      (by rw [htar]; simp) rfl rfl (by show s.total + file.data.length + totalSize files ≤ _; omega)
    simpa using hyields

end

/-- The reader returns the files of every archive, within the limit, and terminates on every byte
string without a read outside of it. -/
theorem readTar_writtenFiles (width : SizeWidth) :
    (∀ (files : List TarFile) (tar : HostBytes width), TarArchive files tar.bytes →
      totalSize files ≤ kMaxReleaseArchiveBytes → readTar width tar.bytes = .ok ⟨files.map TarFile.entry, none⟩) ∧
    (∀ tar : HostBytes width, ∃ reading, readTar width tar.bytes = .ok reading) ∧
    ∀ data : HostBytes width, ∃ path, paxPath width data.bytes = .ok path := by
  refine ⟨?_, fun tar => readTar_ok tar.size_lt, fun data => paxPath_ok data.size_lt⟩
  intro files tar harchive hlimit
  obtain ⟨reading, hreading⟩ := readTar_ok tar.size_lt
  have hyields : Yields (tarRound width tar.bytes) {} ⟨[] ++ files.map TarFile.entry, none⟩ :=
    harchive.yields (List.nil_append _).symm tar.size_lt rfl rfl (by simpa using hlimit)
  rw [hreading, ← hyields.runLoop_eq hreading]
  rfl

/-- A field of `n` bytes, filled up with zeros. -/
def zeroFill (text : List Byte) (n : ℕ) : List Byte := text ++ List.replicate (n - text.length) 0

theorem head_replicate_zero (n : ℕ) : ∀ c ∈ (List.replicate n (0 : Byte)).head?, c = 0 := by
  cases n with
  | zero => nofun
  | succ n => simp [List.replicate_succ]

theorem textField_zeroFill {text : List Byte} (h : 0 ∉ text) (n : ℕ) : TextField text (zeroFill text n) :=
  ⟨_, rfl, h, head_replicate_zero _⟩

theorem octalField_zeroFill {digits : List (Fin 8)} (h : digits ≠ []) (n : ℕ) :
    OctalField (digitsValue digits) (zeroFill (digitBytes digits) n) :=
  ⟨[], digits, _, rfl, nofun, h, rfl, fun c hc => .inr (head_replicate_zero _ c hc)⟩

/-- The header of a file that everyone may execute. -/
def sampleHeader (name leading : List Byte) (type : Byte) (size : List (Fin 8)) : List Byte :=
  zeroFill name 100 ++ zeroFill (digitBytes [(7 : Fin 8), 5, 5]) 8 ++ zeroFill [] 16 ++ zeroFill (digitBytes size) 12 ++
    zeroFill [] 20 ++ type :: zeroFill [] 100 ++ ustarMagic ++ zeroFill [] 83 ++ zeroFill leading 155 ++ zeroFill [] 12

/-- The fields of a sample header. -/
def SampleFields (name leading : List Byte) (type : Byte) (size : List (Fin 8)) : Prop :=
  let header := sampleHeader name leading type size
  (size ≠ [] ∧ header.length = 512 ∧ header[156]? = some type ∧ (header.drop 257).take 5 = ustarMagic) ∧
    (header.drop 124).take 12 = zeroFill (digitBytes size) 12 ∧
    (header.drop 100).take 8 = zeroFill (digitBytes [(7 : Fin 8), 5, 5]) 8 ∧
    (header.drop 0).take 100 = zeroFill name 100 ∧ (header.drop 345).take 155 = zeroFill leading 155

instance (name leading : List Byte) (type : Byte) (size : List (Fin 8)) :
    Decidable (SampleFields name leading type size) := by
  unfold SampleFields
  infer_instance

section
variable {name leading : List Byte} {type : Byte} {size : List (Fin 8)}

theorem SampleFields.headerBlock (h : SampleFields name leading type size) :
    HeaderBlock (sampleHeader name leading type size) type (digitsValue size) := by
  obtain ⟨⟨hsize, hlength, htype, hmagic⟩, hfield, -⟩ := h
  refine ⟨hlength, ?_, htype, hmagic⟩
  rw [hfield]
  exact octalField_zeroFill hsize 12

theorem SampleFields.fileBlocks {file : TarFile} {records blocks : List Byte} (h : SampleFields name leading type size)
    (hcarries : CarriesName file.name records (sampleHeader name leading type size)) (htype : type ∈ [0x30, 0x00, 0x37])
    (hsize : digitsValue size = file.data.length) (hmode : file.mode = 0o755)
    (hblocks : PaddedData file.data blocks) : FileBlocks file records (sampleHeader name leading type size) blocks := by
  refine ⟨hcarries, ⟨type, htype, hsize ▸ h.headerBlock⟩, ?_, hblocks⟩
  obtain ⟨-, -, hfield, -⟩ := h
  rw [hfield, hmode]
  exact octalField_zeroFill (by decide) 8

end

/-- One file for each way to carry a name: `a`, `d/b`, `l` and `p`. -/
def sampleFiles : List TarFile :=
  [⟨[0x61], [1], 0o755⟩, ⟨[0x64, 0x2F, 0x62], [], 0o755⟩, ⟨[0x6C], [2, 3], 0o755⟩, ⟨[0x70], [4], 0o755⟩]

/-- `9 path=p` and a newline -/
def samplePaxData : List Byte := [0x39, 0x20, 0x70, 0x61, 0x74, 0x68, 0x3D, 0x70, 0x0A]

def sampleArchive : List Byte :=
  [] ++ (sampleHeader [0x61] [] 0x30 [1] ++ (zeroFill [1] 512 ++ ([] ++ (sampleHeader [0x62] [0x64] 0x30 [0] ++ ([] ++
    ((sampleHeader [] [] 0x4C [2] ++ zeroFill [0x6C, 0] 512) ++ (sampleHeader [] [] 0x30 [2] ++ (zeroFill [2, 3] 512 ++
      ((sampleHeader [] [] 0x78 [1, 1] ++ zeroFill samplePaxData 512) ++ (sampleHeader [] [] 0 [1] ++
        (zeroFill [4] 512 ++ (endBlock ++ []))))))))))))

theorem sampleArchive_files : TarArchive sampleFiles sampleArchive := by
  have hfields : SampleFields [0x61] [] 0x30 [1] ∧ SampleFields [0x62] [0x64] 0x30 [0] ∧ SampleFields [] [] 0x4C [2] ∧
      SampleFields [] [] 0x30 [2] ∧ SampleFields [] [] 0x78 [1, 1] ∧ SampleFields [] [] 0 [1] := by
    decide +kernel
  obtain ⟨hfirst, hsecond, hlong, hthird, hpax, hfourth⟩ := hfields
  have hpadded : ∀ data : List Byte, data ≠ [] → data.length ≤ 512 → PaddedData data (zeroFill data 512) := by
    intro data hdata hlength
    have hpos := List.length_pos_of_ne_nil hdata
    refine ⟨_, rfl, ?_⟩
    unfold zeroFill
    rw [List.length_append, List.length_replicate]
    omega
  apply TarArchive.cons
  · apply hfirst.fileBlocks (.nameField ?_ ?_) (by decide) rfl rfl (hpadded _ (by decide) (by decide))
    · rw [hfirst.2.2.2.1]
      exact textField_zeroFill (by decide) 100
    · rw [hfirst.2.2.2.2]
      exact textField_zeroFill (by decide) 155
  apply TarArchive.cons
  · apply hsecond.fileBlocks (@CarriesName.prefixField _ _ [0x64] [0x62] rfl (by decide) ?_ ?_) (by decide) rfl rfl
      ⟨[], rfl, rfl⟩
    · rw [hsecond.2.2.2.2]
      exact textField_zeroFill (by decide) 155
    · rw [hsecond.2.2.2.1]
      exact textField_zeroFill (by decide) 100
  apply TarArchive.cons
  · have hrecord : RecordBlocks 0x4C [0x6C, 0] _ :=
      ⟨_, _, hlong.headerBlock, hpadded _ (by decide) (by decide), by decide, rfl⟩
    apply hthird.fileBlocks (.longName (by decide) ?_ hrecord) (by decide) rfl rfl (hpadded _ (by decide) (by decide))
    exact ⟨[0], rfl, by decide, by simp⟩
  apply TarArchive.cons
  · have hrecord : RecordBlocks 0x78 samplePaxData _ :=
      ⟨_, _, hpax.headerBlock, hpadded _ (by decide) (by decide), by decide, rfl⟩
    apply hfourth.fileBlocks (.paxPath (by decide) ?_ hrecord) (by decide) rfl rfl (hpadded _ (by decide) (by decide))
    exact PaxData.path ⟨[9], rfl, rfl⟩ []
  exact TarArchive.nil []

theorem readTar_writtenFiles_sample :
    readTar .bits64 sampleArchive = .ok ⟨sampleFiles.map TarFile.entry, none⟩ :=
  (readTar_writtenFiles .bits64).1 sampleFiles ⟨sampleArchive, by decide +kernel⟩ sampleArchive_files (by decide)

end Repiu.Update
