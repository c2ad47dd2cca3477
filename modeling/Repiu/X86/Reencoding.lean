import Repiu.X86.Addressing
import Repiu.X86.DecoderTheorems

/-!
# Re-encoded memory operands

What the decoder makes of an instruction with a memory operand once a segment prefix is taken
out and the ModRM byte is replaced by one of another memory form.
-/

namespace Repiu.X86

/-! ## Readers and longer input -/

theorem readBytes_append {n : ℕ} {bs v rest : List Byte} (h : readBytes n bs = some (v, rest)) (tail : List Byte) :
    readBytes n (bs ++ tail) = some (v, rest ++ tail) := by
  unfold readBytes at h ⊢
  split_ifs at h with hn
  simp only [Option.some.injEq, Prod.mk.injEq] at h
  have hle : n ≤ (bs ++ tail).length := by
    rw [List.length_append]
    omega
  rw [if_pos hle, List.take_append_of_le_length hn, List.drop_append_of_le_length hn, h.1, h.2]

theorem readImms_append {width : ℕ} {specs : List ImmSpec} {bs : List Byte} {imms : List (ImmSpec × List Byte)}
    {rest : List Byte} (h : readImms width specs bs = some (imms, rest)) (tail : List Byte) :
    readImms width specs (bs ++ tail) = some (imms, rest ++ tail) := by
  induction specs generalizing bs imms with
  | nil =>
    simp only [readImms, Option.some.injEq, Prod.mk.injEq] at h ⊢
    rw [h.1, h.2]
    exact ⟨rfl, rfl⟩
  | cons s ss ih =>
    simp only [readImms, Option.bind_eq_bind, Option.bind_eq_some_iff, Option.pure_def, Option.some.injEq,
      Prod.mk.injEq] at h ⊢
    obtain ⟨⟨v, bs₁⟩, hv, ⟨vs, bs₂⟩, hvs, rfl, rfl⟩ := h
    exact ⟨_, readBytes_append hv tail, _, ih hvs, rfl, rfl⟩

/-- The immediates of a definition have one length, whatever bytes they are read from. -/
theorem readImms_length {width : ℕ} {specs : List ImmSpec} {bs : List Byte} {imms : List (ImmSpec × List Byte)}
    {rest : List Byte} (h : readImms width specs bs = some (imms, rest)) :
    (imms.map fun p => p.2.length).sum = (specs.map fun s => s.size width).sum := by
  induction specs generalizing bs imms with
  | nil =>
    simp only [readImms, Option.some.injEq, Prod.mk.injEq] at h
    rw [← h.1]
    rfl
  | cons s ss ih =>
    simp only [readImms, Option.bind_eq_bind, Option.bind_eq_some_iff, Option.pure_def, Option.some.injEq,
      Prod.mk.injEq] at h
    obtain ⟨⟨v, bs₁⟩, hv, ⟨vs, bs₂⟩, hvs, rfl, rfl⟩ := h
    have hlength : v.length = s.size width := by
      unfold readBytes at hv
      split_ifs at hv with hn
      simp only [Option.some.injEq, Prod.mk.injEq] at hv
      rw [← hv.1, List.length_take]
      omega
    simp only [List.map_cons, List.sum_cons, hlength, ih hvs]

/-- An opcode is read the same way in front of other bytes.  Only a single opcode byte is looked at
together with the byte behind it. -/
theorem readOpcode_append {mode : MachineMode} {plain : Bool} {code : OpcodeBytes} {tail : List Byte}
    (h : readOpcode mode plain (code.payload ++ [code.opcode]) = some (code, []))
    (hescape : code.payload = [] → vectorEscape mode code.opcode (tail.headD 0) = none) :
    readOpcode mode plain (code.payload ++ [code.opcode] ++ tail) = some (code, tail) := by
  cases hbytes : code.payload ++ [code.opcode] with
  | nil => simp at hbytes
  | cons b bs =>
    rw [hbytes] at h
    cases bs with
    | nil =>
      -- the opcode byte alone
      have hpayload : code.payload = [] := by
        have hlength := congrArg List.length hbytes
        simp only [List.length_append, List.length_singleton] at hlength
        exact List.length_eq_zero_iff.mp (by omega)
      have hopcode : code.opcode = b := by simpa [hpayload] using hbytes
      have hnone := hescape hpayload
      rw [hopcode] at hnone
      unfold readOpcode at h ⊢
      simp only [List.cons_append, List.nil_append, hnone]
      cases hv : vectorEscape mode b (([] : List Byte).headD 0) with
      | some enc =>
        simp only [hv] at h
        split_ifs at h with hlength
        have hbounds := payloadLength_bounds b
        have hshort := hlength.2
        rw [List.length_nil] at hshort
        omega
      | none =>
        simp only [hv] at h
        split_ifs at h ⊢ with h0F
        simp only [Option.some.injEq, Prod.mk.injEq, and_true] at h ⊢
        exact h
    | cons x xs =>
      unfold readOpcode at h ⊢
      simp only [List.cons_append, List.headD_cons] at h ⊢
      cases hv : vectorEscape mode b x with
      | some enc =>
        simp only [hv] at h ⊢
        split_ifs at h with hlength
        have hle : payloadLength b ≤ (x :: (xs ++ tail)).length := by
          rw [← List.cons_append, List.length_append]
          omega
        have hdropLe : payloadLength b - 1 ≤ (x :: xs).length := by omega
        rw [if_pos ⟨hlength.1, hle⟩, ← List.cons_append, List.take_append_of_le_length hdropLe,
          List.drop_append_of_le_length hdropLe]
        cases hdrop : (x :: xs).drop (payloadLength b - 1) with
        | nil => simp [hdrop] at h
        | cons op rest =>
          simp only [hdrop, Option.some.injEq, Prod.mk.injEq] at h
          obtain ⟨rfl, rfl⟩ := h
          rfl
      | none =>
        simp only [hv] at h ⊢
        split_ifs at h ⊢ with h0F h38 h3A h3D
        · cases xs with
          | nil => simp at h
          | cons op rest =>
            simp only [Option.some.injEq, Prod.mk.injEq] at h
            rw [← h.1, h.2]
            rfl
        · cases xs with
          | nil => simp at h
          | cons op rest =>
            simp only [Option.some.injEq, Prod.mk.injEq] at h
            rw [← h.1, h.2]
            rfl
        · simp only [Option.some.injEq, Prod.mk.injEq] at h
          rw [← h.1, h.2]
          rfl
        · simp only [Option.some.injEq, Prod.mk.injEq] at h
          rw [← h.1, h.2]
          rfl
        · -- a one-byte opcode leaves the second byte, and nothing was left
          simp only [Option.some.injEq, Prod.mk.injEq, reduceCtorEq, and_false] at h

/-- Neither legacy mode is long mode, so both read the same opcodes. -/
theorem readOpcode_legacy (plain : Bool) (bs : List Byte) :
    readOpcode .legacy16 plain bs = readOpcode .legacy32 plain bs := by
  have hescape (b next : Byte) : vectorEscape .legacy16 b next = vectorEscape .legacy32 b next := by
    simp only [vectorEscape, reduceCtorEq, false_or]
  cases bs with
  | nil => rfl
  | cons b rest =>
    unfold readOpcode
    simp only [hescape]

/-! ## Memory forms -/

/-- The ModRM byte of another memory form of the same operands. -/
structure SameForm (modrm modrm' : Byte) : Prop where
  memory : modField modrm ≠ 3
  memory' : modField modrm' ≠ 3
  reg : regField modrm' = regField modrm
  rm : rmField modrm' = rmField modrm

theorem SameForm.refl {modrm : Byte} (h : modField modrm ≠ 3) : SameForm modrm modrm := ⟨h, h, rfl, rfl⟩

/-- The form with a displacement of four bytes. -/
theorem sameForm_wide {modrm : Byte} (h : modField modrm ≠ 3) : SameForm modrm (modrm &&& 0x3F ||| 0x80) := by
  have hfields : ∀ m : Byte, modField (m &&& 0x3F ||| 0x80) = 2 ∧ regField (m &&& 0x3F ||| 0x80) = regField m ∧
      rmField (m &&& 0x3F ||| 0x80) = rmField m := by decide +kernel
  obtain ⟨hmod, hreg, hrm⟩ := hfields modrm
  exact ⟨h, by omega, hreg, hrm⟩

theorem modField_wide (modrm : Byte) : modField (modrm &&& 0x3F ||| 0x80) = 2 := by
  have hfield : ∀ m : Byte, modField (m &&& 0x3F ||| 0x80) = 2 := by decide +kernel
  exact hfield modrm

/-- The vector escapes tell memory forms from register forms, not from each other. -/
theorem SameForm.vectorEscape_eq_none {modrm modrm' : Byte} (h : SameForm modrm modrm') {mode : MachineMode}
    {b : Byte} (hnone : vectorEscape mode b modrm = none) : vectorEscape mode b modrm' = none := by
  have hhigh : ∀ m : Byte, modField m ≠ 3 → ¬0xC0 ≤ (m &&& 0xF0).toNat := by decide +kernel
  have hlow : ∀ m : Byte, (m &&& 0x1F).toNat = regField m % 4 * 8 + rmField m := by decide +kernel
  unfold vectorEscape at hnone ⊢
  simp only [hhigh modrm h.memory, or_false] at hnone
  simp only [hhigh modrm' h.memory', or_false, hlow, h.reg, h.rm]
  rw [hlow] at hnone
  exact hnone

/-- The rows of memory forms: the tables tell them from register forms only, and an opcode has a
ModRM byte in both legacy modes or in neither. -/
structure MemoryRows (table : Table) : Prop where
  lookup : ∀ {modrm modrm' : Byte}, SameForm modrm modrm' → ∀ (mode : MachineMode) (key : Key),
    table.lookup mode { key with modrm := some modrm' } = table.lookup mode { key with modrm := some modrm }
  hasModrm : table.hasModrm .legacy16 = table.hasModrm .legacy32

/-! ## Segment prefixes -/

theorem contains_erase {b p : Byte} (prefixes : List Byte) (h : b ≠ p) :
    (prefixes.erase p).contains b = prefixes.contains b := by
  rw [Bool.eq_iff_iff, List.contains_iff_mem, List.contains_iff_mem, List.mem_erase_of_ne h]

theorem effectiveRepeat_erase {p : Byte} (prefixes : List Byte) (h : p ≠ 0xF2 ∧ p ≠ 0xF3) :
    effectiveRepeat (prefixes.erase p) = effectiveRepeat prefixes := by
  unfold effectiveRepeat
  rw [← List.erase_filter, List.erase_of_not_mem]
  intro hmem
  have hrepeat := of_decide_eq_true (List.mem_filter.mp hmem).2
  exact hrepeat.elim h.1 h.2

/-- A segment prefix is none of the prefixes an opcode is looked up with. -/
theorem segmentPrefix_ne {p : Byte} (h : (segmentOfPrefix p).isSome) :
    p ≠ 0x66 ∧ p ≠ 0x67 ∧ p ≠ 0xF0 ∧ p ≠ 0xF2 ∧ p ≠ 0xF3 := by
  refine ⟨?_, ?_, ?_, ?_, ?_⟩ <;> rintro rfl <;> cases h

/-! ## Decoding the other form -/

/-- An opcode without a payload was not taken for a vector escape. -/
theorem readOpcode_single {mode : MachineMode} {plain : Bool} {b : Byte} {bs rest : List Byte} {code : OpcodeBytes}
    (h : readOpcode mode plain (b :: bs) = some (code, rest)) (hpayload : code.payload = []) :
    vectorEscape mode b (bs.headD 0) = none := by
  unfold readOpcode at h
  cases hv : vectorEscape mode b (bs.headD 0) with
  | none => rfl
  | some enc =>
    simp only [hv] at h
    split_ifs at h
    cases hdrop : bs.drop (payloadLength b - 1) with
    | nil => simp [hdrop] at h
    | cons op bs' =>
      simp only [hdrop, Option.some.injEq, Prod.mk.injEq] at h
      rw [← h.1] at hpayload
      cases hpayload

theorem effectiveRex_legacy {mode : MachineMode} (h : mode ≠ .long64) (prefixes : List Byte) :
    effectiveRex mode prefixes = none := if_neg h

namespace Instruction

/-- An instruction without one of its prefixes and with another memory operand. -/
def reencode (e : Instruction) (p modrm : Byte) (sib : Option Byte) (disp : List Byte)
    (imms : List (ImmSpec × List Byte)) : Instruction :=
  { e with prefixes := e.prefixes.erase p, modrm := some modrm, sib := sib, disp := disp, imms := imms }

/-- The bytes in front of its ModRM byte. -/
def reencodedHead (e : Instruction) (p : Byte) : List Byte :=
  e.prefixes.erase p ++ (e.code.payload ++ [e.code.opcode])

end Instruction

section
variable {table : Table} {bytes : List Byte} {e : Instruction} {p modrm modrm' : Byte}

theorem plainPrefixes_erase (prefixes : List Byte) (hp : (segmentOfPrefix p).isSome) :
    plainPrefixes .legacy32 (prefixes.erase p) = plainPrefixes .legacy32 prefixes := by
  obtain ⟨h66, -, hF0, hF2, hF3⟩ := segmentPrefix_ne hp
  unfold plainPrefixes
  rw [contains_erase prefixes h66.symm, contains_erase prefixes hF0.symm, effectiveRepeat_erase prefixes ⟨hF2, hF3⟩,
    effectiveRex_legacy (by decide), effectiveRex_legacy (by decide)]

theorem lookupKey_erase (prefixes : List Byte) (hp : (segmentOfPrefix p).isSome) (code : OpcodeBytes)
    (m : Option Byte) :
    lookupKey .legacy32 (prefixes.erase p) code m = lookupKey .legacy32 prefixes code m := by
  obtain ⟨h66, h67, hF0, hF2, hF3⟩ := segmentPrefix_ne hp
  unfold lookupKey
  rw [contains_erase prefixes h66.symm, contains_erase prefixes h67.symm, contains_erase prefixes hF0.symm,
    effectiveRepeat_erase prefixes ⟨hF2, hF3⟩, effectiveRex_legacy (by decide), effectiveRex_legacy (by decide)]

/-- The decoder finds the same row behind the re-encoded head, and reads the new operand with it. -/
theorem decode_reencode (hrows : MemoryRows table) (h : decode table .legacy32 bytes = some e)
    (hmodrm : e.modrm = some modrm) (hp : (segmentOfPrefix p).isSome) (hform : SameForm modrm modrm')
    (tail : List Byte) :
    decode table .legacy32 (e.reencodedHead p ++ modrm' :: tail) =
      (readModrm e.addressWidth e.definition.forceRegForm modrm' tail).bind fun operand =>
        (readImms (operandSizeRow e.definition.operandSizeMap .legacy32 e.hasOperandSize false)
          e.definition.imms operand.2.2).bind fun imms =>
            let insn := e.reencode p modrm' operand.1 operand.2.1 imms.1
            if insn.length ≤ maxInstructionLength then some insn else none := by
  obtain ⟨rest₁, rest₂, rest₃, rest₄, hd⟩ := decode_iff.mp h
  obtain ⟨h66, h67, -⟩ := segmentPrefix_ne hp
  obtain ⟨hused, hopcode⟩ := readOpcode_consumes _ _ hd.opcode
  beta_reduce at hused hopcode
  -- the opcode, in front of the new ModRM byte
  have hbyte := hd.modrm
  rw [hmodrm] at hbyte
  have hpresent : table.hasModrm .legacy32 e.code.encoding e.code.map e.code.opcode = true := by
    by_contra hnot
    simp [readModrmByte, hnot] at hbyte
  obtain ⟨hrest, -⟩ := readModrmByte_consumes _ hbyte
  have hcode : readOpcode .legacy32 (plainPrefixes .legacy32 (e.prefixes.erase p))
      (e.code.payload ++ [e.code.opcode] ++ modrm' :: tail) = some (e.code, modrm' :: tail) := by
    rw [plainPrefixes_erase _ hp]
    apply readOpcode_append
    · simpa using hopcode [] List.nil_prefix
    · intro hpayload
      have hread := hd.opcode
      rw [hused, hpayload, hrest] at hread
      exact hform.vectorEscape_eq_none (readOpcode_single hread hpayload)
  have hprefixes : ∀ b ∈ e.prefixes.erase p, isPrefix .legacy32 b = true := by
    intro b hb
    have hmem := List.mem_of_mem_erase hb
    rw [hd.prefixes_eq] at hmem
    exact List.mem_takeWhile_imp hmem
  have hhead : ∀ b ∈ (e.code.payload ++ [e.code.opcode] ++ modrm' :: tail).head?, isPrefix .legacy32 b = false := by
    intro b hb
    have hdrop : b ∈ (bytes.dropWhile (isPrefix .legacy32)).head? := by
      rw [hused]
      cases hpayload : e.code.payload with
      | nil => simpa [hpayload] using hb
      | cons x xs => simpa [hpayload] using hb
    have hnot := List.head?_dropWhile_not (isPrefix .legacy32) bytes
    rw [Option.mem_def.mp hdrop] at hnot
    simpa using hnot
  obtain ⟨htake, hdrop⟩ := takeWhile_append_of_ne hprefixes hhead
  -- its row
  have hlookup : table.lookup .legacy32 (lookupKey .legacy32 (e.prefixes.erase p) e.code (some modrm')) =
      some e.definition := by
    have hrow := hd.definition
    rw [hmodrm] at hrow
    rw [lookupKey_erase _ hp, ← hrow]
    exact hrows.lookup hform .legacy32 (lookupKey .legacy32 e.prefixes e.code none)
  have hwidth := hd.width
  have hmode := hd.mode_eq
  rw [Instruction.reencodedHead, List.append_assoc, decode]
  simp only [htake, hdrop, hcode, readModrmByte, hpresent, if_true, hlookup, readAddressing,
    contains_erase _ h67.symm, ← hwidth, Option.bind_eq_bind, Option.bind_some, Instruction.hasOperandSize,
    contains_erase _ h66.symm, Instruction.rexW, effectiveRex_legacy (show MachineMode.legacy32 ≠ .long64 by decide)]
  rw [← hmode]
  rfl

end

/-! ## Wider displacements -/

/-- What ModRM reading leaves: a SIB byte where the form has one, and its displacement. -/
theorem readModrm_shape {width : ℕ} {modrm : Byte} {bs rest disp : List Byte} {sib : Option Byte}
    (h : readModrm width false modrm bs = some (sib, disp, rest)) :
    sib.isSome = hasSib width modrm ∧ disp.length = dispSize width modrm (sib.getD 0) := by
  have hlength {n : ℕ} {bs v rest : List Byte} (h : readBytes n bs = some (v, rest)) : v.length = n := by
    unfold readBytes at h
    split_ifs at h with hn
    simp only [Option.some.injEq, Prod.mk.injEq] at h
    rw [← h.1, List.length_take]
    omega
  unfold readModrm at h
  cases hs : hasSib width modrm with
  | true =>
    cases bs with
    | nil => simp [hs] at h
    | cons b bs =>
      simp only [hs, Bool.false_eq_true, if_false, if_true, Option.bind_eq_bind, Option.bind_eq_some_iff,
        Option.pure_def, Option.some.injEq, Prod.mk.injEq] at h
      obtain ⟨⟨d, bs₁⟩, hd, rfl, rfl, rfl⟩ := h
      exact ⟨rfl, hlength hd⟩
  | false =>
    simp only [hs, Bool.false_eq_true, if_false, Option.bind_eq_bind, Option.bind_eq_some_iff, Option.pure_def,
      Option.some.injEq, Prod.mk.injEq] at h
    obtain ⟨⟨d, bs₁⟩, hd, rfl, rfl, rfl⟩ := h
    exact ⟨rfl, hlength hd⟩

theorem readModrm_of_shape {width : ℕ} {modrm : Byte} {disp : List Byte} {sib : Option Byte}
    (hsib : sib.isSome = hasSib width modrm) (hdisp : disp.length = dispSize width modrm (sib.getD 0))
    (rest : List Byte) :
    readModrm width false modrm (sib.toList ++ disp ++ rest) = some (sib, disp, rest) := by
  have hread : readBytes disp.length (disp ++ rest) = some (disp, rest) := by
    rw [readBytes, List.length_append, if_pos (Nat.le_add_right _ _), List.take_left, List.drop_left]
  unfold readModrm
  cases sib with
  | none =>
    rw [Option.isSome_none] at hsib
    simp only [Bool.false_eq_true, if_false, ← hsib, Option.toList_none, List.nil_append]
    rw [Option.getD_none] at hdisp
    rw [← hdisp, hread]
    rfl
  | some s =>
    rw [Option.isSome_some] at hsib
    simp only [Bool.false_eq_true, if_false, ← hsib, if_true, Option.toList_some, List.cons_append, List.nil_append]
    rw [Option.getD_some] at hdisp
    rw [← hdisp, hread]
    rfl

/-- The ModRM byte of the form with a displacement of four bytes: itself where there is one already. -/
def wideModrm (modrm : Byte) (disp : List Byte) : Byte :=
  if disp.length = 4 then modrm else modrm &&& 0x3F ||| 0x80

theorem sameForm_wideModrm {modrm : Byte} (h : modField modrm ≠ 3) (disp : List Byte) :
    SameForm modrm (wideModrm modrm disp) := by
  unfold wideModrm
  split_ifs
  · exact SameForm.refl h
  · exact sameForm_wide h

theorem SameForm.hasSib_eq {modrm modrm' : Byte} (h : SameForm modrm modrm') (width : ℕ) :
    hasSib width modrm' = hasSib width modrm := by
  unfold hasSib
  rw [h.rm, decide_eq_decide]
  exact and_congr_right fun _ => and_congr_left fun _ => iff_of_true h.memory' h.memory

theorem dispSize_wideModrm {modrm : Byte} {sib : Byte} {disp : List Byte}
    (hdisp : disp.length = dispSize 32 modrm sib) : dispSize 32 (wideModrm modrm disp) sib = 4 := by
  unfold wideModrm
  split_ifs with hwide
  · omega
  · have hmod := modField_wide modrm
    unfold dispSize
    rw [if_neg (by decide), hmod]
    by_cases hbase : hasSib 32 (modrm &&& 0x3F ||| 0x80) ∧ rmField sib = 5
    · rw [if_pos hbase, if_neg (by decide)]
    · exact if_neg hbase

/-- The registers of the operand stay: a form without a base has four displacement bytes. -/
theorem baseIndex_wideModrm {modrm : Byte} (hmod : modField modrm ≠ 3) {sib : Byte} {disp : List Byte}
    (hdisp : disp.length = dispSize 32 modrm sib) (registers : Registers) :
    baseIndex registers (wideModrm modrm disp) sib = baseIndex registers modrm sib := by
  have hform := sameForm_wide hmod
  have hwide := modField_wide modrm
  unfold wideModrm
  split_ifs with hfour
  · rfl
  · have hbase : ¬(modField modrm = 0 ∧ rmField modrm = 5) := by
      rintro ⟨hm, hrm⟩
      apply hfour
      rw [hdisp, dispSize, if_neg (by decide), if_neg (by simp [hasSib, hrm]), hm, hrm]
      rfl
    have hsib : rmField modrm = 4 → ¬(modField modrm = 0 ∧ rmField sib = 5) := by
      rintro hrm ⟨hm, hb⟩
      apply hfour
      rw [hdisp, dispSize, if_neg (by decide), if_pos (by simp [hasSib, hm, hrm, hb]), hm]
      rfl
    unfold baseIndex sibBaseIndex
    rw [hform.rm, hwide]
    by_cases hrm : rmField modrm = 4
    · simp only [hrm, if_true, hsib hrm, if_false, OfNat.ofNat_ne_zero, false_and]
    · simp only [hrm, if_false, hbase, OfNat.ofNat_ne_zero, false_and]

/-- The bytes of the immediates. -/
def Instruction.immBytes (i : Instruction) : List Byte := (i.imms.map Prod.snd).flatten

/-- An instruction with the displacement of its memory operand replaced by four bytes. -/
def Instruction.folded (e : Instruction) (p modrm : Byte) (v : Word) : Instruction :=
  e.reencode p (wideModrm modrm e.disp) e.sib (le32 v) e.imms

theorem addressSizeRow_legacy32 (row : Fin 3) (p67 : Bool) :
    addressSizeRow row .legacy32 p67 = 16 ∨ addressSizeRow row .legacy32 p67 = 32 := by
  revert row p67
  decide

theorem addressSizeRow_legacy16 (row : Fin 3) (p67 : Bool) :
    addressSizeRow row .legacy16 p67 = 16 ∨ addressSizeRow row .legacy16 p67 = 32 := by
  revert row p67
  decide

section
variable {table : Table} {bytes : List Byte} {e : Instruction} {p modrm : Byte}

/-- With 32-bit addressing the decoder reads the folded instruction back. -/
theorem decode_folded (hrows : MemoryRows table) (h : decode table .legacy32 bytes = some e)
    (hmodrm : e.modrm = some modrm) (hp : (segmentOfPrefix p).isSome) (hmod : modField modrm ≠ 3)
    (hwidth : e.addressWidth = 32) (hforce : e.definition.forceRegForm = false) (v : Word) (tail : List Byte) :
    decode table .legacy32 (e.reencodedHead p ++ wideModrm modrm e.disp ::
        (e.sib.toList ++ le32 v ++ (e.immBytes ++ tail))) =
      if (e.folded p modrm v).length ≤ maxInstructionLength then some (e.folded p modrm v) else none := by
  obtain ⟨rest₁, rest₂, rest₃, rest₄, hd⟩ := decode_iff.mp h
  have haddressing := hd.addressing
  rw [hmodrm, readAddressing, hwidth, hforce] at haddressing
  obtain ⟨hsib, hdisp⟩ := readModrm_shape haddressing
  have hform := sameForm_wideModrm hmod e.disp
  have hoperand := @readModrm_of_shape 32 (wideModrm modrm e.disp) (le32 v) e.sib
    (hsib.trans (hform.hasSib_eq 32).symm) (dispSize_wideModrm hdisp).symm (e.immBytes ++ tail)
  -- the immediates, in front of other bytes
  have hrex : e.rexW = false := by
    rw [Instruction.rexW, hd.mode_eq, effectiveRex_legacy (by decide)]
  have himms := hd.imms
  rw [hrex] at himms
  have hread := (readImms_consumes _ _ himms).2 [] List.nil_prefix
  rw [List.append_nil] at hread
  have htail := readImms_append hread tail
  rw [List.nil_append] at htail
  rw [decode_reencode hrows h hmodrm hp hform, hwidth, hforce, hoperand, Option.bind_some]
  show (readImms _ _ (e.immBytes ++ tail)).bind _ = _
  rw [show readImms _ _ (e.immBytes ++ tail) = some (e.imms, tail) from htail, Option.bind_some]
  rfl

/-- What is read back has the immediates of the old one, and with other addressing too short an
operand. -/
theorem decode_reencode_length (hrows : MemoryRows table) (h : decode table .legacy32 bytes = some e)
    (hmodrm : e.modrm = some modrm) (hp : (segmentOfPrefix p).isSome) {modrm' : Byte}
    (hform : SameForm modrm modrm') {tail : List Byte} {j : Instruction}
    (hj : decode table .legacy32 (e.reencodedHead p ++ modrm' :: tail) = some j) :
    (e.reencodedHead p).length + 1 ≤ j.length ∧
      ((e.addressWidth = 32 ∧ e.definition.forceRegForm = false) ∨
        j.length < (e.reencodedHead p).length + 5 + e.immLength) := by
  obtain ⟨rest₁, rest₂, rest₃, rest₄, hd⟩ := decode_iff.mp h
  rw [decode_reencode hrows h hmodrm hp hform] at hj
  obtain ⟨⟨sib, disp, rest⟩, hoperand, hj⟩ := Option.bind_eq_some_iff.mp hj
  obtain ⟨⟨imms, rest'⟩, himms, hj⟩ := Option.bind_eq_some_iff.mp hj
  dsimp only at himms hj
  split_ifs at hj
  rw [Option.some.injEq] at hj
  have hrex : e.rexW = false := by
    rw [Instruction.rexW, hd.mode_eq, effectiveRex_legacy (by decide)]
  have hold := hd.imms
  rw [hrex] at hold
  have himmLength : (imms.map fun q => q.2.length).sum = e.immLength := by
    rw [readImms_length himms, Instruction.immLength, readImms_length hold]
  have hlength : j.length = (e.reencodedHead p).length + 1 + sib.toList.length + disp.length + e.immLength := by
    rw [← hj, ← himmLength]
    simp only [Instruction.length, Instruction.reencode, Instruction.codeLength, Instruction.immLength,
      Instruction.reencodedHead, List.length_append, List.length_singleton, Option.toList_some]
  refine ⟨by omega, ?_⟩
  rw [hlength]
  cases hforce : e.definition.forceRegForm with
  | true =>
    right
    simp only [readModrm, hforce, if_true, Option.pure_def, Option.some.injEq, Prod.mk.injEq] at hoperand
    rw [← hoperand.1, ← hoperand.2.1]
    simp
  | false =>
    rw [hforce] at hoperand
    obtain ⟨hsib, hdisp⟩ := readModrm_shape hoperand
    have hwidth := addressSizeRow_legacy32 e.definition.addressSizeMap (e.prefixes.contains 0x67)
    rw [← hd.width] at hwidth
    rcases hwidth with hwidth | hwidth
    · right
      rw [hwidth] at hsib hdisp
      have hnone : sib = none := Option.isNone_iff_eq_none.mp (by simpa [hasSib] using hsib)
      have hshort : dispSize 16 modrm' (sib.getD 0) ≤ 2 := by
        unfold dispSize
        rw [if_pos rfl]
        split <;> first | omega | (split_ifs <;> omega)
      rw [hnone, Option.toList_none, List.length_nil]
      omega
    · exact Or.inl ⟨hwidth, rfl⟩

end

/-! ## The two legacy modes -/

/-- The legacy modes read the same prefixes, opcode and ModRM byte; with 32-bit addressing they read
the same operand too, where the immediates agree. -/
theorem decode_legacy_parts {table : Table} (hrows : MemoryRows table) {mode : MachineMode}
    (hmode : mode ≠ .long64) {bytes : List Byte} {i e : Instruction} (hi : decode table mode bytes = some i)
    (he : decode table .legacy32 bytes = some e) :
    i.prefixes = e.prefixes ∧ i.code = e.code ∧ i.modrm = e.modrm ∧
      (i.addressWidth = 16 ∨ i.addressWidth = 32) ∧
      (∀ modrm, i.modrm = some modrm → i.addressWidth = 32 → e.addressWidth = 32 →
        e.definition.forceRegForm = false → i.imms = e.imms → i.length = e.length →
          i.sib = e.sib ∧ i.disp = e.disp) := by
  obtain ⟨r₁, r₂, r₃, r₄, hdi⟩ := decode_iff.mp hi
  obtain ⟨s₁, s₂, s₃, s₄, hde⟩ := decode_iff.mp he
  have hisPrefix : isPrefix mode = isPrefix .legacy32 := by
    cases mode with
    | long64 => exact absurd rfl hmode
    | _ => rfl
  have hplain (prefixes : List Byte) : plainPrefixes mode prefixes = plainPrefixes .legacy32 prefixes := by
    unfold plainPrefixes
    rw [effectiveRex_legacy hmode, effectiveRex_legacy (by decide)]
  have hread (plain : Bool) (bs : List Byte) : readOpcode mode plain bs = readOpcode .legacy32 plain bs := by
    cases mode with
    | legacy16 => exact readOpcode_legacy plain bs
    | legacy32 => rfl
    | long64 => exact absurd rfl hmode
  have hpresent : table.hasModrm mode = table.hasModrm .legacy32 := by
    cases mode with
    | legacy16 => exact hrows.hasModrm
    | legacy32 => rfl
    | long64 => exact absurd rfl hmode
  have hprefixes : i.prefixes = e.prefixes := by
    rw [hdi.prefixes_eq, hde.prefixes_eq, hisPrefix]
  have hopcode := hdi.opcode
  rw [hisPrefix, hprefixes, hplain, hread, hde.opcode, Option.some.injEq, Prod.mk.injEq] at hopcode
  obtain ⟨hcode, rfl⟩ := hopcode
  have hmodrm := hdi.modrm
  rw [← hcode, hpresent, hde.modrm, Option.some.injEq, Prod.mk.injEq] at hmodrm
  obtain ⟨hmodrm, rfl⟩ := hmodrm
  refine ⟨hprefixes, hcode.symm, hmodrm.symm, ?_, ?_⟩
  · rw [hdi.width]
    cases mode with
    | legacy16 => exact addressSizeRow_legacy16 _ _
    | legacy32 => exact addressSizeRow_legacy32 _ _
    | long64 => exact absurd rfl hmode
  · intro modrm hm hwidth hwidth' hforce himms hlength
    have hai := hdi.addressing
    have hae := hde.addressing
    rw [hm, readAddressing, hwidth] at hai
    rw [hmodrm, hm, readAddressing, hwidth', hforce] at hae
    cases hforce' : i.definition.forceRegForm with
    | false =>
      rw [hforce', hae, Option.some.injEq, Prod.mk.injEq, Prod.mk.injEq] at hai
      exact ⟨hai.1.symm, hai.2.1.symm⟩
    | true =>
      simp only [readModrm, hforce', if_true, Option.pure_def, Option.some.injEq, Prod.mk.injEq] at hai
      obtain ⟨hsib, hdisp, -⟩ := hai
      -- no operand bytes here, so none there
      simp only [Instruction.length, Instruction.codeLength, Instruction.immLength, hprefixes, hcode, hmodrm, himms,
        ← hsib, ← hdisp, Option.toList_none, List.length_nil] at hlength
      have hsibNone : e.sib.toList.length = 0 := by omega
      have hdispNil : e.disp.length = 0 := by omega
      rw [← hsib, ← hdisp, List.length_eq_zero_iff.mp hdispNil]
      refine ⟨?_, rfl⟩
      cases hes : e.sib with
      | none => rfl
      | some b => simp [hes] at hsibNone

/-! ## Addresses of operands -/

namespace Instruction

/-- The displacement of a memory operand.  `scale` is the factor of a displacement byte: 1, except
in the compressed displacements of EVEX. -/
def operandDisplacement (scale : Instruction → Word) (i : Instruction) : Word :=
  match i.disp with
  | [b] => b.signExtend 32 * scale i
  | [b0, b1] => (b1 ++ b0).signExtend 32
  | disp => dispValue disp

/-- The effective address of the ModRM operand. -/
def operandAddress (scale : Instruction → Word) (registers : Registers) (i : Instruction) : Word :=
  if i.addressWidth = 16 then
    (baseIndex16 registers (i.modrm.getD 0) + (i.operandDisplacement scale).setWidth 16).setWidth 32
  else baseIndex registers (i.modrm.getD 0) (i.sib.getD 0) + i.operandDisplacement scale

/-- The segment register of the ModRM operand, by number. -/
def operandSegment (i : Instruction) : ℕ :=
  match i.modrmMemory.segment with
  | .segment s => s
  | _ => 3

end Instruction

/-- The segment of an operand is an override that the row accepts, or else DS or SS. -/
theorem operandSegment_lt_iff (i : Instruction) :
    i.operandSegment < 4 ↔
      (i.definition.acceptsSegment → ∀ s, effectiveSegment i.mode i.prefixes = some s → s < 4) := by
  have hdefault (base : Register) (hnone : (if i.definition.acceptsSegment then
      effectiveSegment i.mode i.prefixes else none) = none) :
      (match i.memorySegment base with | .segment s => s | _ => 3) < 4 := by
    unfold Instruction.memorySegment
    rw [hnone]
    have hstack (id : ℕ) : (match if id = 4 ∨ id = 5 then Register.segment 2 else .segment 3 with
        | .segment s => s
        | _ => 3) < 4 := by
      split_ifs <;> decide
    cases base with
    | gpr16 id => exact hstack id
    | gpr32 id => exact hstack id
    | gpr64 id => exact hstack id
    | _ => exact show 3 < 4 by decide
  unfold Instruction.operandSegment Instruction.modrmMemory
  cases haccepts : i.definition.acceptsSegment with
  | false =>
    rw [haccepts] at hdefault
    exact iff_of_true (hdefault _ rfl) fun h => absurd h (by decide)
  | true =>
    rw [haccepts] at hdefault
    cases hs : effectiveSegment i.mode i.prefixes with
    | none =>
      refine iff_of_true (hdefault _ hs) ?_
      intro _ s hs'
      cases hs'
    | some s =>
      have hsegment : i.memorySegment i.memoryFields.1 = .segment s := by
        unfold Instruction.memorySegment
        simp only [haccepts, if_true, hs]
      simp only [hsegment, forall_const, Option.some.injEq, forall_eq']

/-- The operands that name no register. -/
theorem baseIndex_eq_zero {modrm sib : Byte} (h : baseIndex (fun _ => 0x10000) modrm sib = 0) :
    (rmField modrm = 4 ∨ rmField modrm = 5) ∧ ∀ registers : Registers, baseIndex registers modrm sib = 0 := by
  have hscale : ∀ n < 4, (0x10000 : Word) + 0x10000 <<< n ≠ 0 ∧ (0x10000 : Word) <<< n ≠ 0 := by decide
  have hlt : modField sib < 4 := by
    have := sib.isLt
    unfold modField
    omega
  unfold baseIndex sibBaseIndex at h ⊢
  split_ifs at h ⊢ with hrm hbase hindex hindex hbare
  · exact ⟨Or.inl hrm, fun _ => by simp⟩
  · rw [zero_add] at h
    exact absurd h (hscale _ hlt).2
  · cases h
  · exact absurd h (hscale _ hlt).1
  · exact ⟨Or.inr hbare.2, fun _ => rfl⟩
  · cases h

/-- 16-bit addressing sees the halves of the registers only, so an operand stands for another address
with 32-bit addressing in some state. -/
theorem operandAddress16_ne (modrm sib : Byte) (b c : Word) (d : BitVec 16) :
    ¬∀ registers : Registers,
      baseIndex registers modrm sib + c = b + (baseIndex16 registers modrm + d).setWidth 32 := by
  intro hall
  have hhalf : baseIndex16 (fun _ => 0x10000) modrm = baseIndex16 (fun _ => 0) modrm := by
    unfold baseIndex16
    split <;> simp
  have hzero : baseIndex (fun _ => 0) modrm sib = 0 := by
    unfold baseIndex sibBaseIndex
    split_ifs <;> simp
  have h0 := hall fun _ => 0
  have hhigh := hall fun _ => 0x10000
  rw [hhalf, ← h0, hzero] at hhigh
  obtain ⟨hrm, hnone⟩ := baseIndex_eq_zero (add_right_cancel hhigh)
  -- an operand without a register: 16-bit addressing names SI or DI there
  have h1 := hall fun _ => 1
  rw [hnone] at h0 h1
  have heq : baseIndex16 (fun _ => 0) modrm = baseIndex16 (fun _ => 1) modrm := by
    have hwidth := add_left_cancel (h0.symm.trans h1)
    have htrunc := congrArg (BitVec.setWidth 16) hwidth
    simp only [BitVec.setWidth_setWidth_of_le _ (show 16 ≤ 32 by decide), BitVec.setWidth_eq] at htrunc
    exact add_right_cancel htrunc
  unfold baseIndex16 at heq
  rcases hrm with hrm | hrm <;> simp [hrm] at heq

end Repiu.X86
