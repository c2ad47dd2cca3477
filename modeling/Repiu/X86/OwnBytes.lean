import Repiu.X86.Reencoding

/-!
# Decoding is a function of the instruction's own bytes

An instruction is decoded the same behind any change of the bytes that follow it, where the opcodes that
can also be the escape of a vector instruction have a ModRM byte, which tells them apart.
-/

namespace Repiu.X86

/-- The decoder gives the same instruction wherever its bytes are. -/
def DecodesOwnBytes (table : Table) : Prop :=
  ∀ (mode : MachineMode) (input : List Byte) (i : Instruction), decode table mode input = some i →
    ∀ tail, decode table mode (i.bytes ++ tail) = some i

/-- An opcode that can be a vector escape has a ModRM byte where it has a row. -/
def EscapesHaveModrm (table : Table) : Prop :=
  ∀ (mode : MachineMode) (key : Key) (next : Byte), key.encoding = .legacy → key.map = .default →
    vectorEscape mode key.opcode next ≠ none → (table.lookup mode key).isSome →
      table.hasModrm mode .legacy .default key.opcode = true

/-! ## The readers -/

theorem readModrmByte_append {present : Bool} {bs rest : List Byte} {modrm : Option Byte}
    (h : readModrmByte present bs = some (modrm, rest)) (tail : List Byte) :
    readModrmByte present (bs ++ tail) = some (modrm, rest ++ tail) := by
  obtain ⟨rfl, -⟩ := readModrmByte_consumes _ h
  cases present with
  | false =>
    obtain ⟨rfl, -⟩ : none = modrm ∧ modrm.toList ++ rest = rest := by simpa [readModrmByte] using h
    rfl
  | true =>
    cases modrm with
    | none =>
      cases rest with
      | nil => cases h
      | cons m rest => cases h
    | some m => rfl

theorem readModrm_append {addressWidth : ℕ} {forceReg : Bool} {modrm : Byte} {bs disp rest : List Byte}
    {sib : Option Byte} (h : readModrm addressWidth forceReg modrm bs = some (sib, disp, rest)) (tail : List Byte) :
    readModrm addressWidth forceReg modrm (bs ++ tail) = some (sib, disp, rest ++ tail) := by
  unfold readModrm at h ⊢
  by_cases hforce : forceReg = true
  · simp only [hforce, if_true, Option.pure_def, Option.some.injEq, Prod.mk.injEq] at h ⊢
    obtain ⟨rfl, rfl, rfl⟩ := h
    exact ⟨rfl, rfl, rfl⟩
  simp only [if_neg hforce] at h ⊢
  by_cases hsib : hasSib addressWidth modrm = true
  · simp only [if_pos hsib] at h ⊢
    cases bs with
    | nil => cases h
    | cons b bs =>
      simp only [List.cons_append, Option.bind_eq_bind, Option.bind_eq_some_iff, Option.pure_def, Option.some.injEq,
        Prod.mk.injEq] at h ⊢
      obtain ⟨⟨d, bs'⟩, hd, rfl, rfl, rfl⟩ := h
      exact ⟨_, readBytes_append hd tail, rfl, rfl, rfl⟩
  · simp only [if_neg hsib, Option.bind_eq_bind, Option.bind_eq_some_iff, Option.pure_def, Option.some.injEq,
      Prod.mk.injEq] at h ⊢
    obtain ⟨⟨d, bs'⟩, hd, rfl, rfl, rfl⟩ := h
    exact ⟨_, readBytes_append hd tail, rfl, rfl, rfl⟩

theorem readAddressing_append {d : Definition} {addressWidth : ℕ} {modrm sib : Option Byte}
    {bs disp rest : List Byte} (h : readAddressing d addressWidth modrm bs = some (sib, disp, rest))
    (tail : List Byte) : readAddressing d addressWidth modrm (bs ++ tail) = some (sib, disp, rest ++ tail) := by
  cases modrm with
  | some m => exact readModrm_append h tail
  | none =>
    unfold readAddressing at h ⊢
    dsimp only at h ⊢
    by_cases hmoffs : d.moffs = true
    · simp only [if_pos hmoffs, Option.map_eq_some_iff, Prod.mk.injEq] at h ⊢
      obtain ⟨⟨v, bs'⟩, hv, rfl, rfl, rfl⟩ := h
      exact ⟨_, readBytes_append hv tail, rfl, rfl, rfl⟩
    · simp only [if_neg hmoffs, Option.some.injEq, Prod.mk.injEq] at h ⊢
      obtain ⟨rfl, rfl, rfl⟩ := h
      exact ⟨rfl, rfl, rfl⟩

/-- An opcode without a payload is of the default map. -/
theorem readOpcode_default {mode : MachineMode} {plain : Bool} {bs rest : List Byte} {code : OpcodeBytes}
    (h : readOpcode mode plain bs = some (code, rest)) (hpayload : code.payload = []) :
    code.encoding = .legacy ∧ code.map = .default := by
  cases bs with
  | nil => cases h
  | cons b bs =>
    have hv := readOpcode_single h hpayload
    unfold readOpcode at h
    simp only [hv] at h
    by_cases h0F : b = 0x0F
    · -- every map behind 0F has it in its payload
      rw [if_pos h0F] at h
      cases bs with
      | nil => cases h
      | cons b1 bs =>
        dsimp only at h
        split_ifs at h
        · cases bs with
          | nil => cases h
          | cons op bs =>
            simp only [Option.some.injEq, Prod.mk.injEq] at h
            rw [← h.1] at hpayload
            cases hpayload
        · cases bs with
          | nil => cases h
          | cons op bs =>
            simp only [Option.some.injEq, Prod.mk.injEq] at h
            rw [← h.1] at hpayload
            cases hpayload
        · simp only [Option.some.injEq, Prod.mk.injEq] at h
          rw [← h.1] at hpayload
          cases hpayload
        · simp only [Option.some.injEq, Prod.mk.injEq] at h
          rw [← h.1] at hpayload
          cases hpayload
    · rw [if_neg h0F] at h
      simp only [Option.some.injEq, Prod.mk.injEq] at h
      rw [← h.1]
      exact ⟨rfl, rfl⟩

/-! ## The decoder -/

/-- The byte behind an opcode without a payload does not make it an escape, whatever follows the
instruction. -/
theorem EscapesHaveModrm.vectorEscape_append {table : Table} (hescapes : EscapesHaveModrm table)
    {mode : MachineMode} {i : Instruction} {rest₁ rest₂ rest₃ rest₄ : List Byte}
    (hd : Decodes table mode i.bytes i rest₁ rest₂ rest₃ rest₄) (hpayload : i.code.payload = []) (tail : List Byte) :
    vectorEscape mode i.code.opcode ((rest₁ ++ tail).headD 0) = none := by
  obtain ⟨hencoding, hmap⟩ := readOpcode_default hd.opcode hpayload
  by_contra hescape
  have hmodrm := hescapes mode (lookupKey mode i.prefixes i.code i.modrm) _ hencoding hmap hescape
    (by rw [hd.definition]; rfl)
  have hread := hd.modrm
  rw [hencoding, hmap, show table.hasModrm mode .legacy .default i.code.opcode = true from hmodrm] at hread
  cases rest₁ with
  | nil => cases hread
  | cons m rest₁ =>
    -- the byte is the ModRM byte, which the opcode was read before
    obtain ⟨hused, -⟩ := readOpcode_consumes _ _ hd.opcode
    have hopcode := hd.opcode
    rw [hused] at hopcode
    simp only [hpayload, List.nil_append, List.singleton_append] at hopcode
    have hsingle := readOpcode_single hopcode hpayload
    exact hescape hsingle

theorem EscapesHaveModrm.decodesOwnBytes {table : Table} (hescapes : EscapesHaveModrm table) :
    DecodesOwnBytes table := by
  intro mode input i h tail
  obtain ⟨_, _, _, _, hdecodes⟩ := decode_iff.mp h
  obtain ⟨rest₁, rest₂, rest₃, rest₄, hd⟩ := decode_iff.mp hdecodes.bytes
  obtain ⟨hused, hopcode⟩ := readOpcode_consumes _ _ hd.opcode
  beta_reduce at hused hopcode
  have hsplit : i.bytes = i.prefixes ++ i.bytes.dropWhile (isPrefix mode) := by
    conv_lhs => rw [← List.takeWhile_append_dropWhile (p := isPrefix mode) (l := i.bytes), ← hd.prefixes_eq]
  have hprefixes : ∀ b ∈ i.prefixes, isPrefix mode b = true := by
    intro b hb
    rw [hd.prefixes_eq] at hb
    exact List.mem_takeWhile_imp hb
  have hhead : ∀ b ∈ (i.bytes.dropWhile (isPrefix mode) ++ tail).head?, isPrefix mode b = false := by
    intro b hb
    have hdrop : b ∈ (i.bytes.dropWhile (isPrefix mode)).head? := by
      rw [hused] at hb ⊢
      cases hp : i.code.payload with
      | nil => simpa [hp] using hb
      | cons x xs => simpa [hp] using hb
    have := List.head?_dropWhile_not (isPrefix mode) i.bytes
    rw [Option.mem_def.mp hdrop] at this
    simpa using this
  obtain ⟨htake, hdrop⟩ := takeWhile_append_of_ne hprefixes hhead
  rw [← List.append_assoc, ← hsplit] at htake hdrop
  have halone : readOpcode mode (plainPrefixes mode i.prefixes) (i.code.payload ++ [i.code.opcode]) =
      some (i.code, []) := by
    have := hopcode [] List.nil_prefix
    rwa [List.append_nil] at this
  rw [decode_iff]
  refine ⟨rest₁ ++ tail, rest₂ ++ tail, rest₃ ++ tail, rest₄ ++ tail, ⟨hd.mode_eq, htake.symm, ?_, ?_,
    hd.definition, hd.width, readAddressing_append hd.addressing tail, readImms_append hd.imms tail, hd.short⟩⟩
  · rw [hdrop, hused, List.append_assoc]
    exact readOpcode_append halone fun hpayload => hescapes.vectorEscape_append hd hpayload tail
  · exact readModrmByte_append hd.modrm tail

end Repiu.X86
