import Mathlib.Data.List.TakeWhile
import Repiu.X86.Operands

/-!
# Decoding reads only the instruction

An instruction has one to fifteen bytes, they are the front of the input, and the
decoder gives the same instruction on these bytes alone.
-/

namespace Repiu.X86

/-- A reader takes `used a` off the front of its input, and does the same when less of the
input follows. -/
def Consumes {α : Type} (read : List Byte → Option (α × List Byte)) (used : α → List Byte) : Prop :=
  ∀ {bs a rest}, read bs = some (a, rest) →
    bs = used a ++ rest ∧ ∀ rest', rest' <+: rest → read (used a ++ rest') = some (a, rest')

/-! ## The readers -/

theorem readBytes_consumes (n : ℕ) : Consumes (readBytes n) id := by
  intro bs a rest h
  unfold readBytes at h
  split_ifs at h with hn
  simp only [Option.some.injEq, Prod.mk.injEq] at h
  obtain ⟨rfl, rfl⟩ := h
  refine ⟨(List.take_append_drop n bs).symm, ?_⟩
  intro rest' _
  have hlen : (bs.take n).length = n := by
    rw [List.length_take]
    omega
  have hle : n ≤ (bs.take n ++ rest').length := by
    rw [List.length_append]
    omega
  simp only [readBytes, id, if_pos hle, List.take_left' hlen, List.drop_left' hlen]

theorem readImms_consumes (width : ℕ) (specs : List ImmSpec) :
    Consumes (readImms width specs) fun imms => (imms.map Prod.snd).flatten := by
  induction specs with
  | nil =>
    intro bs a rest h
    simp only [readImms, Option.some.injEq, Prod.mk.injEq] at h
    obtain ⟨rfl, rfl⟩ := h
    simp [readImms]
  | cons s ss ih =>
    intro bs a rest h
    simp only [readImms, Option.bind_eq_bind, Option.bind_eq_some_iff, Option.pure_def,
      Option.some.injEq, Prod.mk.injEq] at h
    obtain ⟨⟨v, bs₁⟩, hv, ⟨vs, bs₂⟩, hvs, rfl, rfl⟩ := h
    obtain ⟨rfl, hv'⟩ := readBytes_consumes _ hv
    obtain ⟨rfl, hvs'⟩ := ih hvs
    refine ⟨by simp, ?_⟩
    intro rest' hrest
    have h₁ := hv' _ ((List.prefix_append_right_inj (vs.map Prod.snd).flatten).mpr hrest)
    have h₂ := hvs' rest' hrest
    simp only [id] at h₁
    simp [readImms, h₁, h₂]

theorem readModrm_consumes {addressWidth : ℕ} {forceReg : Bool} {modrm : Byte} {bs : List Byte}
    {sib : Option Byte} {disp rest : List Byte}
    (h : readModrm addressWidth forceReg modrm bs = some (sib, disp, rest)) :
    bs = sib.toList ++ disp ++ rest ∧ ∀ rest', rest' <+: rest →
      readModrm addressWidth forceReg modrm (sib.toList ++ disp ++ rest') = some (sib, disp, rest') := by
  by_cases hf : forceReg
  · simp only [readModrm, hf, if_true, Option.pure_def, Option.some.injEq, Prod.mk.injEq] at h
    obtain ⟨rfl, rfl, rfl⟩ := h
    simp [readModrm, hf]
  by_cases hs : hasSib addressWidth modrm
  · cases bs with
    | nil => simp [readModrm, hf, hs] at h
    | cons b bs =>
      simp only [readModrm, hf, hs, if_true, Bool.false_eq_true, if_false, Option.bind_eq_bind,
        Option.bind_eq_some_iff, Option.pure_def, Option.some.injEq, Prod.mk.injEq] at h
      obtain ⟨⟨d, bs₁⟩, hd, rfl, rfl, rfl⟩ := h
      obtain ⟨rfl, hd'⟩ := readBytes_consumes _ hd
      refine ⟨by simp, ?_⟩
      intro rest' hrest
      have := hd' rest' hrest
      simp only [id] at this
      simp [readModrm, hf, hs, this]
  · simp only [readModrm, hf, hs, Bool.false_eq_true, if_false, Option.bind_eq_bind,
      Option.bind_eq_some_iff, Option.pure_def, Option.some.injEq, Prod.mk.injEq] at h
    obtain ⟨⟨d, bs₁⟩, hd, rfl, rfl, rfl⟩ := h
    obtain ⟨rfl, hd'⟩ := readBytes_consumes _ hd
    refine ⟨by simp, ?_⟩
    intro rest' hrest
    have := hd' rest' hrest
    simp only [id] at this
    simp only [readModrm, hf, hs, Bool.false_eq_true, if_false, Option.toList_none, List.nil_append,
      this, Option.bind_eq_bind, Option.bind_some, Option.pure_def]

/-- A vector escape looks at the byte behind it, which is part of the payload or, when it is
absent, reads as one that is no escape. -/
theorem vectorEscape_prefix {mode : MachineMode} {b : Byte} {rest rest' : List Byte}
    (h : vectorEscape mode b (rest.headD 0) = none) (hpre : rest' <+: rest) :
    vectorEscape mode b (rest'.headD 0) = none := by
  obtain ⟨t, rfl⟩ := hpre
  cases rest' with
  | cons x xs => exact h
  | nil =>
    unfold vectorEscape at h ⊢
    simp only [List.headD_nil]
    split_ifs at h ⊢ <;> simp_all

/-- A payload has at least two bytes, so it holds the byte the escape looked at. -/
theorem vectorEscape_append (mode : MachineMode) (b : Byte) {rest : List Byte} {n : ℕ} (tail : List Byte)
    (hn : 1 ≤ n) (hlen : n ≤ rest.length) :
    vectorEscape mode b ((rest.take n ++ tail).headD 0) = vectorEscape mode b (rest.headD 0) := by
  obtain ⟨x, xs, rfl⟩ := List.exists_cons_of_length_pos (l := rest) (by omega)
  obtain ⟨m, rfl⟩ := Nat.exists_eq_add_of_le' hn
  rfl

theorem payloadLength_bounds (b : Byte) : 2 ≤ payloadLength b ∧ payloadLength b ≤ 4 := by
  unfold payloadLength
  split_ifs <;> omega

theorem readOpcode_consumes (mode : MachineMode) (plain : Bool) :
    Consumes (readOpcode mode plain) fun code => code.payload ++ [code.opcode] := by
  intro bs a rest h
  cases bs with
  | nil => simp [readOpcode] at h
  | cons b bs =>
    unfold readOpcode at h
    cases hv : vectorEscape mode b (bs.headD 0) with
    | some enc =>
      simp only [hv] at h
      split_ifs at h with hp
      have hbounds := payloadLength_bounds b
      set n := payloadLength b - 1 with hn
      cases hdrop : bs.drop n with
      | nil => simp [hdrop] at h
      | cons op rest₁ =>
        simp only [hdrop, Option.some.injEq, Prod.mk.injEq] at h
        obtain ⟨rfl, rfl⟩ := h
        have hlen : (bs.take n).length = n := by
          rw [List.length_take]
          omega
        refine ⟨?_, ?_⟩
        · have := List.take_append_drop n bs
          rw [hdrop] at this
          simp [this]
        · intro rest' _
          have hesc := vectorEscape_append mode b (op :: rest')
            (show 1 ≤ n by omega) (show n ≤ bs.length by omega)
          rw [hv] at hesc
          have hle : payloadLength b ≤ (bs.take n ++ op :: rest').length := by
            rw [List.length_append, List.length_cons]
            omega
          have hcons : b :: bs.take n ++ [op] ++ rest' = b :: (bs.take n ++ op :: rest') := by simp
          simp only [hcons, readOpcode, hesc, hp.1, hle, and_self, if_true, ← hn,
            List.take_left' hlen, List.drop_left' hlen]
    | none =>
      simp only [hv] at h
      by_cases h0F : b = 0x0F
      · subst h0F
        have hnone : ∀ next, vectorEscape mode 0x0F next = none := by
          intro next
          simp [vectorEscape]
        simp only [if_true] at h
        cases bs with
        | nil => simp at h
        | cons b₁ bs =>
          simp only at h
          split_ifs at h with h38 h3A hF
          · subst h38
            cases bs with
            | nil => simp at h
            | cons op bs =>
              simp only [Option.some.injEq, Prod.mk.injEq] at h
              obtain ⟨rfl, rfl⟩ := h
              refine ⟨rfl, fun rest' _ => ?_⟩
              simp only [List.cons_append, List.nil_append, readOpcode, hnone, if_true]
          · subst h3A
            cases bs with
            | nil => simp at h
            | cons op bs =>
              simp only [Option.some.injEq, Prod.mk.injEq] at h
              obtain ⟨rfl, rfl⟩ := h
              refine ⟨rfl, fun rest' _ => ?_⟩
              simp only [List.cons_append, List.nil_append, readOpcode, hnone, if_true, if_neg h38]
          · subst hF
            simp only [Option.some.injEq, Prod.mk.injEq] at h
            obtain ⟨rfl, rfl⟩ := h
            refine ⟨rfl, fun rest' _ => ?_⟩
            simp only [List.cons_append, List.nil_append, readOpcode, hnone, if_true, if_neg h38,
              if_neg h3A]
          · simp only [Option.some.injEq, Prod.mk.injEq] at h
            obtain ⟨rfl, rfl⟩ := h
            refine ⟨rfl, fun rest' _ => ?_⟩
            simp only [List.cons_append, List.nil_append, readOpcode, hnone, if_true, if_neg h38,
              if_neg h3A, if_neg hF]
      · simp only [h0F, if_false, Option.some.injEq, Prod.mk.injEq] at h
        obtain ⟨rfl, rfl⟩ := h
        refine ⟨rfl, ?_⟩
        intro rest' hrest
        simp only [List.cons_append, List.nil_append, readOpcode, vectorEscape_prefix hv hrest,
          if_neg h0F]

/-! ## The decoder -/

theorem Instruction.bytes_length (i : Instruction) : i.bytes.length = i.length := by
  simp only [Instruction.bytes, Instruction.length, Instruction.codeLength, Instruction.immLength,
    List.length_append, List.length_flatten, List.map_map, List.length_singleton, Function.comp_def]
  omega

theorem Instruction.length_pos (i : Instruction) : 0 < i.length := by
  simp only [Instruction.length, Instruction.codeLength]
  omega

/-- The prefixes end where the opcode starts. -/
theorem takeWhile_append_of_ne {mode : MachineMode} {prefixes rest : List Byte}
    (hall : ∀ b ∈ prefixes, isPrefix mode b = true) (hrest : ∀ b ∈ rest.head?, isPrefix mode b = false) :
    (prefixes ++ rest).takeWhile (isPrefix mode) = prefixes ∧
      (prefixes ++ rest).dropWhile (isPrefix mode) = rest := by
  have htake : prefixes.takeWhile (isPrefix mode) = prefixes := List.takeWhile_eq_self_iff.mpr hall
  have hdrop : prefixes.dropWhile (isPrefix mode) = [] := List.dropWhile_eq_nil_iff.mpr hall
  cases rest with
  | nil => simp [htake, hdrop]
  | cons b rest =>
    have hb : isPrefix mode b = false := hrest b (by simp)
    rw [List.takeWhile_append_of_pos hall, List.dropWhile_append_of_pos hall]
    simp [hb]

theorem readModrmByte_consumes (present : Bool) : Consumes (readModrmByte present) Option.toList := by
  intro bs a rest h
  cases present with
  | false =>
    simp only [readModrmByte, Bool.false_eq_true, if_false, Option.some.injEq, Prod.mk.injEq] at h
    obtain ⟨rfl, rfl⟩ := h
    simp [readModrmByte]
  | true =>
    cases bs with
    | nil => simp [readModrmByte] at h
    | cons m bs =>
      simp only [readModrmByte, if_true, Option.some.injEq, Prod.mk.injEq] at h
      obtain ⟨rfl, rfl⟩ := h
      simp [readModrmByte]

theorem readAddressing_consumes {d : Definition} {addressWidth : ℕ} {modrm : Option Byte} {bs : List Byte}
    {sib : Option Byte} {disp rest : List Byte}
    (h : readAddressing d addressWidth modrm bs = some (sib, disp, rest)) :
    bs = sib.toList ++ disp ++ rest ∧ ∀ rest', rest' <+: rest →
      readAddressing d addressWidth modrm (sib.toList ++ disp ++ rest') = some (sib, disp, rest') := by
  cases modrm with
  | some m => exact readModrm_consumes h
  | none =>
    by_cases hm : d.moffs
    · simp only [readAddressing, hm, if_true, Option.map_eq_some_iff, Prod.mk.injEq] at h
      obtain ⟨⟨v, bs'⟩, hv, rfl, rfl, rfl⟩ := h
      obtain ⟨rfl, hv'⟩ := readBytes_consumes _ hv
      refine ⟨rfl, fun rest' hrest => ?_⟩
      have := hv' rest' hrest
      simp only [id] at this
      simp only [readAddressing, hm, if_true, Option.toList_none, List.nil_append, this, Option.map_some]
    · simp only [readAddressing, hm, Bool.false_eq_true, if_false, Option.some.injEq,
        Prod.mk.injEq] at h
      obtain ⟨rfl, rfl, rfl⟩ := h
      simp [readAddressing, hm]

/-- The parts of a decoded instruction and the readers that gave them. -/
structure Decodes (table : Table) (mode : MachineMode) (input : List Byte) (i : Instruction)
    (rest₁ rest₂ rest₃ rest₄ : List Byte) : Prop where
  mode_eq : i.mode = mode
  prefixes_eq : i.prefixes = input.takeWhile (isPrefix mode)
  opcode : readOpcode mode (plainPrefixes mode i.prefixes) (input.dropWhile (isPrefix mode)) =
    some (i.code, rest₁)
  modrm : readModrmByte (table.hasModrm mode i.code.encoding i.code.map i.code.opcode) rest₁ =
    some (i.modrm, rest₂)
  definition : table.lookup mode (lookupKey mode i.prefixes i.code i.modrm) = some i.definition
  width : i.addressWidth =
    addressSizeRow i.definition.addressSizeMap mode (i.prefixes.contains 0x67)
  addressing : readAddressing i.definition i.addressWidth i.modrm rest₂ = some (i.sib, i.disp, rest₃)
  imms : readImms (operandSizeRow i.definition.operandSizeMap mode i.hasOperandSize i.rexW)
    i.definition.imms rest₃ = some (i.imms, rest₄)
  short : i.length ≤ maxInstructionLength

/-- The decoder gives an instruction exactly when its readers do. -/
theorem decode_iff {table : Table} {mode : MachineMode} {input : List Byte} {i : Instruction} :
    decode table mode input = some i ↔
      ∃ rest₁ rest₂ rest₃ rest₄, Decodes table mode input i rest₁ rest₂ rest₃ rest₄ := by
  constructor
  · intro h
    unfold decode at h
    simp only [Option.bind_eq_bind, Option.bind_eq_some_iff] at h
    obtain ⟨⟨code, rest₁⟩, hcode, ⟨modrm, rest₂⟩, hmodrm, d, hd, ⟨sib, disp, rest₃⟩, haddr,
      ⟨imms, rest₄⟩, himms, h⟩ := h
    split_ifs at h with hlen
    rw [Option.some.injEq] at h
    subst h
    exact ⟨rest₁, rest₂, rest₃, rest₄, ⟨rfl, rfl, hcode, hmodrm, hd, rfl, haddr, himms, hlen⟩⟩
  · rintro ⟨rest₁, rest₂, rest₃, rest₄, h⟩
    obtain ⟨mode', prefixes, code, modrm, sib, disp, imms, d, width⟩ := i
    obtain ⟨hmode, hprefixes, hcode, hmodrm, hd, hwidth, haddr, himms, hlen⟩ := h
    simp only at hmode hprefixes hwidth
    subst hmode hprefixes hwidth
    unfold decode
    simp only [Option.bind_eq_bind, Option.bind_eq_some_iff]
    refine ⟨_, hcode, _, hmodrm, _, hd, _, haddr, _, himms, ?_⟩
    simp only
    rw [if_pos hlen]

/-- The instruction is the front of the input. -/
theorem Decodes.input_eq {table : Table} {mode : MachineMode} {input : List Byte} {i : Instruction}
    {rest₁ rest₂ rest₃ rest₄ : List Byte} (h : Decodes table mode input i rest₁ rest₂ rest₃ rest₄) :
    input = i.bytes ++ rest₄ := by
  obtain ⟨hopcode, -⟩ := readOpcode_consumes _ _ h.opcode
  obtain ⟨hmodrm, -⟩ := readModrmByte_consumes _ h.modrm
  obtain ⟨haddr, -⟩ := readAddressing_consumes h.addressing
  obtain ⟨himms, -⟩ := readImms_consumes _ _ h.imms
  have hsplit := List.takeWhile_append_dropWhile (p := isPrefix mode) (l := input)
  rw [← hsplit, hopcode, ← h.prefixes_eq, hmodrm, haddr, himms]
  simp [Instruction.bytes]

/-- The decoder needs the bytes of the instruction only. -/
theorem Decodes.bytes {table : Table} {mode : MachineMode} {input : List Byte} {i : Instruction}
    {rest₁ rest₂ rest₃ rest₄ : List Byte} (h : Decodes table mode input i rest₁ rest₂ rest₃ rest₄) :
    decode table mode i.bytes = some i := by
  obtain ⟨hopcode, hopcode'⟩ := readOpcode_consumes _ _ h.opcode
  obtain ⟨hmodrm, hmodrm'⟩ := readModrmByte_consumes _ h.modrm
  obtain ⟨haddr, haddr'⟩ := readAddressing_consumes h.addressing
  obtain ⟨himms, himms'⟩ := readImms_consumes _ _ h.imms
  -- what follows each part in the instruction alone
  set tail₃ := (i.imms.map Prod.snd).flatten with htail₃
  set tail₂ := i.sib.toList ++ i.disp ++ tail₃ with htail₂
  set tail₁ := i.modrm.toList ++ tail₂ with htail₁
  have hpre₃ : tail₃ <+: rest₃ := ⟨rest₄, himms.symm⟩
  have hpre₂ : tail₂ <+: rest₂ := by
    rw [haddr]
    exact (List.prefix_append_right_inj _).mpr hpre₃
  have hpre₁ : tail₁ <+: rest₁ := by
    rw [hmodrm]
    exact (List.prefix_append_right_inj _).mpr hpre₂
  have hsplit : i.bytes = i.prefixes ++ (i.code.payload ++ [i.code.opcode] ++ tail₁) := by
    simp [Instruction.bytes, htail₁, htail₂, htail₃]
  have hprefixes : ∀ b ∈ i.prefixes, isPrefix mode b = true := by
    intro b hb
    rw [h.prefixes_eq] at hb
    exact List.mem_takeWhile_imp hb
  have hhead : ∀ b ∈ (i.code.payload ++ [i.code.opcode] ++ tail₁).head?, isPrefix mode b = false := by
    intro b hb
    have hdrop : b ∈ (input.dropWhile (isPrefix mode)).head? := by
      rw [hopcode]
      cases hp : i.code.payload with
      | nil => simpa [hp] using hb
      | cons x xs => simpa [hp] using hb
    have := List.head?_dropWhile_not (isPrefix mode) input
    rw [Option.mem_def.mp hdrop] at this
    simpa using this
  obtain ⟨htake, hdrop⟩ := takeWhile_append_of_ne hprefixes hhead
  rw [decode_iff]
  refine ⟨tail₁, tail₂, tail₃, [], ⟨h.mode_eq, ?_, ?_, ?_, h.definition, h.width, ?_, ?_, h.short⟩⟩
  · rw [hsplit, htake]
  · rw [hsplit, hdrop]
    exact hopcode' _ hpre₁
  · exact hmodrm' _ hpre₂
  · exact haddr' _ hpre₃
  · have := himms' [] (List.nil_prefix)
    rwa [List.append_nil] at this

/-- What is left of the input is the instruction and what follows it, and the decoder does not
need the latter. -/
theorem decode_take {table : Table} {mode : MachineMode} {input : List Byte} {i : Instruction}
    (h : decode table mode input = some i) :
    (input.take i.length).length = i.length ∧ decode table mode (input.take i.length) = some i := by
  obtain ⟨rest₁, rest₂, rest₃, rest₄, h⟩ := decode_iff.mp h
  have htake : input.take i.length = i.bytes := by
    rw [h.input_eq, ← i.bytes_length, List.take_left]
  rw [htake]
  exact ⟨i.bytes_length, h.bytes⟩

theorem decode_length_le {table : Table} {mode : MachineMode} {input : List Byte} {i : Instruction}
    (h : decode table mode input = some i) : i.length ≤ maxInstructionLength := by
  obtain ⟨_, _, _, _, h⟩ := decode_iff.mp h
  exact h.short

end Repiu.X86
