import Repiu.Engine.GuardSources

/-!
# Runs of guarded load and pop slots

A guarded slot compares the selector of the guest's instruction with the shadow and the accepted
pair, and leaves on one of two paths.
-/

namespace Repiu.Engine

open Repiu.Runtime Repiu.X86

/-! ## Code in blocks -/

/-- The blocks of a guarded slot. -/
def guardBlocks (source : List Byte) (distance : Byte) (advance : List Byte) (w : GuardWords) : List (List Byte) :=
  [[0x9C, 0x50], source,
   (0x66 :: 0x3B :: 0x05 :: le32 w.shadow) ++ [0x74, 0x18],
   (0x66 :: 0x3B :: 0x05 :: le32 w.pair0) ++ [0x74, 0x09],
   (0x66 :: 0x3B :: 0x05 :: le32 w.pair1) ++ [0x75, distance],
   [0x66, 0xA3] ++ le32 w.store,
   0xFF :: 0x05 :: le32 w.success,
   [0x58, 0x9D], advance, 0xE9 :: le32 w.displacement,
   0xFF :: 0x05 :: le32 w.fallback,
   [0x58, 0x9D], [0xCC]]

theorem guardBytes_eq_flatten (source advance : List Byte) (distance : Byte) (w : GuardWords) :
    guardBytes source distance advance w = (guardBlocks source distance advance w).flatten := by
  unfold guardBytes guardCode guardBlocks
  simp only [fill, List.flatten_cons, List.flatten_nil, List.append_assoc, List.cons_append, List.nil_append]

/-- A block of code, at its offset. -/
theorem codeAt_block {code : DataMemory} {a : Word} {blocks : List (List Byte)} (h : CodeAt code a blocks.flatten)
    (i : ℕ) {block : List Byte} (hblock : blocks[i]? = some block) {n : ℕ}
    (hn : n = (blocks.take i).flatten.length) : CodeAt code (a + BitVec.ofNat 32 n) block := by
  obtain ⟨hi, rfl⟩ := List.getElem?_eq_some_iff.mp hblock
  have hsplit : blocks.flatten = (blocks.take i).flatten ++ (blocks[i] ++ (blocks.drop (i + 1)).flatten) := by
    rw [← List.flatten_cons, ← List.flatten_append, List.getElem_cons_drop, List.take_append_drop]
  rw [hsplit] at h
  rw [hn]
  exact h.right.left

/-- The code of a guarded slot at an address. -/
structure GuardCodeAt (code : DataMemory) (base : Word) (source : List Byte) (distance : Byte) (advance : List Byte)
    (w : GuardWords) : Prop where
  pushes : CodeAt code base ([0x9C] ++ [0x50])
  sourceCode : CodeAt code (base + BitVec.ofNat 32 2) source
  shadow : CodeAt code (base + BitVec.ofNat 32 (2 + source.length))
    ((0x66 :: 0x3B :: 0x05 :: le32 w.shadow) ++ [0x74, 0x18])
  pair0 : CodeAt code (base + BitVec.ofNat 32 (11 + source.length))
    ((0x66 :: 0x3B :: 0x05 :: le32 w.pair0) ++ [0x74, 0x09])
  pair1 : CodeAt code (base + BitVec.ofNat 32 (20 + source.length))
    ((0x66 :: 0x3B :: 0x05 :: le32 w.pair1) ++ [0x75, distance])
  store : CodeAt code (base + BitVec.ofNat 32 (29 + source.length)) ([0x66, 0xA3] ++ le32 w.store)
  success : CodeAt code (base + BitVec.ofNat 32 (35 + source.length)) (0xFF :: 0x05 :: le32 w.success)
  pops : CodeAt code (base + BitVec.ofNat 32 (41 + source.length)) ([0x58] ++ [0x9D])
  advanceCode : CodeAt code (base + BitVec.ofNat 32 (43 + source.length)) advance
  jump : CodeAt code (base + BitVec.ofNat 32 (43 + source.length + advance.length)) (0xE9 :: le32 w.displacement)
  fallback : CodeAt code (base + BitVec.ofNat 32 (48 + source.length + advance.length))
    (0xFF :: 0x05 :: le32 w.fallback)
  missPops : CodeAt code (base + BitVec.ofNat 32 (54 + source.length + advance.length)) ([0x58] ++ [0x9D])
  trap : CodeAt code (base + BitVec.ofNat 32 (56 + source.length + advance.length)) [0xCC]

theorem guardCodeAt {code : DataMemory} {base : Word} {source advance : List Byte} {distance : Byte} {w : GuardWords}
    (h : CodeAt code base (guardBytes source distance advance w)) :
    GuardCodeAt code base source distance advance w := by
  rw [guardBytes_eq_flatten] at h
  have hzero : base + BitVec.ofNat 32 0 = base := add_zero base
  constructor
  · rw [← hzero]
    exact codeAt_block h 0 rfl rfl
  · exact codeAt_block h 1 rfl rfl
  · exact codeAt_block h 2 rfl (by simp [guardBlocks]; omega)
  · exact codeAt_block h 3 rfl (by simp [guardBlocks]; omega)
  · exact codeAt_block h 4 rfl (by simp [guardBlocks]; omega)
  · exact codeAt_block h 5 rfl (by simp [guardBlocks]; omega)
  · exact codeAt_block h 6 rfl (by simp [guardBlocks]; omega)
  · exact codeAt_block h 7 rfl (by simp [guardBlocks]; omega)
  · exact codeAt_block h 8 rfl (by simp [guardBlocks]; omega)
  · exact codeAt_block h 9 rfl (by simp [guardBlocks]; omega)
  · exact codeAt_block h 10 rfl (by simp [guardBlocks]; omega)
  · exact codeAt_block h 11 rfl (by simp [guardBlocks]; omega)
  · exact codeAt_block h 12 rfl (by simp [guardBlocks]; omega)

/-! ## The pieces of a slot -/

/-- A slot behind its pushes, with the selector `v` in AX. -/
structure Guarding (s : CodeState) (v : BitVec 16) (t : CodeState) : Prop where
  registers : t.registers = Function.update (pushedRegisters s.registers) 0 (withLow (s.registers 0) v)
  eflags : ∀ popped, loadFlags t.eflags popped = loadFlags s.eflags popped
  savedFlags : t.memory.getWord (s.esp - 4) = pushedFlags s
  savedEax : t.memory.getWord (s.esp - 8) = s.registers 0

theorem loadFlags_pushedFlags (s : CodeState) : loadFlags s.eflags (pushedFlags s) = s.eflags := by
  have hmask : (0x00FCFFFF : Word) &&& userMask = userMask := by decide
  rw [loadFlags, pushedFlags, BitVec.and_assoc, hmask, ← BitVec.and_or_distrib_left, BitVec.not_or_self]
  exact BitVec.and_allOnes

/-- What the pushes do. -/
theorem pushes_effect (s : CodeState) (next next' : Word) : (s.execute next .pushfd).execute next' (.push 0) =
    ⟨next', pushedRegisters s.registers, s.eflags, pushedMemory s⟩ := by
  have hesp : s.registers 4 - 4 - 4 = s.registers 4 - 8 := by bv_omega
  show CodeState.mk _ _ _ _ = _
  simp only [CodeState.execute, CodeState.goto, CodeState.pushWord, CodeState.esp, Function.update_self,
    Function.update_idem, Function.update_of_ne (show (0 : Fin 8) ≠ 4 by decide), pushedRegisters, pushedMemory,
    pushedFlags, hesp]

section
variable {code : DataMemory} {s t : CodeState} {v : BitVec 16}

/-- The pushes of a slot. -/
theorem leadsTo_pushed (hcode : CodeAt code s.eip ([0x9C] ++ [0x50])) :
    s.LeadsTo code ⟨s.eip + BitVec.ofNat 32 2, pushedRegisters s.registers, s.eflags, pushedMemory s⟩ := by
  have hpushfd : EncodesInsn [0x9C] .pushfd := ⟨by decide, fun _ => rfl⟩
  have hpush : EncodesInsn [0x50] (.push 0) := ⟨by decide, fun _ => rfl⟩
  have hnext : s.eip + BitVec.ofNat 32 2 = s.eip + BitVec.ofNat 32 1 + BitVec.ofNat 32 1 := by bv_omega
  rw [hnext]
  have hfirst : s.LeadsTo code (s.execute (s.eip + BitVec.ofNat 32 1) .pushfd) :=
    leadsTo_code hcode.left (hpushfd.selector (by decide)) rfl
  exact hfirst.trans (leadsTo_code hcode.right (hpush.selector (by decide)) (pushes_effect s _ _))

namespace Guarding

variable (h : Guarding s v t)
include h

theorem esp_eq : t.esp = s.esp - 8 := by
  rw [CodeState.esp, h.registers, Function.update_of_ne (by decide), pushedRegisters, Function.update_self]
  rfl

/-- What the pops do. -/
theorem pops_effect (next next' : Word) : (t.execute next (.pop 0)).execute next' .popfd =
    ⟨next', s.registers, s.eflags, t.memory⟩ := by
  have hfour : s.esp - 8 + 4 = s.esp - 4 := by bv_omega
  have hpopped : t.execute next (.pop 0) = ⟨next, Function.update s.registers 4 (s.esp - 4), t.eflags, t.memory⟩ := by
    rw [CodeState.execute_pop, h.esp_eq, h.savedEax, h.registers, hfour]
    congr 1
    funext r
    by_cases h0 : r = 0
    · rw [h0, Function.update_self, Function.update_of_ne (by decide)]
    by_cases h4 : r = 4
    · rw [h4, Function.update_of_ne (by decide), Function.update_self, Function.update_self]
    · simp only [pushedRegisters, Function.update_of_ne h0, Function.update_of_ne h4]
  have htop : s.esp - 4 + 4 = s.registers 4 := by
    rw [CodeState.esp]
    bv_omega
  rw [hpopped, CodeState.execute_popfd]
  simp only [CodeState.esp_mk, Function.update_self, Function.update_idem, htop, Function.update_eq_self, h.eflags,
    h.savedFlags, loadFlags_pushedFlags]

/-- The pops of a slot. -/
theorem leadsTo_popped (hcode : CodeAt code t.eip ([0x58] ++ [0x9D])) :
    t.LeadsTo code ⟨t.eip + BitVec.ofNat 32 2, s.registers, s.eflags, t.memory⟩ := by
  have hpop : EncodesInsn [0x58] (.pop 0) := ⟨by decide, fun _ => rfl⟩
  have hpopfd : EncodesInsn [0x9D] .popfd := ⟨by decide, fun _ => rfl⟩
  have hnext : t.eip + BitVec.ofNat 32 2 = t.eip + BitVec.ofNat 32 1 + BitVec.ofNat 32 1 := by bv_omega
  rw [hnext]
  have hfirst : t.LeadsTo code (t.execute (t.eip + BitVec.ofNat 32 1) (.pop 0)) :=
    leadsTo_code hcode.left (hpop.selector (by decide)) rfl
  exact hfirst.trans (leadsTo_code hcode.right (hpopfd.selector (by decide)) (h.pops_effect _ _))

/-- A compare of the selector with a word of the host. -/
theorem leadsTo_compared {a : Word} (hcode : CodeAt code t.eip (0x66 :: 0x3B :: 0x05 :: le32 a)) :
    ∃ u, t.LeadsTo code u ∧ Guarding s v u ∧ u.memory = t.memory ∧ u.eip = t.eip + BitVec.ofNat 32 7 ∧
      zeroFlag u.eflags = decide (v = t.memory.getHalf a) := by
  have hplace : ReadsPlace (0x05 :: le32 a) (.memory 0x05 0 (le32 a)) 0 :=
    readsPlace_memory (by decide) (by decide) rfl
  have hread : Place.readHalf t.registers t.memory (.memory 0x05 0 (le32 a)) = t.memory.getHalf a :=
    congrArg t.memory.getHalf (effectiveAddress_disp32 _ rfl rfl a)
  have hax : (t.registers 0).setWidth 16 = v := by
    rw [h.registers, Function.update_self, setWidth_withLow]
  have hstep := leadsTo_of_codeAt hcode (encodes_cmp hplace (by rw [List.length_cons, le32_length]; decide))
  refine ⟨_, hstep, ⟨h.registers, fun popped => ?_, h.savedFlags, h.savedEax⟩, rfl, rfl, ?_⟩
  · exact (loadFlags_withStatus _ _ _).trans (h.eflags popped)
  · show zeroFlag (withStatus t.eflags (subFlags16 ((t.registers 0).setWidth 16) _)) = _
    rw [zeroFlag_withStatus, zf_subFlags16, hread, hax]

/-- A compare and a short jump, on equality or else. -/
theorem leadsTo_branch {a : Word} {opcode d : Byte} {i : SelectorInsn} {taken : Bool}
    (hinsn : EncodesSelector [opcode, d] i)
    (hjump : ∀ (u : CodeState) (next : Word), u.executeSelector next i =
      u.goto (if zeroFlag u.eflags = taken then next + d.signExtend 32 else next))
    (hcode : CodeAt code t.eip ((0x66 :: 0x3B :: 0x05 :: le32 a) ++ [opcode, d])) :
    ∃ u, t.LeadsTo code u ∧ Guarding s v u ∧ u.memory = t.memory ∧ u.eip = t.eip + BitVec.ofNat 32 9 +
      (if decide (v = t.memory.getHalf a) = taken then d.signExtend 32 else 0) := by
  obtain ⟨u, hlead, hu, hmemory, heip, hzero⟩ := h.leadsTo_compared hcode.left
  have hnext : CodeAt code u.eip [opcode, d] := by
    rw [heip]
    exact hcode.right
  have hgone := hjump u (u.eip + BitVec.ofNat 32 2)
  refine ⟨_, hlead.trans (leadsTo_code hnext hinsn hgone), ⟨hu.registers, hu.eflags, hu.savedFlags, hu.savedEax⟩,
    hmemory, ?_⟩
  have hsum : t.eip + BitVec.ofNat 32 9 = t.eip + BitVec.ofNat 32 7 + BitVec.ofNat 32 2 := by bv_omega
  show (if zeroFlag u.eflags = taken then _ else _) = _
  rw [heip, hzero, hsum]
  split_ifs
  · rfl
  · exact (add_zero _).symm

/-- A compare and a jump on equality. -/
theorem leadsTo_je {a : Word} {d : Byte} (hcode : CodeAt code t.eip ((0x66 :: 0x3B :: 0x05 :: le32 a) ++ [0x74, d])) :
    ∃ u, t.LeadsTo code u ∧ Guarding s v u ∧ u.memory = t.memory ∧ u.eip = t.eip + BitVec.ofNat 32 9 +
      (if decide (v = t.memory.getHalf a) = true then d.signExtend 32 else 0) :=
  h.leadsTo_branch (encodes_je d) (fun _ _ => rfl) hcode

/-- A compare and a jump on a difference. -/
theorem leadsTo_jne {a : Word} {d : Byte} (hcode : CodeAt code t.eip ((0x66 :: 0x3B :: 0x05 :: le32 a) ++ [0x75, d])) :
    ∃ u, t.LeadsTo code u ∧ Guarding s v u ∧ u.memory = t.memory ∧ u.eip = t.eip + BitVec.ofNat 32 9 +
      (if decide (v = t.memory.getHalf a) = false then d.signExtend 32 else 0) := by
  have hjne : EncodesInsn [0x75, d] (.jne (d.signExtend 32)) := ⟨show 2 ≤ 15 by decide, fun _ => rfl⟩
  refine h.leadsTo_branch (hjne.selector (by decide)) (fun u next => ?_) hcode
  show u.goto (if zeroFlag u.eflags = true then next else next + d.signExtend 32) = _
  cases zeroFlag u.eflags <;> rfl

/-- The store of the selector. -/
theorem leadsTo_stored {a : Word} (hcode : CodeAt code t.eip ([0x66, 0xA3] ++ le32 a))
    (hapart : Apart (s.esp - 8) 8 a 2) :
    ∃ u, t.LeadsTo code u ∧ Guarding s v u ∧ u.memory = t.memory.setHalf a v ∧ u.eip = t.eip + BitVec.ofNat 32 6 := by
  have hax : (t.registers 0).setWidth 16 = v := by
    rw [h.registers, Function.update_self, setWidth_withLow]
  have hstep := leadsTo_of_codeAt hcode (encodes_storeAx a)
  obtain ⟨hlow, hhigh⟩ := hapart
  have hflags : Apart a 2 (s.esp - 4) 4 := by constructor <;> bv_omega
  have heax : Apart a 2 (s.esp - 8) 4 := by constructor <;> bv_omega
  refine ⟨_, hstep, ⟨h.registers, h.eflags, ?_, ?_⟩, congrArg (t.memory.setHalf a) hax, rfl⟩
  · exact (DataMemory.getWord_setHalf_apart _ _ hflags).trans h.savedFlags
  · exact (DataMemory.getWord_setHalf_apart _ _ heax).trans h.savedEax

/-- The count of a path. -/
theorem leadsTo_counted {a : Word} (hcode : CodeAt code t.eip (0xFF :: 0x05 :: le32 a))
    (hapart : Apart (s.esp - 8) 8 a 4) :
    ∃ u, t.LeadsTo code u ∧ Guarding s v u ∧ u.memory = t.memory.setWord a (t.memory.getWord a + 1) ∧
      u.eip = t.eip + BitVec.ofNat 32 6 := by
  have hplace : ReadsPlace (0x05 :: le32 a) (.memory 0x05 0 (le32 a)) 0 :=
    readsPlace_memory (by decide) (by decide) rfl
  have hinc : EncodesInsn (0xFF :: 0x05 :: le32 a) (.inc (.memory 0x05 0 (le32 a))) := by
    refine ⟨show 6 ≤ 15 by decide, fun tail => ?_⟩
    rw [List.cons_append, decodeCode_modrm (by decide), hplace]
    rfl
  have heffect := t.execute_inc (t.eip + BitVec.ofNat 32 6) 0x05 0 (le32 a)
  rw [effectiveAddress_disp32 _ rfl rfl] at heffect
  obtain ⟨hlow, hhigh⟩ := hapart
  have hflags : Apart a 4 (s.esp - 4) 4 := by constructor <;> bv_omega
  have heax : Apart a 4 (s.esp - 8) 4 := by constructor <;> bv_omega
  refine ⟨_, leadsTo_code hcode (hinc.selector (by decide)) heffect, ⟨h.registers, fun popped => ?_, ?_, ?_⟩, rfl, rfl⟩
  · exact (loadFlags_withStatus _ _ _).trans (h.eflags popped)
  · exact (DataMemory.getWord_setWord_apart _ _ hflags).trans h.savedFlags
  · exact (DataMemory.getWord_setWord_apart _ _ heax).trans h.savedEax

end Guarding

/-- A native path moves ESP past the selector of a pop. -/
theorem leadsTo_advanced {access : GuardedAccess} (hcode : CodeAt code t.eip access.advance) :
    t.LeadsTo code ⟨t.eip + BitVec.ofNat 32 access.advance.length,
      Function.update t.registers 4 (t.esp + access.released), t.eflags, t.memory⟩ := by
  cases access with
  | load =>
    have hsame : Function.update t.registers 4 (t.esp + 0) = t.registers := by
      rw [add_zero]
      exact Function.update_eq_self 4 t.registers
    show t.LeadsTo code ⟨t.eip + 0, Function.update t.registers 4 (t.esp + 0), t.eflags, t.memory⟩
    rw [hsame, add_zero]
    exact CodeState.LeadsTo.refl code t
  | pop =>
    have hplace : ReadsPlace [0x64, 0x24, 0x04] (.memory 0x64 0x24 [0x04]) 4 :=
      readsPlace_sib (by decide) (by decide) (by decide)
    have hlea : EncodesSelector [0x8D, 0x64, 0x24, 0x04] (.lea 4 0x64 0x24 [0x04]) := ⟨by decide, fun _ => rfl⟩
    refine leadsTo_code hcode hlea ?_
    show CodeState.mk _ (Function.update t.registers 4 (effectiveAddress t.registers 0x64 0x24 [0x04])) _ _ = _
    rw [effectiveAddress_stack _ rfl]
    rfl

end

/-! ## Runs of a slot -/

/-- The words of the host lie apart from each other and from the pushes. -/
structure GuardApart (s : CodeState) (w : GuardWords) : Prop where
  shadow : Apart (s.esp - 8) 8 w.shadow 2
  pair0 : Apart (s.esp - 8) 8 w.pair0 2
  pair1 : Apart (s.esp - 8) 8 w.pair1 2
  success : Apart (s.esp - 8) 8 w.success 4
  fallback : Apart (s.esp - 8) 8 w.fallback 4
  shadow_success : Apart w.success 4 w.shadow 2
  shadow_fallback : Apart w.fallback 4 w.shadow 2

/-- The pushes leave words apart from them alone. -/
theorem getHalf_pushedMemory {s : CodeState} {a : Word} (h : Apart (s.esp - 8) 8 a 2) :
    (pushedMemory s).getHalf a = s.memory.getHalf a := by
  obtain ⟨hlow, hhigh⟩ := h
  have heax : Apart (s.esp - 8) 4 a 2 := by constructor <;> bv_omega
  have hflags : Apart (s.esp - 4) 4 a 2 := by constructor <;> bv_omega
  exact (DataMemory.getHalf_setWord_apart _ _ heax).trans (DataMemory.getHalf_setWord_apart _ _ hflags)

theorem offset_add (b : Word) (m n : ℕ) : b + BitVec.ofNat 32 m + BitVec.ofNat 32 n = b + BitVec.ofNat 32 (m + n) := by
  rw [add_assoc, ← BitVec.ofNat_add]

/-- Code further on. -/
theorem offset_eq (b : Word) (n : ℕ) {m k : ℕ} (h : m + n = k) :
    b + BitVec.ofNat 32 m + BitVec.ofNat 32 n = b + BitVec.ofNat 32 k := by
  rw [offset_add, h]

/-- The selectors a slot lets through. -/
def Accepts (s : CodeState) (w : GuardWords) (v : BitVec 16) : Prop :=
  v = s.memory.getHalf w.shadow ∨ v = s.memory.getHalf w.pair0 ∨ v = s.memory.getHalf w.pair1

/-- What a path of a slot leaves: the guest's registers, ESP past what is popped, its flags, the
shadow, and the memory around the pushes, the shadow and a count. -/
structure GuardLeaves (s : CodeState) (released shadow counter : Word) (v : BitVec 16) (t : CodeState) : Prop where
  registers : t.registers = Function.update s.registers 4 (s.esp + released)
  eflags : t.eflags = s.eflags
  shadow_eq : t.memory.getHalf shadow = v
  memory : ∀ x, 8 ≤ (x - (s.esp - 8)).toNat → 2 ≤ (x - shadow).toNat → 4 ≤ (x - counter).toNat →
    t.memory x = s.memory x

theorem pushedMemory_of_far {s : CodeState} {x : Word} (h : 8 ≤ (x - (s.esp - 8)).toNat) :
    pushedMemory s x = s.memory x := by
  rw [pushedMemory, DataMemory.setWord_of_far _ (by omega), DataMemory.setWord_of_far _ (by bv_omega)]

section
variable {code : DataMemory} {s : CodeState} {access : GuardedAccess} {source : List Byte} {w : GuardWords}
  {place : Place} {v : BitVec 16}

/-- A slot in front of its compares: the selector is in AX. -/
theorem leadsTo_selector (hcode : GuardCodeAt code s.eip source access.distance access.advance w)
    (hsource : ReadsSelector source place)
    (hv : place.readHalf (pushedRegisters s.registers) (pushedMemory s) = v) :
    ∃ t, s.LeadsTo code t ∧ Guarding s v t ∧ t.memory = pushedMemory s ∧
      t.eip = s.eip + BitVec.ofNat 32 (2 + source.length) := by
  have hpushed := leadsTo_pushed hcode.pushes
  have hread : CodeState.LeadsTo code _ ⟨s.eip + BitVec.ofNat 32 2 + BitVec.ofNat 32 source.length,
      Function.update (pushedRegisters s.registers) 0 (withLow (s.registers 0) (place.readHalf _ _)), s.eflags,
      pushedMemory s⟩ :=
    hsource code ⟨s.eip + BitVec.ofNat 32 2, pushedRegisters s.registers, s.eflags, pushedMemory s⟩ hcode.sourceCode
  rw [hv, offset_add] at hread
  have heax : (pushedMemory s).getWord (s.esp - 8) = s.registers 0 := DataMemory.getWord_setWord _ _ _
  have hflags : (pushedMemory s).getWord (s.esp - 4) = pushedFlags s := by
    have happart : Apart (s.esp - 8) 4 (s.esp - 4) 4 := by constructor <;> bv_omega
    exact (DataMemory.getWord_setWord_apart _ _ happart).trans (DataMemory.getWord_setWord _ _ _)
  exact ⟨_, hpushed.trans hread, ⟨rfl, fun _ => rfl, hflags, heax⟩, rfl, rfl⟩

variable (hcode : GuardCodeAt code s.eip source access.distance access.advance w) (hapart : GuardApart s w)
include hcode hapart

/-- The native path, from its count on. -/
theorem Guarding.leadsTo_native {t : CodeState} (h : Guarding s v t)
    (heip : t.eip = s.eip + BitVec.ofNat 32 (35 + source.length)) :
    t.LeadsTo code ⟨s.eip + BitVec.ofNat 32 (48 + source.length + access.advance.length) + w.displacement,
      Function.update s.registers 4 (s.esp + access.released), s.eflags,
      t.memory.setWord w.success (t.memory.getWord w.success + 1)⟩ := by
  obtain ⟨u, hcount, hu, hmemory, hueip⟩ := h.leadsTo_counted (heip ▸ hcode.success) hapart.success
  rw [heip, offset_eq s.eip 6 (show _ = 41 + source.length by omega)] at hueip
  have hpopped := hu.leadsTo_popped (hueip ▸ hcode.pops)
  rw [hueip, offset_eq s.eip 2 (show _ = 43 + source.length by omega), hmemory] at hpopped
  have hadvanced := leadsTo_advanced (t := ⟨s.eip + BitVec.ofNat 32 (43 + source.length), s.registers, s.eflags,
    t.memory.setWord w.success (t.memory.getWord w.success + 1)⟩) hcode.advanceCode
  rw [offset_eq s.eip _ rfl] at hadvanced
  have hjump : CodeState.LeadsTo code _ _ := leadsTo_of_codeAt (s := ⟨s.eip + BitVec.ofNat 32
    (43 + source.length + access.advance.length), Function.update s.registers 4 (s.esp + access.released), s.eflags,
    t.memory.setWord w.success (t.memory.getWord w.success + 1)⟩) hcode.jump (encodes_jmp w.displacement)
  rw [← offset_eq s.eip 5 (show 43 + source.length + access.advance.length + 5 =
    48 + source.length + access.advance.length by omega)]
  exact ((hcount.trans hpopped).trans hadvanced).trans hjump

/-- The miss path. -/
theorem Guarding.leadsTo_miss {t : CodeState} (h : Guarding s v t)
    (heip : t.eip = s.eip + BitVec.ofNat 32 (48 + source.length + access.advance.length)) :
    t.LeadsTo code ⟨s.eip + BitVec.ofNat 32 (56 + source.length + access.advance.length), s.registers, s.eflags,
      t.memory.setWord w.fallback (t.memory.getWord w.fallback + 1)⟩ := by
  obtain ⟨u, hcount, hu, hmemory, hueip⟩ := h.leadsTo_counted (heip ▸ hcode.fallback) hapart.fallback
  rw [heip, offset_eq s.eip 6 (show _ = 54 + source.length + access.advance.length by omega)] at hueip
  have hpopped := hu.leadsTo_popped (hueip ▸ hcode.missPops)
  rw [hueip, offset_eq s.eip 2 (show _ = 56 + source.length + access.advance.length by omega), hmemory] at hpopped
  exact hcount.trans hpopped

variable (hsource : ReadsSelector source place)
  (hv : place.readHalf (pushedRegisters s.registers) (pushedMemory s) = v)
include hsource hv

/-- A slot behind its guards. -/
theorem leadsTo_guarded :
    ∃ t, s.LeadsTo code t ∧ Guarding s v t ∧ t.memory = pushedMemory s ∧
      (v = s.memory.getHalf w.shadow → t.eip = s.eip + BitVec.ofNat 32 (35 + source.length)) ∧
      (v ≠ s.memory.getHalf w.shadow → (v = s.memory.getHalf w.pair0 ∨ v = s.memory.getHalf w.pair1) →
        t.eip = s.eip + BitVec.ofNat 32 (29 + source.length)) ∧
      (¬Accepts s w v → t.eip = s.eip + BitVec.ofNat 32 (48 + source.length + access.advance.length)) := by
  obtain ⟨t₀, hstart, ht₀, hpushed, heip₀⟩ := leadsTo_selector hcode hsource hv
  obtain ⟨t, hlead, ht, hmemory, heip⟩ := ht₀.leadsTo_je (heip₀ ▸ hcode.shadow)
  replace hlead := hstart.trans hlead
  replace hmemory := hmemory.trans hpushed
  rw [hpushed, getHalf_pushedMemory hapart.shadow, heip₀] at heip
  by_cases hshadow : v = s.memory.getHalf w.shadow
  · refine ⟨t, hlead, ht, hmemory, fun _ => ?_, fun h => absurd hshadow h, fun h => absurd (Or.inl hshadow) h⟩
    rw [heip, if_pos (decide_eq_true hshadow), offset_add]
    exact offset_eq s.eip 24 (by omega)
  have hpair0 : t.eip = s.eip + BitVec.ofNat 32 (11 + source.length) := by
    rw [heip, if_neg (by simpa using hshadow), add_zero]
    exact offset_eq s.eip 9 (by omega)
  obtain ⟨t', hlead', ht', hmemory', heip'⟩ := ht.leadsTo_je (hpair0 ▸ hcode.pair0)
  replace hlead' := hlead.trans hlead'
  replace hmemory' := hmemory'.trans hmemory
  rw [hmemory, getHalf_pushedMemory hapart.pair0, hpair0, offset_add] at heip'
  by_cases hfirst : v = s.memory.getHalf w.pair0
  · refine ⟨t', hlead', ht', hmemory', fun h => absurd h hshadow, fun _ _ => ?_,
      fun h => absurd (Or.inr (Or.inl hfirst)) h⟩
    rw [heip', if_pos (decide_eq_true hfirst)]
    exact offset_eq s.eip 9 (by omega)
  have hpair1 : t'.eip = s.eip + BitVec.ofNat 32 (20 + source.length) := by
    rw [heip', if_neg (by simpa using hfirst), add_zero]
    exact congrArg _ (congrArg _ (by omega))
  obtain ⟨t'', hlead'', ht'', hmemory'', heip''⟩ := ht'.leadsTo_jne (hpair1 ▸ hcode.pair1)
  replace hlead'' := hlead'.trans hlead''
  replace hmemory'' := hmemory''.trans hmemory'
  rw [hmemory', getHalf_pushedMemory hapart.pair1, hpair1, offset_add] at heip''
  refine ⟨t'', hlead'', ht'', hmemory'', fun h => absurd h hshadow, fun _ h => ?_, fun h => ?_⟩
  · have hsecond := h.resolve_left hfirst
    rw [heip'', if_neg (by simpa using hsecond), add_zero]
    exact congrArg _ (congrArg _ (by omega))
  · have hsecond : v ≠ s.memory.getHalf w.pair1 := fun heq => h (Or.inr (Or.inr heq))
    rw [heip'', if_pos (decide_eq_false hsecond)]
    cases access with
    | load => exact offset_eq s.eip 0x13 (by simp [GuardedAccess.advance]; omega)
    | pop => exact offset_eq s.eip 0x17 (by simp [GuardedAccess.advance]; omega)

/-- A selector that is let through leaves by the jump, and is in the shadow. -/
theorem guardCode_accepts (hstore : w.store = w.shadow) (haccept : Accepts s w v) :
    ∃ t, s.LeadsTo code t ∧
      t.eip = s.eip + BitVec.ofNat 32 (48 + source.length + access.advance.length) + w.displacement ∧
      GuardLeaves s access.released w.shadow w.success v t := by
  obtain ⟨t, hlead, ht, hmemory, hsame, hother, -⟩ := leadsTo_guarded hcode hapart hsource hv
  by_cases hshadow : v = s.memory.getHalf w.shadow
  · -- the shadow is there already
    refine ⟨_, hlead.trans (ht.leadsTo_native hcode hapart (hsame hshadow)), rfl, rfl, rfl, ?_, fun x hx _ hcount => ?_⟩
    · rw [DataMemory.getHalf_setWord_apart _ _ hapart.shadow_success, hmemory, getHalf_pushedMemory hapart.shadow,
        hshadow]
    · exact (DataMemory.setWord_of_far _ hcount).trans (hmemory ▸ pushedMemory_of_far hx)
  · have hpair := haccept.resolve_left hshadow
    obtain ⟨u, hstored, hu, humemory, hueip⟩ :=
      ht.leadsTo_stored (a := w.store) (hother hshadow hpair ▸ hcode.store) (hstore ▸ hapart.shadow)
    rw [hother hshadow hpair, offset_eq s.eip 6 (show _ = 35 + source.length by omega)] at hueip
    rw [hstore, hmemory] at humemory
    refine ⟨_, (hlead.trans hstored).trans (hu.leadsTo_native hcode hapart hueip), rfl, rfl, rfl, ?_,
      fun x hx hfar hcount => ?_⟩
    · rw [DataMemory.getHalf_setWord_apart _ _ hapart.shadow_success, humemory, DataMemory.getHalf_setHalf]
    · apply (DataMemory.setWord_of_far _ hcount).trans
      rw [humemory, DataMemory.setHalf_of_far _ v hfar]
      exact pushedMemory_of_far hx

/-- A selector that is not let through ends at the trap. -/
theorem guardCode_misses (hmiss : ¬Accepts s w v) :
    ∃ t, s.LeadsTo code t ∧ t.eip = s.eip + BitVec.ofNat 32 (56 + source.length + access.advance.length) ∧
      code t.eip = 0xCC ∧ GuardLeaves s 0 w.shadow w.fallback (s.memory.getHalf w.shadow) t := by
  obtain ⟨t, hlead, ht, hmemory, -, -, hmissed⟩ := leadsTo_guarded hcode hapart hsource hv
  refine ⟨_, hlead.trans (ht.leadsTo_miss hcode hapart (hmissed hmiss)), rfl, ?_, ?_, rfl, ?_, fun x hx _ hcount => ?_⟩
  · have htrap := hcode.trap 0 (by decide)
    rwa [offset_add] at htrap
  · show s.registers = Function.update s.registers 4 (s.registers 4 + 0)
    rw [add_zero, Function.update_eq_self]
  · rw [DataMemory.getHalf_setWord_apart _ _ hapart.shadow_fallback, hmemory, getHalf_pushedMemory hapart.shadow]
  · exact (DataMemory.setWord_of_far _ hcount).trans (hmemory ▸ pushedMemory_of_far hx)

end

end Repiu.Engine
