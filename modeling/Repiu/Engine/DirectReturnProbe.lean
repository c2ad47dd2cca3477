import Repiu.X86.CodeRuns
import Repiu.Runtime.DirectReturnTable
import Repiu.Engine.Placement

/-!
# Direct-return probes

The code of a patched probe as a listing, and what the pieces of that listing do.
-/

namespace Repiu.Engine

open Repiu.Runtime Repiu.X86

/-! ## The code of a probe -/

/-- Up to the comparison with the key: the hash of the return target, and its slot. -/
def probeHead (host : DirectReturnTable) : Listing :=
  [([0x50], .push 0),
   ([0x51], .push 1),
   ([0x8B, 0x44, 0x24, 0x0C], .load 0 (.memory 0x44 0x24 [0x0C])),
   ([0x8B, 0xC8], .load 1 (.register 0)),
   ([0xC1, 0xE9, 0x0D], .shr (.register 1) 13),
   ([0x33, 0xC8], .xor 1 (.register 0)),
   (0x81 :: 0xE1 :: le32 host.mask, .andImm (.register 1) host.mask),
   (0x39 :: 0x04 :: 0xCD :: le32 host.keyAddress, .cmp (.memory 0x04 0xCD (le32 host.keyAddress)) 0)]

/-- The hit path up to the return. -/
def probeHit (host : DirectReturnTable) : Listing :=
  [(0x8B :: 0x0C :: 0xCD :: le32 (host.keyAddress + 4), .load 1 (.memory 0x0C 0xCD (le32 (host.keyAddress + 4)))),
   ([0x89, 0x4C, 0x24, 0x0C], .store (.memory 0x4C 0x24 [0x0C]) 1),
   (0xFF :: 0x05 :: le32 host.hitCounterAddress, .inc (.memory 0x05 0 (le32 host.hitCounterAddress))),
   ([0x59], .pop 1),
   ([0x58], .pop 0),
   ([0x9D], .popfd)]

/-- The return of the hit path. -/
def probeReturn (popBytes : ℕ) : List Byte :=
  if popBytes = 4 then [0xC3] else 0xC2 :: le16 (BitVec.ofNat 16 (popBytes - 4))

/-- The miss path. -/
def probeMiss : Listing := [([0x59], .pop 1), ([0x58], .pop 0)]

/-- The length of the hit path. -/
def hitLength (popBytes : ℕ) : ℕ := 20 + (probeReturn popBytes).length

/-- The bytes of a probe, as `EmitAotDirectReturnProbe` writes and `PatchAotDirectReturnProbe`
patches them. -/
def patchedProbe (host : DirectReturnTable) (f : Fragment) : List Byte :=
  let emitted : Memory := Memory.setBytes (fun _ => 0) 0 f.bytes
  (List.range f.bytes.length).map (f.directReturnProbeSites.foldl (patchAotDirectReturnProbe 0 host) emitted)

/-- The four operands of a probe are stored over the zeros that stand for them. -/
theorem patchAotDirectReturnProbe_setBytes (host : DirectReturnTable) (m : Memory)
    {site : AotDirectReturnProbeSite} {hash cmp load store ret : List Byte}
    (hmask : site.maskImmediateOffset = hash.length)
    (hkey : site.keyAddressOffset = hash.length + 4 + cmp.length)
    (htarget : site.targetAddressOffset = hash.length + 4 + cmp.length + 4 + load.length)
    (hcounter : site.hitCounterAddressOffset =
      hash.length + 4 + cmp.length + 4 + load.length + 4 + store.length) :
    patchAotDirectReturnProbe 0 host (m.setBytes 0 (hash ++ (le32 0 ++ (cmp ++ (le32 0 ++
        (load ++ (le32 0 ++ (store ++ (le32 0 ++ ret))))))))) site =
      m.setBytes 0 (hash ++ (le32 host.mask ++ (cmp ++ (le32 host.keyAddress ++
        (load ++ (le32 (host.keyAddress + 4) ++ (store ++ (le32 host.hitCounterAddress ++ ret)))))))) := by
  -- the bytes before an operand are those that are already patched
  have hcmp : ∀ w rest, hash ++ (le32 w ++ (cmp ++ rest)) = (hash ++ le32 w ++ cmp) ++ rest := by simp
  have hload : ∀ w w' rest, hash ++ (le32 w ++ (cmp ++ (le32 w' ++ (load ++ rest)))) =
      (hash ++ le32 w ++ cmp ++ le32 w' ++ load) ++ rest := by simp
  have hstore : ∀ w w' w'' rest,
      hash ++ (le32 w ++ (cmp ++ (le32 w' ++ (load ++ (le32 w'' ++ (store ++ rest)))))) =
        (hash ++ le32 w ++ cmp ++ le32 w' ++ load ++ le32 w'' ++ store) ++ rest := by simp
  unfold patchAotDirectReturnProbe
  rw [Memory.set32_setBytes _ _ hmask rfl, hcmp, Memory.set32_setBytes _ _ (by simp [hkey]; omega) rfl, ← hcmp,
    hload, Memory.set32_setBytes _ _ (by simp [htarget]; omega) rfl, ← hload, hstore,
    Memory.set32_setBytes _ _ (by simp [hcounter]; omega) rfl, ← hstore]

/-- The bytes of an emitted probe, with a zero word for every operand, and its site. -/
theorem emitAotDirectReturnProbe_eq {guestSource : Word} {popBytes : ℕ} {f : Fragment}
    (hemit : emitAotDirectReturnProbe guestSource popBytes = some f) :
    f.bytes = [0x50, 0x51, 0x8B, 0x44, 0x24, 0x0C, 0x8B, 0xC8, 0xC1, 0xE9, 0x0D, 0x33, 0xC8, 0x81, 0xE1] ++
        (le32 0 ++ ([0x39, 0x04, 0xCD] ++ (le32 0 ++
          ([0x75, BitVec.ofNat 8 (hitLength popBytes), 0x8B, 0x0C, 0xCD] ++ (le32 0 ++
            ([0x89, 0x4C, 0x24, 0x0C, 0xFF, 0x05] ++ (le32 0 ++
              ([0x59, 0x58, 0x9D] ++ (probeReturn popBytes ++ [0x59, 0x58]))))))))) ∧
      f.directReturnProbeSites = [⟨guestSource, 0, 15, 22, 31, 41⟩] := by
  unfold emitAotDirectReturnProbe at hemit
  by_cases hpop : popBytes < 4 ∨ 0xFFFF + 4 < popBytes
  · rw [if_pos hpop] at hemit
    cases hemit
  rw [if_neg hpop] at hemit
  obtain rfl := Option.some.inj hemit
  unfold hitLength probeReturn
  by_cases hplain : popBytes = 4
  · simp only [if_pos hplain]
    exact ⟨rfl, rfl⟩
  · simp only [if_neg hplain]
    exact ⟨rfl, rfl⟩

theorem patchedProbe_eq {guestSource : Word} {popBytes : ℕ} {f : Fragment}
    (hemit : emitAotDirectReturnProbe guestSource popBytes = some f) (host : DirectReturnTable) :
    patchedProbe host f =
      (probeHead host).bytes ++ ([0x75, BitVec.ofNat 8 (hitLength popBytes)] ++ ((probeHit host).bytes ++
        (probeReturn popBytes ++ probeMiss.bytes))) := by
  obtain ⟨hbytes, hsites⟩ := emitAotDirectReturnProbe_eq hemit
  set patched := (probeHead host).bytes ++ ([0x75, BitVec.ofNat 8 (hitLength popBytes)] ++
    ((probeHit host).bytes ++ (probeReturn popBytes ++ probeMiss.bytes))) with hpatched
  have hlength : f.bytes.length = patched.length := by
    rw [hbytes]
    rfl
  have hmemory : patchAotDirectReturnProbe 0 host (Memory.setBytes (fun _ => 0) 0 f.bytes)
      ⟨guestSource, 0, 15, 22, 31, 41⟩ = Memory.setBytes (fun _ => 0) 0 patched := by
    rw [hbytes, patchAotDirectReturnProbe_setBytes host _ rfl rfl rfl rfl]
    rfl
  show (List.range f.bytes.length).map (f.directReturnProbeSites.foldl _ _) = patched
  rw [hsites, List.foldl_cons, List.foldl_nil, hmemory, hlength, Memory.map_setBytes]

/-! ## The instructions of a probe -/

theorem encodes_pop_ecx : EncodesInsn [0x59] (.pop 1) := ⟨by decide, fun _ => rfl⟩

theorem encodes_pop_eax : EncodesInsn [0x58] (.pop 0) := ⟨by decide, fun _ => rfl⟩

theorem probeHead_straight (host : DirectReturnTable) : (probeHead host).Straight := by
  have hslot : ReadsPlace ([0x04, 0xCD] ++ le32 host.keyAddress) (.memory 0x04 0xCD (le32 host.keyAddress)) 0 :=
    readsPlace_sib (by decide) (by decide) rfl
  have htarget : ReadsPlace [0x44, 0x24, 0x0C] (.memory 0x44 0x24 [0x0C]) 0 :=
    readsPlace_sib (by decide) (by decide) rfl
  have hregister : ∀ modrm : Byte, modField modrm = 3 → ReadsPlace [modrm] _ _ :=
    fun modrm h => readsPlace_register h
  simp only [Listing.Straight, probeHead, List.forall_mem_cons]
  refine ⟨⟨⟨by decide, fun _ => rfl⟩, rfl⟩, ⟨⟨by decide, fun _ => rfl⟩, rfl⟩, ⟨?_, rfl⟩, ⟨?_, rfl⟩,
    ⟨?_, rfl⟩, ⟨?_, rfl⟩, ⟨?_, rfl⟩, ⟨?_, rfl⟩, by simp⟩
  · exact @encodes_modrm 0x8B (by decide) _ [] _ _ _ htarget (fun _ => rfl) (by decide)
  · exact @encodes_modrm 0x8B (by decide) _ [] _ _ _ (hregister 0xC8 rfl) (fun _ => rfl) (by decide)
  · exact @encodes_modrm 0xC1 (by decide) _ [0x0D] _ _ _ (hregister 0xE9 rfl) (fun _ => rfl) (by decide)
  · exact @encodes_modrm 0x33 (by decide) _ [] _ _ _ (hregister 0xC8 rfl) (fun _ => rfl) (by decide)
  · exact @encodes_modrm 0x81 (by decide) _ (le32 host.mask) _ _ _ (hregister 0xE1 rfl)
      (fun rest => readImm32_le32 _ _ _ rest) (show 6 ≤ 15 by decide)
  · exact @encodes_modrm 0x39 (by decide) _ [] _ _ _ hslot (fun _ => rfl) (show 7 ≤ 15 by decide)

theorem probeHit_straight (host : DirectReturnTable) : (probeHit host).Straight := by
  have hslot : ReadsPlace ([0x0C, 0xCD] ++ le32 (host.keyAddress + 4))
      (.memory 0x0C 0xCD (le32 (host.keyAddress + 4))) 1 :=
    readsPlace_sib (by decide) (by decide) rfl
  have htarget : ReadsPlace [0x4C, 0x24, 0x0C] (.memory 0x4C 0x24 [0x0C]) 1 :=
    readsPlace_sib (by decide) (by decide) rfl
  have hcounter : ReadsPlace ([0x05] ++ le32 host.hitCounterAddress)
      (.memory 0x05 0 (le32 host.hitCounterAddress)) 0 :=
    readsPlace_memory (by decide) (by decide) rfl
  simp only [Listing.Straight, probeHit, List.forall_mem_cons]
  refine ⟨⟨?_, rfl⟩, ⟨?_, rfl⟩, ⟨?_, rfl⟩, ⟨encodes_pop_ecx, rfl⟩, ⟨encodes_pop_eax, rfl⟩,
    ⟨⟨by decide, fun _ => rfl⟩, rfl⟩, by simp⟩
  · exact @encodes_modrm 0x8B (by decide) _ [] _ _ _ hslot (fun _ => rfl) (show 7 ≤ 15 by decide)
  · exact @encodes_modrm 0x89 (by decide) _ [] _ _ _ htarget (fun _ => rfl) (by decide)
  · exact @encodes_modrm 0xFF (by decide) _ [] _ _ _ hcounter (fun _ => rfl) (show 6 ≤ 15 by decide)

theorem probeMiss_straight : probeMiss.Straight := by
  simp only [Listing.Straight, probeMiss, List.forall_mem_cons]
  exact ⟨⟨encodes_pop_ecx, rfl⟩, ⟨encodes_pop_eax, rfl⟩, by simp⟩

theorem encodes_probeReturn {popBytes : ℕ} (hlow : 4 ≤ popBytes) (hhigh : popBytes ≤ 0xFFFF + 4) :
    EncodesInsn (probeReturn popBytes) (.ret (BitVec.ofNat 32 (popBytes - 4))) := by
  unfold probeReturn
  by_cases hplain : popBytes = 4
  · rw [if_pos hplain, hplain]
    exact ⟨by decide, fun _ => rfl⟩
  · rw [if_neg hplain]
    refine ⟨show 3 ≤ 15 by decide, fun tail => ?_⟩
    have himm : (BitVec.ofNat 16 (popBytes - 4)).setWidth 32 = BitVec.ofNat 32 (popBytes - 4) := by
      bv_omega
    show some (CodeInsn.ret ((BitVec.extractLsb' 8 8 _ ++ BitVec.extractLsb' 0 8 _).setWidth 32), 3) = _
    rw [append_le16, himm]
    rfl

/-! ## What the pieces do -/

theorem effectiveAddress_slot (registers : Registers) {modrm : Byte} (hmod : modField modrm = 0)
    (hrm : rmField modrm = 4) (a : Word) :
    effectiveAddress registers modrm 0xCD (le32 a) = registers 1 <<< 3 + a := by
  have hindex : sibBaseIndex registers 0 0xCD = (0 : Word) + registers 1 <<< 3 := rfl
  rw [effectiveAddress, baseIndex, if_pos hrm, hmod, hindex, dispValue_le32, zero_add]

section
variable (s : CodeState)

/-- The saves of a probe. -/
theorem saves_effect (next next' : Word) : (s.execute next (.push 0)).execute next' (.push 1) =
    ⟨next', Function.update s.registers 4 (s.esp - 8), s.eflags,
      (s.memory.setWord (s.esp - 4) (s.registers 0)).setWord (s.esp - 8) (s.registers 1)⟩ := by
  have hesp : s.esp - 4 - 4 = s.esp - 8 := by bv_omega
  rw [s.execute_push, CodeState.execute_push]
  simp only [CodeState.esp_mk, Function.update_self, hesp, Function.update_idem,
    Function.update_of_ne (show (1 : Fin 8) ≠ 4 by decide)]

/-- The hash of a return target, in ECX. -/
theorem hash_effect (mask : Word) {target : Word} (n0 n1 n2 n3 n4 : Word)
    (htarget : s.memory.getWord (s.esp + 12) = target) :
    ((((s.execute n0 (.load 0 (.memory 0x44 0x24 [0x0C]))).execute n1 (.load 1 (.register 0))).execute n2
        (.shr (.register 1) 13)).execute n3 (.xor 1 (.register 0))).execute n4 (.andImm (.register 1) mask) =
      ⟨n4, Function.update (Function.update s.registers 0 target) 1 (aotDirectReturnTableIndex target mask),
        withStatus s.eflags (logicFlags (aotDirectReturnTableIndex target mask)), s.memory⟩ := by
  have hread : s.read (.memory 0x44 0x24 [0x0C]) = target := by
    show s.memory.getWord (effectiveAddress s.registers 0x44 0x24 [0x0C]) = target
    rw [effectiveAddress_stack _ rfl]
    exact htarget
  rw [s.execute_load, hread]
  simp [CodeState.execute, CodeState.goto, CodeState.write, CodeState.read, CodeState.status, Place.read,
    aotDirectReturnTableIndex, BitVec.xor_comm]

/-- A word of the slot whose index is in ECX. -/
theorem read_slot {modrm : Byte} (hmod : modField modrm = 0) (hrm : rmField modrm = 4) (a : Word) :
    s.read (.memory modrm 0xCD (le32 a)) = s.memory.getWord (s.registers 1 <<< 3 + a) :=
  congrArg s.memory.getWord (effectiveAddress_slot s.registers hmod hrm a)

/-- A probe behind its comparison, where `target` is the return target. -/
structure Compared (host : DirectReturnTable) (target : Word) (s s' : CodeState) : Prop where
  registers : s'.registers = Function.update (Function.update (Function.update s.registers 4 (s.esp - 8))
    0 target) 1 (aotDirectReturnTableIndex target host.mask)
  memory : s'.memory = (s.memory.setWord (s.esp - 4) (s.registers 0)).setWord (s.esp - 8) (s.registers 1)
  eflags : s'.eflags = withStatus s.eflags (subFlags
    (s'.memory.getWord (aotDirectReturnTableIndex target host.mask <<< 3 + host.keyAddress)) target)

theorem Compared.goto {host : DirectReturnTable} {target : Word} {s s' : CodeState}
    (h : Compared host target s s') (next : Word) : Compared host target s (s'.goto next) :=
  ⟨h.registers, h.memory, h.eflags⟩

theorem compared_probeHead (host : DirectReturnTable) {target : Word}
    (htarget : s.memory.getWord (s.esp + 4) = target) : Compared host target s ((probeHead host).effect s) := by
  have hkept : ((s.memory.setWord (s.esp - 4) (s.registers 0)).setWord (s.esp - 8) (s.registers 1)).getWord
      (s.esp - 8 + 12) = target := by
    have haddress : s.esp - 8 + 12 = s.esp + 4 := by bv_omega
    have hhigh : Apart (s.esp - 4) 4 (s.esp + 4) 4 := by constructor <;> bv_omega
    have hlow : Apart (s.esp - 8) 4 (s.esp + 4) 4 := by constructor <;> bv_omega
    rw [haddress, ← htarget]
    exact (DataMemory.getWord_setWord_apart _ _ hlow).trans (DataMemory.getWord_setWord_apart _ _ hhigh)
  simp only [Listing.effect, probeHead, List.foldl_cons, List.foldl_nil, saves_effect]
  rw [hash_effect _ host.mask _ _ _ _ _ (by simpa only [CodeState.esp, Function.update_self] using hkept),
    CodeState.execute_cmp, read_slot _ rfl rfl]
  constructor
  · rfl
  · rfl
  · simp

/-- The restores of a probe. -/
theorem restores_effect (next next' : Word) : (s.execute next (.pop 1)).execute next' (.pop 0) =
    ⟨next', Function.update (Function.update (Function.update s.registers 4 (s.esp + 8)) 1 (s.memory.getWord s.esp))
      0 (s.memory.getWord (s.esp + 4)), s.eflags, s.memory⟩ := by
  have hend : s.esp + 4 + 4 = s.esp + 8 := by bv_omega
  rw [s.execute_pop, CodeState.execute_pop]
  simp only [CodeState.esp_mk, Function.update_of_ne (show (4 : Fin 8) ≠ 1 by decide), Function.update_self, hend]
  rw [Function.update_comm (show (1 : Fin 8) ≠ 4 by decide), Function.update_idem]

/-- The answer of a hit: the cache target in the place of the return target, and one more hit. -/
theorem answer_effect (keyAddress counter : Word) {cacheTarget : Word}
    (htarget : s.memory.getWord (s.registers 1 <<< 3 + (keyAddress + 4)) = cacheTarget) :
    ∃ flags, ∀ n0 n1 n2, ((s.execute n0 (.load 1 (.memory 0x0C 0xCD (le32 (keyAddress + 4))))).execute n1
        (.store (.memory 0x4C 0x24 [0x0C]) 1)).execute n2 (.inc (.memory 0x05 0 (le32 counter))) =
      ⟨n2, Function.update s.registers 1 cacheTarget, withStatus s.eflags flags,
        (s.memory.setWord (s.esp + 12) cacheTarget).setWord counter
          ((s.memory.setWord (s.esp + 12) cacheTarget).getWord counter + 1)⟩ := by
  have hesp : Function.update s.registers 1 cacheTarget 4 + dispValue [0x0C] = s.esp + 12 := by
    rw [Function.update_of_ne (by decide)]
    rfl
  refine ⟨incFlags ⟨s.eflags.getLsbD 0, false, false, false, false, false⟩
    ((s.memory.setWord (s.esp + 12) cacheTarget).getWord counter), fun n0 n1 n2 => ?_⟩
  rw [s.execute_load, read_slot _ rfl rfl, htarget, CodeState.execute_store, effectiveAddress_stack _ rfl,
    CodeState.execute_inc, effectiveAddress_disp32 _ rfl rfl]
  dsimp only
  rw [hesp, Function.update_self]

end

end Repiu.Engine
