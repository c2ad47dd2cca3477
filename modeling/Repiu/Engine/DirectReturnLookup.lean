import Repiu.Engine.DirectReturnProbe

/-!
# The lookup of a probe

The states in which a patched probe is entered, its runs down the hit path and the miss
path, and when they are what the lookup of the table says.
-/

namespace Repiu.Engine

open Repiu.Runtime Repiu.X86

/-! ## Entering a probe -/

/-- The return target of a probe: it lies under the pushed flags. -/
def returnTarget (s : CodeState) : Word := s.memory.getWord (s.esp + 4)

/-- A probe about to run: its code is ahead, the table is in memory, and the stack words that the
probe writes are neither the table's nor, with the flags and the return target, the counter's. -/
structure ProbeEntry (table : AotDirectReturnTable) (host : DirectReturnTable) (f : Fragment)
    (code : DataMemory) (s : CodeState) : Prop where
  code : CodeAt code s.eip (patchedProbe host f)
  mask : host.mask = table.mask
  keys : ∀ i (h : i < table.entries.length),
    s.memory.getWord (host.keyAddress + BitVec.ofNat 32 (8 * i)) = table.entries[i].guestKey
  targets : ∀ i (h : i < table.entries.length),
    s.memory.getWord (host.keyAddress + BitVec.ofNat 32 (8 * i) + 4) = table.entries[i].cacheTarget
  table_apart : ∀ i < table.entries.length,
    Apart (s.esp - 8) 8 (host.keyAddress + BitVec.ofNat 32 (8 * i)) 8
  counter_apart : Apart (s.esp - 8) 16 host.hitCounterAddress 4

/-- The memory behind the saves of a probe. -/
def saved (s : CodeState) : DataMemory :=
  (s.memory.setWord (s.esp - 4) (s.registers 0)).setWord (s.esp - 8) (s.registers 1)

theorem saved_of_apart {s : CodeState} {a : Word} (h : Apart (s.esp - 8) 8 a 4) :
    (saved s).getWord a = s.memory.getWord a := by
  obtain ⟨hlow, hhigh⟩ := h
  have hfirst : Apart (s.esp - 4) 4 a 4 := by constructor <;> bv_omega
  have hsecond : Apart (s.esp - 8) 4 a 4 := by constructor <;> bv_omega
  exact (DataMemory.getWord_setWord_apart _ _ hsecond).trans (DataMemory.getWord_setWord_apart _ _ hfirst)

theorem saved_ecx (s : CodeState) : (saved s).getWord (s.esp - 8) = s.registers 1 :=
  DataMemory.getWord_setWord _ _ _

theorem saved_eax (s : CodeState) : (saved s).getWord (s.esp - 4) = s.registers 0 := by
  have hapart : Apart (s.esp - 8) 4 (s.esp - 4) 4 := by constructor <;> bv_omega
  exact (DataMemory.getWord_setWord_apart _ _ hapart).trans (DataMemory.getWord_setWord _ _ _)

theorem saved_far {s : CodeState} {x : Word} (h : 8 ≤ (x - (s.esp - 8)).toNat) : saved s x = s.memory x :=
  (DataMemory.setWord_of_far _ (by omega)).trans (DataMemory.setWord_of_far _ (by bv_omega))

theorem slot_address (index a : Word) :
    index <<< 3 + a = a + BitVec.ofNat 32 (8 * index.toNat) := by
  have hshift : index <<< 3 = BitVec.ofNat 32 (8 * index.toNat) := by
    apply BitVec.eq_of_toNat_eq
    rw [BitVec.toNat_shiftLeft, BitVec.toNat_ofNat, Nat.shiftLeft_eq, Nat.mul_comm]
  rw [hshift, add_comm]

namespace ProbeEntry

variable {table : AotDirectReturnTable} {host : DirectReturnTable} {f : Fragment} {code : DataMemory}
  {s : CodeState} (h : ProbeEntry table host f code s) (hform : table.WellFormed)
include h hform

/-- The slot that the probe addresses is the table's slot of the return target. -/
theorem slot_words :
    let address := aotDirectReturnTableIndex (returnTarget s) host.mask <<< 3
    (saved s).getWord (address + host.keyAddress) = (table.slot (returnTarget s)).guestKey ∧
      (saved s).getWord (address + (host.keyAddress + 4)) = (table.slot (returnTarget s)).cacheTarget := by
  intro address
  have hlt := hform.index_lt (returnTarget s)
  have haddress : address + host.keyAddress = host.keyAddress +
      BitVec.ofNat 32 (8 * (aotDirectReturnTableIndex (returnTarget s) table.mask).toNat) := by
    rw [← h.mask, slot_address]
  have hnext : address + (host.keyAddress + 4) = host.keyAddress +
      BitVec.ofNat 32 (8 * (aotDirectReturnTableIndex (returnTarget s) table.mask).toNat) + 4 := by
    rw [← haddress, add_assoc]
  obtain ⟨hlow, hhigh⟩ := h.table_apart _ hlt
  rw [haddress, hnext, saved_of_apart ⟨hlow, by omega⟩, saved_of_apart ⟨by bv_omega, by bv_omega⟩,
    h.keys _ hlt, h.targets _ hlt, AotDirectReturnTable.slot, List.getD_eq_getElem _ _ hlt]
  exact ⟨rfl, rfl⟩

end ProbeEntry

/-! ## The two paths -/

section
variable {guestSource : Word} {popBytes : ℕ} {f : Fragment}
  (hemit : emitAotDirectReturnProbe guestSource popBytes = some f)
include hemit

theorem popBytes_range : 4 ≤ popBytes ∧ popBytes ≤ 0xFFFF + 4 := by
  unfold emitAotDirectReturnProbe at hemit
  by_cases hpop : popBytes < 4 ∨ 0xFFFF + 4 < popBytes
  · rw [if_pos hpop] at hemit
    cases hemit
  · omega

theorem length_patchedProbe (host : DirectReturnTable) :
    (patchedProbe host f).length = 30 + hitLength popBytes := by
  rw [patchedProbe_eq hemit]
  unfold hitLength
  simp only [List.length_append]
  show 26 + (2 + (20 + ((probeReturn popBytes).length + 2))) = _
  omega

end

theorem signExtend_hitLength (popBytes : ℕ) :
    (BitVec.ofNat 8 (hitLength popBytes)).signExtend 32 = BitVec.ofNat 32 (hitLength popBytes) := by
  unfold hitLength probeReturn
  split_ifs <;> rfl

/-- A probe behind its branch: at its hit path if the key of the slot is the return target, else
at its miss path. -/
theorem run_probeHead {guestSource : Word} {popBytes : ℕ} {f : Fragment} {code : DataMemory} {s : CodeState}
    (hemit : emitAotDirectReturnProbe guestSource popBytes = some f) {host : DirectReturnTable}
    (hcode : CodeAt code s.eip (patchedProbe host f)) :
    ∃ t, s.run code 9 = some t ∧ Compared host (returnTarget s) s t ∧
      t.eip = s.eip + if t.memory.getWord (aotDirectReturnTableIndex (returnTarget s) host.mask <<< 3 +
        host.keyAddress) = returnTarget s then 28 else BitVec.ofNat 32 (28 + hitLength popBytes) := by
  rw [patchedProbe_eq hemit] at hcode
  obtain ⟨hrun, heip⟩ := CodeState.run_straight (probeHead_straight host) hcode.left
  have hcompared := compared_probeHead s host (rfl : s.memory.getWord (s.esp + 4) = returnTarget s)
  generalize (probeHead host).effect s = t at hrun heip hcompared
  have hbranch : EncodesInsn [0x75, BitVec.ofNat 8 (hitLength popBytes)]
      (.jne ((BitVec.ofNat 8 (hitLength popBytes)).signExtend 32)) := ⟨show 2 ≤ 15 by decide, fun _ => rfl⟩
  have hstep : t.step code = some (t.execute (t.eip + 2) _) :=
    CodeState.step_of_codeAt (heip ▸ hcode.right.left) hbranch
  have hrun9 : s.run code (8 + 1) = some (t.execute (t.eip + 2)
      (.jne ((BitVec.ofNat 8 (hitLength popBytes)).signExtend 32))) := by
    rw [CodeState.run_add, show s.run code 8 = some t from hrun, Option.bind_some, CodeState.run, hstep]
    rfl
  refine ⟨_, hrun9, hcompared.goto _, ?_⟩
  -- the zero flag tells whether the key is the return target
  have hflag : zeroFlag t.eflags = decide (t.memory.getWord
      (aotDirectReturnTableIndex (returnTarget s) host.mask <<< 3 + host.keyAddress) = returnTarget s) := by
    rw [hcompared.eflags, zeroFlag_withStatus]
    exact decide_eq_decide.mpr sub_eq_zero
  show (if zeroFlag t.eflags then t.eip + 2 else t.eip + 2 + _) = s.eip + if t.memory.getWord _ = _ then _ else _
  rw [hflag, heip, signExtend_hitLength]
  simp only [decide_eq_true_eq]
  have hend : BitVec.ofNat 32 (probeHead host).bytes.length + 2 = (28 : Word) := rfl
  split_ifs
  · rw [add_assoc, hend]
  · rw [BitVec.ofNat_add, add_assoc s.eip, hend, add_assoc]
    rfl

/-- The guest's own return behind the flags that the site has pushed. -/
def plainReturn (popBytes : ℕ) (s : CodeState) : CodeState :=
  (s.execute s.eip .popfd).execute s.eip (.ret (BitVec.ofNat 32 (popBytes - 4)))

/-- The probe has returned to a cache target, with registers, flags and stack as the guest's own
return leaves them. -/
structure ReturnsTo (popBytes : ℕ) (counter cacheTarget : Word) (s s' : CodeState) : Prop where
  eip : s'.eip = cacheTarget
  registers : s'.registers = (plainReturn popBytes s).registers
  eflags : s'.eflags = (plainReturn popBytes s).eflags
  memory : ∀ x, 8 ≤ (x - (s.esp - 8)).toNat → 4 ≤ (x - (s.esp + 4)).toNat → 4 ≤ (x - counter).toNat →
    s'.memory x = s.memory x

/-- The probe is left behind its last byte with registers and stack as before, and the pushed flags
still to be restored. -/
structure FallsThrough (length : ℕ) (s s' : CodeState) : Prop where
  eip : s'.eip = s.eip + BitVec.ofNat 32 length
  registers : s'.registers = s.registers
  eflags : ∀ popped, loadFlags s'.eflags popped = loadFlags s.eflags popped
  memory : ∀ x, 8 ≤ (x - (s.esp - 8)).toNat → s'.memory x = s.memory x

/-- The memory behind the answer of a hit. -/
def answered (s : CodeState) (counter cacheTarget : Word) : DataMemory :=
  ((saved s).setWord (s.esp + 4) cacheTarget).setWord counter
    (((saved s).setWord (s.esp + 4) cacheTarget).getWord counter + 1)

theorem answered_target {s : CodeState} {counter : Word} (cacheTarget : Word) (h : Apart (s.esp - 8) 16 counter 4) :
    (answered s counter cacheTarget).getWord (s.esp + 4) = cacheTarget := by
  obtain ⟨hlow, hhigh⟩ := h
  have hcounter : Apart counter 4 (s.esp + 4) 4 := by constructor <;> bv_omega
  exact (DataMemory.getWord_setWord_apart _ _ hcounter).trans (DataMemory.getWord_setWord _ _ _)

/-- The registers and the flags on the stack survive the answer. -/
theorem answered_stack {s : CodeState} {counter : Word} (cacheTarget : Word) (h : Apart (s.esp - 8) 16 counter 4) :
    (answered s counter cacheTarget).getWord (s.esp - 8) = s.registers 1 ∧
      (answered s counter cacheTarget).getWord (s.esp - 4) = s.registers 0 ∧
        (answered s counter cacheTarget).getWord s.esp = s.memory.getWord s.esp := by
  obtain ⟨hlow, hhigh⟩ := h
  have hkeep : ∀ a, (a - (s.esp - 8)).toNat ≤ 8 →
      (answered s counter cacheTarget).getWord a = (saved s).getWord a := by
    intro a ha
    have hcounter : Apart counter 4 a 4 := by constructor <;> bv_omega
    have htarget : Apart (s.esp + 4) 4 a 4 := by constructor <;> bv_omega
    exact (DataMemory.getWord_setWord_apart _ _ hcounter).trans (DataMemory.getWord_setWord_apart _ _ htarget)
  refine ⟨?_, ?_, ?_⟩
  · rw [hkeep _ (by bv_omega), saved_ecx]
  · rw [hkeep _ (by bv_omega), saved_eax]
  · rw [hkeep _ (by bv_omega), saved_of_apart (by constructor <;> bv_omega)]

theorem answered_far {s : CodeState} {counter cacheTarget x : Word} (hsaved : 8 ≤ (x - (s.esp - 8)).toNat)
    (hslot : 4 ≤ (x - (s.esp + 4)).toNat) (hcounter : 4 ≤ (x - counter).toNat) :
    answered s counter cacheTarget x = s.memory x :=
  (DataMemory.setWord_of_far _ hcounter).trans ((DataMemory.setWord_of_far _ hslot).trans (saved_far hsaved))

namespace Compared

variable {host : DirectReturnTable} {target : Word} {s t : CodeState} (h : Compared host target s t)
include h

theorem esp_eq : t.esp = s.esp - 8 := by
  show t.registers 4 = _
  rw [h.registers, Function.update_of_ne (by decide), Function.update_of_ne (by decide), Function.update_self]

theorem loadFlags_eq (popped : Word) : loadFlags t.eflags popped = loadFlags s.eflags popped := by
  rw [h.eflags, loadFlags_withStatus]

/-- The restores give the registers back that the probe was entered with. -/
theorem restored (ecx : Word) : Function.update (Function.update (Function.update
    (Function.update t.registers 1 ecx) 4 (t.esp + 8)) 1 (s.registers 1)) 0 (s.registers 0) = s.registers := by
  have hesp : t.esp + 8 = s.registers 4 := by
    rw [h.esp_eq]
    show s.registers 4 - 8 + 8 = _
    bv_omega
  rw [hesp, h.registers]
  ext r : 1
  fin_cases r <;> simp [Function.update]

/-- The miss path. -/
theorem run_miss {code : DataMemory} (hcode : CodeAt code t.eip probeMiss.bytes) :
    ∃ s', t.run code 2 = some s' ∧ s'.eip = t.eip + 2 ∧ s'.registers = s.registers ∧ s'.eflags = t.eflags ∧
      s'.memory = t.memory := by
  obtain ⟨hrun, heip⟩ := CodeState.run_straight probeMiss_straight hcode
  refine ⟨_, hrun, heip, ?_⟩
  have hmemory : t.memory = saved s := h.memory
  have hecx : t.memory.getWord t.esp = s.registers 1 := by rw [hmemory, h.esp_eq, saved_ecx]
  have heax : t.memory.getWord (t.esp + 4) = s.registers 0 := by
    have haddress : s.esp - 8 + 4 = s.esp - 4 := by bv_omega
    rw [hmemory, h.esp_eq, haddress, saved_eax]
  have hrestored := h.restored (t.registers 1)
  rw [Function.update_eq_self] at hrestored
  simp only [Listing.effect, probeMiss, List.foldl_cons, List.foldl_nil, restores_effect, hecx, heax, hrestored,
    and_self]

/-- The hit path up to its return. -/
theorem probeHit_effect {cacheTarget : Word}
    (htarget : t.memory.getWord (aotDirectReturnTableIndex target host.mask <<< 3 + (host.keyAddress + 4)) =
      cacheTarget) (hcounter : Apart (s.esp - 8) 16 host.hitCounterAddress 4) :
    let u := (probeHit host).effect t
    u.registers = (s.execute s.eip .popfd).registers ∧ u.eflags = (s.execute s.eip .popfd).eflags ∧
      u.memory = answered s host.hitCounterAddress cacheTarget := by
  intro u
  have hecx : t.registers 1 = aotDirectReturnTableIndex target host.mask := by
    rw [h.registers, Function.update_self]
  rw [← hecx] at htarget
  -- the four stack words behind the answer
  have hslot : t.esp + 12 = s.esp + 4 := by
    rw [h.esp_eq]
    bv_omega
  have hnext : t.esp + 4 = s.esp - 4 := by
    rw [h.esp_eq]
    bv_omega
  have hmemory : t.memory = saved s := h.memory
  have hanswered : ((t.memory.setWord (t.esp + 12) cacheTarget).setWord host.hitCounterAddress
      ((t.memory.setWord (t.esp + 12) cacheTarget).getWord host.hitCounterAddress + 1)) =
        answered s host.hitCounterAddress cacheTarget := by
    rw [hslot, hmemory]
    rfl
  obtain ⟨hecx', heax', hflags⟩ := answered_stack cacheTarget hcounter
  have hrestored : Function.update (Function.update (Function.update (Function.update t.registers 1 cacheTarget) 4
      (t.registers 4 + 8)) 1 ((answered s host.hitCounterAddress cacheTarget).getWord (t.registers 4))) 0
        ((answered s host.hitCounterAddress cacheTarget).getWord (t.registers 4 + 4)) = s.registers := by
    have hesp : t.registers 4 = t.esp := rfl
    rw [hesp, hnext, heax', h.esp_eq, hecx', ← h.esp_eq]
    exact h.restored cacheTarget
  have hesp : s.registers 4 = s.esp := rfl
  obtain ⟨flags, hanswer⟩ := answer_effect t host.keyAddress host.hitCounterAddress htarget
  simp only [u, Listing.effect, probeHit, List.foldl_cons, List.foldl_nil, restores_effect, hanswer, hanswered,
    CodeState.execute_popfd, CodeState.esp_mk, Function.update_of_ne (show (4 : Fin 8) ≠ 1 by decide), hrestored,
    loadFlags_withStatus, h.loadFlags_eq, hesp, hflags, and_self]

theorem run_hit {popBytes : ℕ} (hlow : 4 ≤ popBytes) (hhigh : popBytes ≤ 0xFFFF + 4) {code : DataMemory}
    (hcode : CodeAt code t.eip ((probeHit host).bytes ++ probeReturn popBytes)) {cacheTarget : Word}
    (htarget : t.memory.getWord (aotDirectReturnTableIndex target host.mask <<< 3 + (host.keyAddress + 4)) =
      cacheTarget) (hcounter : Apart (s.esp - 8) 16 host.hitCounterAddress 4) :
    ∃ s', t.run code 7 = some s' ∧ ReturnsTo popBytes host.hitCounterAddress cacheTarget s s' := by
  obtain ⟨hrun, heip⟩ := CodeState.run_straight (probeHit_straight host) hcode.left
  obtain ⟨hregisters, heflags, hmemory⟩ := h.probeHit_effect htarget hcounter
  generalize (probeHit host).effect t = u at hrun heip hregisters heflags hmemory
  have hret := CodeState.step_of_codeAt (heip ▸ hcode.right) (encodes_probeReturn hlow hhigh)
  have hrun7 : t.run code (6 + 1) = some (u.execute (u.eip + BitVec.ofNat 32 (probeReturn popBytes).length)
      (.ret (BitVec.ofNat 32 (popBytes - 4)))) := by
    rw [CodeState.run_add, show t.run code 6 = some u from hrun, Option.bind_some, CodeState.run, hret]
    rfl
  have hesp : u.esp = s.esp + 4 := by
    show u.registers 4 = _
    rw [hregisters]
    exact Function.update_self (4 : Fin 8) (s.esp + 4) s.registers
  refine ⟨_, hrun7, ?_, ?_, heflags, ?_⟩
  · show u.memory.getWord u.esp = cacheTarget
    rw [hmemory, hesp, answered_target _ hcounter]
  · show Function.update u.registers 4 (u.registers 4 + _) = _
    rw [hregisters]
    rfl
  · intro x hsaved hslot hfar
    show u.memory x = s.memory x
    rw [hmemory, answered_far hsaved hslot hfar]

end Compared

/-! ## A probe and its table -/

/-- The probe does what the lookup says: sixteen instructions to the entry's cache target, or eleven
to the code behind it. -/
def ComputesLookup (table : AotDirectReturnTable) (host : DirectReturnTable) (popBytes length : ℕ)
    (code : DataMemory) (s : CodeState) : Prop :=
  match lookupAotDirectReturnEntry table (returnTarget s) with
  | some cacheTarget =>
    ∃ s', s.run code 16 = some s' ∧ ReturnsTo popBytes host.hitCounterAddress cacheTarget s s'
  | none => ∃ s', s.run code 11 = some s' ∧ FallsThrough length s s'

section
variable {table : AotDirectReturnTable} {host : DirectReturnTable} {guestSource : Word} {popBytes : ℕ}
  {f : Fragment} {code : DataMemory} {s : CodeState} (hform : table.WellFormed)
  (hemit : emitAotDirectReturnProbe guestSource popBytes = some f) (hentry : ProbeEntry table host f code s)
include hform hemit hentry

/-- Where the key of the slot is the return target, the probe goes to its hit path. -/
theorem run_to_hit (hkey : (table.slot (returnTarget s)).guestKey = returnTarget s) :
    ∃ t, s.run code 9 = some t ∧ Compared host (returnTarget s) s t ∧ t.eip = s.eip + 28 ∧
      CodeAt code t.eip ((probeHit host).bytes ++ probeReturn popBytes) := by
  obtain ⟨t, hrun, hcompared, heip⟩ := run_probeHead hemit hentry.code
  have hmemory : t.memory = saved s := hcompared.memory
  rw [hmemory, (hentry.slot_words hform).1, if_pos hkey] at heip
  have hcode := hentry.code
  rw [patchedProbe_eq hemit] at hcode
  have htail := hcode.right.right
  have hoffset : s.eip + BitVec.ofNat 32 (probeHead host).bytes.length +
      BitVec.ofNat 32 [0x75, BitVec.ofNat 8 (hitLength popBytes)].length = s.eip + 28 := add_assoc ..
  rw [← List.append_assoc, hoffset, ← heip] at htail
  exact ⟨t, hrun, hcompared, heip, htail.left⟩

theorem run_probe_hit (hkey : (table.slot (returnTarget s)).guestKey = returnTarget s) :
    ∃ s', s.run code 16 = some s' ∧
      ReturnsTo popBytes host.hitCounterAddress (table.slot (returnTarget s)).cacheTarget s s' := by
  obtain ⟨t, hrun, hcompared, -, hhit⟩ := run_to_hit hform hemit hentry hkey
  have hmemory : t.memory = saved s := hcompared.memory
  have hslotTarget := (hentry.slot_words hform).2
  rw [← hmemory] at hslotTarget
  obtain ⟨hlow, hhigh⟩ := popBytes_range hemit
  obtain ⟨s', hrun', hreturns⟩ := hcompared.run_hit hlow hhigh hhit hslotTarget hentry.counter_apart
  refine ⟨s', ?_, hreturns⟩
  rw [show 16 = 9 + 7 from rfl, CodeState.run_add, hrun, Option.bind_some, hrun']

theorem run_probe_miss (hkey : (table.slot (returnTarget s)).guestKey ≠ returnTarget s) :
    ∃ s', s.run code 11 = some s' ∧ FallsThrough (patchedProbe host f).length s s' := by
  obtain ⟨t, hrun, hcompared, heip⟩ := run_probeHead hemit hentry.code
  obtain ⟨hslotKey, -⟩ := hentry.slot_words hform
  have hmemory : t.memory = saved s := hcompared.memory
  rw [hmemory, hslotKey, if_neg hkey] at heip
  have hcode := hentry.code
  rw [patchedProbe_eq hemit] at hcode
  have hmiss : CodeAt code t.eip probeMiss.bytes := by
    have htail := hcode.right.right.right.right
    have hoffset : s.eip + BitVec.ofNat 32 (probeHead host).bytes.length +
        BitVec.ofNat 32 [0x75, BitVec.ofNat 8 (hitLength popBytes)].length +
          BitVec.ofNat 32 (probeHit host).bytes.length + BitVec.ofNat 32 (probeReturn popBytes).length =
            s.eip + BitVec.ofNat 32 (28 + hitLength popBytes) := by
      have hlength : BitVec.ofNat 32 (28 + hitLength popBytes) =
          48 + BitVec.ofNat 32 (probeReturn popBytes).length := by
        rw [hitLength, ← Nat.add_assoc, BitVec.ofNat_add]
        rfl
      have hhead : s.eip + BitVec.ofNat 32 26 + BitVec.ofNat 32 2 + BitVec.ofNat 32 20 = s.eip + 48 := by bv_omega
      rw [hlength, ← add_assoc, ← hhead]
      rfl
    rwa [hoffset, ← heip] at htail
  obtain ⟨s', hrun', hend, hregisters, heflags, hmemory'⟩ := hcompared.run_miss hmiss
  refine ⟨s', ?_, ?_, hregisters, ?_, ?_⟩
  · rw [show 11 = 9 + 2 from rfl, CodeState.run_add, hrun, Option.bind_some, hrun']
  · rw [hend, heip, length_patchedProbe hemit, add_assoc, Nat.add_comm 30, Nat.add_comm 28, BitVec.ofNat_add,
      BitVec.ofNat_add, add_assoc]
    rfl
  · intro popped
    rw [heflags, hcompared.loadFlags_eq]
  · intro x hx
    rw [hmemory', hmemory, saved_far hx]

/-- Where the return target is not 0, or slot 0 is occupied, the comparison of the probe decides
as the lookup does. -/
theorem computesLookup_of_ne (h : returnTarget s ≠ 0 ∨ (table.slot 0).guestKey ≠ 0) :
    ComputesLookup table host popBytes (patchedProbe host f).length code s := by
  unfold ComputesLookup
  rw [hform.lookup_eq]
  by_cases hkey : (table.slot (returnTarget s)).guestKey = returnTarget s
  · have hne : returnTarget s ≠ 0 := by
      intro hzero
      rw [hzero] at hkey h
      exact h.elim (fun h => h rfl) fun h => h hkey
    rw [if_pos ⟨hne, hkey⟩]
    exact run_probe_hit hform hemit hentry hkey
  · rw [if_neg fun hfound => hkey hfound.2]
    exact run_probe_miss hform hemit hentry hkey

/-- An empty slot 0 answers for the return target 0: the probe jumps to its cache target, 0. -/
theorem run_probe_zero (htarget : returnTarget s = 0) (hempty : (table.slot 0).guestKey = 0) :
    ∃ s', s.run code 16 = some s' ∧ ReturnsTo popBytes host.hitCounterAddress 0 s s' := by
  have hkey : (table.slot (returnTarget s)).guestKey = returnTarget s := by rw [htarget, hempty]
  have hslot : (table.slot (returnTarget s)).cacheTarget = 0 := by
    rw [htarget]
    exact hform.empty _ (hform.slot_mem 0) hempty
  have hrun := run_probe_hit hform hemit hentry hkey
  rwa [hslot] at hrun

/-- There the probe is still on its hit path when it should have fallen through. -/
theorem not_computesLookup_of_zero (htarget : returnTarget s = 0) (hempty : (table.slot 0).guestKey = 0) :
    ¬ComputesLookup table host popBytes (patchedProbe host f).length code s := by
  intro hcomputes
  unfold ComputesLookup at hcomputes
  rw [hform.lookup_eq, if_neg fun hfound => hfound.1 htarget] at hcomputes
  obtain ⟨s', hrun', hfalls⟩ := hcomputes
  have hkey : (table.slot (returnTarget s)).guestKey = returnTarget s := by rw [htarget, hempty]
  obtain ⟨t, hrun, -, heip, hhit⟩ := run_to_hit hform hemit hentry hkey
  have hfirst : Listing.Straight ((probeHit host).take 2) :=
    fun line hline => probeHit_straight host line (List.mem_of_mem_take hline)
  have hbytes : (probeHit host).bytes = Listing.bytes ((probeHit host).take 2) ++
      Listing.bytes ((probeHit host).drop 2) := rfl
  rw [hbytes, List.append_assoc] at hhit
  obtain ⟨hrun2, heip2⟩ := CodeState.run_straight hfirst hhit.left
  have hrun11 : s.run code (9 + 2) = some (Listing.effect ((probeHit host).take 2) t) := by
    rw [CodeState.run_add, hrun, Option.bind_some]
    exact hrun2
  obtain rfl := Option.some.inj (hrun'.symm.trans hrun11)
  have hend := hfalls.eip
  rw [heip2, heip, length_patchedProbe hemit, add_assoc, add_right_inj] at hend
  have hoffset : (28 : Word) + BitVec.ofNat 32 (Listing.bytes ((probeHit host).take 2)).length = 39 := rfl
  rw [hoffset] at hend
  have hlong : hitLength popBytes = 21 ∨ hitLength popBytes = 23 := by
    unfold hitLength probeReturn
    split_ifs <;> simp
  rcases hlong with hlong | hlong <;> rw [hlong] at hend <;> exact absurd hend (by decide)

end

/-- A probe on a reached table computes the lookup, except where the return target is 0 and slot 0
is empty: the probe takes the mark of an empty slot for the key. -/
theorem direct_return_probe {table : AotDirectReturnTable} (hreach : table.Reachable) {guestSource : Word}
    {popBytes : ℕ} {f : Fragment} (hemit : emitAotDirectReturnProbe guestSource popBytes = some f)
    {host : DirectReturnTable} {code : DataMemory} {s : CodeState} (hentry : ProbeEntry table host f code s) :
    ComputesLookup table host popBytes (patchedProbe host f).length code s ↔
      returnTarget s ≠ 0 ∨ (table.slot 0).guestKey ≠ 0 := by
  constructor
  · intro hcomputes
    by_contra hzero
    push Not at hzero
    exact not_computesLookup_of_zero hreach.wellFormed hemit hentry hzero.1 hzero.2 hcomputes
  · exact computesLookup_of_ne hreach.wellFormed hemit hentry

/-! ## Two entries -/

/-- A placed table of 256 entries. -/
def sampleTableHost : DirectReturnTable := ⟨0x100000, 0xFF, 0x200000⟩

/-- The probe of a plain `ret`. -/
def sampleProbe : Fragment := (emitAotDirectReturnProbe 0x401000 4).getD {}

/-- Code memory with that probe. -/
def sampleProbeCode : DataMemory :=
  fun x => (patchedProbe sampleTableHost sampleProbe).getD (x - 0x3000).toNat 0

/-- The probe is entered with its flags and its return target on the stack at 8000h. -/
def sampleProbeState (memory : DataMemory) : CodeState :=
  ⟨0x3000, fun r => if r = 4 then 0x8000 else 0, 2, memory⟩

/-- A table with one entry. -/
def sampleReturnTable : AotDirectReturnTable :=
  (insertAotDirectReturnEntry (resetAotDirectReturnTable 8) 0x401005 0x3400).1

/-- The memory of that table, with its key as the return target. -/
def sampleReturnMemory : DataMemory :=
  ((DataMemory.setWord (fun _ => 0) 0x8004 0x401005).setWord 0x100028 0x401005).setWord 0x10002C 0x3400

theorem sampleProbe_emitted : emitAotDirectReturnProbe 0x401000 4 = some sampleProbe := rfl

theorem sampleProbeCode_at : CodeAt sampleProbeCode 0x3000 (patchedProbe sampleTableHost sampleProbe) := by
  unfold CodeAt
  decide

theorem sample_table_apart (memory : DataMemory) {i : ℕ} (h : i < 256) :
    Apart ((sampleProbeState memory).esp - 8) 8 (sampleTableHost.keyAddress + BitVec.ofNat 32 (8 * i)) 8 := by
  show Apart ((0x8000 : Word) - 8) 8 (0x100000 + BitVec.ofNat 32 (8 * i)) 8
  constructor <;> bv_omega

/-- Memory without a bit set. -/
theorem getWord_zero (a : Word) : DataMemory.getWord (fun _ => 0) a = 0 := by
  show word32 0 0 0 0 = 0
  decide

/-- Only the entry of the sample and its return target are not zero. -/
theorem sampleReturnMemory_apart {a : Word} (hstack : Apart 0x8004 4 a 4) (hkey : Apart 0x100028 4 a 4)
    (htarget : Apart 0x10002C 4 a 4) : sampleReturnMemory.getWord a = 0 := by
  unfold sampleReturnMemory
  rw [DataMemory.getWord_setWord_apart _ _ htarget, DataMemory.getWord_setWord_apart _ _ hkey,
    DataMemory.getWord_setWord_apart _ _ hstack, getWord_zero]

theorem sampleReturnTable_entries :
    sampleReturnTable.entries = (List.replicate 256 {}).set 5 ⟨0x401005, 0x3400⟩ := by
  decide +kernel

theorem sample_entry : ProbeEntry sampleReturnTable sampleTableHost sampleProbe sampleProbeCode
    (sampleProbeState sampleReturnMemory) where
  code := sampleProbeCode_at
  mask := by decide
  keys := by
    intro i hi
    simp only [sampleReturnTable_entries, List.getElem_set, List.getElem_replicate]
    simp only [sampleReturnTable_entries, List.length_set, List.length_replicate] at hi
    show sampleReturnMemory.getWord (0x100000 + BitVec.ofNat 32 (8 * i)) = _
    by_cases hslot : 5 = i
    · subst hslot
      decide
    · rw [if_neg hslot]
      exact sampleReturnMemory_apart (by constructor <;> bv_omega) (by constructor <;> bv_omega)
        (by constructor <;> bv_omega)
  targets := by
    intro i hi
    simp only [sampleReturnTable_entries, List.getElem_set, List.getElem_replicate]
    simp only [sampleReturnTable_entries, List.length_set, List.length_replicate] at hi
    show sampleReturnMemory.getWord (0x100000 + BitVec.ofNat 32 (8 * i) + 4) = _
    by_cases hslot : 5 = i
    · subst hslot
      decide
    · rw [if_neg hslot]
      exact sampleReturnMemory_apart (by constructor <;> bv_omega) (by constructor <;> bv_omega)
        (by constructor <;> bv_omega)
  table_apart := by
    intro i hi
    rw [sampleReturnTable_entries, List.length_set, List.length_replicate] at hi
    exact sample_table_apart _ hi
  counter_apart := by decide

theorem direct_return_probe_sample :
    ComputesLookup sampleReturnTable sampleTableHost 4 (patchedProbe sampleTableHost sampleProbe).length
      sampleProbeCode (sampleProbeState sampleReturnMemory) ↔
      returnTarget (sampleProbeState sampleReturnMemory) ≠ 0 ∨ (sampleReturnTable.slot 0).guestKey ≠ 0 :=
  direct_return_probe ((AotDirectReturnTable.Reachable.reset 8).insert 0x401005 0x3400) sampleProbe_emitted
    sample_entry

theorem zero_table_length : (resetAotDirectReturnTable 8).entries.length = 256 := List.length_replicate

theorem zero_entry : ProbeEntry (resetAotDirectReturnTable 8) sampleTableHost sampleProbe sampleProbeCode
    (sampleProbeState fun _ => 0) where
  code := sampleProbeCode_at
  mask := by decide
  keys := fun i h => by
    simp only [resetAotDirectReturnTable, List.getElem_replicate]
    exact getWord_zero _
  targets := fun i h => by
    simp only [resetAotDirectReturnTable, List.getElem_replicate]
    exact getWord_zero _
  table_apart := fun i h => sample_table_apart _ (by rwa [zero_table_length] at h)
  counter_apart := by decide

/-- A return to 0 on an empty table is a hit of the probe and none of the lookup. -/
theorem zero_target_hits :
    lookupAotDirectReturnEntry (resetAotDirectReturnTable 8) (returnTarget (sampleProbeState fun _ => 0)) = none ∧
      (∃ s', (sampleProbeState fun _ => 0).run sampleProbeCode 16 = some s' ∧ s'.eip = 0) ∧
        ¬ComputesLookup (resetAotDirectReturnTable 8) sampleTableHost 4
          (patchedProbe sampleTableHost sampleProbe).length sampleProbeCode (sampleProbeState fun _ => 0) := by
  have hform := AotDirectReturnTable.wellFormed_reset 8
  have hempty : ((resetAotDirectReturnTable 8).slot 0).guestKey = 0 := by decide +kernel
  obtain ⟨s', hrun, hreturns⟩ := run_probe_zero hform sampleProbe_emitted zero_entry rfl hempty
  refine ⟨?_, ⟨s', hrun, hreturns.eip⟩, not_computesLookup_of_zero hform sampleProbe_emitted zero_entry rfl hempty⟩
  rw [hform.lookup_eq]
  exact if_neg fun hfound => hfound.1 rfl

end Repiu.Engine
