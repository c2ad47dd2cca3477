import Repiu.Engine.SegmentPatch
import Repiu.Runtime.SlotSpecs
import Repiu.X86.SelectorCode

/-!
# Guarded load and pop slots

The bytes of a guarded slot of the 32-bit back end, as its emitter writes, the build links and its
patcher opens them.
-/

namespace Repiu.Engine

open Repiu.Runtime Repiu.X86

/-- The two guarded accesses that load a selector into a segment register. -/
inductive GuardedAccess
  | load | pop
deriving DecidableEq

namespace GuardedAccess

/-- The emitter of the slot. -/
def emit : GuardedAccess → AotInstructionRecord → Option Fragment
  | .load => emitGuardedSegmentLoadSlot
  | .pop => emitGuardedSegmentPopSlot

/-- The patcher of the slot. -/
def patch (access : GuardedAccess) (table : AotSegmentTable) (counters : CounterAddresses) (f : Fragment)
    (mem : Memory) : Memory :=
  match access with
  | .load => patchAotGuardedSegmentLoadSites 0 table counters f.guardedSegmentLoadSites mem
  | .pop => patchAotGuardedSegmentPopSites 0 table counters f.guardedSegmentPopSites mem

/-- What a native path adds to ESP. -/
def released : GuardedAccess → Word
  | .load => 0
  | .pop => 4

/-- The code that does so. -/
def advance : GuardedAccess → List Byte
  | .load => []
  | .pop => [0x8D, 0x64, 0x24, 0x04]

/-- The jump over the native path. -/
def distance : GuardedAccess → Byte
  | .load => 0x13
  | .pop => 0x17

/-- The code that reads the new selector. -/
def source : GuardedAccess → AotInstructionRecord → Option (List Byte)
  | .load => encodeGuardedSegmentLoadSource
  | .pop => fun _ => some [0x66, 0x8B, 0x44, 0x24, 0x08]

end GuardedAccess

/-- The jumps of a slot with their displacement. -/
def linkJumps (f : Fragment) (displacement : Word) (mem : Memory) : Memory :=
  f.fixups.foldl (fun mem x => mem.set32 x.cachePatchOffset displacement) mem

/-- The bytes of a guarded slot behind its linker and its patcher. -/
def patchedGuard (access : GuardedAccess) (table : AotSegmentTable) (counters : CounterAddresses)
    (displacement : Word) (f : Fragment) : List Byte :=
  (List.range f.bytes.length).map
    (access.patch table counters f (linkJumps f displacement (Memory.setBytes (fun _ => 0) 0 f.bytes)))

/-! ## Bytes around words -/

/-- Code with words in it: each word behind the bytes in front of it, and the bytes behind the last. -/
def fill : List (List Byte × Word) → List Byte → List Byte
  | [], tail => tail
  | (bytes, word) :: rest, tail => bytes ++ (le32 word ++ fill rest tail)

theorem fill_append (xs ys : List (List Byte × Word)) (tail : List Byte) :
    fill (xs ++ ys) tail = fill xs [] ++ fill ys tail := by
  induction xs with
  | nil => rfl
  | cons x xs ih =>
    obtain ⟨bytes, word⟩ := x
    rw [List.cons_append, fill, fill, ih]
    simp only [List.append_assoc]

/-- Storing one of the words. -/
theorem set32_fill (m : Memory) (xs ys : List (List Byte × Word)) (bytes tail : List Byte) (old new : Word)
    {offset : ℕ} (hoffset : offset = (fill xs []).length + bytes.length) :
    (m.setBytes 0 (fill (xs ++ (bytes, old) :: ys) tail)).set32 (0 + offset) new =
      m.setBytes 0 (fill (xs ++ (bytes, new) :: ys) tail) := by
  have hsplit (w : Word) : fill (xs ++ (bytes, w) :: ys) tail =
      (fill xs [] ++ bytes) ++ (le32 w ++ fill ys tail) := by
    rw [fill_append, fill, List.append_assoc]
  rw [hsplit, hsplit]
  exact Memory.set32_setBytes m 0 (by rw [hoffset, List.length_append]) (le32_length old) _

/-- Storing bytes that are there already. -/
theorem setBytes_take (m : Memory) (bytes : List Byte) (n : ℕ) :
    (m.setBytes 0 bytes).setBytes 0 (bytes.take n) = m.setBytes 0 bytes := by
  funext x
  by_cases hx : x < (bytes.take n).length
  · have hx' : x < bytes.length := hx.trans_le (List.length_take_le' n bytes)
    have hin : ((m.setBytes 0 bytes).setBytes 0 (bytes.take n)) (0 + x) = (bytes.take n).getD x 0 :=
      Memory.setBytes_in _ _ hx
    have hin' : (m.setBytes 0 bytes) (0 + x) = bytes.getD x 0 := Memory.setBytes_in _ _ hx'
    rw [Nat.zero_add] at hin hin'
    rw [hin, hin', List.getD_eq_getElem _ _ hx, List.getD_eq_getElem _ _ hx', List.getElem_take]
  · rw [Memory.setBytes_out _ _ (Or.inr (by omega))]

/-! ## The slot -/

/-- The words of a guarded slot. -/
structure GuardWords where
  shadow : Word
  pair0 : Word
  pair1 : Word
  store : Word
  success : Word
  displacement : Word
  fallback : Word

/-- The code of a guarded slot in front of its trap, around words. -/
def guardCode (source : List Byte) (distance : Byte) (advance : List Byte) (w : GuardWords) :
    List (List Byte × Word) :=
  [([0x9C, 0x50] ++ source ++ [0x66, 0x3B, 0x05], w.shadow),
   ([0x74, 0x18, 0x66, 0x3B, 0x05], w.pair0),
   ([0x74, 0x09, 0x66, 0x3B, 0x05], w.pair1),
   ([0x75, distance, 0x66, 0xA3], w.store),
   ([0xFF, 0x05], w.success),
   ([0x58, 0x9D] ++ advance ++ [0xE9], w.displacement),
   ([0xFF, 0x05], w.fallback)]

/-- The bytes of a guarded slot. -/
def guardBytes (source : List Byte) (distance : Byte) (advance : List Byte) (w : GuardWords) : List Byte :=
  fill (guardCode source distance advance w) [0x58, 0x9D, 0xCC]

/-- The words the patcher writes. -/
def guardWords (r : AotSegmentResolution) (counters : CounterAddresses) (displacement : Word) : GuardWords where
  shadow := r.shadowAddress
  pair0 := pairAddress r.pair0Address r.shadowAddress
  pair1 := pairAddress r.pair1Address r.shadowAddress
  store := r.shadowAddress
  success := counters.success
  displacement := displacement
  fallback := counters.fallback

/-- The site of the shared body. -/
def bodyOperands (body : GuardedSegmentBody) (segment : ℕ) : GuardedOperands where
  cacheOffset := 0
  shadowAddressOffset := body.shadowAddressOffset
  pair0AddressOffset := body.pair0AddressOffset
  pair1AddressOffset := body.pair1AddressOffset
  shadowStoreOffset := body.shadowStoreOffset
  successCounterAddressOffset := body.successCounterAddressOffset
  fallbackCounterAddressOffset := body.fallbackCounterAddressOffset
  segmentRegister := segment
  guardPrologue := recordGuardPrologue body.bytes
  hasCounterOperands := true

section
variable {source advance : List Byte} {distance : Byte}

/-- The emitted body is the code with zero words. -/
theorem guardedSegmentBody_bytes :
    (guardedSegmentBody source distance advance).bytes =
      guardBytes source distance advance ⟨0, 0, 0, 0, 0, 0, 0⟩ := by
  have hbytes : (guardedSegmentBody source distance advance).bytes =
      [0x9C, 0x50] ++ source ++ [0x66, 0x3B, 0x05] ++ le32 0 ++ [0x74, 0x18, 0x66, 0x3B, 0x05] ++ le32 0 ++
        [0x74, 0x09, 0x66, 0x3B, 0x05] ++ le32 0 ++ [0x75, distance, 0x66, 0xA3] ++ le32 0 ++ [0xFF, 0x05] ++
        le32 0 ++ [0x58, 0x9D] ++ advance ++ [0xE9] ++ le32 0 ++ [0xFF, 0x05] ++ le32 0 ++ [0x58, 0x9D] ++
        [0xCC] := rfl
  rw [hbytes]
  unfold guardBytes guardCode
  simp only [fill, List.append_assoc, List.cons_append, List.nil_append]

/-- Storing a word of the slot. -/
theorem set32_guardBytes (m : Memory) (source advance : List Byte) (distance : Byte) (w : GuardWords) (new : Word) :
    (m.setBytes 0 (guardBytes source distance advance w)).set32 (0 + (5 + source.length)) new =
        m.setBytes 0 (guardBytes source distance advance { w with shadow := new }) ∧
      (m.setBytes 0 (guardBytes source distance advance w)).set32 (0 + (14 + source.length)) new =
        m.setBytes 0 (guardBytes source distance advance { w with pair0 := new }) ∧
      (m.setBytes 0 (guardBytes source distance advance w)).set32 (0 + (23 + source.length)) new =
        m.setBytes 0 (guardBytes source distance advance { w with pair1 := new }) ∧
      (m.setBytes 0 (guardBytes source distance advance w)).set32 (0 + (31 + source.length)) new =
        m.setBytes 0 (guardBytes source distance advance { w with store := new }) ∧
      (m.setBytes 0 (guardBytes source distance advance w)).set32 (0 + (37 + source.length)) new =
        m.setBytes 0 (guardBytes source distance advance { w with success := new }) ∧
      (m.setBytes 0 (guardBytes source distance advance w)).set32 (0 + (44 + source.length + advance.length)) new =
        m.setBytes 0 (guardBytes source distance advance { w with displacement := new }) ∧
      (m.setBytes 0 (guardBytes source distance advance w)).set32 (0 + (50 + source.length + advance.length)) new =
        m.setBytes 0 (guardBytes source distance advance { w with fallback := new }) := by
  refine ⟨?_, ?_, ?_, ?_, ?_, ?_, ?_⟩
  · exact set32_fill m [] _ _ _ _ new (by simp [fill]; omega)
  · exact set32_fill m ((guardCode source distance advance w).take 1) _ _ _ _ new (by simp [guardCode, fill]; omega)
  · exact set32_fill m ((guardCode source distance advance w).take 2) _ _ _ _ new (by simp [guardCode, fill]; omega)
  · exact set32_fill m ((guardCode source distance advance w).take 3) _ _ _ _ new (by simp [guardCode, fill]; omega)
  · exact set32_fill m ((guardCode source distance advance w).take 4) _ _ _ _ new (by simp [guardCode, fill]; omega)
  · exact set32_fill m ((guardCode source distance advance w).take 5) _ _ _ _ new (by simp [guardCode, fill]; omega)
  · exact set32_fill m ((guardCode source distance advance w).take 6) _ _ _ _ new (by simp [guardCode, fill]; omega)

/-- What is saved of the slot does not depend on its words. -/
theorem recordGuardPrologue_guardBytes (source advance : List Byte) (distance : Byte) (w w' : GuardWords) :
    recordGuardPrologue (guardBytes source distance advance w) = (guardBytes source distance advance w').take 5 := by
  have htake (w : GuardWords) : (guardBytes source distance advance w).take 5 =
      ([0x9C, 0x50] ++ source ++ [0x66, 0x3B, 0x05]).take 5 := by
    show ([0x9C, 0x50] ++ source ++ [0x66, 0x3B, 0x05] ++ _).take 5 = _
    apply List.take_append_of_le_length
    simp
  exact (htake w).trans (htake w').symm

/-- The words are patched over the zeros that stand for them. -/
theorem patchGuardedOperands_body {table : AotSegmentTable} {counters : CounterAddresses} {segment : ℕ}
    {r : AotSegmentResolution} (hfind : table.find segment = some r) (hshadow : r.shadowAddress ≠ 0)
    (hready : counters.ready true = true) (displacement : Word) :
    patchGuardedOperands 0 table counters
        ((Memory.setBytes (fun _ => 0) 0 (guardedSegmentBody source distance advance).bytes).set32
          (guardedSegmentBody source distance advance).patchOffset displacement)
        (bodyOperands (guardedSegmentBody source distance advance) segment) =
      Memory.setBytes (fun _ => 0) 0 (guardBytes source distance advance (guardWords r counters displacement)) := by
  have hoffsets := guardedSegmentBody_offsets source distance advance
  have hbytes : (guardedSegmentBody source distance advance).bytes = _ := guardedSegmentBody_bytes
  have hresolution : guardedResolution table segment
      (recordGuardPrologue (guardedSegmentBody source distance advance).bytes) (counters.ready true) = some r := by
    unfold guardedResolution
    rw [hfind]
    dsimp only
    rw [if_neg]
    rintro (hzero | hnil | hnot)
    · exact hshadow hzero
    · rw [hbytes, recordGuardPrologue] at hnil
      cases hnil
    · exact hnot hready
  have hset := set32_guardBytes (fun _ => 0) source advance distance
  unfold patchGuardedOperands bodyOperands
  dsimp only
  rw [hresolution]
  dsimp only
  have hpair : (guardedSegmentBody source distance advance).pair0AddressOffset ≠ 0 := by
    rw [hoffsets.pair0]
    omega
  rw [if_pos hpair, if_pos rfl, hoffsets.shadow, hoffsets.pair0, hoffsets.pair1, hoffsets.store, hoffsets.success,
    hoffsets.patch, hoffsets.counter, hbytes]
  have hlinked := (hset ⟨0, 0, 0, 0, 0, 0, 0⟩ displacement).2.2.2.2.2.1
  rw [Nat.zero_add] at hlinked
  rw [hlinked, recordGuardPrologue_guardBytes source advance distance _ ⟨0, 0, 0, 0, 0, displacement, 0⟩,
    Nat.add_zero, setBytes_take, (hset _ _).1, (hset _ _).2.1, (hset _ _).2.2.1, (hset _ _).2.2.2.1,
    (hset _ _).2.2.2.2.1, (hset _ _).2.2.2.2.2.2]
  rfl

end

theorem length_guardBytes (source advance : List Byte) (distance : Byte) (w : GuardWords) :
    (guardBytes source distance advance w).length = source.length + advance.length + 57 := by
  unfold guardBytes guardCode
  simp only [fill, List.length_append, List.length_cons, List.length_nil, le32_length]
  omega

/-- A slot has the shared body, linked and patched at its offsets. -/
theorem emitted_body {access : GuardedAccess} {record : AotInstructionRecord} {f : Fragment}
    (hemit : access.emit record = some f) :
    ∃ source, access.source record = some source ∧
      f.bytes = (guardedSegmentBody source access.distance access.advance).bytes ∧
      f.fixups = [edgeFixup .kBlockFallthrough record record.fallthroughTarget
        (guardedSegmentBody source access.distance access.advance).patchOffset] ∧
      ∀ table counters mem, access.patch table counters f mem = patchGuardedOperands 0 table counters mem
        (bodyOperands (guardedSegmentBody source access.distance access.advance) record.segmentRegister) := by
  cases access with
  | load =>
    replace hemit : emitGuardedSegmentLoadSlot record = some f := hemit
    unfold emitGuardedSegmentLoadSlot at hemit
    split at hemit
    · cases hemit
    cases hsource : encodeGuardedSegmentLoadSource record with
    | none =>
      rw [hsource] at hemit
      cases hemit
    | some source =>
      rw [hsource] at hemit
      refine ⟨source, hsource, ?_⟩
      dsimp only [GuardedAccess.distance, GuardedAccess.advance] at hemit ⊢
      generalize guardedSegmentBody source 0x13 [] = body at hemit ⊢
      rw [← Option.some.inj hemit]
      exact ⟨rfl, rfl, fun _ _ _ => rfl⟩
  | pop =>
    replace hemit : emitGuardedSegmentPopSlot record = some f := hemit
    refine ⟨[0x66, 0x8B, 0x44, 0x24, 0x08], rfl, ?_⟩
    dsimp only [GuardedAccess.distance, GuardedAccess.advance]
    unfold emitGuardedSegmentPopSlot at hemit
    by_cases hform : record.bytes = [] ∨ ¬isGuardedSegment record.segmentRegister = true
    · rw [if_pos hform] at hemit
      cases hemit
    rw [if_neg hform] at hemit
    generalize guardedSegmentBody [0x66, 0x8B, 0x44, 0x24, 0x08] 0x17 [0x8D, 0x64, 0x24, 0x04] = body at hemit ⊢
    rw [← Option.some.inj hemit]
    exact ⟨rfl, rfl, fun _ _ _ => rfl⟩

/-- The bytes of a slot that is linked and opened. -/
theorem patchedGuard_eq {access : GuardedAccess} {record : AotInstructionRecord} {f : Fragment}
    (hemit : access.emit record = some f) {table : AotSegmentTable} {counters : CounterAddresses}
    {r : AotSegmentResolution} (hfind : table.find record.segmentRegister = some r) (hshadow : r.shadowAddress ≠ 0)
    (hready : counters.ready true = true) (displacement : Word) :
    ∃ source, access.source record = some source ∧
      patchedGuard access table counters displacement f =
        guardBytes source access.distance access.advance (guardWords r counters displacement) ∧
      f.bytes.length = source.length + access.advance.length + 57 ∧
      f.fixups = [edgeFixup .kBlockFallthrough record record.fallthroughTarget
        (44 + source.length + access.advance.length)] := by
  obtain ⟨source, hsource, hbytes, hfixups, hpatch⟩ := emitted_body hemit
  have hlink (mem : Memory) : linkJumps f displacement mem =
      mem.set32 (guardedSegmentBody source access.distance access.advance).patchOffset displacement := by
    rw [linkJumps, hfixups]
    generalize (guardedSegmentBody source access.distance access.advance).patchOffset = offset
    rfl
  refine ⟨source, hsource, ?_, ?_, ?_⟩
  rotate_left
  · rw [hbytes, guardedSegmentBody_bytes, length_guardBytes]
  · rw [hfixups, (guardedSegmentBody_offsets source access.distance access.advance).patch]
  have hlength : f.bytes.length =
      (guardBytes source access.distance access.advance (guardWords r counters displacement)).length := by
    rw [hbytes, guardedSegmentBody_bytes, length_guardBytes, length_guardBytes]
  rw [patchedGuard, hpatch, hlink, hlength, hbytes, patchGuardedOperands_body hfind hshadow hready,
    Memory.map_setBytes]

end Repiu.Engine
