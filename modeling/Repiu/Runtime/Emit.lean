import Repiu.Runtime.Lowering
import Repiu.Runtime.CodeCache

/-!
# Slot emitters

The slots of the 32-bit back end (`aot_code_cache.cpp`).  An emitter gives the
fragment it appends, or `none` where the source returns false without having
appended anything.  Offsets count from the first byte of the slot.
-/

namespace Repiu.Runtime

open Repiu.X86

/-- `kInlineCacheEntryCount`. -/
def kInlineCacheEntryCount : ℕ := 4

/-- `AppendRel32`: an opcode and the displacement a fixup fills in. -/
def appendRel32 (opcode : Byte) : List Byte := opcode :: le32 0

/-- The displacement `PatchRel32` stores at `patch` to reach `target`. -/
def rel32 (patch target : ℕ) : Word := BitVec.ofInt 32 ((target : ℤ) - ((patch : ℤ) + 4))

/-- The single-`INT3` slot with its fixup. -/
def boundarySlot (kind : AotFixupKind) (record : AotInstructionRecord) : Fragment :=
  { bytes := [0xCC]
    fixups := [{ kind := kind, guestSource := record.guestAddress, guestTarget := 0
                 cachePatchOffset := 0 }] }

/-- An unresolved direct edge of the record. -/
def edgeFixup (kind : AotFixupKind) (record : AotInstructionRecord) (target : Word) (patch : ℕ) :
    AotCodeCacheFixup :=
  { kind := kind, guestSource := record.guestAddress, guestTarget := target
    cachePatchOffset := patch }

/-- `RecordGuardPrologue`: the first bytes of the slot, as emitted. -/
def recordGuardPrologue (slot : List Byte) : List Byte := slot.take kAotSegmentGuardPrologueBytes

/-! ## Branches -/

/-- `IsBackwardEdge`. -/
def isBackwardEdge (record : AotInstructionRecord) : Bool :=
  match record.kind with
  | .kDirectJump => record.directTarget ≤ record.guestAddress
  | .kConditionalBranch =>
    record.directTarget ≤ record.guestAddress ∨ record.fallthroughTarget ≤ record.guestAddress
  | _ => false

/-- `kTimerSafePointInstructionCount`. -/
def kTimerSafePointInstructionCount : ℕ := 7

/-- `EmitTimerSafePoint`. -/
def emitTimerSafePoint (record : AotInstructionRecord) (longMode : Bool := false) : Fragment :=
  let head := 0x9C :: (if longMode then [0x83, 0x3C, 0x25] else [0x83, 0x3D])
  let body := head ++ le32 0 ++ [0x00, 0x75, 0x03, 0x9D, 0xEB, 0x02, 0x9D]
  { bytes := body ++ [0xCC]
    timerSafePointSites :=
      [{ guestSource := record.guestAddress
         cacheOffset := 0
         requestAddressOffset := head.length
         breakpointOffset := body.length }] }

/-- `ReadConditionOpcode`. -/
def readConditionOpcode : Mnemonic → Option Byte
  | .jo => some 0x80
  | .jno => some 0x81
  | .jb => some 0x82
  | .jnb => some 0x83
  | .jz => some 0x84
  | .jnz => some 0x85
  | .jbe => some 0x86
  | .jnbe => some 0x87
  | .js => some 0x88
  | .jns => some 0x89
  | .jp => some 0x8A
  | .jnp => some 0x8B
  | .jl => some 0x8C
  | .jnl => some 0x8D
  | .jle => some 0x8E
  | .jnle => some 0x8F
  | _ => none

/-- The safe point in front of a backward edge. -/
def safePointIf (plant : Bool) (record : AotInstructionRecord) (longMode : Bool := false) : Fragment :=
  if plant then emitTimerSafePoint record longMode else {}

/-- The direct-call slot: `push imm32; jmp rel32`. -/
def emitDirectCall (record : AotInstructionRecord) : Fragment :=
  { bytes := 0x68 :: le32 record.fallthroughTarget ++ appendRel32 0xE9
    fixups := [edgeFixup .kDirectCall record record.directTarget 6] }

/-- A direct jump without its safe point. -/
def emitJump (record : AotInstructionRecord) : Fragment :=
  { bytes := appendRel32 0xE9
    fixups := [edgeFixup .kDirectJump record record.directTarget 1] }

/-- The direct-jump slot. -/
def emitDirectJump (safePoints : Bool) (record : AotInstructionRecord) : Fragment :=
  (safePointIf (safePoints && isBackwardEdge record) record).append (emitJump record)

/-- The conditional-branch slot: both edges are explicit. -/
def emitConditionalBranch (safePoints : Bool) (record : AotInstructionRecord) : Fragment :=
  match readConditionOpcode record.mnemonic with
  | none =>
    { bytes := [0xCC]
      fixups := [edgeFixup .kConditionalBranch record record.directTarget 0] }
  | some opcode =>
    (safePointIf (safePoints && isBackwardEdge record) record).append
      { bytes := 0x0F :: appendRel32 opcode ++ appendRel32 0xE9
        fixups := [edgeFixup .kConditionalBranch record record.directTarget 2,
          edgeFixup .kDirectJump record record.fallthroughTarget 7] }

/-! ## Inline caches -/

/-- One guard of an inline cache: compare, the jump to the miss path that learning turns into
`jne`, and the jump to the learned target behind `popfd` and `tail`. -/
def inlineCacheEntryBytes (compare tail : List Byte) (guardDisplacement : Word) : List Byte :=
  compare ++ le32 0 ++ 0xE9 :: le32 guardDisplacement ++ [0x90, 0x9D] ++ tail ++ appendRel32 0xE9

/-- The bytes one guard occupies. -/
def inlineCacheStride (compareLength tailLength : ℕ) : ℕ := compareLength + 4 + 6 + 1 + tailLength + 5

/-- The offsets of the guard of the given index; the chain starts behind the slot's `pushfd`. -/
def inlineCacheEntryAt (compareLength tailLength index : ℕ) : AotInlineCacheEntry :=
  let start := 1 + index * inlineCacheStride compareLength tailLength
  { compareOffset := start
    targetImmediateOffset := start + compareLength
    guardOffset := start + compareLength + 4
    jumpDisplacementOffset := start + compareLength + 4 + 6 + 1 + tailLength + 1 }

/-- The guards of a slot, every one of them jumping to `guardTarget`. -/
def inlineCacheChain (compare tail : List Byte) (count guardTarget : ℕ) : List Byte :=
  (List.range count).flatMap fun index =>
    inlineCacheEntryBytes compare tail
      (rel32 ((inlineCacheEntryAt compare.length tail.length index).guardOffset + 1) guardTarget)

/-- The site of a slot with `count` guards. -/
def inlineCacheSite (record : AotInstructionRecord) (compareLength tailLength count miss probe : ℕ)
    (isCall isReturn : Bool) : AotIndirectInlineCacheSite :=
  let first := inlineCacheEntryAt compareLength tailLength 0
  { guestSource := record.guestAddress
    cacheOffset := 0
    missCacheOffset := miss
    missProbeCacheOffset := probe
    targetImmediateOffset := first.targetImmediateOffset
    guardOffset := first.guardOffset
    jumpDisplacementOffset := first.jumpDisplacementOffset
    entries := (List.range count).map (inlineCacheEntryAt compareLength tailLength)
    isCall := isCall
    isReturn := isReturn }

/-- A little-endian word at an offset of a byte string. -/
def readWord (bytes : List Byte) (offset : ℕ) : Word :=
  word32 (bytes.getD offset 0) (bytes.getD (offset + 1) 0) (bytes.getD (offset + 2) 0)
    (bytes.getD (offset + 3) 0)

/-- The `cmp r/m32, imm32` on the operand of an indirect branch, without its immediate.  The
slot's `pushfd` has moved ESP by four, so an ESP-based operand is re-encoded. -/
def indirectCompare (modrm : Byte) (rest : List Byte) : Option (List Byte) :=
  let md := modField modrm
  let rm := rmField modrm
  let hasSib := md ≠ 3 ∧ rm = 4
  if hasSib ∧ rest = [] then none
  else
    let sib := rest.headD 0
    let displacement := if hasSib then rest.tail else rest
    let displacementSize :=
      if md = 1 then 1
      else if md = 2 ∨ (md = 0 ∧ (rm = 5 ∨ (hasSib ∧ sib &&& 0x07 = 5))) then 4 else 0
    if displacement.length ≠ displacementSize then none
    else
      let compareModrm := modrm &&& 0xC7 ||| 0x38
      let espBased := hasSib ∧ sib &&& 0x07 = 4
      let sibBytes := if hasSib then [sib] else []
      if espBased ∧ md = 0 then
        some (0x81 :: (compareModrm &&& 0x3F ||| 0x40) :: sibBytes ++ [4])
      else if espBased ∧ md = 1 then
        let d := displacement.getD 0 0
        if d.toInt + 4 > 127 then
          some (0x81 :: (compareModrm &&& 0x3F ||| 0x80) :: sibBytes ++ le32 (d.signExtend 32 + 4))
        else some (0x81 :: compareModrm :: sibBytes ++ [d + 4])
      else if espBased ∧ md = 2 then
        some (0x81 :: compareModrm :: sibBytes ++ le32 (readWord displacement 0 + 4))
      else some (0x81 :: compareModrm :: sibBytes ++ displacement)

/-- The bytes between a guard's `popfd` and its jump: a call pushes its return address. -/
def indirectTail (record : AotInstructionRecord) (isCall : Bool) : List Byte :=
  if isCall then 0x68 :: le32 record.next else []

/-- `EmitIndirectInlineCacheSlot`. -/
def emitIndirectInlineCacheSlot (record : AotInstructionRecord) (entryCount : ℕ) : Option Fragment :=
  match record.bytes with
  | 0xFF :: modrm :: rest =>
    let operation := regField modrm
    if entryCount = 0 ∨ kInlineCacheEntryCount < entryCount ∨ (operation ≠ 2 ∧ operation ≠ 4) then none
    else
      match indirectCompare modrm rest with
      | none => none
      | some compare =>
        let isCall : Bool := operation = 2
        let tail := indirectTail record isCall
        let miss := 1 + entryCount * inlineCacheStride compare.length tail.length
        some
          { bytes := 0x9C :: inlineCacheChain compare tail entryCount miss ++ [0x9D, 0xCC]
            indirectInlineCacheSites :=
              [inlineCacheSite record compare.length tail.length entryCount miss 0 isCall false] }
  | _ => none

/-- `EmitJumpTableSlot`. -/
def emitJumpTableSlot (record : AotInstructionRecord) : Option Fragment :=
  let entryCount := record.tableTargets.length
  if entryCount = 0 ∨ 61 < entryCount ∨ 7 < record.tableIndexRegister ∨ record.tableIndexRegister = 4 then
    none
  else
    let head : List Byte := [0xFF, 0x24, 0x80 ||| BitVec.ofNat 8 (record.tableIndexRegister <<< 3) ||| 0x05]
    some
      { bytes := head ++ le32 0 ++ [0xCC] ++ (List.replicate entryCount (le32 0)).flatten
        jumpTableSites :=
          [{ guestSource := record.guestAddress
             cacheOffset := 0
             displacementPatchOffset := head.length
             fallbackOffset := head.length + 4
             tableCacheOffset := head.length + 4 + 1
             guestTargets := record.tableTargets }] }

/-- `EmitAotDirectReturnProbe`. -/
def emitAotDirectReturnProbe (guestSource : Word) (popBytes : ℕ) : Option Fragment :=
  if popBytes < 4 ∨ 0xFFFF + 4 < popBytes then none
  else
    let hash : List Byte := [0x50, 0x51, 0x8B, 0x44, 0x24, 0x0C, 0x8B, 0xC8, 0xC1, 0xE9, 0x0D, 0x33, 0xC8, 0x81, 0xE1]
    let key := hash ++ le32 0 ++ [0x39, 0x04, 0xCD]
    let load := [0x8B, 0x0C, 0xCD]
    let store := [0x89, 0x4C, 0x24, 0x0C, 0xFF, 0x05]
    let ret := [0x59, 0x58, 0x9D] ++
      (if popBytes = 4 then [0xC3] else 0xC2 :: le16 (BitVec.ofNat 16 (popBytes - 4)))
    let hit := load ++ le32 0 ++ store ++ le32 0 ++ ret
    let target := key ++ le32 0 ++ [0x75, BitVec.ofNat 8 hit.length]
    some
      { bytes := target ++ hit ++ [0x59, 0x58]
        directReturnProbeSites :=
          [{ guestSource := guestSource
             cacheOffset := 0
             maskImmediateOffset := hash.length
             keyAddressOffset := key.length
             targetAddressOffset := target.length + load.length
             hitCounterAddressOffset := target.length + load.length + 4 + store.length }] }

/-- The bytes a return pops: the return address and the immediate of `ret imm16`. -/
def returnPopBytes (bytes : List Byte) : Option ℕ :=
  match bytes with
  | 0xC3 :: _ => some 4
  | [0xC2, lo, hi] => some (4 + (lo.toNat + 256 * hi.toNat))
  | _ => none

/-- The miss tail of a return: `popfd` and either the trap or the dispatch stub. -/
def returnMissTail (record : AotInstructionRecord) (dispatch : Bool) (popBytes : ℕ) : Fragment :=
  if dispatch then
    let first := [0x9D, 0x68]
    let thunk := first ++ le32 0 ++ 0x68 :: le32 record.guestAddress ++ [0xE9]
    { bytes := thunk ++ le32 0 ++ [0x8D, 0x64, 0x24, 0x04, 0xCC] ++
        0xC2 :: le16 (BitVec.ofNat 16 popBytes)
      dbtReturnDispatchSites :=
        [{ guestSource := record.guestAddress
           missCacheOffset := 0
           missAddressImmediateOffset := first.length
           thunkDisplacementOffset := thunk.length
           fallbackCacheOffset := thunk.length + 4
           successCacheOffset := thunk.length + 4 + 5 }] }
  else { bytes := [0x9D, 0xCC] }

/-- The bytes between a return guard's `popfd` and its jump. -/
def returnTail (popBytes : ℕ) : List Byte :=
  if popBytes ≤ 0x7F then [0x8D, 0x64, 0x24, BitVec.ofNat 8 popBytes]
  else [0x8D, 0xA4, 0x24] ++ le32 (BitVec.ofNat 32 popBytes)

/-- The compare of a return guard, against the word above the pushed flags. -/
def returnCompare : List Byte := [0x81, 0x7C, 0x24, 0x04]

/-- The return slot: the guard chain, the probe if there is one, and the miss tail. -/
def returnSlot (record : AotInstructionRecord) (dispatch : Bool) (popBytes : ℕ)
    (probe : Option Fragment) : Fragment :=
  let tail := returnTail popBytes
  let chainEnd := 1 + kInlineCacheEntryCount * inlineCacheStride returnCompare.length tail.length
  let probeSlot := probe.getD {}
  let site := inlineCacheSite record returnCompare.length tail.length kInlineCacheEntryCount
    (chainEnd + probeSlot.bytes.length) (if probe.isSome then chainEnd else 0) false true
  let chain : Fragment :=
    { bytes := 0x9C :: inlineCacheChain returnCompare tail kInlineCacheEntryCount
        (aotInlineCacheGuardTargetOffset site)
      indirectInlineCacheSites := [site] }
  (chain.append probeSlot).append (returnMissTail record dispatch popBytes)

/-- `EmitReturnInlineCacheSlot`. -/
def emitReturnInlineCacheSlot (record : AotInstructionRecord) (dispatch directReturnTable : Bool) :
    Option Fragment :=
  match returnPopBytes record.bytes with
  | none => none
  | some popBytes =>
    if dispatch ∧ 0xFFFF < popBytes then none
    else
      some (returnSlot record dispatch popBytes
        (if directReturnTable ∧ dispatch then emitAotDirectReturnProbe record.guestAddress popBytes
          else none))

/-! ## Segment slots -/

/-- The segment prefix of an override register, FS included. -/
def segmentPrefixByte : ℕ → Option Byte
  | 0 => some 0x26
  | 2 => some 0x36
  | 3 => some 0x3E
  | 4 => some 0x64
  | 5 => some 0x65
  | _ => none

/-- The displacement of a decoded memory operand as the 32-bit value the slot folds into. -/
def displacementValue (i : Instruction) : Word :=
  match i.disp.length with
  | 4 => readWord i.disp 0
  | 1 => (i.disp.getD 0 0).signExtend 32
  | _ => 0

/-- The access of a segment-override slot: the guest's bytes without the override prefix and
with a 32-bit displacement, and the offset of that displacement. -/
def segmentOverrideAccess (bytes : List Byte) (i : Instruction) (segmentIndex : ℕ) :
    Option (List Byte × ℕ) :=
  let modrmOffset := i.modrmOffset
  let dispBytes := i.disp.length
  let sibPresent := i.modrmRm = 4
  let modrmSibEnd := modrmOffset + 1 + (if sibPresent then 1 else 0)
  let immediateOffset := if dispBytes ≠ 0 then i.dispOffset + dispBytes else modrmSibEnd
  if immediateOffset > i.length then none
  else
    let originalModrm := bytes.getD modrmOffset 0
    let head := (bytes.take i.prefixCount).eraseIdx segmentIndex ++
      (bytes.take modrmOffset).drop i.prefixCount ++
      [if dispBytes = 4 then originalModrm else originalModrm &&& 0x3F ||| 0x80] ++
      (if sibPresent then [bytes.getD (modrmOffset + 1) 0] else [])
    some (head ++ le32 (displacementValue i) ++ bytes.drop immediateOffset, head.length)

/-- The segment-override slot around an access. -/
def segmentOverrideSlot (record : AotInstructionRecord) (i : Instruction) (access : List Byte)
    (displacementInAccess : ℕ) : Fragment :=
  let head : List Byte := [0x9C, 0x66, 0x81, 0x3D]
  let guard := head ++ le32 0 ++ [0x00, 0x00] ++ [0x74, 0x02, 0x9D, 0xCC, 0x9D]
  let slot := guard ++ access ++ appendRel32 0xE9
  { bytes := slot
    fixups := [edgeFixup .kBlockFallthrough record record.fallthroughTarget
      (guard.length + access.length + 1)]
    segmentOverrideSites :=
      [{ guestSource := record.guestAddress
         cacheOffset := 0
         displacementOffset := guard.length + displacementInAccess
         guardAddressOffset := head.length
         guardSelectorOffset := head.length + 4
         originalDisplacement := displacementValue i
         segmentRegister := record.segmentOverrideRegister
         guardPrologue := recordGuardPrologue slot }] }

/-- `EmitSegmentOverrideSlot`. -/
def emitSegmentOverrideSlot (table : Table) (record : AotInstructionRecord) : Option Fragment := do
  let bytes := record.bytes
  let segmentPrefix ← segmentPrefixByte record.segmentOverrideRegister
  let i ← decode table .legacy32 bytes
  if i.length ≠ bytes.length ∨ i.modrm = none ∨ i.modrmMod = 3 then none
  if i.modrmOffset < i.prefixCount ∨ i.length ≤ i.modrmOffset ∨
      (i.disp.length ≠ 0 ∧ i.disp.length ≠ 1 ∧ i.disp.length ≠ 4) then none
  let segmentIndex := (bytes.take i.prefixCount).findIdx (· = segmentPrefix)
  if i.prefixCount ≤ segmentIndex then none
  let (access, displacementInAccess) ← segmentOverrideAccess bytes i segmentIndex
  return segmentOverrideSlot record i access displacementInAccess

/-- The memory source of `EncodeGuardedSegmentLoadSource`: the guest's operand read into AX,
with ESP-based displacements moved past the slot's two pushes. -/
def encodeSegmentLoadMemorySource (bytes : List Byte) : Option (List Byte) :=
  match bytes.dropWhile (fun b => b = 0x66 ∨ b = 0x2E ∨ b = 0x3E) with
  | 0x8E :: modrm :: rest =>
    let md := modField modrm
    let rm := rmField modrm
    let hasSib := rm = 4
    if md = 3 ∨ (hasSib ∧ rest = []) then none
    else
      let sib := rest.headD 0
      let tail := if hasSib then rest.tail else rest
      let displacementLength :=
        if md = 0 then (if rm = 5 ∨ (hasSib ∧ sib &&& 0x07 = 5) then 4 else 0)
        else if md = 1 then 1 else 4
      if tail.length ≠ displacementLength then none
      else
        let displacement : Word :=
          match displacementLength with
          | 1 => (tail.getD 0 0).signExtend 32
          | 4 => readWord tail 0
          | _ => 0
        let espBase := hasSib ∧ sib &&& 0x07 = 4
        let md' := if espBase then 2 else md
        let displacement' := if espBase then displacement + 8 else displacement
        some ([0x66, 0x8B, BitVec.ofNat 8 (md' <<< 6 ||| rm)] ++
          (if hasSib then [sib] else []) ++
          (match if espBase then 4 else displacementLength with
            | 1 => [displacement'.truncate 8]
            | 4 => le32 displacement'
            | _ => []))
  | _ => none

/-- `EncodeGuardedSegmentLoadSource`. -/
def encodeGuardedSegmentLoadSource (record : AotInstructionRecord) : Option (List Byte) :=
  if record.gprRegister ≠ kAotSegmentLoadMemorySource then
    if 7 < record.gprRegister ∨ record.gprRegister = 4 then none
    else if record.gprRegister = 0 then some [0x66, 0x8B, 0x04, 0x24]
    else some [0x66, 0x8B, 0xC0 ||| BitVec.ofNat 8 record.gprRegister, 0x90]
  else encodeSegmentLoadMemorySource record.bytes

/-- The offsets and bytes the guarded pop and load slots share.  `source` loads the new
selector into AX, `fallbackDistance` is the `jne` over the success path and `advance` is what
the success path does before its jump. -/
structure GuardedSegmentBody where
  bytes : List Byte
  shadowAddressOffset : ℕ
  pair0AddressOffset : ℕ
  pair1AddressOffset : ℕ
  shadowStoreOffset : ℕ
  successCounterAddressOffset : ℕ
  patchOffset : ℕ
  fallbackCounterAddressOffset : ℕ
  fallbackOffset : ℕ

/-- The shared body of the guarded pop and load slots. -/
def guardedSegmentBody (source : List Byte) (fallbackDistance : Byte) (advance : List Byte) :
    GuardedSegmentBody :=
  let shadow := [0x9C, 0x50] ++ source ++ [0x66, 0x3B, 0x05]
  let pair0 := shadow ++ le32 0 ++ [0x74, 0x18, 0x66, 0x3B, 0x05]
  let pair1 := pair0 ++ le32 0 ++ [0x74, 0x09, 0x66, 0x3B, 0x05]
  let store := pair1 ++ le32 0 ++ [0x75, fallbackDistance, 0x66, 0xA3]
  let success := store ++ le32 0 ++ [0xFF, 0x05]
  let patch := success ++ le32 0 ++ [0x58, 0x9D] ++ advance ++ [0xE9]
  let counter := patch ++ le32 0 ++ [0xFF, 0x05]
  let fallback := counter ++ le32 0 ++ [0x58, 0x9D]
  { bytes := fallback ++ [0xCC]
    shadowAddressOffset := shadow.length
    pair0AddressOffset := pair0.length
    pair1AddressOffset := pair1.length
    shadowStoreOffset := store.length
    successCounterAddressOffset := success.length
    patchOffset := patch.length
    fallbackCounterAddressOffset := counter.length
    fallbackOffset := fallback.length }

/-- The segments the guarded pop, load and push slots take. -/
def isGuardedSegment (segment : ℕ) : Bool :=
  segment = 0 ∨ segment = 3 ∨ segment = 4 ∨ segment = 5

/-- `EmitGuardedSegmentPopSlot`. -/
def emitGuardedSegmentPopSlot (record : AotInstructionRecord) : Option Fragment :=
  if record.bytes = [] ∨ ¬isGuardedSegment record.segmentRegister then none
  else
    let body := guardedSegmentBody [0x66, 0x8B, 0x44, 0x24, 0x08] 0x17 [0x8D, 0x64, 0x24, 0x04]
    some
      { bytes := body.bytes
        fixups := [edgeFixup .kBlockFallthrough record record.fallthroughTarget body.patchOffset]
        guardedSegmentPopSites :=
          [{ guestSource := record.guestAddress
             cacheOffset := 0
             shadowAddressOffset := body.shadowAddressOffset
             pair0AddressOffset := body.pair0AddressOffset
             pair1AddressOffset := body.pair1AddressOffset
             shadowStoreOffset := body.shadowStoreOffset
             successCounterAddressOffset := body.successCounterAddressOffset
             fallbackCounterAddressOffset := body.fallbackCounterAddressOffset
             fallbackOffset := body.fallbackOffset
             segmentRegister := record.segmentRegister
             guardPrologue := recordGuardPrologue body.bytes
             hasCounterOperands := true }] }

/-- `EmitGuardedSegmentLoadSlot`. -/
def emitGuardedSegmentLoadSlot (record : AotInstructionRecord) : Option Fragment :=
  if ¬isGuardedSegment record.segmentRegister then none
  else
    match encodeGuardedSegmentLoadSource record with
    | none => none
    | some source =>
      let body := guardedSegmentBody source 0x13 []
      some
        { bytes := body.bytes
          fixups := [edgeFixup .kBlockFallthrough record record.fallthroughTarget body.patchOffset]
          guardedSegmentLoadSites :=
            [{ guestSource := record.guestAddress
               cacheOffset := 0
               shadowAddressOffset := body.shadowAddressOffset
               pair0AddressOffset := body.pair0AddressOffset
               pair1AddressOffset := body.pair1AddressOffset
               shadowStoreOffset := body.shadowStoreOffset
               successCounterAddressOffset := body.successCounterAddressOffset
               fallbackCounterAddressOffset := body.fallbackCounterAddressOffset
               fallbackOffset := body.fallbackOffset
               segmentRegister := record.segmentRegister
               gprRegister := record.gprRegister
               guardPrologue := recordGuardPrologue body.bytes
               hasCounterOperands := true }] }

/-- `EmitGuardedSegmentReadSlot`. -/
def emitGuardedSegmentReadSlot (record : AotInstructionRecord) : Option Fragment :=
  if 7 < record.gprRegister ∨ ¬(isGuardedSegment record.segmentRegister ∨ record.segmentRegister = 2) then
    none
  else
    let head : List Byte := [0x66, 0x8B, 0x05 ||| BitVec.ofNat 8 (record.gprRegister <<< 3)]
    let slot := head ++ le32 0 ++ appendRel32 0xE9
    some
      { bytes := slot
        fixups := [edgeFixup .kBlockFallthrough record record.fallthroughTarget (head.length + 5)]
        guardedSegmentReadSites :=
          [{ guestSource := record.guestAddress
             cacheOffset := 0
             shadowAddressOffset := head.length
             loadShadowAddressOffset := head.length
             fallbackOffset := 0
             segmentRegister := record.segmentRegister
             gprRegister := record.gprRegister
             guardPrologue := recordGuardPrologue slot }] }

/-! ## Dispatch slots -/

/-- `EmitHleDispatchSlot`. -/
def emitHleDispatchSlot (record : AotInstructionRecord) : Fragment :=
  let thunk := 0x68 :: le32 0 ++ 0x68 :: le32 record.guestAddress ++ [0xE9]
  let fallback := thunk ++ le32 0
  { bytes := fallback ++ [0x8D, 0x64, 0x24, 0x04] ++ [0xCC] ++ [0xC3]
    fixups := [edgeFixup .kHleBoundary record 0 (fallback.length + 4)]
    dbtHleDispatchSites :=
      [{ guestSource := record.guestAddress
         dispatchCacheOffset := 0
         dispatchAddressImmediateOffset := 1
         thunkDisplacementOffset := thunk.length
         fallbackCacheOffset := fallback.length
         successCacheOffset := fallback.length + 5 }] }

/-- `IsDirectEdgeFixup`. -/
def isDirectEdgeFixup : AotFixupKind → Bool
  | .kBlockFallthrough | .kDirectCall | .kDirectJump | .kConditionalBranch => true
  | _ => false

/-- The stub `EmitUnresolvedDirectEdgeDispatch` appends for an edge that leaves the image. -/
def directEdgeDispatchStub (fixup : AotCodeCacheFixup) : Fragment :=
  let thunk := 0x68 :: le32 0 ++ 0x68 :: le32 fixup.guestTarget ++ [0xE9]
  let fallback := thunk ++ le32 0 ++ [0x8D, 0x64, 0x24, 0x04]
  { bytes := fallback ++ [0xCC] ++ [0xC3]
    dbtDirectEdgeDispatchSites :=
      [{ guestSource := fixup.guestSource
         guestTarget := fixup.guestTarget
         dispatchCacheOffset := 0
         dispatchAddressImmediateOffset := 1
         thunkDisplacementOffset := thunk.length
         fallbackCacheOffset := fallback.length
         successCacheOffset := fallback.length + 1 }] }

/-! ## The 32-bit back end -/

/-- A slot, or the boundary where it is switched off or refused. -/
def slotOr (kind : AotFixupKind) (record : AotInstructionRecord) (enabled : Bool)
    (slot : Option Fragment) : Fragment :=
  if enabled then slot.getD (boundarySlot kind record) else boundarySlot kind record

/-- What the 32-bit back end emits for a record: the switch of `BuildAotCodeCacheImage`. -/
def emitLegacy (table : Table) (options : AotCodeCacheBuildOptions) (record : AotInstructionRecord) :
    Fragment :=
  match record.kind with
  | .kCopy =>
    if record.guestCodeDefaultOperandSize = .k16 then boundarySlot .kHleBoundary record
    else Fragment.ofBytes record.bytes
  | .kReturn =>
    slotOr .kIndirectExit record true
      (emitReturnInlineCacheSlot record options.enableDbtReturnMissDispatch
        options.enableDirectReturnTable)
  | .kFarReturn => boundarySlot .kHleBoundary record
  | .kDirectCall => emitDirectCall record
  | .kDirectJump => emitDirectJump options.enableTimerSafePoints record
  | .kConditionalBranch => emitConditionalBranch options.enableTimerSafePoints record
  | .kHleBoundary =>
    slotOr .kHleBoundary record options.enableDbtHleDispatch (some (emitHleDispatchSlot record))
  | .kPortIo =>
    slotOr .kHleBoundary record (options.enableDbtHleDispatch || options.enableDbtPortIoDispatch)
      (some (emitHleDispatchSlot record))
  | .kSegmentOverrideMem => slotOr .kHleBoundary record true (emitSegmentOverrideSlot table record)
  | .kGuardedSegmentPop =>
    slotOr .kHleBoundary record options.enableGuardedSegmentPop (emitGuardedSegmentPopSlot record)
  | .kGuardedSegmentLoad =>
    slotOr .kHleBoundary record options.enableGuardedSegmentLoad (emitGuardedSegmentLoadSlot record)
  | .kGuardedSegmentPush => Fragment.ofBytes record.bytes
  | .kGuardedSegmentRead =>
    slotOr .kHleBoundary record options.enableGuardedSegmentRead (emitGuardedSegmentReadSlot record)
  | .kIndirectExit =>
    slotOr .kIndirectExit record true
      (emitIndirectInlineCacheSlot record options.indirectInlineCacheEntryCount)
  | .kJumpTable => slotOr .kIndirectExit record true (emitJumpTableSlot record)

end Repiu.Runtime
