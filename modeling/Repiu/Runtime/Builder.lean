import Repiu.Runtime.EmitLongMode

/-!
# Building a code cache image

`BuildAotCodeCacheImage` (`aot_code_cache.cpp`): emission in plan order with the
pending fallthrough edge, resolution of the fixups, and verification of the
emitted bytes by decoding them again.
-/

namespace Repiu.Runtime

open Repiu.X86

/-! ## Emission -/

/-- The state of the emission loop.  The address map is also `guest_to_cache`. -/
structure BuildState where
  code : Fragment := {}
  addressMap : List AotAddressMapEntry := []
  /-- `long_mode_entry_instructions`. -/
  entryInstructions : List ℕ := []
  /-- The source and target of the edge waiting for the next emission step. -/
  pending : Option (Word × Word) := none

/-- What does not change while an image is built. -/
structure BuildInput where
  table : Table
  host : Host
  options : AotCodeCacheBuildOptions

/-- The entry of a guest address. -/
def findEntry (addressMap : List AotAddressMapEntry) (address : Word) : Option AotAddressMapEntry :=
  addressMap.find? fun entry => entry.guestAddress = address

/-- `emit_block_fallthrough`. -/
def emitBlockFallthrough (source target : Word) : Fragment :=
  { bytes := appendRel32 0xE9
    fixups := [{ kind := .kBlockFallthrough, guestSource := source, guestTarget := target
                 cachePatchOffset := 1 }] }

/-- What is emitted for a record, with its host instruction count. -/
def emitSlot (input : BuildInput) (record : AotInstructionRecord) : LongModeSlot :=
  if input.options.enableLongModeEmission then
    emitLongMode input.table input.host input.options record
  else ⟨emitLegacy input.table input.options record, 0⟩

/-- The pending edge, where the bytes about to be emitted do not satisfy it. -/
def pendingEdge (pending : Option (Word × Word)) (address : Word) : Fragment :=
  match pending with
  | some (source, target) => if target ≠ address then emitBlockFallthrough source target else {}
  | none => {}

/-- One record.  An address that is mapped already emits nothing and leaves the edge pending. -/
def emitRecord (input : BuildInput) (s : BuildState) (record : AotInstructionRecord) : BuildState :=
  if (findEntry s.addressMap record.guestAddress).isSome then s
  else
    let code := s.code.append (pendingEdge s.pending record.guestAddress)
    let slot := emitSlot input record
    { code := code.append slot.code
      addressMap := s.addressMap ++
        [{ guestAddress := record.guestAddress
           cacheOffset := code.bytes.length
           guestLength := record.length
           emittedLength := slot.code.bytes.length % 256 }]
      entryInstructions :=
        if input.options.enableLongModeEmission then s.entryInstructions ++ [slot.instructionCount]
        else s.entryInstructions
      pending := none }

/-- The way on from the last instruction of a block, decided by the last mapped entry. -/
def closeBlock (input : BuildInput) (s : BuildState) (block : AotBasicBlock) : BuildState :=
  match block.instructions.getLast?, s.addressMap.getLast? with
  | some tail, some last =>
    if last.guestAddress ≠ tail.guestAddress then s
    else
      match tail.kind with
      | .kConditionalBranch =>
        if s.code.bytes.getD last.cacheOffset 0 ≠ 0xCC then
          { s with pending := some (tail.guestAddress, tail.next) }
        else s
      | .kCopy =>
        let safePoint := safePointIf (input.options.enableTimerSafePoints &&
          !input.options.enableLongModeEmission && tail.next ≤ tail.guestAddress) tail
        { s with
          code := (s.code.append safePoint).append (emitBlockFallthrough tail.guestAddress tail.next) }
      | _ => s
  | _, _ => s

/-- One block. -/
def emitBlock (input : BuildInput) (s : BuildState) (block : AotBasicBlock) : BuildState :=
  closeBlock input (block.instructions.foldl (emitRecord input) s) block

/-- Every block, and the edge that is still pending behind the last one. -/
def emitBlocks (input : BuildInput) (blocks : List AotBasicBlock) : BuildState :=
  let s := blocks.foldl (emitBlock input) {}
  match s.pending with
  | some (source, target) =>
    { s with code := s.code.append (emitBlockFallthrough source target), pending := none }
  | none => s

/-! ## Fixups -/

/-- Overwrite the bytes at an offset. -/
def overwrite (bytes : List Byte) (offset : ℕ) (new : List Byte) : List Byte :=
  bytes.take offset ++ new ++ bytes.drop (offset + new.length)

/-- `PatchRel32`. -/
def patchRel32 (bytes : List Byte) (patch target : ℕ) : Option (List Byte) :=
  let displacement : ℤ := (target : ℤ) - ((patch : ℤ) + 4)
  if bytes.length < patch + 4 ∨ displacement < -2 ^ 31 ∨ 2 ^ 31 ≤ displacement then none
  else some (overwrite bytes patch (le32 (rel32 patch target)))

/-- The state of fixup resolution.  The fragment's fixups are those visited so far. -/
structure ResolveState where
  code : Fragment
  entryInstructions : List ℕ

/-- The loop of `NeutraliseLongModeBranch` over the address map. -/
def neutraliseEntry (bytes : List Byte) (fixup : AotCodeCacheFixup) :
    List AotAddressMapEntry → List ℕ → Option (List Byte × List ℕ)
  | entry :: entries, count :: counts =>
    if entry.guestAddress ≠ fixup.guestSource then
      (neutraliseEntry bytes fixup entries counts).map fun p => (p.1, count :: p.2)
    else if entry.emittedLength = 0 ∨ bytes.length < entry.cacheOffset + entry.emittedLength ∨
        fixup.cachePatchOffset < entry.cacheOffset ∨
        entry.cacheOffset + entry.emittedLength < fixup.cachePatchOffset + 4 then none
    else
      some (overwrite bytes entry.cacheOffset (List.replicate entry.emittedLength 0xCC),
        entry.emittedLength :: counts)
  | _, _ => none

/-- `NeutraliseLongModeBranch`. -/
def neutraliseLongModeBranch (addressMap : List AotAddressMapEntry) (fixup : AotCodeCacheFixup)
    (bytes : List Byte) (counts : List ℕ) : Option (List Byte × List ℕ) :=
  match fixup.kind with
  | .kBlockFallthrough =>
    if fixup.cachePatchOffset < 1 ∨ bytes[fixup.cachePatchOffset - 1]? ≠ some 0xE9 then none
    else some (overwrite bytes (fixup.cachePatchOffset - 1) [0xCC], counts)
  | .kDirectJump | .kDirectCall | .kConditionalBranch =>
    if addressMap.length ≠ counts.length then none
    else neutraliseEntry bytes fixup addressMap counts
  | _ => none

/-- `EmitUnresolvedDirectEdgeDispatch`. -/
def emitUnresolvedDirectEdgeDispatch (fixup : AotCodeCacheFixup) (code : Fragment) : Option Fragment :=
  if ¬isDirectEdgeFixup fixup.kind ∨ code.bytes.length < fixup.cachePatchOffset + 4 then none
  else
    let extended := code.append (directEdgeDispatchStub fixup)
    (patchRel32 extended.bytes fixup.cachePatchOffset code.bytes.length).map fun bytes =>
      { extended with bytes := bytes }

/-- Whether a fixup is left to the dispatcher. -/
def isExternalFixup (bytes : List Byte) (fixup : AotCodeCacheFixup) : Bool :=
  fixup.kind = .kHleBoundary ∨ fixup.kind = .kIndirectExit ∨
    (fixup.kind = .kConditionalBranch ∧ bytes.getD fixup.cachePatchOffset 0 = 0xCC)

/-- Keep a visited fixup. -/
def ResolveState.push (s : ResolveState) (fixup : AotCodeCacheFixup) : ResolveState :=
  { s with code := { s.code with fixups := s.code.fixups ++ [fixup] } }

/-- A direct edge whose target is not in the image. -/
def resolveUnmapped (input : BuildInput) (addressMap : List AotAddressMapEntry)
    (s : ResolveState) (fixup : AotCodeCacheFixup) : Option ResolveState :=
  if ¬isDirectEdgeFixup fixup.kind then some (s.push fixup)
  else if input.options.enableLongModeEmission then
    (neutraliseLongModeBranch addressMap fixup s.code.bytes s.entryInstructions).map fun p =>
      { (s.push fixup) with
        code := { (s.push fixup).code with bytes := p.1 }
        entryInstructions := p.2 }
  else if input.options.enableDbtDirectEdgeDispatch then
    (emitUnresolvedDirectEdgeDispatch fixup s.code).map fun code =>
      ({ s with code := code } : ResolveState).push { fixup with resolved := true }
  else none

/-- One fixup. -/
def resolveFixup (input : BuildInput) (addressMap : List AotAddressMapEntry)
    (s : ResolveState) (fixup : AotCodeCacheFixup) : Option ResolveState :=
  if isExternalFixup s.code.bytes fixup then some (s.push fixup)
  else
    match (findEntry addressMap fixup.guestTarget).bind fun entry =>
      patchRel32 s.code.bytes fixup.cachePatchOffset entry.cacheOffset with
    | some bytes =>
      some (({ s with code := { s.code with bytes := bytes } } : ResolveState).push
        { fixup with resolved := true })
    | none => resolveUnmapped input addressMap s fixup

/-- Every fixup, in order of emission. -/
def resolveFixups (input : BuildInput) (addressMap : List AotAddressMapEntry) :
    List AotCodeCacheFixup → ResolveState → Option ResolveState
  | [], s => some s
  | fixup :: fixups, s =>
    match resolveFixup input addressMap s fixup with
    | none => none
    | some s' => resolveFixups input addressMap fixups s'

/-! ## Verification -/

/-- Decode a run of bytes to its end or to the first failure: the bytes and the instructions
decoded.  The fuel is the number of bytes. -/
def decodeRun (table : Table) (mode : MachineMode) : ℕ → List Byte → ℕ × ℕ
  | 0, _ => (0, 0)
  | fuel + 1, bytes =>
    if bytes = [] then (0, 0)
    else
      match decode table mode bytes with
      | none => (0, 0)
      | some i =>
        let rest := decodeRun table mode fuel (bytes.drop i.length)
        (i.length + rest.1, rest.2 + 1)

/-- The check on one entry. -/
def entryVerified (input : BuildInput) (bytes : List Byte) (entry : AotAddressMapEntry)
    (expected : ℕ) : Bool :=
  let longMode := input.options.enableLongModeEmission
  let run := decodeRun input.table (if longMode then .long64 else .legacy32) entry.emittedLength
    ((bytes.drop entry.cacheOffset).take entry.emittedLength)
  run.1 = entry.emittedLength ∧ (longMode → run.2 = expected)

/-- The check on every entry; a missing count is zero. -/
def entriesVerified (input : BuildInput) (bytes : List Byte) :
    List AotAddressMapEntry → List ℕ → Bool
  | [], _ => true
  | entry :: entries, counts =>
    entryVerified input bytes entry (counts.headD 0) && entriesVerified input bytes entries counts.tail

/-- `BuildAotCodeCacheImage`; `none` where it returns false. -/
def buildAotCodeCacheImage (input : BuildInput) (plan : AotTranslationPlan) : Option AotCodeCacheImage :=
  let options := input.options
  if ¬plan.valid ∨ options.indirectInlineCacheEntryCount = 0 ∨
      kInlineCacheEntryCount < options.indirectInlineCacheEntryCount then none
  else
    let s := emitBlocks input plan.blocks
    match resolveFixups input s.addressMap s.code.fixups
      ⟨{ s.code with fixups := [] }, s.entryInstructions⟩ with
    | none => none
    | some r =>
      match findEntry s.addressMap plan.entryAddress with
      | none => none
      | some entry =>
        if r.code.bytes = [] ∨ ¬entriesVerified input r.code.bytes s.addressMap r.entryInstructions then
          none
        else
          some
            { valid := true
              entryCacheOffset := entry.cacheOffset
              code := r.code
              codeModeRanges := plan.codeModeRanges
              addressMap := s.addressMap
              options := options }

end Repiu.Runtime
