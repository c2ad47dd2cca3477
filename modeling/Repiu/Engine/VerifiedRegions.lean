import Repiu.Runtime.Classification
import Mathlib.Logic.Relation

/-!
# Verified regions

The analyzer that lets guest functions and straight-line spans run natively
(`verified_region_analyzer.cpp`). A verdict is a search over the code of a function
with a memo that its callees share; what the search lets through is compared with the
instructions that the planner leaves to the HLE.
-/

namespace Repiu.Engine

open Repiu.Runtime Repiu.X86

namespace VerifiedRegion

/-! ## Metadata -/

/-- `ZydisBranchType`. -/
inductive BranchType
  | none | short | near | far
deriving DecidableEq

/-- What the analyzer reads of the decoder's tables besides the definition: whether a row is in
the category STRINGOP, and its branch type. -/
structure Metadata where
  stringOp : Definition → Bool
  branchType : Definition → BranchType
  far_iff : ∀ d, branchType d = .far ↔ d.farBranch = true

/-- The guest memory and the decoder that reads it. -/
structure Guest where
  memory : Word → Byte
  table : Table
  metadata : Metadata

/-- `runtime_base` and `runtime_size`. -/
structure RuntimeRange where
  base : Word
  size : Word
deriving DecidableEq

/-- `IsRuntimeRange`. -/
def isRuntimeRange (address byteCount : Word) (range : RuntimeRange) : Bool :=
  let last := address + byteCount
  let runtimeEnd := range.base + range.size
  address ≤ last ∧ range.base ≤ runtimeEnd ∧ range.base ≤ address ∧ last ≤ runtimeEnd

namespace Guest

variable (g : Guest)

/-- The bytes at an address. -/
def bytes (address : Word) (count : ℕ) : List Byte :=
  (List.range count).map fun k => g.memory (address + BitVec.ofNat 32 k)

/-- The word at an address. -/
def word (address : Word) : Word :=
  word32 (g.memory address) (g.memory (address + 1)) (g.memory (address + 2)) (g.memory (address + 3))

/-- `ZydisDecoderDecodeFull` in 32-bit mode. -/
def decodeAt (address : Word) : Option Instruction :=
  decode g.table .legacy32 (g.bytes address maxInstructionLength)

/-- `IsSensitive`. -/
def isSensitive (i : Instruction) : Bool :=
  if i.definition.privileged ∨ i.hasSegment then true
  else if g.metadata.stringOp i.definition then true
  else
    match i.category with
    | .interrupt | .io | .ioStringOp | .rdwrFsGs | .segOp | .syscall | .sysret | .system
    | .uintr => true
    | _ => false

end Guest

/-- `HasExplicitMemoryWrite`. -/
def hasExplicitMemoryWrite (i : Instruction) : Bool :=
  i.visible.any fun op => op.isMemory && op.write

/-- `ReadDirectTarget`: the planner's function of this name for 32-bit code. -/
def readDirectTarget (i : Instruction) (address : Word) : Option Word :=
  Runtime.readDirectTarget i address .k32 0

/-! ## Functions -/

/-- An entry of the cache: 2, 1 and -1 in the source. -/
inductive Verdict
  | inProgress | verified | rejected
deriving DecidableEq

/-- `VerifiedRegionFailure`. -/
structure Failure where
  instruction : Word := 0
  opcode : Byte := 0
  bytesLow : Word := 0
  bytesHigh : Word := 0
deriving DecidableEq

/-- What the analysis of one function leaves to the next. -/
structure Analysis where
  cache : Word → Option Verdict := fun _ => none
  failure : Failure := {}

namespace Analysis

/-- Note the verdict on a function. -/
def note (s : Analysis) (entry : Word) (v : Verdict) : Analysis :=
  { s with cache := Function.update s.cache entry (some v) }

@[simp] theorem cache_note (s : Analysis) (entry : Word) (v : Verdict) :
    (s.note entry v).cache = Function.update s.cache entry (some v) := rfl

/-- `RecordFailure`. -/
def recordFailure (g : Guest) (address : Word) (s : Analysis) : Analysis :=
  { s with
    failure :=
      { instruction := address
        opcode := g.memory address
        bytesLow := g.word address
        bytesHigh := g.word (address + 4) } }

/-- A function is given up. -/
def reject (s : Analysis) (entry : Word) : Bool × Analysis := (false, s.note entry .rejected)

/-- The end of the search. -/
def finish (s : Analysis) (entry : Word) (safe : Bool) : Bool × Analysis :=
  (safe, s.note entry (if safe then .verified else .rejected))

end Analysis

/-- What an address that was not visited before means for the search. -/
inductive Visit
  | fails
  | returns
  | calls (target next : Word)
  | goesOn (successors : List Word)
deriving DecidableEq

/-- The body of the search up to the first look at the cache. -/
def visit (g : Guest) (range : RuntimeRange) (address : Word) : Visit :=
  if !isRuntimeRange address (BitVec.ofNat 32 maxInstructionLength) range then .fails
  else
    match g.decodeAt address with
    | none => .fails
    | some i =>
      if i.length = 0 ∨ g.isSensitive i then .fails
      else
        let next := address + BitVec.ofNat 32 i.length
        if i.category = .ret then .returns
        else if i.category = .call ∨ i.category = .condBr ∨ i.category = .uncondBr then
          match readDirectTarget i address with
          | none => .fails
          | some target =>
            if !isRuntimeRange target 1 range then .fails
            else if i.category = .call then .calls target next
            else if i.category = .condBr then .goesOn [next, target]
            else .goesOn [target]
        else .goesOn [next]

/-- `pending.pop_back` until an address comes that is not in `visited`. -/
def popUnvisited (visited : List Word) : List Word → Option (Word × List Word)
  | [] => none
  | address :: pending =>
    if address ∈ visited then popUnvisited visited pending else some (address, pending)

/-- `kMaxDepth`. -/
def kMaxDepth : ℕ := 16

/-- `kMaxInstructions`. -/
def kMaxInstructions : ℕ := 16384

/-- The loop of `VerifyFunction`, with the verification of callees as an argument. `budget` is
`kMaxInstructions - visited.size()`. -/
def search (g : Guest) (range : RuntimeRange) (verify : Word → Analysis → Bool × Analysis)
    (entry : Word) : ℕ → List Word → List Word → Bool → Analysis → Bool × Analysis
  | 0, pending, _, hasReturn, s => s.finish entry (hasReturn && pending.isEmpty)
  | budget + 1, pending, visited, hasReturn, s =>
    match popUnvisited visited pending with
    | none => s.finish entry hasReturn
    | some (address, pending) =>
      match visit g range address with
      | .fails => (s.recordFailure g address).reject entry
      | .returns => search g range verify entry budget pending (address :: visited) true s
      | .calls target next =>
        match verify target s with
        | (false, s) => s.reject entry
        | (true, s) =>
          search g range verify entry budget (next :: pending) (address :: visited) hasReturn s
      | .goesOn successors =>
        search g range verify entry budget (successors ++ pending) (address :: visited) hasReturn s

/-- `NativeLinearSpan`. -/
structure NativeLinearSpan where
  boundaryAddress : Word := 0
  instructionCount : ℕ := 0
  cacheableRejectionByteCount : Word := 0
  boundarySensitive : Bool := false
  boundaryMemoryWrite : Bool := false
deriving DecidableEq

def kMinimumInstructionCount : ℕ := 2

def kMaximumInstructionCount : ℕ := 64

def kNativeLinearSpanRejectSnapshotCapacity : Word := 30

/-- A span ends before this instruction. -/
def isBoundary (g : Guest) (i : Instruction) : Bool :=
  g.isSensitive i || hasExplicitMemoryWrite i || g.metadata.branchType i.definition ≠ .none

/-- The span that ends before the instruction at `address`. -/
def spanBefore (g : Guest) (entry address : Word) (count : ℕ) (i : Instruction) : NativeLinearSpan :=
  let rejectionByteCount := address - entry + BitVec.ofNat 32 i.length
  { boundaryAddress := address
    instructionCount := count
    boundarySensitive := g.isSensitive i
    boundaryMemoryWrite := hasExplicitMemoryWrite i
    cacheableRejectionByteCount :=
      if count < kMinimumInstructionCount ∧
          rejectionByteCount ≤ kNativeLinearSpanRejectSnapshotCapacity then rejectionByteCount
      else 0 }

/-- The loop of `ScanNativeLinearSpanWithZydis`. The first argument is
`kMaximumInstructionCount - count`. -/
def scan (g : Guest) (range : RuntimeRange) (entry : Word) :
    ℕ → ℕ → Word → Bool × NativeLinearSpan
  | 0, _, _ => (false, {})
  | left + 1, count, address =>
    if !isRuntimeRange address (BitVec.ofNat 32 maxInstructionLength) range then (false, {})
    else
      match g.decodeAt address with
      | none => (false, {})
      | some i =>
        if i.length = 0 then (false, {})
        else if isBoundary g i then
          (kMinimumInstructionCount ≤ count, spanBefore g entry address count i)
        else scan g range entry left (count + 1) (address + BitVec.ofNat 32 i.length)

/-- `ScanNativeLinearSpanWithZydis`. -/
def scanNativeLinearSpanWithZydis (g : Guest) (range : RuntimeRange) (entry : Word)
    (span : NativeLinearSpan) : Bool × NativeLinearSpan :=
  if !isRuntimeRange entry 1 range then (false, span)
  else scan g range entry kMaximumInstructionCount 0 entry

/-! ## What may run natively -/

/-- Falling through, a direct branch and a direct call. -/
inductive Flow (g : Guest) : Word → Word → Prop
  | fallthrough {a : Word} {i : Instruction} (decoded : g.decodeAt a = some i)
      (return_ne : i.category ≠ .ret) (jump_ne : i.category ≠ .uncondBr) :
      Flow g a (a + BitVec.ofNat 32 i.length)
  | direct {a target : Word} {i : Instruction} (decoded : g.decodeAt a = some i)
      (transfer : i.category = .call ∨ i.category = .condBr ∨ i.category = .uncondBr)
      (target_eq : readDirectTarget i a = some target) : Flow g a target

/-- The code that control can come to from an entry without leaving through a return. -/
def Reaches (g : Guest) : Word → Word → Prop := Relation.ReflTransGen (Flow g)

section
variable {g : Guest} {i : Instruction}

end

/-! ## Ranges -/

/-- What the search has checked at an address. -/
structure Checked (g : Guest) (ranges : List RuntimeRange) (a : Word) (i : Instruction) : Prop where
  decoded : g.decodeAt a = some i
  range : ∃ range ∈ ranges, isRuntimeRange a (BitVec.ofNat 32 maxInstructionLength) range = true
  plain : g.isSensitive i = false
  direct : i.category = .call ∨ i.category = .condBr ∨ i.category = .uncondBr →
    ∃ target, readDirectTarget i a = some target

/-- Everything that control can come to has been checked. -/
def Cleared (g : Guest) (ranges : List RuntimeRange) (entry : Word) : Prop :=
  ∀ a, Reaches g entry a → ∃ i, Checked g ranges a i

section
variable {g : Guest} {ranges : List RuntimeRange}

theorem Cleared.step {a b : Word} (h : Cleared g ranges a) (hflow : Flow g a b) : Cleared g ranges b :=
  fun c hreach => h c (Relation.ReflTransGen.head hflow hreach)

/-- Where control goes from an address that the search accepts. -/
def Visit.successors : Visit → List Word
  | .fails | .returns => []
  | .calls target next => [next, target]
  | .goesOn successors => successors

theorem popUnvisited_some {visited pending rest : List Word} {a : Word}
    (h : popUnvisited visited pending = some (a, rest)) :
    ∀ b ∈ pending, b ∈ a :: visited ∨ b ∈ rest := by
  induction pending with
  | nil => cases h
  | cons first pending ih =>
    unfold popUnvisited at h
    split_ifs at h with hfirst
    · exact List.forall_mem_cons.mpr ⟨.inl (List.mem_cons_of_mem _ hfirst), ih h⟩
    · rw [Option.some.injEq, Prod.mk.injEq] at h
      obtain ⟨rfl, rfl⟩ := h
      exact List.forall_mem_cons.mpr ⟨.inl List.mem_cons_self, fun b hb => .inr hb⟩

/-- What the search has visited is checked, and control goes from it only to what is visited,
still pending, or a callee that was verified. -/
structure Frontier (g : Guest) (ranges : List RuntimeRange) (entry : Word)
    (visited pending : List Word) : Prop where
  entry_mem : entry ∈ visited ∨ entry ∈ pending
  checked : ∀ a ∈ visited, ∃ i, Checked g ranges a i
  flow : ∀ a ∈ visited, ∀ b, Flow g a b → b ∈ visited ∨ b ∈ pending ∨ Cleared g ranges b

namespace Frontier

variable {entry : Word} {visited pending : List Word}

/-- A search with nothing left to visit has seen everything. -/
theorem cleared (h : Frontier g ranges entry visited pending) (hdone : ∀ a ∈ pending, a ∈ visited) :
    Cleared g ranges entry := by
  have hseen : ∀ b, Reaches g entry b → b ∈ visited ∨ Cleared g ranges b := by
    intro b hreach
    induction hreach with
    | refl => exact .inl (h.entry_mem.elim id (hdone entry))
    | tail _ hflow ih =>
      rcases ih with hvisited | hcleared
      · rcases h.flow _ hvisited _ hflow with hin | hin | hin
        · exact .inl hin
        · exact .inl (hdone _ hin)
        · exact .inr hin
      · exact .inr (hcleared.step hflow)
  intro b hreach
  rcases hseen b hreach with hvisited | hcleared
  · exact h.checked b hvisited
  · exact hcleared b .refl

/-- One more address is visited and its successors are pushed. -/
theorem next (h : Frontier g ranges entry visited pending) {a : Word} {rest : List Word} (pushed : List Word)
    (hpop : popUnvisited visited pending = some (a, rest)) (hchecked : ∃ i, Checked g ranges a i)
    (hpushed : ∀ b, Flow g a b → b ∈ pushed ∨ Cleared g ranges b) :
    Frontier g ranges entry (a :: visited) (pushed ++ rest) := by
  have hkept := popUnvisited_some hpop
  refine ⟨?_, List.forall_mem_cons.mpr ⟨hchecked, h.checked⟩, List.forall_mem_cons.mpr ⟨?_, ?_⟩⟩
  · rcases h.entry_mem with hin | hin
    · exact .inl (List.mem_cons_of_mem _ hin)
    · exact (hkept entry hin).imp_right (List.mem_append_right pushed)
  · intro b hflow
    rcases hpushed b hflow with hin | hin
    · exact .inr (.inl (List.mem_append_left rest hin))
    · exact .inr (.inr hin)
  · intro v hv b hflow
    rcases h.flow v hv b hflow with hin | hin | hin
    · exact .inl (List.mem_cons_of_mem _ hin)
    · rcases hkept b hin with hin | hin
      · exact .inl hin
      · exact .inr (.inl (List.mem_append_right pushed hin))
    · exact .inr (.inr hin)

end Frontier

/-- The positive entries of the cache are true, whatever is still in progress. -/
def Analysis.Trusted (g : Guest) (ranges : List RuntimeRange) (s : Analysis) : Prop :=
  ∀ entry, s.cache entry = some .verified → Cleared g ranges entry

theorem Analysis.Trusted.note {s : Analysis} {entry : Word} {v : Verdict} (h : s.Trusted g ranges)
    (hv : v = .verified → Cleared g ranges entry) : (s.note entry v).Trusted g ranges := by
  intro e he
  by_cases heq : e = entry
  · subst heq
    rw [Analysis.cache_note, Function.update_self, Option.some.injEq] at he
    exact hv he
  · rw [Analysis.cache_note, Function.update_of_ne heq] at he
    exact h e he

/-- A verification keeps the cache true, and a positive answer is true. -/
structure Answers (g : Guest) (ranges : List RuntimeRange) (entry : Word) (r : Bool × Analysis) :
    Prop where
  trusted : r.2.Trusted g ranges
  cleared : r.1 = true → Cleared g ranges entry

namespace Answers

variable {entry : Word} {s : Analysis}

theorem reject (h : s.Trusted g ranges) : Answers g ranges entry (s.reject entry) :=
  ⟨h.note (fun hbad => by cases hbad), fun hbad => by cases hbad⟩

theorem finish {safe : Bool} (h : s.Trusted g ranges) (hsafe : safe = true → Cleared g ranges entry) :
    Answers g ranges entry (s.finish entry safe) := by
  refine ⟨h.note fun hv => hsafe ?_, hsafe⟩
  split_ifs at hv with hyes
  exact hyes

end Answers

/-- The address of an instruction of the straight line that starts at an entry. -/
def linearAddress (g : Guest) (entry : Word) : ℕ → Option Word
  | 0 => some entry
  | k + 1 =>
    (linearAddress g entry k).bind fun a => (g.decodeAt a).map fun i => a + BitVec.ofNat 32 i.length

/-- The instructions of a span that are checked so far. -/
def LinePlain (g : Guest) (entry : Word) (count : ℕ) : Prop :=
  ∀ k < count, ∃ a i, linearAddress g entry k = some a ∧ g.decodeAt a = some i ∧
    g.isSensitive i = false

theorem LinePlain.succ {entry a : Word} {count : ℕ} {i : Instruction} (h : LinePlain g entry count)
    (haddress : linearAddress g entry count = some a) (hdecode : g.decodeAt a = some i)
    (hplain : g.isSensitive i = false) : LinePlain g entry (count + 1) := by
  intro k hk
  rcases Nat.lt_succ_iff_lt_or_eq.mp hk with hlt | rfl
  · exact h k hlt
  · exact ⟨a, i, haddress, hdecode, hplain⟩

end

/-- The rows of a segment register load and of a near return, with those of the small guests. -/
def nativeTable : Table where
  hasModrm := fun _ encoding map opcode =>
    encoding = .legacy ∧ map = .default ∧ opcode ∈ 0x8E :: modrmOpcodes
  lookup := fun _ key =>
    if key.encoding = .legacy ∧ key.map = .default then
      if key.opcode = 0x8E then some (row .mov [dst (.modrmReg .segment), src (.modrmRm .gpr16)])
      else if key.opcode = 0xC3 then some (row (.other 0xC3) [] [] .ret)
      else defaultRow key.opcode (key.modrm.getD 0)
    else none

/-- The branch types of these rows. -/
def nativeMetadata : Metadata where
  stringOp := fun _ => false
  branchType := fun d =>
    if d.farBranch then .far
    else if d.category = .call ∨ d.category = .ret ∨ d.category = .condBr ∨ d.category = .uncondBr then
      .near
    else .none
  far_iff := by
    intro d
    split_ifs with hfar <;> simp [hfar]

/-- A guest with the given bytes at address zero. -/
def guestOf (bytes : List Byte) : Guest :=
  { memory := fun a => bytes.getD a.toNat 0, table := nativeTable, metadata := nativeMetadata }

/-- A page at address zero. -/
def firstPage : RuntimeRange := { base := 0, size := 0x1000 }

/-- `nop`, `nop` and `ret`. -/
def plainGuest : Guest := guestOf [0x90, 0x90, 0xC3]

end VerifiedRegion

end Repiu.Engine
