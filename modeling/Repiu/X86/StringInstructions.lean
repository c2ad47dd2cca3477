import Repiu.MemoryMoves
import Repiu.X86.StatusFlags

/-!
# String instructions

The string instructions that move, scan, load and compare, with 32-bit addressing: what one
iteration does to the machine, when a repetition ends, and how a repetition that was interrupted
between two iterations goes on.
-/

namespace Repiu.X86

/-! ## Elements in memory -/

namespace DataMemory

/-- The little-endian number in a run of bytes. -/
def loadBytes (m : DataMemory) (a : Word) : ℕ → Word
  | 0 => 0
  | n + 1 => m.loadBytes (a + 1) n <<< 8 ||| (m a).setWidth 32

/-- Move a run of bytes; all of them are read before the first is written. -/
def move (m : DataMemory) (target source : Word) (n : ℕ) : DataMemory := m ∘ moveMap target source n

end DataMemory

/-! ## Instructions -/

/-- What a string instruction does with an element. -/
inductive StringOperation
  | movs | scas | lods | cmps
deriving DecidableEq

/-- The repeat prefix. -/
inductive RepeatPrefix
  | none | rep | repe | repne
deriving DecidableEq

/-- A string instruction: the bytes of an element and of the instruction. -/
structure StringInsn where
  operation : StringOperation
  width : ℕ
  repeated : RepeatPrefix
  length : ℕ
  width_eq : width = 1 ∨ width = 2 ∨ width = 4

/-- The linear addresses at which the data segments begin. -/
structure SegmentBases where
  ds : Word
  es : Word

/-- Segments that begin at zero. -/
def SegmentBases.flat : SegmentBases := ⟨0, 0⟩

namespace StringInsn

/-- The bits of an element. -/
def bits (i : StringInsn) : ℕ := i.width * 8

/-- Whether there is an element at ES:EDI. -/
def usesEdi (i : StringInsn) : Bool := i.operation ≠ .lods

/-- Whether there is an element at DS:ESI. -/
def usesEsi (i : StringInsn) : Bool := i.operation ≠ .scas

/-- Whether an iteration compares. -/
def compares (i : StringInsn) : Bool := i.operation = .scas ∨ i.operation = .cmps

/-- The linear address of the element at ES:EDI. -/
def target (bases : SegmentBases) (s : CodeState) : Word := bases.es + s.registers 7

/-- The linear address of the element at DS:ESI. -/
def source (bases : SegmentBases) (s : CodeState) : Word := bases.ds + s.registers 6

/-- What an instruction does with an element. -/
def operate (i : StringInsn) (bases : SegmentBases) (s : CodeState) : CodeState :=
  let atTarget := s.memory.loadBytes (target bases s) i.width
  let atSource := s.memory.loadBytes (source bases s) i.width
  match i.operation with
  | .movs => { s with memory := s.memory.move (target bases s) (source bases s) i.width }
  | .scas => s.status (subtractFlags ((s.registers 0).setWidth i.bits) (atTarget.setWidth i.bits))
  | .cmps => s.status (subtractFlags (atSource.setWidth i.bits) (atTarget.setWidth i.bits))
  | .lods =>
    -- the bits above the element stay
    s.write (s.registers 0 >>> i.bits <<< i.bits ||| atSource) (.register 0)

/-- What a pointer is moved by: down where the direction flag is set. -/
def stride (i : StringInsn) (s : CodeState) : Word :=
  if s.eflags.getLsbD 10 then -BitVec.ofNat 32 i.width else BitVec.ofNat 32 i.width

/-- Move the pointers of the instruction. -/
def advance (i : StringInsn) (s : CodeState) : CodeState :=
  let s := if i.usesEdi then s.write (s.registers 7 + i.stride s) (.register 7) else s
  if i.usesEsi then s.write (s.registers 6 + i.stride s) (.register 6) else s

/-- One iteration. -/
def iteration (i : StringInsn) (bases : SegmentBases) (s : CodeState) : CodeState :=
  let s := i.advance (i.operate bases s)
  if i.repeated = .none then s else s.write (s.registers 1 - 1) (.register 1)

/-- Whether the repetition ends with the iteration that led to a state. -/
def ends (i : StringInsn) (s : CodeState) : Prop :=
  i.repeated = .none ∨ s.registers 1 = 0 ∨
    i.compares ∧ (i.repeated = .repe ∧ zeroFlag s.eflags = false ∨ i.repeated = .repne ∧ zeroFlag s.eflags = true)

instance (i : StringInsn) (s : CodeState) : Decidable (i.ends s) := inferInstanceAs (Decidable (_ ∨ _ ∨ _))

/-- Whether the count of a repetition is used up before it begins. -/
def exhausted (i : StringInsn) (s : CodeState) : Prop := i.repeated ≠ .none ∧ s.registers 1 = 0

/-- Go on behind the instruction. -/
def skip (i : StringInsn) (s : CodeState) : CodeState := s.goto (s.eip + BitVec.ofNat 32 i.length)

/-- The instruction takes a state to the end of its repetition. -/
inductive Finishes (i : StringInsn) (bases : SegmentBases) : CodeState → CodeState → Prop
  | exhausted {s : CodeState} (h : i.exhausted s) : Finishes i bases s (i.skip s)
  | last {s : CodeState} (h : ¬i.exhausted s) (hends : i.ends (i.iteration bases s)) :
    Finishes i bases s (i.skip (i.iteration bases s))
  | more {s t : CodeState} (h : ¬i.exhausted s) (hgoes : ¬i.ends (i.iteration bases s))
    (hrest : Finishes i bases (i.iteration bases s) t) : Finishes i bases s t

variable {i : StringInsn} {bases : SegmentBases} {s t : CodeState}

/-! ## The direction -/

/-- Status flags leave the direction flag alone. -/
theorem direction_withStatus (eflags : Word) (f : Flags) :
    (withStatus eflags f).getLsbD 10 = eflags.getLsbD 10 := by
  have hword : f.toWord.getLsbD 10 = false := by
    obtain ⟨cf, pf, af, zf, sf, of⟩ := f
    cases cf <;> cases pf <;> cases af <;> cases zf <;> cases sf <;> cases of <;> decide
  have hmask : (~~~statusMask).getLsbD 10 = true := by decide
  rw [withStatus, BitVec.getLsbD_or, BitVec.getLsbD_and, hmask, hword, Bool.and_true, Bool.or_false]

theorem stride_congr {s s' : CodeState} (h : s.eflags.getLsbD 10 = s'.eflags.getLsbD 10) :
    i.stride s = i.stride s' := by
  unfold stride
  rw [h]

theorem stride_operate (bases : SegmentBases) (s : CodeState) : i.stride (i.operate bases s) = i.stride s := by
  apply stride_congr
  unfold operate
  cases i.operation with
  | movs => rfl
  | scas => exact direction_withStatus _ _
  | lods => rfl
  | cmps => exact direction_withStatus _ _

theorem advance_eflags (s : CodeState) : (i.advance s).eflags = s.eflags := by
  unfold advance
  dsimp only
  split_ifs <;> rfl

theorem stride_iteration (s : CodeState) : i.stride (i.iteration bases s) = i.stride s := by
  rw [← stride_operate bases s]
  apply stride_congr
  rw [← i.advance_eflags (i.operate bases s)]
  unfold iteration
  dsimp only
  split_ifs <;> rfl

theorem iteration_eip (s : CodeState) : (i.iteration bases s).eip = s.eip := by
  have hoperate : (i.operate bases s).eip = s.eip := by
    unfold operate
    cases i.operation with
    | movs => rfl
    | scas => rfl
    | lods => rfl
    | cmps => rfl
  rw [← hoperate]
  unfold iteration advance
  dsimp only
  split_ifs <;> rfl

theorem iterate_eip (s : CodeState) (k : ℕ) : ((i.iteration bases)^[k] s).eip = s.eip := by
  induction k generalizing s with
  | zero => rfl
  | succ k ih => rw [Function.iterate_succ_apply, ih, iteration_eip]

/-! ## Repetitions -/

/-- A repetition that has not ended has some of its count left. -/
theorem not_exhausted_of_not_ends (h : ¬i.ends s) : ¬i.exhausted s := fun hex => h (Or.inr (Or.inl hex.2))

theorem finishes_iteration (h : ¬i.exhausted s) (hgoes : ¬i.ends (i.iteration bases s)) :
    Finishes i bases (i.iteration bases s) t ↔ Finishes i bases s t := by
  refine ⟨fun hrest => Finishes.more h hgoes hrest, fun hall => ?_⟩
  cases hall with
  | exhausted hex => exact absurd hex h
  | last _ hends => exact absurd hends hgoes
  | more _ _ hrest => exact hrest

/-- A repetition may be left and taken up again between two iterations. -/
theorem finishes_iterate (h : ¬i.exhausted s) {k : ℕ}
    (hgoes : ∀ j, 1 ≤ j → j ≤ k → ¬i.ends ((i.iteration bases)^[j] s)) :
    Finishes i bases ((i.iteration bases)^[k] s) t ↔ Finishes i bases s t := by
  induction k generalizing s with
  | zero => rfl
  | succ k ih =>
    have hfirst : ¬i.ends (i.iteration bases s) := hgoes 1 le_rfl (by omega)
    rw [Function.iterate_succ_apply, ih (not_exhausted_of_not_ends hfirst), finishes_iteration h hfirst]
    intro j hj hjk
    have := hgoes (j + 1) (by omega) (by omega)
    rwa [Function.iterate_succ_apply] at this

/-- The iteration that ends a repetition finishes it. -/
theorem finishes_of_ends (h : ¬i.exhausted s) {k : ℕ}
    (hgoes : ∀ j, 1 ≤ j → j ≤ k → ¬i.ends ((i.iteration bases)^[j] s))
    (hends : i.ends ((i.iteration bases)^[k + 1] s)) :
    Finishes i bases s (i.skip ((i.iteration bases)^[k + 1] s)) := by
  rw [← finishes_iterate h hgoes, Function.iterate_succ_apply']
  rw [Function.iterate_succ_apply'] at hends
  refine Finishes.last ?_ hends
  cases k with
  | zero => exact h
  | succ k => exact not_exhausted_of_not_ends (hgoes (k + 1) (by omega) le_rfl)

/-- An instruction takes a state to one end only. -/
theorem Finishes.unique {t' : CodeState} (h : Finishes i bases s t) (h' : Finishes i bases s t') : t = t' := by
  induction h with
  | exhausted hex =>
    cases h' with
    | exhausted => rfl
    | last hnot => exact absurd hex hnot
    | more hnot => exact absurd hex hnot
  | last hnot hends =>
    cases h' with
    | exhausted hex => exact absurd hex hnot
    | last => rfl
    | more _ hgoes => exact absurd hends hgoes
  | more hnot hgoes _ ih =>
    cases h' with
    | exhausted hex => exact absurd hex hnot
    | last _ hends => exact absurd hends hgoes
    | more _ _ hrest => exact ih hrest

/-- A number of iterations of which only the last may end the repetition, with whether it does. -/
structure Prefix (i : StringInsn) (bases : SegmentBases) (s : CodeState) (k : ℕ) (ended : Bool) (r : CodeState) :
    Prop where
  iterate : r = (i.iteration bases)^[k] s
  goes : ∀ j, 1 ≤ j → j < k → ¬i.ends ((i.iteration bases)^[j] s)
  ended_iff : ended = true ↔ 1 ≤ k ∧ i.ends r

namespace Prefix

variable {k : ℕ} {ended : Bool} {r : CodeState}

theorem zero (s : CodeState) : Prefix i bases s 0 false s where
  iterate := rfl
  goes j hj hj0 := absurd hj0 (by omega)
  ended_iff := by simp

theorem last (h : i.ends (i.iteration bases s)) : Prefix i bases s 1 true (i.iteration bases s) where
  iterate := rfl
  goes j hj hj1 := absurd hj1 (by omega)
  ended_iff := by simp [h]

theorem more (h : ¬i.ends (i.iteration bases s)) (hrest : Prefix i bases (i.iteration bases s) k ended r) :
    Prefix i bases s (k + 1) ended r where
  iterate := hrest.iterate
  goes j hj hjk := by
    obtain ⟨j, rfl⟩ : ∃ j', j = j' + 1 := ⟨j - 1, by omega⟩
    rw [Function.iterate_succ_apply]
    by_cases hzero : j = 0
    · rwa [hzero]
    · exact hrest.goes j (by omega) (by omega)
  ended_iff := by
    rw [hrest.ended_iff]
    refine ⟨fun hends => ⟨by omega, hends.2⟩, fun hends => ⟨?_, hends.2⟩⟩
    by_contra hk
    have hzero : k = 0 := by omega
    have hr := hrest.iterate
    rw [hzero] at hr
    rw [hr] at hends
    exact h hends.2

/-- Iterations behind which the repetition goes on leave what the whole instruction does unchanged. -/
theorem finishes_iff (h : ¬i.exhausted s) (hpart : Prefix i bases s k ended r) (hends : ¬i.ends r) :
    Finishes i bases r t ↔ Finishes i bases s t := by
  rw [hpart.iterate]
  apply finishes_iterate h
  intro j hj hjk
  by_cases hlast : j = k
  · rwa [hlast, ← hpart.iterate]
  · exact hpart.goes j hj (by omega)

/-- Iterations the last of which ends the repetition are the whole instruction. -/
theorem finishes (h : ¬i.exhausted s) (hpart : Prefix i bases s k ended r) (hk : 1 ≤ k) (hends : i.ends r) :
    Finishes i bases s (i.skip r) := by
  obtain ⟨k, rfl⟩ : ∃ k', k = k' + 1 := ⟨k - 1, by omega⟩
  rw [hpart.iterate] at hends ⊢
  exact finishes_of_ends h (fun j hj hjk => hpart.goes j hj (by omega)) hends

end Prefix

/-! ## Repeated moves -/

/-- What a repeated move leads to, upwards: its elements are moved one behind the other. -/
def movsEnd (i : StringInsn) (bases : SegmentBases) (s : CodeState) : CodeState :=
  let count := (s.registers 1).toNat
  let bytes := BitVec.ofNat 32 (count * i.width)
  { eip := s.eip + BitVec.ofNat 32 i.length
    registers := fun r =>
      if r = 1 then 0
      else if r = 6 then s.registers 6 + bytes
      else if r = 7 then s.registers 7 + bytes
      else s.registers r
    eflags := s.eflags
    memory := s.memory ∘ elementsMap i.width count (target bases s) (source bases s) }

/-- An iteration of a repeated move, upwards. -/
theorem iteration_movs (hop : i.operation = .movs) (hrep : i.repeated = .rep) (hup : s.eflags.getLsbD 10 = false) :
    i.iteration bases s =
      { eip := s.eip
        registers := fun r =>
          if r = 1 then s.registers 1 - 1
          else if r = 6 then s.registers 6 + BitVec.ofNat 32 i.width
          else if r = 7 then s.registers 7 + BitVec.ofNat 32 i.width
          else s.registers r
        eflags := s.eflags
        memory := s.memory.move (target bases s) (source bases s) i.width } := by
  have hedi : i.usesEdi = true := by rw [usesEdi, hop]; rfl
  have hesi : i.usesEsi = true := by rw [usesEsi, hop]; rfl
  have hrepeated : ¬i.repeated = .none := by rw [hrep]; decide
  unfold iteration operate advance
  simp only [hop, hedi, hesi, if_true, if_neg hrepeated]
  unfold stride
  simp only [CodeState.write, hup, Bool.false_eq_true, if_false, CodeState.mk.injEq, true_and, and_true]
  funext r
  fin_cases r <;> rfl

theorem movsEnd_exhausted (hzero : s.registers 1 = 0) : i.movsEnd bases s = i.skip s := by
  unfold movsEnd skip CodeState.goto
  rw [hzero]
  show CodeState.mk _ _ _ _ = CodeState.mk _ _ _ _
  rw [CodeState.mk.injEq]
  refine ⟨rfl, ?_, rfl, rfl⟩
  have hbytes : BitVec.ofNat 32 ((0 : Word).toNat * i.width) = 0 := by
    rw [show (0 : Word).toNat = 0 from rfl, Nat.zero_mul]
    rfl
  funext r
  rw [hbytes, add_zero, add_zero]
  split_ifs with h1 h6 h7
  · rw [h1, hzero]
  · rw [h6]
  · rw [h7]
  · rfl

theorem movsEnd_iteration (hop : i.operation = .movs) (hrep : i.repeated = .rep)
    (hup : s.eflags.getLsbD 10 = false) (hcount : s.registers 1 ≠ 0) :
    i.movsEnd bases (i.iteration bases s) = i.movsEnd bases s := by
  obtain ⟨k, hk⟩ : ∃ k, (s.registers 1).toNat = k + 1 := by
    refine ⟨(s.registers 1).toNat - 1, ?_⟩
    have : (s.registers 1).toNat ≠ 0 := fun hzero => hcount (BitVec.eq_of_toNat_eq hzero)
    omega
  have hless : (s.registers 1 - 1).toNat = k := by bv_omega
  have hbytes : BitVec.ofNat 32 i.width + BitVec.ofNat 32 (k * i.width) = BitVec.ofNat 32 ((k + 1) * i.width) := by
    rw [Nat.succ_mul, Nat.add_comm, BitVec.ofNat_add]
  rw [iteration_movs hop hrep hup]
  unfold movsEnd
  show CodeState.mk _ _ _ _ = CodeState.mk _ _ _ _
  rw [CodeState.mk.injEq]
  refine ⟨rfl, ?_, rfl, ?_⟩
  · funext r
    show (if r = 1 then 0
      else if r = 6 then s.registers 6 + BitVec.ofNat 32 i.width +
        BitVec.ofNat 32 ((s.registers 1 - 1).toNat * i.width)
      else if r = 7 then s.registers 7 + BitVec.ofNat 32 i.width +
        BitVec.ofNat 32 ((s.registers 1 - 1).toNat * i.width)
      else if r = 1 then s.registers 1 - 1
      else if r = 6 then s.registers 6 + BitVec.ofNat 32 i.width
      else if r = 7 then s.registers 7 + BitVec.ofNat 32 i.width
      else s.registers r) = _
    rw [hless, hk, add_assoc, add_assoc, hbytes]
    split_ifs <;> rfl
  · show (s.memory.move (target bases s) (source bases s) i.width) ∘
      elementsMap i.width (s.registers 1 - 1).toNat (bases.es + (s.registers 7 + BitVec.ofNat 32 i.width))
        (bases.ds + (s.registers 6 + BitVec.ofNat 32 i.width)) = _
    rw [hless, hk, ← add_assoc, ← add_assoc]
    rfl

/-- A repeated move, upwards, leads to where its elements are moved one behind the other. -/
theorem finishes_movsEnd (hop : i.operation = .movs) (hrep : i.repeated = .rep)
    (hup : s.eflags.getLsbD 10 = false) : Finishes i bases s (i.movsEnd bases s) := by
  obtain ⟨k, hk⟩ : ∃ k, (s.registers 1).toNat = k := ⟨_, rfl⟩
  induction k generalizing s with
  | zero =>
    have hzero : s.registers 1 = 0 := BitVec.eq_of_toNat_eq hk
    rw [movsEnd_exhausted hzero]
    exact Finishes.exhausted ⟨by rw [hrep]; decide, hzero⟩
  | succ k ih =>
    have hcount : s.registers 1 ≠ 0 := fun hzero => by rw [hzero] at hk; exact absurd hk (by simp)
    have hstart : ¬i.exhausted s := fun hex => hcount hex.2
    have hless : ((i.iteration bases s).registers 1).toNat = k := by
      rw [iteration_movs hop hrep hup]
      show (s.registers 1 - 1).toNat = k
      bv_omega
    have hdirection : (i.iteration bases s).eflags.getLsbD 10 = false := by
      rw [iteration_movs hop hrep hup]
      exact hup
    rw [← movsEnd_iteration hop hrep hup hcount]
    by_cases hlast : (i.iteration bases s).registers 1 = 0
    · rw [movsEnd_exhausted hlast]
      exact Finishes.last hstart (Or.inr (Or.inl hlast))
    · refine Finishes.more hstart ?_ (ih hdirection hless)
      rintro (hnone | hzero | hflag)
      · rw [hrep] at hnone
        cases hnone
      · exact hlast hzero
      · rw [hrep] at hflag
        simp at hflag

/-! ## Flags -/

/-- The operation of an iteration that sets flags. -/
def arithmetic (i : StringInsn) (bases : SegmentBases) (s : CodeState) : List Arithmetic :=
  let atTarget := s.memory.loadBytes (target bases s) i.width
  let atSource := s.memory.loadBytes (source bases s) i.width
  match i.operation with
  | .movs => []
  | .scas => [.sub ((s.registers 0).setWidth i.bits) (atTarget.setWidth i.bits)]
  | .cmps => [.sub (atSource.setWidth i.bits) (atTarget.setWidth i.bits)]
  | .lods => []

/-- The operations of a number of iterations. -/
def arithmetics (i : StringInsn) (bases : SegmentBases) (s : CodeState) (k : ℕ) : List Arithmetic :=
  (List.range k).flatMap fun j => i.arithmetic bases ((i.iteration bases)^[j] s)

theorem iteration_eflags (s : CodeState) : (i.iteration bases s).eflags = (i.operate bases s).eflags := by
  rw [← i.advance_eflags (i.operate bases s)]
  unfold iteration
  dsimp only
  split_ifs <;> rfl

theorem leaves_iteration (s : CodeState) :
    Arithmetic.Leaves (i.arithmetic bases s) s.eflags (i.iteration bases s).eflags := by
  rw [iteration_eflags]
  unfold arithmetic operate
  cases i.operation with
  | movs => rfl
  | scas => exact Arithmetic.leaves_singleton.mpr (Arithmetic.sets_withStatus (.sub _ _) _)
  | lods => rfl
  | cmps => exact Arithmetic.leaves_singleton.mpr (Arithmetic.sets_withStatus (.sub _ _) _)

/-- Iterations leave the flags of their operations. -/
theorem leaves_iterate (s : CodeState) (k : ℕ) :
    Arithmetic.Leaves (i.arithmetics bases s k) s.eflags ((i.iteration bases)^[k] s).eflags := by
  induction k with
  | zero => rfl
  | succ k ih =>
    unfold arithmetics at ih ⊢
    rw [List.range_succ, List.flatMap_append, Function.iterate_succ_apply', List.flatMap_singleton]
    exact Arithmetic.leaves_append ih (leaves_iteration _)

end StringInsn

end Repiu.X86
