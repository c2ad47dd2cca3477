import Repiu.X86.SelectorCode

/-!
# Arithmetic on the status flags

The status flags that subtraction, addition and the logical operations leave at any operand
width, what a sequence of them leaves in EFLAGS, and the bit tests that compute single flags.
-/

namespace Repiu.X86

/-! ## The flags in EFLAGS -/

namespace Flags

/-- All flags clear. -/
def clear : Flags := ⟨false, false, false, false, false, false⟩

/-- The status flags that EFLAGS holds. -/
def ofWord (eflags : Word) : Flags where
  cf := eflags.getLsbD 0
  pf := eflags.getLsbD 2
  af := eflags.getLsbD 4
  zf := eflags.getLsbD 6
  sf := eflags.getLsbD 7
  of := eflags.getLsbD 11

/-- The flags at single bits of the word. -/
theorem ofWord_toWord (f : Flags) : ofWord f.toWord = f := by
  obtain ⟨cf, pf, af, zf, sf, of⟩ := f
  cases cf <;> cases pf <;> cases af <;> cases zf <;> cases sf <;> cases of <;> decide

end Flags

@[simp] theorem ofWord_withStatus (eflags : Word) (f : Flags) : Flags.ofWord (withStatus eflags f) = f := by
  have hkeep : ∀ k, statusMask.getLsbD k = true → (withStatus eflags f).getLsbD k = f.toWord.getLsbD k := by
    intro k hk
    rw [withStatus, BitVec.getLsbD_or, BitVec.getLsbD_and, BitVec.getLsbD_not, hk]
    simp
  have hword : Flags.ofWord (withStatus eflags f) = Flags.ofWord f.toWord := by
    unfold Flags.ofWord
    rw [hkeep 0 (by decide), hkeep 2 (by decide), hkeep 4 (by decide), hkeep 6 (by decide),
      hkeep 7 (by decide), hkeep 11 (by decide)]
  rw [hword, Flags.ofWord_toWord]

/-- EFLAGS is its own status flags and the rest. -/
theorem withStatus_ofWord (eflags : Word) : withStatus eflags (Flags.ofWord eflags) = eflags := by
  have hword : (Flags.ofWord eflags).toWord = eflags &&& statusMask := by
    have hbit : ∀ {k : ℕ} (b : Word), b = BitVec.twoPow 32 k →
        (if eflags.getLsbD k then b else 0) = eflags &&& b := by
      intro k b hb
      rw [hb, BitVec.and_twoPow]
      rfl
    show (if eflags.getLsbD 0 then (0x1 : Word) else 0) ||| (if eflags.getLsbD 2 then 0x4 else 0) |||
      (if eflags.getLsbD 4 then 0x10 else 0) ||| (if eflags.getLsbD 6 then 0x40 else 0) |||
      (if eflags.getLsbD 7 then 0x80 else 0) ||| (if eflags.getLsbD 11 then 0x800 else 0) = _
    rw [hbit 0x1 (by decide), hbit 0x4 (by decide), hbit 0x10 (by decide), hbit 0x40 (by decide),
      hbit 0x80 (by decide), hbit 0x800 (by decide)]
    simp only [← BitVec.and_or_distrib_left]
    rfl
  rw [withStatus, hword, ← BitVec.and_or_distrib_left, BitVec.or_comm, BitVec.or_not_self, BitVec.and_allOnes]

theorem withStatus_inj {eflags : Word} {f g : Flags} : withStatus eflags f = withStatus eflags g ↔ f = g := by
  refine ⟨fun h => ?_, fun h => by rw [h]⟩
  rw [← ofWord_withStatus eflags f, h, ofWord_withStatus]

/-- A flag that is set when a condition holds. -/
theorem ite_or_bit {p : Prop} [Decidable p] (x bit : Word) :
    (if p then x ||| bit else x) = x ||| if p then bit else 0 := by
  by_cases hp : p
  · rw [if_pos hp, if_pos hp]
  · rw [if_neg hp, if_neg hp]
    exact BitVec.or_zero.symm

/-- Setting status bits of EFLAGS sets flags. -/
theorem withStatus_or {bits : Word} {f g : Flags} (eflags : Word) (h : f.toWord ||| bits = g.toWord) :
    withStatus eflags f ||| bits = withStatus eflags g := by
  rw [withStatus, BitVec.or_assoc, h, withStatus]

/-- Clearing status bits of EFLAGS clears flags. -/
theorem withStatus_and {bits : Word} {f g : Flags} (eflags : Word) (hbits : ~~~statusMask &&& bits = ~~~statusMask)
    (h : f.toWord &&& bits = g.toWord) : withStatus eflags f &&& bits = withStatus eflags g := by
  rw [withStatus, BitVec.and_or_distrib_right, BitVec.and_assoc, hbits, h, withStatus]

section SingleFlags

variable (eflags : Word) (f : Flags)

theorem withStatus_set_pf : withStatus eflags f ||| 0x4 = withStatus eflags { f with pf := true } := by
  apply withStatus_or
  obtain ⟨cf, pf, af, zf, sf, of⟩ := f
  cases cf <;> cases pf <;> cases af <;> cases zf <;> cases sf <;> cases of <;> decide

theorem withStatus_set_zf : withStatus eflags f ||| 0x40 = withStatus eflags { f with zf := true } := by
  apply withStatus_or
  obtain ⟨cf, pf, af, zf, sf, of⟩ := f
  cases cf <;> cases pf <;> cases af <;> cases zf <;> cases sf <;> cases of <;> decide

theorem withStatus_set_sf : withStatus eflags f ||| 0x80 = withStatus eflags { f with sf := true } := by
  apply withStatus_or
  obtain ⟨cf, pf, af, zf, sf, of⟩ := f
  cases cf <;> cases pf <;> cases af <;> cases zf <;> cases sf <;> cases of <;> decide

theorem withStatus_clear_cf :
    withStatus eflags f &&& ~~~0x1 = withStatus eflags { f with cf := false } := by
  apply withStatus_and eflags (by decide)
  obtain ⟨cf, pf, af, zf, sf, of⟩ := f
  cases cf <;> cases pf <;> cases af <;> cases zf <;> cases sf <;> cases of <;> decide

theorem withStatus_clear_zf :
    withStatus eflags f &&& ~~~0x40 = withStatus eflags { f with zf := false } := by
  apply withStatus_and eflags (by decide)
  obtain ⟨cf, pf, af, zf, sf, of⟩ := f
  cases cf <;> cases pf <;> cases af <;> cases zf <;> cases sf <;> cases of <;> decide

theorem withStatus_clear_sf :
    withStatus eflags f &&& ~~~0x80 = withStatus eflags { f with sf := false } := by
  apply withStatus_and eflags (by decide)
  obtain ⟨cf, pf, af, zf, sf, of⟩ := f
  cases cf <;> cases pf <;> cases af <;> cases zf <;> cases sf <;> cases of <;> decide

theorem withStatus_clear_of :
    withStatus eflags f &&& ~~~0x800 = withStatus eflags { f with of := false } := by
  apply withStatus_and eflags (by decide)
  obtain ⟨cf, pf, af, zf, sf, of⟩ := f
  cases cf <;> cases pf <;> cases af <;> cases zf <;> cases sf <;> cases of <;> decide

/-- A flag bit that is set when a condition holds. -/
theorem raise_pf {p : Prop} [Decidable p] :
    (if p then withStatus eflags f ||| 0x4 else withStatus eflags f) =
      withStatus eflags { f with pf := f.pf || decide p } := by
  by_cases hp : p
  · rw [if_pos hp, withStatus_set_pf, decide_eq_true hp, Bool.or_true]
  · rw [if_neg hp, decide_eq_false hp, Bool.or_false]

theorem raise_zf {p : Prop} [Decidable p] :
    (if p then withStatus eflags f ||| 0x40 else withStatus eflags f) =
      withStatus eflags { f with zf := f.zf || decide p } := by
  by_cases hp : p
  · rw [if_pos hp, withStatus_set_zf, decide_eq_true hp, Bool.or_true]
  · rw [if_neg hp, decide_eq_false hp, Bool.or_false]

theorem raise_sf {p : Prop} [Decidable p] :
    (if p then withStatus eflags f ||| 0x80 else withStatus eflags f) =
      withStatus eflags { f with sf := f.sf || decide p } := by
  by_cases hp : p
  · rw [if_pos hp, withStatus_set_sf, decide_eq_true hp, Bool.or_true]
  · rw [if_neg hp, decide_eq_false hp, Bool.or_false]

/-- A flag bit that is set when a condition holds and cleared otherwise. -/
theorem ite_zf {p : Prop} [Decidable p] :
    (if p then withStatus eflags f ||| 0x40 else withStatus eflags f &&& ~~~0x40) =
      withStatus eflags { f with zf := decide p } := by
  by_cases hp : p
  · rw [if_pos hp, withStatus_set_zf, decide_eq_true hp]
  · rw [if_neg hp, withStatus_clear_zf, decide_eq_false hp]

theorem ite_sf {p : Prop} [Decidable p] :
    (if p then withStatus eflags f ||| 0x80 else withStatus eflags f &&& ~~~0x80) =
      withStatus eflags { f with sf := decide p } := by
  by_cases hp : p
  · rw [if_pos hp, withStatus_set_sf, decide_eq_true hp]
  · rw [if_neg hp, withStatus_clear_sf, decide_eq_false hp]

end SingleFlags

/-! ## The flags of an operation -/

/-- The flags of `a - b`. -/
def subtractFlags {w : ℕ} (a b : BitVec w) : Flags where
  cf := a < b
  pf := parity ((a - b).setWidth 32)
  af := a.toNat % 16 < b.toNat % 16
  zf := a - b = 0
  sf := (a - b).msb
  of := a.ssubOverflow b

/-- The flags of `a + b`. -/
def addFlags {w : ℕ} (a b : BitVec w) : Flags where
  cf := a.uaddOverflow b
  pf := parity ((a + b).setWidth 32)
  af := 16 ≤ a.toNat % 16 + b.toNat % 16
  zf := a + b = 0
  sf := (a + b).msb
  of := a.saddOverflow b

/-! ## Single flags as bit tests -/

/-- A test of a single bit. -/
theorem and_bit_ne_zero {w k : ℕ} {bit : BitVec w} (x : BitVec w) (hk : k < w) (hbit : bit = BitVec.twoPow w k) :
    x &&& bit ≠ 0 ↔ x.getLsbD k = true := by
  have hpow : BitVec.twoPow w k ≠ 0 := by
    intro hzero
    have := congrArg (fun v => BitVec.getLsbD v k) hzero
    simp [hk] at this
  rw [hbit, BitVec.and_twoPow]
  cases x.getLsbD k with
  | true => simpa using hpow
  | false => simp

theorem toNat_mod_sixteen_add {w : ℕ} (hw : 4 ≤ w) (a b : BitVec w) :
    (a + b).toNat % 16 = (a.toNat + b.toNat) % 16 := by
  have hdvd : 16 ∣ 2 ^ w := pow_dvd_pow 2 hw
  rw [BitVec.toNat_add, Nat.mod_mod_of_dvd _ hdvd]

/-- Bit 4 of a sum tells the carry out of the low four bits. -/
theorem carry_bit {w : ℕ} (hw : 4 < w) (a b : BitVec w) :
    (a ^^^ b ^^^ (a + b)).getLsbD 4 = decide (16 ≤ a.toNat % 16 + b.toNat % 16) := by
  have hcarry : BitVec.carry 4 a b false = decide (16 ≤ a.toNat % 16 + b.toNat % 16) := by
    simp [BitVec.carry]
  rw [BitVec.getLsbD_xor, BitVec.getLsbD_xor, BitVec.getLsbD_add hw, hcarry]
  cases a.getLsbD 4 <;> cases b.getLsbD 4 <;> simp

/-- Bit 4 of a difference tells the borrow into the low four bits. -/
theorem borrow_bit {w : ℕ} (hw : 4 < w) (a b : BitVec w) :
    (a ^^^ b ^^^ (a - b)).getLsbD 4 = decide (a.toNat % 16 < b.toNat % 16) := by
  have hsum : a - b + b = a := BitVec.sub_add_cancel a b
  have hmod := toNat_mod_sixteen_add (Nat.le_of_lt hw) (a - b) b
  rw [hsum] at hmod
  have hbits : (a ^^^ b ^^^ (a - b)).getLsbD 4 = ((a - b) ^^^ b ^^^ (a - b + b)).getLsbD 4 := by
    rw [hsum]
    simp only [BitVec.getLsbD_xor]
    cases a.getLsbD 4 <;> cases b.getLsbD 4 <;> cases (a - b).getLsbD 4 <;> rfl
  rw [hbits, carry_bit hw, decide_eq_decide]
  omega

/-- The sign bits tell the overflow of a difference. -/
theorem overflow_bit_sub {w : ℕ} (a b : BitVec w) :
    ((a ^^^ b) &&& (a ^^^ (a - b))).msb = a.ssubOverflow b := by
  rw [BitVec.ssubOverflow_eq, BitVec.msb_and, BitVec.msb_xor, BitVec.msb_xor]
  cases a.msb <;> cases b.msb <;> cases (a - b).msb <;> rfl

/-- The sign bits tell the overflow of a sum. -/
theorem overflow_bit_add {w : ℕ} (hw : 0 < w) (a b : BitVec w) :
    (~~~(a ^^^ b) &&& (a ^^^ (a + b))).msb = a.saddOverflow b := by
  rw [BitVec.saddOverflow_eq, BitVec.msb_and, BitVec.msb_not, BitVec.msb_xor, BitVec.msb_xor]
  simp only [hw, decide_true]
  cases a.msb <;> cases b.msb <;> cases (a + b).msb <;> rfl

/-- Parity looks at the low byte. -/
theorem parity_congr {v w : Word} (h : v.setWidth 8 = w.setWidth 8) : parity v = parity w := by
  have hbit : ∀ k ∈ List.range 8, v.getLsbD k = w.getLsbD k := by
    intro k hk
    have hk8 : k < 8 := List.mem_range.mp hk
    have := congrArg (fun b => BitVec.getLsbD b k) h
    simpa [BitVec.getLsbD_setWidth, hk8] using this
  unfold parity
  rw [List.countP_congr fun k hk => by rw [hbit k hk]]

/-! ## Operands in a word -/

theorem setWidth_add_of_le {v w : ℕ} (hw : w ≤ v) (x y : BitVec v) :
    (x + y).setWidth w = x.setWidth w + y.setWidth w := by
  apply BitVec.eq_of_toNat_eq
  rw [BitVec.toNat_setWidth, BitVec.toNat_add, BitVec.toNat_add, BitVec.toNat_setWidth, BitVec.toNat_setWidth,
    Nat.mod_mod_of_dvd _ (pow_dvd_pow 2 hw), ← Nat.add_mod]

theorem setWidth_sub_of_le {v w : ℕ} (hw : w ≤ v) (x y : BitVec v) :
    (x - y).setWidth w = x.setWidth w - y.setWidth w := by
  rw [eq_sub_iff_add_eq, ← setWidth_add_of_le hw, BitVec.sub_add_cancel]

/-- A narrow operand in a word and back. -/
theorem setWidth_wide {w : ℕ} (hw : w ≤ 32) (a : BitVec w) : (a.setWidth 32).setWidth w = a := by
  rw [BitVec.setWidth_setWidth_of_le a hw, BitVec.setWidth_eq]

theorem wide_lt {w : ℕ} (hw : w ≤ 32) (a b : BitVec w) :
    a.setWidth 32 < b.setWidth 32 ↔ a < b := by
  rw [BitVec.lt_def, BitVec.lt_def, BitVec.toNat_setWidth_of_le hw, BitVec.toNat_setWidth_of_le hw]

theorem wide_eq_zero {w : ℕ} (hw : w ≤ 32) (a : BitVec w) : a.setWidth 32 = 0 ↔ a = 0 := by
  refine ⟨fun h => ?_, fun h => by rw [h]; exact BitVec.setWidth_zero 32 w⟩
  rw [← setWidth_wide hw a, h]
  exact BitVec.setWidth_zero w 32

/-- The sign bit of a narrow operand in a word. -/
theorem wide_sign {w : ℕ} (h0 : 0 < w) (hw : w ≤ 32) (a : BitVec w) :
    a.setWidth 32 &&& BitVec.twoPow 32 (w - 1) ≠ 0 ↔ a.msb = true := by
  rw [and_bit_ne_zero _ (by omega) rfl, BitVec.getLsbD_setWidth, ← BitVec.msb_eq_getLsbD_last]
  simp only [show w - 1 < 32 by omega, decide_true, Bool.true_and]

/-! ## Sequences of operations -/

/-- An operation that sets status flags, with its operands or its result. -/
inductive Arithmetic
  | sub {w : ℕ} (a b : BitVec w)
  | add {w : ℕ} (a b : BitVec w)
  | logic (result : Word)

namespace Arithmetic

/-- The flags an operation sets. -/
def flags : Arithmetic → Flags
  | .sub a b => subtractFlags a b
  | .add a b => addFlags a b
  | .logic result => logicFlags result

/-- Whether an operation defines AF. -/
def definesAf : Arithmetic → Bool
  | .logic _ => false
  | _ => true

/-- EFLAGS behind an operation: its flags are set, AF is anything where it is undefined, and
nothing else changes. -/
def Sets (op : Arithmetic) (old new : Word) : Prop :=
  ∃ af : Bool, (op.definesAf = true → af = op.flags.af) ∧ new = withStatus old { op.flags with af := af }

/-- EFLAGS behind operations one after the other. -/
def Leaves : List Arithmetic → Word → Word → Prop
  | [], old, new => new = old
  | op :: ops, old, new => ∃ mid, op.Sets old mid ∧ Leaves ops mid new

theorem sets_withStatus (op : Arithmetic) (old : Word) : op.Sets old (withStatus old op.flags) :=
  ⟨op.flags.af, fun _ => rfl, rfl⟩

theorem leaves_singleton {op : Arithmetic} {old new : Word} : Leaves [op] old new ↔ op.Sets old new := by
  refine ⟨fun ⟨mid, hset, hnew⟩ => ?_, fun h => ⟨new, h, rfl⟩⟩
  rwa [show new = mid from hnew]

theorem leaves_append {ops ops' : List Arithmetic} {old mid new : Word} (h : Leaves ops old mid)
    (h' : Leaves ops' mid new) : Leaves (ops ++ ops') old new := by
  induction ops generalizing old with
  | nil =>
    rw [show mid = old from h] at h'
    exact h'
  | cons op ops ih =>
    obtain ⟨first, hset, hrest⟩ := h
    exact ⟨first, hset, ih hrest⟩

/-- An operation that defines every flag. -/
theorem sets_iff_of_definesAf {op : Arithmetic} {old : Word} {f : Flags} (h : op.definesAf = true) :
    op.Sets old (withStatus old f) ↔ f = op.flags := by
  refine ⟨fun ⟨af, haf, hnew⟩ => ?_, fun hf => ?_⟩
  · rw [withStatus_inj.mp hnew, haf h]
  · rw [hf]
    exact op.sets_withStatus old

/-- An operation that leaves AF undefined. -/
theorem sets_logic_iff {result old : Word} {f : Flags} :
    (logic result).Sets old (withStatus old f) ↔ { f with af := false } = logicFlags result := by
  refine ⟨fun ⟨af, _, hnew⟩ => ?_, fun hf => ⟨f.af, fun h => (Bool.false_ne_true h).elim, ?_⟩⟩
  · rw [withStatus_inj.mp hnew]
    rfl
  · rw [show (logic result).flags = logicFlags result from rfl, ← hf]

end Arithmetic

end Repiu.X86
