import Repiu.X86.CodeRuns
import Repiu.Runtime.Planner
import Repiu.Runtime.Emit
import Repiu.X86.Rows

/-!
# What an indirect guard compares

The operand of the first compare of an indirect branch slot, which runs behind the slot's
`pushfd`, against the operand of the guest's branch.
-/

namespace Repiu.Runtime

open Repiu.X86

/-! ## The re-encoded operand -/

/-- A place that a `pushfd` has moved to another: the operand is the same register, or the same
address once ESP is four lower. -/
def Lowered : Place → Place → Prop
  | .register r, .register r' => r = r'
  | .memory modrm sib disp, .memory modrm' sib' disp' => ∀ registers : Registers,
    effectiveAddress (Function.update registers 4 (registers 4 - 4)) modrm' sib' disp' =
      effectiveAddress registers modrm sib disp
  | _, _ => False

/-- The ModRM byte of the compare: opcode extension 7 and the operand of the branch. -/
theorem compareModrm_fields : ∀ modrm : Byte,
    modField (modrm &&& 0xC7 ||| 0x38) = modField modrm ∧ regField (modrm &&& 0xC7 ||| 0x38) = 7 ∧
      rmField (modrm &&& 0xC7 ||| 0x38) = rmField modrm := by
  decide +kernel

/-- A ModRM byte with another `mod`. -/
theorem withMod_fields : ∀ modrm : Byte,
    (modField (modrm &&& 0x3F ||| 0x40) = 1 ∧ regField (modrm &&& 0x3F ||| 0x40) = regField modrm ∧
      rmField (modrm &&& 0x3F ||| 0x40) = rmField modrm) ∧
    (modField (modrm &&& 0x3F ||| 0x80) = 2 ∧ regField (modrm &&& 0x3F ||| 0x80) = regField modrm ∧
      rmField (modrm &&& 0x3F ||| 0x80) = rmField modrm) := by
  decide +kernel

theorem and_seven : ∀ b : Byte, (b &&& 0x07 = 5 ↔ rmField b = 5) ∧ (b &&& 0x07 = 4 ↔ rmField b = 4) := by
  decide +kernel

theorem dispSize_congr {modrm modrm' : Byte} (hmod : modField modrm' = modField modrm)
    (hrm : rmField modrm' = rmField modrm) (width : ℕ) (sib : Byte) :
    dispSize width modrm' sib = dispSize width modrm sib := by
  unfold dispSize hasSib
  rw [hmod, hrm]

theorem dispSize_le (width : ℕ) (modrm sib : Byte) : dispSize width modrm sib ≤ 4 := by
  unfold dispSize
  split_ifs <;> (try split) <;> omega

/-- The address of an operand depends on the fields of its ModRM byte. -/
theorem effectiveAddress_congr {modrm modrm' : Byte} (hmod : modField modrm' = modField modrm)
    (hrm : rmField modrm' = rmField modrm) (registers : Registers) (sib : Byte) (disp : List Byte) :
    effectiveAddress registers modrm' sib disp = effectiveAddress registers modrm sib disp := by
  simp only [effectiveAddress, baseIndex, hmod, hrm]

/-- Three bits other than 4 are not ESP. -/
theorem fieldRegister_ne_esp {n : ℕ} (hn : n < 8) (h : n ≠ 4) : fieldRegister n ≠ 4 := by
  intro heq
  have hval := congrArg Fin.val heq
  simp only [fieldRegister, Fin.val_ofNat] at hval
  have : ((4 : Fin 8) : ℕ) = 4 := rfl
  omega

theorem field_lt (b : Byte) : regField b < 8 ∧ rmField b < 8 := by
  unfold regField rmField
  omega

section
variable {modrm sib : Byte} (registers : Registers)

/-- A base and an index other than ESP add up to the same. -/
theorem sibBaseIndex_lowered (md : ℕ) (hbase : rmField sib ≠ 4) (v : Word) :
    sibBaseIndex (Function.update registers 4 v) md sib = sibBaseIndex registers md sib := by
  have hb := fieldRegister_ne_esp (field_lt sib).2 hbase
  unfold sibBaseIndex
  by_cases hindex : regField sib = 4
  · simp only [hindex, if_true, Function.update_of_ne hb]
  · have hi := fieldRegister_ne_esp (field_lt sib).1 hindex
    simp only [hindex, if_false, Function.update_of_ne hb, Function.update_of_ne hi]

/-- An ESP base is lower by what is pushed. -/
theorem sibBaseIndex_esp (pushed : Word) (md md' : ℕ) (hbase : rmField sib = 4) :
    sibBaseIndex (Function.update registers 4 (registers 4 - pushed)) md' sib =
      sibBaseIndex registers md sib - pushed := by
  have hb : fieldRegister (rmField sib) = 4 := by rw [hbase]; rfl
  have hnone : ∀ n : ℕ, ¬(n = 0 ∧ rmField sib = 5) := by omega
  unfold sibBaseIndex
  rw [if_neg (hnone _), if_neg (hnone _), hb, Function.update_self]
  by_cases hindex : regField sib = 4
  · rw [if_pos hindex, if_pos hindex]
    ring
  · rw [if_neg hindex, if_neg hindex, Function.update_of_ne (fieldRegister_ne_esp (field_lt sib).1 hindex)]
    ring

/-- An operand whose base is not ESP keeps its address. -/
theorem effectiveAddress_lowered (disp : List Byte) (v : Word)
    (hbase : rmField modrm = 4 → rmField sib ≠ 4) :
    effectiveAddress (Function.update registers 4 v) modrm sib disp = effectiveAddress registers modrm sib disp := by
  unfold effectiveAddress baseIndex
  by_cases hrm : rmField modrm = 4
  · rw [if_pos hrm, if_pos hrm, sibBaseIndex_lowered registers _ (hbase hrm)]
  · have hr := fieldRegister_ne_esp (field_lt modrm).2 hrm
    rw [if_neg hrm, if_neg hrm, Function.update_of_ne hr]

/-- An ESP-based operand keeps its address with a displacement that is higher by what is pushed. -/
theorem effectiveAddress_esp {pushed : Word} {modrm' : Byte} {disp disp' : List Byte} (hrm : rmField modrm = 4)
    (hrm' : rmField modrm' = 4) (hbase : rmField sib = 4) (hdisp : dispValue disp' = dispValue disp + pushed) :
    effectiveAddress (Function.update registers 4 (registers 4 - pushed)) modrm' sib disp' =
      effectiveAddress registers modrm sib disp := by
  unfold effectiveAddress baseIndex
  rw [if_pos hrm, if_pos hrm', sibBaseIndex_esp registers _ _ _ hbase, hdisp]
  ring

end

/-- What the compare of a slot is: an operand that a `pushfd` moves the operand of the branch to. -/
structure ComparesOperand (modrm : Byte) (rest compare : List Byte) (place place' : Place) : Prop where
  branch : ReadsPlace (modrm :: rest) place (regField modrm)
  compare : ∃ operand, compare = 0x81 :: operand ∧ operand.length ≤ 6 ∧ ReadsPlace operand place' 7
  lowered : Lowered place place'

/-- A compare of a register. -/
theorem comparesOperand_register {modrm : Byte} (hmod : modField modrm = 3) :
    ComparesOperand modrm [] [0x81, modrm &&& 0xC7 ||| 0x38] (.register (fieldRegister (rmField modrm)))
      (.register (fieldRegister (rmField modrm))) := by
  obtain ⟨hmod', hreg', hrm'⟩ := compareModrm_fields modrm
  refine ⟨readsPlace_register hmod, ⟨[modrm &&& 0xC7 ||| 0x38], rfl, by simp, ?_⟩, rfl⟩
  have hreads := readsPlace_register (hmod'.trans hmod)
  rwa [hreg', hrm'] at hreads

/-- A compare of an operand whose base is not ESP. -/
theorem comparesOperand_kept {modrm sib : Byte} {disp rest : List Byte}
    (hplace : ∀ m, modField m = modField modrm → rmField m = rmField modrm →
      ReadsPlace (m :: rest) (.memory m sib disp) (regField m))
    (hshort : rest.length ≤ 5) (hbase : rmField modrm = 4 → rmField sib ≠ 4) :
    ComparesOperand modrm rest (0x81 :: (modrm &&& 0xC7 ||| 0x38) :: rest) (.memory modrm sib disp)
      (.memory (modrm &&& 0xC7 ||| 0x38) sib disp) := by
  obtain ⟨hmod', hreg', hrm'⟩ := compareModrm_fields modrm
  have hreads := hplace _ hmod' hrm'
  rw [hreg'] at hreads
  refine ⟨hplace modrm rfl rfl, ⟨_, rfl, Nat.succ_le_succ hshort, hreads⟩, fun registers => ?_⟩
  rw [effectiveAddress_congr hmod' hrm']
  exact effectiveAddress_lowered registers disp _ hbase

/-- A compare of an operand without a SIB byte. -/
theorem comparesOperand_plain {modrm : Byte} {disp : List Byte} (hmod : modField modrm ≠ 3)
    (hrm : rmField modrm ≠ 4) (hdisp : disp.length = dispSize 32 modrm 0) :
    ComparesOperand modrm disp (0x81 :: (modrm &&& 0xC7 ||| 0x38) :: disp) (.memory modrm 0 disp)
      (.memory (modrm &&& 0xC7 ||| 0x38) 0 disp) := by
  have hsize := dispSize_le 32 modrm 0
  refine comparesOperand_kept (fun m hm hr => ?_) (by omega) fun h => absurd h hrm
  exact readsPlace_memory (hm ▸ hmod) (hr ▸ hrm) (hdisp.trans (dispSize_congr hm hr 32 0).symm)

/-- A compare of an ESP-based operand: its displacement is four higher. -/
theorem comparesOperand_esp {modrm modrm' sib : Byte} {disp disp' : List Byte} (hmod : modField modrm ≠ 3)
    (hrm : rmField modrm = 4) (hbase : rmField sib = 4) (hdisp : disp.length = dispSize 32 modrm sib)
    (hmod' : modField modrm' ≠ 3) (hreg' : regField modrm' = 7) (hrm' : rmField modrm' = 4)
    (hdisp' : disp'.length = dispSize 32 modrm' sib) (hshort : disp'.length ≤ 4)
    (hvalue : dispValue disp' = dispValue disp + 4) :
    ComparesOperand modrm (sib :: disp) (0x81 :: modrm' :: sib :: disp') (.memory modrm sib disp)
      (.memory modrm' sib disp') := by
  have hreads := readsPlace_sib hmod' hrm' hdisp'
  rw [hreg'] at hreads
  refine ⟨readsPlace_sib hmod hrm hdisp, ⟨_, rfl, ?_, hreads⟩, fun registers => ?_⟩
  · rw [List.length_cons, List.length_cons]
    omega
  · exact effectiveAddress_esp registers hrm hrm' hbase hvalue

/-- A byte that stays a byte when four is added. -/
theorem signExtend_add_four : ∀ d : Byte, ¬d.toInt + 4 > 127 → (d + 4).signExtend 32 = d.signExtend 32 + 4 := by
  decide +kernel

theorem dispValue_readWord {disp : List Byte} (h : disp.length = 4) : dispValue disp = readWord disp 0 := by
  match disp, h with
  | [b0, b1, b2, b3], _ => rfl

theorem modField_lt (b : Byte) : modField b < 4 := by
  unfold modField
  omega

/-- The displacement size of the slot is that of the decoder. -/
theorem displacementSize_eq (modrm sib : Byte) :
    (if modField modrm = 1 then 1
      else if modField modrm = 2 ∨ (modField modrm = 0 ∧ (rmField modrm = 5 ∨
        ((modField modrm ≠ 3 ∧ rmField modrm = 4) ∧ sib &&& 0x07 = 5))) then 4 else 0) =
      dispSize 32 modrm sib := by
  have hmod := modField_lt modrm
  have hbase := (and_seven sib).1
  unfold dispSize hasSib
  simp only [hbase]
  generalize modField modrm = md at hmod ⊢
  interval_cases md <;> grind

/-- The compare of an operand with a SIB byte. -/
theorem indirectCompare_sib {modrm : Byte} (hmod : modField modrm ≠ 3) (hrm : rmField modrm = 4) (sib : Byte)
    (disp : List Byte) :
    indirectCompare modrm (sib :: disp) =
      if disp.length ≠ dispSize 32 modrm sib then none
      else if rmField sib = 4 ∧ modField modrm = 0 then
        some [0x81, (modrm &&& 0xC7 ||| 0x38) &&& 0x3F ||| 0x40, sib, 4]
      else if rmField sib = 4 ∧ modField modrm = 1 then
        if (disp.getD 0 0).toInt + 4 > 127 then
          some (0x81 :: ((modrm &&& 0xC7 ||| 0x38) &&& 0x3F ||| 0x80) :: sib ::
            le32 ((disp.getD 0 0).signExtend 32 + 4))
        else some [0x81, modrm &&& 0xC7 ||| 0x38, sib, disp.getD 0 0 + 4]
      else if rmField sib = 4 ∧ modField modrm = 2 then
        some (0x81 :: (modrm &&& 0xC7 ||| 0x38) :: sib :: le32 (readWord disp 0 + 4))
      else some (0x81 :: (modrm &&& 0xC7 ||| 0x38) :: sib :: disp) := by
  have hbase := (and_seven sib).2
  have hsize := displacementSize_eq modrm sib
  unfold indirectCompare
  simp only [hmod, hrm, hbase, ne_eq, not_false_eq_true, and_self, true_and, if_true, List.headD_cons,
    List.tail_cons, reduceCtorEq, if_false, List.cons_append, List.nil_append] at hsize ⊢
  rw [hsize]

/-- The compare of an operand without one. -/
theorem indirectCompare_plain {modrm : Byte} (h : ¬(modField modrm ≠ 3 ∧ rmField modrm = 4)) (disp : List Byte) :
    indirectCompare modrm disp =
      if disp.length ≠ dispSize 32 modrm 0 then none
      else some (0x81 :: (modrm &&& 0xC7 ||| 0x38) :: disp) := by
  have hsize := displacementSize_eq modrm 0
  unfold indirectCompare
  simp only [h, false_and, if_false, or_false, List.cons_append, List.nil_append] at hsize ⊢
  rw [hsize]

theorem dispSize_sib {modrm sib : Byte} (hbase : rmField sib ≠ 5) :
    dispSize 32 modrm sib = match modField modrm with
      | 0 => if rmField modrm = 5 then 4 else 0
      | 1 => 1
      | 2 => 4
      | _ => 0 := by
  unfold dispSize
  exact (if_neg (by decide)).trans (if_neg fun h => hbase h.2)

/-- The three ESP-based forms. -/
theorem indirectCompare_esp {modrm sib : Byte} {disp compare : List Byte} (hmod : modField modrm ≠ 3)
    (hrm : rmField modrm = 4) (hbase : rmField sib = 4) (hdisp : disp.length = dispSize 32 modrm sib)
    (h : indirectCompare modrm (sib :: disp) = some compare) :
    ∃ place place', ComparesOperand modrm (sib :: disp) compare place place' := by
  obtain ⟨hmod', hreg', hrm'⟩ := compareModrm_fields modrm
  obtain ⟨⟨hmod1, hreg1, hrm1⟩, hmod2, hreg2, hrm2⟩ := withMod_fields (modrm &&& 0xC7 ||| 0x38)
  have hsize : ∀ m, dispSize 32 m sib = _ := fun m => @dispSize_sib m sib (by omega)
  rw [indirectCompare_sib hmod hrm, if_neg (not_not.mpr hdisp)] at h
  have hmodlt := modField_lt modrm
  have hmod012 : modField modrm = 0 ∨ modField modrm = 1 ∨ modField modrm = 2 := by omega
  rcases hmod012 with hm | hm | hm
  · -- without a displacement: it gets the byte 4
    have hnil : disp = [] := by
      rw [hsize, hm, hrm] at hdisp
      exact List.length_eq_zero_iff.mp hdisp
    subst hnil
    simp only [hbase, hm, and_self, if_true, Option.some.injEq] at h
    subst h
    refine ⟨_, _, comparesOperand_esp hmod hrm hbase hdisp (by omega) (hreg1.trans hreg')
      (hrm1.trans (hrm'.trans hrm)) ?_ (by decide) rfl⟩
    rw [hsize, hmod1]
    rfl
  · obtain ⟨d, rfl⟩ : ∃ d, disp = [d] := by
      rw [hsize, hm] at hdisp
      exact List.length_eq_one_iff.mp hdisp
    simp only [hbase, hm, one_ne_zero, and_false, and_self, if_true, if_false, List.getD_cons_zero] at h
    by_cases hwide : d.toInt + 4 > 127
    · -- the byte overflows and is widened
      rw [if_pos hwide, Option.some.injEq] at h
      subst h
      refine ⟨_, _, comparesOperand_esp hmod hrm hbase hdisp (by omega) (hreg2.trans hreg')
        (hrm2.trans (hrm'.trans hrm)) ?_ (le_refl 4) (dispValue_le32 _)⟩
      rw [hsize, hmod2]
      rfl
    · rw [if_neg hwide, Option.some.injEq] at h
      subst h
      refine ⟨_, _, comparesOperand_esp hmod hrm hbase hdisp (by omega) hreg' (hrm'.trans hrm) ?_ (show 1 ≤ 4 by decide)
        (signExtend_add_four d hwide)⟩
      rw [hsize, hmod', hm]
      rfl
  · have hfour : disp.length = 4 := by
      rw [hdisp, hsize, hm]
      rfl
    simp only [hbase, hm, OfNat.ofNat_ne_zero, OfNat.ofNat_ne_one, and_false, and_self, if_true, if_false,
      Option.some.injEq] at h
    subst h
    refine ⟨_, _, comparesOperand_esp hmod hrm hbase hdisp (by omega) hreg' (hrm'.trans hrm) ?_ (le_refl 4) ?_⟩
    · rw [hsize, hmod', hm]
      rfl
    · rw [dispValue_le32, dispValue_readWord hfour]

/-- The compare of a slot reads the operand of the branch where the `pushfd` has moved it. -/
theorem indirectCompare_operand {modrm : Byte} {rest compare : List Byte}
    (h : indirectCompare modrm rest = some compare) :
    ∃ place place', ComparesOperand modrm rest compare place place' := by
  by_cases hsib : modField modrm ≠ 3 ∧ rmField modrm = 4
  · obtain ⟨hmod, hrm⟩ := hsib
    cases rest with
    | nil => simp [indirectCompare, hmod, hrm] at h
    | cons sib disp =>
      by_cases hdisp : disp.length = dispSize 32 modrm sib
      case neg =>
        rw [indirectCompare_sib hmod hrm, if_pos hdisp] at h
        cases h
      by_cases hbase : rmField sib = 4
      · exact indirectCompare_esp hmod hrm hbase hdisp h
      · rw [indirectCompare_sib hmod hrm, if_neg (not_not.mpr hdisp)] at h
        simp only [hbase, false_and, if_false, Option.some.injEq] at h
        subst h
        have hsize := dispSize_le 32 modrm sib
        have hshort : (sib :: disp).length ≤ 5 := Nat.succ_le_succ (hdisp.trans_le hsize)
        refine ⟨_, _, @comparesOperand_kept modrm sib disp _ (fun m hm hr => ?_) hshort fun _ => hbase⟩
        exact readsPlace_sib (hm ▸ hmod) (hr.trans hrm) (hdisp.trans (dispSize_congr hm hr 32 sib).symm)
  · by_cases hdisp : rest.length = dispSize 32 modrm 0
    case neg =>
      rw [indirectCompare_plain hsib, if_pos hdisp] at h
      cases h
    rw [indirectCompare_plain hsib, if_neg (not_not.mpr hdisp), Option.some.injEq] at h
    subst h
    by_cases hmod : modField modrm = 3
    · have hnil : rest = [] := by
        rw [@dispSize_sib modrm 0 (by decide), hmod] at hdisp
        exact List.length_eq_zero_iff.mp hdisp
      subst hnil
      exact ⟨_, _, comparesOperand_register hmod⟩
    · exact ⟨_, _, comparesOperand_plain hmod (fun hrm => hsib ⟨hmod, hrm⟩) hdisp⟩

/-! ## The compared value -/

/-- The value that a compare with an immediate at EIP reads. -/
def comparedValue (code : DataMemory) (s : CodeState) : Option Word :=
  match decodeCode (CodeState.fetch code s.eip) with
  | some (.cmpImm place _, _) => some (s.read place)
  | _ => none

/-- The value that the first guard of a slot compares, behind the first instruction of the slot. -/
def firstCompared (code : DataMemory) (s : CodeState) : Option Word := (s.step code).bind (comparedValue code)

/-- The code of a slot is at an address, up to the immediate of its first guard, which the cache
learns. -/
def FirstGuardAt (f : Fragment) (code : DataMemory) (eip : Word) : Prop :=
  ∀ site ∈ f.indirectInlineCacheSites, CodeAt code eip (f.bytes.take site.targetImmediateOffset)

/-- An accepted branch, and its slot up to the first immediate. -/
theorem emitIndirectInlineCacheSlot_eq {record : AotInstructionRecord} {entryCount : ℕ} {f : Fragment}
    (h : emitIndirectInlineCacheSlot record entryCount = some f) :
    ∃ modrm rest compare site, record.bytes = 0xFF :: modrm :: rest ∧ (regField modrm = 2 ∨ regField modrm = 4) ∧
      indirectCompare modrm rest = some compare ∧ site ∈ f.indirectInlineCacheSites ∧
        f.bytes.take site.targetImmediateOffset = 0x9C :: compare := by
  unfold emitIndirectInlineCacheSlot at h
  split at h
  swap
  · contradiction
  rename_i modrm rest hbytes
  simp only at h
  split_ifs at h with hguard
  simp only [not_or, not_and_or, not_not] at hguard
  cases hcompare : indirectCompare modrm rest with
  | none => simp [hcompare] at h
  | some compare =>
    simp only [hcompare, Option.some.injEq] at h
    subst h
    refine ⟨modrm, rest, compare, _, hbytes, hguard.2.2, hcompare, List.mem_singleton_self _, ?_⟩
    obtain ⟨count, rfl⟩ := Nat.exists_eq_succ_of_ne_zero hguard.1
    have hoffset : ∀ tailLength : ℕ, (inlineCacheEntryAt compare.length tailLength 0).targetImmediateOffset =
        (0x9C :: compare).length := fun _ => by simp [inlineCacheEntryAt, Nat.add_comm]
    simp only [inlineCacheSite, hoffset, inlineCacheChain, List.range_succ_eq_map, List.flatMap_cons,
      inlineCacheEntryBytes, List.append_assoc, ← List.cons_append]
    rw [List.take_left]

/-- The first guard compares a place to which the `pushfd` has moved the branch's operand. -/
theorem firstCompared_eq {modrm : Byte} {rest compare : List Byte} {place place' : Place}
    (h : ComparesOperand modrm rest compare place place') {code : DataMemory} {s : CodeState}
    (hcode : CodeAt code s.eip (0x9C :: compare)) :
    firstCompared code s = some ((s.execute (s.eip + 1) .pushfd).read place') := by
  obtain ⟨operand, rfl, hlength, hplace⟩ := h.compare
  have hpush : EncodesInsn [0x9C] .pushfd := ⟨by decide, fun _ => rfl⟩
  have hstep : s.step code = some (s.execute (s.eip + 1) .pushfd) :=
    CodeState.step_of_codeAt (@CodeAt.left _ _ [0x9C] _ hcode) hpush
  have hnext : CodeAt code (s.execute (s.eip + 1) .pushfd).eip (0x81 :: operand) := @CodeAt.right _ _ [0x9C] _ hcode
  have hmax : (0x81 :: operand).length ≤ maxInstructionLength := by
    rw [List.length_cons, maxInstructionLength]
    omega
  obtain ⟨tail, htail⟩ := fetch_of_codeAt hnext hmax
  have hfour : 4 ≤ tail.length := by
    have hfetch := length_fetch code (s.execute (s.eip + 1) .pushfd).eip
    rw [htail, List.length_append, List.length_cons, maxInstructionLength] at hfetch
    omega
  obtain ⟨value, hvalue⟩ := decodeCode_cmpImm hplace hfour
  rw [firstCompared, hstep, Option.bind_some, comparedValue, htail, List.cons_append, hvalue]

/-! ## The branch target -/

/-- The place that holds the target of an indirect branch of 32-bit code. -/
def targetPlace (bytes : List Byte) : Option Place :=
  match decodeCode bytes with
  | some (.call place, _) | some (.jmp place, _) => some place
  | _ => none

/-- The bases of the segments that 16-bit code runs with. -/
structure SegmentBases where
  code : Word
  data : Word
  stack : Word

/-- The target of an indirect branch of 16-bit code: an offset of 16 bits in the code segment. -/
def branchTarget16 (bases : SegmentBases) (bytes : List Byte) (s : CodeState) : Option Word :=
  match bytes with
  | 0xFF :: modrm :: disp =>
    if disp.length ≠ dispSize 16 modrm 0 ∨ (regField modrm ≠ 2 ∧ regField modrm ≠ 4) then none
    else if modField modrm = 3 then
      let offset : BitVec 16 := (s.registers (fieldRegister (rmField modrm))).setWidth 16
      some (bases.code + offset.setWidth 32)
    else
      let a := (if stackBased16 modrm then bases.stack else bases.data) +
        (effectiveAddress16 s.registers modrm disp).setWidth 32
      some (bases.code + (s.memory (a + 1) ++ s.memory a).setWidth 32)
  | _ => none

theorem branchTarget16_eq (bases : SegmentBases) (modrm : Byte) (disp : List Byte) (s : CodeState) :
    branchTarget16 bases (0xFF :: modrm :: disp) s =
      if disp.length ≠ dispSize 16 modrm 0 ∨ (regField modrm ≠ 2 ∧ regField modrm ≠ 4) then none
      else if modField modrm = 3 then
        some (bases.code + ((s.registers (fieldRegister (rmField modrm))).setWidth 16).setWidth 32)
      else
        let a := (if stackBased16 modrm then bases.stack else bases.data) +
          (effectiveAddress16 s.registers modrm disp).setWidth 32
        some (bases.code + (s.memory (a + 1) ++ s.memory a).setWidth 32) :=
  rfl

/-- The address that the guest's branch goes to. -/
def branchTarget (size : GuestCodeDefaultOperandSize) (bases : SegmentBases) (bytes : List Byte)
    (s : CodeState) : Option Word :=
  match size with
  | .k16 => branchTarget16 bases bytes s
  | _ => (targetPlace bytes).map s.read

/-- The word that `pushfd` pushes. -/
def pushedFlags (s : CodeState) : Word := s.eflags &&& 0x00FCFFFF

/-- The `pushfd` of a slot leaves an operand alone: it is not ESP, and where bytes of it lie in the
pushed word, the flags have the same bytes. -/
def OperandUntouched (s : CodeState) : Place → Prop
  | .register r => r ≠ 4
  | .memory modrm sib disp => ∀ k < 4,
    let a := effectiveAddress s.registers modrm sib disp + BitVec.ofNat 32 k
    (a - (s.esp - 4)).toNat < 4 → s.memory a = (le32 (pushedFlags s)).getD (a - (s.esp - 4)).toNat 0

theorem getWord_eq_iff {m m' : DataMemory} {a : Word} :
    m'.getWord a = m.getWord a ↔ ∀ k < 4, m' (a + BitVec.ofNat 32 k) = m (a + BitVec.ofNat 32 k) := by
  have hzero : a + BitVec.ofNat 32 0 = a := by simp
  constructor
  · intro h
    have hbytes := congrArg le32 h
    simp only [DataMemory.getWord, le32_word32, List.cons.injEq, and_true] at hbytes
    obtain ⟨h0, h1, h2, h3⟩ := hbytes
    intro k hk
    interval_cases k
    · rwa [hzero]
    · exact h1
    · exact h2
    · exact h3
  · intro h
    have h0 := h 0 (by decide)
    rw [hzero] at h0
    unfold DataMemory.getWord
    rw [h0, show m' (a + 1) = m (a + 1) from h 1 (by decide), show m' (a + 2) = m (a + 2) from h 2 (by decide),
      show m' (a + 3) = m (a + 3) from h 3 (by decide)]

theorem lowered_read_iff {place place' : Place} (h : Lowered place place') (s : CodeState) (next : Word) :
    (s.execute next .pushfd).read place' = s.read place ↔ OperandUntouched s place := by
  match place, place', h with
  | .register r, .register _, rfl =>
    show Function.update s.registers 4 (s.esp - 4) r = s.registers r ↔ r ≠ 4
    by_cases hr : r = 4
    · subst hr
      have hlower : s.registers 4 - 4 ≠ s.registers 4 := by bv_omega
      rw [Function.update_self]
      exact iff_of_false hlower fun h => h rfl
    · rw [Function.update_of_ne hr]
      exact iff_of_true rfl hr
  | .memory modrm sib disp, .memory modrm' sib' disp', h =>
    show (s.memory.setWord (s.esp - 4) (pushedFlags s)).getWord
      (effectiveAddress (Function.update s.registers 4 (s.registers 4 - 4)) modrm' sib' disp') =
        s.memory.getWord (effectiveAddress s.registers modrm sib disp) ↔ _
    rw [h s.registers, getWord_eq_iff]
    refine forall₂_congr fun k _ => ?_
    unfold DataMemory.setWord
    split_ifs with hin
    · simp only [hin, forall_const, eq_comm]
    · simp only [hin, false_implies]

theorem targetPlace_eq {modrm : Byte} {rest compare : List Byte} {place place' : Place}
    (h : ComparesOperand modrm rest compare place place') (hreg : regField modrm = 2 ∨ regField modrm = 4) :
    targetPlace (0xFF :: modrm :: rest) = some place := by
  have hread := h.branch []
  rw [List.append_nil] at hread
  rw [targetPlace, decodeCode_modrm (by decide), hread, Option.bind_some]
  rcases hreg with hreg | hreg <;> rw [hreg] <;> rfl

/-! ## 16-bit code -/

/-- The 16-bit memory forms that the slot takes have neither a SIB byte nor a wide displacement. -/
theorem form16 {modrm : Byte} {rest compare : List Byte} (h : indirectCompare modrm rest = some compare)
    (hdisp : rest.length = dispSize 16 modrm 0) (hmod : modField modrm ≠ 3) :
    rmField modrm ≠ 4 ∧ rest.length = dispSize 32 modrm 0 ∧ rest.length ≤ 1 := by
  have hmodlt := modField_lt modrm
  have hmod012 : modField modrm = 0 ∨ modField modrm = 1 ∨ modField modrm = 2 := by omega
  have hrm : rmField modrm ≠ 4 := by
    intro hrm
    cases rest with
    | nil => simp [indirectCompare, hmod, hrm] at h
    | cons sib disp =>
      rw [indirectCompare_sib hmod hrm] at h
      have hsize : disp.length = dispSize 32 modrm sib := by
        by_contra hne
        rw [if_pos hne] at h
        cases h
      rcases hmod012 with hm | hm | hm <;>
        simp only [dispSize, hasSib, hm, hrm, List.length_cons] at hdisp hsize <;> grind
  have hsize : rest.length = dispSize 32 modrm 0 := by
    by_contra hne
    rw [indirectCompare_plain (fun hsib => hrm hsib.2), if_pos hne] at h
    cases h
  refine ⟨hrm, hsize, ?_⟩
  rw [hdisp, @dispSize_sib modrm 0 (by decide)] at hsize
  rw [hdisp]
  rcases hmod012 with hm | hm | hm <;> simp only [dispSize, hm] at hsize ⊢ <;> grind

/-- A machine with the same word in every register and the same byte all over its memory. -/
def uniformState (eip value : Word) (byte : Byte) : CodeState := ⟨eip, fun _ => value, 0, fun _ => byte⟩

/-- A register branch of 16-bit code uses half of what the slot compares. -/
theorem register_mismatch {modrm : Byte} (hmod : modField modrm = 3) {code : DataMemory} {eip : Word}
    (hcode : CodeAt code eip [0x9C, 0x81, modrm &&& 0xC7 ||| 0x38]) (bases : SegmentBases) :
    ¬∀ s : CodeState, s.eip = eip → firstCompared code s = branchTarget16 bases [0xFF, modrm] s := by
  intro hall
  have hcompares := comparesOperand_register hmod
  have hvalue : ∀ value : Word, firstCompared code (uniformState eip value 0) =
      some (if fieldRegister (rmField modrm) = 4 then value - 4 else value) := by
    intro value
    rw [firstCompared_eq hcompares hcode]
    show some (Function.update (fun _ => value) (4 : Fin 8) (value - 4) (fieldRegister (rmField modrm))) = _
    rw [Function.update_apply]
  -- the halves of 0 and of 10000h are the same
  have htarget : branchTarget16 bases [0xFF, modrm] (uniformState eip 0x10000 0) =
      branchTarget16 bases [0xFF, modrm] (uniformState eip 0 0) := by
    have hhalf : ((0x10000 : Word).setWidth 16).setWidth 32 = ((0 : Word).setWidth 16).setWidth 32 := by decide
    simp only [branchTarget16_eq, hmod, if_true, uniformState, hhalf]
  have h0 := hall (uniformState eip 0 0) rfl
  have h1 := hall (uniformState eip 0x10000 0) rfl
  rw [hvalue] at h0 h1
  have heq := h1.trans (htarget.trans h0.symm)
  split_ifs at heq <;> cases heq

/-- A machine whose stack is far from the addresses near 0. -/
def lowState (eip : Word) (byte : Byte) : CodeState :=
  ⟨eip, fun r => if r = 4 then 0x80000000 else 0, 0, fun _ => byte⟩

/-- A memory branch of 16-bit code uses half of what the slot compares. -/
theorem memory_mismatch {modrm : Byte} {rest : List Byte} (hmod : modField modrm ≠ 3) (hrm : rmField modrm ≠ 4)
    (hsize : rest.length = dispSize 32 modrm 0) (hshort : rest.length ≤ 1) {code : DataMemory} {eip : Word}
    (hcode : CodeAt code eip (0x9C :: 0x81 :: (modrm &&& 0xC7 ||| 0x38) :: rest)) (bases : SegmentBases) :
    ¬∀ s : CodeState, s.eip = eip → firstCompared code s = branchTarget16 bases (0xFF :: modrm :: rest) s := by
  intro hall
  have hcompares := comparesOperand_plain hmod hrm hsize
  have hvalue : ∀ byte : Byte, firstCompared code (lowState eip byte) = some (word32 byte byte byte byte) := by
    intro byte
    have hbase : baseIndex (lowState eip byte).registers modrm 0 = 0 := by
      have hr := fieldRegister_ne_esp (field_lt modrm).2 hrm
      unfold baseIndex
      rw [if_neg hrm]
      split_ifs
      · rfl
      · exact if_neg hr
    have haddress : effectiveAddress (lowState eip byte).registers modrm 0 rest = dispValue rest := by
      rw [effectiveAddress, hbase, zero_add]
    have hapart : Apart (0x80000000 - 4) 4 (dispValue rest) 4 := by
      rcases rest with _ | ⟨d, _ | ⟨d', tail⟩⟩
      · decide
      · have hbytes : ∀ d : Byte, Apart (0x80000000 - 4) 4 (d.signExtend 32) 4 := by decide +kernel
        exact hbytes d
      · simp at hshort
    rw [firstCompared_eq hcompares hcode]
    show some ((DataMemory.setWord (fun _ => byte) (0x80000000 - 4) _).getWord
      (effectiveAddress (Function.update (lowState eip byte).registers 4 ((lowState eip byte).registers 4 - 4))
        (modrm &&& 0xC7 ||| 0x38) 0 rest)) = _
    rw [hcompares.lowered, haddress, DataMemory.getWord_setWord_apart _ _ hapart]
    rfl
  have htarget : ∀ byte : Byte, branchTarget16 bases (0xFF :: modrm :: rest) (lowState eip byte) = none ∨
      branchTarget16 bases (0xFF :: modrm :: rest) (lowState eip byte) =
        some (bases.code + (byte ++ byte).setWidth 32) := by
    intro byte
    rw [branchTarget16_eq]
    by_cases hrefused : rest.length ≠ dispSize 16 modrm 0 ∨ (regField modrm ≠ 2 ∧ regField modrm ≠ 4)
    · exact Or.inl (if_pos hrefused)
    · refine Or.inr ?_
      rw [if_neg hrefused, if_neg hmod]
      rfl
  have h0 := hall (lowState eip 0) rfl
  have h1 := hall (lowState eip 1) rfl
  rw [hvalue] at h0 h1
  rcases htarget 0 with ht0 | ht0
  · rw [ht0] at h0
    cases h0
  rcases htarget 1 with ht1 | ht1
  · rw [ht1] at h1
    cases h1
  rw [ht0, Option.some.injEq] at h0
  rw [ht1, Option.some.injEq] at h1
  -- the two bytes differ by 01010101h in the compare and by 0101h in the target
  have hzero : word32 0 0 0 0 = 0 := by decide
  have hone : word32 1 1 1 1 = 0x01010101 := by decide
  have hhalf0 : ((0 : Byte) ++ (0 : Byte)).setWidth 32 = (0 : Word) := by decide
  have hhalf1 : ((1 : Byte) ++ (1 : Byte)).setWidth 32 = (0x0101 : Word) := by decide
  rw [hzero, hhalf0, add_zero] at h0
  rw [hone, hhalf1, ← h0] at h1
  exact absurd h1 (by decide)

/-! ## The slot of an indirect branch -/

/-- The condition under which the first guard compares the target of a 32-bit branch. -/
def TargetUntouched (bytes : List Byte) (s : CodeState) : Prop :=
  ∀ place, targetPlace bytes = some place → OperandUntouched s place

/-- The first guard of a 32-bit branch compares the real target in exactly the states in which the
`pushfd` leaves the operand alone; that of a 16-bit branch does not in every state. -/
theorem indirect_guard_compares {record : AotInstructionRecord} {entryCount : ℕ} {f : Fragment}
    (hemit : emitIndirectInlineCacheSlot record entryCount = some f) {code : DataMemory} {eip : Word}
    (hcode : FirstGuardAt f code eip) (bases : SegmentBases) :
    let compares (s : CodeState) : Prop :=
      firstCompared code s = branchTarget record.guestCodeDefaultOperandSize bases record.bytes s
    (record.guestCodeDefaultOperandSize ≠ .k16 →
      ∀ s : CodeState, s.eip = eip → (compares s ↔ TargetUntouched record.bytes s)) ∧
    (record.guestCodeDefaultOperandSize = .k16 → ¬∀ s : CodeState, s.eip = eip → compares s) := by
  obtain ⟨modrm, rest, compare, site, hbytes, hreg, hcompare, hsite, htake⟩ := emitIndirectInlineCacheSlot_eq hemit
  have hguard := hcode site hsite
  rw [htake] at hguard
  obtain ⟨place, place', hcompares⟩ := indirectCompare_operand hcompare
  have hplace : targetPlace record.bytes = some place := by
    rw [hbytes]
    exact targetPlace_eq hcompares hreg
  constructor
  · intro hsize s hs
    subst hs
    have htarget : branchTarget record.guestCodeDefaultOperandSize bases record.bytes s = some (s.read place) := by
      have hwide : ∀ size : GuestCodeDefaultOperandSize, size ≠ .k16 →
          branchTarget size bases record.bytes s = (targetPlace record.bytes).map s.read := by
        intro size h
        cases size with
        | k16 => exact absurd rfl h
        | _ => rfl
      rw [hwide _ hsize, hplace, Option.map_some]
    show firstCompared code s = _ ↔ _
    rw [htarget, firstCompared_eq hcompares hguard, Option.some.injEq, lowered_read_iff hcompares.lowered]
    unfold TargetUntouched
    rw [hplace]
    exact ⟨fun h p hp => Option.some.inj hp ▸ h, fun h => h place rfl⟩
  · intro hsize
    show ¬∀ s : CodeState, s.eip = eip → firstCompared code s = branchTarget _ bases record.bytes s
    rw [hsize, hbytes]
    show ¬∀ s : CodeState, s.eip = eip → firstCompared code s = branchTarget16 bases (0xFF :: modrm :: rest) s
    by_cases hform : rest.length = dispSize 16 modrm 0
    · by_cases hmod : modField modrm = 3
      · have hnil : rest = [] := by
          have hzero : dispSize 16 modrm 0 = 0 := by
            unfold dispSize
            rw [hmod]
            rfl
          exact List.length_eq_zero_iff.mp (hform.trans hzero)
        subst hnil
        have hsize32 : ([] : List Byte).length = dispSize 32 modrm 0 := by
          rw [@dispSize_sib modrm 0 (by decide), hmod]
          rfl
        rw [indirectCompare_plain (fun hsib => hsib.1 hmod), if_neg (not_not.mpr hsize32),
          Option.some.injEq] at hcompare
        subst hcompare
        exact register_mismatch hmod hguard bases
      · obtain ⟨hrm, hsize32, hshort⟩ := form16 hcompare hform hmod
        rw [indirectCompare_plain (fun hsib => hrm hsib.2), if_neg (not_not.mpr hsize32), Option.some.injEq] at hcompare
        subst hcompare
        exact memory_mismatch hmod hrm hsize32 hshort hguard bases
    · -- bytes that are no 16-bit branch have no target
      intro hall
      have hnone := hall (lowState eip 0) rfl
      rw [branchTarget16_eq, if_pos (Or.inl hform), firstCompared_eq hcompares hguard] at hnone
      cases hnone

/-- A guest of one jump through a register. -/
def jumpSource (modrm : Byte) : RelocatedRuntimeImage :=
  { valid := true
    objects :=
      [{ relocatedBaseAddress := 0x1000
         virtualSize := 24
         flags := 0
         bytes := [0xFF, modrm] ++ List.replicate 22 0 }]
    codeModeRanges := [] }

/-- The record of that jump. -/
def jumpRecord (modrm : Byte) : AotInstructionRecord :=
  { guestAddress := 0x1000
    kind := .kIndirectExit
    length := 2
    mnemonic := .jmp
    bytes := [0xFF, modrm] }

/-- Its slot, and code memory with the slot at 0. -/
def jumpSlot (modrm : Byte) : Fragment := (emitIndirectInlineCacheSlot (jumpRecord modrm) 4).getD {}

def jumpCode (modrm : Byte) : DataMemory := fun x => (jumpSlot modrm).bytes.getD x.toNat 0

/-- A machine at the slot with its stack at 8000h. -/
def jumpState : CodeState := ⟨0, fun r => if r = 4 then 0x8000 else 0x401000, 0x202, fun _ => 0⟩

instance (f : Fragment) (code : DataMemory) (eip : Word) : Decidable (FirstGuardAt f code eip) := by
  unfold FirstGuardAt CodeAt
  infer_instance

theorem indirect_guard_compares_jump :
    FirstGuardAt (jumpSlot 0xE0) (jumpCode 0xE0) 0 ∧
      (firstCompared (jumpCode 0xE0) jumpState = branchTarget .k32 ⟨0, 0, 0⟩ [0xFF, 0xE0] jumpState ↔
        TargetUntouched [0xFF, 0xE0] jumpState) := by
  have hcode : FirstGuardAt (jumpSlot 0xE0) (jumpCode 0xE0) 0 := by decide +kernel
  have hemit : emitIndirectInlineCacheSlot (jumpRecord 0xE0) 4 = some (jumpSlot 0xE0) := by decide +kernel
  exact ⟨hcode, (indirect_guard_compares hemit hcode ⟨0, 0, 0⟩).1 (by decide) jumpState rfl⟩

/-- The planner takes `jmp esp` for an indirect branch, and its guard compares ESP behind the push. -/
theorem jmp_esp_compares_pushed :
    ((buildAotTranslationPlanFromEntry sampleTable 8 (jumpSource 0xE4) 0x1000 []).any fun plan =>
      plan.records.any fun r => r.kind = .kIndirectExit ∧ r.bytes = [0xFF, 0xE4]) = true ∧
      FirstGuardAt (jumpSlot 0xE4) (jumpCode 0xE4) 0 ∧
        firstCompared (jumpCode 0xE4) jumpState = some 0x7FFC ∧
          branchTarget .k32 ⟨0, 0, 0⟩ [0xFF, 0xE4] jumpState = some 0x8000 := by
  refine ⟨by decide +kernel, by decide +kernel, by decide +kernel, by decide +kernel⟩

end Repiu.Runtime
