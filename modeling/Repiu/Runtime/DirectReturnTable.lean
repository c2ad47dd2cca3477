import Repiu.ByteMemory

/-!
# The direct-return table

The direct-mapped memo from guest return targets to cache targets: its operations, the
tables that they reach, and what a lookup finds there.
-/

namespace Repiu.Runtime

/-- `AotDirectReturnEntry`. -/
structure AotDirectReturnEntry where
  guestKey : Word := 0
  cacheTarget : Word := 0
deriving DecidableEq

/-- `AotDirectReturnTable`. -/
structure AotDirectReturnTable where
  entries : List AotDirectReturnEntry := []
  mask : Word := 0
  insertCount : ℕ := 0
  overwriteCount : ℕ := 0
  clearCount : ℕ := 0
  clearedEntryCount : ℕ := 0
  hitCount : Word := 0

/-- `kAotDirectReturnTableMinimumBits`. -/
def kAotDirectReturnTableMinimumBits : ℕ := 8

/-- `kAotDirectReturnTableMaximumBits`. -/
def kAotDirectReturnTableMaximumBits : ℕ := 18

/-- `AotDirectReturnTableIndex`. -/
def aotDirectReturnTableIndex (guestTarget mask : Word) : Word := (guestTarget ^^^ guestTarget >>> 13) &&& mask

/-- `ResetAotDirectReturnTable`; what the table held does not matter. -/
def resetAotDirectReturnTable (bits : ℕ) : AotDirectReturnTable :=
  let clamped := min (max bits kAotDirectReturnTableMinimumBits) kAotDirectReturnTableMaximumBits
  { entries := List.replicate (2 ^ clamped) {}
    mask := BitVec.ofNat 32 (2 ^ clamped - 1) }

/-- `InsertAotDirectReturnEntry`. -/
def insertAotDirectReturnEntry (table : AotDirectReturnTable) (guestTarget cacheTarget : Word) :
    AotDirectReturnTable × Bool :=
  if table.entries = [] ∨ guestTarget = 0 ∨ cacheTarget = 0 then (table, false)
  else
    let index := (aotDirectReturnTableIndex guestTarget table.mask).toNat
    match table.entries[index]? with
    | none => (table, false)
    | some entry =>
      let displaces := entry.guestKey ≠ 0 ∧ entry.guestKey ≠ guestTarget
      ({ table with
          entries := table.entries.set index ⟨guestTarget, cacheTarget⟩
          overwriteCount := table.overwriteCount + if displaces then 1 else 0
          insertCount := table.insertCount + 1 }, true)

/-- `LookupAotDirectReturnEntry`; `none` where it returns false. -/
def lookupAotDirectReturnEntry (table : AotDirectReturnTable) (guestTarget : Word) : Option Word :=
  if table.entries = [] ∨ guestTarget = 0 then none
  else
    match table.entries[(aotDirectReturnTableIndex guestTarget table.mask).toNat]? with
    | none => none
    | some entry => if entry.guestKey ≠ guestTarget then none else some entry.cacheTarget

/-- `ClearAotDirectReturnTable`. -/
def clearAotDirectReturnTable (table : AotDirectReturnTable) : AotDirectReturnTable :=
  if table.entries = [] then table
  else
    { table with
      clearCount := table.clearCount + 1
      clearedEntryCount := table.clearedEntryCount + table.entries.length
      entries := List.replicate table.entries.length {} }

namespace AotDirectReturnTable

/-- The tables of a session: a reset, then insertions and clears. -/
inductive Reachable : AotDirectReturnTable → Prop
  | reset (bits : ℕ) : Reachable (resetAotDirectReturnTable bits)
  | insert {table : AotDirectReturnTable} (guestTarget cacheTarget : Word) (h : Reachable table) :
      Reachable (insertAotDirectReturnEntry table guestTarget cacheTarget).1
  | clear {table : AotDirectReturnTable} (h : Reachable table) : Reachable (clearAotDirectReturnTable table)

/-- What every reached table has: as many entries as the mask can select, and nothing in the
slots that are marked empty. -/
structure WellFormed (table : AotDirectReturnTable) : Prop where
  length : ∃ bits, bits ≤ kAotDirectReturnTableMaximumBits ∧ table.entries.length = 2 ^ bits ∧
    table.mask = BitVec.ofNat 32 (2 ^ bits - 1)
  empty : ∀ entry ∈ table.entries, entry.guestKey = 0 → entry.cacheTarget = 0

theorem wellFormed_reset (bits : ℕ) : (resetAotDirectReturnTable bits).WellFormed where
  length := by
    refine ⟨_, min_le_right _ _, ?_, rfl⟩
    exact List.length_replicate
  empty := by
    intro entry hentry _
    rw [List.eq_of_mem_replicate hentry]

theorem WellFormed.insert {table : AotDirectReturnTable} (h : table.WellFormed) (guestTarget cacheTarget : Word) :
    (insertAotDirectReturnEntry table guestTarget cacheTarget).1.WellFormed := by
  unfold insertAotDirectReturnEntry
  by_cases hrefused : table.entries = [] ∨ guestTarget = 0 ∨ cacheTarget = 0
  · rw [if_pos hrefused]
    exact h
  rw [if_neg hrefused]
  push Not at hrefused
  dsimp only
  split
  · exact h
  · constructor
    · simpa only [List.length_set] using h.length
    · intro entry hentry hkey
      rcases List.mem_or_eq_of_mem_set hentry with hold | rfl
      · exact h.empty entry hold hkey
      · exact absurd hkey hrefused.2.1

theorem WellFormed.clear {table : AotDirectReturnTable} (h : table.WellFormed) :
    (clearAotDirectReturnTable table).WellFormed := by
  unfold clearAotDirectReturnTable
  by_cases hempty : table.entries = []
  · rw [if_pos hempty]
    exact h
  rw [if_neg hempty]
  constructor
  · simpa only [List.length_replicate] using h.length
  · intro entry hentry _
    rw [List.eq_of_mem_replicate hentry]

theorem Reachable.wellFormed {table : AotDirectReturnTable} (h : Reachable table) : table.WellFormed := by
  induction h with
  | reset bits => exact wellFormed_reset bits
  | insert guestTarget cacheTarget _ ih => exact ih.insert guestTarget cacheTarget
  | clear _ ih => exact ih.clear

/-- The slot of a guest target. -/
def slot (table : AotDirectReturnTable) (guestTarget : Word) : AotDirectReturnEntry :=
  table.entries.getD (aotDirectReturnTableIndex guestTarget table.mask).toNat {}

namespace WellFormed

variable {table : AotDirectReturnTable} (h : table.WellFormed)
include h

/-- The masked hash stays inside the table. -/
theorem index_lt (guestTarget : Word) :
    (aotDirectReturnTableIndex guestTarget table.mask).toNat < table.entries.length := by
  obtain ⟨bits, hbits, hlength, hmask⟩ := h.length
  have hpow : 2 ^ bits ≤ 2 ^ 18 := Nat.pow_le_pow_right (by decide) hbits
  have hpos : 0 < 2 ^ bits := Nat.two_pow_pos bits
  have hvalue : table.mask.toNat = 2 ^ bits - 1 := by
    rw [hmask, BitVec.toNat_ofNat, Nat.mod_eq_of_lt]
    omega
  have hle : (aotDirectReturnTableIndex guestTarget table.mask).toNat ≤ table.mask.toNat := by
    rw [aotDirectReturnTableIndex, BitVec.toNat_and]
    exact Nat.and_le_right
  omega

theorem slot_mem (guestTarget : Word) : table.slot guestTarget ∈ table.entries := by
  rw [slot, List.getD_eq_getElem _ _ (h.index_lt guestTarget)]
  exact List.getElem_mem _

/-- A lookup finds the target whose key is in its slot; target 0 is never found. -/
theorem lookup_eq (guestTarget : Word) :
    lookupAotDirectReturnEntry table guestTarget =
      if guestTarget ≠ 0 ∧ (table.slot guestTarget).guestKey = guestTarget then
        some (table.slot guestTarget).cacheTarget
      else none := by
  have hlt := h.index_lt guestTarget
  have hsome : table.entries ≠ [] := List.ne_nil_of_length_pos (by omega)
  unfold lookupAotDirectReturnEntry slot
  by_cases hzero : guestTarget = 0
  · rw [if_pos (Or.inr hzero), if_neg fun hc => hc.1 hzero]
  · rw [if_neg (by tauto), List.getElem?_eq_getElem hlt, List.getD_eq_getElem _ _ hlt]
    by_cases hkey : table.entries[(aotDirectReturnTableIndex guestTarget table.mask).toNat].guestKey = guestTarget
    · simp only [hkey, ne_eq, not_true_eq_false, if_false, hzero, not_false_eq_true, and_self, if_true]
    · simp only [hkey, ne_eq, not_false_eq_true, if_true, and_false, if_false]

end WellFormed

end AotDirectReturnTable

end Repiu.Runtime
