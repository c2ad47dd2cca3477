import Repiu.ByteMemory

/-!
# Moves in a cyclic memory

A move of a run of cells, and a run of moves of elements one behind the other, as maps of
addresses: a move leaves in each cell what was in the cell that its map gives.  Two moves are the
same on every memory exactly when their maps are.
-/

namespace Repiu

/-- The cell whose contents a move of `n` cells leaves in a cell; all are read before one is
written. -/
def moveMap (target source : Word) (n : ℕ) (x : Word) : Word :=
  if (x - target).toNat < n then source + (x - target) else x

/-- The same for moves of a number of elements of `w` cells, in ascending order. -/
def elementsMap (w : ℕ) : ℕ → Word → Word → Word → Word
  | 0, _, _, x => x
  | k + 1, target, source, x =>
    moveMap target source w
      (elementsMap w k (target + BitVec.ofNat 32 w) (source + BitVec.ofNat 32 w) x)

section Maps

variable {β : Type} {f f' : Word → Word}

/-- Maps that agree on every memory are the same. -/
theorem comp_eq_iff (a b : β) (hab : a ≠ b) : (∀ m : Word → β, m ∘ f = m ∘ f') ↔ f = f' := by
  refine ⟨fun h => ?_, fun h m => by rw [h]⟩
  funext x
  by_contra hne
  have hx := congrFun (h fun y => if y = f x then a else b) x
  simp only [Function.comp, if_true, if_neg (Ne.symm hne)] at hx
  exact hab hx

end Maps

/-! ## Offsets -/

section Offsets

variable {a x : Word} {i j : ℕ}

theorem toNat_offset (a : Word) (hi : i < 2 ^ 32) : (a + BitVec.ofNat 32 i - a).toNat = i := by
  rw [add_sub_cancel_left, BitVec.toNat_ofNat, Nat.mod_eq_of_lt hi]

theorem offset_add (a : Word) (i j : ℕ) : a + BitVec.ofNat 32 i + BitVec.ofNat 32 j = a + BitVec.ofNat 32 (i + j) := by
  rw [add_assoc, BitVec.ofNat_add]

/-- The distance from a later cell. -/
theorem toNat_sub_offset (h : i ≤ (x - a).toNat) : (x - (a + BitVec.ofNat 32 i)).toNat = (x - a).toNat - i := by
  have hi : (BitVec.ofNat 32 i).toNat = i := by
    have := (x - a).isLt
    rw [BitVec.toNat_ofNat, Nat.mod_eq_of_lt (by omega)]
  have hle : BitVec.ofNat 32 i ≤ x - a := by rw [BitVec.le_def, hi]; exact h
  rw [sub_add_eq_sub_sub, BitVec.toNat_sub_of_le hle, hi]

/-- The distance from a later cell goes around. -/
theorem toNat_before (a : Word) (h : i < j) (hj : j < 2 ^ 32) :
    (a + BitVec.ofNat 32 i - (a + BitVec.ofNat 32 j)).toNat = 2 ^ 32 - (j - i) := by
  rw [add_sub_add_left_eq_sub, BitVec.toNat_sub, BitVec.toNat_ofNat, BitVec.toNat_ofNat, Nat.mod_eq_of_lt hj,
    Nat.mod_eq_of_lt (show i < 2 ^ 32 by omega)]
  omega

end Offsets

/-! ## Single moves -/

section Moves

variable {target source x : Word} {n w k : ℕ}

theorem moveMap_inside (h : (x - target).toNat < n) : moveMap target source n x = source + (x - target) := if_pos h

theorem moveMap_outside (h : n ≤ (x - target).toNat) : moveMap target source n x = x := if_neg (by omega)

/-- A move onto itself changes nothing. -/
theorem moveMap_self (target : Word) (n : ℕ) : moveMap target target n = id := by
  funext x
  unfold moveMap
  split_ifs
  · exact add_sub_cancel target x
  · rfl

/-! ## Moves of elements -/

/-- Cells outside of the range that is written keep their contents. -/
theorem elementsMap_outside (h : k * w ≤ (x - target).toNat) : elementsMap w k target source x = x := by
  induction k generalizing target source with
  | zero => rfl
  | succ k ih =>
    rw [Nat.succ_mul] at h
    have hrest : k * w ≤ (x - (target + BitVec.ofNat 32 w)).toNat := by
      rw [toNat_sub_offset (by omega)]
      omega
    rw [elementsMap, ih hrest, moveMap_outside (by omega)]

/-- A cell whose source is not written has the contents of its source. -/
theorem elementsMap_unwritten (hrange : k * w < 2 ^ 32) {i : ℕ} (hi : i < k * w)
    (h : k * w ≤ (source + BitVec.ofNat 32 i - target).toNat) :
    elementsMap w k target source (target + BitVec.ofNat 32 i) = source + BitVec.ofNat 32 i := by
  induction k generalizing target source i with
  | zero => omega
  | succ k ih =>
    rw [Nat.succ_mul] at hrange hi h
    rw [elementsMap]
    by_cases hfirst : i < w
    · have hlater := toNat_before target hfirst (by omega)
      rw [elementsMap_outside (by omega), moveMap_inside (by rwa [toNat_offset target (by omega)]),
        add_sub_cancel_left]
    · obtain ⟨i, rfl⟩ := Nat.exists_eq_add_of_le (Nat.le_of_not_lt hfirst)
      rw [← offset_add, ← offset_add] at *
      rw [ih (by omega) (by omega), moveMap_outside (by omega)]
      rw [toNat_sub_offset (by omega)]
      omega

/-- The first element is moved as a whole. -/
theorem elementsMap_within {i : ℕ} (hi : i < w) (hk : 0 < k) (hrange : k * w < 2 ^ 32) :
    elementsMap w k target source (target + BitVec.ofNat 32 i) = source + BitVec.ofNat 32 i := by
  obtain ⟨k, rfl⟩ : ∃ k', k = k' + 1 := ⟨k - 1, by omega⟩
  rw [Nat.succ_mul] at hrange
  have hlater := toNat_before target hi (by omega)
  have hoffset := toNat_offset target (show i < 2 ^ 32 by omega)
  rw [elementsMap, elementsMap_outside (by omega), moveMap_inside (by omega), add_sub_cancel_left]

/-- The first cell that is written has the contents of the first that is read. -/
theorem elementsMap_first (hw : 0 < w) (hk : 0 < k) (hrange : k * w < 2 ^ 32) :
    elementsMap w k target source target = source := by
  have hzero : elementsMap w k target source (target + BitVec.ofNat 32 0) = source + BitVec.ofNat 32 0 :=
    elementsMap_within hw hk hrange
  rwa [show BitVec.ofNat 32 0 = 0 from rfl, add_zero, add_zero] at hzero

/-- Elements that are written before they are read: the target begins behind the source, within the
range, and there is more than one element. -/
def Overtakes (target source : Word) (w n : ℕ) : Prop :=
  0 < (target - source).toNat ∧ (target - source).toNat < n ∧ w < n

instance (target source : Word) (w n : ℕ) : Decidable (Overtakes target source w n) :=
  inferInstanceAs (Decidable (_ ∧ _ ∧ _))

/-- Where no element is written before it is read, the moves of elements are one move. -/
theorem elementsMap_eq_moveMap (hrange : k * w < 2 ^ 32) (h : ¬Overtakes target source w (k * w)) :
    elementsMap w k target source = moveMap target source (k * w) := by
  induction k generalizing target source with
  | zero =>
    funext x
    rw [moveMap_outside (by omega)]
    rfl
  | succ k ih =>
    funext x
    have hdistance : target + BitVec.ofNat 32 w - (source + BitVec.ofNat 32 w) = target - source :=
      add_sub_add_right_eq_sub _ _ _
    have hrest : ¬Overtakes (target + BitVec.ofNat 32 w) (source + BitVec.ofNat 32 w) w (k * w) := by
      unfold Overtakes at h ⊢
      rw [Nat.succ_mul] at h
      rw [hdistance]
      omega
    rw [Nat.succ_mul] at hrange h ⊢
    rw [elementsMap, ih (by omega) hrest]
    by_cases hfirst : (x - target).toNat < w
    · have hx : x = target + BitVec.ofNat 32 (x - target).toNat := by
        rw [BitVec.ofNat_toNat, BitVec.setWidth_eq, add_sub_cancel]
      have hlater := toNat_before target hfirst (by omega)
      rw [← hx] at hlater
      have hinner : moveMap (target + BitVec.ofNat 32 w) (source + BitVec.ofNat 32 w) (k * w) x = x :=
        moveMap_outside (by omega)
      rw [hinner, moveMap_inside hfirst, moveMap_inside (by omega)]
    have hlater : (x - (target + BitVec.ofNat 32 w)).toNat = (x - target).toNat - w := toNat_sub_offset (by omega)
    by_cases hinside : (x - target).toNat < k * w + w
    · have hsource : source + BitVec.ofNat 32 w + (x - (target + BitVec.ofNat 32 w)) = source + (x - target) := by
        abel
      have hread : w ≤ (source + (x - target) - target).toNat := by
        have heq : source + (x - target) - target = x - target - (target - source) := by abel
        rw [heq, BitVec.toNat_sub]
        unfold Overtakes at h
        have := (target - source).isLt
        omega
      have hinner : moveMap (target + BitVec.ofNat 32 w) (source + BitVec.ofNat 32 w) (k * w) x =
          source + (x - target) := by
        rw [moveMap_inside (by omega), hsource]
      rw [hinner, moveMap_inside hinside, moveMap_outside hread]
    · have hinner : moveMap (target + BitVec.ofNat 32 w) (source + BitVec.ofNat 32 w) (k * w) x = x :=
        moveMap_outside (by omega)
      rw [hinner, moveMap_outside (by omega), moveMap_outside (by omega)]

/-- Where elements are written before they are read, a cell has the contents of one further back. -/
theorem elementsMap_overtaken (hrange : k * w < 2 ^ 32) (h : Overtakes target source w (k * w)) :
    elementsMap w k target source (target + BitVec.ofNat 32 (max (target - source).toNat w)) =
      source + BitVec.ofNat 32 (max (target - source).toNat w - (target - source).toNat) := by
  obtain ⟨hahead, hwithin, hmore⟩ := h
  have htarget : target = source + BitVec.ofNat 32 (target - source).toNat := by
    rw [BitVec.ofNat_toNat, BitVec.setWidth_eq, add_sub_cancel]
  generalize (target - source).toNat = distance at *
  obtain ⟨k, rfl⟩ : ∃ k', k = k' + 1 := ⟨k - 1, by
    have : k ≠ 0 := fun hzero => by rw [hzero] at hmore; omega
    omega⟩
  rw [Nat.succ_mul] at hrange hwithin hmore
  -- the cell is read from the first element behind its beginning
  obtain ⟨j, hj⟩ : ∃ j, max distance w = distance + j := ⟨max distance w - distance, by omega⟩
  obtain ⟨i, hi⟩ : ∃ i, max distance w = w + i := ⟨max distance w - w, by omega⟩
  have hsource : source + BitVec.ofNat 32 w + BitVec.ofNat 32 i = target + BitVec.ofNat 32 j := by
    rw [offset_add, ← hi, hj, ← offset_add, ← htarget]
  have hw : w ≠ 0 := fun hzero => by
    rw [hzero, Nat.mul_zero] at hmore
    omega
  have hbefore := toNat_before target (show j < w by omega) (by omega)
  have hinner : elementsMap w k (target + BitVec.ofNat 32 w) (source + BitVec.ofNat 32 w)
      (target + BitVec.ofNat 32 w + BitVec.ofNat 32 i) = target + BitVec.ofNat 32 j := by
    rw [elementsMap_unwritten (by omega) (by omega), hsource]
    rw [hsource]
    omega
  have hoffset := toNat_offset target (show j < 2 ^ 32 by omega)
  rw [hj, Nat.add_sub_cancel_left, ← hj, hi, ← offset_add, elementsMap, hinner, moveMap_inside (by omega),
    add_sub_cancel_left]

/-- Elements one behind the other. -/
theorem elementsMap_add (a b : ℕ) (target source : Word) :
    elementsMap w (a + b) target source = elementsMap w a target source ∘
      elementsMap w b (target + BitVec.ofNat 32 (a * w)) (source + BitVec.ofNat 32 (a * w)) := by
  induction a generalizing target source with
  | zero =>
    rw [Nat.zero_add, Nat.zero_mul, show BitVec.ofNat 32 0 = 0 from rfl, add_zero, add_zero]
    rfl
  | succ a ih =>
    funext x
    rw [Nat.succ_add, elementsMap, ih, Function.comp, Function.comp, elementsMap, offset_add, offset_add,
      Nat.succ_mul, Nat.add_comm w]

/-- Moves of single cells are moves of elements where no cell is written within its element. -/
theorem elementsMap_cells (hrange : k * w < 2 ^ 32) (h : ¬Overtakes target source 1 w) :
    elementsMap 1 (k * w) target source = elementsMap w k target source := by
  induction k generalizing target source with
  | zero =>
    rw [Nat.zero_mul]
    rfl
  | succ k ih =>
    have hdistance : target + BitVec.ofNat 32 w - (source + BitVec.ofNat 32 w) = target - source :=
      add_sub_add_right_eq_sub _ _ _
    have hrest : ¬Overtakes (target + BitVec.ofNat 32 w) (source + BitVec.ofNat 32 w) 1 w := by
      unfold Overtakes at h ⊢
      rwa [hdistance]
    rw [Nat.succ_mul] at hrange ⊢
    have hfirst : elementsMap 1 w target source = moveMap target source w := by
      have hmoves (hwide : w * 1 < 2 ^ 32) (hover : ¬Overtakes target source 1 (w * 1)) :
          elementsMap 1 w target source = moveMap target source (w * 1) := elementsMap_eq_moveMap hwide hover
      rw [Nat.mul_one] at hmoves
      exact hmoves (by omega) h
    funext x
    rw [Nat.add_comm (k * w), elementsMap_add, Nat.mul_one, Function.comp, ih (by omega) hrest, hfirst]
    rfl

/-! ## Moves that are the same -/

/-- A map that moves a range: it gives the source at the beginning, and leaves other cells alone. -/
structure MovesRange (f : Word → Word) (target source : Word) (n : ℕ) : Prop where
  first : f target = source
  outside : ∀ x, n ≤ (x - target).toNat → f x = x

theorem moveMap_movesRange (hn : 0 < n) : MovesRange (moveMap target source n) target source n where
  first := by rw [moveMap_inside (by rwa [sub_self]), sub_self, add_zero]
  outside _ h := moveMap_outside h

theorem elementsMap_movesRange (hw : 0 < w) (hk : 0 < k) (hrange : k * w < 2 ^ 32) :
    MovesRange (elementsMap w k target source) target source (k * w) where
  first := elementsMap_first hw hk hrange
  outside _ h := elementsMap_outside h

/-- Elements that are moved onto themselves do not change. -/
theorem elementsMap_self (hrange : k * w < 2 ^ 32) (target : Word) : elementsMap w k target target = id := by
  rw [elementsMap_eq_moveMap hrange, moveMap_self]
  rw [Overtakes, sub_self]
  exact fun h => absurd h.1 (by decide)

/-- A move to another place changes every cell of its range. -/
theorem moveMap_ne (hne : source ≠ target) (h : (x - target).toNat < n) : moveMap target source n x ≠ x := by
  rw [moveMap_inside h]
  intro heq
  apply hne
  calc source = source + (x - target) - (x - target) := (add_sub_cancel_right _ _).symm
    _ = x - (x - target) := by rw [heq]
    _ = target := sub_sub_cancel x target

/-- Two maps that move ranges of one length away are the same only if the ranges are, where the
ranges are short or the first map changes all of its range. -/
theorem MovesRange.eq_of_eq {f f' : Word → Word} {target source target' source' : Word} (hn : n < 2 ^ 32)
    (h : MovesRange f target source n) (h' : MovesRange f' target' source' n) (hne : source ≠ target)
    (hne' : source' ≠ target') (hmoved : 2 * n ≤ 2 ^ 32 ∨ ∀ x, (x - target).toNat < n → f x ≠ x) (heq : f = f') :
    target = target' ∧ source = source' := by
  have hin : (target - target').toNat < n := by
    by_contra hout
    have hfix := h'.outside target (by omega)
    rw [← heq, h.first] at hfix
    exact hne hfix
  have hin' : (target' - target).toNat < n := by
    by_contra hout
    have hfix := h.outside target' (by omega)
    rw [heq, h'.first] at hfix
    exact hne' hfix
  have hsame : target = target' := by
    by_contra hdiffer
    have htarget : target = target' + BitVec.ofNat 32 (target - target').toNat := by
      rw [BitVec.ofNat_toNat, BitVec.setWidth_eq, add_sub_cancel]
    have hpos : 0 < (target - target').toNat := by
      rw [Nat.pos_iff_ne_zero]
      intro hzero
      rw [hzero, show BitVec.ofNat 32 0 = 0 from rfl, add_zero] at htarget
      exact hdiffer htarget
    generalize (target - target').toNat = j at *
    have haround := toNat_before target' hpos (by omega)
    rw [show BitVec.ofNat 32 0 = 0 from rfl, add_zero, ← htarget] at haround
    obtain hshort | hchanges := hmoved
    · omega
    -- the cell behind the second range is in the first
    have hbehind := toNat_offset target' hn
    have hwithin : (target' + BitVec.ofNat 32 n - target).toNat < n := by
      rw [htarget, toNat_sub_offset (by omega)]
      omega
    apply hchanges _ hwithin
    rw [heq]
    exact h'.outside _ (by omega)
  subst hsame
  exact ⟨rfl, by rw [← h.first, heq, h'.first]⟩

/-- A move at once is the move of its elements exactly where no element is written before it is
read. -/
theorem moveMap_eq_elementsMap_iff (hrange : k * w < 2 ^ 32) :
    moveMap target source (k * w) = elementsMap w k target source ↔ ¬Overtakes target source w (k * w) := by
  refine ⟨fun heq hover => ?_, fun h => (elementsMap_eq_moveMap hrange h).symm⟩
  have hcell := elementsMap_overtaken hrange hover
  obtain ⟨hahead, hwithin, hmore⟩ := hover
  have hoffset := toNat_offset target (show max (target - source).toNat w < 2 ^ 32 by omega)
  rw [← heq, moveMap_inside (by omega), add_sub_cancel_left, add_right_inj] at hcell
  have hnat := congrArg BitVec.toNat hcell
  rw [BitVec.toNat_ofNat, BitVec.toNat_ofNat, Nat.mod_eq_of_lt (by omega), Nat.mod_eq_of_lt (by omega)] at hnat
  omega

/-- Moves of single cells are the moves of elements exactly where no cell is written within its
element. -/
theorem cells_eq_elementsMap_iff (hk : 0 < k) (hrange : k * w < 2 ^ 32) :
    elementsMap 1 (k * w) target source = elementsMap w k target source ↔ ¬Overtakes target source 1 w := by
  refine ⟨fun heq hover => ?_, fun h => elementsMap_cells hrange h⟩
  obtain ⟨hahead, hwithin, hmore⟩ := hover
  have hle : w ≤ k * w := Nat.le_mul_of_pos_left w hk
  have hover : Overtakes target source 1 (k * w * 1) := ⟨hahead, by omega, by omega⟩
  have hcell := elementsMap_overtaken (by omega) hover
  rw [Nat.max_eq_left hahead, heq, elementsMap_within hwithin hk hrange, Nat.sub_self, add_right_inj] at hcell
  have hnat := congrArg BitVec.toNat hcell
  rw [BitVec.toNat_ofNat, BitVec.toNat_ofNat, Nat.mod_eq_of_lt (target - source).isLt] at hnat
  omega

/-- A map that moves a range, if possible as its elements are moved, is the move of the elements of a
range exactly if the two ranges are the same and it does, or nothing is moved away. -/
theorem MovesRange.eq_elementsMap_iff {f : Word → Word} {target' source' : Word} {hazard : Prop} (hw : 0 < w)
    (hk : 0 < k) (hrange : k * w < 2 ^ 32) (h : MovesRange f target source (k * w)) (hself : source = target → f = id)
    (hmoved : source ≠ target → 2 * (k * w) ≤ 2 ^ 32 ∨ ∀ x, (x - target).toNat < k * w → f x ≠ x)
    (hsame : f = elementsMap w k target source ↔ ¬hazard) :
    f = elementsMap w k target' source' ↔
      (target = target' ∧ source = source' ∧ ¬hazard) ∨ (source = target ∧ source' = target') := by
  have hrange' : MovesRange (elementsMap w k target' source') target' source' (k * w) :=
    elementsMap_movesRange hw hk hrange
  refine ⟨fun heq => ?_, fun hplace => ?_⟩
  · by_cases hstays : source = target
    · refine Or.inr ⟨hstays, ?_⟩
      have hfirst := hrange'.first
      rw [← heq, hself hstays] at hfirst
      exact hfirst.symm
    by_cases hstays' : source' = target'
    · have hfirst := h.first
      rw [heq, hstays', elementsMap_self hrange] at hfirst
      exact absurd hfirst.symm hstays
    obtain ⟨htarget, hsource⟩ := h.eq_of_eq hrange hrange' hstays hstays' (hmoved hstays) heq
    rw [← htarget, ← hsource] at heq
    exact Or.inl ⟨htarget, hsource, hsame.mp heq⟩
  · obtain ⟨rfl, rfl, hfree⟩ | ⟨hstays, rfl⟩ := hplace
    · exact hsame.mpr hfree
    · rw [hself hstays, elementsMap_self hrange]

end Moves

end Repiu
