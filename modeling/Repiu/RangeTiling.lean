import Mathlib.Order.CompletePartialOrder
import Mathlib.Order.Interval.Set.Disjoint
import Mathlib.Data.List.Pairwise

/-!
# Ranges that tile

Half-open ranges of a linear order, each beginning where the one before it ends. Together they are
the range from the first start to the last end, and no two of them meet.
-/

namespace Repiu.RangeTiling

variable {α : Type} [LinearOrder α]

/-- The ranges lie one behind the other, from a start to an end. -/
def Tiles : α → List (α × α) → α → Prop
  | start, [], finish => start = finish
  | start, range :: ranges, finish => range.1 = start ∧ start < range.2 ∧ Tiles range.2 ranges finish

variable {start middle finish : α} {ranges : List (α × α)}

/-- One more range at the end. -/
theorem Tiles.snoc (h : Tiles start ranges middle) (hlt : middle < finish) :
    Tiles start (ranges ++ [(middle, finish)]) finish := by
  induction ranges generalizing start with
  | nil =>
    have heq : start = middle := h
    subst heq
    exact ⟨rfl, hlt, rfl⟩
  | cons range ranges ih => exact ⟨h.1, h.2.1, ih h.2.2⟩

theorem Tiles.le (h : Tiles start ranges finish) : start ≤ finish := by
  induction ranges generalizing start with
  | nil => exact le_of_eq h
  | cons range ranges ih => exact h.2.1.le.trans (ih h.2.2)

/-- A range of a tiling begins at or behind the start. -/
theorem Tiles.start_le (h : Tiles start ranges finish) {range : α × α} (hrange : range ∈ ranges) : start ≤ range.1 := by
  induction ranges generalizing start with
  | nil => cases hrange
  | cons first ranges ih =>
    rcases List.mem_cons.mp hrange with rfl | hrest
    · exact h.1.ge
    · exact h.2.1.le.trans (ih h.2.2 hrest)

/-- No two ranges meet. -/
theorem Tiles.pairwise_disjoint (h : Tiles start ranges finish) :
    ranges.Pairwise fun a b => Disjoint (Set.Ico a.1 a.2) (Set.Ico b.1 b.2) := by
  induction ranges generalizing start with
  | nil => exact List.Pairwise.nil
  | cons range ranges ih =>
    refine List.Pairwise.cons ?_ (ih h.2.2)
    intro later hlater
    rw [Set.Ico_disjoint_Ico]
    calc min range.2 later.2 ≤ range.2 := min_le_left _ _
      _ ≤ later.1 := h.2.2.start_le hlater
      _ ≤ max range.1 later.1 := le_max_right _ _

/-- The ranges cover what lies between the start and the end, and nothing else. -/
theorem Tiles.mem_iff (h : Tiles start ranges finish) (a : α) :
    (∃ range ∈ ranges, a ∈ Set.Ico range.1 range.2) ↔ a ∈ Set.Ico start finish := by
  induction ranges generalizing start with
  | nil =>
    have heq : start = finish := h
    rw [heq, Set.Ico_self]
    simp
  | cons range ranges ih =>
    obtain ⟨hfirst, hlt, hrest⟩ := h
    rw [← Set.Ico_union_Ico_eq_Ico hlt.le hrest.le, Set.mem_union, ← ih hrest, ← hfirst]
    simp only [List.mem_cons, exists_eq_or_imp]

end Repiu.RangeTiling
