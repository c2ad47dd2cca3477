import Mathlib.Data.List.Pairwise

/-!
# Moving files

A store of nodes under paths, with renames and deletions. A rename into an empty
place is undone by the rename back, as long as neither place was disturbed in
between; the lemmas keep track of the places whose nodes were deleted.
-/

namespace Repiu.FileMoves

variable {π κ : Type}

/-- The node under each path: a file, or a folder with all that is below it. -/
abbrev Store (π κ : Type) := π → Option κ

/-- The second store has the nodes of the first, except for some that are lost. -/
def KeptBut (lost : π → Prop) (store store' : Store π κ) : Prop :=
  ∀ p, store' p = store p ∨ (lost p ∧ store' p = none)

variable {store store' : Store π κ} {lost : π → Prop} {source target path : π}

namespace KeptBut

theorem refl (store : Store π κ) : KeptBut (fun _ => False) store store := fun _ => .inl rfl

theorem mono {lost' : π → Prop} (h : KeptBut lost store store') (himp : ∀ p, lost p → lost' p) :
    KeptBut lost' store store' := by
  intro p
  obtain hsame | ⟨hlost, hnone⟩ := h p
  · exact .inl hsame
  · exact .inr ⟨himp p hlost, hnone⟩

theorem eq_of_not_lost (h : KeptBut lost store store') (hp : ¬ lost path) : store' path = store path := by
  obtain hsame | ⟨hlost, -⟩ := h path
  · exact hsame
  · exact absurd hlost hp

end KeptBut

variable [DecidableEq π]

/-- Nothing is left under a path. -/
def remove (store : Store π κ) (path : π) : Store π κ := fun p => if p = path then none else store p

/-- The node of one path, if there is one, comes under another. -/
def move (store : Store π κ) (source target : π) : Store π κ := fun p =>
  if p = target then store source else if p = source then none else store p

/-- A rename that fails where there is nothing to rename. -/
def moveBack (store : Store π κ) (source target : π) : Store π κ :=
  if (store source).isSome then move store source target else store

theorem move_target (store : Store π κ) (source target : π) : move store source target target = store source :=
  if_pos rfl

theorem move_source (h : source ≠ target) : move store source target source = none := by
  rw [move, if_neg h, if_pos rfl]

theorem move_other {p : π} (htarget : p ≠ target) (hsource : p ≠ source) : move store source target p = store p := by
  rw [move, if_neg htarget, if_neg hsource]

namespace KeptBut

/-- A move into an empty place is undone by the move back. -/
theorem moveBack (hsome : (store source).isSome = true) (hempty : store target = none)
    (h : KeptBut lost (move store source target) store') (htarget : ¬ lost target) :
    KeptBut (fun p => p ≠ source ∧ lost p) store (moveBack store' target source) := by
  have hne : source ≠ target := by
    rintro rfl
    rw [hempty] at hsome
    cases hsome
  have hnode : store' target = store source := by rw [h.eq_of_not_lost htarget, move_target]
  rw [FileMoves.moveBack, if_pos (by rw [hnode]; exact hsome)]
  intro p
  by_cases hsource : p = source
  · left
    rw [hsource, move_target, hnode]
  · by_cases hp : p = target
    · left
      rw [hp, move_source hne.symm, hempty]
    · rw [move_other hsource hp]
      obtain hsame | ⟨hlost, hnone⟩ := h p
      · exact .inl (hsame.trans (move_other hp hsource))
      · exact .inr ⟨⟨hsource, hlost⟩, hnone⟩

end KeptBut

/-! ## Nodes that are gone -/

/-- Every node of the second store is one of the first. -/
def Drawn (store store' : Store π κ) : Prop := ∀ p node, store' p = some node → ∃ q, store q = some node

/-- No node is under two paths. -/
def Single (store : Store π κ) : Prop := ∀ p q node, store p = some node → store q = some node → p = q

namespace Drawn

omit [DecidableEq π] in
theorem refl (store : Store π κ) : Drawn store store := fun p _ h => ⟨p, h⟩

omit [DecidableEq π] in
theorem trans {store'' : Store π κ} (h : Drawn store store') (h' : Drawn store' store'') : Drawn store store'' := by
  intro p node hnode
  obtain ⟨q, hq⟩ := h' p node hnode
  exact h q node hq

theorem move (store : Store π κ) (source target : π) : Drawn store (FileMoves.move store source target) := by
  intro p node hnode
  unfold FileMoves.move at hnode
  split at hnode
  · exact ⟨source, hnode⟩
  · split at hnode
    · cases hnode
    · exact ⟨p, hnode⟩

theorem moveBack (store : Store π κ) (source target : π) : Drawn store (FileMoves.moveBack store source target) := by
  unfold FileMoves.moveBack
  split
  · exact move store source target
  · exact refl store

end Drawn

namespace Single

theorem move (h : Single store) (source target : π) : Single (FileMoves.move store source target) := by
  -- A node under the target was under the source before.
  have hback : ∀ p node, FileMoves.move store source target p = some node →
      store (if p = target then source else p) = some node ∧ (p = source → p = target) := by
    intro p node hp
    unfold FileMoves.move at hp
    split at hp
    case isTrue htarget => exact ⟨by rw [if_pos htarget]; exact hp, fun _ => htarget⟩
    case isFalse htarget =>
      split at hp
      case isTrue => cases hp
      case isFalse hsource => exact ⟨by rw [if_neg htarget]; exact hp, fun hp => absurd hp hsource⟩
  intro p q node hp hq
  obtain ⟨hp, hpsource⟩ := hback p node hp
  obtain ⟨hq, hqsource⟩ := hback q node hq
  have hsame := h _ _ node hp hq
  by_cases hptarget : p = target
  · by_cases hqtarget : q = target
    · exact hptarget.trans hqtarget.symm
    · rw [if_pos hptarget, if_neg hqtarget] at hsame
      exact absurd (hqsource hsame.symm) hqtarget
  · by_cases hqtarget : q = target
    · rw [if_neg hptarget, if_pos hqtarget] at hsame
      exact absurd (hpsource hsame) hptarget
    · rwa [if_neg hptarget, if_neg hqtarget] at hsame

end Single

end Repiu.FileMoves
