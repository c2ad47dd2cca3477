import Mathlib.Tactic

/-!
# Runs of a partial step function inside a region

A deterministic machine that may get stuck, and the state in which it first leaves a
region. Two states that run into a common state inside the region leave it alike.
-/

namespace Repiu.PartialRuns

variable {σ : Type*} (step : σ → Option σ) (inside : σ → Prop)

/-- Steps that all start inside. -/
inductive Steps : σ → σ → Prop
  | refl (s : σ) : Steps s s
  | head {s s' t : σ} (hinside : inside s) (hstep : step s = some s') (hrest : Steps s' t) : Steps s t

/-- The first state outside. -/
def Leaves (s t : σ) : Prop := Steps step inside s t ∧ ¬inside t

variable {step inside} {s s' t u : σ}

namespace Steps

theorem one (hinside : inside s) (hstep : step s = some s') : Steps step inside s s' :=
  head hinside hstep (refl s')

theorem trans (h : Steps step inside s t) (h' : Steps step inside t u) : Steps step inside s u := by
  induction h with
  | refl s => exact h'
  | head hinside hstep _ ih => exact head hinside hstep (ih h')

/-- Of two runs from one state that does not get outside, the shorter is a part of the longer. -/
theorem leaves_of_leaves (h : Steps step inside s s') (hleaves : Leaves step inside s t) :
    Leaves step inside s' t := by
  induction h with
  | refl s => exact hleaves
  | head hinside hstep _ ih =>
    obtain ⟨hrun, hout⟩ := hleaves
    cases hrun with
    | refl => exact absurd hinside hout
    | head _ hstep' hrest =>
      rw [hstep, Option.some.injEq] at hstep'
      subst hstep'
      exact ih ⟨hrest, hout⟩

theorem leaves_iff (h : Steps step inside s s') : Leaves step inside s t ↔ Leaves step inside s' t :=
  ⟨h.leaves_of_leaves, fun hleaves => ⟨h.trans hleaves.1, hleaves.2⟩⟩

end Steps

theorem Leaves.unique (h : Leaves step inside s t) (h' : Leaves step inside s u) : t = u := by
  obtain ⟨hrun, hout⟩ := h.1.leaves_of_leaves h'
  cases hrun with
  | refl => rfl
  | head hinside _ _ => exact absurd hinside h.2

/-- A property that each step keeps or loses according to a condition on the state it starts in: the
state the run leaves the region in has it if the first state had it and the condition held all along. -/
theorem Leaves.iff_along {P C : σ → Prop}
    (hstep : ∀ {s s'}, inside s → step s = some s' → (P s' ↔ P s ∧ C s)) (h : Leaves step inside s t) :
    P t ↔ P s ∧ ∀ u, Steps step inside s u → inside u → C u := by
  obtain ⟨hrun, hout⟩ := h
  induction hrun with
  | refl s =>
    have hnone : ∀ u, Steps step inside s u → inside u → C u := by
      intro u hu hinside
      cases hu with
      | refl => exact absurd hinside hout
      | head hs _ _ => exact absurd hs hout
    exact (and_iff_left hnone).symm
  | @head s s' t hinside hnext hrest ih =>
    rw [ih hout, hstep hinside hnext, and_assoc]
    apply and_congr_right'
    constructor
    · intro ⟨hfirst, hlater⟩ u hu hu'
      cases hu with
      | refl => exact hfirst
      | head _ hnext' hsteps =>
        rw [hnext, Option.some.injEq] at hnext'
        subst hnext'
        exact hlater u hsteps hu'
    · intro hall
      exact ⟨hall s (Steps.refl s) hinside, fun u hu => hall u (Steps.head hinside hnext hu)⟩

/-- States that meet leave the region in the same state, or not at all. -/
theorem leaves_iff_of_meet {m : σ} (h : Steps step inside s m) (h' : Steps step inside s' m) :
    Leaves step inside s t ↔ Leaves step inside s' t :=
  h.leaves_iff.trans h'.leaves_iff.symm

end Repiu.PartialRuns
