import Mathlib.Logic.Basic

/-!
# Runs of a step function

What holds in every state of a run, and what every step of a run meets. A property that a
step keeps exactly under a condition holds throughout a run exactly where each step meets it.
-/

namespace Repiu.StepRuns

variable {σ ε : Type*} (step : σ → ε → σ)

/-- Every state of the run, the first included. -/
def EveryState (P : σ → Prop) : σ → List ε → Prop
  | s, [] => P s
  | s, e :: events => P s ∧ EveryState P (step s e) events

/-- Every step of the run, by the state before it. -/
def EveryStep (C : σ → ε → Prop) : σ → List ε → Prop
  | _, [] => True
  | s, e :: events => C s e ∧ EveryStep C (step s e) events

variable {step} {P J : σ → Prop} {C : σ → ε → Prop} {s : σ} {events : List ε}

theorem EveryState.last (h : EveryState step P s events) : P (events.foldl step s) := by
  induction events generalizing s with
  | nil => exact h
  | cons e events ih => exact ih h.2

/-- What every step keeps holds throughout. -/
theorem EveryState.of_step (hstep : ∀ s e, P s → P (step s e)) (h : P s) : EveryState step P s events := by
  induction events generalizing s with
  | nil => exact h
  | cons e events ih => exact ⟨h, ih (hstep s e h)⟩

/-- What every step keeps under a condition holds throughout a run whose steps meet it. -/
theorem EveryStep.everyState (hsteps : EveryStep step C s events) (h : P s)
    (hstep : ∀ s e, P s → C s e → P (step s e)) : EveryState step P s events := by
  induction events generalizing s with
  | nil => exact h
  | cons e events ih => exact ⟨h, ih hsteps.2 (hstep s e h hsteps.1)⟩

/-- A condition that follows from what every state has holds of every step. -/
theorem EveryState.everyStep (h : EveryState step P s events) (hPC : ∀ s e, P s → C s e) :
    EveryStep step C s events := by
  induction events generalizing s with
  | nil => trivial
  | cons e events ih => exact ⟨hPC s e h.1, ih h.2⟩

theorem EveryState.mono {Q : σ → Prop} (h : EveryState step P s events) (hPQ : ∀ s, P s → Q s) :
    EveryState step Q s events := by
  induction events generalizing s with
  | nil => exact hPQ s h
  | cons e events ih => exact ⟨hPQ s h.1, ih h.2⟩

/-- What the steps of a run give. -/
def outputs {ω : Type*} (step : σ → ε → ω × σ) : σ → List ε → List ω
  | _, [] => []
  | s, e :: events => (step s e).1 :: outputs step (step s e).2 events

/-- Machines whose steps give the same and keep a relation give the same over a run. -/
theorem outputs_eq {τ ω : Type*} {left : σ → ε → ω × σ} {right : τ → ε → ω × τ} {R : σ → τ → Prop}
    (hstep : ∀ s t e, R s t → (left s e).1 = (right t e).1 ∧ R (left s e).2 (right t e).2) {t : τ} (h : R s t) :
    outputs left s events = outputs right t events := by
  induction events generalizing s t with
  | nil => rfl
  | cons e events ih =>
    obtain ⟨hgives, hrel⟩ := hstep s t e h
    rw [outputs, outputs, hgives, ih hrel]

/-- `J` holds of every state, and under it `P` goes through a step exactly where `C` holds. -/
theorem everyState_iff_everyStep (hkeep : ∀ s e, J s → J (step s e))
    (hstep : ∀ s e, J s → P s → (P (step s e) ↔ C s e)) (hJ : J s) (h : P s) :
    EveryState step P s events ↔ EveryStep step C s events := by
  induction events generalizing s with
  | nil => exact iff_of_true h trivial
  | cons e events ih =>
    constructor
    · rintro ⟨-, hrest⟩
      have hnext : P (step s e) := by
        cases events with
        | nil => exact hrest
        | cons => exact hrest.1
      exact ⟨(hstep s e hJ h).mp hnext, (ih (hkeep s e hJ) hnext).mp hrest⟩
    · rintro ⟨hcond, hrest⟩
      have hnext := (hstep s e hJ h).mpr hcond
      exact ⟨h, (ih (hkeep s e hJ) hnext).mpr hrest⟩

end Repiu.StepRuns
