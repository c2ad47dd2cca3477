import Mathlib.Data.List.Forall2
import Mathlib.Order.Lattice
import Mathlib.Order.MinMax

/-!
# Histories of timed states

A history is a list of entries with a time and a value, oldest first, behind a
floor value. It answers which value was the last one at or before a time.
Old entries can be folded into the floor as long as every time that can still
be asked for lies behind them.
-/

namespace Repiu.TimedHistory

section
variable {α τ β : Type} [LinearOrder τ] (time : α → τ) (value : α → β)

/-- The value of the last entry before the first one that lies after `q`. -/
def stateAt (floor : β) : List α → τ → β
  | [], _ => floor
  | e :: l, q => if time e ≤ q then stateAt (value e) l q else floor

/-- The value of the last entry. -/
def lastValue (floor : β) (l : List α) : β := l.foldl (fun _ e => value e) floor

/-- `t`, moved behind the last entry. -/
def clamp (l : List α) (t : τ) : τ :=
  match l.getLast? with
  | some e => max t (time e)
  | none => t

/-- Two entries have one value, and no time that is asked for lies between them. -/
def Alike (asked : τ → Prop) (a b : α) : Prop :=
  value a = value b ∧ ∀ q, asked q → (time a ≤ q ↔ time b ≤ q)

/-- The history `l` behind `floor` is the record `r` behind `initial` with its oldest entries folded
into the floor, for the times that are asked for. -/
structure Prunes (asked : τ → Prop) (floor : β) (l : List α) (initial : β) (r : List α) : Prop where
  split : ∃ removed kept, r = removed ++ kept ∧ floor = lastValue value initial removed ∧
    (∀ e ∈ removed, ∀ q, asked q → time e ≤ q) ∧ List.Forall₂ (Alike time value asked) l kept

variable {time value}

theorem stateAt_append_of_le {floor : β} {l r : List α} {q : τ} (h : ∀ e ∈ l, time e ≤ q) :
    stateAt time value floor (l ++ r) q = stateAt time value (lastValue value floor l) r q := by
  induction l generalizing floor with
  | nil => rfl
  | cons e l ih =>
    rw [List.forall_mem_cons] at h
    rw [List.cons_append, stateAt, if_pos h.1, ih h.2]
    rfl

theorem stateAt_alike {asked : τ → Prop} {l r : List α} (h : List.Forall₂ (Alike time value asked) l r)
    {q : τ} (hq : asked q) (floor : β) : stateAt time value floor l q = stateAt time value floor r q := by
  induction h generalizing floor with
  | nil => rfl
  | @cons a b l r hab _ ih =>
    rw [stateAt, stateAt, hab.1, ih]
    exact if_congr (hab.2 q hq) rfl rfl

theorem lastValue_append_singleton (floor : β) (l : List α) (e : α) :
    lastValue value floor (l ++ [e]) = value e := by
  rw [lastValue, List.foldl_append]
  rfl

theorem clamp_nil (t : τ) : clamp time [] t = t := rfl

theorem clamp_append_singleton (l : List α) (e : α) (t : τ) : clamp time (l ++ [e]) t = max t (time e) := by
  rw [clamp, List.getLast?_concat]

namespace Prunes

variable {asked asked' : τ → Prop} {floor initial : β} {l r : List α}

theorem nil (asked : τ → Prop) (floor : β) : Prunes time value asked floor [] floor [] :=
  ⟨[], [], rfl, rfl, by simp, .nil⟩

/-- The pruned history answers like the whole record. -/
theorem stateAt_eq (h : Prunes time value asked floor l initial r) {q : τ} (hq : asked q) :
    stateAt time value floor l q = stateAt time value initial r q := by
  obtain ⟨removed, kept, rfl, rfl, hremoved, hkept⟩ := h.split
  rw [stateAt_append_of_le (fun e he => hremoved e he q hq)]
  exact stateAt_alike hkept hq _

theorem mono (h : Prunes time value asked floor l initial r) (hasked : ∀ q, asked' q → asked q) :
    Prunes time value asked' floor l initial r := by
  obtain ⟨removed, kept, rfl, rfl, hremoved, hkept⟩ := h.split
  refine ⟨removed, kept, rfl, rfl, fun e he q hq => hremoved e he q (hasked q hq), ?_⟩
  exact hkept.imp fun a b hab => ⟨hab.1, fun q hq => hab.2 q (hasked q hq)⟩

/-- An entry before every asked time folds into the floor. -/
theorem fold {e : α} (h : Prunes time value asked floor (e :: l) initial r)
    (he : ∀ q, asked q → time e ≤ q) : Prunes time value asked (value e) l initial r := by
  obtain ⟨removed, kept, rfl, rfl, hremoved, hkept⟩ := h.split
  cases hkept with
  | @cons _ k _ kept halike hkept =>
    refine ⟨removed ++ [k], kept, by simp, ?_, ?_, hkept⟩
    · rw [lastValue_append_singleton, halike.1]
    · intro x hx q hq
      rw [List.mem_append, List.mem_singleton] at hx
      rcases hx with hx | rfl
      · exact hremoved x hx q hq
      · exact (halike.2 q hq).mp (he q hq)

/-- Entries up to a cutoff below every asked time fold into the floor. -/
theorem prune (h : Prunes time value asked floor l initial r) {cutoff : τ}
    (hcutoff : ∀ q, asked q → cutoff ≤ q) :
    Prunes time value asked (lastValue value floor (l.takeWhile fun e => time e ≤ cutoff))
      (l.dropWhile fun e => time e ≤ cutoff) initial r := by
  induction l generalizing floor with
  | nil => exact h
  | cons e l ih =>
    by_cases he : time e ≤ cutoff
    · rw [List.takeWhile_cons_of_pos (by simpa using he), List.dropWhile_cons_of_pos (by simpa using he)]
      exact ih (h.fold fun q hq => he.trans (hcutoff q hq))
    · rw [List.takeWhile_cons_of_neg (by simpa using he), List.dropWhile_cons_of_neg (by simpa using he)]
      exact h

/-- Both histories move a new time behind their last entry. -/
theorem clamp_le_iff (h : Prunes time value asked floor l initial r) (t : τ) {q : τ} (hq : asked q) :
    clamp time l t ≤ q ↔ clamp time r t ≤ q := by
  obtain ⟨removed, kept, rfl, -, hremoved, hkept⟩ := h.split
  rcases kept.eq_nil_or_concat' with rfl | ⟨kept, k, rfl⟩
  · -- everything was folded: the last entry lies before `q`
    rw [List.forall₂_nil_right_iff.mp hkept, List.append_nil, clamp_nil]
    rcases removed.eq_nil_or_concat' with rfl | ⟨removed, e, rfl⟩
    · rw [clamp_nil]
    · rw [clamp_append_singleton, max_le_iff]
      exact (and_iff_left (hremoved e (by simp) q hq)).symm
  · rw [← List.forall₂_reverse_iff, List.reverse_append, List.reverse_singleton, List.singleton_append,
      List.forall₂_cons_right_iff] at hkept
    obtain ⟨e, rest, halike, -, hl⟩ := hkept
    rw [List.reverse_eq_iff.mp hl, List.reverse_cons, ← List.append_assoc, clamp_append_singleton,
      clamp_append_singleton, max_le_iff, max_le_iff, halike.2 q hq]

/-- A new entry goes behind both. -/
theorem append (h : Prunes time value asked floor l initial r) {a b : α} (hab : Alike time value asked a b) :
    Prunes time value asked floor (l ++ [a]) initial (r ++ [b]) := by
  obtain ⟨removed, kept, rfl, rfl, hremoved, hkept⟩ := h.split
  exact ⟨removed, kept ++ [b], by simp, rfl, hremoved, List.rel_append hkept (.cons hab .nil)⟩

end Prunes

end

end Repiu.TimedHistory
