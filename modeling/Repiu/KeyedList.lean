import Mathlib.Order.Lattice
import Mathlib.Data.List.Basic

/-!
# Sorted lists of keyed records

A sorted vector of records with distinct keys: lookup through the lower bound of
a key, insertion at it, and removal.
-/

namespace Repiu.KeyedList

section
variable {α κ : Type} [LinearOrder κ] (key : α → κ)

/-- The keys increase strictly. -/
def Sorted (l : List α) : Prop := l.Pairwise fun a b => key a < key b

/-- The records from the first one whose key is not below `k` on. -/
def lowerBound (k : κ) (l : List α) : List α := l.dropWhile fun a => key a < k

/-- The record with a key. -/
def find (k : κ) (l : List α) : Option α := l.find? fun a => key a = k

/-- Update the record with key `k`, after inserting `new` where there is none. -/
def upsert (k : κ) (new : α) (f : α → α) : List α → List α
  | [] => [f new]
  | a :: l =>
    if key a < k then a :: upsert k new f l
    else if key a = k then f a :: l
    else f new :: a :: l

/-- Remove the first record with key `k`. -/
def remove (k : κ) (l : List α) : List α := l.eraseP fun a => key a = k

/-! ## Lookup -/

variable {key}

theorem find_eq_some {k : κ} {l : List α} (h : Sorted key l) {a : α} :
    find key k l = some a ↔ a ∈ l ∧ key a = k := by
  induction l with
  | nil => simp [find]
  | cons b l ih =>
    obtain ⟨hb, hl⟩ := List.pairwise_cons.mp h
    unfold find at ih ⊢
    rw [List.find?_cons]
    by_cases hk : key b = k
    · simp only [hk, decide_true, Option.some.injEq, List.mem_cons]
      constructor
      · rintro rfl
        exact ⟨Or.inl rfl, hk⟩
      · rintro ⟨rfl | ha, hka⟩
        · rfl
        · have := hb a ha
          rw [hk, hka] at this
          exact absurd this (lt_irrefl k)
    · simp only [hk, decide_false, ih hl, List.mem_cons]
      constructor
      · rintro ⟨ha, hka⟩
        exact ⟨Or.inr ha, hka⟩
      · rintro ⟨rfl | ha, hka⟩
        · exact absurd hka hk
        · exact ⟨ha, hka⟩

theorem find_eq_none {k : κ} {l : List α} : find key k l = none ↔ ∀ a ∈ l, key a ≠ k := by
  simp [find]

/-- On a sorted list the record at the lower bound is the one with the key, if there is one. -/
theorem find_eq_lowerBound {k : κ} {l : List α} (h : Sorted key l) :
    find key k l = (lowerBound key k l).head?.filter fun a => key a = k := by
  induction l with
  | nil => rfl
  | cons b l ih =>
    obtain ⟨hb, hl⟩ := List.pairwise_cons.mp h
    unfold find lowerBound at ih ⊢
    rw [List.find?_cons, List.dropWhile_cons]
    rcases lt_trichotomy (key b) k with hlt | heq | hgt
    · simp only [hlt.ne, hlt, decide_false, decide_true, if_true, ih hl]
    · simp [heq, Option.filter]
    · have hnone : l.find? (fun a => key a = k) = none := by
        rw [List.find?_eq_none]
        intro a ha
        simpa using (hgt.trans (hb a ha)).ne'
      simp [hgt.ne', not_lt.mpr hgt.le, hnone, Option.filter]

/-! ## Update -/

theorem mem_upsert_or {k : κ} {new : α} {f : α → α} {l : List α} {a : α} (h : a ∈ upsert key k new f l) :
    a ∈ l ∨ a = f new ∨ ∃ b ∈ l, key b = k ∧ a = f b := by
  induction l with
  | nil =>
    rw [upsert, List.mem_singleton] at h
    exact Or.inr (Or.inl h)
  | cons b l ih =>
    rw [upsert] at h
    split_ifs at h with hlt heq
    · rcases List.mem_cons.mp h with rfl | h
      · exact Or.inl List.mem_cons_self
      · rcases ih h with h | h | ⟨c, hc, hk, rfl⟩
        · exact Or.inl (List.mem_cons_of_mem _ h)
        · exact Or.inr (Or.inl h)
        · exact Or.inr (Or.inr ⟨c, List.mem_cons_of_mem _ hc, hk, rfl⟩)
    · rcases List.mem_cons.mp h with rfl | h
      · exact Or.inr (Or.inr ⟨b, List.mem_cons_self, heq, rfl⟩)
      · exact Or.inl (List.mem_cons_of_mem _ h)
    · rcases List.mem_cons.mp h with rfl | h
      · exact Or.inr (Or.inl rfl)
      · exact Or.inl h

/-- The keys of the updated list: those there were, and `k`. -/
theorem key_mem_upsert {k : κ} {new : α} {f : α → α} (hnew : key (f new) = k)
    (hf : ∀ a, key (f a) = key a) {l : List α} {a : α} (h : a ∈ upsert key k new f l) :
    key a = k ∨ ∃ b ∈ l, key a = key b := by
  rcases mem_upsert_or h with h | rfl | ⟨b, -, hk, rfl⟩
  · exact Or.inr ⟨a, h, rfl⟩
  · exact Or.inl hnew
  · exact Or.inl ((hf b).trans hk)

theorem Sorted.upsert {k : κ} {new : α} {f : α → α} (hnew : key (f new) = k)
    (hf : ∀ a, key (f a) = key a) {l : List α} (h : Sorted key l) :
    Sorted key (upsert key k new f l) := by
  induction l with
  | nil => exact List.pairwise_singleton _ _
  | cons b l ih =>
    obtain ⟨hb, hl⟩ := List.pairwise_cons.mp h
    rw [KeyedList.upsert]
    split_ifs with hlt heq
    · refine List.pairwise_cons.mpr ⟨?_, ih hl⟩
      intro a ha
      rcases key_mem_upsert hnew hf ha with hk | ⟨c, hc, hk⟩
      · rw [hk]
        exact hlt
      · rw [hk]
        exact hb c hc
    · refine List.pairwise_cons.mpr ⟨?_, hl⟩
      intro a ha
      rw [hf b]
      exact hb a ha
    · have hgt : k < key b := lt_of_le_of_ne (not_lt.mp hlt) (Ne.symm heq)
      refine List.pairwise_cons.mpr ⟨?_, h⟩
      intro a ha
      rw [hnew]
      rcases List.mem_cons.mp ha with rfl | ha
      · exact hgt
      · exact hgt.trans (hb a ha)

theorem find_upsert_self {k : κ} {new : α} {f : α → α} (hnew : key (f new) = k)
    (hf : ∀ a, key (f a) = key a) {l : List α} (h : Sorted key l) :
    find key k (upsert key k new f l) = some (f ((find key k l).getD new)) := by
  induction l with
  | nil => simp [upsert, find, hnew]
  | cons b l ih =>
    obtain ⟨hb, hl⟩ := List.pairwise_cons.mp h
    rw [upsert]
    split_ifs with hlt heq
    · have := ih hl
      unfold find at this ⊢
      rw [List.find?_cons, List.find?_cons]
      simpa [hlt.ne] using this
    · simp [find, hf b, heq]
    · have hnone : find key k (b :: l) = none := by
        rw [find_eq_none]
        intro a ha
        rcases List.mem_cons.mp ha with rfl | ha
        · exact heq
        · exact (lt_of_lt_of_le (lt_of_le_of_ne (not_lt.mp hlt) (Ne.symm heq)) (hb a ha).le).ne'
      rw [hnone]
      simp [find, hnew]

theorem find_upsert_of_ne {k k' : κ} {new : α} {f : α → α} (hnew : key (f new) = k)
    (hf : ∀ a, key (f a) = key a) (hne : k' ≠ k) (l : List α) :
    find key k' (upsert key k new f l) = find key k' l := by
  induction l with
  | nil => simp [upsert, find, hnew, hne.symm]
  | cons b l ih =>
    rw [upsert]
    unfold find at ih ⊢
    split_ifs with hlt heq
    · rw [List.find?_cons, List.find?_cons, ih]
    · rw [List.find?_cons, List.find?_cons]
      simp [hf b, heq, hne.symm]
    · rw [List.find?_cons]
      simp [hnew, hne.symm]

/-! ## Removal -/

theorem Sorted.remove {l : List α} (h : Sorted key l) (k : κ) : Sorted key (remove key k l) :=
  List.Pairwise.sublist List.eraseP_sublist h

theorem mem_remove {k : κ} {l : List α} (h : Sorted key l) {a : α} :
    a ∈ remove key k l ↔ a ∈ l ∧ key a ≠ k := by
  induction l with
  | nil => simp [remove]
  | cons b l ih =>
    obtain ⟨hb, hl⟩ := List.pairwise_cons.mp h
    unfold remove at ih ⊢
    rw [List.eraseP_cons]
    by_cases hk : key b = k
    · simp only [hk, decide_true, cond_true, List.mem_cons]
      constructor
      · intro ha
        exact ⟨Or.inr ha, fun hka => absurd (hb a ha) (by rw [hk, hka]; exact lt_irrefl k)⟩
      · rintro ⟨rfl | ha, hka⟩
        · exact absurd hk hka
        · exact ha
    · simp only [hk, decide_false, cond_false, List.mem_cons, ih hl]
      constructor
      · rintro (rfl | ⟨ha, hka⟩)
        · exact ⟨Or.inl rfl, hk⟩
        · exact ⟨Or.inr ha, hka⟩
      · rintro ⟨rfl | ha, hka⟩
        · exact Or.inl rfl
        · exact Or.inr ⟨ha, hka⟩

theorem find_remove {k k' : κ} {l : List α} (h : Sorted key l) :
    find key k' (remove key k l) = if k' = k then none else find key k' l := by
  by_cases hk : k' = k
  · rw [if_pos hk, find_eq_none]
    intro a ha
    rw [hk]
    exact ((mem_remove h).mp ha).2
  · rw [if_neg hk]
    ext a
    rw [find_eq_some (h.remove k), find_eq_some h, mem_remove h]
    constructor
    · rintro ⟨⟨ha, -⟩, hka⟩
      exact ⟨ha, hka⟩
    · rintro ⟨ha, hka⟩
      exact ⟨⟨ha, by rwa [hka]⟩, hka⟩

end

end Repiu.KeyedList
