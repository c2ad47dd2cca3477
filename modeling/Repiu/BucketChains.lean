import Mathlib.Order.Nat
import Mathlib.Data.List.Basic

/-!
# Chained hash buckets

A hash index over the positions of a growing array: every bucket holds the newest
position of its hash, and every position the next older one of the same bucket.
-/

namespace Repiu.BucketChains

/-- The positions a chain visits from `head` on. -/
inductive Chain (next : List (Option ℕ)) : Option ℕ → List ℕ → Prop
  | nil : Chain next none []
  | cons {i : ℕ} {older : Option ℕ} {l : List ℕ} : next[i]? = some older → Chain next older l →
      Chain next (some i) (i :: l)

/-- The positions below `count` with a hash, newest first. -/
def newestFirst (hash : ℕ → ℕ) (count bucket : ℕ) : List ℕ :=
  ((List.range count).filter fun i => hash i = bucket).reverse

/-- The chains of the buckets hold the positions below `count`. -/
def Indexes (hash : ℕ → ℕ) (count : ℕ) (buckets next : List (Option ℕ)) : Prop :=
  ∀ b head, buckets[b]? = some head → Chain next head (newestFirst hash count b)

/-- The new head of a bucket points at the old one. -/
def link (hash : ℕ → ℕ) (i : ℕ) (buckets next : List (Option ℕ)) : List (Option ℕ) × List (Option ℕ) :=
  (buckets.set (hash i) (some i), next.set i (buckets[hash i]?).join)

/-! ## Construction -/

theorem mem_newestFirst {hash : ℕ → ℕ} {count b i : ℕ} :
    i ∈ newestFirst hash count b ↔ i < count ∧ hash i = b := by
  simp [newestFirst]

/-- The newest position comes first, and none comes twice. -/
theorem pairwise_newestFirst (hash : ℕ → ℕ) (count b : ℕ) :
    (newestFirst hash count b).Pairwise fun i j => j < i :=
  List.pairwise_reverse.mpr (List.pairwise_lt_range.filter _)

theorem newestFirst_succ (hash : ℕ → ℕ) (count b : ℕ) :
    newestFirst hash (count + 1) b =
      if hash count = b then count :: newestFirst hash count b else newestFirst hash count b := by
  unfold newestFirst
  rw [List.range_succ, List.filter_append, List.reverse_append]
  split_ifs with h <;> simp [h]

theorem Chain.set {next : List (Option ℕ)} {head : Option ℕ} {l : List ℕ} (h : Chain next head l)
    {i : ℕ} (hi : i ∉ l) (older : Option ℕ) : Chain (next.set i older) head l := by
  induction h with
  | nil => exact .nil
  | @cons j _ l hj _ ih =>
    rw [List.mem_cons, not_or] at hi
    refine .cons ?_ (ih hi.2)
    rw [List.getElem?_set_ne hi.1]
    exact hj

theorem Chain.append {next : List (Option ℕ)} {head : Option ℕ} {l : List ℕ} (h : Chain next head l)
    (more : List (Option ℕ)) : Chain (next ++ more) head l := by
  induction h with
  | nil => exact .nil
  | cons hj _ ih =>
    refine .cons ?_ ih
    rw [List.getElem?_append_left (List.getElem?_eq_some_iff.mp hj).1]
    exact hj

theorem Indexes.append {hash : ℕ → ℕ} {count : ℕ} {buckets next : List (Option ℕ)}
    (h : Indexes hash count buckets next) (more : List (Option ℕ)) :
    Indexes hash count buckets (next ++ more) :=
  fun b head hb => (h b head hb).append more

theorem indexes_empty (hash : ℕ → ℕ) (n : ℕ) (next : List (Option ℕ)) :
    Indexes hash 0 (List.replicate n none) next := by
  intro b head hb
  rw [List.getElem?_replicate] at hb
  split_ifs at hb
  rw [Option.some.injEq] at hb
  subst hb
  exact .nil

/-- Linking the next position. -/
theorem Indexes.link {hash : ℕ → ℕ} {count : ℕ} {buckets next : List (Option ℕ)}
    (h : Indexes hash count buckets next) (hbucket : hash count < buckets.length)
    (hnext : count < next.length) :
    Indexes hash (count + 1) (link hash count buckets next).1 (link hash count buckets next).2 := by
  have hfresh : ∀ b, count ∉ newestFirst hash count b := by
    intro b hb
    exact absurd (mem_newestFirst.mp hb).1 (lt_irrefl count)
  intro b head hb
  simp only [BucketChains.link] at hb ⊢
  rw [newestFirst_succ]
  by_cases heq : hash count = b
  · subst heq
    rw [List.getElem?_set_self hbucket, Option.some.injEq] at hb
    subst hb
    rw [if_pos rfl]
    have hold := List.getElem?_eq_getElem hbucket
    refine .cons (List.getElem?_set_self hnext) ?_
    rw [hold]
    exact (h _ _ hold).set (hfresh _) _
  · rw [if_neg heq]
    rw [List.getElem?_set_ne heq] at hb
    exact (h b head hb).set (hfresh b) _

/-- A hash function that agrees below `count` has the same chains. -/
theorem Indexes.congr {hash hash' : ℕ → ℕ} {count : ℕ} {buckets next : List (Option ℕ)}
    (h : Indexes hash count buckets next) (heq : ∀ i < count, hash i = hash' i) :
    Indexes hash' count buckets next := by
  intro b head hb
  have hsame : newestFirst hash' count b = newestFirst hash count b := by
    unfold newestFirst
    congr 1
    apply List.filter_congr
    intro i hi
    rw [heq i (List.mem_range.mp hi)]
  rw [hsame]
  exact h b head hb

/-! ## Lookup -/

section
variable (matching active : ℕ → Bool)

/-- Follow a chain: to the first match that is active, or through to the last match. -/
def search (newestActive : Bool) (next : List (Option ℕ)) (count : ℕ) :
    ℕ → Option ℕ → Option ℕ → Option ℕ
  | 0, _, oldest => if newestActive then none else oldest
  | _, none, oldest => if newestActive then none else oldest
  | fuel + 1, some c, oldest =>
    if count ≤ c then if newestActive then none else oldest
    else if matching c then
      if newestActive then
        if active c then some c
        else search newestActive next count fuel (next[c]?).join oldest
      else search newestActive next count fuel (next[c]?).join (some c)
    else search newestActive next count fuel (next[c]?).join oldest

variable {matching active}

theorem search_newestActive {next : List (Option ℕ)} {count : ℕ} {head : Option ℕ} {l : List ℕ}
    (h : Chain next head l) (hl : ∀ i ∈ l, i < count) {fuel : ℕ} (hfuel : l.length ≤ fuel)
    (oldest : Option ℕ) :
    search matching active true next count fuel head oldest =
      l.find? fun i => matching i && active i := by
  induction h generalizing fuel with
  | nil => cases fuel <;> rfl
  | @cons i older l hi _ ih =>
    cases fuel with
    | zero => cases hfuel
    | succ fuel =>
      have hlt : ¬count ≤ i := not_le.mpr (hl i List.mem_cons_self)
      have hrest := ih (fun j hj => hl j (List.mem_cons_of_mem i hj)) (Nat.le_of_succ_le_succ hfuel)
      rw [search, if_neg hlt, hi, Option.join_some, List.find?_cons, hrest]
      cases matching i <;> cases active i <;> rfl

theorem search_oldest {next : List (Option ℕ)} {count : ℕ} {head : Option ℕ} {l : List ℕ}
    (h : Chain next head l) (hl : ∀ i ∈ l, i < count) {fuel : ℕ} (hfuel : l.length ≤ fuel)
    (oldest : Option ℕ) :
    search matching active false next count fuel head oldest =
      (l.reverse.find? matching).or oldest := by
  induction h generalizing fuel oldest with
  | nil => cases fuel <;> rfl
  | @cons i older l hi _ ih =>
    cases fuel with
    | zero => cases hfuel
    | succ fuel =>
      have hlt : ¬count ≤ i := not_le.mpr (hl i List.mem_cons_self)
      have hrest := fun oldest => ih (fun j hj => hl j (List.mem_cons_of_mem i hj))
        (Nat.le_of_succ_le_succ hfuel) oldest
      rw [search, if_neg hlt, hi, Option.join_some, List.reverse_cons, List.find?_append]
      cases hm : matching i with
      | true =>
        simp only [if_true, Bool.false_eq_true, if_false, hrest]
        cases l.reverse.find? matching <;> simp [hm]
      | false =>
        simp only [Bool.false_eq_true, if_false, hrest]
        cases l.reverse.find? matching <;> simp [hm]

end

theorem length_newestFirst_le (hash : ℕ → ℕ) (count b : ℕ) : (newestFirst hash count b).length ≤ count := by
  unfold newestFirst
  rw [List.length_reverse]
  exact (List.length_filter_le _ _).trans_eq List.length_range

/-- In the chain of a bucket every position of the bucket is looked at. -/
theorem find?_newestFirst {hash : ℕ → ℕ} {count b : ℕ} {f : ℕ → Bool} (hf : ∀ i, f i = true → hash i = b) :
    (newestFirst hash count b).find? f = (List.range count).reverse.find? f := by
  unfold newestFirst
  rw [← List.filter_reverse, List.find?_filter]
  congr 1
  funext i
  cases h : f i with
  | false => simp
  | true => simp [hf i h]

theorem find?_reverse_newestFirst {hash : ℕ → ℕ} {count b : ℕ} {f : ℕ → Bool}
    (hf : ∀ i, f i = true → hash i = b) :
    (newestFirst hash count b).reverse.find? f = (List.range count).find? f := by
  unfold newestFirst
  rw [List.reverse_reverse, List.find?_filter]
  congr 1
  funext i
  cases h : f i with
  | false => simp
  | true => simp [hf i h]

/-! ## The lowest match -/

/-- A lower position takes the place of the one that is kept. -/
def keepLower (kept : Option ℕ) (i : ℕ) : Option ℕ :=
  match kept with
  | none => some i
  | some j => if i < j then some i else some j

/-- Follow a chain to its end and keep the lowest match. -/
def lowestMatch (matching : ℕ → Bool) (next : List (Option ℕ)) (count : ℕ) :
    ℕ → Option ℕ → Option ℕ → Option ℕ
  | 0, _, kept => kept
  | _, none, kept => kept
  | fuel + 1, some c, kept =>
    if count ≤ c then kept
    else lowestMatch matching next count fuel (next[c]?).join
      (if matching c then keepLower kept c else kept)

/-- `r` is the lowest of some positions, or nothing where there are none. -/
def IsLowest (S : ℕ → Prop) : Option ℕ → Prop
  | none => ∀ i, ¬S i
  | some k => S k ∧ ∀ i, S i → k ≤ i

theorem IsLowest.unique {S : ℕ → Prop} {r r' : Option ℕ} (h : IsLowest S r) (h' : IsLowest S r') :
    r = r' := by
  cases r with
  | none =>
    cases r' with
    | none => rfl
    | some k => exact absurd h'.1 (h k)
  | some k =>
    cases r' with
    | none => exact absurd h.1 (h' k)
    | some k' =>
      have hle : k ≤ k' := h.2 k' h'.1
      have hge : k' ≤ k := h'.2 k h.1
      rw [Nat.le_antisymm hle hge]

theorem IsLowest.congr {S S' : ℕ → Prop} {r : Option ℕ} (h : IsLowest S r) (hiff : ∀ i, S i ↔ S' i) :
    IsLowest S' r := by
  have hsame : S = S' := funext fun i => propext (hiff i)
  exact hsame ▸ h

theorem IsLowest.keepLower {S : ℕ → Prop} {kept : Option ℕ} (h : IsLowest S kept) (c : ℕ) :
    IsLowest (fun i => S i ∨ i = c) (keepLower kept c) := by
  cases kept with
  | none =>
    refine ⟨Or.inr rfl, ?_⟩
    rintro i (hi | rfl)
    · exact absurd hi (h i)
    · exact le_rfl
  | some k =>
    show IsLowest _ (if c < k then some c else some k)
    by_cases hless : c < k
    · rw [if_pos hless]
      refine ⟨Or.inr rfl, ?_⟩
      rintro i (hi | rfl)
      · exact hless.le.trans (h.2 i hi)
      · exact le_rfl
    · rw [if_neg hless]
      refine ⟨Or.inl h.1, ?_⟩
      rintro i (hi | rfl)
      · exact h.2 i hi
      · exact not_lt.mp hless

/-- The end of a chain: the lowest of what was kept and of the chain's matches. -/
theorem Chain.lowestMatch {matching : ℕ → Bool} {next : List (Option ℕ)} {count : ℕ} {head : Option ℕ}
    {l : List ℕ} (h : Chain next head l) (hl : ∀ i ∈ l, i < count) {fuel : ℕ} (hfuel : l.length ≤ fuel)
    {S : ℕ → Prop} {kept : Option ℕ} (hkept : IsLowest S kept) :
    IsLowest (fun i => S i ∨ (i ∈ l ∧ matching i = true))
      (lowestMatch matching next count fuel head kept) := by
  induction h generalizing fuel S kept with
  | nil =>
    have hsame : IsLowest (fun i => S i ∨ (i ∈ ([] : List ℕ) ∧ matching i = true)) kept :=
      hkept.congr fun i => by simp
    cases fuel <;> exact hsame
  | @cons c older l hc _ ih =>
    cases fuel with
    | zero => cases hfuel
    | succ fuel =>
      have hlt : ¬count ≤ c := not_le.mpr (hl c List.mem_cons_self)
      rw [BucketChains.lowestMatch, if_neg hlt, hc, Option.join_some]
      have hrest := fun {S : ℕ → Prop} {kept : Option ℕ} (hkept : IsLowest S kept) =>
        ih (fun j hj => hl j (List.mem_cons_of_mem c hj)) (Nat.le_of_succ_le_succ hfuel) hkept
      by_cases hmatch : matching c = true
      · rw [if_pos hmatch]
        apply (hrest (hkept.keepLower c)).congr
        intro i
        simp only [List.mem_cons]
        constructor
        · rintro ((hi | rfl) | hi)
          · exact Or.inl hi
          · exact Or.inr ⟨Or.inl rfl, hmatch⟩
          · exact Or.inr ⟨Or.inr hi.1, hi.2⟩
        · rintro (hi | ⟨rfl | hi, hm⟩)
          · exact Or.inl (Or.inl hi)
          · exact Or.inl (Or.inr rfl)
          · exact Or.inr ⟨hi, hm⟩
      · rw [if_neg hmatch]
        apply (hrest hkept).congr
        intro i
        simp only [List.mem_cons]
        constructor
        · rintro (hi | hi)
          · exact Or.inl hi
          · exact Or.inr ⟨Or.inr hi.1, hi.2⟩
        · rintro (hi | ⟨rfl | hi, hm⟩)
          · exact Or.inl hi
          · exact absurd hm hmatch
          · exact Or.inr ⟨hi, hm⟩

/-- A scan from the front finds the lowest match. -/
theorem isLowest_findIdx? {α : Type} (f : α → Bool) (l : List α) :
    IsLowest (fun i => ∃ a, l[i]? = some a ∧ f a = true) (l.findIdx? f) := by
  cases hscan : l.findIdx? f with
  | none =>
    rintro i ⟨a, ha, hf⟩
    have hnone := List.findIdx?_eq_none_iff.mp hscan a (List.mem_of_getElem? ha)
    rw [hf] at hnone
    cases hnone
  | some k =>
    obtain ⟨hk, hfk, hbefore⟩ := List.findIdx?_eq_some_iff_getElem.mp hscan
    refine ⟨⟨l[k], List.getElem?_eq_getElem hk, hfk⟩, ?_⟩
    rintro i ⟨a, ha, hf⟩
    by_contra hless
    obtain ⟨hi, rfl⟩ := List.getElem?_eq_some_iff.mp ha
    exact hbefore i (not_le.mp hless) hf

end Repiu.BucketChains
