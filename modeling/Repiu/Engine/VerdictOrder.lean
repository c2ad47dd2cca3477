import Repiu.Engine.VerifiedRegions
import Mathlib.Data.List.Chain

/-!
# The order of verdicts

What a verdict of the analyzer is apart from its cache: a function is verified when its own code
is and all the functions it calls are. As long as no query comes to the depth limit, the cache
holds nothing else.
-/

namespace Repiu.Engine

open Repiu.Runtime Repiu.X86

namespace VerifiedRegion

/-! ## The verdict without a cache -/

/-- Where the search of a function goes on, once a callee is verified. -/
def Visit.continuations : Visit → List Word
  | .fails | .returns => []
  | .calls _ next => [next]
  | .goesOn successors => successors

/-- The code that the search of a function can come to. -/
def Follows (g : Guest) (range : RuntimeRange) : Word → Word → Prop :=
  Relation.ReflTransGen fun a b => b ∈ (visit g range a).continuations

/-- A direct call in the code of a function. -/
def Calls (g : Guest) (range : RuntimeRange) (entry target : Word) : Prop :=
  ∃ a next, Follows g range entry a ∧ visit g range a = .calls target next

/-- The search of a function when every callee is accepted. -/
def acceptsBody (g : Guest) (range : RuntimeRange) (entry : Word) : Bool :=
  (search g range (fun _ s => (true, s)) entry kMaxInstructions [entry] [] false {}).1

/-- A function is verified by its own code and by its callees. -/
inductive Verified (g : Guest) (range : RuntimeRange) : Word → Prop
  | intro {entry : Word} (inRange : isRuntimeRange entry 1 range = true)
      (body : acceptsBody g range entry = true)
      (callees : ∀ target, Calls g range entry target → Verified g range target) :
      Verified g range entry

section
variable {g : Guest} {range : RuntimeRange}

theorem Verified.acceptsBody {entry : Word} (h : Verified g range entry) :
    acceptsBody g range entry = true := by
  cases h with
  | intro _ body _ => exact body

/-- The cache during a query that began with the cache `start`: its verdicts are right, the
functions on `path` are in progress, and nothing is forgotten. -/
structure Settled (g : Guest) (range : RuntimeRange) (start : Analysis) (path : List Word)
    (s : Analysis) : Prop where
  verified : ∀ e, s.cache e = some .verified → Verified g range e
  rejected : ∀ e, s.cache e = some .rejected → ¬Verified g range e
  inProgress : ∀ e, s.cache e = some .inProgress ↔ e ∈ path
  kept : ∀ e, s.cache e = none → start.cache e = none

namespace Settled

variable {start s : Analysis} {path : List Word} {entry : Word}

/-- A function is done with. -/
theorem ends (h : Settled g range start (entry :: path) s) (hentry : entry ∉ path) {verdict : Bool}
    (hverdict : verdict = true ↔ Verified g range entry) :
    Settled g range start path (s.note entry (if verdict then .verified else .rejected)) := by
  have hother : ∀ e ≠ entry,
      (s.note entry (if verdict then .verified else .rejected)).cache e = s.cache e :=
    fun e he => Function.update_of_ne he _ _
  have hself : (s.note entry (if verdict then .verified else .rejected)).cache entry =
      some (if verdict then .verified else .rejected) := Function.update_self _ _ _
  constructor
  · intro e hv
    by_cases he : e = entry
    · rw [he, hself] at hv
      subst he
      apply hverdict.mp
      by_contra hbad
      simp [hbad] at hv
    · rw [hother e he] at hv
      exact h.verified e hv
  · intro e hv
    by_cases he : e = entry
    · rw [he, hself] at hv
      subst he
      rw [← hverdict]
      intro hbad
      simp [hbad] at hv
    · rw [hother e he] at hv
      exact h.rejected e hv
  · intro e
    by_cases he : e = entry
    · rw [he, hself]
      by_cases hv : verdict = true <;> simp [hv, hentry]
    · rw [hother e he, h.inProgress e, List.mem_cons, or_iff_right he]
  · intro e hv
    by_cases he : e = entry
    · rw [he, hself] at hv
      cases hv
    · rw [hother e he] at hv
      exact h.kept e hv

/-- The failure does not concern the cache. -/
theorem recordFailure (h : Settled g range start path s) (address : Word) :
    Settled g range start path (s.recordFailure g address) :=
  ⟨h.verified, h.rejected, h.inProgress, h.kept⟩

end Settled

/-! ## The search -/

/-- The search of a function has been through `visited` and has still to go through `pending`;
the functions called so far are verified. -/
structure Explored (g : Guest) (range : RuntimeRange) (entry : Word) (visited pending : List Word) :
    Prop where
  entry_mem : entry ∈ visited ∨ entry ∈ pending
  follows : ∀ a ∈ pending, Follows g range entry a
  closed : ∀ a ∈ visited, ∀ b ∈ (visit g range a).continuations, b ∈ visited ∨ b ∈ pending
  callees : ∀ a ∈ visited, ∀ target next, visit g range a = .calls target next →
    Verified g range target

namespace Explored

variable {entry : Word} {visited pending : List Word}

/-- One more address is visited. -/
theorem next (h : Explored g range entry visited pending) {a : Word} {rest : List Word}
    (hpop : popUnvisited visited pending = some (a, rest)) (hfollows : Follows g range entry a)
    (hrest : ∀ b ∈ rest, b ∈ pending)
    (hcallee : ∀ target next, visit g range a = .calls target next → Verified g range target) :
    Explored g range entry (a :: visited) ((visit g range a).continuations ++ rest) := by
  have hkept := popUnvisited_some hpop
  constructor
  · rcases h.entry_mem with hin | hin
    · exact .inl (List.mem_cons_of_mem _ hin)
    · exact (hkept entry hin).imp_right (List.mem_append_right _)
  · intro b hb
    rcases List.mem_append.mp hb with hb | hb
    · exact hfollows.tail hb
    · exact h.follows b (hrest b hb)
  · intro v hv b hb
    rcases List.mem_cons.mp hv with rfl | hv
    · exact .inr (List.mem_append_left _ hb)
    · rcases h.closed v hv b hb with hin | hin
      · exact .inl (List.mem_cons_of_mem _ hin)
      · exact (hkept b hin).imp_right (List.mem_append_right _)
  · exact List.forall_mem_cons.mpr ⟨hcallee, h.callees⟩

end Explored

namespace CallPath

variable {start : Analysis} {query entry : Word} {path : List Word}

end CallPath

end

/-! ## Samples -/

end VerifiedRegion

end Repiu.Engine
