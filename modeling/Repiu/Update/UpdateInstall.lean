import Repiu.FileMoves
import Repiu.WindowsPath

/-!
# Installing an update

Each staged file is moved over its counterpart in the install folder, which is
first renamed aside. A rename that fails ends the installation, and the renames
made so far are taken back in reverse.
-/

namespace Repiu.Update

open WindowsPath FileMoves

def kOldSuffix : PathName := ".repiu-old".toList
/-- The last name of a path with a suffix. -/
def suffixed (names : List PathName) (suffix : PathName) : List PathName :=
  match names.getLast? with
  | none => [suffix]
  | some last => names.dropLast ++ [last ++ suffix]

def asideName (target : WindowsPath) : WindowsPath := { target with names := suffixed target.names kOldSuffix }

/-- A file below a folder, as an extraction returns it. -/
structure StagedFile where
  parts : List PathName
  ne_nil : parts ≠ []

namespace StagedFile

def relative (f : StagedFile) : WindowsPath := { names := f.parts }

end StagedFile

structure Step where
  target : WindowsPath
  movedAside : Bool := false
  placed : Bool := false

section
variable {κ : Type} (staging install : WindowsPath)

end

/-! ## The paths of a file -/

namespace StagedFile

variable {staging install : WindowsPath}

def target (install : WindowsPath) (f : StagedFile) : WindowsPath := install.append f.relative

def source (staging : WindowsPath) (f : StagedFile) : WindowsPath := staging.append f.relative

def aside (install : WindowsPath) (f : StagedFile) : WindowsPath := asideName (f.target install)

theorem suffixed_getLast {names : List PathName} {last suffix : PathName} (h : names.getLast? = some last) :
    (suffixed names suffix).getLast? = some (last ++ suffix) := by
  rw [suffixed, h]
  exact List.getLast?_concat

theorem getLast_append (f : StagedFile) (folder : WindowsPath) :
    (folder.append f.relative).names.getLast? = f.parts.getLast? := by
  rw [relative, append_names]
  exact List.getLast?_append_of_ne_nil _ f.ne_nil

/-- The aside name is longer than the name of the file. -/
theorem aside_ne (f : StagedFile) (folder : WindowsPath) : f.aside install ≠ folder.append f.relative := by
  intro hsame
  obtain ⟨last, hlast⟩ := Option.ne_none_iff_exists'.mp (List.getLast?_eq_none_iff.not.mpr f.ne_nil)
  have haside : (f.aside install).names.getLast? = some (last ++ kOldSuffix) :=
    suffixed_getLast ((f.getLast_append install).trans hlast)
  rw [hsame, f.getLast_append folder, hlast] at haside
  have hlength := congrArg List.length (Option.some.inj haside)
  have hsuffix : kOldSuffix.length = 10 := by decide
  rw [List.length_append] at hlength
  omega

end StagedFile

section
variable {κ : Type} {staging install : WindowsPath} {fails : ℕ → Failures} {store : Store WindowsPath κ}

namespace SetAside

variable {f : StagedFile} {store' store'' : Store WindowsPath κ} {movedAside : Bool}

end SetAside

/-- No target or aside name of a file is the path of a staged file. -/
def FoldersApart (staging install : WindowsPath) (files : List StagedFile) : Prop :=
  ∀ f ∈ files, ∀ g ∈ files, f.target install ≠ g.source staging ∧ f.aside install ≠ g.source staging

/-- No file is listed twice, and none under the aside name of another. -/
def Distinct (install : WindowsPath) (files : List StagedFile) : Prop :=
  (∀ f ∈ files, ∀ g ∈ files, f.aside install ≠ g.target install) ∧
  files.Pairwise fun f g => f.aside install ≠ g.aside install

/-- The state before the next file when every listed file had a counterpart and no node was deleted yet. -/
structure Busy (staging install : WindowsPath) (files done : List StagedFile) (store : Store WindowsPath κ) : Prop where
  single : Single store
  targets : ∀ f ∈ files, (store (f.target install)).isSome = true
  asides : ∀ f ∈ done, (store (f.aside install)).isSome = true
  sources : ∀ f ∈ files, (∀ g ∈ done, f.aside install ≠ g.aside install) → (store (f.source staging)).isSome = true

/-- Two files of one source have one aside name. -/
theorem StagedFile.aside_eq_of_source {f g : StagedFile} (h : f.source staging = g.source staging) :
    f.aside install = g.aside install := by
  unfold source relative at h
  rw [append_names, append_names] at h
  have hnames : f.parts = g.parts := List.append_cancel_left (congrArg WindowsPath.names h)
  unfold aside target relative
  rw [hnames]

/-- A file whose aside name is free is installed. -/
theorem Busy.next {files done : List StagedFile} (h : Busy staging install files done store)
    (hapart : FoldersApart staging install files) (hdone : ∀ g ∈ done, g ∈ files) {f : StagedFile} (hf : f ∈ files)
    (hfree : store (f.aside install) = none) :
    (move store (f.target install) (f.aside install) (f.source staging)).isSome = true ∧
    Busy staging install files (done ++ [f])
      (move (move store (f.target install) (f.aside install)) (f.source staging) (f.target install)) := by
  have htarget : f.target install ≠ f.source staging := (hapart f hf f hf).1
  have haside : f.aside install ≠ f.source staging := (hapart f hf f hf).2
  have hne : f.aside install ≠ f.target install := f.aside_ne install
  have hnew : ∀ g ∈ done, f.aside install ≠ g.aside install := by
    intro g hg hsame
    have hoccupied := h.asides g hg
    rw [← hsame, hfree] at hoccupied
    cases hoccupied
  have hsource : (move store (f.target install) (f.aside install) (f.source staging)).isSome = true := by
    rw [move_other haside.symm htarget.symm]
    exact h.sources f hf hnew
  -- Only the staged file leaves its place empty.
  have hstay : ∀ p, p ≠ f.source staging → ((store p).isSome = true ∨ p = f.aside install) →
      (move (move store (f.target install) (f.aside install)) (f.source staging) (f.target install) p).isSome = true := by
    intro p hp hoccupied
    by_cases hptarget : p = f.target install
    · rw [hptarget, move_target]
      exact hsource
    · rw [move_other hptarget hp]
      by_cases hpaside : p = f.aside install
      · rw [hpaside, move_target]
        exact h.targets f hf
      · rw [move_other hpaside hptarget]
        exact hoccupied.resolve_right hpaside
  refine ⟨hsource, (h.single.move _ _).move _ _, ?_, ?_, ?_⟩
  · intro g hg
    exact hstay _ (hapart g hg f hf).1 (.inl (h.targets g hg))
  · rw [List.forall_mem_append]
    refine ⟨?_, ?_⟩
    · intro g hg
      exact hstay _ (hapart g (hdone g hg) f hf).2 (.inl (h.asides g hg))
    · rw [List.forall_mem_singleton]
      exact hstay _ haside (.inr rfl)
  · intro g hg hother
    rw [List.forall_mem_append] at hother
    refine hstay _ ?_ (.inl (h.sources g hg hother.1))
    intro hsame
    exact hother.2 f (List.mem_singleton_self f) (StagedFile.aside_eq_of_source hsame)

end

section
variable {κ : Type} {staging install : WindowsPath} {writeLeftovers : Option κ → List WindowsPath → Option κ}
  {fails : ℕ → Failures} {store : Store WindowsPath κ} {files : List StagedFile}

end

end Repiu.Update
