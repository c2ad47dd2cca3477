import Mathlib.Data.List.Basic

/-!
# Windows paths

Paths with a root name (a drive, or a server), a root directory and names below
it, with the append and the lexical normal form of the C++ standard library on
Windows. A trailing separator names nothing and is left out.
-/

namespace Repiu

/-- A name between two separators. -/
abbrev PathName := List Char

structure WindowsPath where
  /-- `C:` or a server; empty where there is none. -/
  rootName : PathName := []
  rootDirectory : Bool := false
  names : List PathName := []
deriving DecidableEq

namespace WindowsPath

/-- A drive letter with its colon, and what stands behind it. -/
def drive? : PathName → Option (PathName × PathName)
  | c :: ':' :: rest => if c.isAlpha then some ([c, ':'], rest) else none
  | _ => none

/-- The path that a text without separators stands for. -/
def ofName (text : PathName) : WindowsPath :=
  match drive? text with
  | some (drive, rest) => { rootName := drive, names := if rest = [] then [] else [rest] }
  | none => { names := if text = [] then [] else [text] }

def isAbsolute (p : WindowsPath) : Bool := p.rootName ≠ [] && p.rootDirectory

/-- `p / q`: an absolute path, or one with another root name, replaces the left side. -/
def append (p q : WindowsPath) : WindowsPath :=
  if q.isAbsolute || (q.rootName ≠ [] && q.rootName ≠ p.rootName) then q
  else if q.rootDirectory then { p with rootDirectory := true, names := q.names }
  else { p with names := p.names ++ q.names }

/-- One name of the lexical normal form: dots go, and a double dot takes the name before it. -/
def normalStep (rooted : Bool) (names : List PathName) (name : PathName) : List PathName :=
  if name = ['.'] then names
  else if name = ['.', '.'] then
    match names.getLast? with
    | none => if rooted then [] else [name]
    | some last => if last = ['.', '.'] then names ++ [name] else names.dropLast
  else names ++ [name]

def lexicallyNormal (p : WindowsPath) : WindowsPath :=
  { p with names := p.names.foldl (normalStep p.rootDirectory) [] }

/-- `p` lies at or below `root`. -/
def Inside (root p : WindowsPath) : Prop :=
  p.rootName = root.rootName ∧ p.rootDirectory = root.rootDirectory ∧ root.names <+: p.names

instance (root p : WindowsPath) : Decidable (Inside root p) := inferInstanceAs (Decidable (_ ∧ _ ∧ _))

/-- A name that does not lead upwards. -/
def Descends (name : PathName) : Prop := name ≠ ['.', '.']

theorem le_normalStep {rooted : Bool} {names : List PathName} {name : PathName} (h : Descends name) :
    names <+: normalStep rooted names name := by
  unfold normalStep
  split
  · exact List.prefix_refl _
  · exact if_neg h ▸ List.prefix_append _ _

/-- Names that do not lead upwards stay below what stands before them. -/
theorem le_foldl_normalStep {rooted : Bool} {names : List PathName} {l : List PathName}
    (h : ∀ name ∈ l, Descends name) : names <+: l.foldl (normalStep rooted) names := by
  induction l generalizing names with
  | nil => exact List.prefix_refl _
  | cons name l ih =>
    rw [List.forall_mem_cons] at h
    exact (le_normalStep h.1).trans (ih h.2)

/-- The normal form of `root` followed by names that do not lead upwards lies inside a normal `root`. -/
theorem inside_lexicallyNormal {root : WindowsPath} (hroot : root.lexicallyNormal = root) {l : List PathName}
    (h : ∀ name ∈ l, Descends name) : Inside root { root with names := root.names ++ l }.lexicallyNormal := by
  refine ⟨rfl, rfl, ?_⟩
  show root.names <+: (root.names ++ l).foldl (normalStep root.rootDirectory) []
  rw [List.foldl_append]
  have hnames : root.names.foldl (normalStep root.rootDirectory) [] = root.names :=
    congrArg WindowsPath.names hroot
  rw [hnames]
  exact le_foldl_normalStep h

theorem ofName_of_drive {text drive rest : PathName} (h : drive? text = some (drive, rest)) :
    ofName text = { rootName := drive, names := if rest = [] then [] else [rest] } := by
  rw [ofName, h]

theorem ofName_of_no_drive {text : PathName} (h : drive? text = none) :
    ofName text = { names := if text = [] then [] else [text] } := by
  rw [ofName, h]

theorem drive_ne_nil {text drive rest : PathName} (h : drive? text = some (drive, rest)) : drive ≠ [] := by
  unfold drive? at h
  split at h
  · rw [Option.ite_none_right_eq_some] at h
    rw [← (Prod.mk.inj (Option.some.inj h.2)).1]
    exact List.cons_ne_nil _ _
  · cases h

theorem ofName_rootDirectory (text : PathName) : (ofName text).rootDirectory = false := by
  unfold ofName
  split <;> rfl

/-- A text without separators is either a relative path or lies on another drive. -/
theorem append_ofName (p : WindowsPath) (text : PathName) :
    p.append (ofName text) =
      if (ofName text).rootName ≠ [] ∧ (ofName text).rootName ≠ p.rootName then ofName text
      else { p with names := p.names ++ (ofName text).names } := by
  unfold append
  have habsolute : (ofName text).isAbsolute = false := by
    rw [isAbsolute, ofName_rootDirectory, Bool.and_false]
  rw [habsolute, ofName_rootDirectory]
  by_cases hother : (ofName text).rootName ≠ [] ∧ (ofName text).rootName ≠ p.rootName
  · rw [if_pos hother]
    simp [hother.1, hother.2]
  · rw [if_neg hother]
    rw [if_neg, if_neg]
    · decide
    · simpa using hother

/-- A text on another drive loses the root directory. -/
theorem append_other_drive {p : WindowsPath} {text drive rest : PathName} (h : drive? text = some (drive, rest))
    (hother : drive ≠ p.rootName) : (p.append (ofName text)).rootDirectory = false := by
  have hname : (ofName text).rootName = drive := by rw [ofName_of_drive h]
  rw [append_ofName, if_pos ⟨hname ▸ drive_ne_nil h, hname ▸ hother⟩]
  exact ofName_rootDirectory text

/-- A text without separators keeps the root name, or loses the root directory. -/
theorem append_ofName_root (p : WindowsPath) (text : PathName) :
    (p.append (ofName text)).rootDirectory = false ∨
      ((p.append (ofName text)).rootName = p.rootName ∧
        (p.append (ofName text)).rootDirectory = p.rootDirectory) := by
  rw [append_ofName]
  split
  · exact .inl (ofName_rootDirectory text)
  · exact .inr ⟨rfl, rfl⟩

/-- A path without a root adds its names. -/
theorem append_names (p : WindowsPath) (l : List PathName) : p.append { names := l } = { p with names := p.names ++ l } := by
  unfold append isAbsolute
  simp

end WindowsPath

end Repiu
