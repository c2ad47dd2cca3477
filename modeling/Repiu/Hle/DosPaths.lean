import Repiu.Hle.DosFileSystem

/-!
# Guest paths and the host root

A guest path is split at its separators only, so that a part can still name a
drive. Where no part does, the host path lies inside the host root, after any
changes of the current directory.
-/

namespace Repiu.Hle

open Repiu WindowsPath

/-- A part that names no drive, or the drive of the root without leading upwards from there. -/
def Contained (root : WindowsPath) (part : PathName) : Prop :=
  ∀ drive rest, drive? (toUpperAscii part) = some (drive, rest) → drive = root.rootName ∧ rest ≠ ['.', '.']

instance (root : WindowsPath) (part : PathName) : Decidable (Contained root part) :=
  decidable_of_iff (∀ d ∈ drive? (toUpperAscii part), d.1 = root.rootName ∧ d.2 ≠ ['.', '.'])
    ⟨fun h drive rest hd => h (drive, rest) hd, fun h d hd => h d.1 d.2 hd⟩

/-- A component that leads downwards from the root. -/
structure Below (root : WindowsPath) (component : PathName) : Prop where
  descends : Descends component
  drive : ∀ drive rest, drive? component = some (drive, rest) → drive = root.rootName ∧ rest ≠ ['.', '.']

theorem toUpper_eq_dot {c : Char} (h : c.toUpper = '.') : c = '.' := by
  unfold Char.toUpper at h
  split at h
  case isTrue hlower =>
    -- a lower-case letter becomes a letter
    have hval : (c.val + ('A'.val - 'a'.val)).toNat = '.'.val.toNat := congrArg (fun ch => ch.val.toNat) h
    have hlow := UInt32.le_iff_toNat_le.mp hlower.1
    have hhigh := UInt32.le_iff_toNat_le.mp hlower.2
    have hshift : ('A'.val - 'a'.val).toNat = 2 ^ 32 - 32 := by decide
    have ha : 'a'.val.toNat = 97 := by decide
    have hz : 'z'.val.toNat = 122 := by decide
    have hdot : '.'.val.toNat = 46 := by decide
    rw [UInt32.toNat_add, hshift, hdot] at hval
    omega
  case isFalse => exact h

theorem toUpperAscii_descends {part : PathName} (h : part ≠ ['.', '.']) : Descends (toUpperAscii part) := by
  intro hdots
  apply h
  rw [toUpperAscii, List.map_eq_cons_iff] at hdots
  obtain ⟨a, tail, rfl, ha, htail⟩ := hdots
  obtain ⟨b, rest, rfl, hb, hrest⟩ := List.map_eq_cons_iff.mp htail
  rw [toUpper_eq_dot ha, toUpper_eq_dot hb, List.map_eq_nil_iff.mp hrest]

/-! ## The components of a path -/

theorem pushPart_below {root : WindowsPath} {components components' : List PathName} {part : PathName}
    (h : ∀ c ∈ components, Below root c) (hpart : Contained root part)
    (hpush : pushPart components part = some components') : ∀ c ∈ components', Below root c := by
  unfold pushPart at hpush
  split_ifs at hpush with hdot hdots hempty
  · rwa [← Option.some.inj hpush]
  · rw [← Option.some.inj hpush]
    exact fun c hc => h c (List.dropLast_subset _ hc)
  · rw [← Option.some.inj hpush]
    intro c hc
    rcases List.mem_append.mp hc with hc | hc
    · exact h c hc
    · rw [List.mem_singleton.mp hc]
      exact ⟨toUpperAscii_descends hdots, hpart⟩

theorem foldlM_pushPart_below {root : WindowsPath} {parts : List PathName} {components components' : List PathName}
    (h : ∀ c ∈ components, Below root c) (hparts : ∀ part ∈ parts, Contained root part)
    (hpush : parts.foldlM pushPart components = some components') : ∀ c ∈ components', Below root c := by
  induction parts generalizing components with
  | nil => rwa [← Option.some.inj hpush]
  | cons part parts ih =>
    rw [List.forall_mem_cons] at hparts
    rw [List.foldlM_cons, Option.bind_eq_bind, Option.bind_eq_some_iff] at hpush
    obtain ⟨next, hnext, hrest⟩ := hpush
    exact ih (pushPart_below h hparts.1 hnext) hparts.2 hrest

/-- What a path resolves to. -/
theorem resolveGuestPath_ok {s : DosVirtualFileSystemState} {guestPath : List Char}
    (h : (resolveGuestPath s guestPath).1.result = .ok) :
    ∃ start, (start = [] ∨ start = s.currentComponents) ∧
      (pathParts guestPath).foldlM pushPart start = some (resolveGuestPath s guestPath).2 ∧
      (resolveGuestPath s guestPath).1.hostPath = hostPathOf s.hostRoot (resolveGuestPath s guestPath).2 := by
  unfold resolveGuestPath at h ⊢
  by_cases hvalid : (!s.valid) = true
  · rw [if_pos hvalid] at h
    cases h
  rw [if_neg hvalid] at h ⊢
  by_cases hempty : guestPath = []
  · rw [if_pos hempty] at h
    cases h
  rw [if_neg hempty] at h ⊢
  simp only at h ⊢
  cases hfold : (pathParts guestPath).foldlM pushPart
      (if (pathStart (normalizeSeparators guestPath)).1 then [] else s.currentComponents) with
  | none =>
    rw [hfold] at h
    cases h
  | some components =>
    refine ⟨_, ?_, hfold, rfl⟩
    split
    · exact .inl rfl
    · exact .inr rfl

theorem resolveGuestPath_below {root : WindowsPath} {s : DosVirtualFileSystemState} {guestPath : List Char}
    (hcurrent : ∀ c ∈ s.currentComponents, Below root c) (hparts : ∀ part ∈ pathParts guestPath, Contained root part)
    (h : (resolveGuestPath s guestPath).1.result = .ok) :
    ∀ c ∈ (resolveGuestPath s guestPath).2, Below root c := by
  obtain ⟨start, hstart, hfold, -⟩ := resolveGuestPath_ok h
  refine foldlM_pushPart_below ?_ hparts hfold
  rcases hstart with rfl | rfl
  · simp
  · exact hcurrent

/-! ## The host path of components -/

/-- Components that lead downwards only add names behind the root. -/
theorem foldl_append_below {root path : WindowsPath} {components : List PathName}
    (hpath : path.rootName = root.rootName) (h : ∀ c ∈ components, Below root c) :
    components.foldl (fun p c => p.append (.ofName c)) path =
      { path with names := path.names ++ components.flatMap fun c => (ofName c).names } := by
  induction components generalizing path with
  | nil => simp
  | cons c components ih =>
    rw [List.forall_mem_cons] at h
    have hname : ¬((ofName c).rootName ≠ [] ∧ (ofName c).rootName ≠ path.rootName) := by
      rintro ⟨hsome, hother⟩
      cases hdrive : drive? c with
      | none =>
        rw [ofName_of_no_drive hdrive] at hsome
        exact hsome rfl
      | some d =>
        rw [ofName_of_drive hdrive] at hother
        exact hother ((h.1.drive d.1 d.2 hdrive).1.trans hpath.symm)
    have hrest := @ih { path with names := path.names ++ (ofName c).names } hpath h.2
    rw [List.foldl_cons, append_ofName, if_neg hname, hrest, List.flatMap_cons, List.append_assoc]

theorem ofName_descends {root : WindowsPath} {c : PathName} (h : Below root c) :
    ∀ name ∈ (ofName c).names, Descends name := by
  intro name hname
  cases hdrive : drive? c with
  | none =>
    rw [ofName_of_no_drive hdrive, List.mem_ite_nil_left, List.mem_singleton] at hname
    rw [hname.2]
    exact h.descends
  | some d =>
    rw [ofName_of_drive hdrive, List.mem_ite_nil_left, List.mem_singleton] at hname
    rw [hname.2]
    exact (h.drive d.1 d.2 hdrive).2

theorem hostPathOf_inside {root : WindowsPath} (hroot : root.lexicallyNormal = root) {components : List PathName}
    (h : ∀ c ∈ components, Below root c) : Inside root (hostPathOf root components) := by
  rw [hostPathOf, foldl_append_below rfl h]
  apply inside_lexicallyNormal hroot
  intro name hname
  obtain ⟨c, hc, hname⟩ := List.mem_flatMap.mp hname
  exact ofName_descends (h c hc) name hname

/-- The root directory is lost at a component on another drive, and no later one brings it back. -/
theorem foldl_append_lost {root : WindowsPath} {components : List PathName} {path : WindowsPath}
    (hpath : path.rootDirectory = false ∨ (path.rootName = root.rootName ∧
      ∃ c ∈ components, ∃ drive rest, drive? c = some (drive, rest) ∧ drive ≠ root.rootName)) :
    (components.foldl (fun p c => p.append (.ofName c)) path).rootDirectory = false := by
  induction components generalizing path with
  | nil =>
    rcases hpath with hpath | ⟨-, c, hc, -⟩
    · exact hpath
    · cases hc
  | cons c components ih =>
    rw [List.foldl_cons]
    apply ih
    rcases append_ofName_root path c with hlost | ⟨hname, hdirectory⟩
    · exact .inl hlost
    rcases hpath with hpath | ⟨hpath, c', hc', drive, rest, hdrive, hother⟩
    · exact .inl (hdirectory.trans hpath)
    rcases List.mem_cons.mp hc' with rfl | hc'
    · exact .inl (append_other_drive hdrive (hpath ▸ hother))
    · exact .inr ⟨hname.trans hpath, c', hc', drive, rest, hdrive, hother⟩

/-- A component on another drive leads outside. -/
theorem hostPathOf_outside {root : WindowsPath} (hroot : root.rootDirectory = true) {components : List PathName}
    {c drive rest : PathName} (hc : c ∈ components) (hdrive : drive? c = some (drive, rest))
    (hother : drive ≠ root.rootName) : ¬Inside root (hostPathOf root components) := by
  rintro ⟨-, hdirectory, -⟩
  have hlost : (hostPathOf root components).rootDirectory = false :=
    foldl_append_lost (.inr ⟨rfl, c, hc, drive, rest, hdrive, hother⟩)
  rw [hlost, hroot] at hdirectory
  cases hdirectory

/-! ## Runs of directory changes -/

/-- The state after changes of the current directory. -/
def afterChanges (host : HostFiles) (s : DosVirtualFileSystemState) (changes : List (List Char)) :
    DosVirtualFileSystemState :=
  changes.foldl (fun s guestPath => (changeDosCurrentDirectory host s guestPath).1) s

theorem afterChanges_hostRoot (host : HostFiles) (s : DosVirtualFileSystemState) (changes : List (List Char)) :
    (afterChanges host s changes).hostRoot = s.hostRoot := by
  induction changes generalizing s with
  | nil => rfl
  | cons p changes ih =>
    refine (ih _).trans ?_
    unfold changeDosCurrentDirectory
    simp only
    split
    · rfl
    · split <;> rfl

theorem changeDosCurrentDirectory_below {host : HostFiles} {root : WindowsPath} {s : DosVirtualFileSystemState}
    {guestPath : List Char} (hcurrent : ∀ c ∈ s.currentComponents, Below root c)
    (hparts : ∀ part ∈ pathParts guestPath, Contained root part) :
    ∀ c ∈ (changeDosCurrentDirectory host s guestPath).1.currentComponents, Below root c := by
  unfold changeDosCurrentDirectory
  simp only
  split
  · exact hcurrent
  · next hok =>
    split
    · exact hcurrent
    · exact resolveGuestPath_below hcurrent hparts (not_not.mp hok)

theorem afterChanges_below {host : HostFiles} {root : WindowsPath} {s : DosVirtualFileSystemState}
    {changes : List (List Char)} (hcurrent : ∀ c ∈ s.currentComponents, Below root c)
    (hparts : ∀ p ∈ changes, ∀ part ∈ pathParts p, Contained root part) :
    ∀ c ∈ (afterChanges host s changes).currentComponents, Below root c := by
  induction changes generalizing s with
  | nil => exact hcurrent
  | cons p changes ih =>
    rw [List.forall_mem_cons] at hparts
    exact ih (changeDosCurrentDirectory_below hcurrent hparts.1) hparts.2

/-- After any changes of directory, a path without foreign drives resolves inside the root; and a
component on another drive never does. -/
theorem resolveGuestPath_inside {host : HostFiles} {s : DosVirtualFileSystemState}
    (hroot : s.hostRoot.lexicallyNormal = s.hostRoot) (hdirectory : s.hostRoot.rootDirectory = true)
    (hcurrent : ∀ c ∈ s.currentComponents, Below s.hostRoot c) (changes : List (List Char))
    (guestPath : List Char) (hok : (resolveGuestPath (afterChanges host s changes) guestPath).1.result = .ok) :
    ((∀ p ∈ guestPath :: changes, ∀ part ∈ pathParts p, Contained s.hostRoot part) →
      Inside s.hostRoot (resolveGuestPath (afterChanges host s changes) guestPath).1.hostPath) ∧
    ((∃ c ∈ (resolveGuestPath (afterChanges host s changes) guestPath).2, ∃ drive rest,
        drive? c = some (drive, rest) ∧ drive ≠ s.hostRoot.rootName) →
      ¬Inside s.hostRoot (resolveGuestPath (afterChanges host s changes) guestPath).1.hostPath) := by
  obtain ⟨-, -, -, hpath⟩ := resolveGuestPath_ok hok
  rw [hpath, afterChanges_hostRoot]
  constructor
  · intro hparts
    rw [List.forall_mem_cons] at hparts
    exact hostPathOf_inside hroot (resolveGuestPath_below (afterChanges_below hcurrent hparts.2) hparts.1 hok)
  · rintro ⟨c, hc, drive, rest, hdrive, hother⟩
    exact hostPathOf_outside hdirectory hc hdrive hother

/-- A guest below `C:\GAMES`. -/
def gamesState : DosVirtualFileSystemState :=
  { valid := true, hostRoot := { rootName := "C:".toList, rootDirectory := true, names := ["GAMES".toList] } }

/-- Every path is a directory. -/
def directoriesOnly : HostFiles := fun _ => .directory

/-- `cd data`, then `..\readme.txt`. -/
theorem resolveGuestPath_inside_games :
    Inside gamesState.hostRoot
      (resolveGuestPath (afterChanges directoriesOnly gamesState ["data".toList]) "../readme.txt".toList).1.hostPath :=
  (resolveGuestPath_inside (by decide) rfl (by simp [gamesState]) ["data".toList] "../readme.txt".toList
    (by decide)).1 (by decide)

/-- A part that names a drive leaves the root. -/
theorem resolveGuestPath_leaves_root :
    (resolveGuestPath gamesState "x/d:windows".toList).1.result = .ok ∧
    ¬Inside gamesState.hostRoot (resolveGuestPath gamesState "x/d:windows".toList).1.hostPath := by
  decide

end Repiu.Hle
