import Repiu.ByteMemory
import Repiu.WindowsPath

/-!
# Release archives

The files of a release archive, as its reader returns them, are written below a
staging folder. Names are made safe before anything is written; the paths are
built from their components afterwards, with the rules of the host.
-/

namespace Repiu.Update

open WindowsPath

structure ArchiveEntry where
  name : PathName
  data : List Byte
  executable : Bool

/-- The hosts differ in what a component may stand for. A path of the other host has no root name. -/
inductive Host where
  | windows
  | posix
deriving DecidableEq

/-- The path of one component. -/
def Host.path : Host → PathName → WindowsPath
  | .windows, part => .ofName part
  | .posix, part => { names := [part] }

/-- A component ends: a double dot fails, and nothing and a dot are dropped. -/
def endComponent (current : PathName) (parts : List PathName) : Option (List PathName) :=
  if current = ['.', '.'] then none
  else if current ≠ [] ∧ current ≠ ['.'] then some (parts ++ [current])
  else some parts

def splitComponents (current : PathName) (parts : List PathName) : List Char → Option (List PathName)
  | [] => endComponent current parts
  | character :: rest =>
    if character = '/' ∨ character = '\\' then
      match endComponent current parts with
      | none => none
      | some parts => splitComponents [] parts rest
    else if character.toNat < 0x20 then none
    else splitComponents (current ++ [character]) parts rest

def safeComponents (name : PathName) : Option (List PathName) :=
  if name = [] ∨ name.head? = some '/' ∨ name.head? = some '\\' ∨ name[1]? = some ':' then none
  else splitComponents [] [] name

inductive ArchiveError where
  | reader (text : String)
  | noFiles
  | unsafePath (name : PathName)
  | stagingExists (staging : WindowsPath)
  | cannotWrite (target : WindowsPath)

/-- The components of every name, or the first name that is refused. -/
def allComponents : List ArchiveEntry → Except ArchiveError (List (List PathName))
  | [] => .ok []
  | entry :: entries =>
    match safeComponents entry.name with
    | none => .error (.unsafePath entry.name)
    | some parts =>
      if parts = [] then .error (.unsafePath entry.name)
      else
        match allComponents entries with
        | .error e => .error e
        | .ok rest => .ok (parts :: rest)

/-- One shared top folder, with every file below it, is stripped. -/
def stripsTop (components : List (List PathName)) : Bool :=
  components.all fun parts => decide (2 ≤ parts.length ∧ parts.head? = components.head?.bind List.head?)

/-- The components that a path is built from. -/
def keptParts (strip : Bool) (parts : List PathName) : List PathName := parts.drop (if strip then 1 else 0)

def relativePath (host : Host) (parts : List PathName) : WindowsPath :=
  parts.foldl (fun path part => path.append (host.path part)) {}

structure WrittenFile where
  target : WindowsPath
  data : List Byte
  executable : Bool

/-- What an extraction has written, the list it returns, and its error. -/
structure Extraction where
  written : List WrittenFile
  files : List WindowsPath
  error : Option ArchiveError

/-- The files are written in order until one cannot be. -/
def writeEntries (host : Host) (staging : WindowsPath) (writable : WindowsPath → Bool) (strip : Bool) :
    List (ArchiveEntry × List PathName) → Extraction
  | [] => ⟨[], [], none⟩
  | (entry, parts) :: rest =>
    let relative := relativePath host (keptParts strip parts)
    let target := staging.append relative
    let file : WrittenFile := ⟨target, entry.data, entry.executable⟩
    if writable target then
      let later := writeEntries host staging writable strip rest
      ⟨file :: later.written, relative :: later.files, later.error⟩
    else ⟨[file], [], some (.cannotWrite target)⟩

/-- `entries` is what the reader of the format returns. -/
def extractReleaseArchive (host : Host) (entries : Except String (List ArchiveEntry)) (staging : WindowsPath)
    (stagingExists : Bool) (writable : WindowsPath → Bool) : Extraction :=
  match entries with
  | .error text => ⟨[], [], some (.reader text)⟩
  | .ok entries =>
    if entries = [] then ⟨[], [], some .noFiles⟩
    else
      match allComponents entries with
      | .error e => ⟨[], [], some e⟩
      | .ok components =>
        if stagingExists then ⟨[], [], some (.stagingExists staging)⟩
        else writeEntries host staging writable (stripsTop components) (entries.zip components)

/-! ## Components -/

/-- A component that names something below. -/
structure Names (part : PathName) : Prop where
  ne_nil : part ≠ []
  ne_dot : part ≠ ['.']
  ne_up : part ≠ ['.', '.']

theorem endComponent_names {current : PathName} {parts parts' : List PathName} (h : endComponent current parts = some parts')
    (hparts : ∀ part ∈ parts, Names part) : ∀ part ∈ parts', Names part := by
  unfold endComponent at h
  split at h
  case isTrue => cases h
  case isFalse hup =>
    split at h
    case isTrue hsome =>
      cases h
      rw [List.forall_mem_append]
      refine ⟨hparts, ?_⟩
      rw [List.forall_mem_singleton]
      exact ⟨hsome.1, hsome.2, hup⟩
    case isFalse =>
      cases h
      exact hparts

theorem splitComponents_names {name current : PathName} {parts parts' : List PathName}
    (h : splitComponents current parts name = some parts') (hparts : ∀ part ∈ parts, Names part) :
    ∀ part ∈ parts', Names part := by
  induction name generalizing current parts with
  | nil => exact endComponent_names h hparts
  | cons character rest ih =>
    simp only [splitComponents] at h
    split at h
    case isTrue =>
      split at h
      case h_1 => cases h
      case h_2 parts'' hend => exact ih h (endComponent_names hend hparts)
    case isFalse =>
      split at h
      case isTrue => cases h
      case isFalse => exact ih h hparts

theorem safeComponents_names {name : PathName} {parts : List PathName} (h : safeComponents name = some parts) :
    ∀ part ∈ parts, Names part := by
  unfold safeComponents at h
  split at h
  · cases h
  · exact splitComponents_names h (by simp)

theorem allComponents_names {entries : List ArchiveEntry} {components : List (List PathName)}
    (h : allComponents entries = .ok components) :
    entries.length = components.length ∧ ∀ parts ∈ components, parts ≠ [] ∧ ∀ part ∈ parts, Names part := by
  induction entries generalizing components with
  | nil =>
    cases h
    simp
  | cons entry entries ih =>
    simp only [allComponents] at h
    split at h
    case h_1 => cases h
    case h_2 parts hparts =>
      split at h
      case isTrue => cases h
      case isFalse hsome =>
        split at h
        case h_1 => cases h
        case h_2 rest hrest =>
          cases h
          obtain ⟨hlength, hall⟩ := ih hrest
          rw [List.forall_mem_cons]
          exact ⟨congrArg (· + 1) hlength, ⟨hsome, safeComponents_names hparts⟩, hall⟩

/-- A name that is refused fails the list. -/
theorem allComponents_refused {entries : List ArchiveEntry} {entry : ArchiveEntry} (hentry : entry ∈ entries)
    (h : safeComponents entry.name = none ∨ safeComponents entry.name = some []) :
    ∃ e, allComponents entries = .error e := by
  induction entries with
  | nil => cases hentry
  | cons first entries ih =>
    simp only [allComponents]
    cases hentry with
    | head =>
      obtain hnone | hempty := h
      · rw [hnone]
        exact ⟨_, rfl⟩
      · rw [hempty]
        exact ⟨_, if_pos rfl⟩
    | tail _ hmem =>
      obtain ⟨e, he⟩ := ih hmem
      rw [he]
      split
      · exact ⟨_, rfl⟩
      · split
        · exact ⟨_, rfl⟩
        · exact ⟨_, rfl⟩

/-! ## Where the files lie -/

/-- `p` lies below `root`, both in their normal forms. -/
def StrictlyInside (root p : WindowsPath) : Prop :=
  Inside root.lexicallyNormal p.lexicallyNormal ∧ p.lexicallyNormal.names ≠ root.lexicallyNormal.names

/-- The component has a root name of its own on the host. -/
def Rooted (host : Host) (part : PathName) : Prop := host = .windows ∧ (drive? part).isSome = true

instance (host : Host) (part : PathName) : Decidable (Rooted host part) := inferInstanceAs (Decidable (_ ∧ _))

theorem host_path {host : Host} {part : PathName} (hne : part ≠ []) (hplain : ¬ Rooted host part) :
    host.path part = { names := [part] } := by
  cases host with
  | posix => rfl
  | windows =>
    have hdrive : drive? part = none := by
      rw [← Option.not_isSome_iff_eq_none]
      exact fun hsome => hplain ⟨rfl, hsome⟩
    show ofName part = _
    rw [ofName_of_no_drive hdrive, if_neg hne]

/-- Components without root names are the names of the path. -/
theorem foldl_append_plain {host : Host} {parts : List PathName} (h : ∀ part ∈ parts, Names part ∧ ¬ Rooted host part)
    (path : WindowsPath) :
    parts.foldl (fun path part => path.append (host.path part)) path = { path with names := path.names ++ parts } := by
  induction parts generalizing path with
  | nil => rw [List.append_nil]; rfl
  | cons part parts ih =>
    rw [List.forall_mem_cons] at h
    obtain ⟨⟨hnames, hplain⟩, hrest⟩ := h
    rw [List.foldl_cons, host_path hnames.ne_nil hplain, append_names, ih hrest, List.append_assoc]
    rfl

theorem foldl_normalStep_names {rooted : Bool} {l : List PathName} (h : ∀ part ∈ l, Names part) (names : List PathName) :
    l.foldl (normalStep rooted) names = names ++ l := by
  induction l generalizing names with
  | nil => rw [List.append_nil]; rfl
  | cons part l ih =>
    rw [List.forall_mem_cons] at h
    have hstep : normalStep rooted names part = names ++ [part] := by
      rw [normalStep, if_neg h.1.ne_dot, if_neg h.1.ne_up]
    rw [List.foldl_cons, hstep, ih h.2, List.append_assoc]
    rfl

/-- A path of plain components lies below the folder it is appended to. -/
theorem target_inside {host : Host} {parts : List PathName} (hne : parts ≠ [])
    (h : ∀ part ∈ parts, Names part ∧ ¬ Rooted host part) (staging : WindowsPath) :
    StrictlyInside staging (staging.append (relativePath host parts)) := by
  have hrelative : relativePath host parts = { names := parts } := foldl_append_plain h {}
  have hnormal : (staging.append (relativePath host parts)).lexicallyNormal.names =
      staging.lexicallyNormal.names ++ parts := by
    rw [hrelative, append_names]
    show (staging.names ++ parts).foldl (normalStep staging.rootDirectory) [] = _
    rw [List.foldl_append, foldl_normalStep_names fun part hpart => (h part hpart).1]
    rfl
  refine ⟨⟨?_, ?_, ?_⟩, ?_⟩
  · rw [hrelative, append_names]
    rfl
  · rw [hrelative, append_names]
    rfl
  · rw [hnormal]
    exact List.prefix_append _ _
  · rw [hnormal]
    exact fun hsame => hne (by simpa using hsame)

/-- The root name of a path of components is its own or the drive of one of them. -/
theorem foldl_append_rootName {parts : List PathName} {path : WindowsPath} :
    (parts.foldl (fun path part => path.append (Host.windows.path part)) path).rootName = path.rootName ∨
    ∃ part ∈ parts, ∃ drive rest, drive? part = some (drive, rest) ∧
      (parts.foldl (fun path part => path.append (Host.windows.path part)) path).rootName = drive := by
  induction parts generalizing path with
  | nil => exact .inl rfl
  | cons part parts ih =>
    rw [List.foldl_cons]
    obtain hsame | ⟨part', hmem, drive, rest, hdrive, hname⟩ := @ih (path.append (Host.windows.path part))
    · rw [hsame]
      show (path.append (ofName part)).rootName = _ ∨ _
      rw [append_ofName]
      split
      case isTrue hother =>
        right
        cases hdrive : drive? part with
        | none =>
          rw [ofName_of_no_drive hdrive] at hother
          exact absurd rfl hother.1
        | some d =>
          exact ⟨part, List.mem_cons_self, d.1, d.2, hdrive, by
            show (path.append (ofName part)).rootName = _
            rw [append_ofName, if_pos hother, ofName_of_drive hdrive]⟩
      case isFalse => exact .inl rfl
    · exact .inr ⟨part', List.mem_cons_of_mem _ hmem, drive, rest, hdrive, hname⟩

/-- A root name once there does not go away. -/
theorem foldl_append_rootName_ne {parts : List PathName} {path : WindowsPath}
    (h : path.rootName ≠ [] ∨ ∃ part ∈ parts, (drive? part).isSome = true) :
    (parts.foldl (fun path part => path.append (Host.windows.path part)) path).rootName ≠ [] := by
  induction parts generalizing path with
  | nil =>
    obtain h | ⟨part, hmem, -⟩ := h
    · exact h
    · cases hmem
  | cons part parts ih =>
    rw [List.foldl_cons]
    apply ih
    show (path.append (ofName part)).rootName ≠ [] ∨ _
    rw [append_ofName]
    by_cases hother : (ofName part).rootName ≠ [] ∧ (ofName part).rootName ≠ path.rootName
    · rw [if_pos hother]
      exact .inl hother.1
    · rw [if_neg hother]
      obtain h | ⟨part', hmem, hsome⟩ := h
      · exact .inl h
      · cases hmem with
        | tail _ hmem => exact .inr ⟨part', hmem, hsome⟩
        | head =>
          left
          obtain ⟨⟨drive, rest⟩, hdrive⟩ := Option.isSome_iff_exists.mp hsome
          rw [ofName_of_drive hdrive] at hother
          show path.rootName ≠ []
          intro hempty
          exact hother ⟨drive_ne_nil hdrive, by rw [hempty]; exact drive_ne_nil hdrive⟩

/-- A component on other drives than the folder leads outside. -/
theorem target_outside {parts : List PathName} {staging : WindowsPath} {part : PathName} (hpart : part ∈ parts)
    (hrooted : Rooted .windows part)
    (hother : ∀ part ∈ parts, ∀ drive rest, drive? part = some (drive, rest) → drive ≠ staging.rootName) :
    ¬ StrictlyInside staging (staging.append (relativePath .windows parts)) := by
  rintro ⟨⟨hname, -, -⟩, -⟩
  have hne : (relativePath .windows parts).rootName ≠ [] := foldl_append_rootName_ne (.inr ⟨part, hpart, hrooted.2⟩)
  obtain hempty | ⟨part', hmem, drive, rest, hdrive, hdriveName⟩ := @foldl_append_rootName parts {}
  · exact hne hempty
  · have hdifferent : (relativePath .windows parts).rootName ≠ staging.rootName := by
      rw [relativePath, hdriveName]
      exact hother part' hmem drive rest hdrive
    have htarget : staging.append (relativePath .windows parts) = relativePath .windows parts := by
      unfold append
      rw [if_pos]
      simp [hne, hdifferent]
    rw [htarget] at hname
    exact hdifferent hname

theorem writeEntries_target {host : Host} {staging : WindowsPath} {writable : WindowsPath → Bool} {strip : Bool}
    {entries : List (ArchiveEntry × List PathName)} {file : WrittenFile}
    (h : file ∈ (writeEntries host staging writable strip entries).written) :
    ∃ entry ∈ entries, file.target = staging.append (relativePath host (keptParts strip entry.2)) := by
  induction entries with
  | nil => cases h
  | cons first rest ih =>
    simp only [writeEntries] at h
    split at h
    · cases h with
      | head => exact ⟨first, List.mem_cons_self, rfl⟩
      | tail _ hmem =>
        obtain ⟨entry, hentry, htarget⟩ := ih hmem
        exact ⟨entry, List.mem_cons_of_mem _ hentry, htarget⟩
    · rw [List.mem_singleton] at h
      exact ⟨first, List.mem_cons_self, h ▸ rfl⟩

/-- Where everything can be written every entry is. -/
theorem mem_writeEntries {host : Host} {staging : WindowsPath} {strip : Bool}
    {entries : List (ArchiveEntry × List PathName)} {entry : ArchiveEntry × List PathName} (h : entry ∈ entries) :
    ∃ file ∈ (writeEntries host staging (fun _ => true) strip entries).written,
      file.target = staging.append (relativePath host (keptParts strip entry.2)) := by
  induction entries with
  | nil => cases h
  | cons first rest ih =>
    simp only [writeEntries, if_true]
    cases h with
    | head => exact ⟨_, List.mem_cons_self, rfl⟩
    | tail _ hmem =>
      obtain ⟨file, hfile, htarget⟩ := ih hmem
      exact ⟨file, List.mem_cons_of_mem _ hfile, htarget⟩

theorem keptParts_ne_nil {components : List (List PathName)} {parts : List PathName} (hmem : parts ∈ components)
    (hne : parts ≠ []) : keptParts (stripsTop components) parts ≠ [] := by
  unfold keptParts
  cases hstrip : stripsTop components with
  | false => exact hne
  | true =>
    unfold stripsTop at hstrip
    have hlength := (decide_eq_true_iff.mp (List.all_eq_true.mp hstrip parts hmem)).1
    show parts.drop 1 ≠ []
    rw [ne_eq, List.drop_eq_nil_iff]
    omega

/-- No component that a path is built from has a root name. -/
def PlainNames (entries : List ArchiveEntry) : Prop :=
  ∀ components, allComponents entries = .ok components →
    ∀ parts ∈ components, ∀ part ∈ keptParts (stripsTop components) parts, (drive? part).isSome = false

/-- A folder on a server. -/
def serverFolder : WindowsPath := { rootName := "\\\\s".toList, rootDirectory := true, names := ["staging".toList] }

theorem drive_ne_server {part drive rest : PathName} (h : drive? part = some (drive, rest)) :
    drive ≠ serverFolder.rootName := by
  unfold drive? at h
  split at h
  · rw [Option.ite_none_right_eq_some] at h
    obtain ⟨-, h⟩ := h
    cases h
    intro hsame
    have hlength : (2 : ℕ) = 3 := congrArg List.length hsame
    exact absurd hlength (by decide)
  · cases h

/-- A kept component with a root name leads out of every folder on another drive. -/
theorem archive_outside {entries : List ArchiveEntry} {components : List (List PathName)} {parts : List PathName}
    {part : PathName} {staging : WindowsPath} (hcomponents : allComponents entries = .ok components)
    (hparts : parts ∈ components) (hpart : part ∈ keptParts (stripsTop components) parts)
    (hdrive : (drive? part).isSome = true)
    (hother : ∀ part ∈ keptParts (stripsTop components) parts, ∀ drive rest,
      drive? part = some (drive, rest) → drive ≠ staging.rootName) :
    ∃ file ∈ (extractReleaseArchive .windows (.ok entries) staging false (fun _ => true)).written,
      ¬ StrictlyInside staging file.target := by
  obtain ⟨hlength, -⟩ := allComponents_names hcomponents
  have hentries : entries ≠ [] := by
    rintro rfl
    rw [List.length_nil, eq_comm, List.length_eq_zero_iff] at hlength
    rw [hlength] at hparts
    cases hparts
  obtain ⟨i, hi, rfl⟩ := List.mem_iff_getElem.mp hparts
  have hzip : (entries[i], components[i]) ∈ entries.zip components := by
    rw [List.mem_iff_getElem]
    exact ⟨i, by rw [List.length_zip]; omega, List.getElem_zip⟩
  obtain ⟨file, hfile, htarget⟩ := @mem_writeEntries .windows staging (stripsTop components) _ _ hzip
  refine ⟨file, ?_, htarget ▸ target_outside hpart ⟨rfl, hdrive⟩ hother⟩
  rw [extractReleaseArchive, if_neg hentries, hcomponents]
  exact hfile

/-- On every host an archive is written inside every staging folder exactly when no component that is kept has a
root name; such a component leads out of every folder on another drive; and an archive with a refused name
writes nothing. -/
theorem archive_inside (entries : List ArchiveEntry) :
    ((∀ host staging stagingExists writable,
        ∀ file ∈ (extractReleaseArchive host (.ok entries) staging stagingExists writable).written,
          StrictlyInside staging file.target) ↔ PlainNames entries) ∧
    (∀ components parts part staging, allComponents entries = .ok components → parts ∈ components →
      part ∈ keptParts (stripsTop components) parts → (drive? part).isSome = true →
      (∀ part ∈ keptParts (stripsTop components) parts, ∀ drive rest,
        drive? part = some (drive, rest) → drive ≠ staging.rootName) →
      ∃ file ∈ (extractReleaseArchive .windows (.ok entries) staging false (fun _ => true)).written,
        ¬ StrictlyInside staging file.target) ∧
    ∀ host staging stagingExists writable, ∀ entry ∈ entries,
      (safeComponents entry.name = none ∨ safeComponents entry.name = some []) →
      (extractReleaseArchive host (.ok entries) staging stagingExists writable).written = [] := by
  refine ⟨⟨?_, ?_⟩, ?_, ?_⟩
  · intro hinside components hcomponents parts hparts part hpart
    by_contra hdrive
    obtain ⟨file, hfile, houtside⟩ := @archive_outside _ _ _ _ serverFolder hcomponents hparts hpart
      (Bool.eq_true_of_not_eq_false hdrive) (fun part _ drive rest h => drive_ne_server h)
    exact houtside (hinside _ _ _ _ file hfile)
  · intro hplain host staging stagingExists writable file hfile
    unfold extractReleaseArchive at hfile
    dsimp only at hfile
    split at hfile
    case isTrue => cases hfile
    case isFalse =>
      split at hfile
      case h_1 => cases hfile
      case h_2 components hcomponents =>
        split at hfile
        case isTrue => cases hfile
        case isFalse =>
          obtain ⟨entry, hentry, htarget⟩ := writeEntries_target hfile
          have hmem : entry.2 ∈ components := (List.of_mem_zip hentry).2
          obtain ⟨hne, hnames⟩ := (allComponents_names hcomponents).2 _ hmem
          rw [htarget]
          apply target_inside (keptParts_ne_nil hmem hne)
          intro part hpart
          refine ⟨hnames part (List.mem_of_mem_drop hpart), ?_⟩
          rintro ⟨-, hdrive⟩
          rw [hplain components hcomponents _ hmem part hpart] at hdrive
          cases hdrive
  · intro components parts part staging hcomponents hparts hpart hdrive hother
    exact archive_outside hcomponents hparts hpart hdrive hother
  · intro host staging stagingExists writable entry hentry hrefused
    obtain ⟨e, he⟩ := allComponents_refused hentry hrefused
    rw [extractReleaseArchive, he]
    split <;> rfl

def downloads : WindowsPath := { rootName := "D:".toList, rootDirectory := true, names := ["staging".toList] }

/-- A drive behind a shared top folder is written outside the staging folder. -/
theorem archive_not_inside :
    ∃ file ∈ (extractReleaseArchive .windows (.ok [⟨"repiu/C:evil".toList, [0x41], false⟩]) downloads false
      (fun _ => true)).written, file.target = { rootName := "C:".toList, names := ["evil".toList] } ∧
        ¬ StrictlyInside downloads file.target := by
  refine ⟨⟨{ rootName := "C:".toList, names := ["evil".toList] }, [0x41], false⟩, ?_, rfl, ?_⟩
  · rw [show (extractReleaseArchive .windows (.ok [⟨"repiu/C:evil".toList, [0x41], false⟩]) downloads false
      (fun _ => true)).written = [⟨{ rootName := "C:".toList, names := ["evil".toList] }, [0x41], false⟩] by rfl]
    exact List.mem_singleton_self _
  · rintro ⟨⟨hname, -⟩, -⟩
    exact absurd hname (by decide)

end Repiu.Update
