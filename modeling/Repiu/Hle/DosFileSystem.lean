import Mathlib.Algebra.Group.Int.Defs
import Repiu.SlotTable
import Repiu.WindowsPath

/-!
# The virtual DOS file system

Guest paths are resolved below a host root; guest file handles are slots of a
table that name a host file, an offset and the size the file had when it was
opened. The host's files are explicit state, and what the host can refuse is an
argument of each call.
-/

namespace Repiu.Hle

open Repiu

/-! ## Data -/

inductive DosPathResult where
  | ok | fileNotFound | pathNotFound | accessDenied
deriving DecidableEq

/-- A file handle of the guest. The two streams are caches: whether the host file is kept open. -/
structure DosOpenFileHandle where
  isOpen : Bool := false
  handle : ℕ := 0
  accessMode : BitVec 8 := 0
  fileOffset : ℕ := 0
  guestPath : List Char := []
  hostPath : WindowsPath := {}
  dosPath : List Char := []
  consoleDevice : Bool := false
  cachedFileSize : ℕ := 0
  writable : Bool := false
  hostStream : Bool := false
  hostWriteStream : Bool := false
deriving DecidableEq

namespace DosOpenFileHandle

/-- The read stream is open. -/
def warmRead (f : DosOpenFileHandle) : DosOpenFileHandle := { f with hostStream := true }

/-- The write stream is open. -/
def warmWrite (f : DosOpenFileHandle) : DosOpenFileHandle := { f with hostWriteStream := true }

/-- `count` bytes were written: the file is at least as long, and the read stream starts again. -/
def wrote (count : ℕ) (f : DosOpenFileHandle) : DosOpenFileHandle :=
  { f with
    fileOffset := f.fileOffset + count
    cachedFileSize := max f.cachedFileSize (f.fileOffset + count)
    hostWriteStream := true
    hostStream := false }

/-- `count` bytes were read. -/
def advance (count : ℕ) (f : DosOpenFileHandle) : DosOpenFileHandle :=
  { f with fileOffset := f.fileOffset + count, hostStream := true }

def moveTo (position : ℕ) (f : DosOpenFileHandle) : DosOpenFileHandle := { f with fileOffset := position }

/-- The slot is free, and its streams are closed. -/
def closed (f : DosOpenFileHandle) : DosOpenFileHandle :=
  { f with isOpen := false, hostStream := false, hostWriteStream := false, cachedFileSize := 0 }

end DosOpenFileHandle

structure DosVirtualFileSystemState where
  valid : Bool := false
  hostRoot : WindowsPath := {}
  currentComponents : List PathName := []
  openFiles : List DosOpenFileHandle := []
  attributeOverrides : List (List Char × BitVec 16) := []
  message : String := ""

structure DosResolvedPath where
  result : DosPathResult := .pathNotFound
  guestPath : List Char := []
  hostPath : WindowsPath := {}
  dosPath : List Char := []
  message : String := ""

/-- What the host has at a path. -/
inductive HostNode where
  | missing
  | directory
  | file (bytes : List (BitVec 8))
deriving DecidableEq

/-- The host's files. -/
abbrev HostFiles := WindowsPath → HostNode

namespace HostFiles

/-- The bytes of the file at a path. -/
def contents (host : HostFiles) (path : WindowsPath) : List (BitVec 8) :=
  match host path with
  | .file bytes => bytes
  | _ => []

def set (host : HostFiles) (path : WindowsPath) (bytes : List (BitVec 8)) : HostFiles :=
  fun p => if p = path then .file bytes else host p

end HostFiles

/-- What the host refuses during a call. -/
structure HostFaults where
  /-- The file cannot be opened. -/
  openFails : Bool := false
  /-- The stream cannot be positioned. -/
  seekFails : Bool := false
  /-- The size cannot be read. -/
  sizeFails : Bool := false
  /-- A write stops after this many bytes. -/
  writeStops : Option ℕ := none

/-! ## Paths -/

/-- The separator of DOS paths. -/
def separator : Char := '\\'

def toUpperAscii (value : PathName) : PathName := value.map Char.toUpper

def buildDosPath (components : List PathName) : List Char :=
  if components = [] then [separator] else components.flatMap fun component => separator :: component

/-- Slashes become separators. -/
def normalizeSeparators (guestPath : List Char) : List Char :=
  guestPath.map fun ch => if ch = '/' then separator else ch

/-- The device CON under any directory. -/
def isDosConsoleDeviceName (guestPath : List Char) : Bool :=
  let name := ((normalizeSeparators guestPath).splitOn separator).getLastD []
  let name := if name.getLast? = some ':' then name.dropLast else name
  toUpperAscii name = ['C', 'O', 'N']

/-- Whether the path starts at the root, and what follows its drive and first separator. -/
def pathStart : List Char → Bool × List Char
  | _ :: ':' :: rest =>
    match rest with
    | ch :: tail => if ch = separator then (true, tail) else (false, rest)
    | [] => (false, [])
  | ch :: rest => if ch = separator then (true, rest) else (false, ch :: rest)
  | [] => (false, [])

/-- The parts of a path between its separators. -/
def pathParts (guestPath : List Char) : List PathName :=
  (pathStart (normalizeSeparators guestPath)).2.splitOn separator

/-- One part of a path: dots go, a double dot takes the component before it, and fails where there
is none. -/
def pushPart (components : List PathName) (part : PathName) : Option (List PathName) :=
  if part = [] ∨ part = ['.'] then some components
  else if part = ['.', '.'] then if components = [] then none else some components.dropLast
  else some (components ++ [toUpperAscii part])

/-- The host path of components below a root. -/
def hostPathOf (root : WindowsPath) (components : List PathName) : WindowsPath :=
  (components.foldl (fun path component => path.append (.ofName component)) root).lexicallyNormal

def resolveGuestPath (s : DosVirtualFileSystemState) (guestPath : List Char) :
    DosResolvedPath × List PathName :=
  if !s.valid then ({ guestPath := guestPath, message := "DOS virtual filesystem state is not valid" }, [])
  else if guestPath = [] then ({ guestPath := guestPath, message := "DOS path is empty" }, [])
  else
    let start := if (pathStart (normalizeSeparators guestPath)).1 then [] else s.currentComponents
    match (pathParts guestPath).foldlM pushPart start with
    | none =>
      ({ result := .accessDenied, guestPath := guestPath,
         message := "DOS path attempts to escape the target root" }, [])
    | some components =>
      ({ result := .ok, guestPath := guestPath, hostPath := hostPathOf s.hostRoot components,
         dosPath := buildDosPath components, message := "DOS path resolved" }, components)

def changeDosCurrentDirectory (host : HostFiles) (s : DosVirtualFileSystemState) (guestPath : List Char) :
    DosVirtualFileSystemState × DosResolvedPath :=
  let r := resolveGuestPath s guestPath
  if r.1.result ≠ .ok then (s, r.1)
  else if host r.1.hostPath ≠ .directory then
    (s, { r.1 with result := .pathNotFound, message := "DOS target directory was not found" })
  else
    ({ s with currentComponents := r.2, message := "DOS current directory changed" },
      { r.1 with message := "DOS current directory changed" })

/-! ## Handles -/

def kFirstDosUserHandle : ℕ := 5
def kDosOpenHandleLimit : ℕ := 20

/-- The open file with a handle. -/
def findOpen (s : DosVirtualFileSystemState) (handle : ℕ) : Option DosOpenFileHandle :=
  SlotTable.find DosOpenFileHandle.isOpen DosOpenFileHandle.handle handle s.openFiles

/-- Change the open file with a handle. -/
def updateOpen (s : DosVirtualFileSystemState) (handle : ℕ) (f : DosOpenFileHandle → DosOpenFileHandle)
    (message : String) : DosVirtualFileSystemState :=
  { s with
    openFiles := SlotTable.update DosOpenFileHandle.isOpen DosOpenFileHandle.handle handle f s.openFiles
    message := message }

/-- Put a new open file into a free slot. -/
def insertOpen (s : DosVirtualFileSystemState) (file : DosOpenFileHandle) (message : String) :
    DosVirtualFileSystemState :=
  { s with openFiles := SlotTable.insert DosOpenFileHandle.isOpen file s.openFiles, message := message }

/-- The lowest handle that is not open; 0 where there is none. -/
def allocateLowestFreeDosHandle (s : DosVirtualFileSystemState) : ℕ :=
  ((List.range' kFirstDosUserHandle (kDosOpenHandleLimit - kFirstDosUserHandle)).find?
    fun candidate => (findOpen s candidate).isNone).getD 0

/-- Access modes 1 and 2 write. -/
def modeWrites (accessMode : BitVec 8) : Bool := accessMode &&& 7 = 1 || accessMode &&& 7 = 2

/-- What an operation on the files leaves behind. -/
structure DosFiles where
  state : DosVirtualFileSystemState
  host : HostFiles

def exhausted (r : DosResolvedPath) : DosResolvedPath :=
  { r with result := .accessDenied, message := "DOS file handle table is exhausted" }

def openDosFile (x : DosFiles) (faults : HostFaults) (guestPath : List Char) (accessMode : BitVec 8) :
    DosFiles × DosResolvedPath × ℕ :=
  let r := (resolveGuestPath x.state guestPath).1
  let handle := allocateLowestFreeDosHandle x.state
  if r.result ≠ .ok then (x, r, 0)
  else if isDosConsoleDeviceName guestPath then
    if handle = 0 then (x, exhausted r, 0)
    else
      let file : DosOpenFileHandle :=
        { isOpen := true, handle := handle, accessMode := accessMode, guestPath := guestPath
          dosPath := r.dosPath, consoleDevice := true, writable := modeWrites accessMode }
      ({ x with state := insertOpen x.state file "DOS CON device opened" },
        { r with hostPath := {}, message := "DOS CON device opened" }, handle)
  else
    match x.host r.hostPath with
    | .file bytes =>
      if handle = 0 then (x, exhausted r, 0)
      else
        let file : DosOpenFileHandle :=
          { isOpen := true, handle := handle, accessMode := accessMode, guestPath := guestPath
            hostPath := r.hostPath, dosPath := r.dosPath, writable := modeWrites accessMode
            cachedFileSize := if faults.sizeFails then 0 else bytes.length }
        ({ x with state := insertOpen x.state file "DOS file opened" },
          { r with message := "DOS file opened" }, handle)
    | _ => (x, { r with result := .fileNotFound, message := "DOS target file was not found" }, 0)

/-- The attributes that the guest can change. -/
def kMutableAttributes : BitVec 16 := 0x27

/-- Record the attributes of a path. -/
def setOverride (path : List Char) (attributes : BitVec 16) :
    List (List Char × BitVec 16) → List (List Char × BitVec 16)
  | [] => [(path, attributes)]
  | entry :: rest => if entry.1 = path then (path, attributes) :: rest else entry :: setOverride path attributes rest

/-- The directory that holds a path. -/
def parentPath (path : WindowsPath) : WindowsPath := { path with names := path.names.dropLast }

def createDosFile (x : DosFiles) (faults : HostFaults) (guestPath : List Char) (attributes : BitVec 16) :
    DosFiles × DosResolvedPath × ℕ :=
  let resolved := resolveGuestPath x.state guestPath
  let r := resolved.1
  let handle := allocateLowestFreeDosHandle x.state
  if r.result ≠ .ok then (x, r, 0)
  else if resolved.2 = [] then
    (x, { r with result := .accessDenied, message := "DOS create path names no file" }, 0)
  else if x.host (parentPath r.hostPath) ≠ .directory then
    (x, { r with result := .pathNotFound, message := "DOS create parent directory was not found" }, 0)
  else if x.host r.hostPath = .directory then
    (x, { r with result := .accessDenied, message := "DOS create path names a directory" }, 0)
  else if handle = 0 then (x, exhausted r, 0)
  else
    let refused := { r with result := .accessDenied, message := "DOS create failed to open the host file" }
    if faults.openFails then (x, refused, 0)
    else
      -- the open empties the file before the stream is positioned
      let host := x.host.set r.hostPath []
      if faults.seekFails then ({ x with host := host }, refused, 0)
      else
        let file : DosOpenFileHandle :=
          { isOpen := true, handle := handle, accessMode := 2, guestPath := guestPath
            hostPath := r.hostPath, dosPath := r.dosPath, writable := true, hostWriteStream := true }
        let state := { x.state with
          attributeOverrides :=
            setOverride r.dosPath (attributes &&& kMutableAttributes ||| 0x20) x.state.attributeOverrides }
        ({ state := insertOpen state file "DOS file created", host := host },
          { r with message := "DOS file created" }, handle)

/-! ## Reading and writing -/

/-- What a read, write, seek or close returns. -/
structure DosReply where
  bytes : List (BitVec 8) := []
  value : ℕ := 0
  dosError : ℕ := 0

/-- Write bytes at an offset; a gap is filled with zeros. -/
def overwrite (contents : List (BitVec 8)) (offset : ℕ) (bytes : List (BitVec 8)) : List (BitVec 8) :=
  if bytes = [] then contents
  else
    contents.take offset ++ List.replicate (offset - contents.length) 0 ++ bytes ++
      contents.drop (offset + bytes.length)

/-- Return without an effect on the files; the state keeps everything but its message. -/
def finish (x : DosFiles) (dosError : ℕ) (message : String) : DosFiles × DosReply :=
  ({ x with state := { x.state with message := message } }, { dosError := dosError })

def writeDosFile (x : DosFiles) (faults : HostFaults) (handle : ℕ) (bytes : List (BitVec 8)) :
    DosFiles × DosReply :=
  match findOpen x.state handle with
  | none => finish x 6 "DOS file write failed: invalid handle"
  | some file =>
    if !file.writable then finish x 5 "DOS file write failed: handle is read-only"
    else if file.consoleDevice then finish x 5 "DOS console write requires the execution HLE output sink"
    else if bytes = [] then
      ({ x with state := { x.state with message := "DOS file write completed with no bytes" } }, {})
    else if !file.hostWriteStream && (faults.openFails || x.host file.hostPath matches .missing | .directory) then
      finish x 2 "DOS file write failed: file could not be opened"
    else if faults.seekFails then
      ({ x with
          state := updateOpen x.state handle DosOpenFileHandle.warmWrite "DOS file write failed: seek failed" },
        { dosError := 5 })
    else
      match faults.writeStops with
      | some written =>
        ({ host := x.host.set file.hostPath
            (overwrite (x.host.contents file.hostPath) file.fileOffset (bytes.take written))
           state := updateOpen x.state handle DosOpenFileHandle.warmWrite "DOS file write failed" },
          { dosError := 5 })
      | none =>
        ({ host := x.host.set file.hostPath
            (overwrite (x.host.contents file.hostPath) file.fileOffset bytes)
           state := updateOpen x.state handle (DosOpenFileHandle.wrote bytes.length) "DOS file write completed" },
          { value := bytes.length })

def readDosFile (x : DosFiles) (faults : HostFaults) (handle requested : ℕ) : DosFiles × DosReply :=
  match findOpen x.state handle with
  | none => finish x 6 "DOS file read failed: invalid handle"
  | some file =>
    if file.accessMode &&& 7 = 1 then finish x 5 "DOS file read failed: handle is write-only"
    else if requested = 0 then finish x 0 "DOS file read completed"
    else if file.cachedFileSize ≤ file.fileOffset then finish x 0 "DOS file read completed at EOF"
    else
      let clamped := min requested (file.cachedFileSize - file.fileOffset)
      if !file.hostStream && (faults.openFails || x.host file.hostPath matches .missing | .directory) then
        finish x 2 "DOS file read failed: file could not be opened"
      else if faults.seekFails then
        ({ x with
            state := updateOpen x.state handle DosOpenFileHandle.warmRead "DOS file read failed: seek failed" },
          { dosError := 5 })
      else
        let bytes := ((x.host.contents file.hostPath).drop file.fileOffset).take clamped
        ({ x with
            state := updateOpen x.state handle (DosOpenFileHandle.advance bytes.length) "DOS file read completed" },
          { bytes := bytes, value := bytes.length })

/-- Where a seek counts from: the start, the offset, or the size the file had. -/
def seekBase (file : DosOpenFileHandle) (origin : ℕ) : Option ℕ :=
  if origin = 0 then some 0
  else if origin = 1 then some file.fileOffset
  else if origin = 2 then some file.cachedFileSize
  else none

def seekDosFile (x : DosFiles) (handle : ℕ) (origin : ℕ) (offset : Int) : DosFiles × DosReply :=
  match findOpen x.state handle with
  | none => finish x 6 "DOS file seek failed: invalid handle"
  | some file =>
    match seekBase file origin with
    | none => finish x 1 "DOS file seek failed: invalid origin"
    | some base =>
      let position : Int := base + offset
      if position < 0 then finish x 1 "DOS file seek failed: negative position"
      else if position > 2 ^ 32 - 1 then finish x 1 "DOS file seek failed: position is too large"
      else
        ({ x with
            state := updateOpen x.state handle (DosOpenFileHandle.moveTo position.toNat)
              "DOS file seek completed" },
          { value := position.toNat })

def closeDosFile (x : DosFiles) (handle : ℕ) : DosFiles × DosReply :=
  match findOpen x.state handle with
  | none => finish x 6 "DOS file close failed: invalid handle"
  | some _ =>
    ({ x with
        state := updateOpen x.state handle DosOpenFileHandle.closed "DOS file closed" },
      {})

/-! ## Attributes -/

/-- The attributes of a path, or the path with the reason why it has none. -/
def queryDosFileAttributes (x : DosFiles) (guestPath : List Char) : Except DosResolvedPath (BitVec 16) :=
  let r := (resolveGuestPath x.state guestPath).1
  if !x.state.valid then .error r
  else
    -- a path that did not resolve is empty, and nothing is there
    match if r.result = .ok then x.host r.hostPath else .missing with
    | .missing => .error { r with result := .fileNotFound, message := "DOS attribute path does not exist" }
    | node =>
      match x.state.attributeOverrides.find? fun entry => entry.1 = r.dosPath with
      | some entry => .ok entry.2
      | none => .ok (if node = .directory then 0x10 else 0x20)

/-- The files, and whether the attributes were set. -/
def setDosFileAttributes (x : DosFiles) (guestPath : List Char) (attributes : BitVec 16) : DosFiles × Bool :=
  match queryDosFileAttributes x guestPath with
  | .error _ => (x, false)
  | .ok current =>
    if attributes &&& ~~~kMutableAttributes ≠ 0 ∨ current &&& 0x10 ≠ 0 then (x, false)
    else
      ({ x with
          state := { x.state with
            attributeOverrides :=
              setOverride (resolveGuestPath x.state guestPath).1.dosPath (attributes &&& kMutableAttributes)
                x.state.attributeOverrides } },
        true)

end Repiu.Hle
