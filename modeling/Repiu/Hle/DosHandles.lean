import Repiu.Hle.DosFileSystem

/-!
# The handle table

What holds of the handle table over any calls: handles are distinct and in
range, a new one is the lowest that is free, a handle that is not open is
refused, and a call that fails changes nothing.
-/

namespace Repiu.Hle

open Repiu

/-! ## Calls -/

/-- The calls on files. -/
inductive DosCall where
  | openFile (guestPath : List Char) (accessMode : BitVec 8)
  | createFile (guestPath : List Char) (attributes : BitVec 16)
  | write (handle : ℕ) (bytes : List (BitVec 8))
  | read (handle requested : ℕ)
  | seek (handle origin : ℕ) (offset : Int)
  | close (handle : ℕ)
  | queryAttributes (guestPath : List Char)
  | setAttributes (guestPath : List Char) (attributes : BitVec 16)

/-- Whether a call failed, the handle it opened, and what it returned. -/
structure DosOutcome where
  failed : Bool
  handle : ℕ := 0
  reply : DosReply := {}

namespace DosCall

/-- The outcome of a read, write, seek or close. -/
def ofReply (r : DosFiles × DosReply) : DosFiles × DosOutcome :=
  (r.1, { failed := r.2.dosError != 0, reply := r.2 })

/-- The outcome of an open or a create. -/
def ofOpened (r : DosFiles × DosResolvedPath × ℕ) : DosFiles × DosOutcome :=
  (r.1, { failed := r.2.1.result != .ok, handle := r.2.2 })

def apply (x : DosFiles) (faults : HostFaults) : DosCall → DosFiles × DosOutcome
  | .openFile guestPath accessMode => ofOpened (openDosFile x faults guestPath accessMode)
  | .createFile guestPath attributes => ofOpened (createDosFile x faults guestPath attributes)
  | .write handle bytes => ofReply (writeDosFile x faults handle bytes)
  | .read handle requested => ofReply (readDosFile x faults handle requested)
  | .seek handle origin offset => ofReply (seekDosFile x handle origin offset)
  | .close handle => ofReply (closeDosFile x handle)
  | .queryAttributes guestPath =>
    match queryDosFileAttributes x guestPath with
    | .error _ => (x, { failed := true })
    | .ok attributes => (x, { failed := false, reply := { value := attributes.toNat } })
  | .setAttributes guestPath attributes =>
    let r := setDosFileAttributes x guestPath attributes
    (r.1, { failed := !r.2 })

end DosCall

/-- The files after any calls, from a table without open files. -/
inductive DosRun : DosFiles → Prop
  | start {x : DosFiles} (h : x.state.openFiles = []) : DosRun x
  | step {x : DosFiles} (h : DosRun x) (faults : HostFaults) (call : DosCall) : DosRun (call.apply x faults).1

/-! ## What a call does to the table -/

/-- The table that the guest can see: the streams are only caches. -/
def visible (f : DosOpenFileHandle) : DosOpenFileHandle := { f with hostStream := false, hostWriteStream := false }

/-- The lowest handle that is free. -/
structure LowestFree (s : DosVirtualFileSystemState) (handle : ℕ) : Prop where
  low : kFirstDosUserHandle ≤ handle
  high : handle < kDosOpenHandleLimit
  free : findOpen s handle = none
  lowest : ∀ k, kFirstDosUserHandle ≤ k → k < handle → findOpen s k ≠ none

theorem allocateLowestFreeDosHandle_spec {s : DosVirtualFileSystemState}
    (h : allocateLowestFreeDosHandle s ≠ 0) : LowestFree s (allocateLowestFreeDosHandle s) := by
  unfold allocateLowestFreeDosHandle at h ⊢
  cases hfind : (List.range' kFirstDosUserHandle (kDosOpenHandleLimit - kFirstDosUserHandle)).find?
      fun candidate => (findOpen s candidate).isNone with
  | none =>
    rw [hfind] at h
    exact absurd rfl h
  | some handle =>
    rw [List.find?_range'_eq_some] at hfind
    obtain ⟨hfree, hrange, hlowest⟩ := hfind
    rw [List.mem_range'_1] at hrange
    refine ⟨hrange.1, ?_, Option.isNone_iff_eq_none.mp hfree, fun k hlow hk hnone => ?_⟩
    · exact hrange.2
    · have := hlowest k hlow hk
      rw [hnone] at this
      cases this

/-- The call asks for a new handle. -/
def DosCall.Opens : DosCall → Prop
  | .openFile .. | .createFile .. => True
  | _ => False

/-- What a call does to the table and the files. -/
inductive Effect (x : DosFiles) (faults : HostFaults) : DosCall → DosFiles → DosOutcome → Prop
  /-- A call that was refused, or had nothing to do. -/
  | none {call : DosCall} {y : DosFiles} {o : DosOutcome} (hfiles : y.state.openFiles = x.state.openFiles)
      (hhost : y.host = x.host) (hfailed : call.Opens → o.failed = true) : Effect x faults call y o
  | opened {guestPath : List Char} {accessMode : BitVec 8} {y : DosFiles} {o : DosOutcome}
      (file : DosOpenFileHandle) (hopen : file.isOpen = true) (hfree : LowestFree x.state file.handle)
      (hfile : file.consoleDevice = true ∧ file.cachedFileSize = 0 ∨
        file.consoleDevice = false ∧ ∃ bytes, x.host file.hostPath = .file bytes ∧
          file.cachedFileSize = if faults.sizeFails then 0 else bytes.length)
      (hfiles : y.state.openFiles = SlotTable.insert DosOpenFileHandle.isOpen file x.state.openFiles)
      (hhost : y.host = x.host) (hfailed : o.failed = false) (hhandle : o.handle = file.handle) :
      Effect x faults (.openFile guestPath accessMode) y o
  | created {guestPath : List Char} {attributes : BitVec 16} {y : DosFiles} {o : DosOutcome}
      (file : DosOpenFileHandle) (hopen : file.isOpen = true) (hfree : LowestFree x.state file.handle)
      (hsize : file.cachedFileSize = 0) (hconsole : file.consoleDevice = false)
      (hpath : file.hostPath = (resolveGuestPath x.state guestPath).1.hostPath)
      (hfiles : y.state.openFiles = SlotTable.insert DosOpenFileHandle.isOpen file x.state.openFiles)
      (hhost : y.host = x.host.set file.hostPath []) (hfailed : o.failed = false)
      (hhandle : o.handle = file.handle) : Effect x faults (.createFile guestPath attributes) y o
  /-- The host emptied the file, but cannot position the stream. -/
  | tornCreate {guestPath : List Char} {attributes : BitVec 16} {y : DosFiles} {o : DosOutcome}
      (hfault : faults.seekFails = true) (hfiles : y.state.openFiles = x.state.openFiles)
      (hhost : y.host = x.host.set (resolveGuestPath x.state guestPath).1.hostPath [])
      (hfailed : o.failed = true) : Effect x faults (.createFile guestPath attributes) y o
  /-- A stream was opened that cannot be positioned. -/
  | warmed {call : DosCall} {y : DosFiles} {o : DosOutcome} (hcall : ¬call.Opens) (handle : ℕ)
      (f : DosOpenFileHandle → DosOpenFileHandle) (hf : ∀ a, visible (f a) = visible a)
      (hfiles : y.state.openFiles =
        SlotTable.update DosOpenFileHandle.isOpen DosOpenFileHandle.handle handle f x.state.openFiles)
      (hhost : y.host = x.host) : Effect x faults call y o
  /-- The host stopped in the middle of a write. -/
  | tornWrite {handle : ℕ} {bytes : List (BitVec 8)} {y : DosFiles} {o : DosOutcome} (file : DosOpenFileHandle)
      (written : ℕ) (hfind : findOpen x.state handle = some file) (hfault : faults.writeStops = some written)
      (hfiles : y.state.openFiles =
        SlotTable.update DosOpenFileHandle.isOpen DosOpenFileHandle.handle handle DosOpenFileHandle.warmWrite
          x.state.openFiles)
      (hhost : y.host = x.host.set file.hostPath
        (overwrite (x.host.contents file.hostPath) file.fileOffset (bytes.take written)))
      (hfailed : o.failed = true) : Effect x faults (.write handle bytes) y o
  | wrote {handle : ℕ} {bytes : List (BitVec 8)} {y : DosFiles} {o : DosOutcome} (file : DosOpenFileHandle)
      (hfind : findOpen x.state handle = some file) (hconsole : file.consoleDevice = false) (hbytes : bytes ≠ [])
      (hfiles : y.state.openFiles =
        SlotTable.update DosOpenFileHandle.isOpen DosOpenFileHandle.handle handle
          (DosOpenFileHandle.wrote bytes.length) x.state.openFiles)
      (hhost : y.host = x.host.set file.hostPath
        (overwrite (x.host.contents file.hostPath) file.fileOffset bytes))
      (hfailed : o.failed = false) : Effect x faults (.write handle bytes) y o
  /-- A read or a seek moved the offset. -/
  | moved {call : DosCall} {y : DosFiles} {o : DosOutcome} (hcall : ¬call.Opens) (handle : ℕ)
      (f : DosOpenFileHandle → DosOpenFileHandle)
      (hf : ∀ a, ∃ offset, visible (f a) = { visible a with fileOffset := offset })
      (hfiles : y.state.openFiles =
        SlotTable.update DosOpenFileHandle.isOpen DosOpenFileHandle.handle handle f x.state.openFiles)
      (hhost : y.host = x.host) (hfailed : o.failed = false) : Effect x faults call y o
  | closed {handle : ℕ} {y : DosFiles} {o : DosOutcome}
      (hfiles : y.state.openFiles =
        SlotTable.update DosOpenFileHandle.isOpen DosOpenFileHandle.handle handle DosOpenFileHandle.closed
          x.state.openFiles)
      (hhost : y.host = x.host) (hfailed : o.failed = false) : Effect x faults (.close handle) y o

theorem openDosFile_effect (x : DosFiles) (faults : HostFaults) (guestPath : List Char) (accessMode : BitVec 8) :
    Effect x faults (.openFile guestPath accessMode)
      ((DosCall.openFile guestPath accessMode).apply x faults).1
      ((DosCall.openFile guestPath accessMode).apply x faults).2 := by
  rw [DosCall.apply, DosCall.ofOpened, openDosFile]
  by_cases hok : (resolveGuestPath x.state guestPath).1.result ≠ .ok
  · rw [if_pos hok]
    exact .none rfl rfl fun _ => by simpa using hok
  rw [if_neg hok]
  rw [not_not] at hok
  by_cases hconsole : isDosConsoleDeviceName guestPath = true
  · rw [if_pos hconsole]
    by_cases hhandle : allocateLowestFreeDosHandle x.state = 0
    · rw [if_pos hhandle]
      exact .none rfl rfl fun _ => rfl
    · rw [if_neg hhandle]
      exact .opened _ rfl (allocateLowestFreeDosHandle_spec hhandle) (.inl ⟨rfl, rfl⟩) rfl rfl (by simp [hok]) rfl
  rw [if_neg hconsole]
  cases hnode : x.host (resolveGuestPath x.state guestPath).1.hostPath with
  | missing => exact .none rfl rfl fun _ => rfl
  | directory => exact .none rfl rfl fun _ => rfl
  | file bytes =>
    by_cases hhandle : allocateLowestFreeDosHandle x.state = 0
    · simp only [if_pos hhandle]
      exact .none rfl rfl fun _ => rfl
    · simp only [if_neg hhandle]
      exact .opened _ rfl (allocateLowestFreeDosHandle_spec hhandle) (.inr ⟨rfl, bytes, hnode, rfl⟩) rfl rfl
        (by simp [hok]) rfl

theorem createDosFile_effect (x : DosFiles) (faults : HostFaults) (guestPath : List Char) (attributes : BitVec 16) :
    Effect x faults (.createFile guestPath attributes)
      ((DosCall.createFile guestPath attributes).apply x faults).1
      ((DosCall.createFile guestPath attributes).apply x faults).2 := by
  rw [DosCall.apply, DosCall.ofOpened, createDosFile]
  by_cases hok : (resolveGuestPath x.state guestPath).1.result ≠ .ok
  · rw [if_pos hok]
    exact .none rfl rfl fun _ => by simpa using hok
  rw [if_neg hok]
  rw [not_not] at hok
  split_ifs with hname hparent hdirectory hhandle hopens hseeks
  · exact .none rfl rfl fun _ => rfl
  · exact .none rfl rfl fun _ => rfl
  · exact .none rfl rfl fun _ => rfl
  · exact .none rfl rfl fun _ => rfl
  · exact .none rfl rfl fun _ => rfl
  · exact .tornCreate hseeks rfl rfl rfl
  · exact .created _ rfl (allocateLowestFreeDosHandle_spec hhandle) rfl rfl rfl rfl rfl (by simp [hok]) rfl

theorem writeDosFile_effect (x : DosFiles) (faults : HostFaults) (handle : ℕ) (bytes : List (BitVec 8)) :
    Effect x faults (.write handle bytes) ((DosCall.write handle bytes).apply x faults).1
      ((DosCall.write handle bytes).apply x faults).2 := by
  rw [DosCall.apply, DosCall.ofReply, writeDosFile]
  cases hfind : findOpen x.state handle with
  | none => exact .none rfl rfl False.elim
  | some file =>
    simp only
    split_ifs with hwritable hconsole hbytes hopens hseeks
    · exact .none rfl rfl False.elim
    · exact .none rfl rfl False.elim
    · exact .none rfl rfl False.elim
    · exact .none rfl rfl False.elim
    · exact .warmed id handle DosOpenFileHandle.warmWrite (fun _ => rfl) rfl rfl
    · cases hstops : faults.writeStops with
      | some written => exact .tornWrite file written hfind hstops rfl rfl rfl
      | none => exact .wrote file hfind (by simpa using hconsole) hbytes rfl rfl rfl

theorem readDosFile_effect (x : DosFiles) (faults : HostFaults) (handle requested : ℕ) :
    Effect x faults (.read handle requested) ((DosCall.read handle requested).apply x faults).1
      ((DosCall.read handle requested).apply x faults).2 := by
  rw [DosCall.apply, DosCall.ofReply, readDosFile]
  cases hfind : findOpen x.state handle with
  | none => exact .none rfl rfl False.elim
  | some file =>
    simp only
    split_ifs with hmode hzero hend hopens hseeks
    · exact .none rfl rfl False.elim
    · exact .none rfl rfl False.elim
    · exact .none rfl rfl False.elim
    · exact .none rfl rfl False.elim
    · exact .warmed id handle DosOpenFileHandle.warmRead (fun _ => rfl) rfl rfl
    · exact .moved id handle (DosOpenFileHandle.advance _) (fun a => ⟨_, rfl⟩) rfl rfl rfl

theorem seekDosFile_effect (x : DosFiles) (faults : HostFaults) (handle origin : ℕ) (offset : Int) :
    Effect x faults (.seek handle origin offset) ((DosCall.seek handle origin offset).apply x faults).1
      ((DosCall.seek handle origin offset).apply x faults).2 := by
  rw [DosCall.apply, DosCall.ofReply, seekDosFile]
  cases hfind : findOpen x.state handle with
  | none => exact .none rfl rfl False.elim
  | some file =>
    simp only
    cases hbase : seekBase file origin with
    | none => exact .none rfl rfl False.elim
    | some base =>
      simp only
      split_ifs with hnegative hlarge
      · exact .none rfl rfl False.elim
      · exact .none rfl rfl False.elim
      · exact .moved id handle (DosOpenFileHandle.moveTo _) (fun a => ⟨_, rfl⟩) rfl rfl rfl

/-- Every call has one of these effects. -/
theorem apply_effect (x : DosFiles) (faults : HostFaults) (call : DosCall) :
    Effect x faults call (call.apply x faults).1 (call.apply x faults).2 := by
  cases call with
  | openFile guestPath accessMode => exact openDosFile_effect x faults guestPath accessMode
  | createFile guestPath attributes => exact createDosFile_effect x faults guestPath attributes
  | write handle bytes => exact writeDosFile_effect x faults handle bytes
  | read handle requested => exact readDosFile_effect x faults handle requested
  | seek handle origin offset => exact seekDosFile_effect x faults handle origin offset
  | close handle =>
    rw [DosCall.apply, DosCall.ofReply, closeDosFile]
    cases hfind : findOpen x.state handle with
    | none => exact .none rfl rfl False.elim
    | some file => exact .closed rfl rfl rfl
  | queryAttributes guestPath =>
    rw [DosCall.apply]
    split <;> exact .none rfl rfl False.elim
  | setAttributes guestPath attributes =>
    simp only [DosCall.apply, setDosFileAttributes]
    split
    · exact .none rfl rfl False.elim
    · split_ifs <;> exact .none rfl rfl False.elim

/-! ## The table over runs -/

/-- Open handles are distinct and in range. -/
structure TableOk (files : List DosOpenFileHandle) : Prop where
  distinct : SlotTable.Distinct DosOpenFileHandle.isOpen DosOpenFileHandle.handle files
  range : ∀ f ∈ files, f.isOpen = true → kFirstDosUserHandle ≤ f.handle ∧ f.handle < kDosOpenHandleLimit

namespace TableOk

variable {s : DosVirtualFileSystemState}

theorem insert (h : TableOk s.openFiles) {file : DosOpenFileHandle} (hopen : file.isOpen = true)
    (hfree : LowestFree s file.handle) : TableOk (SlotTable.insert DosOpenFileHandle.isOpen file s.openFiles) where
  distinct := h.distinct.insert hopen hfree.free
  range := by
    intro f hf hlive
    rcases (SlotTable.mem_insert hopen hlive).mp hf with rfl | hf
    · exact ⟨hfree.low, hfree.high⟩
    · exact h.range f hf hlive

theorem update (h : TableOk s.openFiles) (handle : ℕ) {f : DosOpenFileHandle → DosOpenFileHandle}
    (hf : ∀ a, (f a).handle = a.handle) :
    TableOk (SlotTable.update DosOpenFileHandle.isOpen DosOpenFileHandle.handle handle f s.openFiles) where
  distinct := h.distinct.update hf
  range := by
    intro a ha hlive
    rcases SlotTable.mem_update h.distinct ha hlive with ⟨b, hb, hblive, -, rfl⟩ | ⟨ha, -⟩
    · rw [hf]
      exact h.range b hb hblive
    · exact h.range a ha hlive

end TableOk

/-- Every call keeps the table. -/
theorem Effect.tableOk {x y : DosFiles} {faults : HostFaults} {call : DosCall} {o : DosOutcome}
    (h : Effect x faults call y o) (hx : TableOk x.state.openFiles) : TableOk y.state.openFiles := by
  cases h with
  | none hfiles => exact hfiles ▸ hx
  | opened file hopen hfree _ hfiles => exact hfiles ▸ hx.insert hopen hfree
  | created file hopen hfree _ _ _ hfiles => exact hfiles ▸ hx.insert hopen hfree
  | tornCreate _ hfiles => exact hfiles ▸ hx
  | warmed _ handle f hf hfiles =>
    refine hfiles ▸ hx.update handle fun a => ?_
    have hvisible : (visible (f a)).handle = (visible a).handle := by rw [hf]
    exact hvisible
  | tornWrite file written _ _ hfiles => exact hfiles ▸ hx.update _ fun _ => rfl
  | wrote file _ _ _ hfiles => exact hfiles ▸ hx.update _ fun _ => rfl
  | moved _ handle f hf hfiles =>
    refine hfiles ▸ hx.update handle fun a => ?_
    obtain ⟨offset, hoffset⟩ := hf a
    have hvisible : (visible (f a)).handle = (visible a).handle := by rw [hoffset]
    exact hvisible
  | closed hfiles => exact hfiles ▸ hx.update _ fun _ => rfl

theorem DosRun.tableOk {x : DosFiles} (h : DosRun x) : TableOk x.state.openFiles := by
  induction h with
  | start h =>
    rw [h]
    exact ⟨List.nodup_nil, by simp⟩
  | step _ faults call ih => exact (apply_effect _ faults call).tableOk ih

/-! ## Failing calls -/

namespace DosCall

/-- The handle that a call works on. -/
def handle? : DosCall → Option ℕ
  | .write handle _ | .read handle _ | .seek handle _ _ | .close handle => some handle
  | _ => none

/-- The host fails after it has begun to change the file: a create whose stream cannot be
positioned, or a write that is cut short. -/
def Torn (faults : HostFaults) : DosCall → Prop
  | .createFile .. => faults.seekFails = true
  | .write .. => faults.writeStops ≠ none
  | _ => False

/-- The file that a create or a write changes. -/
def target (x : DosFiles) : DosCall → WindowsPath
  | .createFile guestPath _ => (resolveGuestPath x.state guestPath).1.hostPath
  | .write handle _ => ((findOpen x.state handle).map DosOpenFileHandle.hostPath).getD {}
  | _ => {}

end DosCall

theorem HostFiles.set_of_ne {host : HostFiles} {path p : WindowsPath} (h : p ≠ path) (bytes : List (BitVec 8)) :
    host.set path bytes p = host p := if_neg h

/-- A new handle is the lowest free one. -/
theorem Effect.lowestFree {x y : DosFiles} {faults : HostFaults} {call : DosCall} {o : DosOutcome}
    (h : Effect x faults call y o) (hopens : call.Opens) (hok : o.failed = false) :
    LowestFree x.state o.handle := by
  cases h with
  | none _ _ hfailed =>
    rw [hfailed hopens] at hok
    cases hok
  | opened file _ hfree _ _ _ _ hhandle => exact hhandle ▸ hfree
  | created file _ hfree _ _ _ _ _ _ hhandle => exact hhandle ▸ hfree
  | tornCreate _ _ _ hfailed =>
    rw [hfailed] at hok
    cases hok
  | warmed hcall => exact absurd hopens hcall
  | tornWrite => exact hopens.elim
  | wrote => exact hopens.elim
  | moved hcall => exact absurd hopens hcall
  | closed => exact hopens.elim

/-- A call that fails leaves the table as it was. -/
theorem Effect.table_of_failed {x y : DosFiles} {faults : HostFaults} {call : DosCall} {o : DosOutcome}
    (h : Effect x faults call y o) (hfailed : o.failed = true) :
    y.state.openFiles.map visible = x.state.openFiles.map visible := by
  cases h with
  | none hfiles => rw [hfiles]
  | tornCreate _ hfiles => rw [hfiles]
  | warmed _ handle f hf hfiles => rw [hfiles, SlotTable.map_update hf]
  | tornWrite file written _ _ hfiles =>
    have hwarm : ∀ a, visible (DosOpenFileHandle.warmWrite a) = visible a := fun _ => rfl
    rw [hfiles, SlotTable.map_update hwarm]
  | opened _ _ _ _ _ _ hok => simp [hok] at hfailed
  | created _ _ _ _ _ _ _ _ hok => simp [hok] at hfailed
  | wrote _ _ _ _ _ _ hok => simp [hok] at hfailed
  | moved _ _ _ _ _ _ hok => simp [hok] at hfailed
  | closed _ _ hok => simp [hok] at hfailed

/-- A call that fails leaves the files as they were, unless the host stops in the middle of a change;
then it leaves all others. -/
theorem Effect.host_of_failed {x y : DosFiles} {faults : HostFaults} {call : DosCall} {o : DosOutcome}
    (h : Effect x faults call y o) (hfailed : o.failed = true) :
    (¬call.Torn faults → y.host = x.host) ∧ ∀ p, p ≠ call.target x → y.host p = x.host p := by
  cases h with
  | none _ hhost => exact ⟨fun _ => hhost, fun p _ => by rw [hhost]⟩
  | tornCreate hfault _ hhost =>
    refine ⟨fun hnot => absurd hfault hnot, fun p hp => ?_⟩
    rw [hhost]
    exact HostFiles.set_of_ne hp []
  | warmed _ _ _ _ _ hhost => exact ⟨fun _ => hhost, fun p _ => by rw [hhost]⟩
  | tornWrite file written hfind hfault _ hhost =>
    have htorn : faults.writeStops ≠ Option.none := by
      rw [hfault]
      exact Option.some_ne_none written
    refine ⟨fun hnot => absurd htorn hnot, fun p hp => ?_⟩
    rw [DosCall.target, hfind] at hp
    rw [hhost]
    exact HostFiles.set_of_ne hp _
  | opened _ _ _ _ _ _ hok => simp [hok] at hfailed
  | created _ _ _ _ _ _ _ _ hok => simp [hok] at hfailed
  | wrote _ _ _ _ _ _ hok => simp [hok] at hfailed
  | moved _ _ _ _ _ _ hok => simp [hok] at hfailed
  | closed _ _ hok => simp [hok] at hfailed

/-- A handle that is not open is refused. -/
theorem apply_refused {x : DosFiles} {call : DosCall} {handle : ℕ} (hcall : call.handle? = some handle)
    (hfree : findOpen x.state handle = none) (faults : HostFaults) :
    (call.apply x faults).2.failed = true ∧ (call.apply x faults).2.reply.dosError = 6 := by
  cases call with
  | write h bytes =>
    obtain rfl := Option.some.inj hcall
    rw [DosCall.apply, writeDosFile, hfree]
    exact ⟨rfl, rfl⟩
  | read h requested =>
    obtain rfl := Option.some.inj hcall
    rw [DosCall.apply, readDosFile, hfree]
    exact ⟨rfl, rfl⟩
  | seek h origin offset =>
    obtain rfl := Option.some.inj hcall
    rw [DosCall.apply, seekDosFile, hfree]
    exact ⟨rfl, rfl⟩
  | close h =>
    obtain rfl := Option.some.inj hcall
    rw [DosCall.apply, closeDosFile, hfree]
    exact ⟨rfl, rfl⟩
  | openFile | createFile | queryAttributes | setAttributes => cases hcall

/-- Over any calls: open handles are distinct and in range, a new one is the lowest free one, a
handle that is not open is refused, and a call that fails leaves the table, and every file unless
the host stops in the middle of changing it. -/
theorem dos_handles_run {x : DosFiles} (hrun : DosRun x) :
    (((x.state.openFiles.filter DosOpenFileHandle.isOpen).map DosOpenFileHandle.handle).Nodup ∧
      ∀ f ∈ x.state.openFiles, f.isOpen = true →
        kFirstDosUserHandle ≤ f.handle ∧ f.handle < kDosOpenHandleLimit) ∧
    ∀ (faults : HostFaults) (call : DosCall),
      (call.Opens → (call.apply x faults).2.failed = false →
        LowestFree x.state (call.apply x faults).2.handle) ∧
      (∀ handle, call.handle? = some handle → findOpen x.state handle = none →
        (call.apply x faults).2.failed = true ∧ (call.apply x faults).2.reply.dosError = 6) ∧
      ((call.apply x faults).2.failed = true →
        (call.apply x faults).1.state.openFiles.map visible = x.state.openFiles.map visible ∧
        (¬call.Torn faults → (call.apply x faults).1.host = x.host) ∧
        ∀ p, p ≠ call.target x → (call.apply x faults).1.host p = x.host p) := by
  refine ⟨⟨hrun.tableOk.distinct, hrun.tableOk.range⟩, fun faults call => ⟨?_, ?_, ?_⟩⟩
  · exact (apply_effect x faults call).lowestFree
  · intro handle hcall hfree
    exact apply_refused hcall hfree faults
  · intro hfailed
    have h := apply_effect x faults call
    exact ⟨h.table_of_failed hfailed, h.host_of_failed hfailed⟩

/-! ## A small host -/

/-- One file of four bytes below the root. -/
def noteHost : HostFiles := fun p =>
  if p = { rootName := "C:".toList, rootDirectory := true, names := ["GAMES".toList, "NOTE".toList] } then
    .file [1, 2, 3, 4]
  else .directory

/-- No file is open. -/
def noteFiles : DosFiles :=
  { state :=
      { valid := true, hostRoot := { rootName := "C:".toList, rootDirectory := true, names := ["GAMES".toList] } }
    host := noteHost }

/-- The file is open for reading and writing. -/
def noteOpened : DosFiles := ((DosCall.openFile "note".toList 2).apply noteFiles {}).1

theorem dos_handles_note :
    ((DosCall.openFile "note".toList 0).apply noteOpened {}).2.failed = false ∧
    LowestFree noteOpened.state ((DosCall.openFile "note".toList 0).apply noteOpened {}).2.handle := by
  have hok : ((DosCall.openFile "note".toList 0).apply noteOpened {}).2.failed = false := by decide +kernel
  have hrun : DosRun noteOpened := DosRun.step (.start rfl) {} _
  exact ⟨hok, ((dos_handles_run hrun).2 {} (.openFile "note".toList 0)).1 trivial hok⟩

/-- A write that the host cuts short fails and has changed the file. -/
theorem dos_write_torn :
    ∃ (x : DosFiles) (faults : HostFaults) (call : DosCall), DosRun x ∧
      (call.apply x faults).2.failed = true ∧
      ∃ p, (call.apply x faults).1.host p ≠ x.host p := by
  refine ⟨noteOpened, { writeStops := some 1 }, .write 5 [9, 9], DosRun.step (.start rfl) {} _, by decide +kernel, ?_⟩
  refine ⟨{ rootName := "C:".toList, rootDirectory := true, names := ["GAMES".toList, "NOTE".toList] }, ?_⟩
  decide +kernel

end Repiu.Hle
