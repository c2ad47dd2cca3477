import Repiu.Hle.DosHandles

/-!
# File contents through handles

A handle remembers the size of its file from the open on and follows its own
writes only. Reads and seeks from the end are right where that size is the
file's; it is so over every run in which no file changes its size while another
handle is open on it.
-/

namespace Repiu.Hle

open Repiu

/-- The bytes behind a handle; the console has none. -/
def fileBytes (x : DosFiles) (f : DosOpenFileHandle) : List (BitVec 8) :=
  if f.consoleDevice then [] else x.host.contents f.hostPath

theorem fileBytes_congr {x y : DosFiles} {f g : DosOpenFileHandle} (hhost : y.host = x.host)
    (hconsole : f.consoleDevice = g.consoleDevice) (hpath : f.hostPath = g.hostPath) :
    fileBytes y f = fileBytes x g := by
  rw [fileBytes, fileBytes, hhost, hconsole, hpath]

theorem HostFiles.contents_set (host : HostFiles) (path : WindowsPath) (bytes : List (BitVec 8)) (p : WindowsPath) :
    (host.set path bytes).contents p = if p = path then bytes else host.contents p := by
  unfold contents set
  by_cases h : p = path
  · rw [if_pos h, if_pos h]
  · rw [if_neg h, if_neg h]

theorem length_overwrite {contents : List (BitVec 8)} {offset : ℕ} {bytes : List (BitVec 8)} (h : bytes ≠ []) :
    (overwrite contents offset bytes).length = max contents.length (offset + bytes.length) := by
  rw [overwrite, if_neg h]
  simp only [List.length_append, List.length_take, List.length_replicate, List.length_drop]
  omega

/-! ## Reads and seeks -/

/-- Every open handle remembers the size of its file. -/
def Synced (x : DosFiles) : Prop :=
  ∀ f ∈ x.state.openFiles, f.isOpen = true → f.cachedFileSize = (fileBytes x f).length

/-- The call does not change the size of a file on which another handle is open, and the host
completes it. -/
def DosCall.Quiet (x : DosFiles) (faults : HostFaults) : DosCall → Prop
  | .openFile .. => faults.sizeFails = false
  | .createFile guestPath _ =>
    ∀ f ∈ x.state.openFiles, f.isOpen = true → f.consoleDevice = false →
      f.hostPath = (resolveGuestPath x.state guestPath).1.hostPath → x.host.contents f.hostPath = []
  | .write handle bytes =>
    faults.writeStops = none ∧
    ∀ file, findOpen x.state handle = some file →
      ∀ f ∈ x.state.openFiles, f.isOpen = true → f.consoleDevice = false → f.handle ≠ handle →
        f.hostPath = file.hostPath → file.fileOffset + bytes.length ≤ (x.host.contents f.hostPath).length
  | _ => True

/-- A run in which no call changes the size of a file on which another handle is open. -/
inductive QuietRun : DosFiles → Prop
  | start {x : DosFiles} (h : x.state.openFiles = []) : QuietRun x
  | step {x : DosFiles} (h : QuietRun x) {faults : HostFaults} {call : DosCall} (hquiet : call.Quiet x faults) :
    QuietRun (call.apply x faults).1

theorem QuietRun.dosRun {x : DosFiles} (h : QuietRun x) : DosRun x := by
  induction h with
  | start h => exact .start h
  | step _ _ ih => exact .step ih _ _

/-- Setting a file keeps the sizes behind the handles on other files. -/
theorem length_fileBytes_set {x y : DosFiles} {path : WindowsPath} {bytes : List (BitVec 8)}
    (hhost : y.host = x.host.set path bytes) {f : DosOpenFileHandle}
    (h : f.consoleDevice = false → f.hostPath = path → bytes.length = (x.host.contents f.hostPath).length) :
    (fileBytes y f).length = (fileBytes x f).length := by
  rw [fileBytes, fileBytes, hhost, HostFiles.contents_set]
  by_cases hconsole : f.consoleDevice = true
  · rw [if_pos hconsole, if_pos hconsole]
  · rw [if_neg hconsole, if_neg hconsole]
    rw [Bool.not_eq_true] at hconsole
    split
    · next hpath => exact h hconsole hpath
    · rfl

/-- A record that a call leaves alone stays synced where its file keeps its size. -/
theorem Synced.keep {x y : DosFiles} (h : Synced x) {f g : DosOpenFileHandle} (hf : f ∈ x.state.openFiles)
    (hopen : f.isOpen = true) (hsize : g.cachedFileSize = f.cachedFileSize)
    (hbytes : (fileBytes y g).length = (fileBytes x f).length) :
    g.cachedFileSize = (fileBytes y g).length := by
  rw [hsize, hbytes]
  exact h f hf hopen

/-- A change of offsets and streams keeps everything synced. -/
theorem Synced.update {x y : DosFiles} (h : Synced x) (htable : TableOk x.state.openFiles) {handle : ℕ}
    {f : DosOpenFileHandle → DosOpenFileHandle}
    (hf : ∀ a, ∃ offset, visible (f a) = { visible a with fileOffset := offset })
    (hfiles : y.state.openFiles =
      SlotTable.update DosOpenFileHandle.isOpen DosOpenFileHandle.handle handle f x.state.openFiles)
    (hhost : y.host = x.host) : Synced y := by
  intro a ha hopen
  rw [hfiles] at ha
  rcases SlotTable.mem_update htable.distinct ha hopen with ⟨b, hb, hlive, -, rfl⟩ | ⟨ha, -⟩
  · obtain ⟨offset, hvisible⟩ := hf b
    have hsize : (visible (f b)).cachedFileSize = (visible b).cachedFileSize := by rw [hvisible]
    have hconsole : (visible (f b)).consoleDevice = (visible b).consoleDevice := by rw [hvisible]
    have hpath : (visible (f b)).hostPath = (visible b).hostPath := by rw [hvisible]
    exact h.keep hb hlive hsize (congrArg List.length (fileBytes_congr hhost hconsole hpath))
  · exact h.keep ha hopen rfl (congrArg List.length (fileBytes_congr hhost rfl rfl))

/-- The size after a write through a handle that is synced. -/
theorem Synced.wrote {x y : DosFiles} (h : Synced x) (htable : TableOk x.state.openFiles) {handle : ℕ}
    {bytes : List (BitVec 8)} {file : DosOpenFileHandle} (hfind : findOpen x.state handle = some file)
    (hconsole : file.consoleDevice = false) (hbytes : bytes ≠ [])
    (hquiet : ∀ f ∈ x.state.openFiles, f.isOpen = true → f.consoleDevice = false → f.handle ≠ handle →
      f.hostPath = file.hostPath → file.fileOffset + bytes.length ≤ (x.host.contents f.hostPath).length)
    (hfiles : y.state.openFiles =
      SlotTable.update DosOpenFileHandle.isOpen DosOpenFileHandle.handle handle
        (DosOpenFileHandle.wrote bytes.length) x.state.openFiles)
    (hhost : y.host = x.host.set file.hostPath
      (overwrite (x.host.contents file.hostPath) file.fileOffset bytes)) : Synced y := by
  intro a ha hopen
  rw [hfiles] at ha
  rcases SlotTable.mem_update htable.distinct ha hopen with ⟨b, hb, hlive, hkey, rfl⟩ | ⟨ha, hkey⟩
  · -- the handle that was written through
    have hsame : some b = some file := by
      rw [← htable.distinct.find hb hlive, hkey]
      exact hfind
    obtain rfl := Option.some.inj hsame
    have hsize := h b hb hlive
    rw [fileBytes, if_neg (by rw [hconsole]; decide)] at hsize
    have hnew : fileBytes y (DosOpenFileHandle.wrote bytes.length b) =
        overwrite (x.host.contents b.hostPath) b.fileOffset bytes := by
      show (if b.consoleDevice then [] else y.host.contents b.hostPath) = _
      rw [if_neg (by rw [hconsole]; decide), hhost, HostFiles.contents_set, if_pos rfl]
    rw [hnew, length_overwrite hbytes, ← hsize]
    rfl
  · refine h.keep ha hopen rfl (length_fileBytes_set hhost fun hnot hpath => ?_)
    rw [length_overwrite hbytes, ← hpath, Nat.max_eq_left (hquiet a ha hopen hnot hkey hpath)]

theorem Effect.synced {x y : DosFiles} {faults : HostFaults} {call : DosCall} {o : DosOutcome}
    (h : Effect x faults call y o) (htable : TableOk x.state.openFiles) (hquiet : call.Quiet x faults)
    (hx : Synced x) : Synced y := by
  cases h with
  | none hfiles hhost =>
    intro f hf hopen
    rw [hfiles] at hf
    exact hx.keep hf hopen rfl (congrArg List.length (fileBytes_congr hhost rfl rfl))
  | opened file hlive _ hfile hfiles hhost =>
    intro f hf hopen
    rw [hfiles] at hf
    rcases (SlotTable.mem_insert hlive hopen).mp hf with rfl | hf
    · rcases hfile with ⟨hconsole, hsize⟩ | ⟨hconsole, bytes, hnode, hsize⟩
      · rw [hsize, fileBytes, if_pos hconsole]
        rfl
      · rw [DosCall.Quiet] at hquiet
        rw [hquiet] at hsize
        rw [hsize, fileBytes, hconsole, hhost, HostFiles.contents, hnode]
        rfl
    · exact hx.keep hf hopen rfl (congrArg List.length (fileBytes_congr hhost rfl rfl))
  | created file hlive _ hsize hconsole hpath hfiles hhost =>
    intro f hf hopen
    rw [hfiles] at hf
    rcases (SlotTable.mem_insert hlive hopen).mp hf with rfl | hf
    · rw [hsize, fileBytes, hconsole, hhost, HostFiles.contents_set, if_pos rfl]
      rfl
    · refine hx.keep hf hopen rfl (length_fileBytes_set hhost fun hnot hsame => ?_)
      rw [hquiet f hf hopen hnot (hsame.trans hpath)]
  | tornCreate _ hfiles hhost =>
    intro f hf hopen
    rw [hfiles] at hf
    refine hx.keep hf hopen rfl (length_fileBytes_set hhost fun hnot hsame => ?_)
    rw [hquiet f hf hopen hnot hsame]
  | warmed _ handle f hf hfiles hhost =>
    exact hx.update htable (fun a => ⟨a.fileOffset, hf a⟩) hfiles hhost
  | tornWrite file written _ hfault =>
    rw [hquiet.1] at hfault
    cases hfault
  | wrote file hfind hconsole hbytes hfiles hhost =>
    exact hx.wrote htable hfind hconsole hbytes (hquiet.2 file hfind) hfiles hhost
  | moved _ handle f hf hfiles hhost => exact hx.update htable hf hfiles hhost
  | closed hfiles hhost =>
    intro a ha hopen
    rw [hfiles] at ha
    rcases SlotTable.mem_update htable.distinct ha hopen with ⟨b, hb, -, -, rfl⟩ | ⟨ha, -⟩
    · cases hopen
    · exact hx.keep ha hopen rfl (congrArg List.length (fileBytes_congr hhost rfl rfl))

theorem QuietRun.synced {x : DosFiles} (h : QuietRun x) : Synced x := by
  induction h with
  | start h =>
    intro f hf
    rw [h] at hf
    cases hf
  | step h hquiet ih => exact (apply_effect _ _ _).synced h.dosRun.tableOk hquiet ih

/-! ## Coherence -/

end Repiu.Hle
