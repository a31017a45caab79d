import Statgrab.Access.ErrorContract
import Statgrab.Buffers
import Statgrab.Process.Errors
import Statgrab.Stats.CpuPage
import Statgrab.Stats.FsReader
import Statgrab.Stats.Host
import Statgrab.Stats.NetIface
import Statgrab.Stats.ProcDir
import Statgrab.Stats.Users
import Statgrab.Stats.ValidFs

/-!
# Leaving through the previous error

`RETURN_FROM_PREVIOUS_ERROR(comp, sg_get_error())` takes the code of a failed function from the thread's
error record. That is an error only if the helper that failed has set one. `ErrorExit` lists these exits,
`Taken` says that the helper failed, and `Reported` where an error is then there to be read: some helpers
return NULL and leave the record as it was, and `sg_vector_resize` clears it when it is asked for no items.
-/

namespace Statgrab

open Text Process

/-- The exits through the previous error, with what their functions are called with. -/
inductive ErrorExit where
  | updateString (dest src : Option CString)
  | updateMem (dest src : Option (List UInt8))
  | lupdateString (dest : Option Cells) (src : Cells) (maxlen : Nat)
  | concatString (dest src : Option Cells)
  | fsCopy (s d : FsStats)
  | diskIoCopy (s d : DiskIoStats)
  | networkIoCopy (s d : NetworkIoStats)
  | networkIfaceCopy (d s : NetworkIfaceStats)
  | diskIoLine (now : Int) (line : DiskLine) (item : DiskIoStats)
  | networkIfaceLine (speedHi : Bool) (now : Int) (line : IfaceLine) (item : NetworkIfaceStats)
  | utmpxRecord (build : LoginBuild) (now : Int) (record : Utmpx) (records : List Utmpx) (n : Nat) (s : Logins)
  | utmpRecord (build : LoginBuild) (now : Int) (record : Utmp) (records : List Utmp) (n : Nat) (s : Logins)
  | fsTypes (i : Nat) (name : CString) (names : List CString) (s : FsTypes)
  | hostInfo (source : HostSource) (os : Utsname) (item : HostInfo)
  | pageStats (file : PageFile) (item : PageStats)
  | processStats (proc : ProcFs)
  | processName (source : ProcessSource) (uptime : Int) (files : ProcessFiles) (name : Option CString)
      (stat : Stream) (item : ProcessStats)
  | processTitle (source : ProcessSource) (file : CmdlineFile) (item : ProcessStats)
  | cloneInto (dest src : Ptr)

namespace ErrorExit

variable {α : Type} (w : World α)

def Returns (rc : SgError) : ErrorExit → Prop
  | .updateString dest src => ∃ x t, sgUpdateString dest src w.toThread = .ok ((rc, x), t)
  | .updateMem dest src => ∃ x t, sgUpdateMem dest src w.toThread = .ok ((rc, x), t)
  | .lupdateString dest src maxlen => ∃ x t, sgLupdateString dest (some src) maxlen w.toThread = .ok ((rc, x), t)
  | .concatString dest src => ∃ x t, sgConcatString (some dest) src w.toThread = .ok ((rc, x), t)
  | .fsCopy s d => ∃ x t, FsStats.copy s d w.toThread = .ok ((rc, x), t)
  | .diskIoCopy s d => ∃ x t, DiskIoStats.copy s d w.toThread = .ok ((rc, x), t)
  | .networkIoCopy s d => ∃ x t, NetworkIoStats.copy s d w.toThread = .ok ((rc, x), t)
  | .networkIfaceCopy d s => ∃ x t, NetworkIfaceStats.copy d s w.toThread = .ok ((rc, x), t)
  | .diskIoLine now line item => ∃ x t, fillDiskIo now line item w.toThread = .ok ((rc, x), t)
  | .networkIfaceLine speedHi now line item =>
      ∃ x t, fillNetworkIface speedHi now line item w.toThread = .ok ((rc, x), t)
  | .utmpxRecord build now record records n s => ∃ s', readLogins loginOps (utmpxSource build now)
      (record :: records) n { s with toThread := w.toThread } = .ok (.error rc, s')
  | .utmpRecord build now record records n s => ∃ s', readLogins loginOps (utmpSource build now)
      (record :: records) n { s with toThread := w.toThread } = .ok (.error rc, s')
  | .fsTypes i name names s =>
      ∃ s', readFsTypes i (name :: names) { s with toThread := w.toThread } = .ok (.error rc, s')
  | .hostInfo source _ item => ∃ x t, sgGetHostInfoInt source item w.toThread = .ok ((rc, x), t)
  | .pageStats file item => ∃ x t, sgGetPageStatsInt file item w.toThread = .ok ((rc, x), t)
  | .processStats proc => ∃ t, processPids proc w.toThread = .ok (.error rc, t)
  | .processName source uptime files name stat item =>
      ∃ x t, fillProcess source uptime files name stat item w.toThread = .ok ((.failed rc, x), t)
  | .processTitle source file item => ∃ x t, fillTitle source file item w.toThread = .ok ((.failed rc, x), t)
  | .cloneInto dest src => ∃ x w', sgVectorCloneIntoInt dest src w = .ok ((rc, x), w')

/-- A string could not be stored. -/
def StringFails (dest src : Option CString) : Prop :=
  ∃ rc x t, sgUpdateString dest src w.toThread = .ok ((rc, x), t) ∧ rc ≠ .none

def CopiesFail {β : Type} (source : LoginSource β) (record : β) (n : Nat) (s : Logins) : Prop :=
  source.skipped record = false ∧ s.refused 0 = none ∧ ∃ item rc x t,
    (resizeUsers s.users (n + 1))[n]? = some item ∧
    runCopies (source.copies record) item w.toThread = .ok ((rc, x), t) ∧ rc ≠ .none

def Taken : ErrorExit → Prop
  | .updateString _ src => ∃ s t, src = some s ∧ sgRealloc (s.length + 1) w.toThread = .ok (false, t)
  | .updateMem _ src => ∃ bytes t, src = some bytes ∧
      sgRealloc bytes.length w.toThread = .ok (false, t)
  | .lupdateString _ src maxlen => ∃ n t, sgStrnlen src maxlen = .ok n ∧
      sgRealloc (n + 1) w.toThread = .ok (false, t)
  | .concatString dest src => ∃ destLen srcLen t, lengthOf dest = .ok destLen ∧ lengthOf src = .ok srcLen ∧
      sgRealloc (destLen + srcLen + 1) w.toThread = .ok (false, t)
  | .fsCopy s d => ∃ rc x t, FsStats.copyStrings s d w.toThread = .ok ((rc, x), t) ∧ rc ≠ .none
  | .diskIoCopy s d => StringFails w d.diskName s.diskName
  | .networkIoCopy s d => StringFails w d.interfaceName s.interfaceName
  | .networkIfaceCopy d s => StringFails w d.interfaceName s.interfaceName
  | .diskIoLine _ line item => StringFails w item.diskName (some line.name)
  | .networkIfaceLine _ _ line item => StringFails w item.interfaceName (some line.name)
  | .utmpxRecord build now record _ n s => CopiesFail w (utmpxSource build now) record n s
  | .utmpRecord build now record _ n s => CopiesFail w (utmpSource build now) record n s
  | .fsTypes i _ _ s => s.numValidFileSystems ≤ i ∧
      ∃ s', growFsTypes i { s with toThread := w.toThread } = .ok (false, s')
  | .hostInfo source os item => source.uname = .ok os ∧ ∃ rc x t,
      runCopies (utsnameCopies os) item.cleared w.toThread = .ok ((rc, x), t) ∧ rc ≠ .none
  | .pageStats file _ => ∃ f rest t, file.source = .error (.ok f) ∧
      sgFReadLine 256 f "page" w.toThread = .ok ((none, rest), t)
  | .processStats proc => (∃ uptime, proc.uptime = .ok (some uptime)) ∧
      ∃ t, scanProcDir proc.pageSize proc.dir w.toThread = .ok (none, t)
  | .processName _ _ _ name stat item => (Process.scanStat name stat).complete = true ∧
      StringFails w item.processName (some (procName (Process.scanStat name stat).readBuf))
  | .processTitle source file item => ∃ rc t,
      readChunks source.raw file.chunks (item.proctitle.map (· ++ [0])) 0 w.toThread = .ok (.error rc, t)
  | .cloneInto dest src => ∃ d s w', w.store dest = some d ∧ w.store src = some s ∧
      d.usedCount ≠ s.usedCount ∧ sgVectorResize (some dest) s.usedCount w = .ok (none, w')

/-- The helper sets an error, or one is there already. -/
def Reported : ErrorExit → Prop
  | .updateMem _ src => src ≠ some [] ∨ w.error ≠ .none
  | .pageStats file _ => (∀ f, file.source = .error (.ok f) → f.failure ≠ none) ∨ w.error ≠ .none
  | .processStats proc =>
      (w.mem 0 = true ∧ w.mem 1 = true ∧ ∃ errno, proc.dir.entries = .error errno) ∨ w.error ≠ .none
  | .cloneInto _ src => ∀ s, w.store src = some s → s.usedCount ≠ 0
  | _ => True

end ErrorExit

/-! ### The exits -/

section

variable {α : Type} {w : World α}

/-- The exit is settled: the function returns a code, and the code is an error where one is reported. -/
def ErrorExit.Settled (w : World α) (e : ErrorExit) : Prop :=
  (∃ rc, e.Returns w rc) ∧ ∀ rc, e.Returns w rc → (rc ≠ .none ↔ e.Reported w)

theorem ErrorExit.settled_of_code {e : ErrorExit} {rc : SgError} (hreturns : ∀ rc', e.Returns w rc' ↔ rc' = rc)
    (hiff : rc ≠ .none ↔ e.Reported w) : e.Settled w := by
  refine ⟨⟨rc, (hreturns rc).mpr rfl⟩, ?_⟩
  intro rc' h
  rw [(hreturns rc').mp h]
  exact hiff

theorem ErrorExit.settled_of_run {e : ErrorExit} {ε β σ : Type} {run : Except ε ((SgError × β) × σ)} {t : σ}
    {rc : SgError} {b : β} (hrun : run = .ok ((rc, b), t))
    (hreturns : ∀ rc, e.Returns w rc ↔ ∃ b t, run = .ok ((rc, b), t)) (hiff : rc ≠ .none ↔ e.Reported w) :
    e.Settled w := by
  refine ErrorExit.settled_of_code (fun rc' => (hreturns rc').trans ⟨?_, ?_⟩) hiff
  · rintro ⟨b', t', hrun'⟩
    rw [hrun] at hrun'
    cases hrun'
    rfl
  · rintro rfl
    exact ⟨b, t, hrun⟩

theorem ErrorExit.settled_of_exit {e : ErrorExit} {ε β σ : Type} {run : Except ε (Except SgError β × σ)} {s : σ}
    {rc : SgError} (hrun : run = .ok (.error rc, s))
    (hreturns : ∀ rc, e.Returns w rc ↔ ∃ s, run = .ok (.error rc, s)) (hiff : rc ≠ .none ↔ e.Reported w) :
    e.Settled w := by
  refine ErrorExit.settled_of_code (fun rc' => (hreturns rc').trans ⟨?_, ?_⟩) hiff
  · rintro ⟨s', hrun'⟩
    rw [hrun] at hrun'
    cases hrun'
    rfl
  · rintro rfl
    exact ⟨s, hrun⟩

theorem ErrorExit.settled_of_failed {e : ErrorExit} {ε β σ : Type} {run : Except ε ((Fill × β) × σ)} {t : σ}
    {rc : SgError} {b : β} (hrun : run = .ok ((.failed rc, b), t))
    (hreturns : ∀ rc, e.Returns w rc ↔ ∃ b t, run = .ok ((.failed rc, b), t)) (hiff : rc ≠ .none ↔ e.Reported w) :
    e.Settled w := by
  refine ErrorExit.settled_of_code (fun rc' => (hreturns rc').trans ⟨?_, ?_⟩) hiff
  · rintro ⟨b', t', hrun'⟩
    rw [hrun] at hrun'
    cases hrun'
    rfl
  · rintro rfl
    exact ⟨b, t, hrun⟩

theorem ErrorExit.settled_of_string {e : ErrorExit} {β : Type} {x : ThreadM (SgError × β)}
    {dest src : Option CString} (hfails : ErrorExit.StringFails w dest src)
    (hleaves : ∀ rc y t, sgUpdateString dest src w.toThread = .ok ((rc, y), t) → rc ≠ .none →
      ∃ b, x w.toThread = .ok ((t.error, b), t))
    (hreturns : ∀ rc, e.Returns w rc ↔ ∃ b t, x w.toThread = .ok ((rc, b), t))
    (hreported : e.Reported w) : e.Settled w := by
  obtain ⟨rc, y, t, hupdate, hrc⟩ := hfails
  obtain ⟨b, hrun⟩ := hleaves rc y t hupdate hrc
  refine ErrorExit.settled_of_run hrun hreturns (iff_of_true ?_ hreported)
  rw [sgUpdateString_refused hupdate hrc]
  decide

theorem ErrorExit.updateString_settled {dest src : Option CString}
    (h : (ErrorExit.updateString dest src).Taken w) : (ErrorExit.updateString dest src).Settled w := by
  obtain ⟨s, t, rfl, hrealloc⟩ := h
  have hrun : sgUpdateString dest (some s) w.toThread = .ok ((t.error, dest), t) := by
    rw [sgUpdateString, Prog.bind_of_ok hrealloc]
    rfl
  refine ErrorExit.settled_of_run hrun (fun _ => Iff.rfl) (iff_of_true ?_ trivial)
  rw [sgRealloc_refused (Nat.succ_ne_zero _) hrealloc]
  decide

theorem ErrorExit.updateMem_settled {dest src : Option (List UInt8)}
    (h : (ErrorExit.updateMem dest src).Taken w) : (ErrorExit.updateMem dest src).Settled w := by
  obtain ⟨bytes, t, rfl, hrealloc⟩ := h
  have hrun : sgUpdateMem dest (some bytes) w.toThread
      = .ok ((t.error, if bytes.length = 0 then none else some dest), t) := by
    rw [sgUpdateMem, Prog.bind_of_ok hrealloc]
    rfl
  refine ErrorExit.settled_of_run hrun (fun _ => Iff.rfl) ?_
  cases bytes with
  | nil =>
      cases hrealloc
      simp [ErrorExit.Reported]
  | cons b bytes =>
      rw [sgRealloc_refused (Nat.succ_ne_zero _) hrealloc]
      simp [ErrorExit.Reported]

theorem ErrorExit.lupdateString_settled {dest : Option Cells} {src : Cells} {maxlen : Nat}
    (h : (ErrorExit.lupdateString dest src maxlen).Taken w) :
    (ErrorExit.lupdateString dest src maxlen).Settled w := by
  obtain ⟨n, t, hlen, hrealloc⟩ := h
  have halloc : onStringThread (sgRealloc (n + 1)) w.toThread = .ok (false, t) := by
    rw [onStringThread, hrealloc]
  have hrun : sgLupdateString dest (some src) maxlen w.toThread = .ok ((t.error, dest), t) := by
    rw [sgLupdateString, Prog.bind_of_ok (onCells_of_ok hlen _), Prog.bind_of_ok halloc]
    rfl
  refine ErrorExit.settled_of_run hrun (fun _ => Iff.rfl) (iff_of_true ?_ trivial)
  rw [sgRealloc_refused (Nat.succ_ne_zero _) hrealloc]
  decide

theorem ErrorExit.concatString_settled {dest src : Option Cells} (h : (ErrorExit.concatString dest src).Taken w) :
    (ErrorExit.concatString dest src).Settled w := by
  obtain ⟨destLen, srcLen, t, hdest, hsrc, hrealloc⟩ := h
  have halloc : onStringThread (sgRealloc (destLen + srcLen + 1)) w.toThread = .ok (false, t) := by
    rw [onStringThread, hrealloc]
  have hrun : sgConcatString (some dest) src w.toThread = .ok ((t.error, some dest), t) := by
    rw [sgConcatString, Prog.bind_of_ok (onCells_of_ok hdest _), Prog.bind_of_ok (onCells_of_ok hsrc _),
      Prog.bind_of_ok halloc]
    rfl
  refine ErrorExit.settled_of_run hrun (fun _ => Iff.rfl) (iff_of_true ?_ trivial)
  rw [sgRealloc_refused (Nat.succ_ne_zero _) hrealloc]
  decide

theorem ErrorExit.fsCopy_settled {s d : FsStats} (h : (ErrorExit.fsCopy s d).Taken w) :
    (ErrorExit.fsCopy s d).Settled w := by
  obtain ⟨rc, x, t, hcopy, hrc⟩ := h
  have hrun : FsStats.copy s d w.toThread = .ok ((t.error, x), t) := by
    rw [FsStats.copy, Prog.bind_of_ok hcopy]
    simp only [if_pos hrc]
    rfl
  refine ErrorExit.settled_of_run hrun (fun _ => Iff.rfl) (iff_of_true ?_ trivial)
  rcases FsStats.copyStrings_cases s d w.toThread with ⟨t', hrun', -⟩ | ⟨x', t', hrun', herr, -⟩
  · rw [hrun'] at hcopy
    cases hcopy
    exact absurd rfl hrc
  · rw [hrun'] at hcopy
    cases hcopy
    rw [herr]
    decide

/-- A copy of a login record that fails leaves the error of `sg_update_string` or `sg_update_mem`. -/
theorem ErrorExit.CopiesFail.run {β : Type} {source : LoginSource β} {copies n : Nat}
    (hreg : source.Regular copies) {record : β} {s : Logins} (h : ErrorExit.CopiesFail w source record n s)
    (records : List β) : ∃ rc s', rc ≠ .none ∧
      readLogins loginOps source (record :: records) n { s with toThread := w.toThread } = .ok (.error rc, s') := by
  obtain ⟨hskip, hgranted, item, rc, x, t, hitem, hcopies, hrc⟩ := h
  obtain ⟨s', hrun, -⟩ := @readLogins_failed _ source { s with toThread := w.toThread } record hskip hgranted n item
    x rc t hitem hcopies hrc records
  exact ⟨t.error, s', hreg.copies_leaveErrors record item w.toThread rc x t hcopies hrc, hrun⟩

theorem ErrorExit.fsTypes_settled {i : Nat} {name : CString} {names : List CString} {s : FsTypes}
    (h : (ErrorExit.fsTypes i name names s).Taken w) : (ErrorExit.fsTypes i name names s).Settled w := by
  obtain ⟨hnum, s', hgrow⟩ := h
  have hrun := @readFsTypes_refused i { s with toThread := w.toThread } s' hnum hgrow name names
  refine ErrorExit.settled_of_exit hrun (fun _ => Iff.rfl) (iff_of_true ?_ trivial)
  rw [growFsTypes_refused hgrow]
  decide

theorem ErrorExit.hostInfo_settled {source : HostSource} {os : Utsname} {item : HostInfo}
    (h : (ErrorExit.hostInfo source os item).Taken w) : (ErrorExit.hostInfo source os item).Settled w := by
  obtain ⟨huname, rc, x, t, hcopies, hrc⟩ := h
  have hrun : sgGetHostInfoInt source item w.toThread = .ok ((t.error, x), t) := by
    rw [sgGetHostInfoInt, huname]
    simp only
    rw [Prog.bind_of_ok hcopies]
    simp only [if_pos hrc]
    rfl
  exact ErrorExit.settled_of_run hrun (fun _ => Iff.rfl)
    (iff_of_true (utsnameCopies_leaveErrors os _ _ _ _ _ hcopies hrc) trivial)

theorem ErrorExit.pageStats_settled {file : PageFile} {item : PageStats}
    (h : (ErrorExit.pageStats file item).Taken w) : (ErrorExit.pageStats file item).Settled w := by
  obtain ⟨f, rest, t, hsource, hread⟩ := h
  have hrun : sgGetPageStatsInt file item w.toThread = .ok ((t.error, ⟨0, 0, file.now⟩), t) := by
    rw [sgGetPageStatsInt, hsource]
    simp only
    rw [Prog.bind_of_ok hread]
    rfl
  refine ErrorExit.settled_of_run hrun (fun _ => Iff.rfl) ?_
  have hfailure : (∀ g, file.source = .error (.ok g) → g.failure ≠ none) ↔ f.failure ≠ none := by
    rw [hsource]
    simp
  rw [ErrorExit.Reported, hfailure, sgFReadLine_error hread]
  cases f.failure with
  | none => simp
  | some errno => simp

theorem ErrorExit.processStats_settled {proc : ProcFs} (h : (ErrorExit.processStats proc).Taken w) :
    (ErrorExit.processStats proc).Settled w := by
  obtain ⟨⟨uptime, huptime⟩, t, hscan⟩ := h
  have hrun : processPids proc w.toThread = .ok (.error t.error, t) := by
    rw [processPids, huptime]
    simp only
    rw [Prog.bind_of_ok hscan]
    rfl
  refine ErrorExit.settled_of_exit hrun (fun _ => Iff.rfl) ?_
  rcases scanProcDir_null hscan with ⟨hcnt, hdir, errno, hopen, herr⟩ | ⟨hnot, herr⟩
  · refine iff_of_true ?_ (.inl ⟨hcnt, hdir, errno, hopen⟩)
    rw [herr]
    decide
  · rw [herr]
    exact (or_iff_right hnot).symm

theorem ErrorExit.processName_settled {source : ProcessSource} {uptime : Int} {files : ProcessFiles}
    {name : Option CString} {stat : Stream} {item : ProcessStats}
    (h : (ErrorExit.processName source uptime files name stat item).Taken w) :
    (ErrorExit.processName source uptime files name stat item).Settled w := by
  obtain ⟨hcomplete, rc, y, t, hupdate, hrc⟩ := h
  have hrun : ∃ x, fillProcess source uptime files name stat item w.toThread = .ok ((.failed t.error, x), t) := by
    let values := (Process.scanStat name stat).values
    refine ⟨{ (item.storeStat values).storeState source values with processName := y }, ?_⟩
    have hstored : sgUpdateString ((item.storeStat values).storeState source values).processName
        (some (procName (Process.scanStat name stat).readBuf)) w.toThread = .ok ((rc, y), t) := hupdate
    rw [fillProcess]
    simp only [hcomplete, if_true]
    rw [Prog.bind_of_ok hstored]
    simp only [if_neg hrc]
    rfl
  obtain ⟨x, hrun⟩ := hrun
  refine ErrorExit.settled_of_failed hrun (fun _ => Iff.rfl) (iff_of_true ?_ trivial)
  rw [sgUpdateString_refused hupdate hrc]
  decide

theorem ErrorExit.processTitle_settled {source : ProcessSource} {file : CmdlineFile} {item : ProcessStats}
    (h : (ErrorExit.processTitle source file item).Taken w) :
    (ErrorExit.processTitle source file item).Settled w := by
  obtain ⟨rc, t, hread⟩ := h
  have hcmdline : readCmdline source.raw file (item.proctitle.map (· ++ [0])) w.toThread = .ok (.refused rc, t) := by
    rw [readCmdline, Prog.bind_of_ok hread]
    rfl
  have hrun : fillTitle source file item w.toThread = .ok ((.failed rc, { item with proctitle := none }), t) := by
    rw [fillTitle, Prog.bind_of_ok hcmdline]
    rfl
  refine ErrorExit.settled_of_failed hrun (fun _ => Iff.rfl) (iff_of_true ?_ trivial)
  rw [(readChunks_error _ hread).2]
  decide

theorem ErrorExit.cloneInto_settled {dest src : Ptr} (h : (ErrorExit.cloneInto dest src).Taken w) :
    (ErrorExit.cloneInto dest src).Settled w := by
  obtain ⟨d, s, w', hd, hs, hne, hresize⟩ := h
  have hrun := sgVectorCloneIntoInt_of_null hd hs hne hresize
  refine ⟨⟨w'.error, _, _, hrun⟩, ?_⟩
  rintro rc ⟨x, w'', hrun'⟩
  rw [hrun] at hrun'
  cases hrun'
  rw [sgVectorResize_null hresize]
  constructor
  · intro hrc s' hs' hzero
    rw [hs] at hs'
    cases hs'
    exact hrc (if_pos hzero)
  · intro hitems
    rw [if_neg (hitems s hs)]
    decide

/-- A function that leaves through the previous error returns a code, and that is an error exactly if the
helper set one or one was there before. -/
theorem ErrorExit.returns_error_iff (e : ErrorExit) (w : World α) (htaken : e.Taken w) :
    (∃ rc, e.Returns w rc) ∧ ∀ rc, e.Returns w rc → (rc ≠ .none ↔ e.Reported w) := by
  cases e with
  | updateString dest src => exact ErrorExit.updateString_settled htaken
  | updateMem dest src => exact ErrorExit.updateMem_settled htaken
  | lupdateString dest src maxlen => exact ErrorExit.lupdateString_settled htaken
  | concatString dest src => exact ErrorExit.concatString_settled htaken
  | fsCopy s d => exact ErrorExit.fsCopy_settled htaken
  | diskIoCopy s d =>
      refine ErrorExit.settled_of_string htaken ?_ (fun _ => Iff.rfl) trivial
      intro rc y t hupdate hrc
      refine ⟨{ d with diskName := y }, ?_⟩
      rw [DiskIoStats.copy, Prog.bind_of_ok hupdate]
      simp only [if_pos hrc]
      rfl
  | networkIoCopy s d =>
      refine ErrorExit.settled_of_string htaken ?_ (fun _ => Iff.rfl) trivial
      intro rc y t hupdate hrc
      refine ⟨{ d with interfaceName := y }, ?_⟩
      rw [NetworkIoStats.copy, Prog.bind_of_ok hupdate]
      simp only [if_pos hrc]
      rfl
  | networkIfaceCopy d s =>
      refine ErrorExit.settled_of_string htaken ?_ (fun _ => Iff.rfl) trivial
      intro rc y t hupdate hrc
      refine ⟨{ d with interfaceName := y }, ?_⟩
      rw [NetworkIfaceStats.copy, Prog.bind_of_ok hupdate]
      simp only [if_pos hrc]
      rfl
  | diskIoLine now line item =>
      refine ErrorExit.settled_of_string htaken ?_ (fun _ => Iff.rfl) trivial
      intro rc y t hupdate hrc
      refine ⟨{ item with diskName := y }, ?_⟩
      rw [fillDiskIo, Prog.bind_of_ok hupdate]
      simp only [if_pos hrc]
      rfl
  | networkIfaceLine speedHi now line item =>
      refine ErrorExit.settled_of_string htaken ?_ (fun _ => Iff.rfl) trivial
      intro rc y t hupdate hrc
      refine ⟨{ item with interfaceName := y }, ?_⟩
      rw [fillNetworkIface, Prog.bind_of_ok hupdate]
      simp only [if_pos hrc]
      rfl
  | utmpxRecord build now record records n s =>
      obtain ⟨rc, s', hrc, hrun⟩ := ErrorExit.CopiesFail.run (utmpxSource_regular build now) htaken records
      exact ErrorExit.settled_of_exit hrun (fun _ => Iff.rfl) (iff_of_true hrc trivial)
  | utmpRecord build now record records n s =>
      obtain ⟨rc, s', hrc, hrun⟩ := ErrorExit.CopiesFail.run (utmpSource_regular build now) htaken records
      exact ErrorExit.settled_of_exit hrun (fun _ => Iff.rfl) (iff_of_true hrc trivial)
  | fsTypes i name names s => exact ErrorExit.fsTypes_settled htaken
  | hostInfo source os item => exact ErrorExit.hostInfo_settled htaken
  | pageStats file item => exact ErrorExit.pageStats_settled htaken
  | processStats proc => exact ErrorExit.processStats_settled htaken
  | processName source uptime files name stat item => exact ErrorExit.processName_settled htaken
  | processTitle source file item => exact ErrorExit.processTitle_settled htaken
  | cloneInto dest src => exact ErrorExit.cloneInto_settled htaken

end

/-- A `/proc/stat` that cannot be read to its end. -/
theorem returns_error_unreadable :
    (∃ rc, (ErrorExit.pageStats ⟨.error (.ok ⟨[], some 5⟩), 0⟩ .zero).Returns (emptyWorld Nat) rc) ∧
      ∀ rc, (ErrorExit.pageStats ⟨.error (.ok ⟨[], some 5⟩), 0⟩ .zero).Returns (emptyWorld Nat) rc →
        rc ≠ .none := by
  obtain ⟨hreturns, hiff⟩ := ErrorExit.returns_error_iff
    (.pageStats ⟨.error (.ok ⟨[], some 5⟩), 0⟩ .zero) (emptyWorld Nat) ⟨_, _, _, rfl, rfl⟩
  exact ⟨hreturns, fun rc hrc => (hiff rc hrc).mpr (.inl (by rintro f ⟨⟩; decide))⟩

/-- `SG_ERROR_NONE` through the error exit: no `page` line in `/proc/stat`, no memory for the first pid, and
a copy of a vector without items. -/
theorem returns_none :
    ((ErrorExit.pageStats ⟨.error (.ok ⟨[], none⟩), 0⟩ .zero).Taken (emptyWorld Nat) ∧
      (ErrorExit.pageStats ⟨.error (.ok ⟨[], none⟩), 0⟩ .zero).Returns (emptyWorld Nat) .none) ∧
    ((ErrorExit.processStats ⟨.ok (some 1), ⟨.ok [some 1], 0⟩, 4096⟩).Taken
        { emptyWorld Nat with mem := fun _ => false } ∧
      (ErrorExit.processStats ⟨.ok (some 1), ⟨.ok [some 1], 0⟩, 4096⟩).Returns
        { emptyWorld Nat with mem := fun _ => false } .none) ∧
    ((ErrorExit.cloneInto 0 1).Taken (counterWorld (counterVector 1) (counterVector 0)) ∧
      (ErrorExit.cloneInto 0 1).Returns (counterWorld (counterVector 1) (counterVector 0)) .none) := by
  refine ⟨⟨⟨_, _, _, rfl, rfl⟩, _, _, rfl⟩, ⟨⟨⟨1, rfl⟩, _, rfl⟩, _, rfl⟩, ?_, _, _, rfl⟩
  exact ⟨counterVector 1, counterVector 0, _, rfl, rfl, by decide, rfl⟩

end Statgrab
