import Statgrab.Access.ErrorContract
import Statgrab.Process.Errors
import Statgrab.Stats.CpuPage
import Statgrab.Stats.FailedReads
import Statgrab.Stats.Host
import Statgrab.Stats.NetIface
import Statgrab.Stats.Users

/-!
# Which failures are reported

All accessors of the library as one family: the getters of the twelve statistics, and the two diffs of five of
them, over the readers they have on Linux.

The readers of `/proc` leave an error with every code they return. The filesystem reader does not: it
ends by giving the vector of a failed listing back through `sg_vector_resize`, which clears the error.
-/

namespace Statgrab

variable {α : Type}

/-! ### Readers that leave an error -/

theorem LawfulFill.leavesErrors {fill : ItemFn α} {spec : α → Prop} (h : LawfulFill fill spec) :
    ItemFn.LeavesErrors fill := by
  intro y t rc x t' hrun hne
  obtain ⟨rc', x', t1, hrun', herr, -⟩ := h y t
  rw [hrun] at hrun'
  cases hrun'
  exact herr hne

theorem fillItems_leavesErrors {β : Type} {info : VectorInitInfo α} {fill : β → ItemFn α}
    (hfill : ∀ b, ItemFn.LeavesErrors (fill b)) (bs : List β) (i : Nat) :
    FillFn.LeavesErrors (fillItems info fill bs i) := by
  induction bs generalizing i with
  | nil =>
      intro x w rc y w' hrun hne
      cases hrun
      exact absurd rfl hne
  | cons b bs ih =>
      intro x w rc y w' hrun hne
      rw [fillItems_cons] at hrun
      obtain ⟨r, w1, -, hrun⟩ := Prog.bind_eq_ok.mp hrun
      cases r with
      | none => cases hrun
      | some q =>
          obtain ⟨rc1, w2, hitem, hrun⟩ := Prog.bind_eq_ok.mp hrun
          by_cases hrc1 : rc1 = .none
          · rw [if_pos hrc1] at hrun
            exact ih (i + 1) _ _ _ _ _ hrun hne
          · rw [if_neg hrc1] at hrun
            cases hrun
            obtain ⟨v, z, t, -, hfn, rfl⟩ := onItem_eq_ok hitem
            exact hfill b _ _ _ _ _ hfn hne

theorem sgGetDiskIoStatsInt_leavesErrors (file : DiskFile) : FillFn.LeavesErrors (sgGetDiskIoStatsInt file) := by
  intro x w rc y w' hrun hne
  cases x with
  | none =>
      cases hrun
      exact hne
  | some p =>
      cases hlines : file.lines with
      | error errno =>
          rw [sgGetDiskIoStatsInt, hlines] at hrun
          cases hrun
          exact hne
      | ok lines =>
          rw [sgGetDiskIoStatsInt, hlines] at hrun
          exact fillItems_leavesErrors (fun line => (fillDiskIo_lawful file.now line).leavesErrors) _ _ _ _ _ _ _
            hrun hne

theorem sgGetNetworkIoStatsInt_leavesErrors (file : NetworkFile) :
    FillFn.LeavesErrors (sgGetNetworkIoStatsInt file) := by
  intro x w rc y w' hrun hne
  cases file with
  | unopened errno =>
      cases hrun
      exact hne
  | untitled errno =>
      cases hrun
      exact hne
  | titled lines =>
      exact fillItems_leavesErrors (fun line => (fillNetworkIo_lawful line).leavesErrors) _ _ _ _ _ _ _ hrun hne

theorem sgGetNetworkIfaceStatsInt_leavesErrors (speedHi : Bool) (now : Int) (file : IfaceFile) :
    FillFn.LeavesErrors (sgGetNetworkIfaceStatsInt speedHi now file) := by
  intro x w rc y w' hrun hne
  cases file with
  | unopened errno =>
      cases hrun
      exact hne
  | socket errno =>
      cases hrun
      exact hne
  | untitled =>
      cases hrun
      exact hne
  | titled lines =>
      exact fillItems_leavesErrors (fun line => (fillNetworkIface_lawful speedHi now line).leavesErrors) _ _ _ _ _ _
        _ hrun hne

theorem scanStat_error {lines : List StatLine} {matched m : Nat} {buf x : CpuStats} {t t' : Thread}
    {rc : SgError} (h : scanStat lines matched buf t = .ok ((rc, x, m), t')) (hne : rc ≠ .none) :
    t'.error = rc := by
  induction lines generalizing matched buf with
  | nil =>
      cases h
      exact absurd rfl hne
  | cons line lines ih =>
      unfold scanStat at h
      by_cases hfull : 4 ≤ matched
      · rw [if_pos hfull] at h
        cases h
        exact absurd rfl hne
      · rw [if_neg hfull] at h
        match line with
        | .cpu values =>
            simp only at h
            by_cases hshort : (values.take 5).length < 4
            · rw [if_pos hshort] at h
              cases h
              rfl
            · rw [if_neg hshort] at h
              exact ih h
        | .intr (some _) | .ctxt (some _) | .softirq (some _) | .other => exact ih h
        | .intr none | .ctxt none | .softirq none =>
            cases h
            rfl

theorem sgGetCpuStatsInt_error {file : StatFile} {y x : CpuStats} {t t' : Thread} {rc : SgError}
    (h : sgGetCpuStatsInt file y t = .ok ((rc, x), t')) (hne : rc ≠ .none) : t'.error = rc := by
  cases hlines : file.lines with
  | error errno =>
      rw [sgGetCpuStatsInt, hlines] at h
      cases h
      rfl
  | ok lines =>
      rw [sgGetCpuStatsInt, hlines] at h
      obtain ⟨⟨rc1, buf, matched⟩, t1, hscan, hrest⟩ := Prog.bind_eq_ok.mp h
      by_cases hrc1 : rc1 = .none
      · simp only [hrc1, ne_eq, not_true_eq_false, if_false] at hrest
        by_cases hmatched : matched = 0
        · rw [if_pos hmatched] at hrest
          cases hrest
          rfl
        · rw [if_neg hmatched] at hrest
          cases hrest
          exact absurd rfl hne
      · simp only [ne_eq, hrc1, not_false_eq_true, if_true] at hrest
        cases hrest
        exact scanStat_error hscan hne

theorem sgGetPageStatsInt_error {file : PageFile} {y x : PageStats} {t t' : Thread} {rc : SgError}
    (h : sgGetPageStatsInt file y t = .ok ((rc, x), t')) (hne : rc ≠ .none) : t'.error = rc := by
  match hsource : file.source with
  | .ok lines =>
      rw [sgGetPageStatsInt, hsource] at h
      simp only at h
      by_cases hfound : (scanVmstat lines 0 ⟨0, 0, file.now⟩).2 < 2
      · rw [if_pos hfound] at h
        cases h
        rfl
      · rw [if_neg hfound] at h
        cases h
        exact absurd rfl hne
  | .error (.ok f) =>
      rw [sgGetPageStatsInt, hsource] at h
      obtain ⟨⟨line, rest⟩, t1, -, hrest⟩ := Prog.bind_eq_ok.mp h
      cases line with
      | none =>
          cases hrest
          rfl
      | some line =>
          simp only at hrest
          by_cases hshort : (pageValues line).length ≠ 2
          · rw [if_pos hshort] at hrest
            cases hrest
            rfl
          · rw [if_neg hshort] at hrest
            cases hrest
            exact absurd rfl hne
  | .error (.error errno) =>
      rw [sgGetPageStatsInt, hsource] at h
      cases h
      rfl

/-! ### The accessors -/

/-- The two getters of a statistic, the first with the cached vector it finds. -/
inductive GetForm where
  | get (now : Option Ptr)
  | getR

def GetForm.now : GetForm → Option Ptr
  | .get now => now
  | .getR => none

/-- The functions of a statistic that has a diff; `κ` is what a caller may hand in. -/
inductive DiffForm (κ : Type) where
  | get (form : GetForm)
  | diff (now diff : Option Ptr)
  | between (cur last : κ)

section

variable (info : VectorInitInfo α)

def easyGet (fnInt : ItemFn α) : GetForm → VecM α Access
  | .get now => do
      let (result, _) ← easyCompAccess info fnInt now
      return result
  | .getR => easyCompAccessR info fnInt

/-- The getters of a statistic with many items. -/
def multiGet (fnInt : FillFn α) : GetForm → VecM α Access
  | .get now => do
      let (result, _) ← multiCompAccess info fnInt now
      return result
  | .getR => multiCompAccessR info fnInt

/-- The functions of a statistic with one item and a diff. -/
def easyCall (fnInt : ItemFn α) (diffInt : DiffIntFn α) : DiffForm (Option α) → VecM α Access
  | .get form => easyGet info fnInt form
  | .diff now diff => do
      let (result, _) ← easyCompDiff info fnInt
        (fun tgt now last => diffInt.onto (some now) (some last) tgt) now diff
      return result
  | .between now last => easyCompDiffBetween info diffInt now last

/-- The functions of a statistic with many items and a diff. -/
def multiCall (fnInt : FillFn α) : DiffForm (Option Ptr) → VecM α Access
  | .get form => multiGet info fnInt form
  | .diff now diff => do
      let (result, _) ← multiCompDiff info fnInt now diff
      return result
  | .between cur last => multiCompDiffBetween info cur last

end

theorem easyGet_exits {info : VectorInitInfo α} {fnInt : ItemFn α} {form : GetForm} {w w' : World α}
    {result : Access} (hrun : easyGet info fnInt form w = .ok (result, w')) :
    Exits (easyTarget info form.now) (fun p => onItem p 0 fnInt) w result w' := by
  cases form with
  | get now =>
      rw [easyGet] at hrun
      obtain ⟨⟨r, now'⟩, w1, hget, hrest⟩ := Prog.bind_eq_ok.mp hrun
      cases hrest
      exact easyCompAccess_exits hget
  | getR => exact easyCompAccessR_exits hrun

theorem multiGet_exits {info : VectorInitInfo α} {fnInt : FillFn α} {form : GetForm} {w w' : World α}
    {result : Access} (hrun : multiGet info fnInt form w = .ok (result, w')) :
    Exits (multiTarget info form.now) fnInt.code w result w' := by
  cases form with
  | get now =>
      rw [multiGet] at hrun
      obtain ⟨⟨r, now'⟩, w1, hget, hrest⟩ := Prog.bind_eq_ok.mp hrun
      cases hrest
      exact multiCompAccess_exits hget
  | getR => exact multiCompAccessR_exits hrun

theorem easyGet_reports {info : VectorInitInfo α} {fnInt : ItemFn α} (hfn : fnInt.LeavesErrors) {form : GetForm}
    {w w' : World α} {result : Access} (hrun : easyGet info fnInt form w = .ok (result, w')) :
    Reports result w' :=
  (easyGet_exits hrun).reports_iff.mpr (leavesError_onItem hfn w)

theorem multiGet_reports {info : VectorInitInfo α} {fnInt : FillFn α} (hfn : fnInt.LeavesErrors) {form : GetForm}
    {w w' : World α} {result : Access} (hrun : multiGet info fnInt form w = .ok (result, w')) :
    Reports result w' :=
  (multiGet_exits hrun).reports_iff.mpr (hfn.leavesError _ w)

theorem easyCall_reports {info : VectorInitInfo α} {fnInt : ItemFn α} {diffInt : DiffIntFn α}
    (hfn : fnInt.LeavesErrors) (hdiff : ∀ now last, (diffInt.onto now last).LeavesErrors)
    {form : DiffForm (Option α)} {w w' : World α} {result : Access}
    (hrun : easyCall info fnInt diffInt form w = .ok (result, w')) : Reports result w' := by
  cases form with
  | get form => exact easyGet_reports hfn hrun
  | diff now diff =>
      rw [easyCall] at hrun
      obtain ⟨⟨r, now', diff'⟩, w1, hget, hrest⟩ := Prog.bind_eq_ok.mp hrun
      cases hrest
      exact (easyCompDiff_exits hget).reports_iff.mpr (leavesError_onItem hfn w)
  | between now last => exact (easyCompAccessR_exits hrun).reports_iff.mpr (leavesError_onItem (hdiff now last) w)

section

variable {info : VectorInitInfo α} {fnInt : FillFn α} {w w' : World α} {result : Access}

theorem multiCall_get {form : GetForm} (hrun : multiCall info fnInt (.get form) w = .ok (result, w')) :
    Exits (multiTarget info form.now) fnInt.code w result w' :=
  multiGet_exits hrun

/-- Without a cached vector a diff is a getter. -/
theorem multiCall_diff_none {diff : Option Ptr}
    (hrun : multiCall info fnInt (.diff none diff) w = .ok (result, w')) :
    Exits (multiTarget info none) fnInt.code w result w' := by
  rw [multiCall] at hrun
  obtain ⟨⟨r, now', diff'⟩, w1, hdiff, hrest⟩ := Prog.bind_eq_ok.mp hrun
  cases hrest
  rw [multiCompDiff] at hdiff
  obtain ⟨⟨got, now1⟩, w2, hget, hrest⟩ := Prog.bind_eq_ok.mp hdiff
  cases hrest
  exact multiCompAccess_exits hget

theorem multiCall_diff_some {n : Ptr} {diff : Option Ptr}
    (hrun : multiCall info fnInt (.diff (some n) diff) w = .ok (result, w')) :
    ∃ now' diff', multiCompDiff info fnInt (some n) diff w = .ok ((result, now', diff'), w') := by
  rw [multiCall] at hrun
  obtain ⟨⟨r, now', diff'⟩, w1, hdiff, hrest⟩ := Prog.bind_eq_ok.mp hrun
  cases hrest
  exact ⟨now', diff', hdiff⟩

end

/-- What a thread keeps of a statistic with many items when it calls one of its functions. -/
def DiffForm.Kept (info : VectorInitInfo α) (w : World α) : DiffForm (Option Ptr) → Prop
  | .get form => w.Tidy ∧ ∃ items, w.Holds info form.now items
  | .diff now target => Held info w now target
  | .between _ _ => True

/-- An accessor with what it reads. The read of the processes is given a bound on its rounds. -/
inductive Accessor where
  | load (loadav : Fin 3 → UInt64) (now : Int) (form : GetForm)
  | mem (file : Except Int Text.Stream) (now : Int) (form : GetForm)
  | swap (file : Except Int Text.Stream) (now : Int) (form : GetForm)
  | hostInfo (source : HostSource) (form : GetForm)
  | cpu (file : StatFile) (form : DiffForm (Option CpuStats))
  | page (file : PageFile) (form : DiffForm (Option PageStats))
  | user (build : LoginBuild) (now : Int) (utmpx : List Utmpx) (utmp : List Utmp) (form : GetForm)
  | process (source : Process.ProcessSource) (fuel : Nat) (form : GetForm)
  | networkIface (speedHi : Bool) (now : Int) (file : IfaceFile) (form : GetForm)
  | multi (f : DiffFn) (input : f.stat.Input) (form : DiffForm (Option Ptr))

namespace Accessor

def Item : Accessor → Type
  | load _ _ _ => LoadStats UInt64
  | mem _ _ _ => MemStats
  | swap _ _ _ => SwapStats
  | hostInfo _ _ => HostInfo
  | cpu _ _ => CpuStats
  | page _ _ => PageStats
  | user _ _ _ _ _ => UserStats
  | process _ _ _ => Process.ProcessStats
  | networkIface _ _ _ _ => NetworkIfaceStats
  | multi f _ _ => f.stat.Item

def call : (a : Accessor) → VecM a.Item Access
  | load loadav now form => easyGet LoadStats.info (sgGetLoadStatsInt loadav now) form
  | mem file now form => easyGet MemStats.info (sgGetMemStatsInt file now) form
  | swap file now form => easyGet SwapStats.info (Linux.sgGetSwapStatsInt file now) form
  | hostInfo source form => easyGet HostInfo.info (sgGetHostInfoInt source) form
  | cpu file form =>
      easyCall CpuStats.info (sgGetCpuStatsInt file) (sgGetCpuStatsDiffInt .plain) form
  | page file form => easyCall PageStats.info (sgGetPageStatsInt file) sgGetPageStatsDiffInt form
  | user build now utmpx utmp form => multiGet UserStats.info (fillUserStats build now utmpx utmp) form
  | process source fuel form =>
      multiGet Process.ProcessStats.info (Process.fillProcessStats source fuel) form
  | networkIface speedHi now file form =>
      multiGet NetworkIfaceStats.info (sgGetNetworkIfaceStatsInt speedHi now file) form
  | multi f input form => multiCall f.stat.info (f.stat.fnInt input) form

/-- The state in which the accessor is called: what is kept between two calls, and a source of at most
`itemLimit` entries. -/
def Ready : (a : Accessor) → World a.Item → Prop
  | multi f input form, w => f.stat.entries input ≤ itemLimit ∧ form.Kept f.stat.info w
  | _, _ => True

end Accessor

/-! ### The failures that go unseen -/

/-- A getter of the filesystems that has its vector finds a mount table that can be read, and the requests of
the list are granted. -/
def MountTable.ListSeen (table : MountTable) (now : Option Ptr) (w : World FsStats) : Prop :=
  Supply.Grants w.mem (targetRequests now) →
    table.Opened ∧ Supply.Grants w.mem (targetRequests now + table.listRequests)

/-- A diff of disks comes to its read, and the file cannot be opened or a request of the read is refused. -/
def DiskFile.Fails (file : DiskFile) (w : World DiskIoStats) (n : Ptr) (diff : Option Ptr) : Prop :=
  Supply.Grants w.mem (w.requestsToRead DiskIoStats.strings n diff) ∧
    (file.Unopened ∨ ¬ Supply.Grants w.mem (w.requestsToRead DiskIoStats.strings n diff
      + file.requests (w.shiftAt (some n)) (w.allocAt (some n))))

/-- `/proc/net/dev` cannot be opened, or has no two title lines. -/
def NetworkFile.Untitled : NetworkFile → Prop
  | .titled _ => False
  | _ => True

/-- A diff of interfaces comes to its read, and has no file to read. -/
def NetworkFile.Fails (file : NetworkFile) (w : World NetworkIoStats) (n : Ptr) (diff : Option Ptr) : Prop :=
  Supply.Grants w.mem (w.requestsToRead NetworkIoStats.strings n diff) ∧ file.Untitled

/-- A failure of the read does not go unseen in a getter. -/
def DiffFn.GetSeen : (f : DiffFn) → f.stat.Input → World f.stat.Item → Option Ptr → Prop
  | .fs, table, w, now => MountTable.ListSeen table now w
  | _, _, _, _ => True

/-- A failure of the read does not go unseen in a diff on a cached snapshot. -/
def DiffFn.DiffSeen : (f : DiffFn) → f.stat.Input → World f.stat.Item → Ptr → Option Ptr → Prop
  | .diskIo, file, w, n, diff => DiskFile.Fails file w n diff → DiskFile.Reported file w n diff
  | .networkIo, file, w, n, diff => ¬ NetworkFile.Fails file w n diff
  | .fs, _, _, _, _ => True

/-- A failure of the `fn_int` does not go unseen. -/
def Accessor.Seen : (a : Accessor) → World a.Item → Prop
  | .multi f input (.get form), w => f.GetSeen input w form.now
  | .multi f input (.diff none _), w => f.GetSeen input w none
  | .multi f input (.diff (some n) target), w => f.DiffSeen input w n target
  | _, _ => True

/-! ### The getters -/

theorem MountTable.reports_iff {table : MountTable} (hsize : table.entries.length ≤ itemLimit)
    {w w' : World FsStats} (hw : w.Tidy) {now : Option Ptr} (hnow : ∃ items, w.Holds FsStats.info now items)
    {result : Access}
    (h : Exits (multiTarget FsStats.info now) (FillFn.code (sgGetFsStatsInt table)) w result w') :
    Reports result w' ↔ table.ListSeen now w := by
  rw [h.reports_iff]
  rcases multiTarget_cases FsStats.regular hw hnow with ⟨p, w1, htarget, hstep, -, hp, -⟩ | ⟨-, w1, htarget, -⟩
  · have hserved := multiTarget_served FsStats.regular hw hnow htarget
    have hgrants := hserved.ok_iff.mp (Option.some_ne_none p)
    cases h with
    | before hnone => exact absurd htarget (hnone p w1)
    | after htarget' hcode hread herror hok =>
        rw [htarget] at htarget'
        cases htarget'
        obtain ⟨y, hfn⟩ := FillFn.code_eq_ok hcode
        rcases sgGetFsStatsInt_run table hsize hstep.tidy hp with
          ⟨rc', y', items, w2', err, x, w3, hfn', -, hlist, hfailed, hfull, -⟩ | ⟨-, hfault, -⟩
        swap
        · rw [hfn] at hfault
          cases hfault
        rw [hfn] at hfn'
        cases hfn'
        have hiff := sgGetFsListInt_ok_iff table hsize hstep.tidy hlist
        rw [hserved.rest (Option.some_ne_none p)] at hiff
        have hleaves : LeavesError (multiTarget FsStats.info now) (FillFn.code (sgGetFsStatsInt table)) w ↔
            err = .none := by
          constructor
          · intro hleaves
            by_contra hne
            obtain ⟨rfl, -, hcleared⟩ := hfailed hne
            exact hleaves p w1 _ _ htarget hcode hne hcleared
          · rintro hnone p' w1' rc' w2' htarget' hcode' hne
            rw [htarget] at htarget'
            cases htarget'
            rw [hcode] at hcode'
            cases hcode'
            rcases hfull hnone with hok' | ⟨-, -, hmalloc⟩
            · exact absurd hok' hne
            · rw [hmalloc]
              decide
        rw [hleaves, hiff, MountTable.ListSeen]
        constructor
        · exact fun hone _ => ⟨hone.1, Supply.grants_add.mpr ⟨hgrants, hone.2⟩⟩
        · exact fun hall => ⟨(hall hgrants).1, (Supply.grants_add.mp (hall hgrants).2).2⟩
  · -- there is no vector to read into
    have hserved := multiTarget_served FsStats.regular hw hnow htarget
    refine iff_of_true ?_ fun hgrants => absurd rfl (hserved.ok_iff.mpr hgrants)
    intro p w2 rc w3 hsome
    rw [htarget] at hsome
    cases hsome

theorem DiffFn.getter_reports_iff (f : DiffFn) {input : f.stat.Input} (hsize : f.stat.entries input ≤ itemLimit)
    {w w' : World f.stat.Item} (hw : w.Tidy) {now : Option Ptr} (hnow : ∃ items, w.Holds f.stat.info now items)
    {result : Access}
    (h : Exits (multiTarget f.stat.info now) (FillFn.code (f.stat.fnInt input)) w result w') :
    Reports result w' ↔ f.GetSeen input w now := by
  cases f with
  | diskIo =>
      exact iff_of_true (h.reports_iff.mpr ((sgGetDiskIoStatsInt_leavesErrors input).leavesError _ w)) trivial
  | networkIo =>
      exact iff_of_true (h.reports_iff.mpr ((sgGetNetworkIoStatsInt_leavesErrors input).leavesError _ w)) trivial
  | fs => exact MountTable.reports_iff hsize hw hnow h

/-! ### The differences -/

/-- A read of the interfaces that returns succeeds exactly if it has a file to read. -/
theorem NetworkFile.read_ok_iff {file : NetworkFile} {w w' : World NetworkIoStats} {p x : Option Ptr}
    {rc : SgError} (hrun : sgGetNetworkIoStatsInt file p w = .ok ((rc, x), w')) : rc = .none ↔ ¬ file.Untitled := by
  cases file with
  | unopened errno =>
      cases hrun
      exact iff_of_false nofun (fun hnot => hnot trivial)
  | untitled errno =>
      cases hrun
      exact iff_of_false nofun (fun hnot => hnot trivial)
  | titled lines =>
      exact iff_of_true (fillItems_succeeds (fun _ _ _ _ _ _ => fillNetworkIo_succeeds) _ _ _ _ _ _ _ hrun) id

theorem DiskFile.fails_iff {file : DiskFile} (hsize : file.entries.length ≤ itemLimit)
    {w w1 w2 : World DiskIoStats} {n d : Ptr} {diff x : Option Ptr} {rc : SgError}
    (hfrom : ReadFrom DiskIoStats.info (sgGetDiskIoStatsInt file) DiskIoStats.strings w n diff rc x w1 w2 d) :
    rc ≠ .none ↔ file.Fails w n diff := by
  obtain ⟨w3, hfn, -⟩ := hfrom.run
  have hiff := DiskFile.read_ok_iff hsize hfrom.tidy hfrom.holds hfn
  rw [hfrom.mem, hfrom.shift, hfrom.alloc] at hiff
  rw [Ne, hiff, DiskFile.Fails, Supply.grants_add, and_iff_right hfrom.grants, not_and_or, not_not,
    and_iff_right hfrom.grants]

theorem NetworkFile.fails_iff {file : NetworkFile} {w w1 w2 : World NetworkIoStats} {n d : Ptr}
    {diff x : Option Ptr} {rc : SgError}
    (hfrom : ReadFrom NetworkIoStats.info (sgGetNetworkIoStatsInt file) NetworkIoStats.strings w n diff rc x
      w1 w2 d) : rc ≠ .none ↔ file.Fails w n diff := by
  obtain ⟨w3, hfn, -⟩ := hfrom.run
  rw [Ne, NetworkFile.read_ok_iff hfn, not_not, NetworkFile.Fails, and_iff_right hfrom.grants]

/-- A diff that returned has not seen its failed read where that goes unseen. -/
theorem DiffFn.failureSeen_iff (f : DiffFn) {input : f.stat.Input} (hsize : f.stat.entries input ≤ itemLimit)
    {w w' : World f.stat.Item} {n : Ptr} {diff : Option Ptr} (h : Held f.stat.info w (some n) diff) {result : Access}
    {now' diff' : Option Ptr}
    (hrun : multiCompDiff f.stat.info (f.stat.fnInt input) (some n) diff w = .ok ((result, now', diff'), w')) :
    FailureSeen f.stat.info (f.stat.fnInt input) n diff w ↔ f.DiffSeen input w n diff := by
  have hreads := f.stat.reads input hsize
  obtain ⟨old, hold⟩ := h.holds
  rcases diffUpToRead_cases f.stat.regular hreads h hold with
    ⟨diff1, w1, hnone, -⟩ | ⟨d, l, rc, x, items, w1, vd, vl, hread, hat, hran⟩ | ⟨-, hfault⟩
  rotate_left 2
  · rw [hfault] at hrun
    cases hrun
  · -- the call gave up before its read
    have hrefused := diffUpToRead_none f.stat.regular f.stat.copiesFor h hnone
    refine iff_of_true ?_ ?_
    · intro d l rc x w2 hread
      rw [hnone] at hread
      cases hread
    · cases f with
      | diskIo => exact fun hfails => absurd hfails.1 hrefused
      | networkIo => exact fun hfails => hrefused hfails.1
      | fs => trivial
  · have hseen : FailureSeen f.stat.info (f.stat.fnInt input) n diff w ↔
        (rc ≠ .none → x = none ∨ ∃ c, x = some c ∧ CopyRefused w1 d c) := by
      constructor
      · intro hall
        exact hall d l rc x w1 hread
      · intro hone d' l' rc' x' w1' hread'
        rw [hread] at hread'
        cases hread'
        exact hone
    rw [hseen]
    obtain ⟨w2, hfrom⟩ := diffUpToRead_from f.stat.regular f.stat.copiesFor hreads h hread
    cases f with
    | diskIo =>
        have hfails := DiskFile.fails_iff hsize hfrom
        constructor
        · intro hall hfail
          exact (DiskFile.reported_iff hsize hfrom hat (hfails.mpr hfail)).mp (hall (hfails.mpr hfail))
        · intro hall hfail
          exact (DiskFile.reported_iff hsize hfrom hat hfail).mpr (hall (hfails.mp hfail))
    | networkIo =>
        have hfails := NetworkFile.fails_iff hfrom
        constructor
        · intro hall hfail
          exact NetworkFile.not_reported hfrom hat (hfails.mpr hfail) (hall (hfails.mpr hfail))
        · exact fun hnot hfail => absurd (hfails.mp hfail) hnot
    | fs => exact iff_of_true (fun hfail => .inl (MountTable.ran_null hsize hran hfail)) trivial

/-! ### All accessors -/

/-- Neither `sg_get_cpu_stats_diff_int` nor `sg_get_page_stats_diff_int` fails on an item. -/
theorem onto_cpu_leavesErrors (now last : Option CpuStats) :
    ItemFn.LeavesErrors (DiffIntFn.onto (sgGetCpuStatsDiffInt .plain) now last) := by
  intro y t rc x t' hrun hne
  cases now with
  | none =>
      cases hrun
      exact absurd rfl hne
  | some now =>
      cases last with
      | none =>
          cases hrun
          exact absurd rfl hne
      | some last =>
          cases hrun
          exact absurd rfl hne

theorem onto_page_leavesErrors (now last : Option PageStats) :
    ItemFn.LeavesErrors (DiffIntFn.onto sgGetPageStatsDiffInt now last) := by
  intro y t rc x t' hrun hne
  cases now with
  | none =>
      cases hrun
      exact absurd rfl hne
  | some now =>
      cases last with
      | none =>
          cases hrun
          exact absurd rfl hne
      | some last =>
          cases hrun
          exact absurd rfl hne

theorem sgGetLoadStatsInt_leavesErrors {F : Type} (loadav : Fin 3 → F) (now : Int) :
    ItemFn.LeavesErrors (sgGetLoadStatsInt loadav now) := by
  intro y t rc x t' hrun hne
  cases hrun
  exact absurd rfl hne

/-- A call of an accessor that returns has reported the failure of its `fn_int`, and has cleared the error
of its success, exactly if the failure does not go unseen. -/
theorem Accessor.reports_iff_seen (a : Accessor) {w w' : World a.Item} {result : Access}
    (h : a.Ready w) (hrun : a.call w = .ok (result, w')) : Reports result w' ↔ a.Seen w := by
  match a with
  | .load loadav now form =>
      exact iff_of_true (easyGet_reports (sgGetLoadStatsInt_leavesErrors loadav now) hrun) trivial
  | .mem file now form =>
      have hfn : ItemFn.LeavesErrors (sgGetMemStatsInt file now) :=
        ItemFn.leavesErrors_of_eq fun _ _ _ _ _ => sgGetMemStatsInt_error
      exact iff_of_true (easyGet_reports hfn hrun) trivial
  | .swap file now form =>
      have hfn : ItemFn.LeavesErrors (Linux.sgGetSwapStatsInt file now) :=
        ItemFn.leavesErrors_of_eq fun _ _ _ _ _ => Linux.sgGetSwapStatsInt_error
      exact iff_of_true (easyGet_reports hfn hrun) trivial
  | .hostInfo source form =>
      have hfn : ItemFn.LeavesErrors (sgGetHostInfoInt source) :=
        ItemFn.leavesErrors_of_eq fun _ _ _ _ _ => sgGetHostInfoInt_error
      exact iff_of_true (easyGet_reports hfn hrun) trivial
  | .cpu file form =>
      have hfn : ItemFn.LeavesErrors (sgGetCpuStatsInt file) :=
        ItemFn.leavesErrors_of_eq fun _ _ _ _ _ => sgGetCpuStatsInt_error
      exact iff_of_true (easyCall_reports hfn onto_cpu_leavesErrors hrun) trivial
  | .page file form =>
      have hfn : ItemFn.LeavesErrors (sgGetPageStatsInt file) :=
        ItemFn.leavesErrors_of_eq fun _ _ _ _ _ => sgGetPageStatsInt_error
      exact iff_of_true (easyCall_reports hfn onto_page_leavesErrors hrun) trivial
  | .user build now utmpx utmp form =>
      have hfn : FillFn.LeavesErrors (fillUserStats build now utmpx utmp) :=
        FillFn.leavesErrors_of_eq fun _ _ _ _ _ => fillUserStats_error
      exact iff_of_true (multiGet_reports hfn hrun) trivial
  | .process source fuel form =>
      have hfn : FillFn.LeavesErrors (Process.fillProcessStats source fuel) :=
        FillFn.leavesErrors_of_eq fun _ _ _ _ _ => Process.fillProcessStats_error
      exact iff_of_true (multiGet_reports hfn hrun) trivial
  | .networkIface speedHi now file form =>
      have hfn := sgGetNetworkIfaceStatsInt_leavesErrors speedHi now file
      exact iff_of_true (multiGet_reports hfn hrun) trivial
  | .multi f input (.get form) => exact f.getter_reports_iff h.1 h.2.1 h.2.2 (multiCall_get hrun)
  | .multi f input (.diff none diff) =>
      have hkept : Held f.stat.info w none diff := h.2
      exact f.getter_reports_iff h.1 hkept.tidy hkept.holds (multiCall_diff_none hrun)
  | .multi f input (.diff (some n) diff) =>
      obtain ⟨now', diff', hdiff⟩ := multiCall_diff_some hrun
      exact (multiCompDiff_reports_iff_seen f.stat.regular f.stat.keyed (f.stat.reads input h.1) h.2 hdiff).trans
        (f.failureSeen_iff h.1 h.2 hdiff)
  | .multi f input (.between cur last) => exact iff_of_true (multiCompDiffBetween_reports hrun) trivial

/-- A diff of two disks is refused the name of the second and then the first one's copy: an error is left. -/
theorem reports_refused_names :
    ∃ result w', (Accessor.multi .diskIo (diskNames [[97], [98]] 5) (.diff (some 0) none)).call
        { cachedWorld DiskIoStats.info 0 (diskItem 0 ⟨[97], 1, 1⟩) with
          mem := fun k => decide (k ≠ 3 ∧ k ≠ 5) } = .ok (result, w') ∧
      result.read = some .malloc ∧ Reports result w' := by
  have hplenty := cachedWorld_held DiskIoStats.regular (Nat.zero_le 16) (diskItem 0 ⟨[97], 1, 1⟩)
  have hready : (Accessor.multi .diskIo (diskNames [[97], [98]] 5) (.diff (some 0) none)).Ready
      { cachedWorld DiskIoStats.info 0 (diskItem 0 ⟨[97], 1, 1⟩) with mem := fun k => decide (k ≠ 3 ∧ k ≠ 5) } :=
    ⟨by decide, ⟨hplenty.tidy.fresh, hplenty.tidy.bounded, hplenty.tidy.backed⟩, hplenty.holds, hplenty.live,
      hplenty.apart⟩
  refine ⟨_, _, rfl, rfl, (Accessor.reports_iff_seen _ hready rfl).mpr fun _ => ⟨?_, 1, by decide, _, rfl, ?_, ?_, ?_⟩⟩
  · rintro ⟨errno, hcon⟩
    cases hcon
  · decide
  · decide
  · decide

/-- The mount table cannot be opened: `sg_get_fs_stats` returns NULL and no error. -/
theorem fs_failure_unreported :
    ∃ result w', (Accessor.multi .fs noMounts (.get (.get none))).call
        (cachedWorld FsStats.info 0 (MountTable.listed ⟨[], [], [], []⟩)) = .ok (result, w') ∧
      result.read = some .setmntent ∧ ¬ Reports result w' := by
  refine ⟨_, _, rfl, rfl, ?_⟩
  intro h
  exact h.failed .setmntent rfl (by decide) rfl

end Statgrab
