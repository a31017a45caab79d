import Statgrab.Access.Filling
import Statgrab.Access.Single
import Statgrab.Stats.DiffRun

/-!
# A diff whose read fails

`MULTI_COMP_DIFF` does not look at what `getfn(NULL)` returns. A read that failed is seen by
`sg_vector_compute_diff` only where it left no vector at all, as the filesystem reader always does. What
the two others leave, an empty or a half-filled vector, is copied and subtracted like any snapshot. A
refused `VECTOR_UPDATE` in their loops is not among the failures: the run ends there.
-/

namespace Statgrab

variable {α : Type}

/-- The call returns NULL and no entries, and leaves an error. -/
def ReportsFailure (call : VecM α (Access × Option Ptr × Option Ptr)) (w : World α) : Prop :=
  ∃ result now diff w', call w = .ok ((result, now, diff), w') ∧ result.data = none ∧
    result.entries = 0 ∧ w'.error ≠ .none

section

variable {info : VectorInitInfo α} {fnInt : FillFn α} {w w1 : World α} {n d l : Ptr}
  {diff x : Option Ptr} {rc : SgError}

theorem diffUpToRead_eq_some (hinfo : info.Regular) (hreads : Reads info fnInt)
    (h : Held info w (some n) diff)
    (hread : diffUpToRead info fnInt n diff w = .ok (some (d, l, some rc, x), w1)) :
    ∃ items vd vl, AtDifference info w1 d l vd vl x items (w.itemsAt (some n)) ∧
      Ran info fnInt rc x w1 := by
  obtain ⟨old, hold⟩ := h.holds
  rw [hold.itemsAt]
  rcases diffUpToRead_cases hinfo hreads h hold with
    ⟨diff', w', hnone, -⟩ | ⟨d', l', rc', x', items, w', vd, vl, hread', hat, hran⟩ | ⟨hfault, -⟩
  · rw [hnone] at hread
    cases hread
  · rw [hread'] at hread
    cases hread
    exact ⟨items, vd, vl, hat, hran⟩
  · rw [hfault] at hread
    cases hread

/-- Whatever the read returned, the call fails exactly if there is no vector, or no memory for its
copy. -/
theorem multiCompDiff_reports_iff (hinfo : info.Regular) (keyed : info.Keyed)
    (hreads : Reads info fnInt) (h : Held info w (some n) diff)
    (hread : diffUpToRead info fnInt n diff w = .ok (some (d, l, some rc, x), w1)) :
    ReportsFailure (multiCompDiff info fnInt (some n) diff) w ↔
      x = none ∨ ∃ c, x = some c ∧ CopyRefused w1 d c := by
  obtain ⟨items, vd, vl, hat, -⟩ := diffUpToRead_eq_some hinfo hreads h hread
  unfold ReportsFailure
  rw [multiCompDiff_of_read hread]
  cases x with
  | none =>
      obtain ⟨w2, hrun, herr, -⟩ := hat.finish_null (some rc)
      refine iff_of_true ⟨_, none, none, w2, hrun, rfl, rfl, ?_⟩ (.inl rfl)
      rw [herr]
      decide
  | some c =>
      rcases hat.finish_cases hinfo keyed (some rc) with
        ⟨hnot, ⟨q, result, w2, hrun, hdel⟩ | ⟨-, e, hrun⟩⟩ | ⟨hrefused, w2, hrun, herr, -⟩
      · refine iff_of_false ?_ ?_
        · rintro ⟨result', now', diff', w', hrun', -, -, herr⟩
          rw [hrun] at hrun'
          cases hrun'
          exact herr hdel.error
        · rintro (hnull | ⟨c', hc, hrefused⟩)
          · cases hnull
          · cases hc
            exact hnot hrefused
      · refine iff_of_false ?_ ?_
        · rintro ⟨result', now', diff', w', hrun', -⟩
          rw [hrun] at hrun'
          cases hrun'
        · rintro (hnull | ⟨c', hc, hrefused⟩)
          · cases hnull
          · cases hc
            exact hnot hrefused
      · exact iff_of_true ⟨_, _, _, w2, hrun, rfl, rfl, herr⟩ (.inr ⟨c, rfl, hrefused⟩)

end

theorem MountTable.ran_null {table : MountTable} (hsize : table.entries.length ≤ itemLimit)
    {rc : SgError} {x : Option Ptr} {w : World FsStats}
    (hran : Ran FsStats.info (sgGetFsStatsInt table) rc x w) (hfail : rc ≠ .none) : x = none := by
  obtain ⟨p, w1, w2, htidy, hp, hrun, -⟩ := hran
  rcases sgGetFsStatsInt_run table hsize htidy hp with
    ⟨rc', y, items, w', err, t, w3, hrun', -, -, hlist, hrest, -⟩ | ⟨-, hfault, -⟩
  swap
  · rw [hrun] at hfault
    cases hfault
  rw [hrun] at hrun'
  cases hrun'
  by_cases herr : err = .none
  · rcases hrest herr with hcode | ⟨-, hnull, -⟩
    · exact absurd hcode hfail
    · exact hnull
  · exact (hlist herr).2.1

/-! ### What a read that failed has left -/

/-- `/proc/diskstats` cannot be opened. -/
def DiskFile.Unopened (file : DiskFile) : Prop := ∃ errno, file.lines = .error errno

def DiskFile.requestsBefore (k shift alloc : Nat) : Nat := growths shift alloc 0 (k + 1) + k

theorem growths_le_succ (shift alloc i n : Nat) : growths shift alloc i n ≤ growths shift alloc i (n + 1) := by
  induction n generalizing alloc i with
  | zero => exact Nat.zero_le _
  | succ n ih => exact Nat.add_le_add_left (ih _ _) _

theorem DiskFile.requestsBefore_lt {file : DiskFile} {k : Nat} (hk : k < file.entries.length)
    (shift alloc : Nat) : DiskFile.requestsBefore k shift alloc < file.requests shift alloc := by
  have hmono : Monotone (growths shift alloc 0) :=
    monotone_nat_of_le_succ (growths_le_succ shift alloc 0)
  have hle := @hmono (k + 1) file.entries.length hk
  have hsum : (file.entries.map fun _ => 1).sum = file.entries.length := by simp
  rw [DiskFile.requestsBefore, DiskFile.requests, loopRequests, hsum]
  omega

theorem requestsBefore_injective {k k' shift alloc : Nat}
    (h : DiskFile.requestsBefore k shift alloc = DiskFile.requestsBefore k' shift alloc) : k = k' := by
  have hmono : Monotone (growths shift alloc 0) :=
    monotone_nat_of_le_succ (growths_le_succ shift alloc 0)
  have hle := @hmono (k + 1) (k' + 1)
  have hge := @hmono (k' + 1) (k + 1)
  unfold DiskFile.requestsBefore at h
  omega

/-- A read of `/proc/diskstats` that is refused the name of a disk leaves the disks before it and one that
has no name. -/
theorem DiskFile.refused_leaves {file : DiskFile} (hsize : file.entries.length ≤ itemLimit)
    {w w' : World DiskIoStats} {p : Ptr} (hw : w.Tidy) (hp : w.Holds DiskIoStats.info (some p) [])
    {rc : SgError} {x : Option Ptr} (hrun : sgGetDiskIoStatsInt file (some p) w = .ok ((rc, x), w'))
    (hfail : rc ≠ .none) :
    (file.Unopened ∧ x = some p ∧ w'.itemsAt x = []) ∨
    (¬ file.Unopened ∧ ∃ k < file.entries.length,
      Supply.Stops w.mem w'.mem (DiskFile.requestsBefore k (w.shiftAt (some p)) (w.allocAt (some p))) ∧
      ∃ q, x = some q ∧ (w'.itemsAt x).length = k + 1 ∧
        copyRequests DiskIoStats.strings (w'.itemsAt x) = k) := by
  unfold DiskFile.Unopened
  cases hlines : file.lines with
  | error errno =>
      rw [sgGetDiskIoStatsInt, hlines] at hrun
      cases hrun
      exact .inl ⟨⟨errno, rfl⟩, rfl, hp.itemsAt⟩
  | ok lines =>
      have hentries : file.entries = lines.filterMap id := by rw [DiskFile.entries, hlines]
      rw [hentries] at hsize ⊢
      rw [sgGetDiskIoStatsInt, hlines] at hrun
      have hspec : ∀ f, DiskIoStats.info.initFn = some f → ∀ line y t rc z t',
          fillDiskIo file.now line (f y) t = .ok ((rc, z), t') →
          if rc = .none then z = diskItem file.now line else z.diskName = none := by
        intro f hf line y t rc z t' hfill
        cases hf
        have hleaves := fillDiskIo_leaves hfill
        split at hleaves
        · rw [if_pos ‹_›]
          exact hleaves
        · rw [if_neg ‹_›, hleaves]
          rfl
      rcases fillItems_served DiskIoStats.regular (fun line z => z = diskItem file.now line)
          (fun z => z.diskName = none) (fillDiskIo_returns file.now) (fillDiskIo_asks file.now) hspec
          (lines.filterMap id) (some p) [] w hw hp (by simpa using hsize) rc x w' hrun with
        ⟨hnone, -⟩ | ⟨-, pre, line, post, heq, k, hk, hstops, q, new, y, rfl, hrefill, hgood, hhalf⟩
      · exact absurd hnone hfail
      · obtain rfl := Nat.lt_one_iff.mp hk
        have hitems : w'.itemsAt (some q) = pre.map (diskItem file.now) ++ [y] := by
          rw [hrefill.holds.itemsAt, List.nil_append, forall₂_eq_map hgood]
        refine .inr ⟨?_, pre.length, ?_, ?_, q, rfl, ?_, ?_⟩
        · rintro ⟨errno, hcon⟩
          cases hcon
        · rw [heq, List.length_append, List.length_cons]
          omega
        · rw [DiskFile.requestsBefore]
          simpa using hstops
        · rw [hitems, List.length_append, List.length_map, List.length_singleton]
        · rw [hitems, copyRequests, List.map_append, List.sum_append, List.map_map]
          have hnames : (pre.map (DiskIoStats.strings ∘ diskItem file.now)).sum = pre.length := by
            show (pre.map fun _ => 1).sum = pre.length
            simp
          rw [hnames]
          simp [DiskIoStats.strings, hhalf, stringRequests]

/-- A read of `/proc/diskstats` that returns succeeds exactly if the file was opened and the requests were
granted. -/
theorem DiskFile.read_ok_iff {file : DiskFile} (hsize : file.entries.length ≤ itemLimit)
    {w w' : World DiskIoStats} {p : Ptr} (hw : w.Tidy) (hp : w.Holds DiskIoStats.info (some p) [])
    {rc : SgError} {x : Option Ptr} (hrun : sgGetDiskIoStatsInt file (some p) w = .ok ((rc, x), w')) :
    rc = .none ↔ ¬ file.Unopened ∧
      Supply.Grants w.mem (file.requests (w.shiftAt (some p)) (w.allocAt (some p))) := by
  constructor
  · rintro rfl
    cases hlines : file.lines with
    | error errno =>
        rw [sgGetDiskIoStatsInt, hlines] at hrun
        cases hrun
    | ok lines =>
        have hentries : file.entries = lines.filterMap id := by rw [DiskFile.entries, hlines]
        rw [hentries] at hsize
        rw [sgGetDiskIoStatsInt, hlines] at hrun
        refine ⟨?_, ?_⟩
        · rintro ⟨errno, hcon⟩
          rw [hlines] at hcon
          cases hcon
        · rcases fillItems_served DiskIoStats.regular (fun _ _ => True) (fun _ => True)
              (fillDiskIo_returns file.now) (fillDiskIo_asks file.now)
              (fun _ _ _ _ _ _ _ _ _ => by split <;> trivial)
              (lines.filterMap id) (some p) [] w hw hp (by simpa using hsize) _ x w' hrun with
            ⟨-, hgrants⟩ | ⟨hne, -⟩
          · rw [DiskFile.requests, loopRequests, hentries]
            exact hgrants
          · exact absurd rfl hne
  · rintro ⟨hopened, hgrants⟩
    by_contra hfail
    rcases DiskFile.refused_leaves hsize hw hp hrun hfail with ⟨hunopened, -⟩ | ⟨-, k, hk, hstops, -⟩
    · exact hopened hunopened
    · exact absurd hgrants (hstops.refuses.not_grants (DiskFile.requestsBefore_lt hk _ _))

theorem fillItems_succeeds {β : Type} {info : VectorInitInfo α} {fill : β → ItemFn α}
    (hfill : ∀ b y t rc z t', fill b y t = .ok ((rc, z), t') → rc = .none) :
    ∀ (bs : List β) (i : Nat) (x : Option Ptr) (w : World α) (rc : SgError) (x' : Option Ptr)
      (w' : World α), fillItems info fill bs i x w = .ok ((rc, x'), w') → rc = .none := by
  intro bs
  induction bs with
  | nil =>
      intro i x w rc x' w' hrun
      cases hrun
      rfl
  | cons b bs ih =>
      intro i x w rc x' w' hrun
      rw [fillItems_cons] at hrun
      obtain ⟨r, w1, -, hrun⟩ := Prog.bind_eq_ok.mp hrun
      cases r with
      | none => cases hrun
      | some q =>
          obtain ⟨rc1, w2, hitem, hrun⟩ := Prog.bind_eq_ok.mp hrun
          obtain ⟨v, z, t, -, hfn, -⟩ := onItem_eq_ok hitem
          rw [if_pos (hfill _ _ _ _ _ _ hfn)] at hrun
          exact ih _ _ _ _ _ _ hrun

theorem fillNetworkIo_succeeds {line : NetworkLine} {y z : NetworkIoStats} {t t' : Thread} {rc : SgError}
    (hrun : fillNetworkIo line y t = .ok ((rc, z), t')) : rc = .none := by
  rw [fillNetworkIo] at hrun
  obtain ⟨name, t1, -, hrest⟩ := Prog.bind_eq_ok.mp hrun
  cases hrest
  rfl

theorem NetworkFile.failed_leaves {file : NetworkFile} {w w' : World NetworkIoStats} {p : Ptr}
    (hp : w.Holds NetworkIoStats.info (some p) []) {rc : SgError} {x : Option Ptr}
    (hrun : sgGetNetworkIoStatsInt file (some p) w = .ok ((rc, x), w')) (hfail : rc ≠ .none) :
    x = some p ∧ w'.itemsAt x = [] := by
  cases file with
  | unopened errno =>
      cases hrun
      exact ⟨rfl, hp.itemsAt⟩
  | untitled errno =>
      cases hrun
      exact ⟨rfl, hp.itemsAt⟩
  | titled lines =>
      exact absurd (fillItems_succeeds (fun _ _ _ _ _ _ => fillNetworkIo_succeeds) _ _ _ _ _ _ _ hrun) hfail

/-! ### Whether the call says so -/

/-- The read of a diff call on a cached snapshot fails. -/
def DiffFn.ReadFails (f : DiffFn) (input : f.stat.Input) (w : World f.stat.Item) (n : Ptr)
    (diff : Option Ptr) : Prop :=
  ∃ d l rc x w1, diffUpToRead f.stat.info (f.stat.fnInt input) n diff w = .ok (some (d, l, some rc, x), w1) ∧
    rc ≠ .none

/-- The first request that is refused is the one behind `r` others. Behind it `d` is made ready for `k + 1`
items, and one of the `k` requests after that is refused as well. -/
def RefusedAgain (m : Supply) (r k : Nat) {α : Type} (d : SgVector α) : Prop :=
  m.Refuses r ∧ (m.after (r + 1)).Grants (d.targetRequests (k + 1)) ∧
    ¬ (m.after (r + 1)).Grants (d.targetRequests (k + 1) + k)

/-- A failed read of the disks is reported: the file was opened, and memory is refused for the name of a
disk, and once more for one of the `k` names before it when these are copied into the target. -/
def DiskFile.Reported (file : DiskFile) (w : World DiskIoStats) (n : Ptr) (diff : Option Ptr) : Prop :=
  ¬ file.Unopened ∧ ∃ k < file.entries.length, ∃ vd, w.targetVector n diff = some vd ∧
    RefusedAgain w.mem (w.requestsToRead DiskIoStats.strings n diff
      + DiskFile.requestsBefore k (w.shiftAt (some n)) (w.allocAt (some n))) k vd

/-- A failed read is reported: always of the filesystems, never of the interfaces. -/
def DiffFn.Reported : (f : DiffFn) → f.stat.Input → World f.stat.Item → Ptr → Option Ptr → Prop
  | .diskIo, file, w, n, diff => DiskFile.Reported file w n diff
  | .networkIo, _, _, _, _ => False
  | .fs, _, _, _, _ => True

theorem AtDifference.not_copyRefused_nil {info : VectorInitInfo α} (hinfo : info.Regular)
    {weight : α → Nat} (hcopies : info.CopiesFor weight) {w : World α} {d l c : Ptr} {vd vl : SgVector α}
    {old : List α} (h : AtDifference info w d l vd vl (some c) [] old) : ¬ CopyRefused w d c := by
  rw [h.copyRefused_iff hinfo hcopies]
  rintro ⟨-, hnot⟩
  exact hnot (Supply.grants_zero _)

theorem DiskFile.reported_iff {file : DiskFile} (hsize : file.entries.length ≤ itemLimit)
    {w w1 w2 : World DiskIoStats} {n d l : Ptr} {diff x : Option Ptr} {rc : SgError}
    {vd vl : SgVector DiskIoStats} {items old : List DiskIoStats}
    (hfrom : ReadFrom DiskIoStats.info (sgGetDiskIoStatsInt file) DiskIoStats.strings w n diff rc x w1 w2 d)
    (hat : AtDifference DiskIoStats.info w1 d l vd vl x items old) (hfail : rc ≠ .none) :
    (x = none ∨ ∃ c, x = some c ∧ CopyRefused w1 d c) ↔ file.Reported w n diff := by
  obtain ⟨w3, hrun, hmem, hstore⟩ := hfrom.run
  have hsame : w3.itemsAt x = items := by
    rw [← hat.holds.itemsAt, World.itemsAt, World.itemsAt, hstore]
  have hvd : w.targetVector n diff = some vd := hfrom.target ▸ hat.diff
  rcases DiskFile.refused_leaves hsize hfrom.tidy hfrom.holds hrun hfail with
    ⟨hunopened, rfl, hitems⟩ | ⟨hopened, k, hk, hstops, q, rfl, hlength, hcopies⟩
  · rw [hsame] at hitems
    subst hitems
    refine iff_of_false ?_ ?_
    · rintro (hnull | ⟨c, hc, hrefused⟩)
      · cases hnull
      · cases hc
        exact hat.not_copyRefused_nil DiskIoStats.regular DiskIoStats.copiesFor hrefused
    · rintro ⟨hopened, -⟩
      exact hopened hunopened
  · rw [hsame] at hlength hcopies
    rw [hfrom.mem, hfrom.shift, hfrom.alloc] at hstops
    have hstops := hstops.add hfrom.grants
    have hiff := hat.copyRefused_iff DiskIoStats.regular DiskIoStats.copiesFor
    rw [resizeSafe_iff hat.held.tidy hat.diff, hlength, hcopies, hmem, hstops.rest] at hiff
    constructor
    · rintro (hnull | ⟨c, hc, hrefused⟩)
      · cases hnull
      · cases hc
        obtain ⟨⟨-, -, hready⟩, hnot⟩ := hiff.mp hrefused
        refine ⟨hopened, k, hk, vd, hvd, hstops.refuses, hready, ?_⟩
        intro hall
        exact hnot (Supply.grants_add.mp hall).2
    · rintro ⟨-, k', -, vd', hvd', hrefuses, hready, hnot⟩
      rw [hvd] at hvd'
      cases hvd'
      have hindex := hrefuses.unique hstops.refuses
      obtain rfl : k' = k := requestsBefore_injective (Nat.add_left_cancel hindex)
      refine .inr ⟨q, rfl, hiff.mpr ⟨⟨fun hzero => absurd hzero (Nat.succ_ne_zero _), ?_, hready⟩, ?_⟩⟩
      · -- one item is the one without a name, and nothing is copied of it
        intro hbad
        obtain ⟨-, hone⟩ := (hat.diffCached.unbacked_iff _).mp hbad
        obtain rfl : k' = 0 := Nat.succ.inj hone
        exact hnot hready
      · exact fun hall => hnot (Supply.grants_add.mpr ⟨hready, hall⟩)

theorem NetworkFile.not_reported {file : NetworkFile} {w w1 w2 : World NetworkIoStats} {n d l : Ptr}
    {diff x : Option Ptr} {rc : SgError} {vd vl : SgVector NetworkIoStats} {items old : List NetworkIoStats}
    (hfrom : ReadFrom NetworkIoStats.info (sgGetNetworkIoStatsInt file) NetworkIoStats.strings w n diff rc x
      w1 w2 d)
    (hat : AtDifference NetworkIoStats.info w1 d l vd vl x items old) (hfail : rc ≠ .none) :
    ¬ (x = none ∨ ∃ c, x = some c ∧ CopyRefused w1 d c) := by
  obtain ⟨w3, hrun, -, hstore⟩ := hfrom.run
  obtain ⟨rfl, hitems⟩ := NetworkFile.failed_leaves hfrom.holds hrun hfail
  have hnil : items = [] := by
    rw [← hat.holds.itemsAt, World.itemsAt, hstore]
    exact hitems
  subst hnil
  rintro (hnull | ⟨c, hc, hrefused⟩)
  · cases hnull
  · cases hc
    exact hat.not_copyRefused_nil NetworkIoStats.regular NetworkIoStats.copiesFor hrefused

/-- A diff call on a cached snapshot whose read fails returns NULL with an error exactly if it is one of
filesystems, or one of disks that is refused memory once more for what the read has left. -/
theorem DiffFn.diff_reports_iff (f : DiffFn) (input : f.stat.Input)
    (hsize : f.stat.entries input ≤ itemLimit) {w : World f.stat.Item} {n : Ptr} {diff : Option Ptr}
    (h : Held f.stat.info w (some n) diff) (hfail : f.ReadFails input w n diff) :
    ReportsFailure (multiCompDiff f.stat.info (f.stat.fnInt input) (some n) diff) w ↔
      f.Reported input w n diff := by
  obtain ⟨d, l, rc, x, w1, hread, hfail⟩ := hfail
  have hreads := f.stat.reads input hsize
  rw [multiCompDiff_reports_iff f.stat.regular f.stat.keyed hreads h hread]
  obtain ⟨items, vd, vl, hat, hran⟩ := diffUpToRead_eq_some f.stat.regular hreads h hread
  obtain ⟨w2, hfrom⟩ := diffUpToRead_from f.stat.regular f.stat.copiesFor hreads h hread
  cases f with
  | diskIo => exact DiskFile.reported_iff hsize hfrom hat hfail
  | networkIo => exact iff_of_false (NetworkFile.not_reported hfrom hat hfail) id
  | fs => exact iff_of_true (.inl (MountTable.ran_null hsize hran hfail)) trivial

def cachedWorld (info : VectorInitInfo α) (used : Nat) (x : α) : World α :=
  { glob := .clear, mem := fun _ => true, next := 1, raw := fun _ _ => x, bounded := true
    inits := 0, destroys := 0, frees := fun _ => 0
    store := fun p => if p = 0 then
      some ⟨used, 16, 4, info, 16, fun _ => x⟩ else none }

theorem cachedWorld_held {info : VectorInitInfo α} (hinfo : info.Regular) {used : Nat}
    (hused : used ≤ 16) (x : α) : Held info (cachedWorld info used x) (some 0) none := by
  have hbacked : (⟨used, 16, 4, info, 16, fun _ => x⟩ : SgVector α).Backed :=
    ⟨hused, fun _ => le_rfl, hinfo.full⟩
  have hlimit : used ≤ itemLimit := le_trans hused (by decide)
  have hcached : (⟨used, 16, 4, info, 16, fun _ => x⟩ : SgVector α).Cached info :=
    ⟨hbacked, rfl, show 4 ≤ 31 by decide, hlimit, show 16 ≤ 2 * itemLimit by decide,
      fun hzero => absurd hzero (show 16 ≠ 0 by decide)⟩
  refine World.Tidy.held ⟨?_, rfl, ?_⟩ ⟨_, rfl, hcached, show 16 ≠ 0 by decide, rfl⟩
  · intro p hp
    exact if_neg (Nat.pos_iff_ne_zero.mp (show 0 < p from hp))
  · intro p v hv
    by_cases hp : p = 0
    · subst hp
      cases hv
      exact hbacked
    · rw [show (cachedWorld info used x).store p = none from if_neg hp] at hv
      cases hv

/-- Cleared, with memory, it takes as many items as a snapshot may have. -/
theorem cachedWorld_takes {info : VectorInitInfo α} (hinfo : info.Regular) (x : α) {n : Nat}
    (hn : n ≤ itemLimit) :
    (cachedWorld info 0 x).Sound ∧ (cachedWorld info 0 x).Takes info (some 0) [] n := by
  have hheld := cachedWorld_held hinfo (Nat.zero_le 16) x
  exact ⟨hheld.tidy.sound fun _ => rfl,
    ⟨_, rfl, rfl, show 16 ≠ 0 by decide, rfl, hinfo.fits (by omega) (show 4 ≤ 31 by decide)⟩⟩

def noMounts : MountTable := ⟨.error 2, 0, 0, fun _ => .error 2, fun _ => 0, []⟩

/-- Of two disks the second is refused its name, and then the first when it is copied. -/
theorem diff_reports_refused_names :
    ReportsFailure (multiCompDiff DiskIoStats.info (sgGetDiskIoStatsInt (diskNames [[97], [98]] 5)) (some 0) none)
      { cachedWorld DiskIoStats.info 0 (diskItem 0 ⟨[97], 1, 1⟩) with
        mem := fun k => decide (k ≠ 3 ∧ k ≠ 5) } := by
  have hplenty := cachedWorld_held DiskIoStats.regular (Nat.zero_le 16) (diskItem 0 ⟨[97], 1, 1⟩)
  have hheld : Held DiffFn.diskIo.stat.info { cachedWorld DiskIoStats.info 0 (diskItem 0 ⟨[97], 1, 1⟩) with
      mem := fun k => decide (k ≠ 3 ∧ k ≠ 5) } (some 0) none :=
    ⟨⟨hplenty.tidy.fresh, hplenty.tidy.bounded, hplenty.tidy.backed⟩, hplenty.holds, hplenty.live,
      hplenty.apart⟩
  refine (DiffFn.diskIo.diff_reports_iff (diskNames [[97], [98]] 5) (by decide) hheld
    ⟨_, _, .malloc, _, _, rfl, by decide⟩).mpr ⟨?_, 1, by decide, _, rfl, ?_, ?_, ?_⟩
  · rintro ⟨errno, hcon⟩
    cases hcon
  · decide
  · decide
  · decide

/-- One disk is cached and `/proc/diskstats` cannot be opened: the call succeeds with no disks. -/
theorem diff_hides_failed_open :
    (∃ d l x w1, diffUpToRead DiskIoStats.info (sgGetDiskIoStatsInt ⟨.error 2, 0⟩) 0 none
        (cachedWorld DiskIoStats.info 1 (diskItem 0 ⟨[97], 1, 1⟩))
      = .ok (some (d, l, some .open, x), w1)) ∧
    ¬ ReportsFailure (multiCompDiff DiskIoStats.info (sgGetDiskIoStatsInt ⟨.error 2, 0⟩) (some 0) none)
      (cachedWorld DiskIoStats.info 1 (diskItem 0 ⟨[97], 1, 1⟩)) := by
  refine ⟨⟨_, _, _, _, rfl⟩, ?_⟩
  rintro ⟨result, now, diff, w', hrun, hdata, -⟩
  cases hrun
  cases hdata

end Statgrab
