import Statgrab.Stats.Readers

/-!
# The list of the mounts

`sg_get_fs_list_int` lists all mounts into a vector of its own: a `fillItems` whose rounds copy the four
strings of an entry and then the links its device goes through. It succeeds exactly if the mount table is
read to its end and no request is refused.
-/

namespace Statgrab

namespace FsStats

def withStrings (s d : FsStats) : FsStats :=
  { d with
    deviceName := s.deviceName, deviceCanonical := s.deviceCanonical
    fsType := s.fsType, mntPoint := s.mntPoint }

theorem copyStrings_cases (s d : FsStats) (t : Thread) :
    (∃ t', copyStrings s d t = .ok ((.none, withStrings s d), t') ∧ t'.glob = t.glob ∧
      (t.Plenty → t'.Plenty)) ∨
    (∃ d' t', copyStrings s d t = .ok ((.malloc, d'), t') ∧ t'.error = .malloc ∧ ¬ t.Plenty) := by
  rcases sgUpdateString_cases d.deviceName s.deviceName t with
    ⟨t1, h1, hg1, hp1⟩ | ⟨t1, h1, herr, hnot⟩
  · rcases sgUpdateString_cases d.deviceCanonical s.deviceCanonical t1 with
      ⟨t2, h2, hg2, hp2⟩ | ⟨t2, h2, herr, hnot⟩
    · rcases sgUpdateString_cases d.fsType s.fsType t2 with
        ⟨t3, h3, hg3, hp3⟩ | ⟨t3, h3, herr, hnot⟩
      · rcases sgUpdateString_cases d.mntPoint s.mntPoint t3 with
          ⟨t4, h4, hg4, hp4⟩ | ⟨t4, h4, herr, hnot⟩
        · refine .inl ⟨t4, ?_, hg4.trans (hg3.trans (hg2.trans hg1)),
            fun hp => hp4 (hp3 (hp2 (hp1 hp)))⟩
          rw [copyStrings]
          simp [Prog.bind_run, h1, h2, h3, h4, withStrings]
        · refine .inr ⟨{ withStrings s d with mntPoint := d.mntPoint }, t4, ?_, herr,
            fun hp => hnot (hp3 (hp2 (hp1 hp)))⟩
          rw [copyStrings]
          simp [Prog.bind_run, h1, h2, h3, h4, withStrings]
      · refine .inr ⟨{ withStrings s d with fsType := d.fsType, mntPoint := d.mntPoint }, t3, ?_, herr,
          fun hp => hnot (hp2 (hp1 hp))⟩
        rw [copyStrings]
        simp [Prog.bind_run, h1, h2, h3, withStrings]
    · refine .inr ⟨{ d with deviceName := s.deviceName }, t2, ?_, herr, fun hp => hnot (hp1 hp)⟩
      rw [copyStrings]
      simp [Prog.bind_run, h1, h2]
  · refine .inr ⟨d, t1, ?_, herr, hnot⟩
    rw [copyStrings]
    simp [Prog.bind_run, h1]

theorem copy_lawful : LawfulCopy copy := by
  intro s d t
  rcases copyStrings_cases s d t with ⟨t', hrun, hglob, hplenty⟩ | ⟨d', t', hrun, herr, hnot⟩
  · refine .inl ⟨t', ?_, hglob, hplenty⟩
    rw [copy, Prog.bind_of_ok hrun]
    rfl
  · refine .inr ⟨t'.error, d', t', ?_, by rw [herr]; decide, rfl, hnot⟩
    rw [copy, Prog.bind_of_ok hrun]
    rfl

def strings (d : FsStats) : Nat :=
  stringRequests d.deviceName + (stringRequests d.deviceCanonical + (stringRequests d.fsType +
    stringRequests d.mntPoint))

theorem copyStrings_asks (s d : FsStats) :
    (copyStrings s d).Asks Thread.mem s.strings fun r => r.1 = .none := by
  have hquits : ∀ (rc : SgError) (x : FsStats), rc ≠ .none →
      (pure (rc, x) : ThreadM (SgError × FsStats)).Quits Thread.mem fun r => r.1 = .none :=
    fun rc x hrc => .pure hrc
  rw [copyStrings, strings]
  refine .bind (sgUpdateString_served _ _) ?_ ?_
  swap
  · rintro ⟨rc, x⟩ (hrc : rc ≠ .none)
    simpa only [ne_eq, hrc, not_false_eq_true, if_true] using hquits rc _ hrc
  rintro ⟨rc1, name⟩ (rfl : rc1 = .none)
  simp only [ne_eq, not_true_eq_false, if_false]
  refine .bind (sgUpdateString_served _ _) ?_ ?_
  swap
  · rintro ⟨rc, x⟩ (hrc : rc ≠ .none)
    simpa only [ne_eq, hrc, not_false_eq_true, if_true] using hquits rc _ hrc
  rintro ⟨rc2, canonical⟩ (rfl : rc2 = .none)
  simp only [not_true_eq_false, if_false]
  refine .bind (sgUpdateString_served _ _) ?_ ?_
  swap
  · rintro ⟨rc, x⟩ (hrc : rc ≠ .none)
    simpa only [ne_eq, hrc, not_false_eq_true, if_true] using hquits rc _ hrc
  rintro ⟨rc3, fsType⟩ (rfl : rc3 = .none)
  simp only [not_true_eq_false, if_false]
  rw [← Nat.add_zero (stringRequests s.mntPoint)]
  refine .bind (sgUpdateString_served _ _) ?_ ?_
  · rintro ⟨rc, x⟩ (hrc : rc = .none)
    exact .pure hrc
  · rintro ⟨rc, x⟩ (hrc : rc ≠ .none)
    exact hquits rc _ hrc

theorem copy_asks : CopyAsks copy strings := by
  intro s d t r t' hrun
  rcases copyStrings_cases s d t with ⟨t1, hstrings, -, -⟩ | ⟨d', t1, hstrings, herr, -⟩
  · have hserved := copyStrings_asks s d _ _ _ hstrings
    rw [copy, Prog.bind_of_ok hstrings] at hrun
    cases hrun
    exact hserved
  · have hne : SgError.malloc ≠ .none := by decide
    have hserved := copyStrings_asks s d _ _ _ hstrings
    rw [copy, Prog.bind_of_ok hstrings] at hrun
    cases hrun
    exact hserved.congr (iff_of_false hne (herr.symm ▸ hne))

theorem copiesFor : info.CopiesFor strings := ⟨copy, rfl, copy_lawful, copy_asks⟩

theorem regular : info.Regular := ⟨⟨by decide, rfl, copy, rfl, copy_lawful⟩, by decide⟩

/-- The strings a filesystem is identified by. -/
def key (d : FsStats) : Option (List CString) :=
  match d.deviceName, d.deviceCanonical, d.mntPoint, d.fsType with
  | some name, some canonical, some mntPoint, some fsType => some [name, canonical, mntPoint, fsType]
  | _, _, _, _ => none

theorem key_eq_some {d : FsStats} {k : List CString} (h : d.key = some k) :
    ∃ name canonical mntPoint fsType, d.deviceName = some name ∧ d.deviceCanonical = some canonical ∧
      d.mntPoint = some mntPoint ∧ d.fsType = some fsType ∧ k = [name, canonical, mntPoint, fsType] := by
  unfold key at h
  split at h
  · rename_i name canonical mntPoint fsType h1 h2 h3 h4
    exact ⟨name, canonical, mntPoint, fsType, h1, h2, h3, h4, (Option.some.inj h).symm⟩
  · cases h

/-- Filesystems are identified by their four strings. -/
def keyed : info.Keyed where
  Key := List CString
  key := key
  compare := compare
  computeDiff := computeDiff
  compareFn := rfl
  computeDiffFn := rfl
  compare_eq := by
    intro a b k k' ha hb
    obtain ⟨n, c, m, f, h1, h2, h3, h4, rfl⟩ := key_eq_some ha
    obtain ⟨n', c', m', f', h1', h2', h3', h4', rfl⟩ := key_eq_some hb
    rw [compare, h1, h2, h3, h4, h1', h2', h3', h4']
    by_cases hn : n = n'
    · by_cases hc : c = c'
      · by_cases hm : m = m'
        · simp [strcmpEq_some, hn, hc, hm]
        · simp [strcmpEq_some, hn, hc, hm]
      · simp [strcmpEq_some, hn, hc]
    · simp [strcmpEq_some, hn]
  key_computeDiff a b := rfl

end FsStats

/-! ### The list -/

def Mount.canonical (mount : Mount) : CString := mount.links.getLastD mount.fsName

structure Listed (mount : Mount) (x : FsStats) : Prop where
  deviceName : x.deviceName = some mount.fsName
  deviceCanonical : x.deviceCanonical = some mount.canonical
  fsType : x.fsType = some mount.type
  mntPoint : x.mntPoint = some mount.dir
  deviceType : x.deviceType = .unknown

theorem resolveLinks_cases (links : List CString) (name : CString) (x : FsStats)
    (hx : x.deviceCanonical = some name) (t : Thread) :
    (∃ t', resolveLinks links x t
        = .ok ((.none, { x with deviceCanonical := some (links.getLastD name) }), t') ∧
      (t.Plenty → t'.Plenty)) ∨
    (∃ x' t', resolveLinks links x t = .ok ((.malloc, x'), t') ∧ t'.error = .malloc ∧ ¬ t.Plenty) := by
  induction links generalizing name x t with
  | nil =>
      refine .inl ⟨t, ?_, id⟩
      rw [resolveLinks, List.getLastD_nil, ← hx]
      rfl
  | cons link links ih =>
      rcases sgUpdateString_cases x.deviceCanonical (some link) t with
        ⟨t1, h1, -, hp1⟩ | ⟨t1, h1, herr, hnot⟩
      · rcases ih link { x with deviceCanonical := some link } rfl t1 with
          ⟨t', h2, hp2⟩ | ⟨x', t', h2, herr, hnot⟩
        · refine .inl ⟨t', ?_, fun hp => hp2 (hp1 hp)⟩
          rw [resolveLinks, Prog.bind_of_ok h1, List.getLastD_cons]
          exact h2
        · refine .inr ⟨x', t', ?_, herr, fun hp => hnot (hp1 hp)⟩
          rw [resolveLinks, Prog.bind_of_ok h1]
          exact h2
      · refine .inr ⟨x, t1, ?_, herr, hnot⟩
        rw [resolveLinks, Prog.bind_of_ok h1]
        rfl

theorem fillFsList_cases (now : Int) (mount : Mount) (x : FsStats) (t : Thread) :
    (∃ y t', fillFsList now mount x t = .ok ((.none, y), t') ∧ Listed mount y ∧
      (t.Plenty → t'.Plenty)) ∨
    (∃ y t', fillFsList now mount x t = .ok ((.malloc, y), t') ∧ t'.error = .malloc ∧ ¬ t.Plenty) := by
  rcases FsStats.copyStrings_cases (mountStrings mount x) x t with
    ⟨t1, h1, -, hp1⟩ | ⟨x', t1, h1, herr, hnot⟩
  · rcases resolveLinks_cases mount.links mount.fsName
        (FsStats.withStrings (mountStrings mount x) x) rfl t1 with
      ⟨t2, h2, hp2⟩ | ⟨x', t2, h2, herr, hnot⟩
    · refine .inl ⟨{ FsStats.withStrings (mountStrings mount x) x with
          deviceCanonical := some mount.canonical, deviceType := .unknown, systime := now }, t2, ?_,
        ⟨rfl, rfl, rfl, rfl, rfl⟩, fun hp => hp2 (hp1 hp)⟩
      rw [fillFsList, Prog.bind_of_ok h1]
      simp only [ne_eq, not_true_eq_false, if_false]
      rw [Prog.bind_of_ok h2]
      rfl
    · refine .inr ⟨x', t2, ?_, herr, fun hp => hnot (hp1 hp)⟩
      rw [fillFsList, Prog.bind_of_ok h1]
      simp only [ne_eq, not_true_eq_false, if_false]
      rw [Prog.bind_of_ok h2]
      rfl
  · refine .inr ⟨x', t1, ?_, herr, hnot⟩
    rw [fillFsList, Prog.bind_of_ok h1]
    rfl

theorem fillFsList_lawful (now : Int) (mount : Mount) :
    LawfulFill (fillFsList now mount) (Listed mount) := by
  intro x t
  rcases fillFsList_cases now mount x t with ⟨y, t', hrun, hlisted, hplenty⟩ | ⟨y, t', hrun, herr, hnot⟩
  · exact ⟨.none, y, t', hrun, fun h => absurd rfl h, fun hp => ⟨rfl, hlisted, hplenty hp⟩⟩
  · exact ⟨.malloc, y, t', hrun, fun _ => by rw [herr]; decide, fun hp => absurd hp hnot⟩

theorem resolveLinks_asks (links : List CString) (x : FsStats) :
    (resolveLinks links x).Asks Thread.mem links.length fun r => r.1 = .none := by
  induction links generalizing x with
  | nil => exact .pure rfl
  | cons link links ih =>
      rw [resolveLinks, List.length_cons, Nat.add_comm]
      refine .bind (sgUpdateString_served _ (some link)) ?_ ?_
      · rintro ⟨rc, y⟩ (rfl : rc = .none)
        exact ih _
      · rintro ⟨rc, y⟩ (hrc : rc ≠ .none)
        simp only [ne_eq, hrc, not_false_eq_true, if_true]
        exact .pure hrc

/-- The requests for a listed filesystem: its four strings, and one for each link. -/
def Mount.requests (mount : Mount) : Nat := 4 + mount.links.length

theorem fillFsList_asks (now : Int) (mount : Mount) (x : FsStats) :
    (fillFsList now mount x).Asks Thread.mem mount.requests fun r => r.1 = .none := by
  rw [fillFsList, Mount.requests, ← Nat.add_zero mount.links.length]
  refine .bind (FsStats.copyStrings_asks (mountStrings mount x) x) ?_ ?_
  swap
  · rintro ⟨rc, y⟩ (hrc : rc ≠ .none)
    simp only [ne_eq, hrc, not_false_eq_true, if_true]
    exact .pure hrc
  rintro ⟨rc, y⟩ (rfl : rc = .none)
  simp only [ne_eq, not_true_eq_false, if_false]
  refine .bind (resolveLinks_asks mount.links y) ?_ ?_
  · rintro ⟨rc, z⟩ (rfl : rc = .none)
    exact .pure rfl
  · rintro ⟨rc, z⟩ (hrc : rc ≠ .none)
    simp only [hrc, not_false_eq_true, if_true]
    exact .pure hrc

theorem fillFsList_returns (now : Int) (mount : Mount) (x : FsStats) (t : Thread) :
    ∃ r t', fillFsList now mount x t = .ok (r, t') := by
  rcases fillFsList_cases now mount x t with ⟨y, t', hrun, -⟩ | ⟨y, t', hrun, -⟩
  · exact ⟨_, t', hrun⟩
  · exact ⟨_, t', hrun⟩

theorem fillFsList_listed {now : Int} {mount : Mount} {x y : FsStats} {t t' : Thread}
    (hrun : fillFsList now mount x t = .ok ((.none, y), t')) : Listed mount y := by
  rcases fillFsList_cases now mount x t with ⟨z, t1, hfill, hlisted, -⟩ | ⟨z, t1, hfill, -⟩
  · rw [hfill] at hrun
    cases hrun
    exact hlisted
  · rw [hfill] at hrun
    cases hrun

theorem fillFsList_granted (now : Int) (mount : Mount) :
    GrantedFill (fillFsList now mount) mount.requests (Listed mount) :=
  .of_asks (fillFsList_returns now mount) (fillFsList_asks now mount) fun _ _ _ _ => fillFsList_listed

namespace MountTable

def entries (table : MountTable) : List Mount :=
  match table.mounts with
  | .error _ => []
  | .ok mounts => mounts

theorem entries_of_ok {table : MountTable} {mounts : List Mount} (h : table.mounts = .ok mounts) :
    table.entries = mounts := by
  rw [entries, h]

/-- The requests of the list: a block for each entry, and its strings. -/
def listRequests (table : MountTable) : Nat := loopRequests Mount.requests table.entries 0 0

/-- The mount table can be opened and is read to its end. -/
def Opened (table : MountTable) : Prop := (∃ mounts, table.mounts = .ok mounts) ∧ table.errnoAfter = 0

end MountTable

theorem sgGetFsListInt_run (table : MountTable) (hsize : table.entries.length ≤ itemLimit)
    {w : World FsStats} (hw : w.Tidy) :
    (∃ rc x items w', sgGetFsListInt table none w = .ok ((rc, x), w') ∧
      w.Refill w' FsStats.info none x items ∧ (rc ≠ .none → w'.error ≠ .none)) ∨
    Starved (sgGetFsListInt table none) w := by
  cases hmounts : table.mounts with
  | error errno =>
      refine .inl ⟨.setmntent, none, [], { w with glob := ⟨.setmntent, errno, ""⟩ }, ?_,
        (World.Refill.refl hw (w.holds_none _)).thread (t := ⟨⟨.setmntent, errno, ""⟩, w.mem⟩) rfl, ?_⟩
      · rw [sgGetFsListInt, hmounts]
        rfl
      · intro _ h
        cases h
  | ok mounts =>
      rw [table.entries_of_ok hmounts] at hsize
      rw [Starved, sgGetFsListInt, hmounts]
      simp only
      rcases fillItems_run FsStats.regular (fillFsList_lawful table.now) mounts none [] w hw
          (w.holds_none _) (by simpa using hsize) with
        ⟨rc, x, items, w', hrun, hrefill, hcode, -⟩ | ⟨hfault, hnot⟩
      swap
      · exact .inr ⟨Prog.bind_of_error hfault _, hnot⟩
      rw [List.length_nil] at hrun
      rw [Prog.bind_of_ok hrun]
      left
      by_cases hrc : rc = .none
      · by_cases herrno : table.errnoAfter = 0
        · refine ⟨rc, x, items, w', ?_, hrefill, hcode⟩
          simp only [hrc, herrno, ne_eq, not_true_eq_false, if_false]
          rfl
        · refine ⟨.diskinfo, x, items, { w' with glob := ⟨.diskinfo, table.errnoAfter, "getmntent"⟩ },
            ?_, hrefill.thread (t := ⟨⟨.diskinfo, table.errnoAfter, "getmntent"⟩, w'.mem⟩) rfl, ?_⟩
          · simp only [hrc, herrno, ne_eq, not_true_eq_false, not_false_eq_true, if_true, if_false]
            rfl
          · intro _ h
            cases h
      · refine ⟨rc, x, items, w', ?_, hrefill, hcode⟩
        simp only [ne_eq, hrc, not_false_eq_true, if_true]
        rfl

theorem sgGetFsListInt_granted (table : MountTable) (hsize : table.entries.length ≤ itemLimit)
    (hopened : table.Opened) {w : World FsStats} (hw : w.Tidy)
    (hgrants : Supply.Grants w.mem table.listRequests) :
    ∃ x items w', sgGetFsListInt table none w = .ok ((.none, x), w') ∧
      w.Refill w' FsStats.info none x items ∧ (table.entries ≠ [] → x ≠ none) ∧
      List.Forall₂ Listed table.entries items ∧ w'.mem = Supply.after w.mem table.listRequests := by
  obtain ⟨⟨mounts, hmounts⟩, herrno⟩ := hopened
  obtain ⟨x, items, w', hrun, hrefill, hlisted, hnull, hmem⟩ :=
    fillItems_granted FsStats.regular (fillFsList_granted table.now) table.entries none [] w hw
      (w.holds_none _) (by simpa using hsize) hgrants
  refine ⟨x, items, w', ?_, hrefill, fun h => hnull (.inl h), hlisted, hmem⟩
  rw [table.entries_of_ok hmounts, List.length_nil] at hrun
  rw [sgGetFsListInt, hmounts]
  simp only
  rw [Prog.bind_of_ok hrun]
  simp only [herrno, ne_eq, not_true_eq_false, if_false]
  rfl

/-- A list that returns succeeds exactly if the mount table can be read and the requests are granted. -/
theorem sgGetFsListInt_ok_iff (table : MountTable) (hsize : table.entries.length ≤ itemLimit)
    {w w' : World FsStats} (hw : w.Tidy) {rc : SgError} {x : Option Ptr}
    (hrun : sgGetFsListInt table none w = .ok ((rc, x), w')) :
    rc = .none ↔ table.Opened ∧ Supply.Grants w.mem table.listRequests := by
  constructor
  · rintro rfl
    cases hmounts : table.mounts with
    | error errno =>
        rw [sgGetFsListInt, hmounts] at hrun
        cases hrun
    | ok mounts =>
        have hentries := table.entries_of_ok hmounts
        rw [hentries] at hsize
        rw [sgGetFsListInt, hmounts] at hrun
        obtain ⟨⟨rc', x'⟩, w1, hloop, hrest⟩ := Prog.bind_eq_ok.mp hrun
        rcases fillItems_served FsStats.regular (fun _ _ => True) (fun _ => True)
            (fillFsList_returns table.now) (fillFsList_asks table.now)
            (fun _ _ _ _ _ _ _ _ _ => by split <;> trivial)
            mounts none [] w hw (w.holds_none _) (by simpa using hsize) rc' x' w1 hloop with
          ⟨rfl, hgrants⟩ | ⟨hne, -⟩
        · refine ⟨⟨⟨mounts, hmounts⟩, ?_⟩, ?_⟩
          · by_contra herrno
            simp only [ne_eq, not_true_eq_false, if_false, herrno, not_false_eq_true, if_true] at hrest
            cases hrest
          · rw [MountTable.listRequests, hentries]
            exact hgrants
        · simp only [if_pos hne] at hrest
          cases hrest
          exact absurd rfl hne
  · rintro ⟨hopened, hgrants⟩
    obtain ⟨x1, items, w1, hrun1, -⟩ := sgGetFsListInt_granted table hsize hopened hw hgrants
    rw [hrun] at hrun1
    cases hrun1
    rfl

end Statgrab
