import Statgrab.Access.DiffCall
import Statgrab.Stats.FsReader

/-!
# Runs of a diff

The statistics that have a `MULTI_COMP_DIFF` accessor, as one family, and what a thread sees when it
calls the getter once and the diff again and again, with enough memory throughout.

A difference is delivered as documented as long as the target of the difference can take it. What the
target can take depends on all earlier snapshots, `Deliverable`: it is never emptied once it has been
filled, and it has no room for a single item while every snapshot was empty. The filesystem reader
gives a vector without items back, so there an empty snapshot after one with items is never delivered.
-/

namespace Statgrab

/-- A statistic with a diff: its items, how they are read from what the system hands out, and what is
known of the reader. `drops` tells whether a vector without items is given back. -/
structure DiffStat where
  Item : Type
  Input : Type
  info : VectorInitInfo Item
  keyed : info.Keyed
  fnInt : Input → FillFn Item
  drops : Bool
  entries : Input → Nat
  snapshot : Input → Option (List Item)
  strings : Item → Nat
  requests : Input → Nat → Nat → Nat
  regular : info.Regular
  copiesFor : info.CopiesFor strings
  reads : ∀ i, entries i ≤ itemLimit → Reads info (fnInt i)
  readsGranted : ∀ i items, entries i ≤ itemLimit → snapshot i = some items →
    ReadsGranted info (fnInt i) drops (requests i) items

theorem DiffStat.readsAll (s : DiffStat) (i : s.Input) (items : List s.Item)
    (hsize : s.entries i ≤ itemLimit) (hitems : s.snapshot i = some items) :
    ReadsAll s.info (s.fnInt i) s.drops items := (s.readsGranted i items hsize hitems).readsAll

/-- `sg_get_disk_io_stats_diff`, `sg_get_network_io_stats_diff` and `sg_get_fs_stats_diff`. -/
inductive DiffFn where
  | diskIo
  | networkIo
  | fs
  deriving DecidableEq, Repr

def DiffFn.stat : DiffFn → DiffStat
  | .diskIo =>
    { Item := DiskIoStats
      Input := DiskFile
      info := DiskIoStats.info
      keyed := DiskIoStats.keyed
      fnInt := sgGetDiskIoStatsInt
      drops := false
      entries := fun file => file.entries.length
      snapshot := DiskFile.snapshot
      strings := DiskIoStats.strings
      requests := DiskFile.requests
      regular := DiskIoStats.regular
      copiesFor := DiskIoStats.copiesFor
      reads := fun _ hsize => DiskFile.reads hsize
      readsGranted := fun _ _ hsize hitems => DiskFile.readsGranted hsize hitems }
  | .networkIo =>
    { Item := NetworkIoStats
      Input := NetworkFile
      info := NetworkIoStats.info
      keyed := NetworkIoStats.keyed
      fnInt := sgGetNetworkIoStatsInt
      drops := false
      entries := fun file => file.entries.length
      snapshot := NetworkFile.snapshot
      strings := NetworkIoStats.strings
      requests := NetworkFile.requests
      regular := NetworkIoStats.regular
      copiesFor := NetworkIoStats.copiesFor
      reads := fun _ hsize => NetworkFile.reads hsize
      readsGranted := fun _ _ hsize hitems => NetworkFile.readsGranted hsize hitems }
  | .fs =>
    { Item := FsStats
      Input := MountTable
      info := FsStats.info
      keyed := FsStats.keyed
      fnInt := sgGetFsStatsInt
      drops := true
      entries := fun table => table.entries.length
      snapshot := MountTable.snapshot
      strings := FsStats.strings
      requests := MountTable.requests
      regular := FsStats.regular
      copiesFor := FsStats.copiesFor
      reads := fun _ hsize => MountTable.reads hsize
      readsGranted := fun _ _ hsize hitems => MountTable.readsGranted hsize hitems }

/-- A source that can be read, and the snapshot it stands for: at most `itemLimit` entries, all with
distinct keys. -/
structure DiffStat.Reading (s : DiffStat) where
  input : s.Input
  items : List s.Item
  read : s.snapshot input = some items
  bound : s.entries input ≤ itemLimit
  snapshot : s.keyed.Snapshot items

/-- What the caller sees of a call: the error, the number of entries and the items behind the returned
pointer. -/
structure Observed (α : Type) where
  error : SgError
  entries : Nat
  items : List α
  deriving DecidableEq

def observe {α : Type} (result : Access) : VecM α (Observed α) := do
  let error ← onThread sgGetError
  match result.data with
  | none => return ⟨error, result.entries, []⟩
  | some p =>
      let v ← deref p
      return ⟨error, result.entries, v.items⟩

namespace DiffStat

variable (s : DiffStat)

def diffCalls : List s.Reading → Option Ptr → Option Ptr → VecM s.Item (List (Observed s.Item))
  | [], _, _ => return []
  | r :: rest, now, diff => do
      let (result, now, diff) ← multiCompDiff s.info (s.fnInt r.input) now diff
      let seen ← observe result
      let later ← diffCalls rest now diff
      return seen :: later

/-- One getter call followed by diff calls, in a thread that has not used the statistic before. -/
def getThenDiffs (first : s.Reading) (rest : List s.Reading) :
    VecM s.Item (List (Observed s.Item)) := do
  let (_, now) ← multiCompAccess s.info (s.fnInt first.input) none
  s.diffCalls rest now none

/-- The differences as they are documented: no error, and every item of a snapshot with the item of
the previous snapshot that has its key subtracted. -/
def documented : s.Reading → List s.Reading → List (Observed s.Item)
  | _, [] => []
  | prev, cur :: rest =>
      ⟨.none, cur.items.length, cur.items.map (s.keyed.reduce prev.items)⟩ :: documented cur rest

/-- The target can take the snapshot `cur` after `prev` and the snapshots `before` it. -/
def Deliverable (prev : s.Reading) (before : List s.Reading) (cur : s.Reading) : Prop :=
  (cur.items = [] → prev.items = [] ∨ (s.drops = false ∧ before = [])) ∧
  (s.drops = false → cur.items.length = 1 → ∃ r ∈ prev :: before, r.items ≠ [])

def AllDeliverable : s.Reading → List s.Reading → List s.Reading → Prop
  | _, _, [] => True
  | prev, before, cur :: rest =>
      s.Deliverable prev before cur ∧ AllDeliverable cur (prev :: before) rest

end DiffStat

/-! ### What a call finds -/

section

variable {α : Type} {info : VectorInitInfo α} {fnInt : FillFn α} {drops : Bool} {items : List α}
  {w w' : World α} {rc : SgError} {x : Option Ptr}

theorem multiRead_all (hinfo : info.Regular) (hall : ReadsAll info fnInt drops items) (hw : w.Sound)
    {now : Option Ptr} (hnow : ∃ old, w.Holds info now old)
    (hread : multiRead info fnInt now w = .ok ((rc, x), w')) :
    rc = .none ∧ w'.Holds info x items ∧ (x = none ↔ drops = true ∧ items = []) := by
  obtain ⟨p, w1, hrun1, -, -, hholds, hsound⟩ := multiTarget_run hinfo hw hnow
  obtain ⟨x', w'', hrun, hrefill, hnull⟩ := hall w1 p hsound hholds
  rw [multiRead, Prog.bind_of_ok hrun1] at hread
  simp only at hread
  rw [hrun] at hread
  cases hread
  exact ⟨rfl, hrefill.holds, hnull⟩

theorem observe_some {result : Access} {q : Ptr} {v : SgVector α} (hdata : result.data = some q)
    (hv : w.store q = some v) :
    observe result w = .ok (⟨w.error, result.entries, v.items⟩, w) := by
  rw [observe, Prog.bind_of_ok (onThread_run (sgGetError_run _)), hdata]
  simp only
  rw [Prog.bind_of_ok (deref_run hv)]
  rfl

theorem observe_world {result : Access} {seen : Observed α}
    (h : observe result w = .ok (seen, w')) : w' = w := by
  rw [observe, Prog.bind_of_ok (onThread_run (sgGetError_run _))] at h
  cases hdata : result.data with
  | none =>
      rw [hdata] at h
      cases h
      rfl
  | some q =>
      rw [hdata] at h
      obtain ⟨v, w1, hderef, h⟩ := Prog.bind_eq_ok.mp h
      cases h
      obtain ⟨-, rfl⟩ := deref_eq_ok hderef
      rfl

theorem observe_none {result : Access} (hdata : result.data = none) :
    observe result w = .ok (⟨w.error, result.entries, []⟩, w) := by
  rw [observe, Prog.bind_of_ok (onThread_run (sgGetError_run _)), hdata]
  rfl

theorem observe_holds {result : Access} (h : w.Holds info result.data items) :
    observe result w = .ok (⟨w.error, result.entries, items⟩, w) := by
  cases hdata : result.data with
  | none =>
      rw [hdata] at h
      rw [observe_none hdata, show items = [] from h]
  | some q =>
      rw [hdata] at h
      obtain ⟨v, hv, -, -, rfl⟩ := h
      exact observe_some hdata hv

end

namespace DiffStat

variable {s : DiffStat} {w : World s.Item} {now diff : Option Ptr} {prev : s.Reading}
  {before : List s.Reading}

/-- What is cached after the snapshots `before` and then `prev` were read. -/
structure Follows (s : DiffStat) (w : World s.Item) (now diff : Option Ptr) (prev : s.Reading)
    (before : List s.Reading) : Prop where
  cache : Cache s.info w now diff
  holds : w.Holds s.info now prev.items
  null : now = none ↔ s.drops = true ∧ prev.items = []
  untouched : s.drops = false → diff = none → before = []
  used : ∀ d v, diff = some d → w.store d = some v → s.drops = false →
    before ≠ [] ∧ v.usedCount = prev.items.length
  room : ∀ d v, diff = some d → w.store d = some v →
    (v.slots = 0 ↔ s.drops = false ∧ ∀ r ∈ prev :: before, r.items = [])

theorem Follows.target {n d : Ptr} (h : Follows s w (some n) diff prev before)
    {v vd : SgVector s.Item} (hv : w.store n = some v) (ht : TargetFor w diff v d vd) :
    (s.drops = false → (vd.usedCount = 0 ↔ prev.items = [] ∨ before = [])) ∧
      (vd.slots = 0 ↔ s.drops = false ∧ ∀ r ∈ prev :: before, r.items = []) := by
  have hitems : v.items = prev.items := by
    obtain ⟨v', hv', -, -, hitems⟩ := h.holds
    rw [hv] at hv'
    cases hv'
    exact hitems
  have hzero : v.usedCount = 0 ↔ prev.items = [] := by
    rw [← hitems, ← List.length_eq_zero_iff, items_length]
  cases hdiff : diff with
  | none =>
      subst hdiff
      obtain ⟨hused, hslots⟩ := ht
      rw [hslots, hzero, hused]
      constructor
      · intro hdrops
        simp [h.untouched hdrops rfl]
      · cases hdrops : s.drops with
        | false => simp [h.untouched hdrops rfl]
        | true =>
            have hnull := h.null
            simpa [hdrops] using hnull
  | some d' =>
      subst hdiff
      obtain ⟨rfl, hd⟩ := ht
      refine ⟨?_, h.room d vd rfl hd⟩
      intro hdrops
      obtain ⟨hbefore, hused⟩ := h.used d vd rfl hd hdrops
      simp [hused, hbefore]

/-- The target can take the items exactly if the snapshots say so. -/
theorem deliverable_iff {vd : SgVector s.Item} {cur : s.Reading}
    (hused : s.drops = false → (vd.usedCount = 0 ↔ prev.items = [] ∨ before = []))
    (hslots : vd.slots = 0 ↔ s.drops = false ∧ ∀ r ∈ prev :: before, r.items = [])
    (hfill : ¬ (s.drops = true ∧ cur.items = [])) :
    s.Deliverable prev before cur ↔
      (cur.items = [] → vd.usedCount = 0) ∧ ¬ (vd.slots = 0 ∧ cur.items.length = 1) := by
  unfold Deliverable
  cases hdrops : s.drops with
  | true =>
      have hcur : cur.items ≠ [] := fun hnil => hfill ⟨hdrops, hnil⟩
      have hroom : vd.slots ≠ 0 := by
        rw [Ne, hslots, hdrops]
        simp
      simp [hcur, hroom]
  | false =>
      rw [hused hdrops, hslots, hdrops]
      simp only [true_and, forall_const]
      apply and_congr_right
      intro _
      rw [not_and']
      apply imp_congr_right
      intro _
      push Not
      exact Iff.rfl

theorem reduce_nil (s : DiffStat) : s.keyed.reduce [] = id := rfl

/-- The caller sees the documented difference. -/
def Documented (s : DiffStat) (prev cur : s.Reading) (w w' : World s.Item) (now diff : Option Ptr)
    (now' diff' : Option Ptr) : Prop :=
  ∃ result, multiCompDiff s.info (s.fnInt cur.input) now diff w = .ok ((result, now', diff'), w') ∧
    observe result w'
      = .ok (⟨.none, cur.items.length, cur.items.map (s.keyed.reduce prev.items)⟩, w')

/-- Without a cached snapshot the call reads the new one, and that is the difference. -/
theorem Follows.step_null (h : Follows s w none diff prev before) (cur : s.Reading) :
    ∃ now' w', Documented s prev cur w w' none diff now' diff ∧
      Follows s w' now' diff cur (prev :: before) := by
  obtain ⟨hdrops, hprev⟩ := h.null.mp rfl
  obtain ⟨rc, x, items, w', hread, hrun, hrefill, hsound⟩ :=
    multiCompAccess_run s.regular (s.reads cur.input cur.bound) h.cache.sound h.cache.holds
  obtain ⟨rfl, hholds, hnull⟩ := multiRead_all s.regular (s.readsAll _ _ cur.bound cur.read)
    h.cache.sound h.cache.holds hread
  rw [hrefill.holds.unique hholds, if_pos rfl] at hrun
  refine ⟨x, w'.cleared, ⟨gotten .none x cur.items, ?_, ?_⟩, (h.cache.refilled hrefill hsound).cleared, hholds.cleared,
    hnull, ?_, ?_, ?_⟩
  · rw [multiCompDiff, Prog.bind_of_ok hrun]
    rfl
  · rw [hprev, reduce_nil, List.map_id]
    have hcleared : w'.cleared.Holds s.info x cur.items := hholds.cleared
    exact observe_holds hcleared
  · intro hfalse
    rw [hdrops] at hfalse
    cases hfalse
  · intro d v _ _ hfalse
    rw [hdrops] at hfalse
    cases hfalse
  · intro d v hd hv
    obtain ⟨u, hu, -⟩ := h.cache.live d hd
    have hv' : some u = some v := (h.cache.diff_live hrefill hd hu).symm.trans hv
    cases hv'
    have hroom := h.room d v hd hu
    simpa [hdrops] using hroom

/-- With a cached snapshot the target decides. -/
theorem Follows.step_some {n : Ptr} (h : Follows s w (some n) diff prev before) (cur : s.Reading) :
    (s.Deliverable prev before cur ∧ ∃ now' diff' w', Documented s prev cur w w' (some n) diff now'
      diff' ∧ Follows s w' now' diff' cur (prev :: before)) ∨
    (¬ s.Deliverable prev before cur ∧
      ∀ now' diff' w', ¬ Documented s prev cur w w' (some n) diff now' diff') := by
  obtain ⟨rc, x, items, w1, d, l, v, vd, vl, hcall⟩ :=
    multiCompDiff_call s.regular (s.reads cur.input cur.bound) h.cache
  obtain ⟨w2, hsound2, hholds2, hread2⟩ := hcall.again
  obtain ⟨rfl, hholds, hnull⟩ := multiRead_all s.regular (s.readsAll _ _ cur.bound cur.read) hsound2
    ⟨_, hholds2⟩ hread2
  obtain rfl := hcall.holds.unique hholds
  have hprev : v.items = prev.items := by
    obtain ⟨v', hv', -, -, hitems⟩ := h.holds
    rw [hcall.now] at hv'
    cases hv'
    exact hitems
  obtain ⟨hused, hslots⟩ := h.target hcall.now hcall.target
  cases x with
  | none =>
      obtain ⟨hdrops, hnil⟩ := hnull.mp rfl
      refine .inr ⟨?_, ?_⟩
      · intro hdel
        rcases hdel.1 hnil with hempty | ⟨hfalse, -⟩
        · have hcon := h.null.mpr ⟨hdrops, hempty⟩
          cases hcon
        · rw [hdrops] at hfalse
          cases hfalse
      · rintro now' diff' w' ⟨result, hrun, hseen⟩
        obtain ⟨w3, hrun3, herr, -⟩ := hcall.null
        rw [hrun3] at hrun
        cases hrun
        rw [observe_none rfl, herr] at hseen
        cases hseen
  | some c =>
      have hfill : ¬ (s.drops = true ∧ cur.items = []) := by
        intro hcon
        have hnone := hnull.mpr hcon
        cases hnone
      rw [deliverable_iff hused hslots hfill]
      by_cases hready :
          (cur.items = [] → vd.usedCount = 0) ∧ ¬ (vd.slots = 0 ∧ cur.items.length = 1)
      · have hout := VectorInitInfo.Keyed.subtract_eq_map prev.snapshot cur.snapshot
        rw [← hprev] at hout
        obtain ⟨q, w', vq, hrun, hcache, herr, hnow, hq, hitems, hroom⟩ :=
          hcall.delivers s.regular s.keyed hready.1 hready.2 hout
        refine .inl ⟨hready, some c, some q, w', ⟨_, hrun, ?_⟩, hcache, hnow, ?_, ?_, ?_, ?_⟩
        · rw [observe_some rfl hq, herr, hitems, List.length_map, hprev]
        · simpa using hfill
        · intro _ hcon
          cases hcon
        · intro p u hp hu _
          cases hp
          rw [hq] at hu
          cases hu
          rw [← items_length, hitems, List.length_map]
          exact ⟨List.cons_ne_nil _ _, rfl⟩
        · intro p u hp hu
          cases hp
          rw [hq] at hu
          cases hu
          rw [hroom, hslots]
          constructor
          · rintro ⟨⟨hdrops, hempty⟩, hnil⟩
            exact ⟨hdrops, List.forall_mem_cons.mpr ⟨hnil, hempty⟩⟩
          · rintro ⟨hdrops, hempty⟩
            obtain ⟨hnil, hempty⟩ := List.forall_mem_cons.mp hempty
            exact ⟨⟨hdrops, hempty⟩, hnil⟩
      · refine .inr ⟨hready, ?_⟩
        rintro now' diff' w' ⟨result, hrun, -⟩
        have hbad : (cur.items = [] ∧ vd.usedCount ≠ 0) ∨ (vd.slots = 0 ∧ cur.items.length = 1) := by
          rw [not_and_or, Classical.not_imp, not_not] at hready
          exact hready
        obtain ⟨e, herr⟩ := hcall.faults s.regular s.keyed hbad
        rw [herr] at hrun
        cases hrun

/-- One diff call: the difference is as documented exactly if the snapshot can be taken. -/
theorem Follows.step (h : Follows s w now diff prev before) (cur : s.Reading) :
    (s.Deliverable prev before cur ∧ ∃ now' diff' w', Documented s prev cur w w' now diff now' diff' ∧
      Follows s w' now' diff' cur (prev :: before)) ∨
    (¬ s.Deliverable prev before cur ∧
      ∀ now' diff' w', ¬ Documented s prev cur w w' now diff now' diff') := by
  cases now with
  | none =>
      obtain ⟨hdrops, hprev⟩ := h.null.mp rfl
      obtain ⟨now', w', hdoc, hfollows⟩ := h.step_null cur
      refine .inl ⟨⟨fun _ => .inl hprev, ?_⟩, now', diff, w', hdoc, hfollows⟩
      intro hfalse
      rw [hdrops] at hfalse
      cases hfalse
  | some n => exact h.step_some cur

theorem Follows.run (h : Follows s w now diff prev before) (rest : List s.Reading) :
    (∃ w', s.diffCalls rest now diff w = .ok (s.documented prev rest, w')) ↔
      s.AllDeliverable prev before rest := by
  induction rest generalizing w now diff prev before with
  | nil => exact ⟨fun _ => trivial, fun _ => ⟨w, rfl⟩⟩
  | cons cur rest ih =>
      rw [AllDeliverable]
      rcases h.step cur with ⟨hdel, now', diff', w1, ⟨result, hrun, hseen⟩, hfollows⟩ | ⟨hdel, hdoc⟩
      · rw [← ih hfollows]
        have hcalls : s.diffCalls (cur :: rest) now diff w
            = (s.diffCalls rest now' diff' >>= fun later => pure
                (⟨.none, cur.items.length, cur.items.map (s.keyed.reduce prev.items)⟩ :: later)) w1 := by
          rw [diffCalls, Prog.bind_of_ok hrun]
          simp only
          rw [Prog.bind_of_ok hseen]
        rw [hcalls, documented]
        constructor
        · rintro ⟨w', hall⟩
          obtain ⟨later, w2, hlater, hall⟩ := Prog.bind_eq_ok.mp hall
          cases hall
          exact ⟨hdel, w', hlater⟩
        · rintro ⟨-, w', hlater⟩
          rw [Prog.bind_of_ok hlater]
          exact ⟨w', rfl⟩
      · constructor
        · rintro ⟨w', hall⟩
          rw [diffCalls, documented] at hall
          obtain ⟨⟨result, now', diff'⟩, w1, hrun, hall⟩ := Prog.bind_eq_ok.mp hall
          obtain ⟨seen, w2, hseen, hall⟩ := Prog.bind_eq_ok.mp hall
          obtain ⟨later, w3, -, hall⟩ := Prog.bind_eq_ok.mp hall
          cases hall
          obtain rfl := observe_world hseen
          exact absurd ⟨result, hrun, hseen⟩ (hdoc now' diff' w2)
        · rintro ⟨hcon, -⟩
          exact absurd hcon hdel

theorem follows_first (hw : w.Sound) (first : s.Reading) :
    ∃ result now w', multiCompAccess s.info (s.fnInt first.input) none w = .ok ((result, now), w') ∧
      Follows s w' now none first [] := by
  have hcache : Cache s.info w none none := by
    refine ⟨hw, ⟨[], w.holds_none _⟩, ?_, ?_⟩
    · intro d hd
      cases hd
    · intro p hp
      cases hp
  obtain ⟨rc, x, items, w', hread, hrun, hrefill, hsound⟩ :=
    multiCompAccess_run s.regular (s.reads first.input first.bound) hw hcache.holds
  obtain ⟨rfl, hholds, hnull⟩ := multiRead_all s.regular (s.readsAll _ _ first.bound first.read)
    hw hcache.holds hread
  rw [if_pos rfl] at hrun
  refine ⟨_, x, w'.cleared, hrun, (hcache.refilled hrefill hsound).cleared, hholds.cleared, hnull,
    fun _ _ => rfl, ?_, ?_⟩
  · intro d v hd
    cases hd
  · intro d v hd
    cases hd

theorem getThenDiffs_run (hw : w.Sound) (first : s.Reading) (rest : List s.Reading) :
    (∃ w', s.getThenDiffs first rest w = .ok (s.documented first rest, w')) ↔
      s.AllDeliverable first [] rest := by
  obtain ⟨result, now, w1, hrun, hfollows⟩ := follows_first hw first
  rw [← hfollows.run rest, getThenDiffs, Prog.bind_of_ok hrun]

end DiffStat

/-- In every run of a getter call and diff calls with enough memory, all differences are delivered as
documented exactly if the target could take every snapshot. -/
theorem DiffFn.getThenDiffs_documented_iff (f : DiffFn) (w : World f.stat.Item) (hw : w.Sound)
    (first : f.stat.Reading) (rest : List f.stat.Reading) :
    (∃ w', f.stat.getThenDiffs first rest w = .ok (f.stat.documented first rest, w')) ↔
      f.stat.AllDeliverable first [] rest := DiffStat.getThenDiffs_run hw first rest

/-- A `/proc/diskstats` with these disks, each with `n` sectors read and written. -/
def diskNames (names : List CString) (n : UInt64) : DiskFile :=
  ⟨.ok (names.map fun name => some ⟨name, n, n⟩), 0⟩

theorem diskNames_snapshot (names : List CString) (n : UInt64) :
    (diskNames names n).snapshot = some (names.map fun name => diskItem 0 ⟨name, n, n⟩) := by
  simp [diskNames, DiskFile.snapshot, List.filterMap_map]

theorem diskNames_entries (names : List CString) (n : UInt64) :
    (diskNames names n).entries.length = names.length := by
  simp [diskNames, DiskFile.entries, List.filterMap_map]

theorem diskNames_distinct {names : List CString} (hnames : names.Nodup) (n : UInt64) :
    DiskIoStats.keyed.Snapshot (names.map fun name => diskItem 0 ⟨name, n, n⟩) := by
  refine ⟨DiskFile.named (diskNames_snapshot names n), ?_⟩
  rw [List.map_map]
  apply hnames.map
  intro a b hab
  simpa [DiskIoStats.keyed, diskItem] using hab

def diskReading (names : List CString) (n : UInt64) (hsize : names.length ≤ itemLimit)
    (hnames : names.Nodup) : DiffFn.diskIo.stat.Reading where
  input := diskNames names n
  items := names.map fun name => diskItem 0 ⟨name, n, n⟩
  read := diskNames_snapshot names n
  bound := (diskNames_entries names n).trans_le hsize
  snapshot := diskNames_distinct hnames n

def noDisks : DiffFn.diskIo.stat.Reading := diskReading [] 0 (by decide) (by decide)

def oneDisk (n : UInt64) : DiffFn.diskIo.stat.Reading := diskReading [[97]] n (by decide) (by decide)

def twoDisks (n : UInt64) : DiffFn.diskIo.stat.Reading :=
  diskReading [[97], [98]] n (by decide) (by decide)

theorem emptyWorld_sound (α : Type) [Inhabited α] : (emptyWorld α).Sound := by
  refine ⟨fun _ _ => rfl, fun _ => rfl, rfl, ?_⟩
  intro p v hv
  cases hv

/-- Behind a snapshot with disks, two and then one are delivered. -/
theorem disks_deliverable {first : DiffFn.diskIo.stat.Reading} (hfirst : first.items ≠ []) (m n : UInt64) :
    DiffFn.diskIo.stat.AllDeliverable first [] [twoDisks m, oneDisk n] := by
  refine ⟨⟨?_, ?_⟩, ⟨?_, ?_⟩, trivial⟩
  · intro hnil
    cases hnil
  · intro _ hlen
    cases hlen
  · intro hnil
    cases hnil
  · intro _ _
    exact ⟨first, by simp, hfirst⟩

/-- One disk, then two, then one. -/
theorem getThenDiffs_disks :
    ∃ w', DiffFn.diskIo.stat.getThenDiffs (oneDisk 1) [twoDisks 5, oneDisk 9]
        (emptyWorld DiskIoStats)
      = .ok (DiffFn.diskIo.stat.documented (oneDisk 1) [twoDisks 5, oneDisk 9], w') := by
  apply (DiffFn.diskIo.getThenDiffs_documented_iff _ (emptyWorld_sound DiskIoStats) _ _).mpr
  exact disks_deliverable (List.cons_ne_nil _ _) 5 9

/-- A first disk after a snapshot without disks is written outside the block of the target. A snapshot
without disks after two with one releases the target and then reads it. -/
theorem getThenDiffs_disks_come_and_go :
    (¬ ∃ w', DiffFn.diskIo.stat.getThenDiffs noDisks [oneDisk 1] (emptyWorld DiskIoStats)
      = .ok (DiffFn.diskIo.stat.documented noDisks [oneDisk 1], w')) ∧
    (¬ ∃ w', DiffFn.diskIo.stat.getThenDiffs (oneDisk 1) [oneDisk 2, noDisks]
        (emptyWorld DiskIoStats)
      = .ok (DiffFn.diskIo.stat.documented (oneDisk 1) [oneDisk 2, noDisks], w')) := by
  have hcome : DiffFn.diskIo.stat.getThenDiffs noDisks [oneDisk 1] (emptyWorld DiskIoStats)
      = .error .outOfBlock := rfl
  constructor
  · rw [hcome]
    rintro ⟨w', hrun⟩
    cases hrun
  · intro hrun
    obtain ⟨-, hgo, -⟩ := (DiffStat.getThenDiffs_run (emptyWorld_sound DiskIoStats) _ _).mp hrun
    rcases hgo.1 rfl with hnil | ⟨-, hnil⟩
    · cases hnil
    · cases hnil

end Statgrab
