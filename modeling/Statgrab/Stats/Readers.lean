import Statgrab.Access.Requests
import Statgrab.Stats.Network

/-!
# The readers meet their contract

For each statistic that has a diff: its item functions are lawful, its items have keys, and its
`fn_int` is a `Reads`, whatever the system and the allocator answer. A read of a well-formed source
delivers the snapshot that source stands for where its requests are granted: the blocks of the vector and
the strings of the items. The disk reader stops at the first name it is refused.
-/

namespace Statgrab

variable {α : Type}

/-- With enough memory the read succeeds and delivers these items. The variable is left NULL only by a
reader that `drops` a vector without items. -/
def ReadsAll (info : VectorInitInfo α) (fnInt : FillFn α) (drops : Bool) (items : List α) : Prop :=
  ∀ w p, w.Sound → w.Holds info (some p) [] →
    ∃ x w', fnInt (some p) w = .ok ((.none, x), w') ∧ w.Refill w' info (some p) x items ∧
      (x = none ↔ drops = true ∧ items = [])

/-- The read succeeds and delivers these items where its requests are granted, which are all it makes. They
depend on the record of the vector it starts from. -/
def ReadsGranted (info : VectorInitInfo α) (fnInt : FillFn α) (drops : Bool) (requests : Nat → Nat → Nat)
    (items : List α) : Prop :=
  ∀ w p, w.Tidy → w.Holds info (some p) [] →
    Supply.Grants w.mem (requests (w.shiftAt (some p)) (w.allocAt (some p))) →
    ∃ x w', fnInt (some p) w = .ok ((.none, x), w') ∧ w.Refill w' info (some p) x items ∧
      (x = none ↔ drops = true ∧ items = []) ∧
      w'.mem = Supply.after w.mem (requests (w.shiftAt (some p)) (w.allocAt (some p)))

theorem ReadsGranted.readsAll {info : VectorInitInfo α} {fnInt : FillFn α} {drops : Bool}
    {requests : Nat → Nat → Nat} {items : List α} (h : ReadsGranted info fnInt drops requests items) :
    ReadsAll info fnInt drops items := by
  intro w p hw hp
  obtain ⟨x, w', hrun, hrefill, hnull, -⟩ := h w p hw.tidy hp fun k _ => hw.plenty k
  exact ⟨x, w', hrun, hrefill, hnull⟩

theorem strcmpEq_some (a b : CString) : strcmpEq (some a) (some b) = some (decide (a = b)) := rfl

/-! ### The loop as a read -/

section

variable {β : Type} {info : VectorInitInfo α} {fill : β → ItemFn α} {spec : β → α → Prop}

theorem fillItems_reads (hinfo : info.Regular) (hfill : ∀ b, LawfulFill (fill b) (spec b))
    {bs : List β} (hbs : bs.length ≤ itemLimit) : Reads info (fillItems info fill bs 0) := by
  intro w p hw hp
  rcases fillItems_run hinfo hfill bs (some p) [] w hw hp (by simpa using hbs) with
    ⟨rc, x, items, w', hrun, hrefill, -⟩ | hstarved
  · exact .inl ⟨rc, x, items, w', hrun, hrefill⟩
  · exact .inr hstarved

def loopRequests (need : β → Nat) (bs : List β) (shift alloc : Nat) : Nat :=
  growths shift alloc 0 bs.length + (bs.map need).sum

theorem fillItems_readsGranted (hinfo : info.Regular) {f : β → α} {need : β → Nat}
    (hfill : ∀ b, GrantedFill (fill b) (need b) fun x => x = f b) {bs : List β}
    (hbs : bs.length ≤ itemLimit) :
    ReadsGranted info (fillItems info fill bs 0) false (loopRequests need bs) (bs.map f) := by
  intro w p hw hp hgrants
  obtain ⟨x, new, w', hrun, hrefill, hnew, hnull, hmem⟩ :=
    fillItems_granted hinfo hfill bs (some p) [] w hw hp (by simpa using hbs) hgrants
  rw [List.nil_append, forall₂_eq_map hnew] at hrefill
  refine ⟨x, w', hrun, hrefill, ?_, hmem⟩
  constructor
  · intro hx
    exact absurd hx (hnull (.inr (Option.some_ne_none p)))
  · rintro ⟨hfalse, -⟩
    cases hfalse

theorem reads_of_error {fnInt : FillFn α} (code : SgError) (errno : Int) (arg : String)
    (h : ∀ p, fnInt (some p) = (do
      let rc ← onThread (returnWithSetError code errno arg)
      return (rc, some p))) : Reads info fnInt := by
  intro w p hw hp
  refine .inl ⟨code, some p, [], _, ?_, (World.Refill.refl hw hp).thread
    (t := ⟨⟨code, errno, arg⟩, w.mem⟩) rfl⟩
  rw [h p]
  rfl

end

/-- The copy of an item with one string, `name`, hands on what `sg_update_string` returns. -/
structure CopiesString (name : α → Option CString) (copy : α → α → ThreadM (SgError × α)) : Prop where
  ok : ∀ s d t t', sgUpdateString (name d) (name s) t = .ok ((.none, name s), t') →
    copy s d t = .ok ((.none, s), t')
  refused : ∀ s d t t', sgUpdateString (name d) (name s) t = .ok ((.malloc, name d), t') →
    copy s d t = .ok ((t'.error, d), t')

theorem CopiesString.lawful {name : α → Option CString} {copy : α → α → ThreadM (SgError × α)}
    (h : CopiesString name copy) : LawfulCopy copy := by
  intro s d t
  rcases sgUpdateString_cases (name d) (name s) t with
    ⟨t', hrun, hglob, hplenty⟩ | ⟨t', hrun, herr, hnot⟩
  · exact .inl ⟨t', h.ok s d t t' hrun, hglob, hplenty⟩
  · exact .inr ⟨t'.error, d, t', h.refused s d t t' hrun, by rw [herr]; decide, rfl, hnot⟩

theorem CopiesString.asks {name : α → Option CString} {copy : α → α → ThreadM (SgError × α)}
    (h : CopiesString name copy) : CopyAsks copy fun s => stringRequests (name s) := by
  intro s d t r t' hrun
  rcases sgUpdateString_cases (name d) (name s) t with ⟨t1, hupdate, -, -⟩ | ⟨t1, hupdate, herr, -⟩
  · rw [h.ok s d t t1 hupdate] at hrun
    cases hrun
    exact sgUpdateString_served _ _ _ _ _ hupdate
  · rw [h.refused s d t t1 hupdate] at hrun
    cases hrun
    have hne : SgError.malloc ≠ .none := by decide
    exact (sgUpdateString_served _ _ _ _ _ hupdate).congr (iff_of_false hne (herr.symm ▸ hne))

/-- A function that says what it makes of an item, and stops at the first refusal, keeps to this where
its requests are granted. -/
theorem GrantedFill.of_asks {fill : ItemFn α} {need : Nat} {spec : α → Prop}
    (hreturns : ∀ y t, ∃ r t', fill y t = .ok (r, t'))
    (hasks : ∀ y, (fill y).Asks Thread.mem need fun r => r.1 = .none)
    (hspec : ∀ y t z t', fill y t = .ok ((.none, z), t') → spec z) : GrantedFill fill need spec := by
  intro y t hgrants
  obtain ⟨⟨rc, z⟩, t', hrun⟩ := hreturns y t
  have hserved := hasks y t _ t' hrun
  have hrc : rc = .none := hserved.ok_iff.mpr hgrants
  subst hrc
  exact ⟨z, t', hrun, hspec y t z t' hrun, hserved.rest rfl⟩

/-! ### Disk I/O -/

namespace DiskIoStats

theorem copiesString : CopiesString diskName copy := by
  constructor
  · intro s d t t' hrun
    rw [copy, Prog.bind_of_ok hrun]
    rfl
  · intro s d t t' hrun
    rw [copy, Prog.bind_of_ok hrun]
    rfl

theorem copy_lawful : LawfulCopy copy := copiesString.lawful

def strings (d : DiskIoStats) : Nat := stringRequests d.diskName

theorem copiesFor : info.CopiesFor strings := ⟨copy, rfl, copy_lawful, copiesString.asks⟩

theorem regular : info.Regular := ⟨⟨by decide, rfl, copy, rfl, copy_lawful⟩, by decide⟩

def keyed : info.Keyed where
  Key := List CString
  key d := d.diskName.map fun name => [name]
  compare := compare
  computeDiff := computeDiff
  compareFn := rfl
  computeDiffFn := rfl
  compare_eq := by
    intro a b k k' ha hb
    obtain ⟨name, hname, rfl⟩ := Option.map_eq_some_iff.mp ha
    obtain ⟨name', hname', rfl⟩ := Option.map_eq_some_iff.mp hb
    rw [compare, hname, hname', strcmpEq_some]
    simp
  key_computeDiff a b := rfl

end DiskIoStats

theorem fillDiskIo_cases (now : Int) (line : DiskLine) (y : DiskIoStats) (t : Thread) :
    (∃ t', fillDiskIo now line y t = .ok ((.none, diskItem now line), t') ∧
      Served t.mem t'.mem 1 True ∧ (t.Plenty → t'.Plenty)) ∨
    (∃ t', fillDiskIo now line y t = .ok ((.malloc, y), t') ∧ Served t.mem t'.mem 1 False ∧
      t'.error = .malloc ∧ ¬ t.Plenty) := by
  rcases sgUpdateString_cases y.diskName (some line.name) t with
    ⟨t', hupdate, -, hplenty⟩ | ⟨t', hupdate, herr, hnot⟩
  · refine .inl ⟨t', ?_, (sgUpdateString_served _ _ _ _ _ hupdate).congr (iff_of_true rfl trivial),
      hplenty⟩
    rw [fillDiskIo, Prog.bind_of_ok hupdate]
    rfl
  · have hne : SgError.malloc ≠ .none := by decide
    refine .inr ⟨t', ?_, (sgUpdateString_served _ _ _ _ _ hupdate).congr (iff_of_false hne id), herr, hnot⟩
    rw [fillDiskIo, Prog.bind_of_ok hupdate]
    show Except.ok ((t'.error, y), t') = .ok ((.malloc, y), t')
    rw [herr]

theorem fillDiskIo_lawful (now : Int) (line : DiskLine) :
    LawfulFill (fillDiskIo now line) (fun x => x = diskItem now line) := by
  intro y t
  rcases fillDiskIo_cases now line y t with ⟨t', hrun, -, hplenty⟩ | ⟨t', hrun, -, herr, hnot⟩
  · exact ⟨.none, _, t', hrun, fun h => absurd rfl h, fun hp => ⟨rfl, rfl, hplenty hp⟩⟩
  · exact ⟨.malloc, y, t', hrun, fun _ => by rw [herr]; decide, fun hp => absurd hp hnot⟩

theorem fillDiskIo_asks (now : Int) (line : DiskLine) (y : DiskIoStats) :
    (fillDiskIo now line y).Asks Thread.mem 1 fun r => r.1 = .none := by
  intro t r t' hrun
  rcases fillDiskIo_cases now line y t with ⟨t1, hfill, hserved, -⟩ | ⟨t1, hfill, hserved, -⟩
  · rw [hfill] at hrun
    cases hrun
    exact hserved.congr (iff_of_true trivial rfl)
  · rw [hfill] at hrun
    cases hrun
    exact hserved.congr (iff_of_false id (show SgError.malloc ≠ .none by decide))

theorem fillDiskIo_leaves {now : Int} {line : DiskLine} {y z : DiskIoStats} {t t' : Thread} {rc : SgError}
    (hrun : fillDiskIo now line y t = .ok ((rc, z), t')) :
    if rc = .none then z = diskItem now line else z = y := by
  rcases fillDiskIo_cases now line y t with ⟨t1, hfill, -⟩ | ⟨t1, hfill, -⟩
  · rw [hfill] at hrun
    cases hrun
    rfl
  · rw [hfill] at hrun
    cases hrun
    rfl

theorem fillDiskIo_returns (now : Int) (line : DiskLine) (y : DiskIoStats) (t : Thread) :
    ∃ r t', fillDiskIo now line y t = .ok (r, t') := by
  rcases fillDiskIo_cases now line y t with ⟨t', hfill, -⟩ | ⟨t', hfill, -⟩
  · exact ⟨_, t', hfill⟩
  · exact ⟨_, t', hfill⟩

theorem fillDiskIo_granted (now : Int) (line : DiskLine) :
    GrantedFill (fillDiskIo now line) 1 fun x => x = diskItem now line :=
  .of_asks (fillDiskIo_returns now line) (fillDiskIo_asks now line) fun _ _ _ _ hrun =>
    by simpa using fillDiskIo_leaves hrun

namespace DiskFile

def entries (file : DiskFile) : List DiskLine :=
  match file.lines with
  | .error _ => []
  | .ok lines => lines.filterMap id

def snapshot (file : DiskFile) : Option (List DiskIoStats) :=
  match file.lines with
  | .error _ => none
  | .ok lines => some ((lines.filterMap id).map (diskItem file.now))

theorem reads {file : DiskFile} (hsize : file.entries.length ≤ itemLimit) :
    Reads DiskIoStats.info (sgGetDiskIoStatsInt file) := by
  cases hlines : file.lines with
  | error errno =>
      apply reads_of_error .open errno "/proc/diskstats"
      intro p
      rw [sgGetDiskIoStatsInt, hlines]
  | ok lines =>
      rw [entries, hlines] at hsize
      intro w p hw hp
      have hreads := fillItems_reads DiskIoStats.regular (fillDiskIo_lawful file.now) hsize w p hw hp
      rw [sgGetDiskIoStatsInt, hlines]
      exact hreads

def requests (file : DiskFile) : Nat → Nat → Nat := loopRequests (fun _ => 1) file.entries

theorem readsGranted {file : DiskFile} (hsize : file.entries.length ≤ itemLimit)
    {items : List DiskIoStats} (hitems : file.snapshot = some items) :
    ReadsGranted DiskIoStats.info (sgGetDiskIoStatsInt file) false file.requests items := by
  cases hlines : file.lines with
  | error errno =>
      rw [snapshot, hlines] at hitems
      cases hitems
  | ok lines =>
      rw [entries, hlines] at hsize
      rw [snapshot, hlines] at hitems
      cases hitems
      intro w p hw hp hgrants
      rw [requests, entries, hlines] at hgrants ⊢
      rw [sgGetDiskIoStatsInt, hlines]
      exact fillItems_readsGranted DiskIoStats.regular (fillDiskIo_granted file.now) hsize w p hw hp hgrants

theorem named {file : DiskFile} {items : List DiskIoStats} (hitems : file.snapshot = some items) :
    DiskIoStats.keyed.Named items := by
  unfold snapshot at hitems
  split at hitems
  · cases hitems
  · cases hitems
    intro x hx
    obtain ⟨line, -, rfl⟩ := List.mem_map.mp hx
    rfl

end DiskFile

/-! ### Network I/O -/

namespace NetworkIoStats

theorem copiesString : CopiesString interfaceName copy := by
  constructor
  · intro s d t t' hrun
    rw [copy, Prog.bind_of_ok hrun]
    rfl
  · intro s d t t' hrun
    rw [copy, Prog.bind_of_ok hrun]
    rfl

theorem copy_lawful : LawfulCopy copy := copiesString.lawful

def strings (d : NetworkIoStats) : Nat := stringRequests d.interfaceName

theorem copiesFor : info.CopiesFor strings := ⟨copy, rfl, copy_lawful, copiesString.asks⟩

theorem regular : info.Regular := ⟨⟨by decide, rfl, copy, rfl, copy_lawful⟩, by decide⟩

def keyed : info.Keyed where
  Key := List CString
  key d := d.interfaceName.map fun name => [name]
  compare := compare
  computeDiff := computeDiff
  compareFn := rfl
  computeDiffFn := rfl
  compare_eq := by
    intro a b k k' ha hb
    obtain ⟨name, hname, rfl⟩ := Option.map_eq_some_iff.mp ha
    obtain ⟨name', hname', rfl⟩ := Option.map_eq_some_iff.mp hb
    rw [compare, hname, hname', strcmpEq_some]
    simp
  key_computeDiff a b := rfl

end NetworkIoStats

theorem fillNetworkIo_lawful (line : NetworkLine) :
    LawfulFill (fillNetworkIo line) (fun x => x = networkItem line) := by
  intro x t
  cases hmem : t.mem 0 with
  | true =>
      have hmatch : sgGetStringMatch line.name t = .ok (some line.name, t.answered) := by
        rw [sgGetStringMatch, if_pos hmem]
      refine ⟨.none, networkItem line, t.answered, ?_, fun h => absurd rfl h,
        fun hp => ⟨rfl, rfl, hp.answered⟩⟩
      rw [fillNetworkIo, Prog.bind_of_ok hmatch]
      rfl
  | false =>
      have hmatch : sgGetStringMatch line.name t
          = .ok (none, { t.answered with glob := strndupError }) := by
        rw [sgGetStringMatch, if_neg (by simp [hmem])]
      refine ⟨.none, { networkItem line with interfaceName := none },
        { t.answered with glob := strndupError }, ?_, fun h => absurd rfl h, ?_⟩
      · rw [fillNetworkIo, Prog.bind_of_ok hmatch]
        rfl
      · intro hp
        rw [hp 0] at hmem
        cases hmem

theorem fillNetworkIo_granted (line : NetworkLine) :
    GrantedFill (fillNetworkIo line) 1 fun x => x = networkItem line := by
  intro y t hgrants
  have hmatch : sgGetStringMatch line.name t = .ok (some line.name, t.answered) := by
    rw [sgGetStringMatch, if_pos (Supply.grants_one.mp hgrants)]
  refine ⟨networkItem line, t.answered, ?_, rfl, answered_mem t⟩
  rw [fillNetworkIo, Prog.bind_of_ok hmatch]
  rfl

namespace NetworkFile

def entries : NetworkFile → List NetworkLine
  | .unopened _ => []
  | .untitled _ => []
  | .titled lines => lines.filterMap id

def snapshot : NetworkFile → Option (List NetworkIoStats)
  | .unopened _ => none
  | .untitled _ => none
  | .titled lines => some ((lines.filterMap id).map networkItem)

theorem reads {file : NetworkFile} (hsize : file.entries.length ≤ itemLimit) :
    Reads NetworkIoStats.info (sgGetNetworkIoStatsInt file) := by
  cases file with
  | unopened errno => exact reads_of_error _ _ _ fun p => rfl
  | untitled errno => exact reads_of_error _ _ _ fun p => rfl
  | titled lines => exact fillItems_reads NetworkIoStats.regular fillNetworkIo_lawful hsize

def requests (file : NetworkFile) : Nat → Nat → Nat := loopRequests (fun _ => 1) file.entries

theorem readsGranted {file : NetworkFile} (hsize : file.entries.length ≤ itemLimit)
    {items : List NetworkIoStats} (hitems : file.snapshot = some items) :
    ReadsGranted NetworkIoStats.info (sgGetNetworkIoStatsInt file) false file.requests items := by
  cases file with
  | unopened errno => cases hitems
  | untitled errno => cases hitems
  | titled lines =>
      cases hitems
      exact fillItems_readsGranted NetworkIoStats.regular fillNetworkIo_granted hsize

theorem named {file : NetworkFile} {items : List NetworkIoStats}
    (hitems : file.snapshot = some items) : NetworkIoStats.keyed.Named items := by
  cases file with
  | unopened errno => cases hitems
  | untitled errno => cases hitems
  | titled lines =>
      cases hitems
      intro x hx
      obtain ⟨line, -, rfl⟩ := List.mem_map.mp hx
      rfl

end NetworkFile

end Statgrab
