import Statgrab.Lib.Run
import Statgrab.Stats.CpuPage
import Statgrab.Stats.FailedReads

/-!
# The snapshot a diff subtracts

The getter of a statistic and its diff share one cached snapshot. Both overwrite it in place before the
read can fail: the item is zeroed, the vector is emptied. What a later diff subtracts is therefore what
the last read left, and that is the last snapshot that was read as long as no read has failed after it.
A diff of a statistic with many items has more to get right before it delivers: its target must be ready
for the items that were read, and no comparison may follow a NULL string.

A session is a thread that calls the two in any order, with any answers of the allocator and reads that
fail anywhere. It remembers what the thread itself cannot see: the last snapshot that was read, and
whether a read has failed since.
-/

namespace Statgrab

/-! ### Statistics with a getter and a diff -/

/-- A statistic with a getter and a diff, what its diff subtracts, and what a thread keeps of it. A diff whose
read succeeds returns where it is `Ready`, which is said of what it reads and of the state before it. -/
structure SnapshotStat where
  Item : Type
  Input : Type
  get : Input → Option Ptr → VecM Item (Access × Option Ptr)
  diff : Input → Option Ptr → Option Ptr → VecM Item (Access × Option Ptr × Option Ptr)
  minus : List Item → List Item → Option (List Item)
  Kept : World Item → Option Ptr → Option Ptr → Prop
  Reads : Input → World Item → Option Ptr → Option Ptr → Prop
  Ready : Input → World Item → Option Ptr → Option Ptr → Prop
  kept_start : ∀ w, w.bounded = true → (∀ p, w.store p = none) → Kept w none none
  kept_get : ∀ input {w w' now diff r now'}, Kept w now diff →
    get input now w = .ok ((r, now'), w') → Kept w' now' diff ∧ Gets w w' now now' r
  kept_diff : ∀ input {w w' now diff0 r now' diff'}, Kept w now diff0 →
    diff input now diff0 w = .ok ((r, now', diff'), w') →
      Kept w' now' diff' ∧ Differs minus w w' now now' r
  returns : ∀ input {w now diff0}, Kept w now diff0 → Ready input w now diff0 → Reads input w now diff0 →
    ∃ r now' diff' w', diff input now diff0 w = .ok ((r, now', diff'), w') ∧ r.read = some .none ∧
      (r.ok = false → w'.error ≠ .none)

theorem Held.start {α : Type} {info : VectorInitInfo α} {w : World α} (hbounded : w.bounded = true)
    (hstore : ∀ p, w.store p = none) : Held info w none none := by
  have htidy : w.Tidy := by
    refine ⟨fun p _ => hstore p, hbounded, ?_⟩
    intro p v hv
    rw [hstore] at hv
    cases hv
  exact htidy.held (w.holds_none info)

theorem HeldItem.start {α : Type} {w : World α} (hstore : ∀ p, w.store p = none) :
    HeldItem w none none := by
  refine ⟨fun p _ => hstore p, ?_, ?_, ?_⟩
  · intro p hp
    cases hp
  · intro p hp
    cases hp
  · intro p hp
    cases hp

theorem CpuStats.fits : Fits 1 0 CpuStats.info := ⟨by decide, by decide, by decide⟩

theorem PageStats.fits : Fits 1 0 PageStats.info := ⟨by decide, by decide, by decide⟩

section

variable {α : Type} {info : VectorInitInfo α} {fnInt : FillFn α} {w w1 : World α} {n d l : Ptr}
  {diff x : Option Ptr}

/-- A read that is granted its requests is followed by the difference against the snapshot cached before,
or by a refused copy, if the target is ready for what was read. -/
theorem multiCompDiff_computes (hinfo : info.Regular) {keyed : info.Keyed} {weight : α → Nat}
    (hcopies : info.CopiesFor weight) (hreads : Reads info fnInt) {drops : Bool}
    {requests : Nat → Nat → Nat} {items : List α}
    (hgranted : ReadsGranted info fnInt drops requests items) (h : Held info w (some n) diff)
    (hread : diffUpToRead info fnInt n diff w = .ok (some (d, l, some .none, x), w1))
    {vd : SgVector α} (hvd : w.targetVector n diff = some vd)
    (hbefore : keyed.Named (w.itemsAt (some n))) (hnamed : keyed.Named items)
    (hdrops : drops = true → items ≠ []) (hempty : items = [] → vd.usedCount = 0)
    (hroom : ¬ (vd.slots = 0 ∧ items.length = 1))
    (hgrants : Supply.Grants w.mem (w.requestsToRead weight n diff
      + (requests (w.shiftAt (some n)) (w.allocAt (some n)) + vd.targetRequests items.length))) :
    ∃ result now' diff' w', multiCompDiff info fnInt (some n) diff w = .ok ((result, now', diff'), w') ∧
      result.read = some .none ∧ w'.itemsAt now' = items ∧ (result.ok = false → w'.error ≠ .none) := by
  obtain ⟨items', vd', vl, hat, -⟩ := diffUpToRead_eq_some hinfo hreads h hread
  obtain ⟨w2, hfrom⟩ := diffUpToRead_from hinfo hcopies hreads h hread
  obtain ⟨w3, hrun, hmem, hstore⟩ := hfrom.run
  have hvd' : vd' = vd := Option.some.inj (hat.diff.symm.trans (hfrom.target.trans hvd))
  subst hvd'
  obtain ⟨hbeforeRead, hgrants⟩ := Supply.grants_add.mp hgrants
  obtain ⟨hreadGrants, hready⟩ := Supply.grants_add.mp hgrants
  obtain ⟨x', w3', hrun', hrefill, hnull, hmem'⟩ := hgranted w2 n hfrom.tidy hfrom.holds
    (by rwa [hfrom.mem, hfrom.shift, hfrom.alloc])
  rw [hrun] at hrun'
  cases hrun'
  have hitems : items' = items := by
    rw [← hat.holds.itemsAt, ← hrefill.holds.itemsAt, World.itemsAt, World.itemsAt, hstore]
  subst hitems
  cases x with
  | none =>
      obtain ⟨hdrop, hnil⟩ := hnull.mp rfl
      exact absurd hnil (hdrops hdrop)
  | some c =>
      have hsafe : w1.ResizeSafe vd' items'.length := by
        refine (resizeSafe_iff hat.held.tidy hat.diff _).mpr ⟨?_, ?_, ?_⟩
        · exact fun hlen => hempty (List.length_eq_zero_iff.mp hlen)
        · exact fun hbad => hroom ((hat.diffCached.unbacked_iff _).mp hbad)
        · rwa [hmem, hmem', hfrom.mem, hfrom.shift, hfrom.alloc]
      rw [multiCompDiff_of_read hread]
      rcases hat.finish_cases hinfo keyed (some .none) with
        ⟨-, ⟨q, result, w4, hfinish, hdel⟩ | ⟨hbad, -⟩⟩ | ⟨-, w4, hfinish, herr, -, hholds⟩
      · obtain ⟨q', vq, -, rfl, -⟩ := hdel.data
        refine ⟨_, some c, some q, w4, hfinish, rfl, hdel.holds.itemsAt, ?_⟩
        intro hfalse
        cases hfalse
      · rcases hbad with hdanger | hnone
        · exact absurd hsafe hdanger
        · exact absurd hnone (VectorInitInfo.Keyed.subtract_named hbefore hnamed)
      · exact ⟨_, some c, none, w4, hfinish, rfl, hholds.itemsAt, fun _ => herr⟩

/-- The read of a diff on cached items succeeds. -/
def MultiReads (info : VectorInitInfo α) (fnInt : FillFn α) (w : World α) : Option Ptr → Option Ptr → Prop
  | none, _ => ∃ r now' w', multiCompAccess info fnInt none w = .ok ((r, now'), w') ∧ r.read = some .none
  | some n, diff => ∃ d l x w1, diffUpToRead info fnInt n diff w = .ok (some (d, l, some .none, x), w1)

theorem multiCompAccess_ok_of_read (hinfo : info.Regular) (hreads : Reads info fnInt) {now now' : Option Ptr}
    (h : Held info w now diff) {r : Access} {w' : World α}
    (hrun : multiCompAccess info fnInt now w = .ok ((r, now'), w')) (hread : r.read = some .none) :
    r.ok = true := by
  rcases multiCompAccess_cases hinfo hreads h.tidy h.holds with
    ⟨rc, x, items, w1, hrun1, -⟩ | ⟨-, w1, hrun1, -⟩ | hfault
  · rw [hrun1] at hrun
    cases hrun
    obtain rfl := gotten_ok_of_read hread
    rfl
  · rw [hrun1] at hrun
    cases hrun
    cases hread
  · rw [hfault] at hrun
    cases hrun

end

/-- The diff takes the items that are read: all that is cached has its names; a reader that drops an empty
vector has something to report; the target is not emptied, and if it has no room, then not for one item;
and the requests of the call are granted up to the block of the target. -/
structure DiffStat.Takes (s : DiffStat) (input : s.Input) (w : World s.Item) (n : Ptr) (diff : Option Ptr)
    (vd : SgVector s.Item) (items : List s.Item) : Prop where
  named : s.keyed.Named (w.itemsAt (some n))
  reported : s.drops = true → items ≠ []
  kept : items = [] → vd.usedCount = 0
  room : ¬ (vd.slots = 0 ∧ items.length = 1)
  grants : Supply.Grants w.mem (w.requestsToRead s.strings n diff
    + (s.requests input (w.shiftAt (some n)) (w.allocAt (some n)) + vd.targetRequests items.length))

/-- The diff is ready for the snapshot its source stands for. -/
def DiffStat.Ready (s : DiffStat) (input : s.Input) (w : World s.Item) : Option Ptr → Option Ptr → Prop
  | none, _ => True
  | some n, diff => ∃ items vd, s.snapshot input = some items ∧ w.targetVector n diff = some vd ∧
      s.Takes input w n diff vd items

/-- A disk is cached, and two are read. -/
example : DiffFn.diskIo.stat.Ready (diskNames [[97], [98]] 5)
    (cachedWorld DiskIoStats.info 1 (diskItem 0 ⟨[97], 1, 1⟩)) (some 0) none := by
  refine ⟨_, _, diskNames_snapshot _ _, rfl, ?_, ?_, ?_, ?_, fun k _ => rfl⟩
  · intro x hx
    obtain rfl : x = diskItem 0 ⟨[97], 1, 1⟩ := List.mem_singleton.mp hx
    rfl
  · intro hdrops
    cases hdrops
  · intro hnil
    cases hnil
  · rintro ⟨-, hone⟩
    cases hone

theorem DiffFn.named (f : DiffFn) {input : f.stat.Input} {items : List f.stat.Item}
    (h : f.stat.snapshot input = some items) : f.stat.keyed.Named items := by
  cases f with
  | diskIo => exact DiskFile.named h
  | networkIo => exact NetworkFile.named h
  | fs => exact MountTable.named h

theorem DiffFn.diff_returns (f : DiffFn) (input : f.stat.Input) (hsize : f.stat.entries input ≤ itemLimit)
    {w : World f.stat.Item} {now diff : Option Ptr} (h : Held f.stat.info w now diff)
    (hready : f.stat.Ready input w now diff)
    (hread : MultiReads f.stat.info (f.stat.fnInt input) w now diff) :
    ∃ r now' diff' w', multiCompDiff f.stat.info (f.stat.fnInt input) now diff w
      = .ok ((r, now', diff'), w') ∧ r.read = some .none ∧ (r.ok = false → w'.error ≠ .none) := by
  have hreads := f.stat.reads input hsize
  cases now with
  | none =>
      obtain ⟨r, now', w', hrun, hnone⟩ := hread
      have hok := multiCompAccess_ok_of_read f.stat.regular hreads h hrun hnone
      refine ⟨r, now', diff, w', ?_, hnone, fun hfalse => by rw [hok] at hfalse; cases hfalse⟩
      rw [multiCompDiff, Prog.bind_of_ok hrun]
      rfl
  | some n =>
      obtain ⟨d, l, x, w1, hrun⟩ := hread
      obtain ⟨items, vd, hitems, hvd, htakes⟩ := hready
      obtain ⟨r, now', diff', w', hcall, hnone, -, herr⟩ := multiCompDiff_computes f.stat.regular
        f.stat.copiesFor hreads (f.stat.readsGranted input items hsize hitems) h hrun hvd htakes.named
        (f.named hitems) htakes.reported htakes.kept htakes.room htakes.grants
      exact ⟨r, now', diff', w', hcall, hnone, herr⟩

/-- The statistic of a diff function, read from a source of at most `itemLimit` entries. -/
def DiffFn.snapshotStat (f : DiffFn) : SnapshotStat where
  Item := f.stat.Item
  Input := { input : f.stat.Input // f.stat.entries input ≤ itemLimit }
  get := fun input => multiCompAccess f.stat.info (f.stat.fnInt input.1)
  diff := fun input => multiCompDiff f.stat.info (f.stat.fnInt input.1)
  minus := subtract f.stat.keyed.compare f.stat.keyed.computeDiff
  Kept := Held f.stat.info
  Reads := fun input => MultiReads f.stat.info (f.stat.fnInt input.1)
  Ready := fun input => f.stat.Ready input.1
  kept_start := fun _ => Held.start
  kept_get := fun input _ _ _ _ _ _ h hrun =>
    multiCompAccess_gets f.stat.regular (f.stat.reads input.1 input.2) h hrun
  kept_diff := fun input _ _ _ _ _ _ _ h hrun =>
    multiCompDiff_differs f.stat.regular f.stat.keyed (f.stat.reads input.1 input.2) h hrun
  returns := fun input _ _ _ h hready hread => f.diff_returns input.1 input.2 h hready hread

inductive SnapshotFn where
  | cpu
  | page
  | multi (f : DiffFn)
  deriving DecidableEq, Repr

def SnapshotFn.stat : SnapshotFn → SnapshotStat
  | .cpu =>
    { Item := CpuStats
      Input := StatFile
      get := sgGetCpuStats
      diff := sgGetCpuStatsDiff
      minus := itemMinus (CpuStats.minus .plain)
      Kept := HeldItem
      Reads := fun file => EasyReads CpuStats.info (sgGetCpuStatsInt file)
      Ready := fun _ _ _ _ => True
      kept_start := fun _ _ hstore => HeldItem.start hstore
      kept_get := fun _ _ _ _ _ _ _ h hrun => easyCompAccess_gets CpuStats.fits h hrun
      kept_diff := fun _ _ _ _ _ _ _ _ h hrun =>
        easyCompDiff_differs CpuStats.fits (fun _ _ _ _ => rfl) h hrun
      returns := fun _ _ _ _ h _ hread =>
        easyCompDiff_returns CpuStats.fits (fun _ _ _ _ => rfl) h hread }
  | .page =>
    { Item := PageStats
      Input := PageFile
      get := sgGetPageStats
      diff := sgGetPageStatsDiff
      minus := itemMinus PageStats.minus
      Kept := HeldItem
      Reads := fun file => EasyReads PageStats.info (sgGetPageStatsInt file)
      Ready := fun _ _ _ _ => True
      kept_start := fun _ _ hstore => HeldItem.start hstore
      kept_get := fun _ _ _ _ _ _ _ h hrun => easyCompAccess_gets PageStats.fits h hrun
      kept_diff := fun _ _ _ _ _ _ _ _ h hrun =>
        easyCompDiff_differs PageStats.fits (fun _ _ _ _ => rfl) h hrun
      returns := fun _ _ _ _ h _ hread =>
        easyCompDiff_returns PageStats.fits (fun _ _ _ _ => rfl) h hread }
  | .multi f => f.snapshotStat

/-! ### Sessions -/

inductive SnapshotCall (s : SnapshotStat) where
  | get (input : s.Input)
  | diff (input : s.Input)

def SnapshotCall.run {s : SnapshotStat} (now diff : Option Ptr) :
    SnapshotCall s → VecM s.Item (Access × Option Ptr × Option Ptr)
  | .get input => do
      let (result, now) ← s.get input now
      return (result, now, diff)
  | .diff input => s.diff input now diff

/-- A thread between two calls: what is cached, the last snapshot that was read, and whether a read
has failed after it. -/
structure Session (s : SnapshotStat) where
  world : World s.Item
  now : Option Ptr
  diff : Option Ptr
  last : Option (List s.Item)
  failed : Bool

namespace Session

variable {s : SnapshotStat}

def start (t : Thread) (next : Ptr) (raw : Ptr → Nat → s.Item) : Session s :=
  { world :=
      { toThread := t, store := fun _ => none, next := next, raw := raw, bounded := true
        inits := 0, destroys := 0, frees := fun _ => 0 }
    now := none, diff := none, last := none, failed := false }

def after (σ : Session s) (read : Option SgError) (now diff : Option Ptr) (w : World s.Item) :
    Session s :=
  match read with
  | none => { σ with world := w, now := now, diff := diff }
  | some .none =>
      { world := w, now := now, diff := diff, last := some (w.itemsAt now), failed := false }
  | some _ => { σ with world := w, now := now, diff := diff, failed := true }

def step (c : SnapshotCall s) : Prog Fault (Session s) Unit := fun σ =>
  match c.run σ.now σ.diff σ.world with
  | .error e => .error e
  | .ok ((result, now, diff), w) => .ok ((), σ.after result.read now diff w)

/-- The items a diff has to subtract: the last snapshot that was read, or nothing. -/
def baseline (σ : Session s) : List s.Item := σ.last.getD []

/-- A diff call whose read succeeds returns. It delivers the items it has read with the last snapshot that
was read before subtracted, or it ends with an error. -/
def Computed (σ : Session s) : SnapshotCall s → Prop
  | .get _ => True
  | .diff input => s.Reads input σ.world σ.now σ.diff →
      ∃ result now diff w, s.diff input σ.now σ.diff σ.world = .ok ((result, now, diff), w) ∧
        result.read = some .none ∧
        if result.ok then
          s.minus σ.baseline (w.itemsAt now) = some (w.itemsAt result.data) ∧
            result.entries = (w.itemsAt result.data).length
        else w.error ≠ .none

def Ready (σ : Session s) : SnapshotCall s → Prop
  | .get _ => σ.failed = false
  | .diff input => σ.failed = false ∧ s.Ready input σ.world σ.now σ.diff

/-- What is cached is the last snapshot that was read. -/
def Intact (σ : Session s) : Prop := σ.world.itemsAt σ.now = σ.baseline

/-- What every call keeps. -/
structure Inv (σ : Session s) : Prop where
  kept : s.Kept σ.world σ.now σ.diff
  intact : σ.failed = false → σ.Intact

theorem step_eq_ok {c : SnapshotCall s} {σ σ' : Session s} (h : step c σ = .ok ((), σ')) :
    ∃ result now diff w, c.run σ.now σ.diff σ.world = .ok ((result, now, diff), w) ∧
      σ' = σ.after result.read now diff w := by
  unfold step at h
  split at h
  · cases h
  · rename_i result now diff w hrun
    cases h
    exact ⟨result, now, diff, w, hrun, rfl⟩

/-- A call keeps what it has to, and without a read it leaves the cached items alone. -/
theorem run_kept {c : SnapshotCall s} {σ : Session s} (h : s.Kept σ.world σ.now σ.diff)
    {result : Access} {now diff : Option Ptr} {w : World s.Item}
    (hrun : c.run σ.now σ.diff σ.world = .ok ((result, now, diff), w)) :
    s.Kept w now diff ∧ (result.read = none → w.itemsAt now = σ.world.itemsAt σ.now) := by
  cases c with
  | get input =>
      rw [SnapshotCall.run] at hrun
      obtain ⟨⟨result', now'⟩, w', hget, hrest⟩ := Prog.bind_eq_ok.mp hrun
      cases hrest
      obtain ⟨hkept, hgets⟩ := s.kept_get input h hget
      exact ⟨hkept, hgets.unread⟩
  | diff input =>
      rw [SnapshotCall.run] at hrun
      obtain ⟨hkept, hdiffers⟩ := s.kept_diff input h hrun
      exact ⟨hkept, hdiffers.unread⟩

theorem Inv.start (t : Thread) (next : Ptr) (raw : Ptr → Nat → s.Item) :
    Inv (Session.start t next raw : Session s) :=
  ⟨s.kept_start _ rfl fun _ => rfl, fun _ => rfl⟩

theorem Inv.step {c : SnapshotCall s} {σ σ' : Session s} (h : σ.Inv)
    (hstep : step c σ = .ok ((), σ')) : σ'.Inv := by
  obtain ⟨result, now, diff, w, hrun, rfl⟩ := step_eq_ok hstep
  obtain ⟨hkept, hunread⟩ := run_kept h.kept hrun
  unfold after
  split
  · rename_i hread
    refine ⟨hkept, ?_⟩
    intro hfailed
    have hsame : w.itemsAt now = σ.world.itemsAt σ.now := hunread hread
    exact hsame.trans (h.intact hfailed)
  · exact ⟨hkept, fun _ => rfl⟩
  · refine ⟨hkept, ?_⟩
    intro hfailed
    cases hfailed

theorem Ready.intact {σ : Session s} {c : SnapshotCall s} (hready : σ.Ready c) (h : σ.Inv) : σ.Intact := by
  cases c with
  | get input => exact h.intact hready
  | diff input => exact h.intact hready.1

theorem Inv.computed {σ : Session s} {c : SnapshotCall s} (h : σ.Inv) (hready : σ.Ready c) :
    σ.Computed c := by
  have hintact := hready.intact h
  cases c with
  | get input => trivial
  | diff input =>
      intro hreads
      obtain ⟨result, now, diff, w, hrun, hread, herr⟩ := s.returns input h.kept hready.2 hreads
      refine ⟨result, now, diff, w, hrun, hread, ?_⟩
      cases hok : result.ok with
      | true =>
          obtain ⟨-, hdiffers⟩ := s.kept_diff input h.kept hrun
          rw [if_pos rfl, ← show σ.world.itemsAt σ.now = σ.baseline from hintact]
          exact hdiffers.delivers hok
      | false =>
          rw [if_neg Bool.false_ne_true]
          exact herr hok

end Session

/-- In every run of getter and diff calls, wherever no read has failed after the last one that
succeeded, the cached items are the last snapshot that was read, and a diff that is ready for what it reads
subtracts that snapshot. -/
theorem SnapshotFn.baseline_intact (f : SnapshotFn) (t : Thread) (next : Ptr)
    (raw : Ptr → Nat → f.stat.Item) (calls : List (SnapshotCall f.stat)) :
    Prog.Always Session.step (fun σ c => (σ.failed = false → σ.Intact) ∧ (σ.Ready c → σ.Computed c))
      (Session.start t next raw) calls := by
  have hinv : Session.Inv (Session.start t next raw : Session f.stat) := Session.Inv.start t next raw
  refine Prog.Always.imp ?_ ?_ hinv (Prog.always_true calls _)
  · intro σ c hσ _
    exact ⟨hσ.intact, hσ.computed⟩
  · intro σ c σ' hσ _ hstep
    exact hσ.step hstep

/-- `/proc/stat` with one `cpu` line, all of whose numbers are `n`. -/
def busy (n : UInt64) : StatFile := ⟨.ok [.cpu [n, n, n, n, n]], 0⟩

/-- `/proc/stat` that cannot be opened. -/
def noStat : StatFile := ⟨.error 2, 0⟩

/-- After a getter that could not open `/proc/stat` the diff delivers the counters since boot. -/
theorem failed_read_moves_baseline :
    ¬ Prog.Always Session.step Session.Computed
      (Session.start ⟨.clear, fun _ => true⟩ 0 fun _ _ => CpuStats.zero : Session SnapshotFn.cpu.stat)
      [.get (busy 7), .get noStat, .diff (busy 9)] := by
  rw [Prog.always_cons_of_ok rfl, Prog.always_cons_of_ok rfl]
  rintro ⟨-, -, hdiff, -⟩
  obtain ⟨result, now, diff, w, hrun, -, hcomputed⟩ := hdiff ⟨_, _, _, _, _, rfl, rfl, rfl⟩
  cases hrun
  obtain ⟨hminus, -⟩ := hcomputed
  have huser := congrArg (Option.map (List.map CpuStats.user)) hminus
  revert huser
  decide

end Statgrab
