import Statgrab.Access.Reader

/-!
# Getters and diffs of statistics with many items

`Cache` is what a thread keeps of one statistic between two calls. The lemmas follow a call through
the parts of the macros: the target of the difference, the copy of the last snapshot, the read, and
the subtraction. Allocations outside the read succeed here; inside it anything may happen, as long as
the `fn_int` meets its contract `Reads`.
-/

namespace Statgrab

variable {α : Type}

/-- The contract of an `fn_int`: from an empty vector it returns, and leaves the variable in order,
unless it is starved of memory. -/
def Reads (info : VectorInitInfo α) (fnInt : FillFn α) : Prop :=
  ∀ w p, w.Tidy → w.Holds info (some p) [] →
    (∃ rc x items w', fnInt (some p) w = .ok ((rc, x), w') ∧ w.Refill w' info (some p) x items) ∨
    Starved (fnInt (some p)) w

/-- What a thread keeps of a statistic between two calls. -/
structure Cache (info : VectorInitInfo α) (w : World α) (now diff : Option Ptr) : Prop where
  sound : w.Sound
  holds : ∃ items, w.Holds info now items
  live : ∀ d, diff = some d → ∃ v, w.store d = some v ∧ v.Cached info
  apart : ∀ p, now = some p → diff ≠ some p

section

variable {info : VectorInitInfo α} {fnInt : FillFn α} {w : World α}

theorem World.Sound.step_sound {w w' : World α} {x : Option Ptr} (h : w.Sound) (hstep : w.Step w' x)
    (hplenty : w.Plenty → w'.Plenty) : w'.Sound := hstep.tidy.sound (hplenty h.plenty)

/-! ### The getter -/

theorem vectorCreate_cases (hinfo : info.Regular) {blockSize : Nat} (hsize : blockSize ≤ itemLimit) :
    (∃ w' v, vectorCreate info blockSize w = .ok (some w.next, w') ∧
      w.Handover w' none (some w.next) ∧ w'.store w.next = some v ∧ v.Cached info ∧
      v.usedCount = 0 ∧ (v.slots = 0 ↔ blockSize = 0) ∧ (w.Plenty → w'.Plenty)) ∨
    (∃ w', vectorCreate info blockSize w = .ok (none, w') ∧ w.Failed w' none .malloc) := by
  obtain ⟨shift, hshift, hle⟩ := blockShiftOf_isSome hsize
  have hfit : Fits (max blockSize 0) shift info := hinfo.fits (by omega) hle
  rw [vectorCreate, sgVectorCreate, hshift]
  cases hmem : w.mem 0 with
  | false => exact .inr (sgVectorCreateInt_failed hfit hmem)
  | true =>
      obtain ⟨w', v, hrun, hand, hv, hfor, -, hplenty⟩ := sgVectorCreateInt_created hfit hmem
      refine .inl ⟨w', v, hrun, hand, hv, ?_, hfor.usedCount, ?_, hplenty⟩
      · apply hfor.cached (le_max_right _ _) hinfo hle (Nat.zero_le _)
        intro hzero
        have hsize0 : blockSize = 0 := by omega
        rw [hsize0, show blockShiftOf 0 = some 0 by decide] at hshift
        exact (Option.some.inj hshift).symm
      · rw [hfor.slots, Nat.max_eq_left (Nat.zero_le _)]
        constructor
        · intro hzero
          have := le_roundUp blockSize shift
          omega
        · intro hzero
          rw [hzero, roundUp_zero]

/-- The getter hands its `fn_int` an empty vector, unless it is refused one. -/
theorem multiTarget_cases (hinfo : info.Regular) (hw : w.Tidy) {now : Option Ptr}
    (hnow : ∃ items, w.Holds info now items) :
    (∃ p w', multiTarget info now w = .ok (some p, w') ∧ w.Step w' now ∧
      (now = some p ∨ w.next ≤ p) ∧ w'.Holds info (some p) [] ∧ (w.Plenty → w'.Plenty)) ∨
    (now = none ∧ ∃ w', multiTarget info now w = .ok (none, w') ∧ w.Failed w' none .malloc) := by
  cases now with
  | none =>
      rcases vectorCreate_cases (w := w) hinfo (show 16 ≤ itemLimit by decide) with
        ⟨w', v, hrun, hand, hv, hcached, hused, hslots, hplenty⟩ | ⟨w', hrun, hfail⟩
      · refine .inl ⟨w.next, w', hrun, hand.created_step hw hv hcached.backed, .inr le_rfl,
          ⟨v, hv, hcached, ?_, ?_⟩, hplenty⟩
        · rw [Ne, hslots]
          decide
        · rw [← List.length_eq_zero_iff, items_length, hused]
      · exact .inr ⟨rfl, w', hrun, hfail⟩
  | some p =>
      obtain ⟨items, v, hv, hcached, hslots, -⟩ := hnow
      have hand : w.Handover (w.shrink p v 0) (some p) (some p) :=
        (World.Handover.own (hw.fresh.lt hv)).shrink v 0
      refine .inl ⟨p, w.shrink p v 0, ?_, ?_, .inl rfl,
        ⟨v.destroyUnused 0, Function.update_self _ _ _, hcached.destroyUnused 0, ?_, ?_⟩, id⟩
      · rw [multiTarget, Prog.bind_of_ok (sgVectorClear_run hv (hw.inBlock hv))]
        rfl
      · apply hand.step hw
        intro q u hq hu
        cases hq
        rw [shrink_store, Function.update_self] at hu
        cases hu
        exact (hcached.destroyUnused 0).backed
      · simpa using hslots
      · rw [← List.length_eq_zero_iff, items_length, destroyUnused_usedCount, Nat.min_zero]

theorem multiTarget_run (hinfo : info.Regular) (hw : w.Sound) {now : Option Ptr}
    (hnow : ∃ items, w.Holds info now items) :
    ∃ p w', multiTarget info now w = .ok (some p, w') ∧ w.Step w' now ∧
      (now = some p ∨ w.next ≤ p) ∧ w'.Holds info (some p) [] ∧ w'.Sound := by
  rcases multiTarget_cases hinfo hw.tidy hnow with
    ⟨p, w', hrun, hstep, hkept, hholds, hplenty⟩ | ⟨-, w', -, hfail⟩
  · exact ⟨p, w', hrun, hstep, hkept, hholds, hw.step_sound hstep hplenty⟩
  · exact (hw.notFailed hfail).elim

theorem succeed_some {p : Ptr} {v : SgVector α} (hv : w.store p = some v) (read : Option SgError) :
    succeed (some p) read w = .ok (⟨some p, v.usedCount, true, read⟩, w.cleared) := by
  have hv' : w.cleared.store p = some v := hv
  rw [succeed, Prog.bind_of_ok (onThread_sgClearError w), vectorItemCount]
  simp only [Prog.bind_run, deref_run hv', Prog.pure_run]

theorem succeed_run {x : Option Ptr} {items : List α} (hx : w.Holds info x items)
    (read : Option SgError) :
    succeed x read w = .ok (⟨x, items.length, true, read⟩, w.cleared) := by
  cases x with
  | none =>
      have hnil : items = [] := hx
      rw [hnil]
      rfl
  | some p =>
      obtain ⟨v, hv, -, -, rfl⟩ := hx
      rw [succeed_some hv, items_length]

theorem succeed_error {x : Option Ptr} {read : Option SgError} {result : Access} {w' : World α}
    (hrun : succeed x read w = .ok (result, w')) : w'.error = .none := by
  rw [succeed, Prog.bind_of_ok (onThread_sgClearError w)] at hrun
  obtain ⟨n, w1, hcount, hrun⟩ := Prog.bind_eq_ok.mp hrun
  cases hrun
  cases x with
  | none =>
      cases hcount
      rfl
  | some p =>
      rw [vectorItemCount] at hcount
      obtain ⟨v, w2, hderef, hcount⟩ := Prog.bind_eq_ok.mp hcount
      cases hcount
      obtain ⟨-, rfl⟩ := deref_eq_ok hderef
      rfl

def gotten (rc : SgError) (x : Option Ptr) (items : List α) : Access :=
  if rc = .none then ⟨x, items.length, true, some rc⟩ else .failed (some rc)

@[simp] theorem gotten_read (rc : SgError) (x : Option Ptr) (items : List α) :
    (gotten rc x items).read = some rc := by
  unfold gotten
  split <;> rfl

theorem multiCompAccess_of_read {now x : Option Ptr} {p : Ptr} {w1 w2 : World α} {rc : SgError}
    {items : List α} (htarget : multiTarget info now w = .ok (some p, w1))
    (hread : fnInt (some p) w1 = .ok ((rc, x), w2)) (hholds : w2.Holds info x items) :
    multiCompAccess info fnInt now w
      = .ok ((gotten rc x items, x), if rc = .none then w2.cleared else w2) := by
  rw [multiCompAccess, Prog.bind_of_ok htarget]
  simp only
  rw [Prog.bind_of_ok hread]
  by_cases hrc : rc = .none
  · simp only [if_pos hrc, gotten]
    rw [Prog.bind_of_ok (succeed_run hholds _)]
    rfl
  · simp only [if_neg hrc, gotten]
    rfl

def multiRead (info : VectorInitInfo α) (fnInt : FillFn α) (now : Option Ptr) :
    VecM α (SgError × Option Ptr) := do
  let target ← multiTarget info now
  match target with
  | none =>
      let rc ← onThread sgGetError
      return (rc, none)
  | some p => fnInt (some p)

/-- The getter is its read, and on success the error is cleared. -/
theorem multiCompAccess_run (hinfo : info.Regular) (hreads : Reads info fnInt) (hw : w.Sound)
    {now : Option Ptr} (hnow : ∃ items, w.Holds info now items) :
    ∃ rc x items w', multiRead info fnInt now w = .ok ((rc, x), w') ∧
      multiCompAccess info fnInt now w
        = .ok ((gotten rc x items, x), if rc = .none then w'.cleared else w') ∧
      w.Refill w' info now x items ∧ w'.Sound := by
  obtain ⟨p, w1, hrun1, hstep, hkept, hholds, hsound⟩ := multiTarget_run hinfo hw hnow
  obtain ⟨rc, x, items, w', hrun, hrefill⟩ :=
    (hreads w1 p hsound.tidy hholds).resolve_right fun h => h.2 hsound.plenty
  have hpre : w.Refill w1 info now (some p) [] := by
    refine ⟨hstep, ?_, hholds, fun _ => hsound.plenty⟩
    intro q hq
    cases hq
    exact hkept
  refine ⟨rc, x, items, w', ?_, multiCompAccess_of_read hrun1 hrun hrefill.holds,
    hpre.trans hrefill, hrefill.step.tidy.sound (hrefill.plenty hsound.plenty)⟩
  rw [multiRead, Prog.bind_of_ok hrun1]
  exact hrun

/-! ### The diff -/

/-- The state in which a diff reads again: the cached snapshot `v` at `n`, the target `vd` at `d`, and
a copy `vl` of the snapshot at `l`. -/
structure Prepared (info : VectorInitInfo α) (w : World α) (n d l : Ptr) (v vd vl : SgVector α) :
    Prop where
  sound : w.Sound
  now : w.store n = some v
  nowCached : v.Cached info
  nowRoom : v.slots ≠ 0
  diff : w.store d = some vd
  diffCached : vd.Cached info
  last : w.store l = some vl
  lastCached : vl.info = info
  lastItems : vl.items = v.items
  nowDiff : n ≠ d
  nowLast : n ≠ l
  lastDiff : l ≠ d

/-- The target of the difference was there, or is new and empty. -/
def TargetFor (w : World α) (diff : Option Ptr) (v : SgVector α) (d : Ptr) (vd : SgVector α) : Prop :=
  match diff with
  | some d' => d = d' ∧ w.store d = some vd
  | none => vd.usedCount = 0 ∧ (vd.slots = 0 ↔ v.usedCount = 0)

theorem diffTarget_run (hinfo : info.Regular) {n : Ptr} {diff : Option Ptr}
    (hc : Cache info w (some n) diff) {v : SgVector α} (hv : w.store n = some v)
    (hcached : v.Cached info) :
    ∃ d w1 vd, diffTarget info n diff w = .ok (some d, w1) ∧ w1.Sound ∧ w1.store n = some v ∧
      w1.store d = some vd ∧ vd.Cached info ∧ n ≠ d ∧ TargetFor w diff v d vd := by
  cases diff with
  | some d =>
      obtain ⟨vd, hd, hdc⟩ := hc.live d rfl
      refine ⟨d, w, vd, rfl, hc.sound, hv, hd, hdc, ?_, rfl, hd⟩
      intro hnd
      exact hc.apart n rfl (by rw [hnd])
  | none =>
      rw [diffTarget, Prog.bind_of_ok (deref_run hv)]
      rcases vectorCreate_cases (w := w) hinfo hcached.used with
        ⟨w1, vd, hrun, hand, hd, hdc, hused, hslots, hplenty⟩ | ⟨w1, -, hfail⟩
      · have hstep := hand.created_step hc.sound.tidy hd hdc.backed
        exact ⟨w.next, w1, vd, hrun, hc.sound.step_sound hstep hplenty,
          hand.live hc.sound.fresh hv (by simp), hd, hdc, ne_of_lt (hc.sound.fresh.lt hv), hused,
          hslots⟩
      · exact (hc.sound.notFailed hfail).elim

/-- The read of a diff call, after what the macro does before it. -/
def diffRead (info : VectorInitInfo α) (fnInt : FillFn α) (now diff : Option Ptr) :
    VecM α (SgError × Option Ptr) :=
  match now with
  | none => multiRead info fnInt none
  | some n => do
      let diff ← diffTarget info n diff
      match diff with
      | none =>
          let rc ← onThread sgGetError
          return (rc, some n)
      | some _ =>
          let last ← sgVectorClone (some n)
          match last with
          | none =>
              let rc ← onThread sgGetError
              return (rc, some n)
          | some _ => multiRead info fnInt (some n)

/-- Up to the read the call prepares, and nothing can go wrong. -/
theorem multiCompDiff_prepare (hinfo : info.Regular) (fnInt : FillFn α) {n : Ptr}
    {diff : Option Ptr} (hc : Cache info w (some n) diff) :
    ∃ d l w2 v vd vl, multiCompDiff info fnInt (some n) diff w = diffAgainst info fnInt n d l w2 ∧
      diffRead info fnInt (some n) diff w = multiRead info fnInt (some n) w2 ∧
      Prepared info w2 n d l v vd vl ∧ w.store n = some v ∧ TargetFor w diff v d vd := by
  obtain ⟨items, v, hv, hcached, hslots, -⟩ := hc.holds
  obtain ⟨d, w1, vd, hrun1, hsound, hv1, hd1, hdc, hnd, htarget⟩ :=
    diffTarget_run hinfo hc hv hcached
  rcases sgVectorClone_run hsound.fresh hv1 hcached.backed.full.copies (hsound.inBlock hv1)
      (hcached.fits_clone hinfo) with
    ⟨l, w2, u, hrun2, hcopy, hfor⟩ | ⟨rc, w2, -, hfail⟩
  · have hlnew : w1.next ≤ l := by
      rcases (hcopy.handover.kept l rfl).2 with hold | hnew
      · cases hold
      · exact hnew
    refine ⟨d, l, w2, v, vd, u.copied v 0 v.usedCount, ?_, ?_, ⟨?_, ?_, hcached, hslots, ?_, hdc,
      hcopy.store, ?_, ?_, hnd, ?_, ?_⟩, hv, htarget⟩
    · rw [multiCompDiff, Prog.bind_of_ok hrun1]
      simp only
      rw [Prog.bind_of_ok hrun2]
    · rw [diffRead, Prog.bind_of_ok hrun1]
      simp only
      rw [Prog.bind_of_ok hrun2]
    · exact hsound.copyOf hcopy (hfor.backed (le_max_right _ _) hcached.backed.full)
    · exact hcopy.handover.live hsound.fresh hv1 (by simp)
    · exact hcopy.handover.live hsound.fresh hd1 (by simp)
    · rw [copied_info, hfor.info, hcached.info]
    · exact copied_items hfor.usedCount
    · exact ne_of_lt (lt_of_lt_of_le (hsound.fresh.lt hv1) hlnew)
    · exact (ne_of_lt (lt_of_lt_of_le (hsound.fresh.lt hd1) hlnew)).symm
  · exact (hsound.notFailed hfail).elim

/-- The state in which a diff subtracts: `now` was read again, the other two are as they were. -/
structure Reread (info : VectorInitInfo α) (w : World α) (d l : Ptr) (vd vl : SgVector α)
    (x : Option Ptr) (items : List α) : Prop where
  sound : w.Sound
  holds : w.Holds info x items
  diff : w.store d = some vd
  last : w.store l = some vl
  nowDiff : x ≠ some d
  nowLast : x ≠ some l

theorem Reread.cleared {w : World α} {d l : Ptr} {vd vl : SgVector α} {x : Option Ptr}
    {items : List α} (h : Reread info w d l vd vl x items) :
    Reread info w.cleared d l vd vl x items := by
  refine ⟨⟨h.sound.fresh, h.sound.plenty, h.sound.bounded, h.sound.backed⟩, ?_, h.diff, h.last,
    h.nowDiff, h.nowLast⟩
  cases x with
  | none => exact h.holds
  | some q => exact h.holds

theorem diffAgainst_read (hinfo : info.Regular) (hreads : Reads info fnInt) {n d l : Ptr}
    {v vd vl : SgVector α} (hp : Prepared info w n d l v vd vl) :
    ∃ rc x items w', multiRead info fnInt (some n) w = .ok ((rc, x), w') ∧
      diffAgainst info fnInt n d l w
        = diffFinish d l (some rc) x (if rc = .none then w'.cleared else w') ∧
      Reread info w' d l vd vl x items ∧
      Reread info (if rc = .none then w'.cleared else w') d l vd vl x items := by
  have hnow : ∃ items, w.Holds info (some n) items :=
    ⟨v.items, v, hp.now, hp.nowCached, hp.nowRoom, rfl⟩
  obtain ⟨rc, x, items, w', hread, hrun, hrefill, hsound⟩ :=
    multiCompAccess_run hinfo hreads hp.sound hnow
  have hreread : Reread info w' d l vd vl x items := by
    refine ⟨hsound, hrefill.holds, ?_, ?_, ?_, ?_⟩
    · exact hrefill.step.live hp.sound.tidy hp.diff fun h => hp.nowDiff (Option.some.inj h)
    · exact hrefill.step.live hp.sound.tidy hp.last fun h => hp.nowLast (Option.some.inj h)
    · intro hx
      rcases hrefill.kept d hx with hold | hnew
      · exact hp.nowDiff (Option.some.inj hold)
      · exact absurd (hp.sound.fresh.lt hp.diff) (not_lt.mpr hnew)
    · intro hx
      rcases hrefill.kept l hx with hold | hnew
      · exact hp.nowLast (Option.some.inj hold)
      · exact absurd (hp.sound.fresh.lt hp.last) (not_lt.mpr hnew)
  refine ⟨rc, x, items, w', hread, ?_, hreread, ?_⟩
  · rw [diffAgainst, Prog.bind_of_ok hrun]
    simp only [gotten_read]
  · by_cases hrc : rc = .none
    · rw [if_pos hrc]
      exact hreread.cleared
    · rw [if_neg hrc]
      exact hreread

theorem diffFinish_null (hw : w.Tidy) {d l : Ptr} {vd vl : SgVector α} (hd : w.store d = some vd)
    (hl : w.store l = some vl) (hne : l ≠ d) (read : Option SgError) :
    ∃ w', diffFinish d l read none w = .ok ((.failed read, none, none), w') ∧
      w'.error = .invalidArgument ∧ w'.Tidy ∧ (w.Plenty → w'.Plenty) := by
  obtain ⟨w1, hrun, hand, herr, hmem⟩ :=
    sgVectorComputeDiff_null hw.fresh hd (hw.inBlock hd) (some l)
  have hstep : w.Step w1 (some d) := by
    apply hand.step hw
    intro p u hp
    cases hp
  have hl1 : w1.store l = some vl :=
    hstep.live hw hl fun hcon => hne (Option.some.inj hcon).symm
  obtain ⟨w2, hfree, hstep2, hthread⟩ := hstep.tidy.freeVector hl1
  refine ⟨w2, ?_, ?_, hstep2.tidy, ?_⟩
  · rw [diffFinish, Prog.bind_of_ok hrun]
    simp only
    rw [Prog.bind_of_ok hfree, if_neg (by decide)]
    rfl
  · rw [hthread, herr]
  · intro hplenty n
    rw [hthread, hmem]
    exact hplenty n

theorem SgVector.SizedFor.cached {d v : SgVector α} {n : Nat} (h : d.SizedFor v n)
    (hd : d.Cached info) (hle : n ≤ itemLimit) (hbad : ¬ d.Unbacked n) : v.Cached info := by
  rcases h with ⟨rfl, -⟩ | ⟨-, hn, hres⟩
  · exact hd
  · exact hres.cached hd hn hle hbad

theorem SgVector.SizedFor.slots_eq_zero {d v : SgVector α} {n : Nat} (h : d.SizedFor v n)
    (hd : d.Backed) (hv : v.Backed) : v.slots = 0 ↔ d.slots = 0 ∧ n = 0 := by
  have hused := h.usedCount
  have hroom := hv.within
  rcases h with ⟨rfl, -⟩ | ⟨-, hn, -⟩
  · constructor
    · intro hzero
      exact ⟨hzero, by omega⟩
    · exact fun hzero => hzero.1
  · constructor
    · intro hzero
      omega
    · exact fun hzero => absurd hzero.2 hn

theorem SgVector.Cached.copied {v : SgVector α} (h : v.Cached info) (s : SgVector α) (i n : Nat) :
    (v.copied s i n).Cached info :=
  ⟨⟨h.backed.within, h.backed.record, h.backed.full⟩, h.info, h.shift, h.used, h.alloc, h.hollow⟩

theorem SgVector.Cached.filled {v : SgVector α} (h : v.Cached info) (items : List α) :
    (v.filled 0 items).Cached info := by
  refine ⟨⟨?_, ?_, ?_⟩, ?_, ?_, ?_, ?_, ?_⟩
  · simpa using h.backed.within
  · simpa using h.backed.record
  · simpa using h.backed.full
  · simpa using h.info
  · simpa using h.shift
  · simpa using h.used
  · simpa using h.alloc
  · simpa using h.hollow

/-- With a snapshot and a target that has room, the difference is delivered. -/
theorem diffFinish_run (hinfo : info.Regular) {c d l : Ptr} {vd vl : SgVector α} {items out : List α}
    {compare : α → α → Option Bool} {computeDiff : α → α → α}
    (hcompare : info.compareFn = some compare) (hdiff : info.computeDiffFn = some computeDiff)
    (h : Reread info w d l vd vl (some c) items) (hne : l ≠ d) (hdc : vd.Cached info)
    (hlinfo : vl.info = info) (hkeep : items = [] → vd.usedCount = 0)
    (hroom : ¬ vd.Unbacked items.length)
    (hout : subtract compare computeDiff vl.items items = some out) (read : Option SgError) :
    ∃ q w' vq, diffFinish d l read (some c) w
        = .ok ((⟨some q, out.length, true, read⟩, some c, some q), w') ∧
      Cache info w' (some c) (some q) ∧ w'.error = .none ∧ w'.Holds info (some c) items ∧
      w'.store q = some vq ∧ vq.items = out ∧ (vq.slots = 0 ↔ vd.slots = 0 ∧ items = []) := by
  obtain ⟨vc, hc, hcc, hcs, rfl⟩ := h.holds
  rw [items_length] at hroom
  have hfit := hdc.fits hinfo hcc
  have hsafe : w.ResizeSafe vd vc.usedCount := by
    rcases h.sound.resizeSafe_cases h.diff vc.usedCount with hsafe | ⟨hc0, hd0⟩ | hbad
    · exact hsafe
    · exact absurd (hkeep (by rw [← List.length_eq_zero_iff, items_length, hc0])) hd0
    · exact absurd hbad hroom
  obtain ⟨q, w1, u, hrun, hand, hsized, hq, hglob, hplenty⟩ :=
    sgVectorComputeDiff_run h.sound hc h.diff h.last hne (hlinfo ▸ hcompare) (hlinfo ▸ hdiff) hfit
      hsafe hout
  have hcached : ((u.copied vc 0 vc.usedCount).filled 0 out).Cached info :=
    ((hsized.cached hdc hcc.used hroom).copied vc 0 vc.usedCount).filled out
  have hsound1 : w1.Sound := by
    apply h.sound.handover hand hplenty
    intro p v hp hv
    cases hp
    rw [hq] at hv
    cases hv
    exact hcached.backed
  have hnd : c ≠ d := fun hcd => h.nowDiff (by rw [hcd])
  have hnl : c ≠ l := fun hcl => h.nowLast (by rw [hcl])
  have hl1 := hand.live h.sound.fresh h.last fun hcon => hne (Option.some.inj hcon).symm
  have hc1 := hand.live h.sound.fresh hc fun hcon => hnd (Option.some.inj hcon).symm
  have hqc : q ≠ c := fun hcon => hand.avoids (h.sound.fresh.lt hc)
    (fun hold => hnd (Option.some.inj hold).symm) (congrArg some hcon)
  have hql : q ≠ l := fun hcon => hand.avoids (h.sound.fresh.lt h.last)
    (fun hold => hne (Option.some.inj hold).symm) (congrArg some hcon)
  obtain ⟨w2, hfree, hstep2, hthread⟩ := hsound1.tidy.freeVector hl1
  have hsound2 : w2.Sound := by
    apply hsound1.step_sound hstep2
    intro hplenty n
    rw [hthread]
    exact hplenty n
  have hq2 : w2.store q = some ((u.copied vc 0 vc.usedCount).filled 0 out) :=
    hstep2.live hsound1.tidy hq fun hcon => hql (Option.some.inj hcon).symm
  have hc2 : w2.store c = some vc :=
    hstep2.live hsound1.tidy hc1 fun hcon => hnl (Option.some.inj hcon).symm
  have hused : ((u.copied vc 0 vc.usedCount).filled 0 out).usedCount = out.length := by
    rw [filled_usedCount, copied_usedCount, hsized.usedCount, subtract_length hout, items_length]
  refine ⟨q, w2.cleared, _, ?_, ⟨⟨hsound2.fresh, hsound2.plenty, hsound2.bounded, hsound2.backed⟩,
    ⟨vc.items, vc, hc2, hcc, hcs, rfl⟩, ?_, ?_⟩, rfl, ⟨vc, hc2, hcc, hcs, rfl⟩, hq2, ?_, ?_⟩
  · rw [diffFinish, Prog.bind_of_ok hrun]
    simp only
    rw [Prog.bind_of_ok hfree, if_pos trivial, Prog.bind_of_ok (succeed_some hq2 read), hused]
    rfl
  · intro p hp
    cases hp
    exact ⟨_, hq2, hcached⟩
  · intro p hp hcon
    cases hp
    exact hqc (Option.some.inj hcon)
  · apply filled_items
    rw [← hused, filled_usedCount]
  · rw [filled_slots, copied_slots, hsized.slots_eq_zero hdc.backed
      (hsized.cached hdc hcc.used hroom).backed, ← List.length_eq_zero_iff, items_length]

end

end Statgrab
