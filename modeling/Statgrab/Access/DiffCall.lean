import Statgrab.Access.Multi

/-!
# One call of a diff

`multiCompDiff` with a cached snapshot, in one piece. `DiffCall` names what the call works with once
it has read: the snapshot it started from, the target of the difference and what the read left. The
outcome is then decided by three things: whether the read left a vector at all, whether the target can
take the items, and whether every comparison has an answer.
-/

namespace Statgrab

variable {α : Type}

section

variable {info : VectorInitInfo α} {fnInt : FillFn α} {w : World α}

theorem World.Holds.unique {x : Option Ptr} {items items' : List α} (h : w.Holds info x items)
    (h' : w.Holds info x items') : items = items' := by
  cases x with
  | none => rw [show items = [] from h, show items' = [] from h']
  | some p =>
      obtain ⟨v, hv, -, -, rfl⟩ := h
      obtain ⟨v', hv', -, -, rfl⟩ := h'
      rw [hv] at hv'
      cases hv'
      rfl

theorem World.Holds.cleared {x : Option Ptr} {items : List α} (h : w.Holds info x items) :
    w.cleared.Holds info x items := by
  cases x with
  | none => exact h
  | some p => exact h

theorem World.Sound.cleared (h : w.Sound) : w.cleared.Sound :=
  ⟨h.fresh, h.plenty, h.bounded, h.backed⟩

theorem Cache.diff_live {now diff x : Option Ptr} {items : List α} {w' : World α}
    (h : Cache info w now diff) (hrefill : w.Refill w' info now x items) {d : Ptr} {v : SgVector α}
    (hdiff : diff = some d) (hv : w.store d = some v) : w'.store d = some v := by
  apply hrefill.step.live h.sound.tidy hv
  intro hnow
  exact h.apart d hnow hdiff

theorem Cache.refilled {now diff x : Option Ptr} {items : List α} {w' : World α}
    (h : Cache info w now diff) (hrefill : w.Refill w' info now x items) (hsound : w'.Sound) :
    Cache info w' x diff := by
  refine ⟨hsound, ⟨items, hrefill.holds⟩, ?_, ?_⟩
  · intro d hd
    obtain ⟨v, hv, hcached⟩ := h.live d hd
    exact ⟨v, h.diff_live hrefill hd hv, hcached⟩
  · intro p hp hd
    rcases hrefill.kept p hp with hold | hnew
    · exact h.apart p hold hd
    · obtain ⟨v, hv, -⟩ := h.live p hd
      exact absurd (h.sound.fresh.lt hv) (not_lt.mpr hnew)

theorem Cache.cleared {now diff : Option Ptr} (h : Cache info w now diff) :
    Cache info w.cleared now diff := by
  obtain ⟨items, hitems⟩ := h.holds
  exact ⟨h.sound.cleared, ⟨items, hitems.cleared⟩, h.live, h.apart⟩

/-- A diff call from the cached snapshot `v` at `n`, whose read returned `rc`, left `x` with `items`,
and the world at `w1`. -/
structure DiffCall (info : VectorInitInfo α) (fnInt : FillFn α) (w : World α) (n : Ptr)
    (diff : Option Ptr) (rc : SgError) (x : Option Ptr) (items : List α) (w1 : World α) (d l : Ptr)
    (v vd vl : SgVector α) : Prop where
  read : diffRead info fnInt (some n) diff w = .ok ((rc, x), w1)
  again : ∃ w2, w2.Sound ∧ w2.Holds info (some n) v.items ∧
    multiRead info fnInt (some n) w2 = .ok ((rc, x), w1)
  run : multiCompDiff info fnInt (some n) diff w
    = diffFinish d l (some rc) x (if rc = .none then w1.cleared else w1)
  reread : Reread info (if rc = .none then w1.cleared else w1) d l vd vl x items
  holds : w1.Holds info x items
  now : w.store n = some v
  target : TargetFor w diff v d vd
  targetCached : vd.Cached info
  lastInfo : vl.info = info
  lastItems : vl.items = v.items
  lastTarget : l ≠ d

/-- Every diff call with a cached snapshot comes to this point. -/
theorem multiCompDiff_call (hinfo : info.Regular) (hreads : Reads info fnInt) {n : Ptr}
    {diff : Option Ptr} (hc : Cache info w (some n) diff) :
    ∃ rc x items w1 d l v vd vl, DiffCall info fnInt w n diff rc x items w1 d l v vd vl := by
  obtain ⟨d, l, w2, v, vd, vl, hrun, hread, hp, hv, htarget⟩ :=
    multiCompDiff_prepare hinfo fnInt hc
  obtain ⟨rc, x, items, w1, hread1, hrun1, hreread, hreread1⟩ := diffAgainst_read hinfo hreads hp
  exact ⟨rc, x, items, w1, d, l, v, vd, vl, hread.trans hread1,
    ⟨w2, hp.sound, ⟨v, hp.now, hp.nowCached, hp.nowRoom, rfl⟩, hread1⟩, hrun.trans hrun1, hreread1,
    hreread.holds, hv, htarget, hp.diffCached, hp.lastCached, hp.lastItems, hp.lastDiff⟩

theorem diffFinish_fault (hinfo : info.Regular) {c d l : Ptr} {vd vl : SgVector α} {items : List α}
    (keyed : info.Keyed) (h : Reread info w d l vd vl (some c) items) (hne : l ≠ d)
    (hdc : vd.Cached info) (hlinfo : vl.info = info)
    (hbad : (items = [] ∧ vd.usedCount ≠ 0) ∨ vd.Unbacked items.length) (read : Option SgError) :
    ∃ e, diffFinish d l read (some c) w = .error e := by
  obtain ⟨vc, hc, hcc, hcs, rfl⟩ := h.holds
  rw [items_length] at hbad
  rcases hbad with ⟨hnil, hused⟩ | hbad
  · have hzero : vc.usedCount = 0 := by
      rw [← items_length, hnil]
      rfl
    have hcompare : vl.info.compareFn = some keyed.compare := by rw [hlinfo, keyed.compareFn]
    have hdiff : vl.info.computeDiffFn = some keyed.computeDiff := by
      rw [hlinfo, keyed.computeDiffFn]
    exact ⟨_, Prog.bind_of_error (sgVectorComputeDiff_released h.sound hc h.diff h.last hne hcompare
      hdiff hzero hused) _⟩
  · exact ⟨_, Prog.bind_of_error
      (sgVectorComputeDiff_outOfBlock h.sound hc h.diff (hdc.fits hinfo hcc) hbad _) _⟩

namespace DiffCall

variable {n d l : Ptr} {diff : Option Ptr} {rc : SgError} {x : Option Ptr} {items : List α}
  {w1 : World α} {v vd vl : SgVector α}

theorem null (h : DiffCall info fnInt w n diff rc none items w1 d l v vd vl) :
    ∃ w', multiCompDiff info fnInt (some n) diff w = .ok ((.failed (some rc), none, none), w') ∧
      w'.error = .invalidArgument ∧ w'.Sound := by
  have hnil : items = [] := h.holds
  subst hnil
  obtain ⟨w', hrun, herr, htidy, hplenty⟩ :=
    diffFinish_null h.reread.sound.tidy h.reread.diff h.reread.last h.lastTarget (some rc)
  exact ⟨w', h.run.trans hrun, herr, htidy.sound (hplenty h.reread.sound.plenty)⟩

/-- A target that can take the items receives the difference. -/
theorem delivers (hinfo : info.Regular) (keyed : info.Keyed) {c : Ptr}
    (h : DiffCall info fnInt w n diff rc (some c) items w1 d l v vd vl)
    (hkeep : items = [] → vd.usedCount = 0) (hroom : ¬ (vd.slots = 0 ∧ items.length = 1))
    {out : List α} (hout : subtract keyed.compare keyed.computeDiff v.items items = some out) :
    ∃ q w' vq, multiCompDiff info fnInt (some n) diff w
        = .ok ((⟨some q, out.length, true, some rc⟩, some c, some q), w') ∧
      Cache info w' (some c) (some q) ∧ w'.error = .none ∧ w'.Holds info (some c) items ∧
      w'.store q = some vq ∧ vq.items = out ∧ (vq.slots = 0 ↔ vd.slots = 0 ∧ items = []) := by
  rw [← h.targetCached.unbacked_iff] at hroom
  rw [← h.lastItems] at hout
  rw [h.run]
  exact diffFinish_run hinfo keyed.compareFn keyed.computeDiffFn h.reread h.lastTarget h.targetCached
    h.lastInfo hkeep hroom hout (some rc)

theorem faults (hinfo : info.Regular) (keyed : info.Keyed) {c : Ptr}
    (h : DiffCall info fnInt w n diff rc (some c) items w1 d l v vd vl)
    (hbad : (items = [] ∧ vd.usedCount ≠ 0) ∨ (vd.slots = 0 ∧ items.length = 1)) :
    ∃ e, multiCompDiff info fnInt (some n) diff w = .error e := by
  rw [← h.targetCached.unbacked_iff] at hbad
  rw [h.run]
  exact diffFinish_fault hinfo keyed h.reread h.lastTarget h.targetCached h.lastInfo hbad (some rc)

end DiffCall

end

end Statgrab
