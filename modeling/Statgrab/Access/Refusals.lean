import Statgrab.Access.DiffCall

/-!
# Calls that are refused memory

The accessors once more, with an allocator that may refuse any request and a read that may fail
anywhere. `Held` is what a thread then keeps of a statistic between two calls. A diff call gives up
before its read and leaves the cached snapshot alone, or it reads; after that the difference is
delivered, the copy into its target is refused memory, or the call faults, whatever the read returned.
-/

namespace Statgrab

variable {α : Type}

/-- What a thread keeps of a statistic between two calls. -/
structure Held (info : VectorInitInfo α) (w : World α) (now diff : Option Ptr) : Prop where
  tidy : w.Tidy
  holds : ∃ items, w.Holds info now items
  live : ∀ d, diff = some d → ∃ v, w.store d = some v ∧ v.Cached info
  apart : ∀ p, now = some p → diff ≠ some p

section

variable {info : VectorInitInfo α} {fnInt : FillFn α} {w w' : World α}

theorem World.Tidy.held (hw : w.Tidy) {now : Option Ptr} {items : List α}
    (hnow : w.Holds info now items) : Held info w now none := by
  refine ⟨hw, ⟨items, hnow⟩, ?_, ?_⟩
  · intro d hd
    cases hd
  · intro p _ hdiff
    cases hdiff

theorem World.Tidy.cleared (hw : w.Tidy) : w.cleared.Tidy := hw.thread ⟨.clear, w.mem⟩

theorem Held.step {now diff : Option Ptr} (h : Held info w now diff) (hstep : w.Step w' none) :
    Held info w' now diff := by
  obtain ⟨items, hitems⟩ := h.holds
  refine ⟨hstep.tidy, ⟨items, hitems.step h.tidy hstep (by simp)⟩, ?_, h.apart⟩
  intro d hd
  obtain ⟨v, hv, hcached⟩ := h.live d hd
  exact ⟨v, hstep.live h.tidy hv (by simp), hcached⟩

theorem Held.cleared {now diff : Option Ptr} (h : Held info w now diff) :
    Held info w.cleared now diff := by
  obtain ⟨items, hitems⟩ := h.holds
  exact ⟨h.tidy.cleared, ⟨items, hitems.cleared⟩, h.live, h.apart⟩

/-! ### The getter -/

/-- The `fn_int` returned `rc` and `x`, and the getter that called it ended in `w`. -/
def Ran (info : VectorInitInfo α) (fnInt : FillFn α) (rc : SgError) (x : Option Ptr) (w : World α) :
    Prop :=
  ∃ p w1 w2, w1.Tidy ∧ w1.Holds info (some p) [] ∧ fnInt (some p) w1 = .ok ((rc, x), w2) ∧
    w = if rc = .none then w2.cleared else w2

/-- What a getter has done that reached its read. -/
structure Got (info : VectorInitInfo α) (fnInt : FillFn α) (w : World α) (now : Option Ptr)
    (rc : SgError) (x : Option Ptr) (items : List α) (w' : World α) : Prop where
  step : w.Step w' now
  kept : ∀ q, x = some q → now = some q ∨ w.next ≤ q
  holds : w'.Holds info x items
  ran : Ran info fnInt rc x w'

theorem multiCompAccess_cases (hinfo : info.Regular) (hreads : Reads info fnInt) (hw : w.Tidy)
    {now : Option Ptr} (hnow : ∃ items, w.Holds info now items) :
    (∃ rc x items w', multiCompAccess info fnInt now w = .ok ((gotten rc x items, x), w') ∧
      Got info fnInt w now rc x items w') ∨
    (now = none ∧ ∃ w', multiCompAccess info fnInt now w = .ok ((.failed none, none), w') ∧
      w.Failed w' none .malloc) ∨
    multiCompAccess info fnInt now w = .error .nullPointer := by
  rcases multiTarget_cases hinfo hw hnow with ⟨p, w1, htarget, hstep, hkept, hholds, hplenty⟩ |
    ⟨rfl, w', htarget, hfail⟩
  · rcases hreads w1 p hstep.tidy hholds with ⟨rc, x, items, w2, hrun, hrefill⟩ | ⟨hfault, -⟩
    swap
    · refine .inr (.inr ?_)
      rw [multiCompAccess, Prog.bind_of_ok htarget]
      exact Prog.bind_of_error hfault _
    have hpre : w.Refill w1 info now (some p) [] := by
      refine ⟨hstep, ?_, hholds, hplenty⟩
      intro q hq
      cases hq
      exact hkept
    have hall := hpre.trans hrefill
    refine .inl ⟨rc, x, items, if rc = .none then w2.cleared else w2,
      multiCompAccess_of_read htarget hrun hrefill.holds, ?_, hall.kept, ?_,
      p, w1, w2, hstep.tidy, hholds, hrun, rfl⟩
    · split
      · exact hall.step.thread ⟨.clear, w2.mem⟩
      · exact hall.step
    · split
      · exact hall.holds.cleared
      · exact hall.holds
  · refine .inr (.inl ⟨rfl, w', ?_, hfail⟩)
    rw [multiCompAccess, Prog.bind_of_ok htarget]
    rfl

theorem Held.got {now diff x : Option Ptr} {rc : SgError} {items : List α}
    (h : Held info w now diff) (hgot : Got info fnInt w now rc x items w') : Held info w' x diff := by
  refine ⟨hgot.step.tidy, ⟨items, hgot.holds⟩, ?_, ?_⟩
  · intro d hd
    obtain ⟨v, hv, hcached⟩ := h.live d hd
    exact ⟨v, hgot.step.live h.tidy hv (fun hnow => h.apart d hnow hd), hcached⟩
  · intro p hp hd
    rcases hgot.kept p hp with hold | hnew
    · exact h.apart p hold hd
    · obtain ⟨v, hv, -⟩ := h.live p hd
      exact absurd (h.tidy.fresh.lt hv) (not_lt.mpr hnew)

/-! ### A diff call up to its read -/

/-- `MULTI_COMP_DIFF` with a cached snapshot, up to the return of `getfn(NULL)`: the target of the
difference, the copy of the snapshot, what the `fn_int` returned and what is in `now`. Nothing where the
call gives up before it reads. -/
def diffUpToRead (info : VectorInitInfo α) (fnInt : FillFn α) (now : Ptr) (diff : Option Ptr) :
    VecM α (Option (Ptr × Ptr × Option SgError × Option Ptr)) := do
  let diff ← diffTarget info now diff
  match diff with
  | none => return none
  | some d =>
      let last ← sgVectorClone (some now)
      match last with
      | none => return none
      | some l =>
          let (got, now) ← multiCompAccess info fnInt (some now)
          return some (d, l, got.read, now)

theorem multiCompDiff_of_read {n d l : Ptr} {diff x : Option Ptr} {read : Option SgError}
    (h : diffUpToRead info fnInt n diff w = .ok (some (d, l, read, x), w')) :
    multiCompDiff info fnInt (some n) diff w = diffFinish d l read x w' := by
  rw [diffUpToRead] at h
  obtain ⟨target, w1, htarget, h⟩ := Prog.bind_eq_ok.mp h
  cases target with
  | none => cases h
  | some d' =>
      obtain ⟨last, w2, hclone, h⟩ := Prog.bind_eq_ok.mp h
      cases last with
      | none => cases h
      | some l' =>
          obtain ⟨⟨got, now⟩, w3, hget, h⟩ := Prog.bind_eq_ok.mp h
          cases h
          rw [multiCompDiff, Prog.bind_of_ok htarget]
          simp only
          rw [Prog.bind_of_ok hclone]
          simp only
          rw [diffAgainst, Prog.bind_of_ok hget]

theorem diffTarget_cases (hinfo : info.Regular) {n : Ptr} {diff : Option Ptr}
    (h : Held info w (some n) diff) :
    (∃ d w', diffTarget info n diff w = .ok (some d, w') ∧ w.Step w' none ∧
      Held info w' (some n) (some d)) ∨
    (diff = none ∧ ∃ w', diffTarget info n diff w = .ok (none, w') ∧ w.Failed w' none .malloc) := by
  obtain ⟨items, v, hv, hcached, -⟩ := h.holds
  cases diff with
  | some d => exact .inl ⟨d, w, rfl, .refl h.tidy none, h⟩
  | none =>
      rw [diffTarget, Prog.bind_of_ok (deref_run hv)]
      rcases vectorCreate_cases (w := w) hinfo hcached.used with
        ⟨w', vd, hrun, hand, hd, hdc, -⟩ | ⟨w', hrun, hfail⟩
      · have hstep := hand.created_step h.tidy hd hdc.backed
        have hheld := h.step hstep
        refine .inl ⟨w.next, w', hrun, hstep, hheld.tidy, hheld.holds, ?_, ?_⟩
        · intro d hdiff
          cases hdiff
          exact ⟨vd, hd, hdc⟩
        · intro p hp hdiff
          cases hp
          cases hdiff
          exact absurd (h.tidy.fresh.lt hv) (lt_irrefl _)
      · exact .inr ⟨rfl, w', hrun, hfail⟩

/-- The state in which a diff call subtracts the snapshot `old`: a copy of it at `l`, the target at `d`,
and what the read left in `x`. -/
structure AtDifference (info : VectorInitInfo α) (w : World α) (d l : Ptr) (vd vl : SgVector α)
    (x : Option Ptr) (items old : List α) : Prop where
  held : Held info w x (some d)
  holds : w.Holds info x items
  diff : w.store d = some vd
  diffCached : vd.Cached info
  last : w.store l = some vl
  lastInfo : vl.info = info
  lastItems : vl.items = old
  lastDiff : l ≠ d
  nowLast : x ≠ some l

/-- A diff call gives up before its read and keeps the snapshot, or it reads and then subtracts, unless
the read is starved. -/
theorem diffUpToRead_cases (hinfo : info.Regular) (hreads : Reads info fnInt) {n : Ptr}
    {diff : Option Ptr} (h : Held info w (some n) diff) {old : List α}
    (hold : w.Holds info (some n) old) :
    (∃ diff' w', diffUpToRead info fnInt n diff w = .ok (none, w') ∧
      multiCompDiff info fnInt (some n) diff w = .ok ((.failed none, some n, diff'), w') ∧
      w'.error ≠ .none ∧ Held info w' (some n) diff' ∧ w'.Holds info (some n) old) ∨
    (∃ d l rc x items w' vd vl,
      diffUpToRead info fnInt n diff w = .ok (some (d, l, some rc, x), w') ∧
      AtDifference info w' d l vd vl x items old ∧ Ran info fnInt rc x w') ∨
    (diffUpToRead info fnInt n diff w = .error .nullPointer ∧
      multiCompDiff info fnInt (some n) diff w = .error .nullPointer) := by
  rcases diffTarget_cases hinfo h with ⟨d, w1, htarget, hstep1, hheld1⟩ | ⟨rfl, w', htarget, hfail⟩
  · have hold1 : w1.Holds info (some n) old := hold.step h.tidy hstep1 (by simp)
    obtain ⟨v, hv, hcached, -, rfl⟩ := hold1
    rcases sgVectorClone_run hheld1.tidy.fresh hv hcached.backed.full.copies
        (hheld1.tidy.inBlock hv) (hcached.fits_clone hinfo) with ⟨l, w2, u, hclone, hcopy, hfor⟩ | ⟨rc, w2, hclone, hfail⟩
    · have hlast : (u.copied v 0 v.usedCount).Backed :=
        (hfor.backed (le_max_right _ _) hcached.backed.full).copied v 0 v.usedCount
      have hstep2 := hcopy.handover.created_step hheld1.tidy hcopy.store hlast
      have hlnew : w1.next ≤ l := by
        rcases (hcopy.handover.kept l rfl).2 with hcon | hnew
        · cases hcon
        · exact hnew
      have hheld2 := hheld1.step hstep2
      rcases multiCompAccess_cases hinfo hreads hheld2.tidy hheld2.holds with
        ⟨rc, x, items, w', hget, hgot⟩ | ⟨hcon, -⟩ | hfault
      · have hheld := hheld2.got hgot
        obtain ⟨vd, hd, hdc⟩ := hheld.live d rfl
        obtain ⟨ud, hud, -⟩ := hheld1.live d rfl
        have hnl : some n ≠ some l := by
          intro hcon
          cases hcon
          exact absurd (hheld1.tidy.fresh.lt hv) (not_lt.mpr hlnew)
        refine .inr (.inl ⟨d, l, rc, x, items, w', vd, u.copied v 0 v.usedCount, ?_, ⟨hheld, hgot.holds, hd,
          hdc, hgot.step.live hheld2.tidy hcopy.store hnl, ?_, copied_items hfor.usedCount, ?_, ?_⟩,
          hgot.ran⟩)
        · rw [diffUpToRead, Prog.bind_of_ok htarget]
          simp only
          rw [Prog.bind_of_ok hclone]
          simp only
          rw [Prog.bind_of_ok hget]
          simp only [gotten_read]
          rfl
        · rw [copied_info, hfor.info, hcached.info]
        · rintro rfl
          exact absurd (hheld1.tidy.fresh.lt hud) (not_lt.mpr hlnew)
        · intro hx
          rcases hgot.kept l hx with hcon | hnew
          · exact hnl hcon
          · exact absurd (hheld2.tidy.fresh.lt hcopy.store) (not_lt.mpr hnew)
      · cases hcon
      · refine .inr (.inr ⟨?_, ?_⟩)
        · rw [diffUpToRead, Prog.bind_of_ok htarget]
          simp only
          rw [Prog.bind_of_ok hclone]
          exact Prog.bind_of_error hfault _
        · rw [multiCompDiff, Prog.bind_of_ok htarget]
          simp only
          rw [Prog.bind_of_ok hclone]
          exact Prog.bind_of_error hfault _
    · refine .inl ⟨some d, w2, ?_, ?_, ?_, hheld1.step (hfail.step hheld1.tidy), ?_⟩
      · rw [diffUpToRead, Prog.bind_of_ok htarget]
        simp only
        rw [Prog.bind_of_ok hclone]
        rfl
      · rw [multiCompDiff, Prog.bind_of_ok htarget]
        simp only
        rw [Prog.bind_of_ok hclone]
        rfl
      · rw [hfail.error]
        exact hfail.code
      · exact hold.step h.tidy (hstep1.trans (hfail.step hheld1.tidy) (by simp)) (by simp)
  · have hstep := hfail.step h.tidy
    refine .inl ⟨none, w', ?_, ?_, ?_, h.step hstep, hold.step h.tidy hstep (by simp)⟩
    · rw [diffUpToRead, Prog.bind_of_ok htarget]
      rfl
    · rw [multiCompDiff, Prog.bind_of_ok htarget]
      rfl
    · rw [hfail.error]
      decide

/-! ### The difference -/

/-- The copy into the target is given up for lack of memory. -/
def CopyRefused (w : World α) (dest cur : Ptr) : Prop :=
  ∃ rc w', sgVectorCloneInto (some dest) (some cur) w = .ok ((rc, none), w')

/-- A target that can be made ready has the room its record promises. -/
theorem World.Tidy.not_unbacked (hw : w.Tidy) {p : Ptr} {v : SgVector α} {n : Nat}
    (hv : w.store p = some v) (hsafe : w.ResizeSafe v n) : ¬ v.Unbacked n := by
  rintro ⟨hslots, hn, hround⟩
  have hused := (hw.backed p v hv).within
  rcases hsafe with heq | ⟨-, hroom⟩
  · omega
  · rw [if_pos hround] at hroom
    have := hroom hw.bounded
    omega

/-- A target that cannot be made ready is released under the variable's feet, or the call faults. -/
theorem sgVectorCloneInto_unsafe (hinfo : info.Regular) (hw : w.Tidy) {dest cur : Ptr}
    {d c : SgVector α} (hd : w.store dest = some d) (hdc : d.Cached info) (hc : w.store cur = some c)
    (hcc : c.Cached info) (hdanger : ¬ w.ResizeSafe d c.usedCount) :
    (∃ w', sgVectorCloneInto (some dest) (some cur) w = .ok ((.none, some dest), w') ∧
      w.Handover w' (some dest) none) ∨
    (∃ e, sgVectorCloneInto (some dest) (some cur) w = .error e) := by
  have hfit := hdc.fits hinfo hcc
  have hb := hw.inBlock hd
  rw [World.ResizeSafe, not_or, not_and] at hdanger
  obtain ⟨hne, hdanger⟩ := hdanger
  by_cases hc0 : c.usedCount = 0
  · obtain ⟨w', hrun, hand, -⟩ :=
      sgVectorCloneInto_empty hw.fresh hd hc hb hc0 (hc0 ▸ hne)
    exact .inl ⟨w', hrun, hand⟩
  · have hcase := hdanger hc0
    by_cases hround : roundUp c.usedCount d.blockShift = d.allocCount
    · rw [if_pos hround] at hcase
      exact .inr ⟨_, sgVectorCloneInto_outOfBlock hd hc hne
        (sgVectorResize_outOfBlock hd hb hdc.backed.full.init hc0
          (hfit.nextPower2In_eq.trans hround) hcase)⟩
    · rw [if_neg hround] at hcase
      exact .inr ⟨_, sgVectorCloneInto_refused hd hc hb hfit hc0 hne hround
        (by simpa using hcase)⟩

/-- Cloning into a target that is kept: a copy, a refusal, a target that was released under the
variable's feet, or a fault. -/
theorem sgVectorCloneInto_cases (hinfo : info.Regular) (hw : w.Tidy) {dest cur : Ptr}
    {d c : SgVector α} (hd : w.store dest = some d) (hdc : d.Cached info) (hc : w.store cur = some c)
    (hcc : c.Cached info) :
    (∃ q w' u, sgVectorCloneInto (some dest) (some cur) w = .ok ((.none, some q), w') ∧
      w.CopyOf w' (some dest) q c u ∧ d.SizedFor u c.usedCount ∧ w.InBlock u c.usedCount ∧
      u.Cached info) ∨
    (∃ rc w', sgVectorCloneInto (some dest) (some cur) w = .ok ((rc, none), w') ∧
      w.Failed w' (some dest) rc) ∨
    (¬ w.ResizeSafe d c.usedCount ∧
      ((∃ w', sgVectorCloneInto (some dest) (some cur) w = .ok ((.none, some dest), w') ∧
        w.Handover w' (some dest) none) ∨
      (∃ e, sgVectorCloneInto (some dest) (some cur) w = .error e))) := by
  by_cases hsafe : w.ResizeSafe d c.usedCount
  · have hfit := hdc.fits hinfo hcc
    rcases sgVectorCloneInto_some hw.fresh hd hc hcc.backed.full.copies (hw.inBlock hd) (hw.inBlock hc)
        (fun _ => hfit) hsafe with ⟨q, w', u, hrun, hcopy, hsized, hroom⟩ | hfail
    · exact .inl ⟨q, w', u, hrun, hcopy, hsized, hroom,
        hsized.cached hdc hcc.used (hw.not_unbacked hd hsafe)⟩
    · exact .inr (.inl hfail)
  · exact .inr (.inr ⟨hsafe, sgVectorCloneInto_unsafe hinfo hw hd hdc hc hcc hsafe⟩)

theorem Held.free {now diff : Option Ptr} (h : Held info w now diff) {l : Ptr} {vl : SgVector α}
    (hl : w.store l = some vl) (hnow : now ≠ some l) (hdiff : diff ≠ some l) {items : List α}
    (hitems : w.Holds info now items) :
    ∃ w', sgVectorFree (some l) w = .ok ((), w') ∧ w.Step w' (some l) ∧
      w'.toThread = w.toThread ∧ Held info w' now diff ∧ w'.Holds info now items := by
  obtain ⟨w', hfree, hstep, hthread⟩ := h.tidy.freeVector hl
  have hholds : w'.Holds info now items := by
    apply hitems.step h.tidy hstep
    intro q hq hlq
    exact hnow (by rw [hq, hlq])
  refine ⟨w', hfree, hstep, hthread, ⟨hstep.tidy, ⟨items, hholds⟩, ?_, h.apart⟩, hholds⟩
  intro d hd
  obtain ⟨v, hv, hcached⟩ := h.live d hd
  exact ⟨v, hstep.live h.tidy hv (fun hcon => hdiff (by rw [hd, hcon])), hcached⟩

theorem sgVectorComputeDiff_of_clone {dest last : Option Ptr} {cur q : Ptr}
    (hrun : sgVectorCloneInto dest (some cur) w = .ok ((.none, some q), w')) :
    sgVectorComputeDiff dest (some cur) last w
      = (subtractLast q last >>= fun _ => pure (SgError.none, some q)) w' := by
  rw [sgVectorComputeDiff, Prog.bind_of_ok hrun]
  rfl

/-- The target became the difference, and the call succeeded. -/
structure Delivered (info : VectorInitInfo α) (keyed : info.Keyed) (w' : World α) (result : Access)
    (now diff : Option Ptr) (read : Option SgError) (items old : List α) : Prop where
  held : Held info w' now diff
  holds : w'.Holds info now items
  data : ∃ q vq, diff = some q ∧ result = ⟨some q, vq.items.length, true, read⟩ ∧
    w'.store q = some vq ∧ subtract keyed.compare keyed.computeDiff old items = some vq.items
  error : w'.error = .none

/-- What follows a subtraction that came to its end. -/
theorem finish_delivers {keyed : info.Keyed} {c d q l : Ptr} {vq vl : SgVector α} {items old : List α}
    (hcompute : sgVectorComputeDiff (some d) (some c) (some l) w = .ok ((.none, some q), w'))
    (hheld : Held info w' (some c) (some q)) (hholds : w'.Holds info (some c) items)
    (hq : w'.store q = some vq) (hl : w'.store l = some vl) (hql : q ≠ l) (hcl : some c ≠ some l)
    (hout : subtract keyed.compare keyed.computeDiff old items = some vq.items)
    (read : Option SgError) :
    ∃ result w2, diffFinish d l read (some c) w = .ok ((result, some c, some q), w2) ∧
      Delivered info keyed w2 result (some c) (some q) read items old := by
  have hql' : some q ≠ some l := fun hcon => hql (Option.some.inj hcon)
  obtain ⟨w2, hfree, hstep, -, hheld2, hholds2⟩ := hheld.free hl hcl hql' hholds
  have hq2 := hstep.live hheld.tidy hq hql'.symm
  refine ⟨_, w2.cleared, ?_, hheld2.cleared, hholds2.cleared, ⟨q, vq, rfl, rfl, hq2, hout⟩, rfl⟩
  rw [diffFinish, Prog.bind_of_ok hcompute]
  simp only
  rw [Prog.bind_of_ok hfree, if_pos trivial, Prog.bind_of_ok (succeed_some hq2 read), items_length]
  rfl

namespace AtDifference

variable {d l : Ptr} {vd vl : SgVector α} {x : Option Ptr} {items old : List α}

theorem finish_null (h : AtDifference info w d l vd vl none items old) (read : Option SgError) :
    ∃ w', diffFinish d l read none w = .ok ((.failed read, none, none), w') ∧
      w'.error = .invalidArgument ∧ Held info w' none none := by
  obtain ⟨w', hrun, herr, htidy, -⟩ := diffFinish_null h.held.tidy h.diff h.last h.lastDiff read
  exact ⟨w', hrun, herr, htidy.held (w'.holds_none info)⟩

theorem finish_copied (keyed : info.Keyed) {c q : Ptr} {vc u : SgVector α} {w1 : World α}
    (h : AtDifference info w d l vd vl (some c) items old) (hvc : w.store c = some vc)
    (hrun : sgVectorCloneInto (some d) (some c) w = .ok ((.none, some q), w1))
    (hcopy : w.CopyOf w1 (some d) q vc u) (hroom : w.InBlock u vc.usedCount) (hu : u.Cached info)
    (read : Option SgError) :
    (∃ result w', diffFinish d l read (some c) w = .ok ((result, some c, some q), w') ∧
      Delivered info keyed w' result (some c) (some q) read items old) ∨
    (subtract keyed.compare keyed.computeDiff old items = none ∧
      ∃ e, diffFinish d l read (some c) w = .error e) := by
  obtain ⟨v, hv, hcc, hcs, hitems⟩ := h.holds
  rw [hvc] at hv
  cases hv
  have hdc : some d ≠ some c := h.held.apart c rfl
  have hdl : some d ≠ some l := fun hcon => h.lastDiff (Option.some.inj hcon).symm
  have hcl : c ≠ l := fun hcon => h.nowLast (by rw [hcon])
  have hl1 : w1.store l = some vl := hcopy.handover.live h.held.tidy.fresh h.last hdl
  have hc1 : w1.store c = some vc := hcopy.handover.live h.held.tidy.fresh hvc hdc
  have hql : q ≠ l := fun hcon => hcopy.handover.avoids (h.held.tidy.fresh.lt h.last) hdl
    (congrArg some hcon)
  have hqc : q ≠ c := fun hcon => hcopy.handover.avoids (h.held.tidy.fresh.lt hvc) hdc
    (congrArg some hcon)
  have hcompare : vl.info.compareFn = some keyed.compare := by rw [h.lastInfo, keyed.compareFn]
  have hdiff : vl.info.computeDiffFn = some keyed.computeDiff := by
    rw [h.lastInfo, keyed.computeDiffFn]
  have hsub := subtractLast_run (w := w1) hql.symm hcompare hdiff hl1 hcopy.store
    (fun hb => h.held.tidy.inBlock h.last (hcopy.handover.bounded ▸ hb))
    (fun hb => by
      rw [copied_usedCount, hcopy.used]
      exact hroom (hcopy.handover.bounded ▸ hb))
  rw [copied_items hcopy.used, h.lastItems, hitems] at hsub
  cases hout : subtract keyed.compare keyed.computeDiff old items with
  | none =>
      rw [hout] at hsub
      refine .inr ⟨rfl, .nullPointer, ?_⟩
      rw [diffFinish, Prog.bind_of_error]
      rw [sgVectorComputeDiff_of_clone hrun, Prog.bind_of_error hsub]
  | some out =>
      rw [hout] at hsub
      have hlength : out.length = u.usedCount := by
        rw [subtract_length hout, ← hitems, items_length, hcopy.used]
      have hfilled : ((u.copied vc 0 vc.usedCount).filled 0 out).items = out := filled_items _ hlength
      have hcached := (hu.copied vc 0 vc.usedCount).filled out
      have hcompute : sgVectorComputeDiff (some d) (some c) (some l) w
          = .ok ((.none, some q), w1.put q ((u.copied vc 0 vc.usedCount).filled 0 out)) := by
        rw [sgVectorComputeDiff_of_clone hrun, Prog.bind_of_ok hsub]
        rfl
      have hstep := (hcopy.handover.put ((u.copied vc 0 vc.usedCount).filled 0 out)).step h.held.tidy
        (by
          intro p v hp hv
          cases hp
          cases (Function.update_self _ _ _).symm.trans hv
          exact hcached.backed)
      have hholds := h.holds.step h.held.tidy hstep h.held.apart
      refine .inl (finish_delivers hcompute ⟨hstep.tidy, ⟨items, hholds⟩, ?_, ?_⟩ hholds
        (Function.update_self _ _ _) ((Function.update_of_ne hql.symm _ _).trans hl1) hql h.nowLast
        (hout.trans (congrArg some hfilled.symm)) read)
      · intro p hp
        cases hp
        exact ⟨_, Function.update_self _ _ _, hcached⟩
      · intro p hp hcon
        cases hp
        exact hqc (Option.some.inj hcon)

/-- With a vector from the read the difference is delivered, the copy is refused memory, or the call
faults: the target cannot be made ready, or a comparison follows a NULL string. -/
theorem finish_cases (hinfo : info.Regular) (keyed : info.Keyed) {c : Ptr}
    (h : AtDifference info w d l vd vl (some c) items old) (read : Option SgError) :
    (¬ CopyRefused w d c ∧
      ((∃ q result w', diffFinish d l read (some c) w = .ok ((result, some c, some q), w') ∧
        Delivered info keyed w' result (some c) (some q) read items old) ∨
      ((¬ w.ResizeSafe vd items.length ∨ subtract keyed.compare keyed.computeDiff old items = none) ∧
        ∃ e, diffFinish d l read (some c) w = .error e))) ∨
    (CopyRefused w d c ∧ ∃ w', diffFinish d l read (some c) w
        = .ok ((.failed read, some c, none), w') ∧ w'.error ≠ .none ∧ Held info w' (some c) none ∧
      w'.Holds info (some c) items) := by
  obtain ⟨vc, hvc, hcc, hcs, hitems⟩ := h.holds
  have hdl : some d ≠ some l := fun hcon => h.lastDiff (Option.some.inj hcon).symm
  rcases sgVectorCloneInto_cases hinfo h.held.tidy h.diff h.diffCached hvc hcc with
    ⟨q, w1, u, hrun, hcopy, -, hroom, hu⟩ | ⟨rc, w1, hrun, hfail⟩ |
    ⟨hdanger, ⟨w1, hrun, hand⟩ | ⟨e, hrun⟩⟩
  · refine .inl ⟨?_, ?_⟩
    · rintro ⟨rc, w', hrefused⟩
      rw [hrun] at hrefused
      cases hrefused
    · rcases h.finish_copied keyed hvc hrun hcopy hroom hu read with ⟨result, w', hrun'⟩ |
        ⟨hnone, hfault⟩
      · exact .inl ⟨q, result, w', hrun'⟩
      · exact .inr ⟨.inr hnone, hfault⟩
  · refine .inr ⟨⟨rc, w1, hrun⟩, ?_⟩
    have hstep := hfail.step h.held.tidy
    have hl1 := hstep.live h.held.tidy h.last hdl
    have hholds := h.holds.step h.held.tidy hstep h.held.apart
    obtain ⟨w2, hfree, -, hthread, hheld2, hholds2⟩ :=
      (hstep.tidy.held hholds).free hl1 h.nowLast (by simp) hholds
    refine ⟨w2, ?_, ?_, hheld2, hholds2⟩
    · have hcompute : sgVectorComputeDiff (some d) (some c) (some l) w = .ok ((rc, none), w1) := by
        rw [sgVectorComputeDiff, Prog.bind_of_ok hrun]
        simp only [ne_eq, hfail.code, not_false_eq_true, if_true]
        rfl
      rw [diffFinish, Prog.bind_of_ok hcompute]
      simp only
      rw [Prog.bind_of_ok hfree, if_neg hfail.code]
      rfl
    · rw [hthread, hfail.error]
      exact hfail.code
  · rw [← items_length, hitems] at hdanger
    refine .inl ⟨?_, .inr ⟨.inl hdanger, .released, ?_⟩⟩
    · rintro ⟨rc, w', hrefused⟩
      rw [hrun] at hrefused
      cases hrefused
    · -- the target is gone, and the loop reads it
      have hl1 := hand.live h.held.tidy.fresh h.last hdl
      have hgone : w1.store d = none := hand.gone d rfl (by simp)
      have hsub : subtractLast d (some l) w1 = .error .released := by
        rw [subtractLast, Prog.bind_of_ok (deref_run hl1), h.lastInfo, keyed.compareFn,
          keyed.computeDiffFn]
        exact Prog.bind_of_error (deref_released hgone) _
      rw [diffFinish, Prog.bind_of_error]
      rw [sgVectorComputeDiff_of_clone hrun, Prog.bind_of_error hsub]
  · rw [← items_length, hitems] at hdanger
    refine .inl ⟨?_, .inr ⟨.inl hdanger, e, ?_⟩⟩
    · rintro ⟨rc, w', hrefused⟩
      rw [hrun] at hrefused
      cases hrefused
    · rw [diffFinish, Prog.bind_of_error]
      rw [sgVectorComputeDiff, Prog.bind_of_error hrun]

end AtDifference

/-! ### Calls that returned -/

def World.itemsAt (w : World α) (x : Option Ptr) : List α := (x.bind w.store).elim [] SgVector.items

@[simp] theorem itemsAt_none (w : World α) : w.itemsAt none = [] := rfl

theorem itemsAt_some {w : World α} {p : Ptr} {v : SgVector α} (hv : w.store p = some v) :
    w.itemsAt (some p) = v.items := by
  rw [World.itemsAt, Option.bind_some, hv]
  rfl

theorem World.Holds.itemsAt {w : World α} {info : VectorInitInfo α} {x : Option Ptr}
    {items : List α} (h : w.Holds info x items) : w.itemsAt x = items := by
  cases x with
  | none => exact (show items = [] from h).symm
  | some p =>
      obtain ⟨v, hv, -, -, rfl⟩ := h
      exact itemsAt_some hv

/-- What a getter call that returned has done to the cached items. -/
structure Gets (w w' : World α) (now now' : Option Ptr) (r : Access) : Prop where
  unread : r.read = none → w'.itemsAt now' = w.itemsAt now
  delivers : r.ok = true → r.read = some .none ∧ r.data = now' ∧
    r.entries = (w'.itemsAt now').length

/-- What a diff call that returned has done: without a read the cached items are as they were, and a
success delivers the items cached now with those cached before subtracted. -/
structure Differs (minus : List α → List α → Option (List α)) (w w' : World α)
    (now now' : Option Ptr) (r : Access) : Prop where
  unread : r.read = none → w'.itemsAt now' = w.itemsAt now
  delivers : r.ok = true → minus (w.itemsAt now) (w'.itemsAt now') = some (w'.itemsAt r.data) ∧
    r.entries = (w'.itemsAt r.data).length

theorem Gets.refused {now now' : Option Ptr} (hsame : w'.itemsAt now' = w.itemsAt now) :
    Gets w w' now now' (.failed none) :=
  ⟨fun _ => hsame, fun hok => absurd hok failed_ne_ok⟩

theorem Differs.refused {minus : List α → List α → Option (List α)} {now now' : Option Ptr}
    (hsame : w'.itemsAt now' = w.itemsAt now) : Differs minus w w' now now' (.failed none) :=
  ⟨fun _ => hsame, fun hok => absurd hok failed_ne_ok⟩

theorem Differs.failed {minus : List α → List α → Option (List α)} {now now' : Option Ptr}
    (rc : SgError) : Differs minus w w' now now' (.failed (some rc)) :=
  ⟨fun hread => absurd hread (Option.some_ne_none rc), fun hok => absurd hok failed_ne_ok⟩

theorem gotten_gets {rc : SgError} {x now : Option Ptr} {items : List α} (hitems : w'.itemsAt x = items) :
    Gets w w' now x (gotten rc x items) := by
  constructor
  · intro hread
    rw [gotten_read] at hread
    cases hread
  · intro hok
    unfold gotten at hok ⊢
    split at hok
    · rename_i hrc
      rw [if_pos hrc, hitems]
      exact ⟨congrArg some hrc, rfl, rfl⟩
    · cases hok

theorem multiCompAccess_gets (hinfo : info.Regular) (hreads : Reads info fnInt) {now diff : Option Ptr}
    (h : Held info w now diff) {r : Access} {now' : Option Ptr}
    (hrun : multiCompAccess info fnInt now w = .ok ((r, now'), w')) :
    Held info w' now' diff ∧ Gets w w' now now' r := by
  rcases multiCompAccess_cases hinfo hreads h.tidy h.holds with
    ⟨rc, x, items, w1, hrun1, hgot⟩ | ⟨rfl, w1, hrun1, hfail⟩ | hfault
  · rw [hrun1] at hrun
    cases hrun
    exact ⟨h.got hgot, gotten_gets hgot.holds.itemsAt⟩
  · rw [hrun1] at hrun
    cases hrun
    exact ⟨h.step (hfail.step h.tidy), .refused rfl⟩
  · rw [hfault] at hrun
    cases hrun

theorem multiCompDiff_differs (hinfo : info.Regular) (keyed : info.Keyed) (hreads : Reads info fnInt)
    {now diff : Option Ptr} (h : Held info w now diff) {r : Access} {now' diff' : Option Ptr}
    (hrun : multiCompDiff info fnInt now diff w = .ok ((r, now', diff'), w')) :
    Held info w' now' diff' ∧
      Differs (subtract keyed.compare keyed.computeDiff) w w' now now' r := by
  cases now with
  | none =>
      rw [multiCompDiff] at hrun
      obtain ⟨⟨got, now1⟩, w1, hget, hrest⟩ := Prog.bind_eq_ok.mp hrun
      cases hrest
      obtain ⟨hheld, hgets⟩ := multiCompAccess_gets hinfo hreads h hget
      refine ⟨hheld, hgets.unread, ?_⟩
      intro hok
      obtain ⟨-, hdata, hentries⟩ := hgets.delivers hok
      rw [hdata, itemsAt_none, subtract_nil]
      exact ⟨rfl, hentries⟩
  | some n =>
      obtain ⟨old, hold⟩ := h.holds
      rcases diffUpToRead_cases hinfo hreads h hold with
        ⟨diff1, w1, -, hrun1, -, hheld, hholds⟩ | ⟨d, l, rc, x, items, w1, vd, vl, hread, hat, -⟩ |
        ⟨-, hfault⟩
      · rw [hrun1] at hrun
        cases hrun
        exact ⟨hheld, .refused (hholds.itemsAt.trans hold.itemsAt.symm)⟩
      · rw [multiCompDiff_of_read hread] at hrun
        cases x with
        | none =>
            obtain ⟨w2, hfinish, -, hheld⟩ := hat.finish_null (some rc)
            rw [hfinish] at hrun
            cases hrun
            exact ⟨hheld, .failed rc⟩
        | some c =>
            rcases hat.finish_cases hinfo keyed (some rc) with
              ⟨-, ⟨q, result, w2, hfinish, hdel⟩ | ⟨-, e, hfinish⟩⟩ | ⟨-, w2, hfinish, -, hheld, hholds⟩
            · rw [hfinish] at hrun
              cases hrun
              obtain ⟨q', vq, hq, rfl, hstore, hout⟩ := hdel.data
              cases hq
              refine ⟨hdel.held, fun hread => absurd hread (Option.some_ne_none rc), fun _ => ?_⟩
              rw [hold.itemsAt, hdel.holds.itemsAt, itemsAt_some hstore]
              exact ⟨hout, rfl⟩
            · rw [hfinish] at hrun
              cases hrun
            · rw [hfinish] at hrun
              cases hrun
              exact ⟨hheld, .failed rc⟩
      · rw [hfault] at hrun
        cases hrun

end

end Statgrab
