import Mathlib.Tactic.IntervalCases
import Statgrab.Vector.Clone

/-!
# `sg_vector_clone_into`

The caller hands over a variable `*dest` and gets it back with a copy of the source in it, or empty.
The target is resized first when the counts differ, and the resize releases it in two cases: for a
count of 0, and when it is refused memory. The helper then returns without a store to `*dest`, so the
variable still holds the released vector: with a count of 0 the error has been cleared and the call
counts as a success, and otherwise the caller releases the vector once more.
`sgVectorCloneInto_post_iff` says that these two, and a block with less room than its record says, are
the only ways to miss the postcondition.
-/

namespace Statgrab

open Function (update)

variable {α : Type}

/-- An item type with all its functions, as `VECTOR_INIT_INFO_FULL_INIT` declares it. -/
structure VectorInitInfo.Full (info : VectorInitInfo α) : Prop where
  item : 0 < info.itemSize
  init : info.initFn.isSome
  copies : info.Copies

/-! ### What the call does -/

section

variable {w : World α} {src : Ptr} {s : SgVector α}

theorem sgVectorCloneInto_none (hf : w.Fresh) (hs : w.store src = some s)
    (hcopies : s.info.Copies) (hbs : w.InBlock s s.usedCount)
    (hfit : Fits (max s.allocCount s.usedCount) s.blockShift s.info) :
    (∃ q w' v, sgVectorCloneInto none (some src) w = .ok ((.none, some q), w') ∧
      w.CopyOf w' none q s v ∧
      v.CreatedFor s.blockShift (max s.allocCount s.usedCount) s.usedCount s.info) ∨
    (∃ rc w', sgVectorCloneInto none (some src) w = .ok ((rc, none), w') ∧
      w.Failed w' none rc) := by
  rw [sgVectorCloneInto]
  rcases sgVectorClone_run hf hs hcopies hbs hfit with
    ⟨q, w', v, hrun, hcopy, hfor⟩ | ⟨rc, w', hrun, hfail⟩
  · refine .inl ⟨q, w', v, ?_, hcopy, hfor⟩
    simp [Prog.bind_run, hrun]
  · refine .inr ⟨rc, w', ?_, hfail⟩
    simp [Prog.bind_run, hrun, sgVectorFree, onThread_run (sgGetError_run w'.toThread),
      hfail.error]

theorem sgVectorCloneInto_some {dest : Ptr} {d : SgVector α} (hf : w.Fresh)
    (hd : w.store dest = some d) (hs : w.store src = some s) (hcopies : s.info.Copies)
    (hbd : w.InBlock d d.usedCount) (hbs : w.InBlock s s.usedCount)
    (hfit : d.usedCount ≠ s.usedCount → Fits s.usedCount d.blockShift d.info)
    (hsafe : w.ResizeSafe d s.usedCount) :
    (∃ q w' v, sgVectorCloneInto (some dest) (some src) w = .ok ((.none, some q), w') ∧
      w.CopyOf w' (some dest) q s v ∧ d.SizedFor v s.usedCount ∧ w.InBlock v s.usedCount) ∨
    (∃ rc w', sgVectorCloneInto (some dest) (some src) w = .ok ((rc, none), w') ∧
      w.Failed w' (some dest) rc) := by
  rw [sgVectorCloneInto]
  rcases sgVectorCloneIntoInt_run hf hd hs hcopies hbd hbs hfit hsafe with
    ⟨q, w', v, hrun, hcopy, hsized, hroom⟩ | ⟨rc, w', hrun, hfail⟩
  · refine .inl ⟨q, w', v, ?_, hcopy, hsized, hroom⟩
    simp [Prog.bind_run, hrun]
  · refine .inr ⟨rc, w', ?_, hfail⟩
    simp [Prog.bind_run, hrun, sgVectorFree, onThread_run (sgGetError_run w'.toThread),
      hfail.error, hfail.code]

end

/-! ### Where the call goes wrong -/

section

variable {w : World α} {dest src : Ptr} {d s : SgVector α}

/-- Where the resize returned NULL, the helper returns the error it finds and leaves `*dest` alone. -/
theorem sgVectorCloneIntoInt_of_null {w' : World α} (hd : w.store dest = some d)
    (hs : w.store src = some s) (hne : d.usedCount ≠ s.usedCount)
    (hrun : sgVectorResize (some dest) s.usedCount w = .ok (none, w')) :
    sgVectorCloneIntoInt dest src w = .ok ((w'.error, some dest), w') := by
  have htmp : cloneTarget dest d.usedCount s.usedCount w = .ok (none, w') := by
    rw [cloneTarget, if_neg hne, hrun]
  rw [sgVectorCloneIntoInt, Prog.bind_of_ok (deref_run hd), Prog.bind_of_ok (deref_run hs),
    Prog.bind_of_ok htmp]
  rfl

/-- An empty source: the target is released, the error cleared, and `*dest` still points to it. -/
theorem sgVectorCloneInto_empty (hf : w.Fresh) (hd : w.store dest = some d) (hs : w.store src = some s)
    (hb : w.InBlock d d.usedCount) (hs0 : s.usedCount = 0) (hd0 : d.usedCount ≠ 0) :
    ∃ w', sgVectorCloneInto (some dest) (some src) w = .ok ((.none, some dest), w') ∧
      w.Handover w' (some dest) none ∧ (w.Plenty → w'.Plenty) := by
  have hnull := sgVectorCloneIntoInt_of_null hd hs (by rwa [hs0])
    (by rw [hs0]; exact sgVectorResize_zero hd hb)
  refine ⟨((w.shrink dest d 0).drop dest).cleared, ?_,
    ((World.Handover.own (hf.lt hd)).shrink d 0).drop.cleared, id⟩
  rw [sgVectorCloneInto]
  simp [Prog.bind_run, hnull]

/-- A refused resize: the target is released twice. -/
theorem sgVectorCloneInto_refused (hd : w.store dest = some d) (hs : w.store src = some s)
    (hb : w.InBlock d d.usedCount) (hfit : Fits s.usedCount d.blockShift d.info)
    (hs0 : s.usedCount ≠ 0) (hne : d.usedCount ≠ s.usedCount)
    (hround : roundUp s.usedCount d.blockShift ≠ d.allocCount) (hmem : w.mem 0 = false) :
    sgVectorCloneInto (some dest) (some src) w = .error .released := by
  have heq := hfit.nextPower2In_eq
  obtain ⟨w', hrun, hstore, herr, -⟩ := sgVectorResize_refused hs0 hd hb (by rwa [heq])
    (by rw [heq]; exact (roundUp_pos (Nat.pos_of_ne_zero hs0) _).ne') hfit.blockBytes_ne_zero hmem
  have hgone : w'.store dest = none := by
    rw [hstore]
    exact Function.update_self _ _ _
  rw [sgVectorCloneInto]
  simp [Prog.bind_run, sgVectorCloneIntoInt_of_null hd hs hne hrun, herr,
    sgVectorFree_released hgone]

/-- A resize that trusts a block smaller than its record says. -/
theorem sgVectorResize_outOfBlock {n : Nat} (hd : w.store dest = some d)
    (hb : w.InBlock d d.usedCount) (hinit : d.info.initFn.isSome) (hn : n ≠ 0)
    (hround : nextPower2In n d.blockShift = d.allocCount) (hroom : ¬ w.InBlock d n) :
    sgVectorResize (some dest) n w = .error .outOfBlock := by
  have hlt : d.usedCount < n := by
    by_contra hle
    exact hroom (hb.mono (by omega))
  have hnew : sgVectorInitNew dest n (w.shrink dest d n) = .error .outOfBlock := by
    rw [sgVectorInitNew, Prog.bind_of_ok (deref_run (v := d.destroyUnused n) (by simp)),
      if_pos ⟨by rw [destroyUnused_usedCount]; omega, by simpa using hinit⟩]
    apply Prog.bind_of_error
    apply touch_outOfBlock
    simpa [World.InBlock] using hroom
  simp only [sgVectorResize, if_neg hn]
  rw [Prog.bind_of_ok (sgVectorDestroyUnused_run n hd hb),
    Prog.bind_of_ok (deref_run (v := d.destroyUnused n) (by simp)),
    if_neg (by simpa using hround), Prog.bind_of_ok (Prog.pure_run _ _)]
  exact Prog.bind_of_error hnew _

theorem sgVectorCloneInto_outOfBlock (hd : w.store dest = some d) (hs : w.store src = some s)
    (hne : d.usedCount ≠ s.usedCount)
    (hresize : sgVectorResize (some dest) s.usedCount w = .error .outOfBlock) :
    sgVectorCloneInto (some dest) (some src) w = .error .outOfBlock := by
  rw [sgVectorCloneInto, sgVectorCloneIntoInt]
  simp only [Prog.bind_run, deref_run hd, deref_run hs, cloneTarget, if_neg hne, hresize]

end

/-! ### The postcondition -/

/-- What `sg_vector_clone_into` promises: a live copy of the source in `*dest`, or an error and an
empty `*dest`; the vector that was there is released at most once, and `*dest` never points to a
released one. -/
structure CloneIntoPost (w : World α) (dest : Option Ptr) (s : SgVector α) (rc : SgError)
    (dest' : Option Ptr) (w' : World α) : Prop where
  outcome : (rc = .none ∧ ∃ p v, dest' = some p ∧ w'.store p = some v ∧ v.items = s.items) ∨
    (rc ≠ .none ∧ dest' = none)
  once : ∀ d, dest = some d → w'.frees d ≤ w.frees d + 1
  live : ∀ p, dest' = some p → w'.store p ≠ none

/-- The vector at `p` is live and compatible with `s`, and the bytes `s` needs there are a
`size_t`. -/
def World.Compatible (w : World α) (p : Ptr) (v s : SgVector α) : Prop :=
  w.store p = some v ∧ v.info = s.info ∧ w.InBlock v v.usedCount ∧
    Fits s.usedCount v.blockShift v.info

theorem World.Handover.once {w w' : World α} {a b : Option Ptr} (h : w.Handover w' a b) :
    ∀ p, a = some p → w'.frees p ≤ w.frees p + 1 := by
  intro p hp
  rw [h.frees p (h.held p hp)]
  split <;> omega

theorem World.CopyOf.post {w w' : World α} {dest : Option Ptr} {q : Ptr} {s v : SgVector α}
    (h : w.CopyOf w' dest q s v) : CloneIntoPost w dest s .none (some q) w' := by
  refine ⟨.inl ⟨rfl, q, _, rfl, h.store, copied_items h.used⟩, h.handover.once, ?_⟩
  intro p hp hnone
  cases hp
  rw [h.store] at hnone
  cases hnone

theorem World.Failed.post {w w' : World α} {dest : Option Ptr} {rc : SgError} (s : SgVector α)
    (h : w.Failed w' dest rc) : CloneIntoPost w dest s rc none w' := by
  refine ⟨.inr ⟨h.code, rfl⟩, h.handover.once, ?_⟩
  intro p hp
  cases hp

/-- The postcondition holds exactly where the old vector can be made ready for the source's items
without being released. -/
theorem sgVectorCloneInto_post_iff (w : World α) (dest : Option Ptr) (src : Ptr) (s : SgVector α)
    (hf : w.Fresh) (hs : w.store src = some s) (hinfo : s.info.Full)
    (hbs : w.InBlock s s.usedCount)
    (hfit : Fits (max s.allocCount s.usedCount) s.blockShift s.info)
    (hdest : ∀ d, dest = some d → ∃ v, w.Compatible d v s) :
    (∃ rc dest' w', sgVectorCloneInto dest (some src) w = .ok ((rc, dest'), w') ∧
      CloneIntoPost w dest s rc dest' w') ↔
    ∀ d v, dest = some d → w.store d = some v → w.ResizeSafe v s.usedCount := by
  cases dest with
  | none =>
      refine iff_of_true ?_ (fun d v h => by cases h)
      rcases sgVectorCloneInto_none hf hs hinfo.copies hbs hfit with
        ⟨q, w', v, hrun, hcopy, -⟩ | ⟨rc, w', hrun, hfail⟩
      · exact ⟨.none, some q, w', hrun, hcopy.post⟩
      · exact ⟨rc, none, w', hrun, hfail.post s⟩
  | some p =>
      obtain ⟨d, hd, hcompat, hbd, hfitd⟩ := hdest p rfl
      constructor
      · rintro ⟨rc, dest', w', hrun, hpost⟩ p' v hp hv
        cases hp
        rw [hd] at hv
        cases hv
        -- each way to be unsafe ends in a fault or with a dangling `*dest`
        by_contra hdanger
        rw [World.ResizeSafe, not_or, not_and] at hdanger
        obtain ⟨hne, hdanger⟩ := hdanger
        by_cases hs0 : s.usedCount = 0
        · obtain ⟨w1, hrun', hand, -⟩ := sgVectorCloneInto_empty hf hd hs hbd hs0 (hs0 ▸ hne)
          rw [hrun'] at hrun
          cases hrun
          exact hpost.live p rfl (hand.gone p rfl (by simp))
        · have hcase := hdanger hs0
          by_cases hround : roundUp s.usedCount d.blockShift = d.allocCount
          · rw [if_pos hround] at hcase
            have hresize := sgVectorResize_outOfBlock hd hbd (hcompat ▸ hinfo.init) hs0
              (hfitd.nextPower2In_eq.trans hround) hcase
            rw [sgVectorCloneInto_outOfBlock hd hs hne hresize] at hrun
            cases hrun
          · rw [if_neg hround] at hcase
            rw [sgVectorCloneInto_refused hd hs hbd hfitd hs0 hne hround
              (by simpa using hcase)] at hrun
            cases hrun
      · intro hsafe
        rcases sgVectorCloneInto_some hf hd hs hinfo.copies hbd hbs (fun _ => hfitd)
            (hsafe p d rfl hd) with ⟨q, w', v, hrun, hcopy, -⟩ | ⟨rc, w', hrun, hfail⟩
        · exact ⟨.none, some q, w', hrun, hcopy.post⟩
        · exact ⟨rc, none, w', hrun, hfail.post s⟩

/-! ### Two vectors of counters -/

def counterInfo : VectorInitInfo Nat :=
  { itemSize := 8
    initFn := some fun _ => 0
    copyFn := some (keepSource fun s _ => return (.none, s))
    computeDiffFn := some fun last now => now - last
    compareFn := some fun a b => some (a == b)
    destroyFn := none }

theorem counterInfo_full : counterInfo.Full := by
  refine ⟨by decide, rfl, _, rfl, ?_⟩
  intro s d t
  exact .inl ⟨t, rfl, rfl, id⟩

def counterVector (used : Nat) : SgVector Nat :=
  { usedCount := used, allocCount := 16, blockShift := 4, info := counterInfo, slots := 16
    cells := fun i => i }

def counterWorld (d s : SgVector Nat) : World Nat :=
  { glob := .clear, mem := fun _ => true, next := 2, raw := fun _ _ => 0, bounded := true
    inits := 0, destroys := 0, frees := fun _ => 0
    store := fun p => if p = 0 then some d else if p = 1 then some s else none }

theorem counterWorld_fresh (d s : SgVector Nat) : (counterWorld d s).Fresh := by
  intro p hp
  have hle : 2 ≤ p := hp
  simp [counterWorld, (lt_of_lt_of_le (by decide) hle : 0 < p).ne',
    (lt_of_lt_of_le (by decide) hle : 1 < p).ne']

theorem counterInfo_fits {n shift : Nat} (hshift : shift ≤ 4) (hn : n ≤ 16) :
    Fits n shift counterInfo := by
  refine ⟨by omega, by decide, ?_⟩
  have hround : roundUp n shift ≤ 16 := by
    interval_cases shift <;> interval_cases n <;> decide
  simp only [vectorSize, counterInfo, sizeBound]
  omega

/-- Two counters are cloned over one. -/
theorem sgVectorCloneInto_post_counters :
    ∃ rc dest' w', sgVectorCloneInto (some 0) (some 1)
        (counterWorld (counterVector 1) (counterVector 2)) = .ok ((rc, dest'), w') ∧
      CloneIntoPost (counterWorld (counterVector 1) (counterVector 2)) (some 0) (counterVector 2) rc
        dest' w' := by
  apply (sgVectorCloneInto_post_iff _ (some 0) 1 (counterVector 2) (counterWorld_fresh _ _) rfl
    counterInfo_full (fun _ => by decide) (counterInfo_fits (by decide) (by decide)) ?_).mpr
  · intro d v hd hv
    cases hd
    cases hv
    exact .inr ⟨by decide, by rw [if_pos (by decide)]; exact fun _ => by decide⟩
  · intro d hd
    cases hd
    exact ⟨counterVector 1, rfl, rfl, fun _ => by decide, counterInfo_fits (by decide) (by decide)⟩

/-- An empty vector cloned over one counter: the call reports success, and `*dest` points to the
vector that was released. -/
theorem sgVectorCloneInto_empty_dangles :
    ¬ ∃ rc dest' w', sgVectorCloneInto (some 0) (some 1)
        (counterWorld (counterVector 1) (counterVector 0)) = .ok ((rc, dest'), w') ∧
      CloneIntoPost (counterWorld (counterVector 1) (counterVector 0)) (some 0) (counterVector 0) rc
        dest' w' := by
  rintro ⟨rc, dest', w', hrun, hpost⟩
  have hdest : (counterWorld (counterVector 1) (counterVector 0)).store 0 = some (counterVector 1) := rfl
  have hsrc : (counterWorld (counterVector 1) (counterVector 0)).store 1 = some (counterVector 0) := rfl
  obtain ⟨w1, hrun', hand, -⟩ := sgVectorCloneInto_empty
    (counterWorld_fresh (counterVector 1) (counterVector 0)) hdest hsrc (fun _ => by decide) rfl
    (by decide)
  rw [hrun'] at hrun
  cases hrun
  exact hpost.live 0 rfl (hand.gone 0 rfl (by simp))

end Statgrab
