import Statgrab.Vector.Capacity

/-!
# A clone and its later reallocations

Whether `sg_vector_resize` reallocates depends on the recorded `alloc_count` and nothing else of the
vector: `reallocations` computes it for a whole sequence of counts. `sg_vector_clone` copies every other
field of the source, but `sg_vector_create_int` records one block. So the clone of a vector recorded with
more than one block is a different vector to the next resize.
-/

namespace Statgrab

variable {α : Type}

/-- The vector `*v` is resized to one count after the other. The answer says for each call whether the
items were given a new block. -/
def resizeAll : Option Ptr → List Nat → VecM α (List Bool × Option Ptr)
  | v, [] => return ([], v)
  | v, n :: ns => do
      let u ← sgVectorResize v n
      let (later, last) ← resizeAll u ns
      return (decide (u.isSome ∧ u ≠ v) :: later, last)

/-- The reallocations of a vector with this record. A resize to 0 releases it, and there is nothing to
reallocate after that. -/
def reallocations (blockShift : Nat) : Nat → List Nat → List Bool
  | _, [] => []
  | allocCount, n :: ns =>
      if n = 0 then false :: ns.map fun _ => false
      else decide (roundUp n blockShift ≠ allocCount) ::
        reallocations blockShift (roundUp n blockShift) ns

theorem resizeAll_null (ns : List Nat) (w : World α) :
    ∃ w', resizeAll none ns w = .ok ((ns.map fun _ => false, none), w') := by
  induction ns generalizing w with
  | nil => exact ⟨w, rfl⟩
  | cons n ns ih =>
      obtain ⟨t, hset⟩ : ∃ t, sgSetError .invalidArgument 0
          "sg_vector_resize: invalid argument value for vector" w.toThread = .ok ((), t) := ⟨_, rfl⟩
      obtain ⟨w', hrun⟩ := ih { w with toThread := t }
      have hnull : sgVectorResize none n w = .ok (none, { w with toThread := t }) := by
        rw [sgVectorResize, Prog.bind_of_ok (onThread_run hset)]
        rfl
      refine ⟨w', ?_⟩
      rw [resizeAll, Prog.bind_of_ok hnull, Prog.bind_of_ok hrun]
      rfl

section

variable {w : World α} {p : Ptr} {v : SgVector α} {n : Nat}

/-- A resize that succeeds moves the items exactly if the rounded count is not the recorded one. -/
theorem sgVectorResize_moves (hf : w.Fresh) (hw : w.Plenty) (hb : w.bounded = false) (hn : n ≠ 0)
    (hv : w.store p = some v) (hfit : Fits n v.blockShift v.info) :
    ∃ q w' v', sgVectorResize (some p) n w = .ok (some q, w') ∧ w'.Fresh ∧ w'.Plenty ∧
      w'.bounded = false ∧ w'.store q = some v' ∧ v.ResizedTo v' n ∧
      (q ≠ p ↔ roundUp n v.blockShift ≠ v.allocCount) := by
  obtain ⟨q, w', v', hrun, hand, hq, hres, -, hplenty⟩ := sgVectorResize_run hf hn hv
    (w.inBlock_of_unbounded hb _ _) hfit (fun _ => w.inBlock_of_unbounded hb _ _) (fun _ => hw 0)
  refine ⟨q, w', v', hrun, hand.fresh hf, hplenty hw, hand.bounded.trans hb, hq, hres, ?_⟩
  by_cases hround : roundUp n v.blockShift = v.allocCount
  · have hkeep := sgVectorResize_keep hn hv (w.inBlock_of_unbounded hb _ _)
      (hfit.nextPower2In_eq.trans hround) (w.inBlock_of_unbounded hb _ _)
    rw [hrun] at hkeep
    cases hkeep
    simp [hround]
  · have hmove := sgVectorResize_move hn hv (w.inBlock_of_unbounded hb _ _)
      (by rwa [hfit.nextPower2In_eq]) hfit.blockBytes_ne_zero (hw 0) (w.inBlock_of_unbounded hb _ _)
    rw [hrun] at hmove
    cases hmove
    simp [hround, (hf.lt hv).ne']

theorem resizeAll_reallocations (ns : List Nat) (hf : w.Fresh) (hw : w.Plenty)
    (hb : w.bounded = false) (hv : w.store p = some v)
    (hfit : ∀ n ∈ ns, n ≠ 0 → Fits n v.blockShift v.info) :
    ∃ r w', resizeAll (some p) ns w
      = .ok ((reallocations v.blockShift v.allocCount ns, r), w') := by
  induction ns generalizing w p v with
  | nil => exact ⟨some p, w, rfl⟩
  | cons n ns ih =>
      by_cases hn : n = 0
      · subst hn
        obtain ⟨w', hrun⟩ := resizeAll_null ns ((w.shrink p v 0).drop p).cleared
        refine ⟨none, w', ?_⟩
        rw [resizeAll, Prog.bind_of_ok (sgVectorResize_zero hv (w.inBlock_of_unbounded hb _ _)),
          Prog.bind_of_ok hrun]
        rfl
      · obtain ⟨q, w1, v1, hrun, hf1, hw1, hb1, hq, hres, hmoved⟩ :=
          sgVectorResize_moves hf hw hb hn hv (hfit n List.mem_cons_self hn)
        obtain ⟨r, w', hrest⟩ := ih hf1 hw1 hb1 hq (fun m hm hm0 => by
          rw [hres.blockShift, hres.info]
          exact hfit m (List.mem_cons_of_mem n hm) hm0)
        refine ⟨r, w', ?_⟩
        have hdecide : decide ((some q).isSome ∧ some q ≠ some p)
            = decide (roundUp n v.blockShift ≠ v.allocCount) := by
          simpa [not_iff_not] using hmoved
        rw [resizeAll, Prog.bind_of_ok hrun, Prog.bind_of_ok hrest, reallocations, if_neg hn,
          hres.blockShift, hres.allocCount]
        simp only [Prog.pure_run]
        rw [hdecide]

end

/-! ### Clones -/

/-- The vector at `q` has the specification and the items of `s`, which is still at `src`, and every
sequence of resizes makes the same reallocations on the one as on the other. -/
structure World.SameVector (w : World α) (src q : Ptr) (s : SgVector α) : Prop where
  source : w.store src = some s
  fields : ∃ v, w.store q = some v ∧ v.info = s.info ∧ v.blockShift = s.blockShift ∧
    v.allocCount = s.allocCount ∧ v.usedCount = s.usedCount ∧ v.items = s.items
  resizes : ∀ ns : List Nat, (∀ n ∈ ns, n ≠ 0 → Fits n s.blockShift s.info) →
    ∃ moves r r' w₁ w₂, resizeAll (some src) ns w = .ok ((moves, r), w₁) ∧
      resizeAll (some q) ns w = .ok ((moves, r'), w₂)

/-- A clone is the same vector exactly if the source is recorded with one block. -/
theorem sgVectorClone_same_iff (w : World α) (src : Ptr) (s : SgVector α) (hf : w.Fresh)
    (hw : w.Plenty) (hb : w.bounded = false) (hs : w.store src = some s) (hcopies : s.info.Copies)
    (hfit : Fits (max s.allocCount s.usedCount) s.blockShift s.info) :
    (∃ q w', sgVectorClone (some src) w = .ok (some q, w') ∧ w'.SameVector src q s) ↔
      s.allocCount = 2 ^ s.blockShift := by
  rcases sgVectorClone_run hf hs hcopies (w.inBlock_of_unbounded hb _ _) hfit with
    ⟨q, w', v, hrun, hcopy, hfor⟩ | ⟨rc, w', -, hfail⟩
  case inr => exact absurd hw hfail.memory
  constructor
  · rintro ⟨q', w'', hrun', hsame⟩
    rw [hrun] at hrun'
    cases hrun'
    obtain ⟨u, hu, -, -, halloc, -⟩ := hsame.fields
    rw [hcopy.store] at hu
    cases hu
    rw [copied_allocCount, hfor.allocCount] at halloc
    exact halloc.symm
  · intro halloc
    have hsrc : w'.store src = some s := hcopy.handover.live hf hs (by simp)
    have hshift : (v.copied s 0 s.usedCount).blockShift = s.blockShift := hfor.blockShift
    have hrecord : (v.copied s 0 s.usedCount).allocCount = s.allocCount :=
      hfor.allocCount.trans halloc.symm
    have hinfo : (v.copied s 0 s.usedCount).info = s.info := hfor.info
    have hfresh := hcopy.handover.fresh hf
    have hplenty := hcopy.plenty hw
    have hbounded := hcopy.handover.bounded.trans hb
    refine ⟨q, w', hrun, hsrc, ⟨_, hcopy.store, hinfo, hshift, hrecord, hcopy.used,
      copied_items hcopy.used⟩, ?_⟩
    intro ns hns
    obtain ⟨r, w₁, hleft⟩ := resizeAll_reallocations ns hfresh hplenty hbounded hsrc hns
    obtain ⟨r', w₂, hright⟩ := resizeAll_reallocations ns hfresh hplenty hbounded hcopy.store
      (by rwa [hshift, hinfo])
    rw [hshift, hrecord] at hright
    exact ⟨_, r, r', w₁, w₂, hleft, hright⟩

/-- A world without vectors and without a bound on the slots. -/
def roomyWorld (α : Type) [Inhabited α] : World α := { emptyWorld α with bounded := false }

/-- A vector of two counters in one block. -/
theorem sgVectorClone_same_counters :
    ∃ w s, (VecOp.create 16 16 2 counterInfo).run (roomyWorld Nat) = .ok ((), w) ∧
      w.store 0 = some s ∧
      ∃ q w', sgVectorClone (some 0) w = .ok (some q, w') ∧ w'.SameVector 0 q s := by
  refine ⟨_, _, rfl, rfl, ?_⟩
  refine (sgVectorClone_same_iff _ 0 _ ?_ (fun _ => rfl) rfl rfl counterInfo_full.copies
    (counterInfo_fits (by decide) (by decide))).mpr rfl
  intro p hp
  cases p with
  | zero => exact absurd hp (Nat.not_succ_le_zero 0)
  | succ p => rfl

/-- A vector of two counters in two blocks of one: the clone is recorded with one block, and a resize to
two, which leaves the source in its block, reallocates the clone. -/
theorem sgVectorClone_not_same :
    ∃ w s q w', (do
        (VecOp.create 1 1 1 counterInfo).run
        (VecOp.resize 0 2).run : VecM Nat Unit) (roomyWorld Nat) = .ok ((), w) ∧
      w.store 1 = some s ∧ sgVectorClone (some 1) w = .ok (some q, w') ∧
      (∃ r w₁, resizeAll (some 1) [2] w' = .ok (([false], r), w₁)) ∧
      (∃ r w₁, resizeAll (some q) [2] w' = .ok (([true], r), w₁)) ∧
      ¬ w'.SameVector 1 q s := by
  obtain ⟨w, s, hreach, hs, hf, hw, hb, hshift, halloc, hused, hinfo⟩ : ∃ w s, (do
        (VecOp.create 1 1 1 counterInfo).run
        (VecOp.resize 0 2).run : VecM Nat Unit) (roomyWorld Nat) = .ok ((), w) ∧
      w.store 1 = some s ∧ w.Fresh ∧ w.Plenty ∧ w.bounded = false ∧ s.blockShift = 0 ∧
      s.allocCount = 2 ∧ s.usedCount = 2 ∧ s.info = counterInfo := by
    refine ⟨_, _, rfl, rfl, ?_, fun _ => rfl, rfl, rfl, rfl, rfl, rfl⟩
    intro p hp
    match p, hp with
    | p + 2, _ => rfl
  have hfit : Fits (max s.allocCount s.usedCount) s.blockShift s.info := by
    rw [hshift, halloc, hused, hinfo]
    exact counterInfo_fits (by decide) (by decide)
  have hcopies : s.info.Copies := hinfo ▸ counterInfo_full.copies
  have hns : ∀ n ∈ [2], n ≠ 0 → Fits n 0 counterInfo := by
    intro n hn _
    rw [List.mem_singleton.mp hn]
    exact counterInfo_fits (by decide) (by decide)
  rcases sgVectorClone_run hf hs hcopies (w.inBlock_of_unbounded hb _ _) hfit with
    ⟨q, w', v, hrun, hcopy, hfor⟩ | ⟨rc, w', -, hfail⟩
  case inr => exact absurd hw hfail.memory
  have hfresh := hcopy.handover.fresh hf
  have hplenty := hcopy.plenty hw
  have hbounded := hcopy.handover.bounded.trans hb
  have hsrc : w'.store 1 = some s := hcopy.handover.live hf hs (by simp)
  have hclone : v.allocCount = 1 := by rw [hfor.allocCount, hshift, Nat.pow_zero]
  obtain ⟨r, w₁, hleft⟩ := resizeAll_reallocations [2] hfresh hplenty hbounded hsrc
    (by rwa [hshift, hinfo])
  obtain ⟨r', w₂, hright⟩ := resizeAll_reallocations [2] hfresh hplenty hbounded hcopy.store
    (by rwa [copied_blockShift, copied_info, hfor.blockShift, hfor.info, hshift, hinfo])
  rw [hshift, halloc] at hleft
  rw [copied_blockShift, copied_allocCount, hfor.blockShift, hshift, hclone] at hright
  refine ⟨w, s, q, w', hreach, hs, hrun, ⟨r, w₁, hleft⟩, ⟨r', w₂, hright⟩, ?_⟩
  intro hsame
  obtain ⟨u, hu, -, -, hrecord, -⟩ := hsame.fields
  rw [hcopy.store] at hu
  cases hu
  rw [copied_allocCount, hclone, halloc] at hrecord
  exact absurd hrecord (by decide)

end Statgrab
