import Statgrab.Lib.Run
import Statgrab.Vector.CloneInto

/-!
# Capacity over whole runs

A vector has a recorded capacity, `alloc_count`, and a real one, the slots of the block it was last
allocated. `sg_vector_create_int` records one block whatever it allocated, and `sg_vector_resize`
trusts the record when it decides to keep the block. The two agree well enough as long as the block
was not empty: then the record is at most what is there. A vector created for no items has an empty
block and a record of one block, and the first resize within that record writes outside.
-/

namespace Statgrab

variable {α : Type}

inductive VecOp (α : Type) where
  | create (blockSize allocCount initialUsed : Nat) (info : VectorInitInfo α)
  | resize (p : Ptr) (newCount : Nat)
  | clear (p : Ptr)
  | clone (src : Ptr)
  | cloneInto (dest : Option Ptr) (src : Ptr)

namespace VecOp

/-- The call, with its result thrown away. -/
def run : VecOp α → VecM α Unit
  | .create blockSize allocCount initialUsed info => do
      let _ ← sgVectorCreate blockSize allocCount initialUsed info
  | .resize p newCount => do
      let _ ← sgVectorResize (some p) newCount
  | .clear p => sgVectorClear (some p)
  | .clone src => do
      let _ ← sgVectorClone (some src)
  | .cloneInto dest src => do
      let _ ← sgVectorCloneInto dest (some src)

/-- The byte sizes a clone of `s` asks for are a `size_t`. -/
def CloneFits (s : SgVector α) : Prop :=
  Fits (max s.allocCount s.usedCount) s.blockShift s.info

/-- What the caller owes: live vectors, compatible ones where two meet, a block size of at most
`2 ^ 31`, an item type with all its functions, and byte sizes that do not overflow. -/
def Valid (w : World α) : VecOp α → Prop
  | .create blockSize allocCount initialUsed info =>
      blockSize ≤ 2 ^ 31 ∧ info.Full ∧
        ∀ shift, blockShiftOf blockSize = some shift → Fits (max allocCount initialUsed) shift info
  | .resize p newCount =>
      ∃ v, w.store p = some v ∧ (newCount ≠ 0 → Fits newCount v.blockShift v.info)
  | .clear p => ∃ v, w.store p = some v
  | .clone src => ∃ s, w.store src = some s ∧ CloneFits s
  | .cloneInto none src => ∃ s, w.store src = some s ∧ CloneFits s
  | .cloneInto (some dest) src =>
      ∃ s d, w.store src = some s ∧ w.store dest = some d ∧ d.info = s.info ∧
        Fits s.usedCount d.blockShift d.info

end VecOp

/-- The block of `v` is empty, and the record says that `n` items fit without a reallocation. -/
def SgVector.Unbacked (v : SgVector α) (n : Nat) : Prop :=
  v.slots = 0 ∧ n ≠ 0 ∧ roundUp n v.blockShift = v.allocCount

/-- The call fills a vector with an empty block up to a count its record covers. -/
def VecOp.Overfills (w : World α) : VecOp α → Prop
  | .resize p newCount => ∃ v, w.store p = some v ∧ v.Unbacked newCount
  | .cloneInto (some dest) src =>
      ∃ s d, w.store src = some s ∧ w.store dest = some d ∧ d.Unbacked s.usedCount
  | _ => False

/-- No vector uses more items than its block has slots for. -/
def World.WithinBlocks (w : World α) : Prop :=
  ∀ p v, w.store p = some v → v.usedCount ≤ v.slots

/-- What is asked of a call: no item function leaves its block, and afterwards every vector is within
its block. -/
def VecOp.StaysInside (w : World α) (op : VecOp α) : Prop :=
  op.run w ≠ .error .outOfBlock ∧ ∀ w', op.run w = .ok ((), w') → w'.WithinBlocks

/-! ### The invariant -/

/-- The record and the block of a vector, as the functions leave them. -/
structure SgVector.Backed (v : SgVector α) : Prop where
  within : v.usedCount ≤ v.slots
  record : v.slots ≠ 0 → v.allocCount ≤ v.slots
  full : v.info.Full

theorem SgVector.CreatedFor.backed {v : SgVector α} {shift n used : Nat}
    {info : VectorInitInfo α} (h : v.CreatedFor shift n used info) (hle : used ≤ n)
    (hfull : info.Full) : v.Backed := by
  refine ⟨?_, ?_, h.info ▸ hfull⟩
  · rw [h.usedCount, h.slots]
    exact le_trans hle (le_roundUp n shift)
  · intro hne
    rw [h.slots] at hne ⊢
    rw [h.allocCount]
    apply block_le_roundUp
    by_contra hn
    exact hne (by rw [Nat.eq_zero_of_not_pos hn, roundUp_zero])

theorem SgVector.ResizedTo.backed {v v' : SgVector α} {n : Nat} (h : v.ResizedTo v' n)
    (hv : v.Backed) (hn : n ≠ 0) (hbad : ¬ v.Unbacked n) : v'.Backed := by
  have hle := le_roundUp n v.blockShift
  have hinfo : v'.info.Full := h.info ▸ hv.full
  by_cases hround : roundUp n v.blockShift = v.allocCount
  · have hslots : v.slots ≠ 0 := fun h0 => hbad ⟨h0, hn, hround⟩
    have hrec := hv.record hslots
    refine ⟨?_, fun _ => ?_, hinfo⟩
    · rw [h.usedCount, h.slots, if_pos hround]
      omega
    · rw [h.allocCount, h.slots, if_pos hround]
      omega
  · refine ⟨?_, fun _ => ?_, hinfo⟩
    · rw [h.usedCount, h.slots, if_neg hround]
      exact hle
    · rw [h.allocCount, h.slots, if_neg hround]

theorem SgVector.Backed.copied {v : SgVector α} (h : v.Backed) (s : SgVector α) (i n : Nat) :
    (v.copied s i n).Backed := ⟨h.within, h.record, h.full⟩

theorem SgVector.Backed.destroyUnused {v : SgVector α} (h : v.Backed) (n : Nat) :
    (v.destroyUnused n).Backed := by
  refine ⟨?_, ?_, by simpa using h.full⟩
  · have := h.within
    simp only [destroyUnused_usedCount, destroyUnused_slots]
    omega
  · simpa using h.record

/-- The states of a run without allocation failures. -/
structure World.Sound (w : World α) : Prop where
  fresh : w.Fresh
  plenty : w.Plenty
  bounded : w.bounded = true
  backed : ∀ p v, w.store p = some v → v.Backed

namespace World.Sound

variable {w w' : World α} {a b : Option Ptr}

theorem inBlock (h : w.Sound) {p : Ptr} {v : SgVector α} (hv : w.store p = some v) :
    w.InBlock v v.usedCount := fun _ => (h.backed p v hv).within

theorem withinBlocks (h : w.Sound) : w.WithinBlocks := fun p v hv => (h.backed p v hv).within

/-- A handover whose new vector is backed keeps the invariant. -/
theorem handover (h : w.Sound) (hand : w.Handover w' a b) (hplenty : w'.Plenty)
    (hnew : ∀ p v, b = some p → w'.store p = some v → v.Backed) : w'.Sound := by
  refine ⟨hand.fresh h.fresh, hplenty, hand.bounded.trans h.bounded, ?_⟩
  intro p v hv
  rcases hand.live_cases h.fresh hv with hold | hb
  · exact h.backed p v hold
  · exact hnew p v hb hv

theorem copyOf {q : Ptr} {s v : SgVector α} (h : w.Sound) (hcopy : w.CopyOf w' a q s v)
    (hv : v.Backed) : w'.Sound := by
  apply h.handover hcopy.handover (hcopy.plenty h.plenty)
  intro p u hp hu
  cases hp
  rw [hcopy.store] at hu
  cases hu
  exact hv.copied s 0 s.usedCount

theorem notFailed {rc : SgError} (h : w.Sound) (hfail : w.Failed w' a rc) : False :=
  hfail.memory h.plenty

end World.Sound

/-! ### One call -/

section Step

variable {w : World α}

theorem create_step (h : w.Sound) {blockSize allocCount initialUsed : Nat}
    {info : VectorInitInfo α}
    (hvalid : (VecOp.create blockSize allocCount initialUsed info).Valid w) :
    ∃ w', (VecOp.create blockSize allocCount initialUsed info).run w = .ok ((), w') ∧
      w'.Sound := by
  obtain ⟨hsize, hfull, hfits⟩ := hvalid
  obtain ⟨shift, hshift, -⟩ := blockShiftOf_isSome hsize
  obtain ⟨w', v, hrun, hand, hv, hfor, -, hplenty⟩ :=
    sgVectorCreateInt_created (w := w) (hfits shift hshift) (h.plenty 0)
  refine ⟨w', ?_, h.handover hand (hplenty h.plenty) ?_⟩
  · rw [VecOp.run, sgVectorCreate, hshift, Prog.bind_of_ok hrun]
    rfl
  · intro p u hp hu
    cases hp
    rw [hv] at hu
    cases hu
    exact hfor.backed (le_max_right _ _) hfull

theorem clone_step (h : w.Sound) {src : Ptr} {s : SgVector α} (hs : w.store src = some s)
    (hfit : VecOp.CloneFits s) :
    ∃ q w', sgVectorClone (some src) w = .ok (some q, w') ∧ w'.Sound := by
  have hb := h.backed src s hs
  rcases sgVectorClone_run h.fresh hs hb.full.copies (h.inBlock hs) hfit with
    ⟨q, w', v, hrun, hcopy, hfor⟩ | ⟨rc, w', -, hfail⟩
  · exact ⟨q, w', hrun, h.copyOf hcopy (hfor.backed (le_max_right _ _) hb.full)⟩
  · exact (h.notFailed hfail).elim

theorem cloneInto_none_step (h : w.Sound) {src : Ptr} {s : SgVector α}
    (hs : w.store src = some s) (hfit : VecOp.CloneFits s) :
    ∃ r w', sgVectorCloneInto none (some src) w = .ok (r, w') ∧ w'.Sound := by
  have hb := h.backed src s hs
  rcases sgVectorCloneInto_none h.fresh hs hb.full.copies (h.inBlock hs) hfit with
    ⟨q, w', v, hrun, hcopy, hfor⟩ | ⟨rc, w', -, hfail⟩
  · exact ⟨_, w', hrun, h.copyOf hcopy (hfor.backed (le_max_right _ _) hb.full)⟩
  · exact (h.notFailed hfail).elim

theorem SgVector.Backed.room {d : SgVector α} (hd : d.Backed) {n : Nat} (hn : n ≠ 0)
    (hbad : ¬ d.Unbacked n) (hround : roundUp n d.blockShift = d.allocCount) : n ≤ d.slots := by
  have hrec := hd.record fun h0 => hbad ⟨h0, hn, hround⟩
  have hle := le_roundUp n d.blockShift
  omega

theorem cloneInto_some_step (h : w.Sound) {dest src : Ptr} {d s : SgVector α}
    (hs : w.store src = some s) (hd : w.store dest = some d)
    (hfit : Fits s.usedCount d.blockShift d.info) (hbad : ¬ d.Unbacked s.usedCount) :
    ∃ r w', sgVectorCloneInto (some dest) (some src) w = .ok (r, w') ∧ w'.Sound := by
  have hbs := h.backed src s hs
  have hbd := h.backed dest d hd
  by_cases hused : d.usedCount = s.usedCount ∨ s.usedCount ≠ 0
  · have hsafe : w.ResizeSafe d s.usedCount := by
      rcases hused with heq | hne
      · exact .inl heq
      · refine .inr ⟨hne, ?_⟩
        by_cases hround : roundUp s.usedCount d.blockShift = d.allocCount
        · rw [if_pos hround]
          exact fun _ => hbd.room hne hbad hround
        · rw [if_neg hround]
          exact h.plenty 0
    rcases sgVectorCloneInto_some h.fresh hd hs hbs.full.copies (h.inBlock hd) (h.inBlock hs)
        (fun _ => hfit) hsafe with ⟨q, w', v, hrun, hcopy, hsized, -⟩ | ⟨rc, w', -, hfail⟩
    · refine ⟨_, w', hrun, h.copyOf hcopy ?_⟩
      rcases hsized with ⟨rfl, -⟩ | ⟨-, hne, hres⟩
      · exact hbd
      · exact hres.backed hbd hne hbad
    · exact (h.notFailed hfail).elim
  · rw [not_or, not_not] at hused
    obtain ⟨hne, hs0⟩ := hused
    obtain ⟨w', hrun, hand, hplenty⟩ :=
      sgVectorCloneInto_empty h.fresh hd hs (h.inBlock hd) hs0 (hs0 ▸ hne)
    refine ⟨_, w', hrun, h.handover hand (hplenty h.plenty) ?_⟩
    intro p v hp
    cases hp

theorem resize_step (h : w.Sound) {p : Ptr} {v : SgVector α} {n : Nat} (hv : w.store p = some v)
    (hfit : n ≠ 0 → Fits n v.blockShift v.info) (hbad : ¬ v.Unbacked n) :
    ∃ q w', sgVectorResize (some p) n w = .ok (q, w') ∧ w'.Sound := by
  have hb := h.backed p v hv
  by_cases hn : n = 0
  · rw [hn]
    refine ⟨none, _, sgVectorResize_zero hv (h.inBlock hv), ?_⟩
    have hand := ((World.Handover.own (h.fresh.lt hv)).shrink v 0).drop.cleared
    refine h.handover hand (fun n => h.plenty n) ?_
    intro q u hq
    cases hq
  · obtain ⟨q, w', v', hrun, hand, hq, hres, -, hplenty⟩ :=
      sgVectorResize_run h.fresh hn hv (h.inBlock hv) (hfit hn)
        (fun hround _ => hb.room hn hbad hround) (fun _ => h.plenty 0)
    refine ⟨some q, w', hrun, h.handover hand (hplenty h.plenty) ?_⟩
    intro r u hr hu
    cases hr
    rw [hq] at hu
    cases hu
    exact hres.backed hb hn hbad

theorem unbacked_not_inBlock (h : w.Sound) {v : SgVector α} {n : Nat} (hbad : v.Unbacked n) :
    ¬ w.InBlock v n := by
  intro hroom
  have hle := hroom h.bounded
  rw [hbad.1] at hle
  exact hbad.2.1 (Nat.le_zero.mp hle)

end Step

namespace VecOp

variable {w : World α} {op : VecOp α}

theorem step (h : w.Sound) (hvalid : op.Valid w) (hgood : ¬ op.Overfills w) :
    ∃ w', op.run w = .ok ((), w') ∧ w'.Sound := by
  cases op with
  | create blockSize allocCount initialUsed info => exact create_step h hvalid
  | resize p n =>
      obtain ⟨v, hv, hfit⟩ := hvalid
      obtain ⟨q, w', hrun, hsound⟩ := resize_step h hv hfit fun hbad => hgood ⟨v, hv, hbad⟩
      refine ⟨w', ?_, hsound⟩
      rw [run, Prog.bind_of_ok hrun]
      rfl
  | clear p =>
      obtain ⟨v, hv⟩ := hvalid
      have hand := (World.Handover.own (h.fresh.lt hv)).shrink v 0
      refine ⟨_, sgVectorClear_run hv (h.inBlock hv), h.handover hand h.plenty ?_⟩
      intro q u hq hu
      cases hq
      rw [shrink_store, Function.update_self] at hu
      cases hu
      exact (h.backed p v hv).destroyUnused 0
  | clone src =>
      obtain ⟨s, hs, hfit⟩ := hvalid
      obtain ⟨q, w', hrun, hsound⟩ := clone_step h hs hfit
      refine ⟨w', ?_, hsound⟩
      rw [run, Prog.bind_of_ok hrun]
      rfl
  | cloneInto dest src =>
      have hinto : ∃ r w', sgVectorCloneInto dest (some src) w = .ok (r, w') ∧ w'.Sound := by
        cases dest with
        | none =>
            obtain ⟨s, hs, hfit⟩ := hvalid
            exact cloneInto_none_step h hs hfit
        | some dest =>
            obtain ⟨s, d, hs, hd, -, hfit⟩ := hvalid
            exact cloneInto_some_step h hs hd hfit fun hbad => hgood ⟨s, d, hs, hd, hbad⟩
      obtain ⟨r, w', hrun, hsound⟩ := hinto
      refine ⟨w', ?_, hsound⟩
      rw [run, Prog.bind_of_ok hrun]
      rfl

theorem run_of_overfills (h : w.Sound) (hvalid : op.Valid w) (hbad : op.Overfills w) :
    op.run w = .error .outOfBlock := by
  cases op with
  | create | clear | clone => exact hbad.elim
  | resize p n =>
      obtain ⟨v, hv, hbad⟩ := hbad
      obtain ⟨v', hv', hfit⟩ := hvalid
      rw [hv] at hv'
      cases hv'
      exact Prog.bind_of_error (sgVectorResize_outOfBlock hv (h.inBlock hv)
        (h.backed p v hv).full.init hbad.2.1 ((hfit hbad.2.1).nextPower2In_eq.trans hbad.2.2)
        (unbacked_not_inBlock h hbad)) _
  | cloneInto dest src =>
      cases dest with
      | none => exact hbad.elim
      | some dest =>
          obtain ⟨s, d, hs, hd, hbad⟩ := hbad
          obtain ⟨s', d', hs', hd', -, hfit⟩ := hvalid
          rw [hs] at hs'
          rw [hd] at hd'
          cases hs'
          cases hd'
          have hback := h.backed dest d hd
          have hne : d.usedCount ≠ s.usedCount := by
            have hwithin := hback.within
            rw [hbad.1] at hwithin
            have hpos := hbad.2.1
            omega
          have hresize := sgVectorResize_outOfBlock hd (h.inBlock hd) hback.full.init hbad.2.1
            (hfit.nextPower2In_eq.trans hbad.2.2) (unbacked_not_inBlock h hbad)
          exact Prog.bind_of_error (sgVectorCloneInto_outOfBlock hd hs hne hresize) _

theorem staysInside_iff (h : w.Sound) (hvalid : op.Valid w) :
    op.StaysInside w ↔ ¬ op.Overfills w := by
  constructor
  · intro hstay hbad
    exact hstay.1 (run_of_overfills h hvalid hbad)
  · intro hgood
    obtain ⟨w', hrun, hsound⟩ := step h hvalid hgood
    refine ⟨by simp [hrun], ?_⟩
    intro w'' hrun'
    rw [hrun] at hrun'
    cases hrun'
    exact hsound.withinBlocks

end VecOp

/-- In every run of calls from a world without vectors, in which allocations succeed and sizes do not
overflow, all item functions stay inside their blocks and all vectors within theirs exactly if no call
fills a vector with an empty block on the strength of its record. -/
theorem capacity_iff (w : World α) (ops : List (VecOp α)) (hempty : ∀ p, w.store p = none)
    (hplenty : w.Plenty) (hbounded : w.bounded = true)
    (hvalid : Prog.Always VecOp.run VecOp.Valid w ops) :
    Prog.Always VecOp.run VecOp.StaysInside w ops ↔
      Prog.Always VecOp.run (fun w op => ¬ op.Overfills w) w ops := by
  have hsound : w.Sound := by
    refine ⟨fun p _ => hempty p, hplenty, hbounded, ?_⟩
    intro p v hv
    rw [hempty] at hv
    cases hv
  refine Prog.Always.congr (I := World.Sound) ?_ ?_ hsound hvalid
  · intro w op hw hv
    exact VecOp.staysInside_iff hw hv
  · intro w op w' hw hv hgood hrun
    obtain ⟨w'', hrun', hsound'⟩ := VecOp.step hw hv hgood
    rw [hrun] at hrun'
    cases hrun'
    exact hsound'

def emptyWorld (α : Type) [Inhabited α] : World α :=
  { glob := .clear, mem := fun _ => true, store := fun _ => none, next := 0
    raw := fun _ _ => default, bounded := true, inits := 0, destroys := 0, frees := fun _ => 0 }

theorem create_counters_valid {blockSize allocCount initialUsed shift : Nat} (w : World Nat)
    (hsize : blockSize ≤ 2 ^ 31) (hshift : blockShiftOf blockSize = some shift) (hle : shift ≤ 4)
    (hn : max allocCount initialUsed ≤ 16) :
    (VecOp.create blockSize allocCount initialUsed counterInfo).Valid w := by
  refine ⟨hsize, counterInfo_full, ?_⟩
  intro shift' hshift'
  rw [hshift] at hshift'
  cases hshift'
  exact counterInfo_fits hle hn

/-- A vector grows to two counters and is cloned. -/
theorem capacity_counters :
    Prog.Always VecOp.run VecOp.StaysInside (emptyWorld Nat)
      [.create 16 16 1 counterInfo, .resize 0 2, .clone 0] := by
  refine (capacity_iff _ _ (fun _ => rfl) (fun _ => rfl) rfl ?_).mpr ?_
  · rw [Prog.always_cons_of_ok rfl, Prog.always_cons_of_ok rfl, Prog.always_cons_of_ok rfl]
    refine ⟨create_counters_valid _ (by decide) (by decide) (le_refl 4) (by decide), ?_, ?_, trivial⟩
    · exact ⟨_, rfl, fun _ => counterInfo_fits (by decide) (by decide)⟩
    · exact ⟨_, rfl, counterInfo_fits (by decide) (by decide)⟩
  · rw [Prog.always_cons_of_ok rfl, Prog.always_cons_of_ok rfl, Prog.always_cons_of_ok rfl]
    refine ⟨id, ?_, id, trivial⟩
    rintro ⟨v, hv, hslots, -⟩
    cases hv
    exact absurd hslots (by decide)

/-- The vectors of a diff whose previous snapshot was empty: the difference vector is created for no
items, and the new snapshot of one item is cloned into it. -/
theorem capacity_empty_diff :
    Prog.Always VecOp.run VecOp.Valid (emptyWorld Nat)
      [.create 0 0 0 counterInfo, .create 16 16 1 counterInfo, .cloneInto (some 0) 1] ∧
    ¬ Prog.Always VecOp.run VecOp.StaysInside (emptyWorld Nat)
      [.create 0 0 0 counterInfo, .create 16 16 1 counterInfo, .cloneInto (some 0) 1] := by
  constructor
  · rw [Prog.always_cons_of_ok rfl, Prog.always_cons_of_ok rfl]
    refine ⟨create_counters_valid _ (by decide) (by decide) (Nat.zero_le 4) (by decide),
      create_counters_valid _ (by decide) (by decide) (le_refl 4) (by decide), ?_, ?_⟩
    · exact ⟨_, _, rfl, rfl, rfl, counterInfo_fits (by decide) (by decide)⟩
    · intro w' hrun
      cases hrun
  · rw [Prog.always_cons_of_ok rfl, Prog.always_cons_of_ok rfl]
    intro h
    exact h.2.2.1.1 rfl

end Statgrab
