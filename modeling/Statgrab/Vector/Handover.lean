import Statgrab.Vector.Spec

/-!
# Who owns which vector

A variable of type `sg_vector *` owns the vector it points to. The functions of `vector.c` take such
a variable over and hand it back: resizing moves the vector, freeing empties the variable, creating
fills it. `Handover w w' old new` says that this is all that happened between two worlds: the variable
went from `old` to `new`, the old vector is gone unless the variable still holds it, it was given back
exactly once, and every other vector is as it was. Handovers compose, so a function's footprint is
read off the functions it calls.
-/

namespace Statgrab

open Function (update)

variable {α : Type}

/-- One variable went from `old` to `new`, and no other vector was touched. -/
structure World.Handover (w w' : World α) (old new : Option Ptr) : Prop where
  held : ∀ p, old = some p → p < w.next
  frame : ∀ p, p < w.next → old ≠ some p → w'.store p = w.store p
  gone : ∀ p, old = some p → new ≠ some p → w'.store p = none
  kept : ∀ p, new = some p → p < w'.next ∧ (old = some p ∨ w.next ≤ p)
  mono : w.next ≤ w'.next
  only : w.Fresh → ∀ p, w.next ≤ p → new ≠ some p → w'.store p = none
  frees : ∀ p, p < w.next →
    w'.frees p = w.frees p + if old = some p ∧ new ≠ some p then 1 else 0
  bounded : w'.bounded = w.bounded
  raw : w'.raw = w.raw

theorem World.Fresh.lt {w : World α} (hf : w.Fresh) {p : Ptr} {v : SgVector α}
    (hv : w.store p = some v) : p < w.next := by
  by_contra hp
  rw [hf p (not_lt.mp hp)] at hv
  cases hv

namespace World.Handover

variable {w w' w'' : World α} {a b c : Option Ptr}

/-- The variable does not end at a vector that it did not own before. -/
theorem avoids (h : w.Handover w' a b) {p : Ptr} (hp : p < w.next) (ha : a ≠ some p) :
    b ≠ some p := by
  intro hb
  rcases (h.kept p hb).2 with hold | hnew
  · exact ha hold
  · exact absurd hp (not_lt.mpr hnew)

theorem fresh (h : w.Handover w' a b) (hf : w.Fresh) : w'.Fresh := by
  intro p hp
  apply h.only hf p (le_trans h.mono hp)
  intro hb
  exact absurd (h.kept p hb).1 (not_lt.mpr hp)

theorem trans (h : w.Handover w' a b) (h' : w'.Handover w'' b c) : w.Handover w'' a c := by
  refine ⟨h.held, ?_, ?_, ?_, le_trans h.mono h'.mono, ?_, ?_,
    h'.bounded.trans h.bounded, h'.raw.trans h.raw⟩
  · intro p hp ha
    rw [h'.frame p (lt_of_lt_of_le hp h.mono) (h.avoids hp ha), h.frame p hp ha]
  · intro p ha hc
    by_cases hb : b = some p
    · exact h'.gone p hb hc
    · rw [h'.frame p (lt_of_lt_of_le (h.held p ha) h.mono) hb]
      exact h.gone p ha hb
  · intro p hc
    obtain ⟨hlt, hb | hge⟩ := h'.kept p hc
    · exact ⟨hlt, (h.kept p hb).2⟩
    · exact ⟨hlt, .inr (le_trans h.mono hge)⟩
  · intro hf p hp hc
    by_cases hb : b = some p
    · exact h'.gone p hb hc
    · by_cases hlt : p < w'.next
      · rw [h'.frame p hlt hb]
        exact h.only hf p hp hb
      · exact h'.only (h.fresh hf) p (not_lt.mp hlt) hc
  · intro p hp
    rw [h'.frees p (lt_of_lt_of_le hp h.mono), h.frees p hp]
    by_cases ha : a = some p
    · by_cases hb : b = some p
      · simp [ha, hb]
      · have hc : c ≠ some p := h'.avoids (lt_of_lt_of_le hp h.mono) hb
        simp [ha, hb, hc]
    · simp [ha, h.avoids hp ha]

theorem keep {p : Ptr} (hp : p < w.next) (hstore : ∀ q, q ≠ p → w'.store q = w.store q)
    (hnext : w'.next = w.next) (hfrees : w'.frees = w.frees) (hbounded : w'.bounded = w.bounded)
    (hraw : w'.raw = w.raw) : w.Handover w' (some p) (some p) := by
  refine ⟨?_, ?_, ?_, ?_, hnext.ge, ?_, ?_, hbounded, hraw⟩
  · intro q hq
    cases hq
    exact hp
  · intro q _ hq
    exact hstore q (fun h => hq (by rw [h]))
  · intro q hq hne
    exact absurd hq hne
  · intro q hq
    cases hq
    exact ⟨hnext ▸ hp, .inl rfl⟩
  · intro hf q hq _
    rw [hstore q (ne_of_gt (lt_of_lt_of_le hp hq))]
    exact hf q hq
  · intro q _
    rw [hfrees, if_neg (fun h => h.2 h.1)]
    omega

theorem thread (h : w.Handover w' a b) (t : Thread) : w.Handover { w' with toThread := t } a b :=
  ⟨h.held, h.frame, h.gone, h.kept, h.mono, h.only, h.frees, h.bounded, h.raw⟩

theorem answered (h : w.Handover w' a b) : w.Handover w'.answered a b := h.thread _

theorem refused (h : w.Handover w' a b) (size : Nat) : w.Handover (w'.refused size) a b :=
  h.thread _

theorem cleared (h : w.Handover w' a b) : w.Handover w'.cleared a b := h.thread _

theorem idle (w : World α) : w.Handover w none none := by
  refine ⟨?_, fun _ _ _ => rfl, ?_, ?_, le_rfl, fun hf p hp _ => hf p hp, ?_, rfl, rfl⟩
  · intro p hp
    cases hp
  · intro p hp
    cases hp
  · intro p hp
    cases hp
  · intro p _
    simp

theorem own {p : Ptr} (hp : p < w.next) : w.Handover w (some p) (some p) :=
  keep hp (fun _ _ => rfl) rfl rfl rfl rfl

theorem shrink {p : Ptr} (h : w.Handover w' a (some p)) (v : SgVector α) (n : Nat) :
    w.Handover (w'.shrink p v n) a (some p) :=
  h.trans (keep (h.kept p rfl).1 (fun q hq => by simp [hq]) rfl rfl rfl rfl)

theorem grow {p : Ptr} (h : w.Handover w' a (some p)) (v : SgVector α) (n : Nat) :
    w.Handover (w'.grow p v n) a (some p) :=
  h.trans (keep (h.kept p rfl).1 (fun q hq => by simp [hq]) rfl rfl rfl rfl)

theorem put {p : Ptr} (h : w.Handover w' a (some p)) (v : SgVector α) :
    w.Handover (w'.put p v) a (some p) :=
  h.trans (keep (h.kept p rfl).1 (fun q hq => by simp [hq]) rfl rfl rfl rfl)

theorem drop {p : Ptr} (h : w.Handover w' a (some p)) : w.Handover (w'.drop p) a none := by
  have hp := (h.kept p rfl).1
  refine h.trans ⟨fun q hq => (h.kept q hq).1, ?_, ?_, ?_, le_rfl, ?_, ?_, rfl, rfl⟩
  · intro q _ hq
    exact Function.update_of_ne (fun heq => hq (by rw [heq])) _ _
  · intro q hq _
    cases hq
    exact Function.update_self _ _ _
  · intro q hq
    cases hq
  · intro hf q hq _
    rw [drop_store, Function.update_of_ne (ne_of_gt (lt_of_lt_of_le hp hq))]
    exact hf q hq
  · intro q _
    by_cases hq : q = p
    · simp [hq]
    · simp [hq, Ne.symm hq]

theorem place (h : w.Handover w' a none) (v : SgVector α) :
    w.Handover (w'.place v) a (some w'.next) := by
  refine h.trans ⟨?_, ?_, ?_, ?_, by simp, ?_, ?_, rfl, rfl⟩
  · intro p hp
    cases hp
  · intro p hp _
    exact Function.update_of_ne (ne_of_lt hp) _ _
  · intro p hp
    cases hp
  · intro p hp
    cases hp
    exact ⟨Nat.lt_succ_self _, .inr le_rfl⟩
  · intro hf p hp hne
    rw [place_store, Function.update_of_ne (fun heq => hne (by rw [heq]))]
    exact hf p hp
  · intro p _
    simp

theorem live_cases (h : w.Handover w' a b) (hf : w.Fresh) {p : Ptr} {v : SgVector α}
    (hv : w'.store p = some v) : w.store p = some v ∨ b = some p := by
  by_cases hb : b = some p
  · exact .inr hb
  · left
    by_cases hp : p < w.next
    · by_cases ha : a = some p
      · rw [h.gone p ha hb] at hv
        cases hv
      · rwa [h.frame p hp ha] at hv
    · rw [h.only hf p (not_lt.mp hp) hb] at hv
      cases hv

theorem live (h : w.Handover w' a b) (hf : w.Fresh) {p : Ptr} {v : SgVector α}
    (hv : w.store p = some v) (ha : a ≠ some p) : w'.store p = some v := by
  rw [h.frame p (hf.lt hv) ha, hv]

end World.Handover

/-- A function that returns a code left by the error exit: the code is also the thread's error, and
the variable that was `old` is empty. -/
structure World.Failed (w w' : World α) (old : Option Ptr) (rc : SgError) : Prop where
  handover : w.Handover w' old none
  code : rc ≠ .none
  error : w'.error = rc
  memory : ¬ w.Plenty

theorem World.Failed.of_handover {w w1 w' : World α} {a b : Option Ptr} {rc : SgError}
    (hand : w.Handover w1 a b) (hplenty : w.Plenty → w1.Plenty) (h : w1.Failed w' b rc) :
    w.Failed w' a rc :=
  ⟨hand.trans h.handover, h.code, h.error, fun hp => h.memory (hplenty hp)⟩

/-! ### Byte sizes -/

/-- The bytes of a block for `n` items are a `size_t`. -/
structure Fits (n blockShift : Nat) (info : VectorInitInfo α) : Prop where
  shift : blockShift < 64
  item : 0 < info.itemSize
  bytes : vectorSize + roundUp n blockShift * info.itemSize < sizeBound

namespace Fits

variable {n blockShift : Nat} {info : VectorInitInfo α}

theorem nextPower2In_eq (h : Fits n blockShift info) :
    nextPower2In n blockShift = roundUp n blockShift := by
  apply nextPower2In_eq_roundUp h.shift
  have hle : roundUp n blockShift ≤ roundUp n blockShift * info.itemSize :=
    Nat.le_mul_of_pos_right _ h.item
  have := h.bytes
  omega

theorem blockBytes_eq (h : Fits n blockShift info) :
    blockBytes (nextPower2In n blockShift) info
      = vectorSize + roundUp n blockShift * info.itemSize := by
  rw [h.nextPower2In_eq, blockBytes, Nat.mod_eq_of_lt h.bytes]

theorem blockBytes_ne_zero (h : Fits n blockShift info) :
    blockBytes (nextPower2In n blockShift) info ≠ 0 := by
  rw [h.blockBytes_eq]
  simp [vectorSize]

theorem slotsIn_eq (h : Fits n blockShift info) :
    slotsIn (blockBytes (nextPower2In n blockShift) info) info = roundUp n blockShift := by
  rw [h.blockBytes_eq, slotsIn, Nat.add_sub_cancel_left, Nat.mul_div_cancel _ h.item]

end Fits

/-! ### Creating and resizing as handovers -/

structure SgVector.ResizedTo (v v' : SgVector α) (n : Nat) : Prop where
  usedCount : v'.usedCount = n
  allocCount : v'.allocCount = roundUp n v.blockShift
  blockShift : v'.blockShift = v.blockShift
  info : v'.info = v.info
  slots : v'.slots = if roundUp n v.blockShift = v.allocCount then v.slots
    else roundUp n v.blockShift
  cells : ∀ i, i < n → i < v.usedCount → v'.cells i = v.cells i
  fresh : ∀ f, v.info.initFn = some f → ∀ i, v.usedCount ≤ i → i < n → ∃ x, v'.cells i = f x

section

variable {w : World α} {p : Ptr} {v : SgVector α} {n : Nat}

theorem resizedTo_initNew {u : SgVector α} (hcells : ∀ i, i < n → u.cells i = v.cells i)
    (hused : u.usedCount = min v.usedCount n) (halloc : u.allocCount = roundUp n v.blockShift)
    (hshift : u.blockShift = v.blockShift) (hinfo : u.info = v.info)
    (hslots : u.slots = if roundUp n v.blockShift = v.allocCount then v.slots
      else roundUp n v.blockShift) : v.ResizedTo (u.initNew n) n := by
  refine ⟨?_, by simp [halloc], by simp [hshift], by simp [hinfo], by simp [hslots], ?_, ?_⟩
  · rw [initNew_usedCount]
    omega
  · intro i hi hv
    rw [initNew_cells u (by omega), hcells i hi]
  · intro f hf i hv hi
    exact ⟨_, initNew_fresh u (by rw [hinfo, hf]) (by omega) hi⟩

/-- A resize to some items that gets the memory it asks for. -/
theorem sgVectorResize_run (hf : w.Fresh) (hn : n ≠ 0) (hv : w.store p = some v)
    (hb : w.InBlock v v.usedCount) (hfit : Fits n v.blockShift v.info)
    (hroom : roundUp n v.blockShift = v.allocCount → w.InBlock v n)
    (hmem : roundUp n v.blockShift ≠ v.allocCount → w.mem 0 = true) :
    ∃ q w' v', sgVectorResize (some p) n w = .ok (some q, w') ∧
      w.Handover w' (some p) (some q) ∧ w'.store q = some v' ∧ v.ResizedTo v' n ∧
      w'.glob = w.glob ∧ (w.Plenty → w'.Plenty) := by
  have hp := hf.lt hv
  have heq := hfit.nextPower2In_eq
  by_cases hround : roundUp n v.blockShift = v.allocCount
  · refine ⟨p, _, _, sgVectorResize_keep hn hv hb (heq.trans hround) (hroom hround),
      ((World.Handover.own hp).shrink v n).grow _ n, Function.update_self _ _ _, ?_, rfl, id⟩
    apply resizedTo_initNew
    · intro i hi
      exact destroyUnused_cells v hi
    · simp
    · simp [hround]
    · simp
    · simp
    · simp [hround]
  · refine ⟨w.next, _, _, sgVectorResize_move hn hv hb (by rwa [heq]) hfit.blockBytes_ne_zero
      (hmem hround) ?_, ?_, Function.update_self _ _ _, ?_, rfl, Thread.Plenty.answered⟩
    · intro _
      simp only [SgVector.moved, hfit.slotsIn_eq]
      exact le_roundUp n v.blockShift
    · exact (((((World.Handover.own hp).shrink v n).answered).drop).place _).grow _ n
    · apply resizedTo_initNew
      · intro i hi
        exact destroyUnused_cells v hi
      · simp [SgVector.moved]
      · simp [SgVector.moved, heq]
      · simp [SgVector.moved]
      · simp [SgVector.moved]
      · simp [SgVector.moved, hfit.slotsIn_eq, hround]

/-- The vector `v` was created with room for `n` items, of which `used` are in use. -/
structure SgVector.CreatedFor (v : SgVector α) (shift n used : Nat) (info : VectorInitInfo α) :
    Prop where
  usedCount : v.usedCount = used
  allocCount : v.allocCount = 2 ^ shift
  blockShift : v.blockShift = shift
  info : v.info = info
  slots : v.slots = roundUp n shift
  fresh : ∀ f, v.info.initFn = some f → ∀ i, i < used → ∃ x, v.cells i = f x

theorem sgVectorCreateInt_created {blockShift allocCount initialUsed : Nat}
    {info : VectorInitInfo α} (hfit : Fits (max allocCount initialUsed) blockShift info)
    (hmem : w.mem 0 = true) :
    ∃ w' v, sgVectorCreateInt blockShift allocCount initialUsed info w = .ok (some w.next, w') ∧
      w.Handover w' none (some w.next) ∧ w'.store w.next = some v ∧
      v.CreatedFor blockShift (max allocCount initialUsed) initialUsed info ∧
      w'.glob = w.glob ∧ (w.Plenty → w'.Plenty) := by
  have hslots := hfit.slotsIn_eq
  have hroom : w.InBlock (.blank blockShift allocCount initialUsed info (w.raw w.next))
      initialUsed := by
    intro _
    simp only [SgVector.blank, hslots]
    exact le_trans (le_max_right _ _) (le_roundUp _ _)
  refine ⟨_, _, sgVectorCreateInt_run hfit.blockBytes_ne_zero hmem hroom, ?_,
    Function.update_self _ _ _, ?_, rfl, Thread.Plenty.answered⟩
  · exact (((World.Handover.idle w).answered).place _).grow _ _
  · refine ⟨by simp [SgVector.blank], ?_, by simp [SgVector.blank], by simp [SgVector.blank], ?_, ?_⟩
    · have hlt : 2 ^ blockShift < sizeBound := Nat.pow_lt_pow_right (by omega) hfit.shift
      simp [SgVector.blank, Nat.shiftLeft_eq, Nat.mod_eq_of_lt hlt]
    · simp [SgVector.blank, hslots]
    · intro f hf i hi
      rw [initNew_info] at hf
      exact ⟨_, initNew_fresh (.blank blockShift allocCount initialUsed info (w.raw w.next)) hf
        (Nat.zero_le i) hi⟩

theorem sgVectorCreateInt_failed {blockShift allocCount initialUsed : Nat}
    {info : VectorInitInfo α} (hfit : Fits (max allocCount initialUsed) blockShift info)
    (hmem : w.mem 0 = false) :
    ∃ w', sgVectorCreateInt blockShift allocCount initialUsed info w = .ok (none, w') ∧
      w.Failed w' none .malloc := by
  refine ⟨_, sgVectorCreateInt_refused hfit.blockBytes_ne_zero hmem, ?_⟩
  refine ⟨(World.Handover.idle w).refused _, by decide, refused_error w _, ?_⟩
  intro hplenty
  rw [hplenty 0] at hmem
  cases hmem

end

end Statgrab
