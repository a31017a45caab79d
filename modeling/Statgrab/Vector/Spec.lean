import Statgrab.Vector.Code

/-!
# What the vector functions do

One lemma for each function of `vector.c` and each way it can end. The later modules reach the code
only through these: they say which address the function returns, what the store holds afterwards and
what became of the thread's error. `InBlock` is the premise that keeps a bounded world from faulting.
-/

namespace Statgrab

open Function (update)

variable {α : Type}

/-! ### Bookkeeping -/

/-- The block of `v` has room for `n` items, as far as the world checks. -/
def World.InBlock (w : World α) (v : SgVector α) (n : Nat) : Prop :=
  w.bounded = true → n ≤ v.slots

/-- No address has been given out beyond `next`. -/
def World.Fresh (w : World α) : Prop := ∀ p, w.next ≤ p → w.store p = none

def World.shrink (w : World α) (p : Ptr) (v : SgVector α) (n : Nat) : World α :=
  { w with
    destroys := if n < v.usedCount ∧ v.info.destroyFn.isSome then
      w.destroys + (v.usedCount - n) else w.destroys
    store := update w.store p (some (v.destroyUnused n)) }

def World.grow (w : World α) (p : Ptr) (v : SgVector α) (n : Nat) : World α :=
  { w with
    inits := if v.usedCount < n ∧ v.info.initFn.isSome then
      w.inits + (n - v.usedCount) else w.inits
    store := update w.store p (some (v.initNew n)) }

def World.answered (w : World α) : World α := { w with toThread := w.toThread.answered }

def World.refused (w : World α) (size : Nat) : World α :=
  { w with toThread := { w.toThread.answered with glob := reallocError size } }

/-- The world after `sg_clear_error`. -/
def World.cleared (w : World α) : World α := { w with toThread := { w.toThread with glob := .clear } }

section Fields

variable (w : World α) (p : Ptr) (v : SgVector α) (n : Nat)

@[simp] theorem shrink_store :
    (w.shrink p v n).store = update w.store p (some (v.destroyUnused n)) := rfl
@[simp] theorem shrink_toThread : (w.shrink p v n).toThread = w.toThread := rfl
@[simp] theorem shrink_next : (w.shrink p v n).next = w.next := rfl
@[simp] theorem shrink_raw : (w.shrink p v n).raw = w.raw := rfl
@[simp] theorem shrink_bounded : (w.shrink p v n).bounded = w.bounded := rfl
@[simp] theorem shrink_frees : (w.shrink p v n).frees = w.frees := rfl
@[simp] theorem shrink_inits : (w.shrink p v n).inits = w.inits := rfl
@[simp] theorem shrink_graves : (w.shrink p v n).graves = w.graves := rfl

@[simp] theorem grow_store : (w.grow p v n).store = update w.store p (some (v.initNew n)) := rfl
@[simp] theorem grow_toThread : (w.grow p v n).toThread = w.toThread := rfl
@[simp] theorem grow_next : (w.grow p v n).next = w.next := rfl
@[simp] theorem grow_raw : (w.grow p v n).raw = w.raw := rfl
@[simp] theorem grow_bounded : (w.grow p v n).bounded = w.bounded := rfl
@[simp] theorem grow_frees : (w.grow p v n).frees = w.frees := rfl
@[simp] theorem grow_destroys : (w.grow p v n).destroys = w.destroys := rfl
@[simp] theorem grow_graves : (w.grow p v n).graves = w.graves := rfl

@[simp] theorem drop_store : (w.drop p).store = update w.store p none := rfl
@[simp] theorem drop_toThread : (w.drop p).toThread = w.toThread := rfl
@[simp] theorem drop_next : (w.drop p).next = w.next := rfl
@[simp] theorem drop_raw : (w.drop p).raw = w.raw := rfl
@[simp] theorem drop_bounded : (w.drop p).bounded = w.bounded := rfl
@[simp] theorem drop_frees : (w.drop p).frees = update w.frees p (w.frees p + 1) := rfl
@[simp] theorem drop_graves : (w.drop p).graves = update w.graves p (w.store p) := rfl

@[simp] theorem place_store : (w.place v).store = update w.store w.next (some v) := rfl
@[simp] theorem place_toThread : (w.place v).toThread = w.toThread := rfl
@[simp] theorem place_next : (w.place v).next = w.next + 1 := rfl
@[simp] theorem place_raw : (w.place v).raw = w.raw := rfl
@[simp] theorem place_bounded : (w.place v).bounded = w.bounded := rfl
@[simp] theorem place_frees : (w.place v).frees = w.frees := rfl

@[simp] theorem put_store : (w.put p v).store = update w.store p (some v) := rfl
@[simp] theorem put_toThread : (w.put p v).toThread = w.toThread := rfl
@[simp] theorem put_next : (w.put p v).next = w.next := rfl
@[simp] theorem put_raw : (w.put p v).raw = w.raw := rfl
@[simp] theorem put_bounded : (w.put p v).bounded = w.bounded := rfl
@[simp] theorem put_frees : (w.put p v).frees = w.frees := rfl

end Fields

@[simp] theorem destroyUnused_usedCount (v : SgVector α) (n : Nat) :
    (v.destroyUnused n).usedCount = min v.usedCount n := by
  unfold SgVector.destroyUnused
  split
  · simp only []
    omega
  · omega

@[simp] theorem destroyUnused_allocCount (v : SgVector α) (n : Nat) :
    (v.destroyUnused n).allocCount = v.allocCount := by
  unfold SgVector.destroyUnused; split <;> rfl

@[simp] theorem destroyUnused_blockShift (v : SgVector α) (n : Nat) :
    (v.destroyUnused n).blockShift = v.blockShift := by
  unfold SgVector.destroyUnused; split <;> rfl

@[simp] theorem destroyUnused_info (v : SgVector α) (n : Nat) :
    (v.destroyUnused n).info = v.info := by
  unfold SgVector.destroyUnused; split <;> rfl

@[simp] theorem destroyUnused_slots (v : SgVector α) (n : Nat) :
    (v.destroyUnused n).slots = v.slots := by
  unfold SgVector.destroyUnused; split <;> rfl

@[simp] theorem initNew_usedCount (v : SgVector α) (n : Nat) :
    (v.initNew n).usedCount = max v.usedCount n := by
  unfold SgVector.initNew
  split
  · simp only []
    omega
  · omega

@[simp] theorem initNew_allocCount (v : SgVector α) (n : Nat) :
    (v.initNew n).allocCount = v.allocCount := by
  unfold SgVector.initNew; split <;> rfl

@[simp] theorem initNew_blockShift (v : SgVector α) (n : Nat) :
    (v.initNew n).blockShift = v.blockShift := by
  unfold SgVector.initNew; split <;> rfl

@[simp] theorem initNew_info (v : SgVector α) (n : Nat) : (v.initNew n).info = v.info := by
  unfold SgVector.initNew; split <;> rfl

@[simp] theorem initNew_slots (v : SgVector α) (n : Nat) : (v.initNew n).slots = v.slots := by
  unfold SgVector.initNew; split <;> rfl

theorem destroyUnused_cells (v : SgVector α) {n i : Nat} (hi : i < n) :
    (v.destroyUnused n).cells i = v.cells i := by
  unfold SgVector.destroyUnused
  split
  · cases v.info.destroyFn with
    | none => rfl
    | some f => simp [mapRange, show ¬ n ≤ i by omega]
  · rfl

theorem initNew_cells (v : SgVector α) {n i : Nat} (hi : i < v.usedCount) :
    (v.initNew n).cells i = v.cells i := by
  unfold SgVector.initNew
  split
  · cases v.info.initFn with
    | none => rfl
    | some f => simp [mapRange, show ¬ v.usedCount ≤ i by omega]
  · rfl

theorem initNew_fresh (v : SgVector α) {n i : Nat} {f : α → α} (hf : v.info.initFn = some f)
    (hi : v.usedCount ≤ i) (hn : i < n) : (v.initNew n).cells i = f (v.cells i) := by
  unfold SgVector.initNew
  rw [if_pos (by omega), hf]
  simp [mapRange, hi, hn]

/-! ### Following a pointer -/

theorem deref_run {w : World α} {p : Ptr} {v : SgVector α} (hv : w.store p = some v) :
    deref p w = .ok (v, w) := by
  simp only [deref, hv]

theorem deref_eq_ok {w w' : World α} {p : Ptr} {v : SgVector α} (h : deref p w = .ok (v, w')) :
    w.store p = some v ∧ w' = w := by
  unfold deref at h
  split at h
  case h_1 u hu =>
    cases h
    exact ⟨hu, rfl⟩
  case h_2 => cases h

theorem deref_released {w : World α} {p : Ptr} (hv : w.store p = none) :
    deref p w = .error .released := by
  simp only [deref, hv]

theorem touch_run {w : World α} {v : SgVector α} {n : Nat} (h : w.InBlock v n) :
    touch v n w = .ok ((), w) := by
  rw [touch, if_neg]
  rintro ⟨hb, hlt⟩
  have := h hb
  omega

theorem deref_bind_eq_ok {β : Type} {w w' : World α} {p : Ptr} {f : SgVector α → VecM α β} {b : β}
    (h : (deref p >>= f) w = .ok (b, w')) : ∃ v, w.store p = some v ∧ f v w = .ok (b, w') := by
  obtain ⟨v, w1, hderef, hrest⟩ := Prog.bind_eq_ok.mp h
  obtain ⟨hv, rfl⟩ := deref_eq_ok hderef
  exact ⟨v, hv, hrest⟩

theorem touch_bind_eq_ok {β : Type} {w w' : World α} {v : SgVector α} {n : Nat}
    {f : Unit → VecM α β} {b : β} (h : (touch v n >>= f) w = .ok (b, w')) :
    f () w = .ok (b, w') := by
  obtain ⟨_, w1, htouch, hrest⟩ := Prog.bind_eq_ok.mp h
  unfold touch at htouch
  split at htouch
  · cases htouch
  · cases htouch
    exact hrest

theorem touch_outOfBlock {w : World α} {v : SgVector α} {n : Nat} (h : ¬ w.InBlock v n) :
    touch v n w = .error .outOfBlock := by
  rw [touch, if_pos]
  simpa [World.InBlock, Nat.not_le] using h

theorem onThread_run {β : Type} {x : ThreadM β} {w : World α} {b : β} {t : Thread}
    (hx : x w.toThread = .ok (b, t)) :
    (onThread x : VecM α β) w = .ok (b, { w with toThread := t }) :=
  Prog.zoom_of_ok hx

@[simp] theorem onThread_sgClearError (w : World α) :
    (onThread sgClearError : VecM α Unit) w = .ok ((), w.cleared) := rfl

theorem onThread_sgRealloc_of_mem {w : World α} {size : Nat} (hsize : size ≠ 0)
    (hmem : w.mem 0 = true) : (onThread (sgRealloc size) : VecM α Bool) w = .ok (true, w.answered) :=
  onThread_run (sgRealloc_of_mem hsize hmem)

theorem onThread_sgRealloc_of_not_mem {w : World α} {size : Nat} (hsize : size ≠ 0)
    (hmem : w.mem 0 = false) :
    (onThread (sgRealloc size) : VecM α Bool) w = .ok (false, w.refused size) :=
  onThread_run (sgRealloc_of_not_mem hsize hmem)

/-! ### Initialising, destroying, releasing -/

theorem sgVectorDestroyUnused_run {w : World α} {p : Ptr} {v : SgVector α} (n : Nat)
    (hv : w.store p = some v) (hb : w.InBlock v v.usedCount) :
    sgVectorDestroyUnused p n w = .ok ((), w.shrink p v n) := by
  rw [sgVectorDestroyUnused, Prog.bind_of_ok (deref_run hv)]
  by_cases h : n < v.usedCount ∧ v.info.destroyFn.isSome
  · rw [if_pos h, Prog.bind_of_ok (touch_run hb)]
    simp [Prog.bind_run, World.shrink, World.put, h]
  · simp only [if_neg h, Prog.modify_run, World.shrink, World.put]

theorem sgVectorInitNew_run {w : World α} {p : Ptr} {v : SgVector α} {n : Nat}
    (hv : w.store p = some v) (hb : w.InBlock v n) :
    sgVectorInitNew p n w = .ok ((), w.grow p v n) := by
  rw [sgVectorInitNew, Prog.bind_of_ok (deref_run hv)]
  by_cases h : v.usedCount < n ∧ v.info.initFn.isSome
  · rw [if_pos h, Prog.bind_of_ok (touch_run hb)]
    simp [Prog.bind_run, World.grow, World.put, h]
  · simp only [if_neg h, Prog.modify_run, World.grow, World.put]

theorem sgVectorFree_run {w : World α} {p : Ptr} {v : SgVector α} (hv : w.store p = some v)
    (hb : w.InBlock v v.usedCount) :
    sgVectorFree (some p) w = .ok ((), (w.shrink p v 0).drop p) := by
  rw [sgVectorFree, Prog.bind_of_ok (sgVectorDestroyUnused_run 0 hv hb)]
  rfl

theorem sgVectorFree_released {w : World α} {p : Ptr} (hv : w.store p = none) :
    sgVectorFree (some p) w = .error .released := by
  rw [sgVectorFree]
  apply Prog.bind_of_error
  rw [sgVectorDestroyUnused]
  exact Prog.bind_of_error (deref_released hv) _

theorem sgVectorClear_run {w : World α} {p : Ptr} {v : SgVector α} (hv : w.store p = some v)
    (hb : w.InBlock v v.usedCount) :
    sgVectorClear (some p) w = .ok ((), w.shrink p v 0) :=
  sgVectorDestroyUnused_run 0 hv hb

/-! ### Creating and resizing -/

/-- The vector `sg_vector_create_int` builds, before its items are initialised. -/
def SgVector.blank (blockShift allocCount initialUsed : Nat) (info : VectorInitInfo α)
    (cells : Nat → α) : SgVector α :=
  { usedCount := 0
    allocCount := (1 <<< blockShift) % sizeBound
    blockShift := blockShift
    info := info
    slots := slotsIn (blockBytes (nextPower2In (max allocCount initialUsed) blockShift) info) info
    cells := cells }

@[simp] theorem answered_store (w : World α) : w.answered.store = w.store := rfl
@[simp] theorem answered_next (w : World α) : w.answered.next = w.next := rfl
@[simp] theorem answered_raw (w : World α) : w.answered.raw = w.raw := rfl
@[simp] theorem answered_bounded (w : World α) : w.answered.bounded = w.bounded := rfl
@[simp] theorem answered_frees (w : World α) : w.answered.frees = w.frees := rfl
@[simp] theorem answered_toThread (w : World α) : w.answered.toThread = w.toThread.answered := rfl
@[simp] theorem cleared_store (w : World α) : w.cleared.store = w.store := rfl
@[simp] theorem cleared_next (w : World α) : w.cleared.next = w.next := rfl
@[simp] theorem cleared_raw (w : World α) : w.cleared.raw = w.raw := rfl
@[simp] theorem cleared_bounded (w : World α) : w.cleared.bounded = w.bounded := rfl
@[simp] theorem cleared_frees (w : World α) : w.cleared.frees = w.frees := rfl
@[simp] theorem cleared_mem (w : World α) : w.cleared.mem = w.mem := rfl
@[simp] theorem cleared_error (w : World α) : w.cleared.error = .none := rfl
@[simp] theorem refused_store (w : World α) (size : Nat) : (w.refused size).store = w.store := rfl
@[simp] theorem refused_next (w : World α) (size : Nat) : (w.refused size).next = w.next := rfl
@[simp] theorem refused_bounded (w : World α) (size : Nat) :
    (w.refused size).bounded = w.bounded := rfl
@[simp] theorem refused_frees (w : World α) (size : Nat) : (w.refused size).frees = w.frees := rfl
@[simp] theorem refused_error (w : World α) (size : Nat) : (w.refused size).error = .malloc := rfl

section Create

variable {w : World α} {blockShift allocCount initialUsed : Nat} {info : VectorInitInfo α}

theorem sgVectorCreateInt_run
    (hbytes : blockBytes (nextPower2In (max allocCount initialUsed) blockShift) info ≠ 0)
    (hmem : w.mem 0 = true)
    (hb : w.InBlock (.blank blockShift allocCount initialUsed info (w.raw w.next)) initialUsed) :
    sgVectorCreateInt blockShift allocCount initialUsed info w
      = .ok (some w.next, (w.answered.place (.blank blockShift allocCount initialUsed info
          (w.raw w.next))).grow w.next (.blank blockShift allocCount initialUsed info
          (w.raw w.next)) initialUsed) := by
  rw [sgVectorCreateInt, Prog.bind_of_ok (onThread_sgRealloc_of_mem hbytes hmem), if_pos rfl]
  simp only [Prog.bind_run, Prog.gets_run, Prog.modify_run]
  rw [sgVectorInitNew_run (v := .blank blockShift allocCount initialUsed info (w.raw w.next))]
  · rfl
  · simp [SgVector.blank]
  · exact hb

theorem sgVectorCreateInt_refused
    (hbytes : blockBytes (nextPower2In (max allocCount initialUsed) blockShift) info ≠ 0)
    (hmem : w.mem 0 = false) :
    sgVectorCreateInt blockShift allocCount initialUsed info w
      = .ok (none, w.refused
          (blockBytes (nextPower2In (max allocCount initialUsed) blockShift) info)) := by
  rw [sgVectorCreateInt, Prog.bind_of_ok (onThread_sgRealloc_of_not_mem hbytes hmem), if_neg (by simp)]
  rfl

/-- A request for 0 bytes returns NULL without an error. -/
theorem sgVectorCreateInt_zero
    (hbytes : blockBytes (nextPower2In (max allocCount initialUsed) blockShift) info = 0) :
    sgVectorCreateInt blockShift allocCount initialUsed info w = .ok (none, w) := by
  have hrealloc : (onThread (sgRealloc (blockBytes (nextPower2In (max allocCount initialUsed)
      blockShift) info)) : VecM α Bool) w = .ok (false, w) := by
    apply onThread_run
    rw [sgRealloc, if_pos hbytes]
  rw [sgVectorCreateInt, Prog.bind_of_ok hrealloc, if_neg (by simp)]
  rfl

end Create

/-- The vector after the reallocation in `sg_vector_resize`. -/
def SgVector.moved (v : SgVector α) (roundCount : Nat) : SgVector α :=
  { v with allocCount := roundCount, slots := slotsIn (blockBytes roundCount v.info) v.info }

section Resize

variable {w : World α} {p : Ptr} {v : SgVector α} {n : Nat}

theorem sgVectorResize_zero (hv : w.store p = some v) (hb : w.InBlock v v.usedCount) :
    sgVectorResize (some p) 0 w
      = .ok (none, ((w.shrink p v 0).drop p).cleared) := by
  simp only [sgVectorResize, if_true]
  rw [Prog.bind_of_ok (sgVectorFree_run hv hb)]
  rfl

theorem sgVectorResize_keep (hn : n ≠ 0) (hv : w.store p = some v) (hb : w.InBlock v v.usedCount)
    (hround : nextPower2In n v.blockShift = v.allocCount) (hroom : w.InBlock v n) :
    sgVectorResize (some p) n w
      = .ok (some p, (w.shrink p v n).grow p (v.destroyUnused n) n) := by
  simp only [sgVectorResize, if_neg hn]
  rw [Prog.bind_of_ok (sgVectorDestroyUnused_run n hv hb),
    Prog.bind_of_ok (deref_run (v := v.destroyUnused n) (by simp)),
    if_neg (by simpa using hround), Prog.bind_of_ok (Prog.pure_run _ _)]
  simp only
  rw [Prog.bind_of_ok (sgVectorInitNew_run (v := v.destroyUnused n) (by simp)
    (by simpa [World.InBlock] using hroom))]
  rfl

theorem sgVectorResize_move (hn : n ≠ 0) (hv : w.store p = some v) (hb : w.InBlock v v.usedCount)
    (hround : nextPower2In n v.blockShift ≠ v.allocCount)
    (hbytes : blockBytes (nextPower2In n v.blockShift) v.info ≠ 0) (hmem : w.mem 0 = true)
    (hroom : w.InBlock (v.moved (nextPower2In n v.blockShift)) n) :
    sgVectorResize (some p) n w
      = .ok (some w.next, (((w.shrink p v n).answered.drop p).place
          ((v.destroyUnused n).moved (nextPower2In n v.blockShift))).grow w.next
          ((v.destroyUnused n).moved (nextPower2In n v.blockShift)) n) := by
  have hmove : sgVectorMove p (nextPower2In n v.blockShift) (w.shrink p v n)
      = .ok (some w.next, ((w.shrink p v n).answered.drop p).place
          ((v.destroyUnused n).moved (nextPower2In n v.blockShift))) := by
    rw [sgVectorMove, Prog.bind_of_ok (deref_run (v := v.destroyUnused n) (by simp))]
    simp only [destroyUnused_info]
    rw [Prog.bind_of_ok (onThread_sgRealloc_of_mem (w := w.shrink p v n) hbytes hmem), if_pos rfl]
    simp [Prog.bind_run, SgVector.moved]
  simp only [sgVectorResize, if_neg hn]
  rw [Prog.bind_of_ok (sgVectorDestroyUnused_run n hv hb),
    Prog.bind_of_ok (deref_run (v := v.destroyUnused n) (by simp)),
    if_pos (by simpa using hround), destroyUnused_blockShift, Prog.bind_of_ok hmove]
  simp only
  rw [Prog.bind_of_ok (sgVectorInitNew_run
    (v := (v.destroyUnused n).moved (nextPower2In n v.blockShift)) (by simp)
    (by simpa [World.InBlock, SgVector.moved] using hroom))]
  rfl

theorem sgVectorResize_abandon (hn : n ≠ 0) (hv : w.store p = some v)
    (hb : w.InBlock v v.usedCount) (hround : nextPower2In n v.blockShift ≠ v.allocCount)
    (hpos : nextPower2In n v.blockShift ≠ 0)
    (hbytes : blockBytes (nextPower2In n v.blockShift) v.info ≠ 0) (hmem : w.mem 0 = false) :
    sgVectorResize (some p) n w
      = .ok (none, (((w.shrink p v n).refused (blockBytes (nextPower2In n v.blockShift) v.info)).shrink
          p (v.destroyUnused n) 0).drop p) := by
  have hlive : ((w.shrink p v n).refused (blockBytes (nextPower2In n v.blockShift) v.info)).store p
      = some (v.destroyUnused n) := by simp
  have hfree := sgVectorFree_run hlive (by
    intro hbd
    have := hb hbd
    simp only [destroyUnused_usedCount, destroyUnused_slots]
    omega)
  have hmove : sgVectorMove p (nextPower2In n v.blockShift) (w.shrink p v n)
      = .ok (none, (((w.shrink p v n).refused (blockBytes (nextPower2In n v.blockShift)
          v.info)).shrink p (v.destroyUnused n) 0).drop p) := by
    rw [sgVectorMove, Prog.bind_of_ok (deref_run (v := v.destroyUnused n) (by simp))]
    simp only [destroyUnused_info]
    rw [Prog.bind_of_ok (onThread_sgRealloc_of_not_mem (w := w.shrink p v n) hbytes hmem),
      if_neg (by simp), if_neg hbytes]
    simp only [if_neg hpos]
    rw [Prog.bind_of_ok hfree]
    rfl
  simp only [sgVectorResize, if_neg hn]
  rw [Prog.bind_of_ok (sgVectorDestroyUnused_run n hv hb),
    Prog.bind_of_ok (deref_run (v := v.destroyUnused n) (by simp)),
    if_pos (by simpa using hround), destroyUnused_blockShift, Prog.bind_of_ok hmove]
  rfl

/-- What a caller sees of a refused resize: the vector is gone. -/
theorem sgVectorResize_refused (hn : n ≠ 0) (hv : w.store p = some v)
    (hb : w.InBlock v v.usedCount) (hround : nextPower2In n v.blockShift ≠ v.allocCount)
    (hpos : nextPower2In n v.blockShift ≠ 0)
    (hbytes : blockBytes (nextPower2In n v.blockShift) v.info ≠ 0) (hmem : w.mem 0 = false) :
    ∃ w', sgVectorResize (some p) n w = .ok (none, w') ∧ w'.store = update w.store p none ∧
      w'.error = .malloc ∧ w'.next = w.next ∧ w'.bounded = w.bounded ∧
      w'.frees = update w.frees p (w.frees p + 1) := by
  refine ⟨_, sgVectorResize_abandon hn hv hb hround hpos hbytes hmem, ?_⟩
  simp

end Resize

/-! ### Resizing to nothing -/

section

variable {α : Type} {w w' : World α} {p : Ptr}

theorem sgVectorDestroyUnused_toThread {n : Nat} (h : sgVectorDestroyUnused p n w = .ok ((), w')) :
    w'.toThread = w.toThread := by
  rw [sgVectorDestroyUnused] at h
  obtain ⟨v, w1, hderef, hrest⟩ := Prog.bind_eq_ok.mp h
  obtain ⟨-, rfl⟩ := deref_eq_ok hderef
  split at hrest
  · obtain ⟨_, w2, htouch, hrest⟩ := Prog.bind_eq_ok.mp hrest
    unfold touch at htouch
    split at htouch
    · cases htouch
    · cases htouch
      cases hrest
      rfl
  · cases hrest
    rfl

theorem sgVectorFree_toThread {x : Option Ptr} (h : sgVectorFree x w = .ok ((), w')) :
    w'.toThread = w.toThread := by
  cases x with
  | none =>
      cases h
      rfl
  | some p =>
      rw [sgVectorFree] at h
      obtain ⟨_, w1, hdestroy, hdrop⟩ := Prog.bind_eq_ok.mp h
      cases hdrop
      have hthread := sgVectorDestroyUnused_toThread hdestroy
      exact hthread

theorem sgVectorMove_null {roundCount : Nat} (h : sgVectorMove p roundCount w = .ok (none, w')) :
    w'.error = .malloc := by
  rw [sgVectorMove] at h
  obtain ⟨v, w1, hderef, h⟩ := Prog.bind_eq_ok.mp h
  obtain ⟨ok, w2, hrealloc, h⟩ := Prog.bind_eq_ok.mp h
  cases ok with
  | true => cases h
  | false =>
      rw [if_neg Bool.false_ne_true] at h
      by_cases hbytes : blockBytes roundCount v.info = 0
      · -- the block is gone already, so releasing it once more faults
        rw [if_pos hbytes, Prog.bind_of_ok (Prog.modify_run _ _)] at h
        split at h
        · cases h
        · obtain ⟨_, w3, hfree, -⟩ := Prog.bind_eq_ok.mp h
          rw [sgVectorFree_released (Function.update_self _ _ _)] at hfree
          cases hfree
      · rw [if_neg hbytes] at h
        split at h
        · cases h
        · obtain ⟨_, w3, hfree, h⟩ := Prog.bind_eq_ok.mp h
          cases h
          rw [sgVectorFree_toThread hfree]
          cases hmem : w1.mem 0 with
          | true =>
              rw [onThread_sgRealloc_of_mem hbytes hmem] at hrealloc
              cases hrealloc
          | false =>
              rw [onThread_sgRealloc_of_not_mem hbytes hmem] at hrealloc
              cases hrealloc
              rfl

/-- `sg_vector_resize` returns NULL without an error for no items, and else for lack of memory. -/
theorem sgVectorResize_null {n : Nat} (h : sgVectorResize (some p) n w = .ok (none, w')) :
    w'.error = if n = 0 then .none else .malloc := by
  rw [sgVectorResize] at h
  by_cases hn : n = 0
  · rw [if_pos hn] at h ⊢
    obtain ⟨_, w1, -, h⟩ := Prog.bind_eq_ok.mp h
    cases h
    rfl
  · rw [if_neg hn] at h ⊢
    obtain ⟨_, w1, -, h⟩ := Prog.bind_eq_ok.mp h
    obtain ⟨v, w2, -, h⟩ := Prog.bind_eq_ok.mp h
    split at h
    · obtain ⟨q, w3, hmove, h⟩ := Prog.bind_eq_ok.mp h
      cases q with
      | some q =>
          obtain ⟨_, w4, -, h⟩ := Prog.bind_eq_ok.mp h
          cases h
      | none =>
          cases h
          exact sgVectorMove_null hmove
    · rw [Prog.bind_of_ok (Prog.pure_run _ _)] at h
      obtain ⟨_, w4, -, h⟩ := Prog.bind_eq_ok.mp h
      cases h

end

end Statgrab
