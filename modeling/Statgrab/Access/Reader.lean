import Statgrab.Access.Code

/-!
# Reading into a cached vector

What the accessors can rely on when they hand a cached vector to an `fn_int`. Whatever the read does,
and wherever it fails, it leaves the variable empty or pointing to a live vector with room, and it
touches no other vector of the caller: `Refill`. `Reads` is the contract of an `fn_int` in these terms,
and `fillItems_run` shows it for the loop all readers share.

The items of a snapshot are bounded by `itemLimit`, beyond which a block shift does not fit an `int`.
-/

namespace Statgrab

variable {α : Type}

def itemLimit : Nat := 2 ^ 31

/-- All functions are there, and an item is of a sensible size. -/
structure VectorInitInfo.Regular (info : VectorInitInfo α) : Prop where
  full : info.Full
  size : info.itemSize ≤ 65536

/-- A vector as the accessors keep it. -/
structure SgVector.Cached (info : VectorInitInfo α) (v : SgVector α) : Prop where
  backed : v.Backed
  info : v.info = info
  shift : v.blockShift ≤ 31
  used : v.usedCount ≤ itemLimit
  alloc : v.allocCount ≤ 2 * itemLimit
  hollow : v.slots = 0 → v.blockShift = 0 ∧ v.allocCount = 1

theorem two_pow_le_itemLimit {shift : Nat} (h : shift ≤ 31) : 2 ^ shift ≤ itemLimit :=
  Nat.pow_le_pow_right (by omega) h

theorem VectorInitInfo.Regular.fits {info : VectorInitInfo α} (h : info.Regular) {n shift : Nat}
    (hn : n ≤ 2 * itemLimit) (hshift : shift ≤ 31) : Fits n shift info := by
  refine ⟨by omega, h.full.item, ?_⟩
  have hround : roundUp n shift ≤ 3 * itemLimit := by
    have := roundUp_le n shift
    have := two_pow_le_itemLimit hshift
    omega
  have hmul := Nat.mul_le_mul hround h.size
  simp only [vectorSize, sizeBound, itemLimit] at *
  omega

theorem SgVector.CreatedFor.cached {v : SgVector α} {shift n used : Nat} {info : VectorInitInfo α}
    (h : v.CreatedFor shift n used info) (hle : used ≤ n) (hinfo : info.Regular)
    (hshift : shift ≤ 31) (hused : used ≤ itemLimit) (hzero : n = 0 → shift = 0) :
    v.Cached info := by
  refine ⟨h.backed hle hinfo.full, h.info, h.blockShift ▸ hshift, h.usedCount ▸ hused, ?_, ?_⟩
  · rw [h.allocCount]
    have := two_pow_le_itemLimit hshift
    omega
  · intro hslots
    rw [h.slots] at hslots
    have hn : n = 0 := by
      have := le_roundUp n shift
      omega
    rw [h.blockShift, h.allocCount, hzero hn]
    exact ⟨rfl, rfl⟩

theorem SgVector.ResizedTo.cached {v v' : SgVector α} {n : Nat} {info : VectorInitInfo α}
    (h : v.ResizedTo v' n) (hv : v.Cached info) (hn : n ≠ 0) (hle : n ≤ itemLimit)
    (hbad : ¬ v.Unbacked n) : v'.Cached info := by
  have hback := h.backed hv.backed hn hbad
  refine ⟨hback, h.info.trans hv.info, h.blockShift ▸ hv.shift, h.usedCount ▸ hle, ?_, ?_⟩
  · rw [h.allocCount]
    have := roundUp_le n v.blockShift
    have := two_pow_le_itemLimit hv.shift
    omega
  · intro hslots
    have := hback.within
    rw [h.usedCount, hslots] at this
    omega

/-- A kept vector has less room than its record says only if it has none, and one item is asked for. -/
theorem SgVector.Cached.unbacked_iff {v : SgVector α} {info : VectorInitInfo α} (h : v.Cached info)
    (n : Nat) : v.Unbacked n ↔ v.slots = 0 ∧ n = 1 := by
  constructor
  · rintro ⟨hslots, hn, hround⟩
    obtain ⟨hshift, halloc⟩ := h.hollow hslots
    rw [hshift, halloc, roundUp_of_pos (Nat.pos_of_ne_zero hn), Nat.pow_zero, Nat.div_one] at hround
    exact ⟨hslots, by omega⟩
  · rintro ⟨hslots, rfl⟩
    obtain ⟨hshift, halloc⟩ := h.hollow hslots
    refine ⟨hslots, by omega, ?_⟩
    rw [hshift, halloc]
    rfl

theorem SgVector.Cached.destroyUnused {v : SgVector α} {info : VectorInitInfo α}
    (h : v.Cached info) (n : Nat) : (v.destroyUnused n).Cached info := by
  have hused := h.used
  refine ⟨h.backed.destroyUnused n, by simpa using h.info, by simpa using h.shift, ?_,
    by simpa using h.alloc, by simpa using h.hollow⟩
  rw [destroyUnused_usedCount]
  omega

/-- A kept vector can be resized to the items of another one, and copied, without an overflow. -/
theorem SgVector.Cached.fits {v c : SgVector α} {info : VectorInitInfo α} (hinfo : info.Regular)
    (h : v.Cached info) (hc : c.Cached info) : Fits c.usedCount v.blockShift v.info := by
  rw [h.info]
  have := hc.used
  exact hinfo.fits (by omega) h.shift

theorem SgVector.Cached.fits_clone {v : SgVector α} {info : VectorInitInfo α} (hinfo : info.Regular)
    (h : v.Cached info) : Fits (max v.allocCount v.usedCount) v.blockShift v.info := by
  rw [h.info]
  refine hinfo.fits ?_ h.shift
  have := h.alloc
  have := h.used
  omega

/-! ### What a read leaves alone -/

/-- The states of a run in which memory may be refused. -/
structure World.Tidy (w : World α) : Prop where
  fresh : w.Fresh
  bounded : w.bounded = true
  backed : ∀ p v, w.store p = some v → v.Backed

theorem World.Sound.tidy {w : World α} (h : w.Sound) : w.Tidy := ⟨h.fresh, h.bounded, h.backed⟩

theorem World.Tidy.sound {w : World α} (h : w.Tidy) (hplenty : w.Plenty) : w.Sound :=
  ⟨h.fresh, hplenty, h.bounded, h.backed⟩

theorem World.Tidy.inBlock {w : World α} (h : w.Tidy) {p : Ptr} {v : SgVector α}
    (hv : w.store p = some v) : w.InBlock v v.usedCount := fun _ => (h.backed p v hv).within

theorem World.Tidy.thread {w : World α} (h : w.Tidy) (t : Thread) :
    ({ w with toThread := t } : World α).Tidy := ⟨h.fresh, h.bounded, h.backed⟩

/-- No vector that was there has changed, but the one the variable `x` held. -/
structure World.Step (w w' : World α) (x : Option Ptr) : Prop where
  tidy : w'.Tidy
  mono : w.next ≤ w'.next
  frame : ∀ q, q < w.next → x ≠ some q → w'.store q = w.store q

namespace World.Step

variable {w w' w'' : World α} {x y : Option Ptr}

theorem refl (h : w.Tidy) (x : Option Ptr) : w.Step w x := ⟨h, le_rfl, fun _ _ _ => rfl⟩

theorem thread (h : w.Step w' x) (t : Thread) : w.Step { w' with toThread := t } x :=
  ⟨h.tidy.thread t, h.mono, h.frame⟩

theorem trans (h : w.Step w' x) (h' : w'.Step w'' y)
    (hy : ∀ q, y = some q → x = some q ∨ w.next ≤ q) : w.Step w'' x := by
  refine ⟨h'.tidy, le_trans h.mono h'.mono, ?_⟩
  intro q hq hx
  rw [h'.frame q (lt_of_lt_of_le hq h.mono), h.frame q hq hx]
  intro hcon
  rcases hy q hcon with hold | hnew
  · exact hx hold
  · exact absurd hq (not_lt.mpr hnew)

theorem live (h : w.Step w' x) (hw : w.Tidy) {p : Ptr} {v : SgVector α} (hv : w.store p = some v)
    (hx : x ≠ some p) : w'.store p = some v := by
  rw [h.frame p (hw.fresh.lt hv) hx, hv]

end World.Step

theorem World.Handover.step {w w' : World α} {a b : Option Ptr} (h : w.Handover w' a b)
    (hw : w.Tidy) (hnew : ∀ p v, b = some p → w'.store p = some v → v.Backed) : w.Step w' a := by
  refine ⟨⟨h.fresh hw.fresh, h.bounded.trans hw.bounded, ?_⟩, h.mono, h.frame⟩
  intro p v hv
  rcases h.live_cases hw.fresh hv with hold | hb
  · exact hw.backed p v hold
  · exact hnew p v hb hv

/-- The variable is NULL, or holds a vector with room that has these items. -/
def World.Holds (w : World α) (info : VectorInitInfo α) (x : Option Ptr) (items : List α) : Prop :=
  match x with
  | none => items = []
  | some p => ∃ v, w.store p = some v ∧ v.Cached info ∧ v.slots ≠ 0 ∧ v.items = items

theorem World.holds_none (w : World α) (info : VectorInitInfo α) : w.Holds info none [] := rfl

theorem World.Holds.length_le {w : World α} {info : VectorInitInfo α} {x : Option Ptr} {items : List α}
    (h : w.Holds info x items) : items.length ≤ itemLimit := by
  cases x with
  | none =>
      have hnil : items = [] := h
      rw [hnil]
      exact Nat.zero_le _
  | some p =>
      obtain ⟨v, -, hcached, -, rfl⟩ := h
      rw [items_length]
      exact hcached.used

/-- What a read does with the variable it is given. -/
structure World.Refill (w w' : World α) (info : VectorInitInfo α) (x x' : Option Ptr)
    (items : List α) : Prop where
  step : w.Step w' x
  kept : ∀ q, x' = some q → x = some q ∨ w.next ≤ q
  holds : w'.Holds info x' items
  plenty : w.Plenty → w'.Plenty

theorem World.Refill.refl {w : World α} (hw : w.Tidy) {info : VectorInitInfo α} {x : Option Ptr}
    {items : List α} (h : w.Holds info x items) : w.Refill w info x x items :=
  ⟨.refl hw x, fun _ hq => .inl hq, h, id⟩

theorem World.Refill.trans {w w' w'' : World α} {info : VectorInitInfo α} {x x' x'' : Option Ptr}
    {items items' : List α} (h : w.Refill w' info x x' items) (h' : w'.Refill w'' info x' x'' items') :
    w.Refill w'' info x x'' items' := by
  refine ⟨h.step.trans h'.step h.kept, ?_, h'.holds, fun hp => h'.plenty (h.plenty hp)⟩
  intro q hq
  rcases h'.kept q hq with hold | hnew
  · exact h.kept q hold
  · exact .inr (le_trans h.step.mono hnew)

theorem World.Refill.thread {w w' : World α} {info : VectorInitInfo α} {x x' : Option Ptr}
    {items : List α} (h : w.Refill w' info x x' items) {t : Thread} (ht : t.mem = w'.mem) :
    w.Refill { w' with toThread := t } info x x' items := by
  refine ⟨h.step.thread t, h.kept, ?_, ?_⟩
  · cases x' with
    | none => exact h.holds
    | some q => exact h.holds
  · intro hp n
    show t.mem n = true
    rw [ht]
    exact h.plenty hp n

theorem World.Handover.created_step {w w' : World α} {p : Ptr} {v : SgVector α}
    (hand : w.Handover w' none (some p)) (hw : w.Tidy) (hv : w'.store p = some v) (hb : v.Backed) :
    w.Step w' none := by
  apply hand.step hw
  intro q u hq hu
  cases hq
  rw [hv] at hu
  cases hu
  exact hb

theorem World.Failed.step {w w' : World α} {old : Option Ptr} {rc : SgError} (h : w.Failed w' old rc)
    (hw : w.Tidy) : w.Step w' old := by
  apply h.handover.step hw
  intro p v hp
  cases hp

theorem World.Tidy.freeVector {w : World α} (hw : w.Tidy) {p : Ptr} {v : SgVector α}
    (hv : w.store p = some v) :
    ∃ w', sgVectorFree (some p) w = .ok ((), w') ∧ w.Step w' (some p) ∧
      w'.toThread = w.toThread := by
  have hand : w.Handover ((w.shrink p v 0).drop p) (some p) none :=
    ((World.Handover.own (hw.fresh.lt hv)).shrink v 0).drop
  refine ⟨_, sgVectorFree_run hv (hw.inBlock hv), hand.step hw ?_, rfl⟩
  intro q u hq
  cases hq

/-- What a variable holds is not touched by a step of another one. -/
theorem World.Holds.step {w w' : World α} {info : VectorInitInfo α} {x y : Option Ptr}
    {items : List α} (h : w.Holds info x items) (hw : w.Tidy) (hstep : w.Step w' y)
    (hne : ∀ q, x = some q → y ≠ some q) : w'.Holds info x items := by
  cases x with
  | none => exact h
  | some p =>
      obtain ⟨v, hv, hrest⟩ := h
      exact ⟨v, hstep.live hw hv (hne p rfl), hrest⟩

/-! ### Growing the vector -/

theorem SgVector.ResizedTo.items {v v' : SgVector α} {n : Nat} (h : v.ResizedTo v' n)
    (hn : v.usedCount ≤ n) : (v'.items.take v.usedCount) = v.items := by
  unfold SgVector.items
  rw [← List.map_take, List.take_range, h.usedCount, Nat.min_eq_left hn]
  apply List.map_congr_left
  intro i hi
  have hlt := List.mem_range.mp hi
  exact h.cells i (by omega) hlt

/-- How `VECTOR_UPDATE` leaves the variable: grown, with the old items in place, or empty for lack of
memory, which is also the error. -/
structure Grown (w w' : World α) (info : VectorInitInfo α) (x : Option Ptr) (items : List α) (n : Nat)
    (q : Ptr) (v : SgVector α) : Prop where
  step : w.Step w' x
  kept : x = some q ∨ w.next ≤ q
  store : w'.store q = some v
  cached : v.Cached info
  used : v.usedCount = n
  items : v.items.take items.length = items
  glob : w'.glob = w.glob
  plenty : w.Plenty → w'.Plenty

theorem Grown.slots_ne_zero {w w' : World α} {info : VectorInitInfo α} {x : Option Ptr}
    {items : List α} {n : Nat} {q : Ptr} {v : SgVector α} (h : Grown w w' info x items n q v)
    (hn : n ≠ 0) : v.slots ≠ 0 := by
  have hwithin := h.cached.backed.within
  have hused := h.used
  omega

theorem vectorCreateOrResize_run {info : VectorInitInfo α} (hinfo : info.Regular) {w : World α}
    (hw : w.Tidy) {x : Option Ptr} {items : List α} (hx : w.Holds info x items) {n : Nat}
    (hn : n ≠ 0) (hlimit : n ≤ itemLimit) (hitems : items.length ≤ n) :
    (∃ q w' v, vectorCreateOrResize info x n w = .ok (some q, w') ∧
      Grown w w' info x items n q v) ∨
    (∃ w', vectorCreateOrResize info x n w = .ok (none, w') ∧ w.Step w' x ∧
      w'.error = .malloc ∧ ¬ w.Plenty) := by
  cases x with
  | none =>
      have hnil : items = [] := hx
      obtain ⟨shift, hshift, hle⟩ := blockShiftOf_isSome hlimit
      have hfit : Fits (max n n) shift info := hinfo.fits (by omega) hle
      rw [vectorCreateOrResize, sgVectorCreate, hshift]
      simp only
      cases hmem : w.mem 0 with
      | true =>
          obtain ⟨w', v, hrun, hand, hv, hfor, hglob, hplenty⟩ :=
            sgVectorCreateInt_created (w := w) hfit hmem
          have hcached : v.Cached info := hfor.cached (le_max_right _ _) hinfo hle hlimit
            (fun h0 => by omega)
          refine .inl ⟨w.next, w', v, hrun, hand.step hw ?_, .inr le_rfl, hv, hcached,
            hfor.usedCount, ?_, hglob, hplenty⟩
          · intro p u hp hu
            cases hp
            rw [hv] at hu
            cases hu
            exact hcached.backed
          · rw [hnil]
            rfl
      | false =>
          obtain ⟨w', hrun, hfail⟩ := sgVectorCreateInt_failed (w := w) hfit hmem
          refine .inr ⟨w', hrun, hfail.handover.step hw ?_, hfail.error, hfail.memory⟩
          intro p u hp
          cases hp
  | some p =>
      obtain ⟨v, hv, hcached, hslots, rfl⟩ := hx
      rw [items_length] at hitems
      have hfit : Fits n v.blockShift v.info := hcached.info ▸ hinfo.fits (by omega) hcached.shift
      have hbad : ¬ v.Unbacked n := fun h => hslots h.1
      rw [vectorCreateOrResize]
      by_cases hmem : roundUp n v.blockShift ≠ v.allocCount → w.mem 0 = true
      · obtain ⟨q, w', v', hrun, hand, hq, hres, hglob, hplenty⟩ :=
          sgVectorResize_run hw.fresh hn hv (hw.inBlock hv) hfit
            (fun hround _ => hcached.backed.room hn hbad hround) hmem
        have hcached' : v'.Cached info := hres.cached hcached hn hlimit hbad
        refine .inl ⟨q, w', v', hrun, hand.step hw ?_, (hand.kept q rfl).2, hq, hcached',
          hres.usedCount, ?_, hglob, hplenty⟩
        · intro r u hr hu
          cases hr
          rw [hq] at hu
          cases hu
          exact hcached'.backed
        · rw [items_length]
          exact hres.items hitems
      · rw [Classical.not_imp, Bool.not_eq_true] at hmem
        obtain ⟨hround, hmem⟩ := hmem
        have heq := hfit.nextPower2In_eq
        obtain ⟨w', hrun, hstore, herr, hnext, hbounded, -⟩ :=
          sgVectorResize_refused hn hv (hw.inBlock hv) (by rwa [heq])
            (by rw [heq]; exact (roundUp_pos (Nat.pos_of_ne_zero hn) _).ne')
            hfit.blockBytes_ne_zero hmem
        refine .inr ⟨w', hrun, ⟨⟨?_, hbounded.trans hw.bounded, ?_⟩, hnext.ge, ?_⟩, herr, ?_⟩
        · intro q hq
          rw [hstore, Function.update_of_ne]
          · exact hw.fresh q (hnext ▸ hq)
          · intro hcon
            rw [hcon, hnext] at hq
            exact absurd (hw.fresh.lt hv) (not_lt.mpr hq)
        · intro q u hu
          rw [hstore] at hu
          by_cases hqp : q = p
          · rw [hqp, Function.update_self] at hu
            cases hu
          · rw [Function.update_of_ne hqp] at hu
            exact hw.backed q u hu
        · intro q _ hq
          rw [hstore, Function.update_of_ne]
          exact fun hcon => hq (by rw [hcon])
        · intro hplenty
          rw [hplenty 0] at hmem
          cases hmem

theorem vectorUpdate_some {info : VectorInitInfo α} {x : Option Ptr} {arg : CountArg} {w w' : World α}
    {q : Ptr} (h : vectorCreateOrResize info x arg.value w = .ok (some q, w')) (next : FillFn α) :
    vectorUpdate info x arg next w = next (some q) w' :=
  Prog.bind_of_ok h _

/-- Where the test of the count succeeds the code goes on without a vector. -/
theorem vectorUpdate_null {info : VectorInitInfo α} {x : Option Ptr} {arg : CountArg} {w w' : World α}
    (h : vectorCreateOrResize info x arg.value w = .ok (none, w')) (hneg : arg.negated = true)
    (next : FillFn α) : vectorUpdate info x arg next w = next none w' := by
  rw [vectorUpdate, Prog.bind_of_ok h]
  simp only [hneg, if_true]

theorem vectorUpdate_refused {info : VectorInitInfo α} {x : Option Ptr} {arg : CountArg}
    {w w' : World α} (h : vectorCreateOrResize info x arg.value w = .ok (none, w'))
    (hneg : arg.negated = false) (next : FillFn α) :
    vectorUpdate info x arg next w = .ok ((w'.error, none), w') := by
  rw [vectorUpdate, Prog.bind_of_ok h]
  simp only [hneg, Bool.false_eq_true, if_false]
  rw [Prog.bind_of_ok (onThread_run (sgGetError_run _))]
  rfl

/-! ### Filling it -/

theorem onItem_run {w : World α} {p : Ptr} {v : SgVector α} {i : Nat} {fn : ItemFn α} {rc : SgError}
    {x : α} {t : Thread} (hv : w.store p = some v) (hb : w.InBlock v (i + 1))
    (hfn : fn (v.cells i) w.toThread = .ok ((rc, x), t)) :
    onItem p i fn w = .ok (rc, w.recopy t p (v.setCell i x)) := by
  rw [onItem, Prog.bind_of_ok (deref_run hv), Prog.bind_of_ok (touch_run hb),
    Prog.bind_of_ok (onThread_run hfn)]
  rfl

theorem SgVector.Cached.withCells {v : SgVector α} {info : VectorInitInfo α} (h : v.Cached info)
    (cells : Nat → α) : ({ v with cells := cells } : SgVector α).Cached info :=
  ⟨⟨h.backed.within, h.backed.record, h.backed.full⟩, h.info, h.shift, h.used, h.alloc, h.hollow⟩

theorem SgVector.Cached.setCell {v : SgVector α} {info : VectorInitInfo α} (h : v.Cached info)
    (i : Nat) (x : α) : (v.setCell i x).Cached info := h.withCells _

theorem World.Tidy.recopy {w : World α} (hw : w.Tidy) {p : Ptr} {v v' : SgVector α}
    (hv : w.store p = some v) (hv' : v'.Backed) (t : Thread) :
    w.Step (w.recopy t p v') (some p) := by
  apply ((World.Handover.own (hw.fresh.lt hv)).recopy t v').step hw
  intro q u hq hu
  cases hq
  rw [recopy_store, Function.update_self] at hu
  cases hu
  exact hv'

/-- The contract of a function that fills an item: it returns, a failure leaves an error, and with
enough memory it succeeds and leaves an item as `spec` says. -/
def LawfulFill (fill : ItemFn α) (spec : α → Prop) : Prop :=
  ∀ x t, ∃ rc x' t', fill x t = .ok ((rc, x'), t') ∧ (rc ≠ .none → t'.error ≠ .none) ∧
    (t.Plenty → rc = .none ∧ spec x' ∧ t'.Plenty)

theorem forall₂_eq_map {β : Type} {f : β → α} {bs : List β} {xs : List α}
    (h : List.Forall₂ (fun b x => x = f b) bs xs) : xs = bs.map f := by
  induction h with
  | nil => rfl
  | cons hx _ ih => rw [hx, ih, List.map_cons]

theorem setCell_last_items {v : SgVector α} {items : List α} (x : α)
    (hused : v.usedCount = items.length + 1) (hitems : v.items.take items.length = items) :
    (v.setCell items.length x).items = items ++ [x] := by
  have hrange : v.items.take items.length = (List.range items.length).map v.cells := by
    rw [SgVector.items, hused, ← List.map_take, List.take_range, Nat.min_eq_left (by omega)]
  unfold SgVector.items
  rw [show (v.setCell items.length x).usedCount = items.length + 1 from hused, List.range_succ,
    List.map_append, List.map_singleton, setCell_cells_self]
  congr 1
  rw [← hitems, hrange, List.length_map, List.length_range]
  apply List.map_congr_left
  intro i hi
  have hlt := List.mem_range.mp hi
  exact Function.update_of_ne (by omega) _ _

theorem fillItems_cons {β : Type} (info : VectorInitInfo α) (fill : β → ItemFn α) (b : β)
    (bs : List β) (i : Nat) (x : Option Ptr) :
    fillItems info fill (b :: bs) i x
      = (vectorCreateOrResize info x (i + 1) >>= fun vector =>
          match vector with
          | some p => do
              let rc ← onItem p i (fill b)
              if rc = .none then fillItems info fill bs (i + 1) (some p) else return (rc, some p)
          | none => Prog.fault .nullPointer) := by
  rw [fillItems]
  unfold vectorUpdate
  congr 1

theorem Grown.filled {w w' : World α} {info : VectorInitInfo α} {x : Option Ptr} {items : List α} {q : Ptr}
    {v : SgVector α} (h : Grown w w' info x items (items.length + 1) q v) (y : α) {t : Thread}
    (ht : w.Plenty → t.Plenty) :
    w'.InBlock v (items.length + 1) ∧
      w.Refill (w'.recopy t q (v.setCell items.length y)) info x (some q) (items ++ [y]) := by
  have hstep := h.step.tidy.recopy h.store (h.cached.setCell items.length y).backed t
  have hkept : ∀ r, some q = some r → x = some r ∨ w.next ≤ r := by
    intro r hr
    cases hr
    exact h.kept
  refine ⟨?_, h.step.trans hstep hkept, hkept, ?_, ht⟩
  · have hroom := h.step.tidy.inBlock h.store
    rwa [h.used] at hroom
  · exact ⟨_, Function.update_self _ _ _, h.cached.setCell _ _, h.slots_ne_zero (Nat.succ_ne_zero _),
      setCell_last_items y h.used h.items⟩

/-- The run follows the NULL pointer that a refused `VECTOR_UPDATE` left. -/
def Starved {β : Type} (run : VecM α β) (w : World α) : Prop :=
  run w = .error .nullPointer ∧ ¬ w.Plenty

/-- The loop of the readers. Each round grows the vector by one item and fills it. -/
theorem fillItems_run {β : Type} {info : VectorInitInfo α} (hinfo : info.Regular)
    {fill : β → ItemFn α} {spec : β → α → Prop} (hfill : ∀ b, LawfulFill (fill b) (spec b)) :
    ∀ (bs : List β) (x : Option Ptr) (items : List α) (w : World α), w.Tidy →
      w.Holds info x items → items.length + bs.length ≤ itemLimit →
      (∃ rc x' items' w', fillItems info fill bs items.length x w = .ok ((rc, x'), w') ∧
        w.Refill w' info x x' items' ∧ (rc ≠ .none → w'.error ≠ .none) ∧
        (w.Plenty → rc = .none ∧ (bs ≠ [] ∨ x ≠ none → x' ≠ none) ∧
          ∃ new, items' = items ++ new ∧ List.Forall₂ spec bs new)) ∨
      Starved (fillItems info fill bs items.length x) w := by
  intro bs
  induction bs with
  | nil =>
      intro x items w hw hx _
      refine .inl ⟨.none, x, items, w, rfl, .refl hw hx, fun h => absurd rfl h, ?_⟩
      intro _
      refine ⟨rfl, ?_, [], (List.append_nil items).symm, .nil⟩
      rintro (h | h)
      · exact absurd rfl h
      · exact h
  | cons b bs ih =>
      intro x items w hw hx hlimit
      rw [List.length_cons] at hlimit
      rw [Starved, fillItems_cons]
      rcases vectorCreateOrResize_run hinfo hw hx (Nat.succ_ne_zero items.length) (by omega)
          (Nat.le_succ _) with ⟨q, w1, v, hrun, hgrown⟩ | ⟨w1, hrun, hstep, herr, hnot⟩
      · obtain ⟨rc, y, t, hfn, hcode, hplenty⟩ := hfill b (v.cells items.length) w1.toThread
        obtain ⟨hroom, hrefill1⟩ := hgrown.filled y fun hp => (hplenty (hgrown.plenty hp)).2.2
        rw [Prog.bind_of_ok hrun]
        simp only
        rw [Prog.bind_of_ok (onItem_run hgrown.store hroom hfn)]
        by_cases hrc : rc = .none
        · rw [if_pos hrc]
          rcases ih (some q) (items ++ [y]) _ hrefill1.step.tidy hrefill1.holds
              (by rw [List.length_append, List.length_singleton]; omega) with
            ⟨rc', x', items', w', hrun', hrefill', hcode', hplenty'⟩ | ⟨hstarved, hnot⟩
          · rw [List.length_append, List.length_singleton] at hrun'
            refine .inl ⟨rc', x', items', w', hrun', hrefill1.trans hrefill', hcode', ?_⟩
            intro hp
            obtain ⟨-, hspec, -⟩ := hplenty (hgrown.plenty hp)
            obtain ⟨hok, hnull, new, rfl, hnew⟩ := hplenty' (hrefill1.plenty hp)
            refine ⟨hok, fun _ => hnull (.inr (by simp)), y :: new, ?_, .cons hspec hnew⟩
            rw [List.append_assoc, List.singleton_append]
          · rw [List.length_append, List.length_singleton] at hstarved
            exact .inr ⟨hstarved, fun hp => hnot (hrefill1.plenty hp)⟩
        · rw [if_neg hrc]
          refine .inl ⟨rc, some q, items ++ [y], _, rfl, hrefill1, fun _ => hcode hrc, ?_⟩
          intro hp
          exact absurd (hplenty (hgrown.plenty hp)).1 hrc
      · rw [Prog.bind_of_ok hrun]
        exact .inr ⟨rfl, hnot⟩

end Statgrab
