import Mathlib.Algebra.BigOperators.Group.Finset.Piecewise
import Statgrab.Vector.Capacity

/-!
# The life of an item

The item functions are given items that remember their life: raw memory, initialised, destroyed. An
`init_fn` over an initialised item, a `destroy_fn` over one that is not, and a `copy_fn` from or into one
that is not, all leave a mark that stays. The code of `vector.c` is generic in its items, so it is run on
these as on any others.

`Kept` is the invariant: the items in use are initialised, what lies behind them is not, nothing carries
the mark, and the calls of `init_fn` exceed those of `destroy_fn` by the items in use. Each of the small
changes of a world keeps it, so each function does, with every allocation and every copy free to fail.
-/

namespace Statgrab

open Function (update)

variable {α : Type}

/-- The life of an item, with a mark for one that was misused. -/
inductive Life where
  | raw | live | dead | misused
  deriving DecidableEq, Repr

namespace Life

/-- What `init_fn` does: the memory becomes an item. -/
def init : Life → Life
  | raw | dead => live
  | live | misused => misused

/-- What `destroy_fn` does: the item is gone. -/
def destroy : Life → Life
  | live => dead
  | raw | dead | misused => misused

/-- What any other function does: it asks for an item. -/
def use : Life → Life
  | live => live
  | raw | dead | misused => misused

end Life

structure Tracked (α : Type) where
  value : α
  life : Life

def trackedCopy (copy : α → α → ThreadM (SgError × α × α)) (s d : Tracked α) :
    ThreadM (SgError × Tracked α × Tracked α) := do
  let (rc, source, item) ← copy s.value d.value
  return (rc, ⟨source, s.life.use⟩, ⟨item, d.life.use⟩)

def VectorInitInfo.tracked (info : VectorInitInfo α) : VectorInitInfo (Tracked α) :=
  { itemSize := info.itemSize
    initFn := info.initFn.map fun f x => ⟨f x.value, x.life.init⟩
    copyFn := info.copyFn.map trackedCopy
    computeDiffFn := info.computeDiffFn.map fun f last now => ⟨f last.value now.value, now.life.use⟩
    compareFn := info.compareFn.map fun f a b => f a.value b.value
    destroyFn := info.destroyFn.map fun f x => ⟨f x.value, x.life.destroy⟩ }

/-- An item type with an `init_fn` and a `destroy_fn`, and with a `copy_fn` that returns, with whatever
code and whatever it wrote to the two items. -/
structure VectorInitInfo.Managed (info : VectorInitInfo α) : Prop where
  init : info.initFn.isSome
  destroy : info.destroyFn.isSome
  copy : ∃ copy, info.copyFn = some copy ∧ ∀ s d t, ∃ r t', copy s d t = .ok (r, t')

/-! ### Destroying -/

/-- Every item of `v` was destroyed once, and `g` is what it left. -/
def SgVector.DestroyedAs (v g : SgVector α) : Prop :=
  ∀ f, v.info.destroyFn = some f → ∀ i, i < v.usedCount → g.cells i = f (v.cells i)

theorem destroyUnused_gone (v : SgVector α) {f : α → α} (hf : v.info.destroyFn = some f) {n i : Nat}
    (hn : n ≤ i) (hi : i < v.usedCount) : (v.destroyUnused n).cells i = f (v.cells i) := by
  rw [SgVector.destroyUnused, if_pos (lt_of_le_of_lt hn hi), hf]
  simp [mapRange, hn, hi]

theorem destroyUnused_behind (v : SgVector α) {n i : Nat} (hi : v.usedCount ≤ i) :
    (v.destroyUnused n).cells i = v.cells i := by
  unfold SgVector.destroyUnused
  split
  · cases v.info.destroyFn with
    | none => rfl
    | some f => simp [mapRange, not_lt.mpr hi]
  · rfl

/-- The items behind `n`, and then the rest: each is destroyed by one of the two. -/
theorem destroyUnused_twice (v : SgVector α) {f : α → α} (hf : v.info.destroyFn = some f) (n : Nat)
    {i : Nat} (hi : i < v.usedCount) :
    ((v.destroyUnused n).destroyUnused 0).cells i = f (v.cells i) := by
  by_cases hn : n ≤ i
  · rw [destroyUnused_behind _ (by rw [destroyUnused_usedCount]; omega), destroyUnused_gone v hf hn hi]
  · rw [destroyUnused_gone (v.destroyUnused n) (by simpa using hf) (Nat.zero_le i)
      (by rw [destroyUnused_usedCount]; omega), destroyUnused_cells v (not_le.mp hn)]

/-! ### The invariant -/

/-- The items in use are initialised, and what lies behind them is not. -/
structure SgVector.Kept (v : SgVector (Tracked α)) : Prop where
  managed : ∃ info : VectorInitInfo α, info.Managed ∧ v.info = info.tracked
  inUse : ∀ i, i < v.usedCount → (v.cells i).life = .live
  behind : ∀ i, v.usedCount ≤ i → (v.cells i).life = .raw ∨ (v.cells i).life = .dead

/-- The number of items in use at an address. -/
def World.usedAt (w : World α) (p : Ptr) : Nat := (w.store p).elim 0 SgVector.usedCount

/-- The sum of `used_count` over the live vectors. -/
def World.inUse (w : World α) : Nat := ∑ p ∈ Finset.range w.next, w.usedAt p

/-- The states of a run. -/
structure World.Kept (w : World (Tracked α)) : Prop where
  fresh : w.Fresh
  unbounded : w.bounded = false
  raw : ∀ p i, (w.raw p i).life = .raw
  vectors : ∀ p v, w.store p = some v → v.Kept
  graves : ∀ p v, w.graves p = some v → ∀ i, (v.cells i).life ≠ .misused
  balance : w.inits = w.destroys + w.inUse

namespace SgVector.Kept

variable {v : SgVector (Tracked α)}

theorem not_misused (h : v.Kept) (i : Nat) : (v.cells i).life ≠ .misused := by
  by_cases hi : i < v.usedCount
  · simp [h.inUse i hi]
  · rcases h.behind i (not_lt.mp hi) with hraw | hdead
    · simp [hraw]
    · simp [hdead]

theorem initFn (h : v.Kept) : ∃ f : α → α, v.info.initFn = some fun x => ⟨f x.value, x.life.init⟩ := by
  obtain ⟨info, hman, hinfo⟩ := h.managed
  obtain ⟨f, hf⟩ := Option.isSome_iff_exists.mp hman.init
  exact ⟨f, by rw [hinfo, VectorInitInfo.tracked, hf, Option.map_some]⟩

theorem destroyFn (h : v.Kept) :
    ∃ f : α → α, v.info.destroyFn = some fun x => ⟨f x.value, x.life.destroy⟩ := by
  obtain ⟨info, hman, hinfo⟩ := h.managed
  obtain ⟨f, hf⟩ := Option.isSome_iff_exists.mp hman.destroy
  exact ⟨f, by rw [hinfo, VectorInitInfo.tracked, hf, Option.map_some]⟩

theorem destroyUnused (h : v.Kept) (n : Nat) : (v.destroyUnused n).Kept := by
  obtain ⟨f, hf⟩ := h.destroyFn
  unfold SgVector.destroyUnused
  split
  case isFalse => exact h
  case isTrue hlt =>
    refine ⟨h.managed, ?_, ?_⟩
    · intro i hi
      simp only [hf, Option.elim_some, mapRange]
      rw [if_neg (by simp only at hi; omega)]
      exact h.inUse i (by simp only at hi; omega)
    · intro i hi
      simp only at hi
      simp only [hf, Option.elim_some, mapRange]
      by_cases hi' : i < v.usedCount
      · rw [if_pos ⟨hi, hi'⟩]
        simp [h.inUse i hi', Life.destroy]
      · rw [if_neg (by omega)]
        exact h.behind i (not_lt.mp hi')

theorem initNew (h : v.Kept) (n : Nat) : (v.initNew n).Kept := by
  obtain ⟨f, hf⟩ := h.initFn
  unfold SgVector.initNew
  split
  case isFalse => exact h
  case isTrue hlt =>
    refine ⟨h.managed, ?_, ?_⟩
    · intro i hi
      simp only at hi
      simp only [hf, Option.elim_some, mapRange]
      by_cases hi' : v.usedCount ≤ i
      · rw [if_pos ⟨hi', hi⟩]
        rcases h.behind i hi' with hraw | hdead
        · simp [hraw, Life.init]
        · simp [hdead, Life.init]
      · rw [if_neg (by omega)]
        exact h.inUse i (by omega)
    · intro i hi
      simp only at hi
      simp only [hf, Option.elim_some, mapRange]
      rw [if_neg (by omega)]
      exact h.behind i (by omega)

theorem used (h : v.Kept) {i : Nat} (hi : i < v.usedCount) (x : α) :
    ({ v with cells := update v.cells i ⟨x, (v.cells i).life.use⟩ } : SgVector (Tracked α)).Kept := by
  refine ⟨h.managed, ?_, ?_⟩
  · intro j hj
    by_cases hji : j = i
    · subst hji
      simp [h.inUse j hi, Life.use]
    · simpa [hji] using h.inUse j hj
  · intro j hj
    have hji : j ≠ i := (lt_of_lt_of_le hi hj).ne'
    simpa [hji] using h.behind j hj

theorem moved (h : v.Kept) (roundCount : Nat) : (v.moved roundCount).Kept :=
  ⟨h.managed, h.inUse, h.behind⟩

end SgVector.Kept

/-! ### The sum of the used counts -/

section Sum

variable {w : World α} {p : Ptr} {v : SgVector α}

theorem usedAt_of_store (hv : w.store p = some v) : w.usedAt p = v.usedCount := by
  rw [World.usedAt, hv]
  rfl

theorem inUse_update {w' : World α} {x : Option (SgVector α)} (hp : p < w.next)
    (hnext : w'.next = w.next) (hstore : w'.store = update w.store p x) :
    w'.inUse + w.usedAt p = w.inUse + x.elim 0 SgVector.usedCount := by
  have hused : w'.usedAt = update w.usedAt p (x.elim 0 SgVector.usedCount) := by
    funext q
    unfold World.usedAt
    by_cases hq : q = p
    · subst hq
      simp [hstore]
    · simp [hstore, hq]
  have hmem : p ∈ Finset.range w.next := Finset.mem_range.mpr hp
  rw [World.inUse, World.inUse, hnext, hused, Finset.sum_update_of_mem hmem,
    Finset.sum_eq_add_sum_sdiff_singleton_of_mem hmem w.usedAt]
  omega

theorem inUse_place (w : World α) (v : SgVector α) : (w.place v).inUse = w.inUse + v.usedCount := by
  have hold : ∀ q ∈ Finset.range w.next, (w.place v).usedAt q = w.usedAt q := by
    intro q hq
    have hne : q ≠ w.next := (Finset.mem_range.mp hq).ne
    simp [World.usedAt, hne]
  have hnew : (w.place v).usedAt w.next = v.usedCount := by simp [World.usedAt]
  rw [World.inUse, World.inUse, place_next, Finset.sum_range_succ, Finset.sum_congr rfl hold, hnew]

end Sum

/-! ### What keeps the invariant -/

namespace World.Kept

variable {w w' : World (Tracked α)} {p q : Ptr} {u v : SgVector (Tracked α)}

theorem change (h : w.Kept) (hv : w.store p = some v) (hu : u.Kept)
    (hstore : w'.store = update w.store p (some u)) (hnext : w'.next = w.next)
    (hraw : w'.raw = w.raw) (hbounded : w'.bounded = w.bounded) (hgraves : w'.graves = w.graves)
    (hcalls : w'.inits + w.destroys + v.usedCount = w.inits + w'.destroys + u.usedCount) :
    w'.Kept := by
  have hp : p < w.next := h.fresh.lt hv
  refine ⟨?_, hbounded.trans h.unbounded, hraw ▸ h.raw, ?_, hgraves ▸ h.graves, ?_⟩
  · intro q hq
    have hne : q ≠ p := (lt_of_lt_of_le hp (hnext ▸ hq)).ne'
    rw [hstore, Function.update_of_ne hne]
    exact h.fresh q (hnext ▸ hq)
  · intro q x hx
    rw [hstore] at hx
    by_cases hq : q = p
    · subst hq
      rw [Function.update_self] at hx
      cases hx
      exact hu
    · rw [Function.update_of_ne hq] at hx
      exact h.vectors q x hx
  · have hsum := inUse_update hp hnext hstore
    rw [usedAt_of_store hv, Option.elim_some] at hsum
    have := h.balance
    omega

theorem thread (h : w.Kept) (t : Thread) : ({ w with toThread := t } : World (Tracked α)).Kept :=
  ⟨h.fresh, h.unbounded, h.raw, h.vectors, h.graves, h.balance⟩

theorem answered (h : w.Kept) : w.answered.Kept := h.thread _

theorem refused (h : w.Kept) (size : Nat) : (w.refused size).Kept := h.thread _

theorem put (h : w.Kept) (hv : w.store p = some v) (hu : u.Kept) (hused : u.usedCount = v.usedCount) :
    (w.put p u).Kept := by
  have hcalls : (w.put p u).inits + w.destroys + v.usedCount
      = w.inits + (w.put p u).destroys + u.usedCount := by
    simp only [World.put]
    omega
  exact h.change hv hu rfl rfl rfl rfl rfl hcalls

theorem shrink (h : w.Kept) (hv : w.store p = some v) (n : Nat) : (w.shrink p v n).Kept := by
  have hkept := h.vectors p v hv
  obtain ⟨f, hf⟩ := hkept.destroyFn
  have hcalls : (w.shrink p v n).inits + w.destroys + v.usedCount
      = w.inits + (w.shrink p v n).destroys + (v.destroyUnused n).usedCount := by
    simp only [World.shrink, hf, Option.isSome_some, and_true, destroyUnused_usedCount]
    split <;> omega
  exact h.change hv (hkept.destroyUnused n) rfl rfl rfl rfl rfl hcalls

theorem grow (h : w.Kept) (hv : w.store p = some v) (n : Nat) : (w.grow p v n).Kept := by
  have hkept := h.vectors p v hv
  obtain ⟨f, hf⟩ := hkept.initFn
  have hcalls : (w.grow p v n).inits + w.destroys + v.usedCount
      = w.inits + (w.grow p v n).destroys + (v.initNew n).usedCount := by
    simp only [World.grow, hf, Option.isSome_some, and_true, initNew_usedCount]
    split <;> omega
  exact h.change hv (hkept.initNew n) rfl rfl rfl rfl rfl hcalls

theorem graves_drop (h : w.Kept) (hv : w.store p = some v) {r : Ptr} {x : SgVector (Tracked α)}
    (hx : (w.drop p).graves r = some x) (i : Nat) : (x.cells i).life ≠ .misused := by
  rw [drop_graves] at hx
  by_cases hr : r = p
  · subst hr
    rw [Function.update_self, hv] at hx
    cases hx
    exact (h.vectors r v hv).not_misused i
  · rw [Function.update_of_ne hr] at hx
    exact h.graves r x hx i

theorem vectors_drop (h : w.Kept) {r : Ptr} {x : SgVector (Tracked α)}
    (hx : (w.drop p).store r = some x) : x.Kept := by
  rw [drop_store] at hx
  by_cases hr : r = p
  · subst hr
    simp at hx
  · rw [Function.update_of_ne hr] at hx
    exact h.vectors r x hx

theorem fresh_drop (h : w.Kept) (hv : w.store p = some v) : (w.drop p).Fresh := by
  intro r hr
  have hne : r ≠ p := (lt_of_lt_of_le (h.fresh.lt hv) hr).ne'
  rw [drop_store, Function.update_of_ne hne]
  exact h.fresh r hr

theorem drop (h : w.Kept) (hv : w.store p = some v) (hused : v.usedCount = 0) : (w.drop p).Kept := by
  refine ⟨h.fresh_drop hv, h.unbounded, h.raw, fun r x hx => h.vectors_drop hx,
    fun r x hx => h.graves_drop hv hx, ?_⟩
  have hsum := inUse_update (h.fresh.lt hv) (drop_next w p) (drop_store w p)
  rw [usedAt_of_store hv, hused, Option.elim_none] at hsum
  have := h.balance
  simp only [World.drop] at *
  omega

theorem place (h : w.Kept) (hu : u.Kept) (hused : u.usedCount = 0) : (w.place u).Kept := by
  refine ⟨?_, h.unbounded, h.raw, ?_, h.graves, ?_⟩
  · intro r hr
    rw [place_store, Function.update_of_ne (Nat.lt_of_succ_le hr).ne']
    exact h.fresh r (Nat.le_of_succ_le hr)
  · intro r x hx
    rw [place_store] at hx
    by_cases hr : r = w.next
    · subst hr
      rw [Function.update_self] at hx
      cases hx
      exact hu
    · rw [Function.update_of_ne hr] at hx
      exact h.vectors r x hx
  · rw [inUse_place, hused]
    exact h.balance

theorem move (h : w.Kept) (hv : w.store p = some v) (hu : u.Kept) (hused : u.usedCount = v.usedCount) :
    ((w.drop p).place u).Kept := by
  refine ⟨?_, h.unbounded, h.raw, ?_, fun r x hx => h.graves_drop hv hx, ?_⟩
  · intro r hr
    rw [place_store, Function.update_of_ne (Nat.lt_of_succ_le hr).ne']
    exact h.fresh_drop hv r (Nat.le_of_succ_le hr)
  · intro r x hx
    rw [place_store] at hx
    by_cases hr : r = (w.drop p).next
    · subst hr
      rw [Function.update_self] at hx
      cases hx
      exact hu
    · rw [Function.update_of_ne hr] at hx
      exact h.vectors_drop hx
  · have hsum := inUse_update (h.fresh.lt hv) (drop_next w p) (drop_store w p)
    rw [usedAt_of_store hv, Option.elim_none] at hsum
    have := h.balance
    rw [inUse_place]
    simp only [World.drop, World.place] at *
    omega

theorem inBlock (h : w.Kept) (v : SgVector (Tracked α)) (n : Nat) : w.InBlock v n :=
  w.inBlock_of_unbounded h.unbounded v n

/-! ### The functions -/

theorem free (h : w.Kept) (hv : w.store p = some v) :
    ∃ w', sgVectorFree (some p) w = .ok ((), w') ∧ w'.Kept :=
  ⟨_, sgVectorFree_run hv (h.inBlock v _),
    (h.shrink hv 0).drop (v := v.destroyUnused 0) (by simp) (by simp)⟩

theorem clear (h : w.Kept) (hv : w.store p = some v) :
    ∃ w', sgVectorClear (some p) w = .ok ((), w') ∧ w'.Kept :=
  ⟨_, sgVectorClear_run hv (h.inBlock v _), h.shrink hv 0⟩

theorem createInt (h : w.Kept) {info : VectorInitInfo α} (hman : info.Managed)
    (blockShift allocCount initialUsed : Nat) :
    (∃ w', sgVectorCreateInt blockShift allocCount initialUsed info.tracked w = .ok (none, w') ∧
      w'.Kept) ∨
    (∃ w' v, sgVectorCreateInt blockShift allocCount initialUsed info.tracked w
        = .ok (some w.next, w') ∧ w'.Kept ∧ w.Handover w' none (some w.next) ∧
      w'.store w.next = some v ∧ v.usedCount = initialUsed) := by
  by_cases hbytes : blockBytes (nextPower2In (max allocCount initialUsed) blockShift) info.tracked = 0
  · exact .inl ⟨w, sgVectorCreateInt_zero hbytes, h⟩
  · cases hmem : w.mem 0 with
    | false => exact .inl ⟨_, sgVectorCreateInt_refused hbytes hmem, h.refused _⟩
    | true =>
        let blank := SgVector.blank blockShift allocCount initialUsed info.tracked (w.raw w.next)
        have hblank : blank.Kept := by
          refine ⟨⟨info, hman, rfl⟩, ?_, fun i _ => .inl (h.raw w.next i)⟩
          intro i hi
          exact absurd hi (Nat.not_lt_zero i)
        refine .inr ⟨_, _, sgVectorCreateInt_run hbytes hmem (h.inBlock _ _), ?_,
          ((World.Handover.idle w).answered.place _).grow _ _, Function.update_self _ _ _, ?_⟩
        · exact (h.answered.place hblank rfl).grow (v := blank) (Function.update_self _ _ _) initialUsed
        · simp [SgVector.blank]

/-- A resize keeps the first items and makes the others, or destroys every item once. -/
theorem resize (h : w.Kept) {n : Nat} (hv : w.store p = some v)
    (hfit : n ≠ 0 → Fits n v.blockShift v.info) :
    (∃ q w' v', sgVectorResize (some p) n w = .ok (some q, w') ∧ w'.Kept ∧ n ≠ 0 ∧
      w'.store q = some v' ∧ v.ResizedTo v' n) ∨
    (∃ w' g, sgVectorResize (some p) n w = .ok (none, w') ∧ w'.Kept ∧ w'.store p = none ∧
      w'.graves p = some g ∧ v.DestroyedAs g) := by
  have hb := h.inBlock v v.usedCount
  have hshrunk := h.shrink hv n
  have hlive : (w.shrink p v n).store p = some (v.destroyUnused n) := Function.update_self _ _ _
  by_cases hn : n = 0
  · subst hn
    refine .inr ⟨_, _, sgVectorResize_zero hv hb, ?_, Function.update_self _ _ _,
      (Function.update_self _ _ _).trans hlive, ?_⟩
    · exact (hshrunk.drop hlive (by simp)).thread _
    · intro f hf i hi
      exact destroyUnused_gone v hf (Nat.zero_le i) hi
  · have hfits := hfit hn
    have heq := hfits.nextPower2In_eq
    have hbytes := hfits.blockBytes_ne_zero
    -- the vector that results is the same whether the block stays or moves
    have hresult : ∀ q w', sgVectorResize (some p) n w = .ok (some q, w') →
        (roundUp n v.blockShift ≠ v.allocCount → w.mem 0 = true) →
        ∃ v', w'.store q = some v' ∧ v.ResizedTo v' n := by
      intro q w' hrun hmem
      obtain ⟨q', w'', v', hrun', -, hq, hres, -⟩ :=
        sgVectorResize_run h.fresh hn hv hb hfits (fun _ => h.inBlock _ _) hmem
      rw [hrun] at hrun'
      cases hrun'
      exact ⟨v', hq, hres⟩
    by_cases hround : roundUp n v.blockShift = v.allocCount
    · have hrun := sgVectorResize_keep hn hv hb (heq.trans hround) (h.inBlock _ _)
      obtain ⟨v', hq, hres⟩ := hresult _ _ hrun (fun hne => absurd hround hne)
      exact .inl ⟨_, _, v', hrun, hshrunk.grow hlive n, hn, hq, hres⟩
    · cases hmem : w.mem 0 with
      | true =>
          have hrun := sgVectorResize_move hn hv hb (by rwa [heq]) hbytes hmem (h.inBlock _ _)
          obtain ⟨v', hq, hres⟩ := hresult _ _ hrun (fun _ => hmem)
          refine .inl ⟨_, _, v', hrun, ?_, hn, hq, hres⟩
          have hmoved := hshrunk.answered.move hlive
            ((hshrunk.vectors p _ hlive).moved (nextPower2In n v.blockShift)) rfl
          exact hmoved.grow (Function.update_self _ _ _) n
      | false =>
          have hpos : nextPower2In n v.blockShift ≠ 0 := by
            rw [heq]
            exact (roundUp_pos (Nat.pos_of_ne_zero hn) _).ne'
          have hrefused := (hshrunk.refused (blockBytes (nextPower2In n v.blockShift) v.info)).shrink
            hlive 0
          refine .inr ⟨_, _, sgVectorResize_abandon hn hv hb (by rwa [heq]) hpos hbytes hmem, ?_,
            Function.update_self _ _ _,
            (Function.update_self _ _ _).trans (Function.update_self _ _ _), ?_⟩
          · exact hrefused.drop (Function.update_self _ _ _) (by simp)
          · intro f hf i hi
            exact destroyUnused_twice v hf n hi

/-- The copy loop is given items in use only, whatever the copies do. -/
theorem copyItems_kept {src dest : Ptr} (hne : src ≠ dest) :
    ∀ (fuel i : Nat) (w : World (Tracked α)) (s d : SgVector (Tracked α)), w.Kept →
      w.store src = some s → w.store dest = some d → i + fuel ≤ s.usedCount →
      i + fuel ≤ d.usedCount →
      ∃ rc w' d', copyItems src dest fuel i w = .ok (rc, w') ∧ w'.Kept ∧ w'.store dest = some d' := by
  intro fuel
  induction fuel with
  | zero =>
      intro i w s d h hs hd _ _
      exact ⟨.none, w, d, rfl, h, hd⟩
  | succ fuel ih =>
      intro i w s d h hs hd his hid
      have hskept := h.vectors src s hs
      obtain ⟨info, hman, hinfo⟩ := hskept.managed
      obtain ⟨copy, hcopy, htotal⟩ := hman.copy
      obtain ⟨⟨rc, source, item⟩, t, hrun⟩ := htotal (s.cells i).value (d.cells i).value w.toThread
      have htracked : trackedCopy copy (s.cells i) (d.cells i) w.toThread
          = .ok ((rc, ⟨source, (s.cells i).life.use⟩, ⟨item, (d.cells i).life.use⟩), t) := by
        rw [trackedCopy, Prog.bind_of_ok hrun]
        rfl
      have hfn : s.info.copyFn = some (trackedCopy copy) := by
        rw [hinfo, VectorInitInfo.tracked, hcopy, Option.map_some]
      let s' : SgVector (Tracked α) :=
        { s with cells := update s.cells i ⟨source, (s.cells i).life.use⟩ }
      let d' : SgVector (Tracked α) :=
        { d with cells := update d.cells i ⟨item, (d.cells i).life.use⟩ }
      let w1 := (({ w with toThread := t } : World (Tracked α)).put src s').put dest d'
      have hd1 : (({ w with toThread := t } : World (Tracked α)).put src s').store dest = some d :=
        (Function.update_of_ne hne.symm _ _).trans hd
      have hkept : w1.Kept :=
        ((h.thread t).put hs (hskept.used (by omega) source) rfl).put hd1
          ((h.vectors dest d hd).used (by omega) item) rfl
      have hsrc : w1.store src = some s' :=
        (Function.update_of_ne hne _ _).trans (Function.update_self _ _ _)
      have hdest : w1.store dest = some d' := Function.update_self _ _ _
      rw [copyItems_call hfn hs hd (h.inBlock s _) (h.inBlock d _) htracked]
      by_cases hrc : rc = .none
      · rw [if_pos hrc]
        apply ih (i + 1) w1 s' d' hkept hsrc hdest
        · show i + 1 + fuel ≤ s.usedCount
          omega
        · show i + 1 + fuel ≤ d.usedCount
          omega
      · rw [if_neg hrc]
        exact ⟨rc, w1, d', rfl, hkept, hdest⟩

theorem clone (h : w.Kept) {src : Ptr} {s : SgVector (Tracked α)} (hs : w.store src = some s) :
    ∃ r w', sgVectorClone (some src) w = .ok (r, w') ∧ w'.Kept := by
  obtain ⟨info, hman, hinfo⟩ := (h.vectors src s hs).managed
  rw [sgVectorClone, Prog.bind_of_ok (deref_run hs), hinfo]
  rcases h.createInt hman s.blockShift s.allocCount s.usedCount with
    ⟨w1, hcreate, hkept⟩ | ⟨w1, d, hcreate, hkept, hand, hd, hused⟩
  · refine ⟨none, w1, ?_, hkept⟩
    rw [Prog.bind_of_ok hcreate]
    rfl
  · have hs1 : w1.store src = some s := hand.live h.fresh hs (by simp)
    have hne : src ≠ w.next := (h.fresh.lt hs).ne
    obtain ⟨rc, w2, d', hcopy, hkept2, hd2⟩ := copyItems_kept hne s.usedCount 0 w1 s d hkept hs1 hd
      (by omega) (by omega)
    have htarget : cloneTarget w.next d.usedCount s.usedCount w1 = .ok (some w.next, w1) := by
      rw [cloneTarget, if_pos hused]
      rfl
    rw [Prog.bind_of_ok hcreate]
    simp only
    by_cases hrc : rc = .none
    · have hinto : sgVectorCloneIntoInt w.next src w1 = .ok ((.none, some w.next), w2) := by
        rw [sgVectorCloneIntoInt, Prog.bind_of_ok (deref_run hd), Prog.bind_of_ok (deref_run hs1),
          Prog.bind_of_ok htarget]
        simp only
        rw [Prog.bind_of_ok hcopy, if_pos hrc]
        rfl
      refine ⟨some w.next, w2, ?_, hkept2⟩
      rw [Prog.bind_of_ok hinto]
      rfl
    · obtain ⟨w3, hfree, hkept3⟩ := hkept2.free hd2
      have hinto : sgVectorCloneIntoInt w.next src w1 = .ok ((rc, none), w3) := by
        rw [sgVectorCloneIntoInt, Prog.bind_of_ok (deref_run hd), Prog.bind_of_ok (deref_run hs1),
          Prog.bind_of_ok htarget]
        simp only
        rw [Prog.bind_of_ok hcopy, if_neg hrc, Prog.bind_of_ok hfree]
        rfl
      refine ⟨none, w3, ?_, hkept3⟩
      rw [Prog.bind_of_ok hinto]
      simp only [if_neg hrc]
      rfl

end World.Kept

/-! ### Runs -/

/-- No item was misused, in a vector or in a block that was given back; the items of the vectors are
initialised; and what was initialised is destroyed or in use. -/
structure World.Balanced (w : World (Tracked α)) : Prop where
  vectors : ∀ p v, w.store p = some v → ∀ i, (v.cells i).life ≠ .misused
  graves : ∀ p v, w.graves p = some v → ∀ i, (v.cells i).life ≠ .misused
  live : ∀ p v, w.store p = some v → ∀ i, i < v.usedCount → (v.cells i).life = .live
  calls : (w.inits : Int) - w.destroys = w.inUse

/-- A call of one of the functions that make, change or release a vector. -/
inductive ItemOp (α : Type) where
  | create (blockSize allocCount initialUsed : Nat) (info : VectorInitInfo α)
  | resize (p : Ptr) (newCount : Nat)
  | clear (p : Ptr)
  | clone (src : Ptr)
  | free (p : Ptr)

namespace ItemOp

/-- The call, with its result thrown away, on items that remember their life. -/
def run : ItemOp α → VecM (Tracked α) Unit
  | .create blockSize allocCount initialUsed info => do
      let _ ← sgVectorCreate blockSize allocCount initialUsed info.tracked
  | .resize p newCount => do
      let _ ← sgVectorResize (some p) newCount
  | .clear p => sgVectorClear (some p)
  | .clone src => do
      let _ ← sgVectorClone (some src)
  | .free p => sgVectorFree (some p)

/-- What the caller owes: live vectors, a block size of at most `2 ^ 31`, an item type with its functions,
and for a resize a block whose bytes are a `size_t`. -/
def Valid (w : World (Tracked α)) : ItemOp α → Prop
  | .create blockSize _ _ info => blockSize ≤ 2 ^ 31 ∧ info.Managed
  | .resize p newCount =>
      ∃ v, w.store p = some v ∧ (newCount ≠ 0 → Fits newCount v.blockShift v.info)
  | .clear p => ∃ v, w.store p = some v
  | .clone src => ∃ s, w.store src = some s
  | .free p => ∃ v, w.store p = some v

def Resized (w w' : World (Tracked α)) (p : Ptr) (n : Nat) : Prop :=
  ∀ v, w.store p = some v →
    (∃ q v', sgVectorResize (some p) n w = .ok (some q, w') ∧ n ≠ 0 ∧ w'.store q = some v' ∧
      v'.usedCount = n ∧ (∀ i, i < min v.usedCount n → v'.cells i = v.cells i) ∧
      ∀ f, v.info.initFn = some f → ∀ i, v.usedCount ≤ i → i < n → ∃ x, v'.cells i = f x) ∨
    (∃ g, sgVectorResize (some p) n w = .ok (none, w') ∧ w'.store p = none ∧
      w'.graves p = some g ∧ v.DestroyedAs g)

/-- What is asked of the vector the call is about. -/
def Post (w w' : World (Tracked α)) : ItemOp α → Prop
  | .resize p newCount => Resized w w' p newCount
  | _ => True

/-- The call returns, the account of the items is right afterwards, and a resize did what it is for. -/
def Accounts (w : World (Tracked α)) (op : ItemOp α) : Prop :=
  ∃ w', op.run w = .ok ((), w') ∧ w'.Balanced ∧ op.Post w w'

end ItemOp

theorem World.Kept.balanced {w : World (Tracked α)} (h : w.Kept) : w.Balanced := by
  refine ⟨fun p v hv => (h.vectors p v hv).not_misused, h.graves,
    fun p v hv => (h.vectors p v hv).inUse, ?_⟩
  have := h.balance
  omega

/-- Each call keeps the invariant and does what is asked of it. -/
theorem ItemOp.step {w : World (Tracked α)} {op : ItemOp α} (h : w.Kept) (hvalid : op.Valid w) :
    op.Accounts w ∧ ∀ w', op.run w = .ok ((), w') → w'.Kept := by
  suffices hrun : ∃ w', op.run w = .ok ((), w') ∧ w'.Kept ∧ op.Post w w' by
    obtain ⟨w', hrun, hkept, hpost⟩ := hrun
    refine ⟨⟨w', hrun, hkept.balanced, hpost⟩, ?_⟩
    intro w'' hrun'
    rw [hrun] at hrun'
    cases hrun'
    exact hkept
  cases op with
  | create blockSize allocCount initialUsed info =>
      obtain ⟨hsize, hman⟩ := hvalid
      obtain ⟨shift, hshift, -⟩ := blockShiftOf_isSome hsize
      rcases h.createInt hman shift allocCount initialUsed with
        ⟨w', hcreate, hkept⟩ | ⟨w', v, hcreate, hkept, -⟩
      · refine ⟨w', ?_, hkept, trivial⟩
        rw [run, sgVectorCreate, hshift, Prog.bind_of_ok hcreate]
        rfl
      · refine ⟨w', ?_, hkept, trivial⟩
        rw [run, sgVectorCreate, hshift, Prog.bind_of_ok hcreate]
        rfl
  | resize p newCount =>
      obtain ⟨v, hv, hfit⟩ := hvalid
      rcases h.resize hv hfit with
        ⟨q, w', v', hresize, hkept, hn, hq, hres⟩ | ⟨w', g, hresize, hkept, hgone, hgrave, hdestroyed⟩
      · refine ⟨w', ?_, hkept, ?_⟩
        · rw [run, Prog.bind_of_ok hresize]
          rfl
        · intro u hu
          rw [hv] at hu
          cases hu
          refine .inl ⟨q, v', hresize, hn, hq, hres.usedCount, ?_, hres.fresh⟩
          intro i hi
          exact hres.cells i (by omega) (by omega)
      · refine ⟨w', ?_, hkept, ?_⟩
        · rw [run, Prog.bind_of_ok hresize]
          rfl
        · intro u hu
          rw [hv] at hu
          cases hu
          exact .inr ⟨g, hresize, hgone, hgrave, hdestroyed⟩
  | clear p =>
      obtain ⟨v, hv⟩ := hvalid
      obtain ⟨w', hclear, hkept⟩ := h.clear hv
      exact ⟨w', hclear, hkept, trivial⟩
  | clone src =>
      obtain ⟨s, hs⟩ := hvalid
      obtain ⟨r, w', hclone, hkept⟩ := h.clone hs
      refine ⟨w', ?_, hkept, trivial⟩
      rw [run, Prog.bind_of_ok hclone]
      rfl
  | free p =>
      obtain ⟨v, hv⟩ := hvalid
      obtain ⟨w', hfree, hkept⟩ := h.free hv
      exact ⟨w', hfree, hkept, trivial⟩

/-- A world in which nothing has happened yet. -/
structure World.Untouched (w : World (Tracked α)) : Prop where
  store : ∀ p, w.store p = none
  graves : ∀ p, w.graves p = none
  raw : ∀ p i, (w.raw p i).life = .raw
  inits : w.inits = 0
  destroys : w.destroys = 0

theorem World.Untouched.kept {w : World (Tracked α)} (h : w.Untouched) (hb : w.bounded = false) :
    w.Kept := by
  refine ⟨fun p _ => h.store p, hb, h.raw, ?_, ?_, ?_⟩
  · intro p v hv
    rw [h.store] at hv
    cases hv
  · intro p v hv
    rw [h.graves] at hv
    cases hv
  · have hzero : w.inUse = 0 := by
      apply Finset.sum_eq_zero
      intro p _
      rw [World.usedAt, h.store]
      rfl
    rw [h.inits, h.destroys, hzero]

/-- In every run, with any allocations and copies failing, no item is destroyed twice or used after it
was destroyed, the items initialised and not destroyed are those in use, and a resize keeps the first
items and makes the others, or destroys every item once. -/
theorem lifecycle_run (w : World (Tracked α)) (ops : List (ItemOp α)) (huntouched : w.Untouched)
    (hunbounded : w.bounded = false) (hvalid : Prog.Always ItemOp.run ItemOp.Valid w ops) :
    Prog.Always ItemOp.run ItemOp.Accounts w ops := by
  refine Prog.Always.imp (I := World.Kept) ?_ ?_ (huntouched.kept hunbounded) hvalid
  · intro w op hw hv
    exact (ItemOp.step hw hv).1
  · intro w op w' hw hv hrun
    exact (ItemOp.step hw hv).2 w' hrun

/-! ### Owned strings -/

def stringInfo : VectorInitInfo (Option CString) :=
  { itemSize := 8
    initFn := some fun _ => none
    copyFn := some (keepSource fun s d => sgUpdateString d s)
    computeDiffFn := none
    compareFn := none
    destroyFn := some fun _ => none }

theorem stringInfo_managed : stringInfo.Managed := by
  refine ⟨rfl, rfl, _, rfl, ?_⟩
  intro s d t
  rcases sgUpdateString_cases d s t with ⟨t', hrun, -⟩ | ⟨t', hrun, -⟩
  · exact ⟨_, t', by rw [keepSource, Prog.bind_of_ok hrun]; rfl⟩
  · exact ⟨_, t', by rw [keepSource, Prog.bind_of_ok hrun]; rfl⟩

/-- A world without vectors, whose allocator refuses the third request. -/
def scarceWorld : World (Tracked (Option CString)) :=
  { glob := .clear, mem := fun n => decide (n ≠ 2), store := fun _ => none, next := 0
    raw := fun _ _ => ⟨none, .raw⟩, bounded := false, inits := 0, destroys := 0, frees := fun _ => 0 }

/-- A vector of two strings is cloned, and growing it to twenty is refused the memory. -/
theorem lifecycle_strings :
    Prog.Always ItemOp.run ItemOp.Accounts scarceWorld
      [.create 16 16 2 stringInfo, .clone 0, .resize 0 20, .free 1] := by
  apply lifecycle_run _ _ ⟨fun _ => rfl, fun _ => rfl, fun _ _ => rfl, rfl, rfl⟩ rfl
  rw [Prog.always_cons_of_ok rfl, Prog.always_cons_of_ok rfl, Prog.always_cons_of_ok rfl,
    Prog.always_cons_of_ok rfl]
  refine ⟨⟨by decide, stringInfo_managed⟩, ⟨_, rfl⟩, ⟨_, rfl, fun _ => ?_⟩, ⟨_, rfl⟩, trivial⟩
  exact ⟨by decide, by decide, by decide⟩

end Statgrab
