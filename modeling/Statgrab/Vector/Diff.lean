import Mathlib.Data.List.Nodup
import Statgrab.Lib.Bits
import Statgrab.Vector.Capacity

/-!
# `sg_vector_compute_diff`

The difference of two snapshots: the current one is cloned into the target, and every item of the
target is reduced by the item of the last snapshot that has the same key. A bit table keeps an item of
the last snapshot from being used twice.

`subtract` says the same on lists: an item takes what matches it out of the last snapshot. The loops
are shown to compute it, with the unmarked items of the table for the list that is left. With distinct
keys it is a lookup, `subtract_eq_map`.
-/

namespace Statgrab

open Function (update)

variable {α : Type}

/-- The loop over the items of the last snapshot, for the item `i` of the target, with `fuel` items
left from index `j`. The table `matched` has `words` words. -/
def diffItem (compare : α → α → Option Bool) (computeDiff : α → α → α) (words : Nat) (last dest : Ptr)
    (i : Nat) : Nat → Nat → BitTable → VecM α BitTable
  | 0, _, matched => return matched
  | fuel + 1, j, matched =>
      if words ≤ j / 32 then Prog.fault .outOfBlock
      else if matched.isSet j then diffItem compare computeDiff words last dest i fuel (j + 1) matched
      else do
        let l ← deref last
        let d ← deref dest
        touch l (j + 1)
        touch d (i + 1)
        match compare (l.cells j) (d.cells i) with
        | none => Prog.fault .nullPointer
        | some false => diffItem compare computeDiff words last dest i fuel (j + 1) matched
        | some true => do
            Prog.modify fun w => w.put dest
              { d with cells := update d.cells i (computeDiff (l.cells j) (d.cells i)) }
            diffItem compare computeDiff words last dest i fuel (j + 1) (matched.set j)

/-- The loop over the items of the target, with `fuel` items left from index `i`. -/
def diffItems (compare : α → α → Option Bool) (computeDiff : α → α → α) (words : Nat)
    (last dest : Ptr) : Nat → Nat → BitTable → VecM α Unit
  | 0, _, _ => return ()
  | fuel + 1, i, matched => do
      let l ← deref last
      let matched ← diffItem compare computeDiff words last dest i l.usedCount 0 matched
      diffItems compare computeDiff words last dest fuel (i + 1) matched

/-- What `sg_vector_compute_diff` does once the target is a copy of the current vector. -/
def subtractLast (dest : Ptr) (last : Option Ptr) : VecM α Unit :=
  match last with
  | none => return ()
  | some l => do
      let lv ← deref l
      match lv.info.compareFn, lv.info.computeDiffFn with
      | some compare, some computeDiff =>
          let d ← deref dest
          diffItems compare computeDiff (lv.usedCount / 32 + 1) l dest d.usedCount 0 .zero
      | _, _ => Prog.fault .nullPointer

/-- `sg_vector_compute_diff(dest, cur, last)`: the returned code and the new `*dest`. -/
def sgVectorComputeDiff (dest cur last : Option Ptr) : VecM α (SgError × Option Ptr) :=
  match cur with
  | none => do
      sgVectorFree dest
      let rc ← onThread (returnWithSetError .invalidArgument 0 "sg_vector_compute_diff(cur_vector)")
      return (rc, none)
  | some cur => do
      let (rc, dest) ← sgVectorCloneInto dest (some cur)
      if rc ≠ .none then return (rc, dest)
      else
        match dest with
        | none => return (.none, none)
        | some d =>
            subtractLast d last
            return (.none, some d)

/-! ### On lists -/

section Lists

variable (compare : α → α → Option Bool) (computeDiff : α → α → α)

/-- The item `x` takes every item that matches it out of a list. -/
def consume : List α → α → Option (List α × α)
  | [], x => some ([], x)
  | y :: ys, x =>
      match compare y x with
      | none => none
      | some true => consume ys (computeDiff y x)
      | some false => (consume ys x).map fun r => (y :: r.1, r.2)

/-- The items of `cur` with what matches them in `last` subtracted, in the order of `cur`. There is no
result where the comparison would follow a NULL string. -/
def subtract : List α → List α → Option (List α)
  | _, [] => some []
  | last, x :: xs =>
      (consume compare computeDiff last x).bind fun r =>
        (subtract r.1 xs).map fun ys => r.2 :: ys

end Lists

theorem subtract_nil (compare : α → α → Option Bool) (computeDiff : α → α → α) (cur : List α) :
    subtract compare computeDiff [] cur = some cur := by
  induction cur with
  | nil => rfl
  | cons x xs ih =>
      rw [subtract, consume, Option.bind_some, ih]
      rfl

/-- An item type whose items are identified by a key, if they have one. -/
structure VectorInitInfo.Keyed (info : VectorInitInfo α) where
  Key : Type
  [decEq : DecidableEq Key]
  key : α → Option Key
  compare : α → α → Option Bool
  computeDiff : α → α → α
  compareFn : info.compareFn = some compare
  computeDiffFn : info.computeDiffFn = some computeDiff
  compare_eq : ∀ {a b : α} {k k' : Key}, key a = some k → key b = some k' →
    compare a b = some (decide (k = k'))
  key_computeDiff : ∀ a b, key (computeDiff a b) = key b

namespace VectorInitInfo.Keyed

attribute [instance] decEq

variable {info : VectorInitInfo α} (h : info.Keyed)

def Named (items : List α) : Prop := ∀ x ∈ items, (h.key x).isSome

/-- A snapshot: every item has a key, and no two have the same. -/
structure Snapshot (items : List α) : Prop where
  named : h.Named items
  distinct : (items.map h.key).Nodup

/-- The item `x` with the item of `last` that has its key subtracted, or `x` itself. -/
def reduce (last : List α) (x : α) : α :=
  match last.find? fun y => h.key y = h.key x with
  | some y => h.computeDiff y x
  | none => x

variable {h}

theorem Named.cons {x : α} {xs : List α} (hn : h.Named (x :: xs)) :
    (∃ k, h.key x = some k) ∧ h.Named xs :=
  ⟨Option.isSome_iff_exists.mp (hn x List.mem_cons_self), fun y hy => hn y (List.mem_cons_of_mem _ hy)⟩

theorem Snapshot.cons {x : α} {xs : List α} (hs : h.Snapshot (x :: xs)) :
    (∀ y ∈ xs, h.key y ≠ h.key x) ∧ h.Snapshot xs := by
  have hcons := List.nodup_cons.mp hs.distinct
  refine ⟨?_, hs.named.cons.2, hcons.2⟩
  intro y hy heq
  apply hcons.1
  rw [← heq]
  exact List.mem_map_of_mem hy

theorem Snapshot.filter {xs : List α} (hs : h.Snapshot xs) (p : α → Bool) :
    h.Snapshot (xs.filter p) := by
  refine ⟨fun x hx => hs.named x (List.mem_of_mem_filter hx), ?_⟩
  exact hs.distinct.sublist (List.filter_sublist.map h.key)

theorem reduce_cons_of_eq {y x : α} (last : List α) (heq : h.key y = h.key x) :
    h.reduce (y :: last) x = h.computeDiff y x := by
  simp [reduce, heq]

theorem reduce_cons_of_ne {y x : α} (last : List α) (hne : h.key y ≠ h.key x) :
    h.reduce (y :: last) x = h.reduce last x := by
  simp [reduce, hne]

theorem reduce_filter {last : List α} {p : α → Bool} {x : α}
    (hp : ∀ y ∈ last, h.key y = h.key x → p y = true) :
    h.reduce (last.filter p) x = h.reduce last x := by
  induction last with
  | nil => rfl
  | cons y last ih =>
      have hrest := ih fun z hz => hp z (List.mem_cons_of_mem _ hz)
      by_cases heq : h.key y = h.key x
      · rw [List.filter_cons_of_pos (hp y List.mem_cons_self heq), reduce_cons_of_eq _ heq,
          reduce_cons_of_eq _ heq]
      · rw [reduce_cons_of_ne _ heq, ← hrest]
        cases hpy : p y with
        | true => rw [List.filter_cons_of_pos hpy, reduce_cons_of_ne _ heq]
        | false => rw [List.filter_cons_of_neg (by simp [hpy])]

theorem consume_of_forall_ne {last : List α} {x : α} {k : h.Key} (hn : h.Named last)
    (hk : h.key x = some k) (hne : ∀ y ∈ last, h.key y ≠ h.key x) :
    consume h.compare h.computeDiff last x = some (last, x) := by
  induction last with
  | nil => rfl
  | cons y last ih =>
      obtain ⟨⟨k', hk'⟩, hrest⟩ := hn.cons
      have hdiff : k' ≠ k := by
        intro heq
        apply hne y List.mem_cons_self
        rw [hk', hk, heq]
      rw [consume, h.compare_eq hk' hk, decide_eq_false hdiff]
      simp only
      rw [ih hrest fun z hz => hne z (List.mem_cons_of_mem _ hz)]
      rfl

theorem consume_named {last : List α} {x : α} (hn : h.Named last) (hx : (h.key x).isSome) :
    ∃ r, consume h.compare h.computeDiff last x = some r ∧ h.Named r.1 := by
  induction last generalizing x with
  | nil => exact ⟨([], x), rfl, hn⟩
  | cons y last ih =>
      obtain ⟨⟨k', hk'⟩, hrest⟩ := hn.cons
      obtain ⟨k, hk⟩ := Option.isSome_iff_exists.mp hx
      rw [consume, h.compare_eq hk' hk]
      by_cases heq : k' = k
      · rw [decide_eq_true heq]
        exact ih hrest (by rwa [h.key_computeDiff])
      · obtain ⟨r, hr, hnamed⟩ := ih hrest hx
        rw [decide_eq_false heq]
        refine ⟨(y :: r.1, r.2), by simp only [hr, Option.map_some], ?_⟩
        intro z hz
        rcases List.mem_cons.mp hz with rfl | hz
        · exact hn z List.mem_cons_self
        · exact hnamed z hz

theorem subtract_named {last cur : List α} (hlast : h.Named last) (hcur : h.Named cur) :
    subtract h.compare h.computeDiff last cur ≠ none := by
  induction cur generalizing last with
  | nil => exact Option.some_ne_none _
  | cons x xs ih =>
      obtain ⟨-, hrest⟩ := hcur.cons
      obtain ⟨r, hr, hnamed⟩ := consume_named hlast (hcur x List.mem_cons_self)
      rw [subtract, hr, Option.bind_some, Ne, Option.map_eq_none_iff]
      exact ih hnamed hrest

theorem consume_eq {last : List α} {x : α} {k : h.Key} (hs : h.Snapshot last)
    (hk : h.key x = some k) :
    consume h.compare h.computeDiff last x
      = some (last.filter (fun y => h.key y ≠ h.key x), h.reduce last x) := by
  induction last with
  | nil => rfl
  | cons y last ih =>
      obtain ⟨k', hk'⟩ := hs.named.cons.1
      obtain ⟨hdistinct, hrest⟩ := hs.cons
      rw [consume, h.compare_eq hk' hk]
      by_cases heq : k' = k
      · subst heq
        have hkeys : h.key y = h.key x := hk'.trans hk.symm
        have hnone : ∀ z ∈ last, h.key z ≠ h.key (h.computeDiff y x) := by
          intro z hz
          rw [h.key_computeDiff, ← hkeys]
          exact hdistinct z hz
        rw [decide_eq_true rfl, reduce_cons_of_eq _ hkeys,
          List.filter_cons_of_neg (by simp [hkeys])]
        simp only
        rw [consume_of_forall_ne hrest.named ((h.key_computeDiff y x).trans hk) hnone,
          List.filter_eq_self.mpr]
        intro z hz
        have := hdistinct z hz
        simpa [← hkeys] using this
      · have hkeys : h.key y ≠ h.key x := by
          rw [hk', hk]
          exact fun hcon => heq (Option.some.inj hcon)
        rw [decide_eq_false heq, reduce_cons_of_ne _ hkeys,
          List.filter_cons_of_pos (by simp [hkeys])]
        simp only
        rw [ih hrest]
        rfl

/-- With distinct keys the difference is a lookup of every item. -/
theorem subtract_eq_map {last cur : List α} (hlast : h.Snapshot last) (hcur : h.Snapshot cur) :
    subtract h.compare h.computeDiff last cur = some (cur.map (h.reduce last)) := by
  induction cur generalizing last with
  | nil => rfl
  | cons x xs ih =>
      obtain ⟨k, hk⟩ := hcur.named.cons.1
      obtain ⟨hdistinct, hrest⟩ := hcur.cons
      have hmap : xs.map (h.reduce (last.filter fun y => h.key y ≠ h.key x))
          = xs.map (h.reduce last) := by
        apply List.map_congr_left
        intro z hz
        apply reduce_filter
        intro y _ heq
        have hne := hdistinct z hz
        rw [← heq] at hne
        simpa using hne
      rw [subtract, consume_eq hlast hk, Option.bind_some, ih (hlast.filter _) hrest, hmap]
      rfl

end VectorInitInfo.Keyed

/-! ### The loops -/

@[simp] theorem put_put (w : World α) (p : Ptr) (v v' : SgVector α) :
    (w.put p v).put p v' = w.put p v' := by
  simp [World.put]

theorem put_self {w : World α} {p : Ptr} {v : SgVector α} (hv : w.store p = some v) :
    w.put p v = w := by
  unfold World.put
  rw [← hv, Function.update_eq_self]

def SgVector.setCell (v : SgVector α) (i : Nat) (x : α) : SgVector α :=
  { v with cells := update v.cells i x }

@[simp] theorem setCell_cells_self (v : SgVector α) (i : Nat) (x : α) :
    (v.setCell i x).cells i = x := Function.update_self _ _ _

@[simp] theorem setCell_setCell (v : SgVector α) (i : Nat) (x y : α) :
    (v.setCell i x).setCell i y = v.setCell i y := by
  simp [SgVector.setCell]

theorem setCell_self (v : SgVector α) (i : Nat) : v.setCell i (v.cells i) = v := by
  simp [SgVector.setCell]

def SgVector.slice (v : SgVector α) (i n : Nat) : List α := (List.range' i n).map v.cells

theorem slice_succ (v : SgVector α) (i n : Nat) :
    v.slice i (n + 1) = v.cells i :: v.slice (i + 1) n := by
  rw [SgVector.slice, List.range'_succ]
  rfl

theorem slice_items (v : SgVector α) : v.slice 0 v.usedCount = v.items := by
  rw [SgVector.slice, SgVector.items, List.range_eq_range']

/-- The items of `v` from index `i`, `n` of them, that are not marked. -/
def SgVector.unmarked (v : SgVector α) (matched : BitTable) (i n : Nat) : List α :=
  ((List.range' i n).filter fun m => !matched.isSet m).map v.cells

theorem unmarked_zero (v : SgVector α) (i n : Nat) : v.unmarked .zero i n = v.slice i n := by
  simp [SgVector.unmarked, SgVector.slice]

theorem unmarked_succ_of_set (v : SgVector α) {matched : BitTable} {i : Nat} (n : Nat)
    (hset : matched.isSet i = true) : v.unmarked matched i (n + 1) = v.unmarked matched (i + 1) n := by
  rw [SgVector.unmarked, List.range'_succ, List.filter_cons_of_neg (by simp [hset])]
  rfl

theorem unmarked_succ_of_not_set (v : SgVector α) {matched : BitTable} {i : Nat} (n : Nat)
    (hset : matched.isSet i = false) :
    v.unmarked matched i (n + 1) = v.cells i :: v.unmarked matched (i + 1) n := by
  rw [SgVector.unmarked, List.range'_succ, List.filter_cons_of_pos (by simp [hset])]
  rfl

theorem unmarked_set (v : SgVector α) (matched : BitTable) (i n : Nat) :
    v.unmarked (matched.set i) (i + 1) n = v.unmarked matched (i + 1) n := by
  unfold SgVector.unmarked
  congr 1
  apply List.filter_congr
  intro m hm
  have hlt := (List.mem_range'_1.mp hm).1
  rw [BitTable.isSet_set, decide_eq_false (by omega), Bool.false_or]

section Loops

variable {compare : α → α → Option Bool} {computeDiff : α → α → α} {last dest : Ptr}
  {l : SgVector α}

/-- What the inner loop does with the result of `consume`. -/
def Consumed (l : SgVector α) (dest : Ptr) (i j fuel : Nat) (matched : BitTable) (w : World α)
    (d : SgVector α) (outcome : Except Fault (BitTable × World α)) : Option (List α × α) → Prop
  | none => outcome = .error .nullPointer
  | some (rest, x) => ∃ matched', outcome = .ok (matched', w.put dest (d.setCell i x)) ∧
      l.unmarked matched' j fuel = rest ∧ ∀ m, m < j → matched'.isSet m = matched.isSet m

theorem diffItem_run (hne : last ≠ dest) (words : Nat) {i : Nat} :
    ∀ (fuel j : Nat) (matched : BitTable) (w : World α) (d : SgVector α),
      w.store last = some l → w.store dest = some d → w.InBlock l (j + fuel) →
      w.InBlock d (i + 1) →
      (∀ m, m < j + fuel → m / 32 < words) →
      Consumed l dest i j fuel matched w d
        (diffItem compare computeDiff words last dest i fuel j matched w)
        (consume compare computeDiff (l.unmarked matched j fuel) (d.cells i)) := by
  intro fuel
  induction fuel with
  | zero =>
      intro j matched w d _ hd _ _ _
      refine ⟨matched, ?_, rfl, fun m _ => rfl⟩
      rw [setCell_self, put_self hd]
      rfl
  | succ fuel ih =>
      intro j matched w d hl hd hbl hbd hwords
      have hword : ¬ words ≤ j / 32 := not_le.mpr (hwords j (by omega))
      have hwordsr : ∀ m, m < j + 1 + fuel → m / 32 < words := fun m hm => hwords m (by omega)
      have hbl1 : w.InBlock l (j + 1) := hbl.mono (by omega)
      have hblr : w.InBlock l (j + 1 + fuel) := hbl.mono (by omega)
      cases hset : matched.isSet j with
      | true =>
          rw [unmarked_succ_of_set l fuel hset, diffItem, if_neg hword, if_pos hset]
          have hrest := ih (j + 1) matched w d hl hd hblr hbd hwordsr
          revert hrest
          cases consume compare computeDiff (l.unmarked matched (j + 1) fuel) (d.cells i) with
          | none => exact id
          | some r =>
              rintro ⟨matched', hrun, hleft, hold⟩
              refine ⟨matched', hrun, ?_, fun m hm => hold m (by omega)⟩
              rw [unmarked_succ_of_set l fuel ((hold j (by omega)).trans hset), hleft]
      | false =>
          rw [unmarked_succ_of_not_set l fuel hset, consume, diffItem, if_neg hword,
            if_neg (by simp [hset]),
            Prog.bind_of_ok (deref_run hl), Prog.bind_of_ok (deref_run hd),
            Prog.bind_of_ok (touch_run hbl1), Prog.bind_of_ok (touch_run hbd)]
          cases compare (l.cells j) (d.cells i) with
          | none => exact rfl
          | some b =>
              cases b with
              | false =>
                  have hrest := ih (j + 1) matched w d hl hd hblr hbd hwordsr
                  revert hrest
                  simp only
                  cases consume compare computeDiff (l.unmarked matched (j + 1) fuel)
                      (d.cells i) with
                  | none => exact id
                  | some r =>
                      rintro ⟨matched', hrun, hleft, hold⟩
                      refine ⟨matched', hrun, ?_, fun m hm => hold m (by omega)⟩
                      rw [unmarked_succ_of_not_set l fuel ((hold j (by omega)).trans hset), hleft]
              | true =>
                  have hrest := ih (j + 1) (matched.set j)
                    (w.put dest (d.setCell i (computeDiff (l.cells j) (d.cells i)))) _
                    (by simp [hne, hl]) (Function.update_self _ _ _) hblr hbd hwordsr
                  rw [unmarked_set, setCell_cells_self] at hrest
                  revert hrest
                  simp only
                  cases consume compare computeDiff (l.unmarked matched (j + 1) fuel)
                      (computeDiff (l.cells j) (d.cells i)) with
                  | none => exact id
                  | some r =>
                      rintro ⟨matched', hrun, hleft, hold⟩
                      have hj : matched'.isSet j = true := by
                        rw [hold j (by omega), BitTable.isSet_set, decide_eq_true rfl, Bool.true_or]
                      refine ⟨matched', ?_, ?_, ?_⟩
                      · rw [put_put, setCell_setCell] at hrun
                        exact hrun
                      · rw [unmarked_succ_of_set l fuel hj, hleft]
                      · intro m hm
                        rw [hold m (by omega), BitTable.isSet_set, decide_eq_false (by omega),
                          Bool.false_or]

/-- The target with the items from index `i` on replaced by a list. -/
def SgVector.filled (d : SgVector α) : Nat → List α → SgVector α
  | _, [] => d
  | i, x :: xs => (d.setCell i x).filled (i + 1) xs

/-- What the outer loop does with the result of `subtract`. -/
def Subtracted (dest : Ptr) (i : Nat) (w : World α) (d : SgVector α)
    (outcome : Except Fault (Unit × World α)) : Option (List α) → Prop
  | none => outcome = .error .nullPointer
  | some items => outcome = .ok ((), w.put dest (d.filled i items))

theorem slice_setCell (d : SgVector α) (i n : Nat) (x : α) :
    (d.setCell i x).slice (i + 1) n = d.slice (i + 1) n := by
  apply List.map_congr_left
  intro j hj
  have hlt := (List.mem_range'_1.mp hj).1
  exact Function.update_of_ne (by omega) _ _

theorem diffItems_run (hne : last ≠ dest) :
    ∀ (fuel i : Nat) (matched : BitTable) (w : World α) (d : SgVector α),
      w.store last = some l → w.store dest = some d → w.InBlock l l.usedCount →
      w.InBlock d (i + fuel) →
      Subtracted dest i w d
        (diffItems compare computeDiff (l.usedCount / 32 + 1) last dest fuel i matched w)
        (subtract compare computeDiff (l.unmarked matched 0 l.usedCount) (d.slice i fuel)) := by
  intro fuel
  induction fuel with
  | zero =>
      intro i matched w d _ hd _ _
      show diffItems compare computeDiff (l.usedCount / 32 + 1) last dest 0 i matched w
        = .ok ((), w.put dest d)
      rw [put_self hd]
      rfl
  | succ fuel ih =>
      intro i matched w d hl hd hbl hbd
      have hitem : Consumed l dest i 0 l.usedCount matched w d
          (diffItem compare computeDiff (l.usedCount / 32 + 1) last dest i l.usedCount 0 matched w) _ :=
        diffItem_run hne _ l.usedCount 0 matched w d hl hd (by rwa [Nat.zero_add])
          (hbd.mono (by omega)) (fun m hm => by omega)
      rw [slice_succ, subtract, diffItems, Prog.bind_of_ok (deref_run hl)]
      revert hitem
      cases consume compare computeDiff (l.unmarked matched 0 l.usedCount) (d.cells i) with
      | none =>
          intro hrun
          exact Prog.bind_of_error hrun _
      | some r =>
          rintro ⟨matched', hrun, hleft, -⟩
          have hrest := ih (i + 1) matched' (w.put dest (d.setCell i r.2)) _ (by simp [hne, hl])
            (Function.update_self _ _ _) hbl (hbd.mono (by omega) : w.InBlock d (i + 1 + fuel))
          rw [slice_setCell, hleft] at hrest
          rw [Prog.bind_of_ok hrun, Option.bind_some]
          revert hrest
          cases subtract compare computeDiff r.1 (d.slice (i + 1) fuel) with
          | none => exact id
          | some items =>
              intro hrun'
              rw [Subtracted, put_put] at hrun'
              exact hrun'

end Loops

/-! ### The target afterwards -/

section Filled

variable (d : SgVector α) (i : Nat) (xs : List α)

theorem filled_fields : (d.filled i xs).usedCount = d.usedCount ∧ (d.filled i xs).slots = d.slots ∧
    (d.filled i xs).allocCount = d.allocCount ∧ (d.filled i xs).blockShift = d.blockShift ∧
    (d.filled i xs).info = d.info := by
  induction xs generalizing d i with
  | nil => exact ⟨rfl, rfl, rfl, rfl, rfl⟩
  | cons x xs ih => exact ih (d.setCell i x) (i + 1)

@[simp] theorem filled_usedCount : (d.filled i xs).usedCount = d.usedCount := (filled_fields d i xs).1
@[simp] theorem filled_slots : (d.filled i xs).slots = d.slots := (filled_fields d i xs).2.1
@[simp] theorem filled_allocCount : (d.filled i xs).allocCount = d.allocCount :=
  (filled_fields d i xs).2.2.1
@[simp] theorem filled_blockShift : (d.filled i xs).blockShift = d.blockShift :=
  (filled_fields d i xs).2.2.2.1
@[simp] theorem filled_info : (d.filled i xs).info = d.info := (filled_fields d i xs).2.2.2.2

theorem filled_cells_of_lt {j : Nat} (hj : j < i) : (d.filled i xs).cells j = d.cells j := by
  induction xs generalizing d i with
  | nil => rfl
  | cons x xs ih =>
      rw [SgVector.filled, ih (d.setCell i x) (i + 1) (by omega)]
      exact Function.update_of_ne (by omega) _ _

theorem slice_filled : (d.filled i xs).slice i xs.length = xs := by
  induction xs generalizing d i with
  | nil => rfl
  | cons x xs ih =>
      rw [List.length_cons, slice_succ, SgVector.filled, ih (d.setCell i x) (i + 1),
        filled_cells_of_lt _ _ _ (Nat.lt_succ_self i), setCell_cells_self]

end Filled

theorem filled_items (d : SgVector α) {xs : List α} (hlen : xs.length = d.usedCount) :
    (d.filled 0 xs).items = xs := by
  rw [← slice_items, filled_usedCount, ← hlen, slice_filled]

theorem subtract_length {compare : α → α → Option Bool} {computeDiff : α → α → α}
    {last cur items : List α} (h : subtract compare computeDiff last cur = some items) :
    items.length = cur.length := by
  induction cur generalizing last items with
  | nil =>
      cases h
      rfl
  | cons x xs ih =>
      rw [subtract, Option.bind_eq_some_iff] at h
      obtain ⟨r, -, h⟩ := h
      rw [Option.map_eq_some_iff] at h
      obtain ⟨ys, hys, rfl⟩ := h
      rw [List.length_cons, ih hys, List.length_cons]

@[simp] theorem items_length (v : SgVector α) : v.items.length = v.usedCount := by
  simp [SgVector.items]

theorem subtractLast_run {w : World α} {dest last : Ptr} {d l : SgVector α}
    {compare : α → α → Option Bool} {computeDiff : α → α → α} (hne : last ≠ dest)
    (hcompare : l.info.compareFn = some compare) (hdiff : l.info.computeDiffFn = some computeDiff)
    (hl : w.store last = some l) (hd : w.store dest = some d) (hbl : w.InBlock l l.usedCount)
    (hbd : w.InBlock d d.usedCount) :
    Subtracted dest 0 w d (subtractLast dest (some last) w)
      (subtract compare computeDiff l.items d.items) := by
  rw [subtractLast, Prog.bind_of_ok (deref_run hl), hcompare, hdiff]
  simp only
  rw [Prog.bind_of_ok (deref_run hd), ← slice_items, ← slice_items, ← unmarked_zero]
  exact diffItems_run hne d.usedCount 0 .zero w d hl hd hbl (by rwa [Nat.zero_add])

/-! ### What the call does -/

section Call

variable {w : World α} {dest cur last : Ptr} {d c l : SgVector α}

/-- Without a current vector the target is released and the call fails. -/
theorem sgVectorComputeDiff_null (hf : w.Fresh) (hd : w.store dest = some d)
    (hb : w.InBlock d d.usedCount) (last : Option Ptr) :
    ∃ w', sgVectorComputeDiff (some dest) none last w = .ok ((.invalidArgument, none), w') ∧
      w.Handover w' (some dest) none ∧ w'.error = .invalidArgument ∧ w'.mem = w.mem := by
  have hand : w.Handover ((w.shrink dest d 0).drop dest) (some dest) none :=
    ((World.Handover.own (hf.lt hd)).shrink d 0).drop
  refine ⟨_, ?_, hand.thread ⟨⟨.invalidArgument, 0, "sg_vector_compute_diff(cur_vector)"⟩, w.mem⟩,
    rfl, rfl⟩
  rw [sgVectorComputeDiff, Prog.bind_of_ok (sgVectorFree_run hd hb)]
  rfl

/-- With room in the target the items are copied there, and what follows is the subtraction. -/
theorem sgVectorComputeDiff_safe (hw : w.Sound) (hc : w.store cur = some c)
    (hd : w.store dest = some d) (hl : w.store last = some l) (hne : last ≠ dest)
    {compare : α → α → Option Bool} {computeDiff : α → α → α}
    (hcompare : l.info.compareFn = some compare) (hdiff : l.info.computeDiffFn = some computeDiff)
    (hfit : Fits c.usedCount d.blockShift d.info) (hsafe : w.ResizeSafe d c.usedCount) :
    ∃ q w1 u, w.CopyOf w1 (some dest) q c u ∧ d.SizedFor u c.usedCount ∧
      sgVectorComputeDiff (some dest) (some cur) (some last) w
        = (subtractLast q (some last) >>= fun _ => pure (SgError.none, some q)) w1 ∧
      Subtracted q 0 w1 (u.copied c 0 c.usedCount) (subtractLast q (some last) w1)
        (subtract compare computeDiff l.items c.items) := by
  rcases sgVectorCloneInto_some hw.fresh hd hc (hw.backed cur c hc).full.copies (hw.inBlock hd)
      (hw.inBlock hc) (fun _ => hfit) hsafe with
    ⟨q, w1, u, hrun, hcopy, hsized, hroom⟩ | ⟨rc, w1, -, hfail⟩
  · have hl1 : w1.store last = some l :=
      hcopy.handover.live hw.fresh hl (fun hcon => hne (Option.some.inj hcon).symm)
    have hlq : last ≠ q := by
      intro hcon
      exact hcopy.handover.avoids (hw.fresh.lt hl) (fun hold => hne (Option.some.inj hold).symm)
        (congrArg some hcon.symm)
    have hused := hsized.usedCount
    have hsub := subtractLast_run (w := w1) hlq hcompare hdiff hl1 hcopy.store
      (fun hb => hw.inBlock hl (hcopy.handover.bounded ▸ hb))
      (fun hb => by
        rw [copied_usedCount, hused]
        exact hroom (hcopy.handover.bounded ▸ hb))
    rw [copied_items hused] at hsub
    refine ⟨q, w1, u, hcopy, hsized, ?_, hsub⟩
    rw [sgVectorComputeDiff, Prog.bind_of_ok hrun]
    rfl
  · exact (hw.notFailed hfail).elim

theorem sgVectorComputeDiff_run (hw : w.Sound) (hc : w.store cur = some c)
    (hd : w.store dest = some d) (hl : w.store last = some l) (hne : last ≠ dest)
    {compare : α → α → Option Bool} {computeDiff : α → α → α}
    (hcompare : l.info.compareFn = some compare) (hdiff : l.info.computeDiffFn = some computeDiff)
    (hfit : Fits c.usedCount d.blockShift d.info) (hsafe : w.ResizeSafe d c.usedCount)
    {items : List α} (hitems : subtract compare computeDiff l.items c.items = some items) :
    ∃ q w' u, sgVectorComputeDiff (some dest) (some cur) (some last) w = .ok ((.none, some q), w') ∧
      w.Handover w' (some dest) (some q) ∧ d.SizedFor u c.usedCount ∧
      w'.store q = some ((u.copied c 0 c.usedCount).filled 0 items) ∧
      w'.glob = w.glob ∧ w'.Plenty := by
  obtain ⟨q, w1, u, hcopy, hsized, hrun, hsub⟩ :=
    sgVectorComputeDiff_safe hw hc hd hl hne hcompare hdiff hfit hsafe
  rw [hitems] at hsub
  refine ⟨q, _, u, ?_, hcopy.handover.put _, hsized, Function.update_self _ _ _, hcopy.glob,
    hcopy.plenty hw.plenty⟩
  rw [hrun, Prog.bind_of_ok hsub]
  rfl

/-- The target was released while it was emptied, and the loop reads it. -/
theorem sgVectorComputeDiff_released (hw : w.Sound) (hc : w.store cur = some c)
    (hd : w.store dest = some d) (hl : w.store last = some l) (hne : last ≠ dest)
    {compare : α → α → Option Bool} {computeDiff : α → α → α}
    (hcompare : l.info.compareFn = some compare) (hdiff : l.info.computeDiffFn = some computeDiff)
    (hc0 : c.usedCount = 0) (hd0 : d.usedCount ≠ 0) :
    sgVectorComputeDiff (some dest) (some cur) (some last) w = .error .released := by
  obtain ⟨w1, hrun, hand, -⟩ :=
    sgVectorCloneInto_empty hw.fresh hd hc (hw.inBlock hd) hc0 hd0
  have hl1 : w1.store last = some l :=
    hand.live hw.fresh hl (fun hcon => hne (Option.some.inj hcon).symm)
  have hgone : w1.store dest = none := hand.gone dest rfl (by simp)
  have hsub : subtractLast dest (some last) w1 = .error .released := by
    rw [subtractLast, Prog.bind_of_ok (deref_run hl1), hcompare, hdiff]
    exact Prog.bind_of_error (deref_released hgone) _
  rw [sgVectorComputeDiff, Prog.bind_of_ok hrun]
  simp only [ne_eq, not_true_eq_false, if_false]
  exact Prog.bind_of_error hsub _

/-- The target has no room for what its record promises. -/
theorem sgVectorComputeDiff_outOfBlock (hw : w.Sound) (hc : w.store cur = some c)
    (hd : w.store dest = some d) (hfit : Fits c.usedCount d.blockShift d.info)
    (hbad : d.Unbacked c.usedCount) (last : Option Ptr) :
    sgVectorComputeDiff (some dest) (some cur) last w = .error .outOfBlock := by
  have hback := hw.backed dest d hd
  have hne : d.usedCount ≠ c.usedCount := by
    have hwithin := hback.within
    rw [hbad.1] at hwithin
    have hpos := hbad.2.1
    omega
  rw [sgVectorComputeDiff]
  exact Prog.bind_of_error (sgVectorCloneInto_outOfBlock hd hc hne
    (sgVectorResize_outOfBlock hd (hw.inBlock hd) hback.full.init hbad.2.1
      (hfit.nextPower2In_eq.trans hbad.2.2) (unbacked_not_inBlock hw hbad))) _

/-- A target is ready, is about to be emptied, or has less room than its record says. -/
theorem World.Sound.resizeSafe_cases (hw : w.Sound) (hd : w.store dest = some d) (n : Nat) :
    w.ResizeSafe d n ∨ (n = 0 ∧ d.usedCount ≠ 0) ∨ d.Unbacked n := by
  by_cases hused : d.usedCount = n
  · exact .inl (.inl hused)
  · by_cases hn : n = 0
    · exact .inr (.inl ⟨hn, hn ▸ hused⟩)
    · by_cases hbad : d.Unbacked n
      · exact .inr (.inr hbad)
      · refine .inl (.inr ⟨hn, ?_⟩)
        by_cases hround : roundUp n d.blockShift = d.allocCount
        · rw [if_pos hround]
          exact fun _ => (hw.backed dest d hd).room hn hbad hround
        · rw [if_neg hround]
          exact hw.plenty 0

end Call

end Statgrab
