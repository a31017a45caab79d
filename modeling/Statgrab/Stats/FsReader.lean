import Statgrab.Stats.MountList

/-!
# The filesystem reader meets its contract

`sg_get_fs_stats_int` lists all mounts, fills the valid ones from the last to the first, and copies them
to the caller's vector in the order of their bits. The proof follows these parts: `fillValid_run` says
which bits are set and what the filled items are, and `copyValid_run` reads the bits back in order.
-/

namespace Statgrab

open Function (update)

/-! ### The valid ones -/

/-- The listed filesystem `i` filled, if it is of a valid type and `statvfs` answers. -/
def fsChosen (table : MountTable) (i : Nat) (x : FsStats) : Option FsStats :=
  if isValidFsType table.validTypes x.fsType then
    match table.statvfs i with
    | .error _ => none
    | .ok fs => some (withStatVfs fs (table.statTime i) x)
  else none

def mark (chosen : Option FsStats) (i : Nat) (found : BitTable × Nat) : BitTable × Nat :=
  match chosen with
  | some _ => (found.1.set i, found.2 + 1)
  | none => found

theorem mark_count (chosen : Option FsStats) (i : Nat) (found : BitTable × Nat) :
    (mark chosen i found).2 = found.2 + if chosen.isSome then 1 else 0 := by
  cases chosen with
  | none => rfl
  | some x => rfl

theorem mark_isSet (chosen : Option FsStats) (i : Nat) (found : BitTable × Nat) (j : Nat) :
    (mark chosen i found).1.isSet j = (found.1.isSet j || (decide (i = j) && chosen.isSome)) := by
  cases chosen with
  | none => simp [mark]
  | some x => simp [mark, BitTable.isSet_set, Bool.or_comm]

theorem fillValid_step (table : MountTable) {tmp : Ptr} {i : Nat} (found : BitTable × Nat)
    {w : World FsStats} {v : SgVector FsStats} (hv : w.store tmp = some v)
    (hb : w.InBlock v (i + 1)) :
    ∃ t, t.mem = w.mem ∧ fillValid table tmp (i + 1) found w
      = fillValid table tmp i (mark (fsChosen table i (v.cells i)) i found)
        (w.recopy t tmp (v.setCell i ((fsChosen table i (v.cells i)).getD (v.cells i)))) := by
  rw [fillValid, Prog.bind_of_ok (deref_run hv), Prog.bind_of_ok (touch_run hb)]
  unfold fsChosen
  by_cases hvalid : isValidFsType table.validTypes (v.cells i).fsType = true
  · rw [if_pos hvalid, if_pos hvalid]
    cases hstat : table.statvfs i with
    | error errno =>
        have hfill : ∃ g, sgFillFsStatInt table i (v.cells i) w.toThread
            = .ok ((.diskinfo, v.cells i), { w.toThread with glob := g }) := by
          rw [sgFillFsStatInt, hstat]
          exact ⟨_, rfl⟩
        obtain ⟨g, hfill⟩ := hfill
        refine ⟨{ w.toThread with glob := g }, rfl, ?_⟩
        rw [Prog.bind_of_ok (onItem_run hv hb hfill)]
        rfl
    | ok fs =>
        have hfill : sgFillFsStatInt table i (v.cells i) w.toThread
            = .ok ((.none, withStatVfs fs (table.statTime i) (v.cells i)), w.toThread) := by
          rw [sgFillFsStatInt, hstat]
          rfl
        refine ⟨w.toThread, rfl, ?_⟩
        rw [Prog.bind_of_ok (onItem_run hv hb hfill)]
        rfl
  · refine ⟨w.toThread, rfl, ?_⟩
    rw [if_neg hvalid, if_neg hvalid, Option.getD_none, setCell_self, recopy_self hv]
    rfl

/-- What the loop leaves: `found` filesystems below `i` are marked and filled. -/
structure Marked (table : MountTable) (v : SgVector FsStats) (i : Nat) (found : BitTable × Nat)
    (found' : BitTable × Nat) (cells : Nat → FsStats) : Prop where
  count : found'.2 = found.2 + (List.range i).countP fun j => (fsChosen table j (v.cells j)).isSome
  bits : ∀ j, found'.1.isSet j
    = (found.1.isSet j || (decide (j < i) && (fsChosen table j (v.cells j)).isSome))
  cells : ∀ j, cells j = if j < i then (fsChosen table j (v.cells j)).getD (v.cells j) else v.cells j

theorem Marked.succ {table : MountTable} {v : SgVector FsStats} {i : Nat}
    {found found' : BitTable × Nat} {cells : Nat → FsStats}
    (h : Marked table (v.setCell i ((fsChosen table i (v.cells i)).getD (v.cells i))) i
      (mark (fsChosen table i (v.cells i)) i found) found' cells) :
    Marked table v (i + 1) found found' cells := by
  -- the rest of the loop does not see the cell just written
  have hcells : ∀ j, j ≠ i → (v.setCell i ((fsChosen table i (v.cells i)).getD
      (v.cells i))).cells j = v.cells j := fun j hj => Function.update_of_ne hj _ _
  refine ⟨?_, ?_, ?_⟩
  · have hcount : ((List.range i).countP fun j => (fsChosen table j ((v.setCell i
        ((fsChosen table i (v.cells i)).getD (v.cells i))).cells j)).isSome)
        = (List.range i).countP fun j => (fsChosen table j (v.cells j)).isSome := by
      apply List.countP_congr
      intro j hj
      rw [hcells j (ne_of_lt (List.mem_range.mp hj))]
    rw [h.count, mark_count, hcount, List.range_succ, List.countP_append, List.countP_singleton]
    omega
  · intro j
    rw [h.bits j, mark_isSet]
    by_cases hj : j = i
    · subst hj
      simp
    · rw [hcells j hj, decide_eq_false (Ne.symm hj), Bool.false_and, Bool.or_false]
      congr 2
      apply decide_eq_decide.mpr
      omega
  · intro j
    rw [h.cells j]
    by_cases hj : j = i
    · subst hj
      simp
    · rw [hcells j hj]
      congr 1
      apply propext
      omega

theorem fillValid_run (table : MountTable) {tmp : Ptr} :
    ∀ (i : Nat) (found : BitTable × Nat) (w : World FsStats) (v : SgVector FsStats),
      w.store tmp = some v → w.InBlock v i →
      ∃ t found' cells, fillValid table tmp i found w
          = .ok (found', w.recopy t tmp { v with cells := cells }) ∧ t.mem = w.mem ∧
        Marked table v i found found' cells := by
  intro i
  induction i with
  | zero =>
      intro found w v hv _
      refine ⟨w.toThread, found, v.cells, ?_, rfl, ⟨rfl, ?_, ?_⟩⟩
      · rw [recopy_self hv]
        rfl
      · intro j
        simp
      · intro j
        simp
  | succ i ih =>
      intro found w v hv hb
      obtain ⟨t, hmem, hstep⟩ := fillValid_step table found hv hb
      obtain ⟨t', found', cells, hrun, hmem', hmarked⟩ := ih
        (mark (fsChosen table i (v.cells i)) i found)
        (w.recopy t tmp (v.setCell i ((fsChosen table i (v.cells i)).getD (v.cells i)))) _
        (Function.update_self _ _ _) (hb.mono (by omega) : w.InBlock v i)
      refine ⟨t', found', cells, ?_, hmem'.trans hmem, hmarked.succ⟩
      rw [hstep, hrun, recopy_recopy]
      rfl

/-! ### Copying them -/

theorem bitScanFwd_eq {valid : BitTable} {i' : Nat} {rest : List Nat} :
    ∀ (k i fuel : Nat), k ≤ fuel → (List.range' i k).filter valid.isSet = i' :: rest →
      bitScanFwd valid fuel i = some i' ∧ i' < i + k ∧
        (List.range' (i' + 1) (i + k - (i' + 1))).filter valid.isSet = rest := by
  intro k
  induction k with
  | zero =>
      intro i fuel _ h
      cases h
  | succ k ih =>
      intro i fuel hfuel h
      obtain ⟨fuel, rfl⟩ : ∃ f, fuel = f + 1 := ⟨fuel - 1, by omega⟩
      rw [List.range'_succ] at h
      rw [bitScanFwd]
      cases hset : valid.isSet i with
      | true =>
          rw [List.filter_cons_of_pos hset] at h
          obtain ⟨heq, hrest⟩ := List.cons.inj h
          subst heq
          refine ⟨if_pos rfl, by omega, ?_⟩
          rw [show i + (k + 1) - (i + 1) = k by omega, hrest]
      | false =>
          rw [List.filter_cons_of_neg (by simp [hset])] at h
          obtain ⟨hscan, hlt, hrest⟩ := ih (i + 1) fuel (by omega) h
          refine ⟨by rw [if_neg (by simp), hscan], by omega, ?_⟩
          rw [← hrest, show i + (k + 1) = i + 1 + k by omega]

/-- The loop copies the marked items in order, all of them where the requests for their strings are
granted. -/
theorem copyValid_run {tmp p : Ptr} {vt : SgVector FsStats} {valid : BitTable} (hne : tmp ≠ p) :
    ∀ (marked : List Nat) (i j : Nat) (w : World FsStats) (vp : SgVector FsStats),
      w.store tmp = some vt → w.store p = some vp → w.InBlock vt vt.usedCount →
      w.InBlock vp (j + marked.length) → i ≤ vt.usedCount →
      (List.range' i (vt.usedCount - i)).filter valid.isSet = marked →
      ∃ t cells, copyValid tmp p valid marked.length i j w
          = .ok ((), w.recopy t p { vp with cells := cells }) ∧
        (Supply.Grants w.mem (copyRequests FsStats.strings (marked.map vt.cells)) →
          t.mem = Supply.after w.mem (copyRequests FsStats.strings (marked.map vt.cells)) ∧
          ({ vp with cells := cells } : SgVector FsStats) = vp.filled j (marked.map vt.cells)) := by
  intro marked
  induction marked with
  | nil =>
      intro i j w vp _ hp _ _ _ _
      refine ⟨w.toThread, vp.cells, ?_, fun _ => ⟨(Supply.after_zero w.mem).symm, rfl⟩⟩
      rw [recopy_self hp]
      rfl
  | cons i' rest ih =>
      intro i j w vp ht hp hbt hbp hi hmarked
      rw [List.length_cons] at hbp
      have hbits : vt.usedCount - i ≤ (vt.usedCount / 32 + 1) * 32 - i := by omega
      obtain ⟨hscan, hlt, hrest⟩ := bitScanFwd_eq _ _ _ hbits hmarked
      have hlt' : i' < vt.usedCount := by omega
      have hcopy : ∃ rc x t, FsStats.copy (vt.cells i') (vp.cells j) w.toThread
          = .ok ((rc, x), t) ∧ (rc = .none → x = vt.cells i') := by
        rcases FsStats.copy_lawful (vt.cells i') (vp.cells j) w.toThread with
          ⟨t, hrun, -⟩ | ⟨rc, x, t, hrun, hne, -⟩
        · exact ⟨.none, vt.cells i', t, hrun, fun _ => rfl⟩
        · exact ⟨rc, x, t, hrun, fun hrc => absurd hrc hne⟩
      obtain ⟨rc, x, t, hcopy, hsame⟩ := hcopy
      have hserved := FsStats.copy_asks _ _ _ _ _ hcopy
      obtain ⟨t', cells, hrun, hall⟩ := ih (i' + 1) (j + 1)
        (w.recopy t p (vp.setCell j x)) (vp.setCell j x)
        (by rw [recopy_store, Function.update_of_ne hne, ht]) (Function.update_self _ _ _) hbt
        (hbp.mono (by omega) : w.InBlock vp (j + 1 + rest.length)) (by omega)
        (by rw [← hrest]; congr 2; omega)
      refine ⟨t', cells, ?_, ?_⟩
      · rw [List.length_cons, copyValid, Prog.bind_of_ok (deref_run ht), hscan]
        simp only
        rw [if_neg (by omega), Prog.bind_of_ok (touch_run (hbt.mono (by omega))),
          Prog.bind_of_ok (onItem_run hp (hbp.mono (by omega)) hcopy), hrun, recopy_recopy]
        rfl
      · intro hgrants
        rw [List.map_cons, copyRequests, List.map_cons, List.sum_cons] at hgrants ⊢
        obtain ⟨hfirst, hlater⟩ := Supply.grants_add.mp hgrants
        have hrc := hserved.ok_iff.mpr hfirst
        have hmem : t.mem = Supply.after w.mem (vt.cells i').strings := hserved.rest hrc
        obtain ⟨hmem', hfilled⟩ := hall (show Supply.Grants t.mem _ from hmem ▸ hlater)
        refine ⟨hmem'.trans ?_, ?_⟩
        · show Supply.after t.mem _ = _
          rw [hmem, Supply.after_after]
          rfl
        · rw [SgVector.filled, ← hsame hrc]
          exact hfilled

/-- The marked items of the vector a variable holds. -/
def Picks (w : World FsStats) (x : Option Ptr) (valid : BitTable) (out : List FsStats) : Prop :=
  match x with
  | none => out = []
  | some t => ∃ v, w.store t = some v ∧
      ((List.range v.usedCount).filter valid.isSet).map v.cells = out

def chosenOf (table : MountTable) (v : SgVector FsStats) : List FsStats :=
  (List.range v.usedCount).filterMap fun j => fsChosen table j (v.cells j)

theorem map_filter_isSome {β γ : Type} {f : β → Option γ} {g : β → γ} {js : List β}
    (h : ∀ j ∈ js, ∀ x, f j = some x → g j = x) :
    (js.filter fun j => (f j).isSome).map g = js.filterMap f := by
  induction js with
  | nil => rfl
  | cons j js ih =>
      have hrest := ih fun m hm => h m (List.mem_cons_of_mem _ hm)
      cases hf : f j with
      | none => rw [List.filter_cons_of_neg (by simp [hf]), List.filterMap_cons_none hf, hrest]
      | some x =>
          rw [List.filter_cons_of_pos (by simp [hf]), List.filterMap_cons_some hf, List.map_cons,
            hrest, h j List.mem_cons_self x hf]

theorem Marked.picks {table : MountTable} {v : SgVector FsStats} {found : BitTable × Nat}
    {cells : Nat → FsStats} (h : Marked table v v.usedCount (.zero, 0) found cells) :
    ((List.range v.usedCount).filter found.1.isSet).map cells = chosenOf table v ∧
      found.2 = (chosenOf table v).length := by
  have hfilter : (List.range v.usedCount).filter found.1.isSet
      = (List.range v.usedCount).filter fun j => (fsChosen table j (v.cells j)).isSome := by
    apply List.filter_congr
    intro j hj
    rw [h.bits j, BitTable.isSet_zero, Bool.false_or, decide_eq_true (List.mem_range.mp hj),
      Bool.true_and]
  have hmap : ((List.range v.usedCount).filter fun j =>
      (fsChosen table j (v.cells j)).isSome).map cells = chosenOf table v := by
    apply map_filter_isSome
    intro j hj x hx
    rw [h.cells j, if_pos (List.mem_range.mp hj), hx, Option.getD_some]
  refine ⟨by rw [hfilter, hmap], ?_⟩
  rw [h.count, Nat.zero_add, ← hmap, List.length_map, List.countP_eq_length_filter]

/-- The first part of the read marks the chosen filesystems of the list and fills them. -/
theorem validFs_marks (table : MountTable) {w : World FsStats} (hw : w.Tidy) {t : Ptr}
    {v : SgVector FsStats} (hv : w.store t = some v) :
    ∃ valid cells w', validFs table .none (some t) w = .ok ((valid, (chosenOf table v).length), w') ∧
      w.Step w' (some t) ∧ w'.mem = w.mem ∧ w'.store t = some { v with cells := cells } ∧
      ((List.range v.usedCount).filter valid.isSet).map cells = chosenOf table v := by
  obtain ⟨t', found, cells, hrun, hmem, hmarked⟩ :=
    fillValid_run table v.usedCount (.zero, 0) w v hv (hw.inBlock hv)
  obtain ⟨hpicks, hcount⟩ := hmarked.picks
  have hback := hw.backed t v hv
  have hback' : ({ v with cells := cells } : SgVector FsStats).Backed :=
    ⟨hback.within, hback.record, hback.full⟩
  refine ⟨found.1, cells, _, ?_, hw.recopy hv hback' t', hmem, Function.update_self _ _ _, hpicks⟩
  rw [validFs]
  simp only [if_true]
  rw [Prog.bind_of_ok (deref_run hv), hrun, ← hcount]

theorem validFs_run (table : MountTable) (err : SgError) {w : World FsStats} (hw : w.Tidy)
    {x : Option Ptr} {items : List FsStats} (hx : w.Holds FsStats.info x items) :
    ∃ valid out w', validFs table err x w = .ok ((valid, out.length), w') ∧ w.Step w' x ∧
      w'.mem = w.mem ∧ (∃ items', w'.Holds FsStats.info x items') ∧ Picks w' x valid out ∧
      out.length ≤ items.length ∧ (err ≠ .none → out = []) ∧
      (err = .none → ∀ t v, x = some t → w.store t = some v → out = chosenOf table v) := by
  cases x with
  | none =>
      exact ⟨.zero, [], w, rfl, .refl hw none, rfl, ⟨items, hx⟩, rfl, Nat.zero_le _, fun _ => rfl,
        fun _ t v h => by cases h⟩
  | some t =>
      obtain ⟨v, hv, hcached, hslots, rfl⟩ := hx
      by_cases herr : err = .none
      · subst herr
        obtain ⟨valid, cells, w', hrun, hstep, hmem, ht, hpicks⟩ := validFs_marks table hw hv
        refine ⟨valid, chosenOf table v, w', hrun, hstep, hmem,
          ⟨_, _, ht, hcached.withCells cells, hslots, rfl⟩,
          ⟨_, ht, hpicks⟩, ?_, fun h => absurd rfl h, ?_⟩
        · rw [items_length, chosenOf]
          exact le_trans (List.length_filterMap_le _ _) (by rw [List.length_range])
        · intro _ t1 v1 ht1 hv1
          cases ht1
          rw [hv] at hv1
          cases hv1
          rfl
      · rw [validFs, if_neg herr]
        refine ⟨.zero, [], w, rfl, .refl hw _, rfl, ⟨_, v, hv, hcached, hslots, rfl⟩, ⟨v, hv, ?_⟩,
          Nat.zero_le _, fun _ => rfl, fun h => absurd h herr⟩
        simp

/-- The requests with which the chosen filesystems are stored: for the vector, if its record does not fit
their number, and for their strings. -/
def World.storeRequests (w : World FsStats) (p : Ptr) (out : List FsStats) : Nat :=
  (if out = [] ∨ roundUp out.length (w.shiftAt (some p)) = w.allocAt (some p) then 0 else 1)
    + copyRequests FsStats.strings out

section Store

variable {base w : World FsStats} {p : Ptr} {x : Option Ptr} {items out : List FsStats}

theorem storeFs_nil {v : SgVector FsStats} (valid : BitTable) (err : SgError) (hw : w.Tidy)
    (hp : w.store p = some v) (hx : ∀ t, x = some t → t ≠ p ∧ ∃ vt, w.store t = some vt) :
    ∃ w1 w2, storeFs err x valid 0 (some p) w = .ok ((err, none), w2) ∧ w.Step w1 (some p) ∧
      w1.Step w2 x ∧ w2.error = .none ∧ w2.mem = w.mem := by
  have hand : w.Handover ((w.shrink p v 0).drop p).cleared (some p) none :=
    ((World.Handover.own (hw.fresh.lt hp)).shrink v 0).drop.cleared
  have hstep := hand.step hw (by intro q u hq; cases hq)
  have hempty := vectorUpdate_null (show vectorCreateOrResize FsStats.info (some p)
    (CountArg.count 0).value w = _ from sgVectorResize_zero hp (hw.inBlock hp)) rfl
  cases x with
  | none =>
      refine ⟨_, _, ?_, hstep, .refl hstep.tidy none, rfl, rfl⟩
      rw [storeFs, hempty]
      rfl
  | some t =>
      obtain ⟨hne, vt, ht⟩ := hx t rfl
      obtain ⟨w2, hfree, hstep2, hthread⟩ := hstep.tidy.freeVector
        (hstep.live hw ht fun hcon => hne (Option.some.inj hcon).symm)
      refine ⟨_, w2, ?_, hstep, hstep2, ?_, ?_⟩
      · rw [storeFs, hempty]
        simp only
        rw [Prog.bind_of_ok hfree]
        rfl
      · rw [hthread]
        rfl
      · rw [hthread]
        rfl

/-- Once there is room the marked items are copied there and the list is given back. -/
theorem storeFs_copied {t q : Ptr} {vt v : SgVector FsStats} {valid : BitTable} {w1 : World FsStats}
    (err : SgError) (hw : w.Tidy) (ht : w.store t = some vt) (htp : t ≠ p)
    (hpicks : ((List.range vt.usedCount).filter valid.isSet).map vt.cells = out)
    (hrun : vectorCreateOrResize FsStats.info (some p) out.length w = .ok (some q, w1))
    (hstep : w.Step w1 (some p)) (hkept : some p = some q ∨ w.next ≤ q) (hq : w1.store q = some v)
    (hback : v.Backed) (hused : v.usedCount = out.length) :
    ∃ cells w2 w3, storeFs err (some t) valid out.length (some p) w = .ok ((err, some q), w3) ∧
      w.Step w2 (some p) ∧ w2.Step w3 (some t) ∧ w3.store q = some { v with cells := cells } ∧
      (Supply.Grants w1.mem (copyRequests FsStats.strings out) →
        ({ v with cells := cells } : SgVector FsStats).items = out ∧
          w3.mem = Supply.after w1.mem (copyRequests FsStats.strings out)) := by
  have htq : t ≠ q := by
    intro hcon
    rcases hkept with hold | hnew
    · exact htp (hcon.trans (Option.some.inj hold).symm)
    · exact absurd (hw.fresh.lt ht) (not_lt.mpr (hcon ▸ hnew))
  have ht1 : w1.store t = some vt := hstep.live hw ht fun hcon => htp (Option.some.inj hcon).symm
  have hlength : ((List.range vt.usedCount).filter valid.isSet).length = out.length := by
    rw [← hpicks, List.length_map]
  obtain ⟨t', cells, hcopy, hall⟩ := copyValid_run htq
    ((List.range vt.usedCount).filter valid.isSet) 0 0 w1 v ht1 hq (hstep.tidy.inBlock ht1)
    (by
      rw [hlength, Nat.zero_add, ← hused]
      exact hstep.tidy.inBlock hq)
    (Nat.zero_le _) (by rw [Nat.sub_zero, List.range_eq_range'])
  rw [hlength] at hcopy
  rw [hpicks] at hall
  have hback' : ({ v with cells := cells } : SgVector FsStats).Backed :=
    ⟨hback.within, hback.record, hback.full⟩
  have hstep2 := hstep.tidy.recopy hq hback' t'
  have ht2 : (w1.recopy t' q { v with cells := cells }).store t = some vt := by
    rw [recopy_store, Function.update_of_ne htq, ht1]
  obtain ⟨w3, hfree, hstep3, hthread⟩ := hstep2.tidy.freeVector ht2
  refine ⟨cells, _, w3, ?_, hstep.trans hstep2 ?_, hstep3, ?_, ?_⟩
  · rw [storeFs, vectorUpdate_some hrun]
    simp only
    rw [Prog.bind_of_ok hcopy, Prog.bind_of_ok hfree]
    rfl
  · intro r hr
    cases hr
    exact hkept
  · exact hstep3.live hstep2.tidy (Function.update_self _ _ _) fun hcon => htq (Option.some.inj hcon)
  · intro hgrants
    obtain ⟨hmem, hfilled⟩ := hall hgrants
    refine ⟨?_, ?_⟩
    · rw [hfilled]
      exact filled_items v hused.symm
    · rw [hthread]
      exact hmem

theorem storeFs_cons {t : Ptr} {vt : SgVector FsStats} {valid : BitTable} (err : SgError)
    (hp : w.Holds FsStats.info (some p) []) (hw : w.Tidy) (ht : w.store t = some vt) (htp : t ≠ p)
    (hpicks : ((List.range vt.usedCount).filter valid.isSet).map vt.cells = out) (hout : out ≠ [])
    (hlimit : out.length ≤ itemLimit) :
    (∃ q w1 w2, storeFs err (some t) valid out.length (some p) w = .ok ((err, some q), w2) ∧
      w.Step w1 (some p) ∧ (q = p ∨ w.next ≤ q) ∧ w1.Step w2 (some t) ∧
      (∃ items, w2.Holds FsStats.info (some q) items ∧
        (Supply.Grants w.mem (w.storeRequests p out) → items = out ∧
          w2.mem = Supply.after w.mem (w.storeRequests p out)))) ∨
    (∃ w1, storeFs err (some t) valid out.length (some p) w = .ok ((.malloc, none), w1) ∧
      w.Step w1 (some p) ∧ w1.error = .malloc ∧ ¬ Supply.Grants w.mem (w.storeRequests p out)) := by
  have hn : out.length ≠ 0 := fun h => hout (List.length_eq_zero_iff.mp h)
  have hp' := hp
  obtain ⟨v, hv, hcached, -⟩ := hp'
  have hserved : ∀ r w', vectorCreateOrResize FsStats.info (some p) out.length w = .ok (r, w') →
      Served w.mem w'.mem (v.resizeRequests out.length) (r ≠ none) := fun r w' hrun =>
    sgVectorResize_served hn hv (hw.inBlock hv)
      (hcached.info ▸ FsStats.regular.fits (by omega) hcached.shift) hrun
  have hrequests : w.storeRequests p out
      = v.resizeRequests out.length + copyRequests FsStats.strings out := by
    rw [World.storeRequests, shiftAt_some hv, allocAt_some hv, SgVector.resizeRequests]
    simp only [hout, false_or]
  rw [hrequests]
  rcases vectorCreateOrResize_run FsStats.regular hw hp hn hlimit (Nat.zero_le _) with
    ⟨q, w1, u, hrun, hgrown⟩ | ⟨w1, hrun, hstep, herr, -⟩
  · have hresized := hserved _ _ hrun
    obtain ⟨cells, w2, w3, hstore, hstep2, hstep3, hq, hall⟩ := storeFs_copied err hw ht htp hpicks hrun
      hgrown.step hgrown.kept hgrown.store hgrown.cached.backed hgrown.used
    refine .inl ⟨q, w2, w3, hstore, hstep2, ?_, hstep3,
      ⟨_, ⟨_, hq, hgrown.cached.withCells cells, hgrown.slots_ne_zero hn, rfl⟩, ?_⟩⟩
    · rcases hgrown.kept with hold | hnew
      · exact .inl (Option.some.inj hold).symm
      · exact .inr hnew
    · intro hgrants
      have hmem := hresized.rest (Option.some_ne_none q)
      obtain ⟨hitems, hmem'⟩ := hall (hmem ▸ (Supply.grants_add.mp hgrants).2)
      rw [hmem, Supply.after_after] at hmem'
      exact ⟨hitems, hmem'⟩
  · refine .inr ⟨w1, ?_, hstep, herr, ?_⟩
    · rw [storeFs, vectorUpdate_refused hrun (by simpa [CountArg.negated] using hn), herr]
    · intro hgrants
      exact (hserved _ _ hrun).ok_iff.mpr (Supply.grants_add.mp hgrants).1 rfl

end Store

/-! ### The whole read -/

namespace MountTable

def listed (mount : Mount) : FsStats :=
  ⟨some mount.fsName, some mount.canonical, some mount.type, some mount.dir, .unknown,
    0, 0, 0, 0, 0, 0, 0, 0, 0, 0, 0, 0, 0, 0, 0⟩

/-- The snapshot of a mount table that is read to its end: the valid filesystems `statvfs` answers
for, in the order of the table. -/
def snapshot (table : MountTable) : Option (List FsStats) :=
  match table.mounts with
  | .error _ => none
  | .ok mounts =>
      if table.errnoAfter = 0 then
        some (mounts.zipIdx.filterMap fun m => fsChosen table m.2 (listed m.1))
      else none

theorem opened_of_snapshot {table : MountTable} {s : List FsStats} (h : table.snapshot = some s) :
    table.Opened := by
  unfold snapshot at h
  split at h
  · cases h
  · rename_i mounts hmounts
    by_cases herrno : table.errnoAfter = 0
    · exact ⟨⟨mounts, hmounts⟩, herrno⟩
    · rw [if_neg herrno] at h
      cases h

theorem fsChosen_listed (table : MountTable) {mount : Mount} {x : FsStats} (h : Listed mount x)
    (i : Nat) : fsChosen table i x = fsChosen table i (listed mount) := by
  have hfill : ∀ fs time, withStatVfs fs time x = withStatVfs fs time (listed mount) := by
    intro fs time
    simp only [listed, withStatVfs, h.deviceName, h.deviceCanonical, h.mntPoint, h.deviceType,
      h.fsType]
  have htype : x.fsType = (listed mount).fsType := h.fsType
  unfold fsChosen
  rw [htype]
  cases table.statvfs i with
  | error errno => rfl
  | ok fs =>
      simp only
      rw [hfill]

theorem chosenOf_eq (table : MountTable) {mounts : List Mount} {v : SgVector FsStats}
    (h : List.Forall₂ Listed mounts v.items) :
    chosenOf table v = mounts.zipIdx.filterMap fun m => fsChosen table m.2 (listed m.1) := by
  have hgeneral : ∀ (mounts : List Mount) (k n : Nat),
      List.Forall₂ Listed mounts (v.slice k n) →
      ((List.range' k n).filterMap fun j => fsChosen table j (v.cells j))
        = (mounts.zipIdx k).filterMap fun m => fsChosen table m.2 (listed m.1) := by
    intro mounts
    induction mounts with
    | nil =>
        intro k n h
        cases n with
        | zero => rfl
        | succ n =>
            rw [slice_succ] at h
            cases h
    | cons m mounts ih =>
        intro k n h
        cases n with
        | zero => cases h
        | succ n =>
            rw [slice_succ] at h
            cases h with
            | cons hm hrest =>
                rw [List.range'_succ, List.zipIdx_cons, List.filterMap_cons, List.filterMap_cons,
                  fsChosen_listed table hm, ih (k + 1) n hrest]
  rw [chosenOf, List.range_eq_range']
  exact hgeneral mounts 0 v.usedCount (by rwa [slice_items])

end MountTable

/-- The state in which the chosen filesystems are stored: the list ended with `err`, its vector is in
`x`, and `out` are the items marked there. -/
structure Chosen (w w2 : World FsStats) (p : Ptr) (err : SgError) (x : Option Ptr) (valid : BitTable)
    (out : List FsStats) : Prop where
  target : w2.Holds FsStats.info (some p) []
  same : w2.store p = w.store p
  step : w.Step w2 (some p)
  fresh : ∀ t, x = some t → w.next ≤ t
  other : x ≠ some p
  listed : ∃ items, w2.Holds FsStats.info x items
  picks : Picks w2 x valid out
  limit : out.length ≤ itemLimit
  failed : err ≠ .none → out = []
  plenty : w.Plenty → w2.Plenty

theorem sgGetFsStatsInt_chosen (table : MountTable) (hsize : table.entries.length ≤ itemLimit)
    {w w1 : World FsStats} {p : Ptr} (hw : w.Tidy) (hp : w.Holds FsStats.info (some p) [])
    {err : SgError} {x : Option Ptr} (hlist : sgGetFsListInt table none w = .ok ((err, x), w1)) :
    ∃ valid out w2, validFs table err x w1 = .ok ((valid, out.length), w2) ∧
      Chosen w w2 p err x valid out ∧ w2.mem = w1.mem ∧
      (err = .none → ∀ t v, x = some t → w1.store t = some v → out = chosenOf table v) := by
  rcases sgGetFsListInt_run table hsize hw with
    ⟨err', x', listed, w1', hlist', hrefill, hcode⟩ | ⟨hfault, -⟩
  swap
  · rw [hfault] at hlist
    cases hlist
  rw [hlist] at hlist'
  cases hlist'
  obtain ⟨vp, hvp, hready⟩ := hp
  -- the vector of the list is new
  have hnew : ∀ t, x = some t → w.next ≤ t := by
    intro t ht
    rcases hrefill.kept t ht with hold | hnew
    · cases hold
    · exact hnew
  have hxp : x ≠ some p := fun h => absurd (hw.fresh.lt hvp) (not_lt.mpr (hnew p h))
  obtain ⟨valid, out, w2, hvalid, hstep2, hmem2, ⟨items2, hholds2⟩, hpicks, hle, hnil, hchosen⟩ :=
    validFs_run table err hrefill.step.tidy hrefill.holds
  have hvp2 : w2.store p = some vp :=
    hstep2.live hrefill.step.tidy (hrefill.step.live hw hvp (by simp)) hxp
  have hbase : w.Step w2 (some p) :=
    ⟨hstep2.tidy, le_trans hrefill.step.mono hstep2.mono, by
      intro q hq hne
      rw [hstep2.frame q (lt_of_lt_of_le hq hrefill.step.mono), hrefill.step.frame q hq (by simp)]
      intro hcon
      exact absurd hq (not_lt.mpr (hnew q hcon))⟩
  have hplenty2 : w.Plenty → w2.Plenty := fun hp n => by
    rw [hmem2]
    exact hrefill.plenty hp n
  exact ⟨valid, out, w2, hvalid, ⟨⟨vp, hvp2, hready⟩, hvp2.trans hvp.symm, hbase, hnew, hxp,
    ⟨items2, hholds2⟩, hpicks, le_trans hle hrefill.holds.length_le, hnil, hplenty2⟩, hmem2, hchosen⟩

theorem Chosen.steps {w w2 w3 w4 : World FsStats} {p : Ptr} {err : SgError} {x : Option Ptr}
    {valid : BitTable} {out : List FsStats} (h : Chosen w w2 p err x valid out)
    (h3 : w2.Step w3 (some p)) (h4 : w3.Step w4 x) : w.Step w4 (some p) :=
  (h.step.trans h3 fun _ hq => .inl hq).trans h4 fun t ht => .inr (h.fresh t ht)

/-- The requests of a read: for the list, and for storing what is chosen of it. -/
def MountTable.requests (table : MountTable) (shift alloc : Nat) : Nat :=
  table.listRequests + ((if table.snapshot.getD [] = [] ∨
    roundUp (table.snapshot.getD []).length shift = alloc then 0 else 1)
    + copyRequests FsStats.strings (table.snapshot.getD []))

theorem chosen_eq_snapshot {table : MountTable} (hsize : table.entries.length ≤ itemLimit)
    {w w1 w2 : World FsStats} (hw : w.Tidy) {s out : List FsStats} (hs : table.snapshot = some s)
    (hgrants : Supply.Grants w.mem table.listRequests) {err : SgError} {x : Option Ptr} {valid : BitTable}
    (hlist : sgGetFsListInt table none w = .ok ((err, x), w1)) (hpicks : Picks w2 x valid out)
    (hchosen : err = .none → ∀ t v, x = some t → w1.store t = some v → out = chosenOf table v) :
    err = .none ∧ out = s ∧ w1.mem = Supply.after w.mem table.listRequests := by
  unfold MountTable.snapshot at hs
  split at hs
  · cases hs
  · rename_i mounts hmounts
    by_cases herrno : table.errnoAfter = 0
    swap
    · rw [if_neg herrno] at hs
      cases hs
    rw [if_pos herrno] at hs
    cases hs
    obtain ⟨x', items, w1', hlist', hrefill, hnull, hlisted, hmem⟩ :=
      sgGetFsListInt_granted table hsize ⟨⟨mounts, hmounts⟩, herrno⟩ hw hgrants
    rw [hlist] at hlist'
    cases hlist'
    rw [table.entries_of_ok hmounts] at hnull hlisted
    refine ⟨rfl, ?_, hmem⟩
    cases x with
    | none =>
        have hempty : mounts = [] := by
          by_contra hne
          exact hnull hne rfl
        rw [hempty]
        exact hpicks
    | some t =>
        obtain ⟨v, hv, -, -, hitems⟩ := hrefill.holds
        rw [hchosen rfl t v rfl hv]
        exact table.chosenOf_eq (hitems.symm ▸ hlisted)

/-- Where the requests of the read are granted, those for the list are, and then those for storing what is
chosen of it. -/
theorem Chosen.granted {table : MountTable} (hsize : table.entries.length ≤ itemLimit) {w w1 w2 : World FsStats}
    {p : Ptr} {err : SgError} {x : Option Ptr} {valid : BitTable} {out s : List FsStats}
    (h : Chosen w w2 p err x valid out) (hw : w.Tidy) (hlist : sgGetFsListInt table none w = .ok ((err, x), w1))
    (hmem2 : w2.mem = w1.mem)
    (hchosen : err = .none → ∀ t v, x = some t → w1.store t = some v → out = chosenOf table v)
    (hs : table.snapshot = some s)
    (hgrants : Supply.Grants w.mem (table.requests (w.shiftAt (some p)) (w.allocAt (some p)))) :
    err = .none ∧ out = s ∧ Supply.Grants w2.mem (w2.storeRequests p out) ∧
      Supply.after w2.mem (w2.storeRequests p out)
        = Supply.after w.mem (table.requests (w.shiftAt (some p)) (w.allocAt (some p))) := by
  have hrequests : table.requests (w.shiftAt (some p)) (w.allocAt (some p))
      = table.listRequests + w2.storeRequests p s := by
    rw [MountTable.requests, World.storeRequests, hs, Option.getD_some, World.shiftAt, World.allocAt,
      World.shiftAt, World.allocAt, Option.bind_some, Option.bind_some, h.same]
  rw [hrequests] at hgrants ⊢
  obtain ⟨hfirst, hlater⟩ := Supply.grants_add.mp hgrants
  obtain ⟨herr, rfl, hmem1⟩ := chosen_eq_snapshot hsize hw hs hfirst hlist h.picks hchosen
  rw [hmem2, hmem1]
  exact ⟨herr, rfl, hlater, Supply.after_after _ _ _⟩

/-- What the read does, how its code and its error depend on the list, and what it delivers where its
requests are granted. -/
theorem sgGetFsStatsInt_run (table : MountTable) (hsize : table.entries.length ≤ itemLimit)
    {w : World FsStats} {p : Ptr} (hw : w.Tidy) (hp : w.Holds FsStats.info (some p) []) :
    (∃ rc y items w' err x w1, sgGetFsStatsInt table (some p) w = .ok ((rc, y), w') ∧
      w.Refill w' FsStats.info (some p) y items ∧
      sgGetFsListInt table none w = .ok ((err, x), w1) ∧
      (err ≠ .none → rc = err ∧ y = none ∧ w'.error = .none) ∧
      (err = .none → rc = .none ∨ (rc = .malloc ∧ y = none ∧ w'.error = .malloc)) ∧
      ∀ s, table.snapshot = some s →
        Supply.Grants w.mem (table.requests (w.shiftAt (some p)) (w.allocAt (some p))) →
        rc = .none ∧ items = s ∧ (y = none ↔ s = []) ∧
          w'.mem = Supply.after w.mem (table.requests (w.shiftAt (some p)) (w.allocAt (some p)))) ∨
    (Starved (sgGetFsListInt table none) w ∧ Starved (sgGetFsStatsInt table (some p)) w) := by
  rcases sgGetFsListInt_run table hsize hw with ⟨err, x, -, w1, hlist, -⟩ | hstarved
  swap
  · exact .inr ⟨hstarved, Prog.bind_of_error hstarved.1 _, hstarved.2⟩
  left
  obtain ⟨valid, out, w2, hvalid, h, hmem2, hchosen⟩ := sgGetFsStatsInt_chosen table hsize hw hp hlist
  have hrun : sgGetFsStatsInt table (some p) w = storeFs err x valid out.length (some p) w2 := by
    rw [sgGetFsStatsInt, Prog.bind_of_ok hlist]
    simp only
    rw [Prog.bind_of_ok hvalid]
  have hsnap := fun s hs hgrants => h.granted hsize hw hlist hmem2 hchosen (s := s) hs hgrants
  by_cases hout : out = []
  · subst hout
    obtain ⟨items2, hholds2⟩ := h.listed
    obtain ⟨vp, hvp, -⟩ := h.target
    have hx : ∀ t, x = some t → t ≠ p ∧ ∃ vt, w2.store t = some vt := by
      intro t ht
      subst ht
      obtain ⟨vt, hvt, -⟩ := hholds2
      exact ⟨fun hcon => h.other (by rw [hcon]), vt, hvt⟩
    obtain ⟨w3, w4, hstore, hstep3, hstep4, herr, hmem⟩ := storeFs_nil valid err h.step.tidy hvp hx
    refine ⟨err, none, [], w4, err, x, w1, hrun.trans hstore, ⟨h.steps hstep3 hstep4, ?_, rfl, ?_⟩,
      hlist, fun _ => ⟨rfl, rfl, herr⟩, fun he => .inl he, ?_⟩
    · intro q hq
      cases hq
    · intro hplenty n
      rw [hmem]
      exact h.plenty hplenty n
    · intro s hs hgrants
      obtain ⟨herr', rfl, -, hrest⟩ := hsnap s hs hgrants
      refine ⟨herr', rfl, by simp, ?_⟩
      rw [← hrest, hmem]
      exact (Supply.after_zero w2.mem).symm
  · have herr : err = .none := by
      by_contra hne
      exact hout (h.failed hne)
    cases x with
    | none => exact absurd h.picks hout
    | some t =>
        obtain ⟨vt, ht, hpicks⟩ := h.picks
        rcases storeFs_cons err h.target h.step.tidy ht (fun hcon => h.other (by rw [hcon]))
            hpicks hout h.limit with
          ⟨q, w3, w4, hstore, hstep3, hkept, hstep4, items, hholds, hall⟩ |
          ⟨w3, hstore, hstep3, hmalloc, hnot⟩
        · refine ⟨err, some q, items, w4, err, some t, w1, hrun.trans hstore,
            ⟨h.steps hstep3 hstep4, ?_, hholds, ?_⟩, hlist,
            fun he => absurd herr he, fun _ => .inl herr, ?_⟩
          · intro r hr
            cases hr
            rcases hkept with hold | hnew
            · exact .inl (by rw [hold])
            · exact .inr (le_trans h.step.mono hnew)
          · intro hp
            have hp2 := h.plenty hp
            exact plenty_of_after (hall fun k _ => hp2 k).2 hp2
          · intro s hs hgrants
            obtain ⟨-, rfl, hlater, hrest⟩ := hsnap s hs hgrants
            obtain ⟨hitems, hmem⟩ := hall hlater
            exact ⟨herr, hitems, by simp [hout], hmem.trans hrest⟩
        · refine ⟨.malloc, none, [], w3, err, some t, w1, hrun.trans hstore,
            ⟨h.step.trans hstep3 fun _ hq => .inl hq, ?_, rfl, ?_⟩,
            hlist, fun he => absurd herr he, fun _ => .inr ⟨rfl, rfl, hmalloc⟩, ?_⟩
          · intro q hq
            cases hq
          · intro hp
            exact absurd (fun k _ => h.plenty hp k) hnot
          · intro s hs hgrants
            exact absurd (hsnap s hs hgrants).2.2.1 hnot

namespace MountTable

variable {table : MountTable}

theorem reads (hsize : table.entries.length ≤ itemLimit) :
    Reads FsStats.info (sgGetFsStatsInt table) := by
  intro w p hw hp
  rcases sgGetFsStatsInt_run table hsize hw hp with
    ⟨rc, y, items, w', -, -, -, hrun, hrefill, -⟩ | ⟨-, hstarved⟩
  · exact .inl ⟨rc, y, items, w', hrun, hrefill⟩
  · exact .inr hstarved

theorem readsGranted (hsize : table.entries.length ≤ itemLimit) {items : List FsStats}
    (hitems : table.snapshot = some items) :
    ReadsGranted FsStats.info (sgGetFsStatsInt table) true table.requests items := by
  intro w p hw hp hgrants
  rcases sgGetFsStatsInt_run table hsize hw hp with
    ⟨rc, y, items', w', -, -, -, hrun, hrefill, -, -, -, hall⟩ | ⟨⟨hfault, -⟩, -⟩
  · obtain ⟨rfl, rfl, hnull, hmem⟩ := hall items hitems hgrants
    exact ⟨y, w', hrun, hrefill, by simpa using hnull, hmem⟩
  · obtain ⟨x, listed, w1, hlist, -⟩ := sgGetFsListInt_granted table hsize (opened_of_snapshot hitems) hw
      (hgrants.mono (Nat.le_add_right _ _))
    rw [hlist] at hfault
    cases hfault

theorem named {items : List FsStats} (hitems : table.snapshot = some items) :
    FsStats.keyed.Named items := by
  unfold snapshot at hitems
  split at hitems
  · cases hitems
  · split at hitems
    · cases hitems
      intro x hx
      obtain ⟨m, -, hm⟩ := List.mem_filterMap.mp hx
      unfold fsChosen at hm
      split at hm
      · split at hm
        · cases hm
        · cases hm
          rfl
      · cases hm
    · cases hitems

end MountTable

end Statgrab
