import Mathlib.Data.List.Basic
import Statgrab.Vector.Diff

/-!
# Which items are subtracted

`sg_vector_compute_diff` on vectors of any length. The target gets the items of the current vector in their
order. Each of them takes every item of the last vector that has its key and that no item before it has
taken: the inner loop goes on after a match. `taken` lists the positions in this way, and the result is what
folding `compute_diff_fn` over them gives.

With distinct keys that is the documented difference; there the slots are taken as unbounded. With repeated
keys the matching is one-to-one exactly if no key of the current vector occurs twice in the last one, and
the target can take the items: its block may be smaller than its record says.
-/

namespace Statgrab

variable {α : Type}

/-! ### The call -/

section Call

/-- The target for the items of `c` is NULL or a live vector, and the bytes of its block are a
`size_t`. -/
def TargetReady (w : World α) (c : SgVector α) : Option Ptr → Prop
  | none => Fits (max c.allocCount c.usedCount) c.blockShift c.info
  | some p => ∃ d, w.store p = some d ∧ Fits c.usedCount d.blockShift d.info

/-- A target that has items is not emptied. -/
def KeepsItems (w : World α) (c : SgVector α) (dest : Option Ptr) : Prop :=
  c.usedCount = 0 → ∀ p d, dest = some p → w.store p = some d → d.usedCount = 0

/-- The block of the target is not empty where its record covers the items of `c`. -/
def HasRoom (w : World α) (c : SgVector α) (dest : Option Ptr) : Prop :=
  ∀ p d, dest = some p → w.store p = some d → ¬ d.Unbacked c.usedCount

theorem hasRoom_none (w : World α) (c : SgVector α) : HasRoom w c none := by
  intro p d hp
  cases hp

def World.ItemsOf (w : World α) (info : VectorInitInfo α) (x : Option Ptr) (items : List α) : Prop :=
  match x with
  | none => items = []
  | some p => ∃ v, w.store p = some v ∧ v.info = info ∧ v.items = items

/-- No item function leaves its block while the items of `c` are copied to the target. -/
structure World.CopiesInside (w : World α) (c : SgVector α) (dest : Option Ptr) : Prop where
  within : ∀ p v, w.store p = some v → w.InBlock v v.usedCount
  room : ∀ p d, dest = some p → w.store p = some d → c.usedCount ≠ 0 →
    roundUp c.usedCount d.blockShift = d.allocCount → w.InBlock d c.usedCount

theorem World.CopiesInside.of_unbounded {w : World α} (hb : w.bounded = false) (c : SgVector α)
    (dest : Option Ptr) : w.CopiesInside c dest :=
  ⟨fun _ _ _ => w.inBlock_of_unbounded hb _ _, fun _ _ _ _ _ _ => w.inBlock_of_unbounded hb _ _⟩

theorem World.Sound.copiesInside {w : World α} (hw : w.Sound) {c : SgVector α} {dest : Option Ptr}
    (hroom : HasRoom w c dest) : w.CopiesInside c dest := by
  refine ⟨fun p v hv => hw.inBlock hv, ?_⟩
  intro p d hdest hd hn hround _
  exact (hw.backed p d hd).room hn (hroom p d hdest hd) hround

variable {w : World α} {cur : Ptr} {c : SgVector α} {dest last : Option Ptr} {info : VectorInitInfo α}

theorem sgVectorCloneInto_ready (hf : w.Fresh) (hw : w.Plenty) (hin : w.CopiesInside c dest)
    (hc : w.store cur = some c) (hcopies : c.info.Copies) (hready : TargetReady w c dest)
    (hkeep : KeepsItems w c dest) :
    ∃ q w' u, sgVectorCloneInto dest (some cur) w = .ok ((.none, some q), w') ∧
      w.CopyOf w' dest q c u ∧ w.InBlock u c.usedCount := by
  cases dest with
  | none =>
      rcases sgVectorCloneInto_none hf hc hcopies (hin.within cur c hc) hready with
        ⟨q, w', u, hrun, hcopy, hcreated⟩ | ⟨rc, w', -, hfail⟩
      · refine ⟨q, w', u, hrun, hcopy, fun _ => ?_⟩
        rw [hcreated.slots]
        exact le_trans (le_max_right _ _) (le_roundUp _ _)
      · exact absurd hw hfail.memory
  | some p =>
      obtain ⟨d, hd, hfit⟩ := hready
      have hsafe : w.ResizeSafe d c.usedCount := by
        by_cases hused : d.usedCount = c.usedCount
        · exact .inl hused
        · have hn : c.usedCount ≠ 0 := fun h0 => hused (by rw [h0, hkeep h0 p d rfl hd])
          refine .inr ⟨hn, ?_⟩
          split
          · next hround => exact hin.room p d rfl hd hn hround
          · exact hw 0
      rcases sgVectorCloneInto_some hf hd hc hcopies (hin.within p d hd) (hin.within cur c hc)
          (fun _ => hfit) hsafe with
        ⟨q, w', u, hrun, hcopy, -, hblock⟩ | ⟨rc, w', -, hfail⟩
      · exact ⟨q, w', u, hrun, hcopy, hblock⟩
      · exact absurd hw hfail.memory

/-- The target becomes the difference, and the two snapshots stay as they are. -/
theorem sgVectorComputeDiff_subtract (keyed : info.Keyed) (hf : w.Fresh) (hw : w.Plenty)
    (hin : w.CopiesInside c dest) (hc : w.store cur = some c) (hcopies : c.info.Copies)
    (hready : TargetReady w c dest) (hkeep : KeepsItems w c dest) {lasts : List α}
    (hlast : w.ItemsOf info last lasts) (hcur : dest ≠ some cur)
    (hother : ∀ l, last = some l → dest ≠ some l) {out : List α}
    (hout : subtract keyed.compare keyed.computeDiff lasts c.items = some out) :
    ∃ q w' v, sgVectorComputeDiff dest (some cur) last w = .ok ((.none, some q), w') ∧
      w'.store q = some v ∧ v.items = out ∧ w'.store cur = some c ∧
      ∀ l, last = some l → w'.store l = w.store l := by
  obtain ⟨q, w1, u, hrun, hcopy, hblock⟩ := sgVectorCloneInto_ready hf hw hin hc hcopies hready hkeep
  have hcur1 : w1.store cur = some c := hcopy.handover.live hf hc hcur
  have hcurq : cur ≠ q := fun hcon => hcopy.handover.avoids (hf.lt hc) hcur (congrArg some hcon.symm)
  cases last with
  | none =>
      obtain rfl : lasts = [] := hlast
      rw [subtract_nil] at hout
      cases hout
      refine ⟨q, w1, _, ?_, hcopy.store, copied_items hcopy.used, hcur1, ?_⟩
      · rw [sgVectorComputeDiff, Prog.bind_of_ok hrun]
        rfl
      · intro l hl
        cases hl
  | some l =>
      obtain ⟨lv, hl, hlinfo, rfl⟩ := hlast
      have hl1 : w1.store l = some lv := hcopy.handover.live hf hl (hother l rfl)
      have hlq : l ≠ q := fun hcon =>
        hcopy.handover.avoids (hf.lt hl) (hother l rfl) (congrArg some hcon.symm)
      have hbounded := hcopy.handover.bounded
      have hcompare : lv.info.compareFn = some keyed.compare := by rw [hlinfo, keyed.compareFn]
      have hdiff : lv.info.computeDiffFn = some keyed.computeDiff := by
        rw [hlinfo, keyed.computeDiffFn]
      have hsub := subtractLast_run hlq hcompare hdiff hl1 hcopy.store
        (fun hb => hin.within l lv hl (hbounded ▸ hb))
        (fun hb => by
          rw [copied_usedCount, hcopy.used]
          exact hblock (hbounded ▸ hb))
      rw [copied_items hcopy.used, hout] at hsub
      refine ⟨q, w1.put q ((u.copied c 0 c.usedCount).filled 0 out), _, ?_,
        Function.update_self _ _ _, ?_, ?_, ?_⟩
      · rw [sgVectorComputeDiff, Prog.bind_of_ok hrun]
        simp only [ne_eq, not_true_eq_false, if_false]
        rw [Prog.bind_of_ok hsub]
        rfl
      · apply filled_items
        rw [subtract_length hout, copied_usedCount, hcopy.used, items_length]
      · exact (Function.update_of_ne hcurq _ _).trans hcur1
      · intro p hp
        cases hp
        rw [hl]
        exact (Function.update_of_ne hlq _ _).trans hl1

/-- The difference of two snapshots with distinct keys: every item of the current one in its order, with
the item of the last one that has its key subtracted, or unchanged where there is none. -/
theorem sgVectorComputeDiff_snapshots (keyed : info.Keyed) (hf : w.Fresh) (hw : w.Plenty)
    (hb : w.bounded = false) (hc : w.store cur = some c) (hcinfo : c.info = info)
    (hcopies : info.Copies) (hne : c.items ≠ []) (hready : TargetReady w c dest) {lasts : List α}
    (hlast : w.ItemsOf info last lasts) (hcur : dest ≠ some cur)
    (hother : ∀ l, last = some l → dest ≠ some l) (hcurs : keyed.Snapshot c.items)
    (hlasts : keyed.Snapshot lasts) :
    ∃ q w' v, sgVectorComputeDiff dest (some cur) last w = .ok ((.none, some q), w') ∧
      w'.store q = some v ∧ v.items = c.items.map (keyed.reduce lasts) ∧ w'.store cur = some c ∧
      ∀ l, last = some l → w'.store l = w.store l := by
  have hkeep : KeepsItems w c dest := by
    intro h0
    exact absurd (List.length_eq_zero_iff.mp ((items_length c).trans h0)) hne
  exact sgVectorComputeDiff_subtract keyed hf hw (.of_unbounded hb c dest) hc (hcinfo ▸ hcopies) hready hkeep
    hlast hcur hother (VectorInitInfo.Keyed.subtract_eq_map hlasts hcurs)

end Call

/-! ### Repeated keys -/

def indexed (items : List α) : List (Nat × α) := items.zipIdx.map Prod.swap

theorem indexed_snd (items : List α) : (indexed items).map Prod.snd = items := by
  rw [indexed, List.map_map]
  exact List.zipIdx_map_fst 0 items

theorem indexed_nodup (items : List α) : ((indexed items).map Prod.fst).Nodup := by
  have hfst : (indexed items).map Prod.fst = List.range' 0 items.length := by
    rw [indexed, List.map_map]
    exact List.zipIdx_map_snd 0 items
  rw [hfst]
  exact List.nodup_range'

namespace VectorInitInfo.Keyed

variable {info : VectorInitInfo α} (h : info.Keyed)

/-- The items of the last vector, with their positions, that each item of the current one takes: those
with its key that are left. -/
def taken : List (Nat × α) → List α → List (List (Nat × α))
  | _, [] => []
  | rest, x :: xs =>
      rest.filter (fun y => h.key y.2 = h.key x) ::
        taken (rest.filter fun y => h.key y.2 ≠ h.key x) xs

def subtractAll (x : α) (ys : List (Nat × α)) : α := ys.foldl (fun x y => h.computeDiff y.2 x) x

def count (items : List α) (x : α) : Nat := items.countP fun y => h.key y = h.key x

/-- A matching of the items of `cur` with positions of `last` is one-to-one: no item has two positions,
no position is used twice, and an item goes without one only where fewer items of `last` than of `cur`
have its key. -/
structure OneToOne (last cur : List α) (taken : List (List (Nat × α))) : Prop where
  single : ∀ ys ∈ taken, ys.length ≤ 1
  once : (taken.flatten.map Prod.fst).Nodup
  left : ∀ x ys, (x, ys) ∈ cur.zip taken → ys = [] → h.count last x < h.count cur x

variable {h}

theorem consume_eq_subtractAll {rest : List (Nat × α)} (hn : h.Named (rest.map Prod.snd)) {x : α}
    (hx : (h.key x).isSome) :
    consume h.compare h.computeDiff (rest.map Prod.snd) x
      = some ((rest.filter fun y => h.key y.2 ≠ h.key x).map Prod.snd,
          h.subtractAll x (rest.filter fun y => h.key y.2 = h.key x)) := by
  induction rest generalizing x with
  | nil => rfl
  | cons y rest ih =>
      obtain ⟨k, hk⟩ := Option.isSome_iff_exists.mp hx
      obtain ⟨⟨k', hk'⟩, hrest⟩ := hn.cons
      rw [List.map_cons, consume, h.compare_eq hk' hk]
      by_cases heq : k' = k
      · have hkeys : h.key y.2 = h.key x := by rw [hk', hk, heq]
        rw [decide_eq_true heq, List.filter_cons_of_neg (by simp [hkeys]),
          List.filter_cons_of_pos (by simp [hkeys])]
        simp only
        rw [ih hrest (by rw [h.key_computeDiff]; exact hx), h.key_computeDiff]
        rfl
      · have hkeys : h.key y.2 ≠ h.key x := by
          rw [hk', hk]
          exact fun hcon => heq (Option.some.inj hcon)
        rw [decide_eq_false heq, List.filter_cons_of_pos (by simp [hkeys]),
          List.filter_cons_of_neg (by simp [hkeys])]
        simp only
        rw [ih hrest hx]
        rfl

theorem subtract_eq_taken {rest : List (Nat × α)} {cur : List α}
    (hrest : h.Named (rest.map Prod.snd)) (hcur : h.Named cur) :
    subtract h.compare h.computeDiff (rest.map Prod.snd) cur
      = some (List.zipWith h.subtractAll cur (h.taken rest cur)) := by
  induction cur generalizing rest with
  | nil => rfl
  | cons x xs ih =>
      have hleft : h.Named ((rest.filter fun y => h.key y.2 ≠ h.key x).map Prod.snd) := by
        intro y hy
        obtain ⟨z, hz, rfl⟩ := List.mem_map.mp hy
        exact hrest _ (List.mem_map_of_mem (List.mem_of_mem_filter hz))
      rw [subtract, consume_eq_subtractAll hrest (hcur x List.mem_cons_self), Option.bind_some,
        ih hleft hcur.cons.2]
      rfl

/-! ### When the matching is one-to-one -/

variable (h) in
/-- How many items of a list with positions have the key of `x`. -/
def countAt (rest : List (Nat × α)) (x : α) : Nat := rest.countP fun y => h.key y.2 = h.key x

theorem countAt_filter_self (rest : List (Nat × α)) {x z : α} (heq : h.key z = h.key x) :
    h.countAt (rest.filter fun y => h.key y.2 ≠ h.key x) z = 0 := by
  rw [countAt, List.countP_eq_zero]
  intro y hy
  have hne := (List.mem_filter.mp hy).2
  simpa [heq] using hne

theorem countAt_filter_of_ne (rest : List (Nat × α)) {x z : α} (hne : h.key z ≠ h.key x) :
    h.countAt (rest.filter fun y => h.key y.2 ≠ h.key x) z = h.countAt rest z := by
  rw [countAt, countAt, List.countP_filter]
  apply List.countP_congr
  intro y _
  by_cases hy : h.key y.2 = h.key z
  · simp [hy, hne]
  · simp [hy]

theorem countAt_filter_le (rest : List (Nat × α)) (x z : α) :
    h.countAt (rest.filter fun y => h.key y.2 ≠ h.key x) z ≤ h.countAt rest z :=
  List.filter_sublist.countP_le

theorem mem_of_mem_taken {rest : List (Nat × α)} {cur : List α} {ys : List (Nat × α)}
    (hys : ys ∈ h.taken rest cur) {y : Nat × α} (hy : y ∈ ys) : y ∈ rest := by
  induction cur generalizing rest with
  | nil => cases hys
  | cons x xs ih =>
      rcases List.mem_cons.mp hys with rfl | hys
      · exact List.mem_of_mem_filter hy
      · exact List.mem_of_mem_filter (ih hys)

theorem taken_once {rest : List (Nat × α)} (cur : List α) (hrest : (rest.map Prod.fst).Nodup) :
    ((h.taken rest cur).flatten.map Prod.fst).Nodup := by
  induction cur generalizing rest with
  | nil => exact List.nodup_nil
  | cons x xs ih =>
      rw [taken, List.flatten_cons, List.map_append, List.nodup_append]
      refine ⟨hrest.sublist (List.filter_sublist.map _), ih (hrest.sublist (List.filter_sublist.map _)),
        ?_⟩
      rintro n hn m hm rfl
      obtain ⟨y, hy, rfl⟩ := List.mem_map.mp hn
      obtain ⟨z, hz, hzy⟩ := List.mem_map.mp hm
      obtain ⟨ys, hys, hzys⟩ := List.mem_flatten.mp hz
      obtain ⟨hymem, hykey⟩ := List.mem_filter.mp hy
      obtain ⟨hzmem, hzkey⟩ := List.mem_filter.mp (mem_of_mem_taken hys hzys)
      have hsame := List.inj_on_of_nodup_map hrest hzmem hymem hzy
      rw [hsame] at hzkey
      simp_all

/-- No item takes two exactly if no key that is asked for occurs twice. -/
theorem taken_single_iff (rest : List (Nat × α)) (cur : List α) :
    (∀ ys ∈ h.taken rest cur, ys.length ≤ 1) ↔ ∀ x ∈ cur, h.countAt rest x ≤ 1 := by
  induction cur generalizing rest with
  | nil => simp [taken]
  | cons x xs ih =>
      rw [taken, List.forall_mem_cons, List.forall_mem_cons, ih, countAt, ← List.countP_eq_length_filter]
      apply and_congr_right
      intro hx
      apply forall₂_congr
      intro z _
      by_cases heq : h.key z = h.key x
      · rw [countAt_filter_self rest heq, countAt, heq]
        exact iff_of_true (Nat.zero_le 1) hx
      · rw [countAt_filter_of_ne rest heq]

/-- An item goes without one only where there are not enough. -/
theorem taken_left {rest : List (Nat × α)} {cur : List α} (hle : ∀ x ∈ cur, h.countAt rest x ≤ 1) :
    ∀ x ys, (x, ys) ∈ cur.zip (h.taken rest cur) → ys = [] → h.countAt rest x < h.count cur x := by
  induction cur generalizing rest with
  | nil =>
      intro x ys hmem
      cases hmem
  | cons x xs ih =>
      obtain ⟨hx, hxs⟩ := List.forall_mem_cons.mp hle
      intro z ys hmem hnil
      rw [taken, List.zip_cons_cons] at hmem
      rcases List.mem_cons.mp hmem with heq | hmem
      · cases heq
        have hzero : h.countAt rest x = 0 := by
          rw [countAt, List.countP_eq_length_filter, hnil]
          rfl
        rw [hzero, count]
        exact List.countP_pos_iff.mpr ⟨x, List.mem_cons_self, by simp⟩
      · have hrest := ih (fun y hy => le_trans (countAt_filter_le rest x y) (hxs y hy)) z ys hmem hnil
        have hz : z ∈ xs := (List.of_mem_zip hmem).1
        rw [count, List.countP_cons] at *
        by_cases heq : h.key z = h.key x
        · rw [countAt_filter_self rest heq] at hrest
          have := hxs z hz
          simp only [heq, decide_true, if_true] at *
          omega
        · rw [countAt_filter_of_ne rest heq] at hrest
          omega

/-- The matching is one-to-one exactly if no key of the current items occurs twice in the last ones. -/
theorem taken_oneToOne_iff (last cur : List α) :
    h.OneToOne last cur (h.taken (indexed last) cur) ↔ ∀ x ∈ cur, h.count last x ≤ 1 := by
  have hcount : ∀ x, h.countAt (indexed last) x = h.count last x := by
    intro x
    rw [count, ← indexed_snd last, List.countP_map, indexed_snd]
    rfl
  simp only [← hcount]
  constructor
  · intro hone
    exact (taken_single_iff _ _).mp hone.single
  · intro hle
    refine ⟨(taken_single_iff _ _).mpr hle, taken_once cur (indexed_nodup last), ?_⟩
    intro x ys hmem hnil
    rw [← hcount]
    exact taken_left hle x ys hmem hnil

end VectorInitInfo.Keyed

section

variable {w : World α} {cur : Ptr} {c : SgVector α} {dest last : Option Ptr} {info : VectorInitInfo α}

/-- An empty vector over a target with items: the target is released, so it holds no difference. -/
theorem sgVectorComputeDiff_emptied (keyed : info.Keyed) (hw : w.Sound) (hc : w.store cur = some c)
    {lasts : List α} (hlast : w.ItemsOf info last lasts) (hother : ∀ l, last = some l → dest ≠ some l)
    (hempties : ¬ KeepsItems w c dest) {q : Ptr} {w' : World α}
    (hrun : sgVectorComputeDiff dest (some cur) last w = .ok ((.none, some q), w')) : w'.store q = none := by
  rw [KeepsItems] at hempties
  push Not at hempties
  obtain ⟨hc0, p, d, rfl, hd, hd0⟩ := hempties
  obtain ⟨w1, hclone, hand, -⟩ := sgVectorCloneInto_empty hw.fresh hd hc (hw.inBlock hd) hc0 hd0
  have hgone : w1.store p = none := hand.gone p rfl (by simp)
  rw [sgVectorComputeDiff, Prog.bind_of_ok hclone] at hrun
  cases last with
  | none =>
      cases hrun
      exact hgone
  | some l =>
      obtain ⟨lv, hl, hlinfo, -⟩ := hlast
      have hl1 : w1.store l = some lv := hand.live hw.fresh hl (hother l rfl)
      have hsub : subtractLast p (some l) w1 = .error .released := by
        rw [subtractLast, Prog.bind_of_ok (deref_run hl1), hlinfo, keyed.compareFn,
          keyed.computeDiffFn]
        exact Prog.bind_of_error (deref_released hgone) _
      simp only [ne_eq, not_true_eq_false, if_false] at hrun
      rw [Prog.bind_of_error hsub] at hrun
      cases hrun

/-- A target with less room than its record says: the first item is written outside its block. -/
theorem sgVectorComputeDiff_noRoom (hw : w.Sound) (hc : w.store cur = some c)
    (hready : TargetReady w c dest) (hroom : ¬ HasRoom w c dest) :
    sgVectorComputeDiff dest (some cur) last w = .error .outOfBlock := by
  rw [HasRoom] at hroom
  push Not at hroom
  obtain ⟨p, d, rfl, hd, hbad⟩ := hroom
  obtain ⟨d', hd', hfit⟩ := hready
  rw [hd] at hd'
  cases hd'
  exact sgVectorComputeDiff_outOfBlock hw hc hd hfit hbad last

/-- With keys repeated any number of times, the target gets the current items reduced by a one-to-one
matching exactly if no key of the current vector occurs twice in the last one, and the current vector
neither empties a target that has items nor overfills one whose block is empty. -/
theorem sgVectorComputeDiff_oneToOne_iff (keyed : info.Keyed) (hw : w.Sound) (hc : w.store cur = some c)
    (hcinfo : c.info = info) (hready : TargetReady w c dest) {lasts : List α}
    (hlast : w.ItemsOf info last lasts) (hcur : dest ≠ some cur)
    (hother : ∀ l, last = some l → dest ≠ some l) (hcurs : keyed.Named c.items)
    (hlasts : keyed.Named lasts) :
    (∃ q w' v, sgVectorComputeDiff dest (some cur) last w = .ok ((.none, some q), w') ∧
      w'.store q = some v ∧
      v.items = List.zipWith keyed.subtractAll c.items (keyed.taken (indexed lasts) c.items) ∧
      keyed.OneToOne lasts c.items (keyed.taken (indexed lasts) c.items)) ↔
    KeepsItems w c dest ∧ HasRoom w c dest ∧ ∀ x ∈ c.items, keyed.count lasts x ≤ 1 := by
  have hcopies : info.Copies := hcinfo ▸ (hw.backed cur c hc).full.copies
  constructor
  · rintro ⟨q, w', v, hrun, hq, -, hone⟩
    refine ⟨?_, ?_, (VectorInitInfo.Keyed.taken_oneToOne_iff lasts c.items).mp hone⟩
    · by_contra hempties
      rw [sgVectorComputeDiff_emptied keyed hw hc hlast hother hempties hrun] at hq
      cases hq
    · by_contra hroom
      rw [sgVectorComputeDiff_noRoom hw hc hready hroom] at hrun
      cases hrun
  · rintro ⟨hkeep, hroom, hle⟩
    have hindexed : keyed.Named ((indexed lasts).map Prod.snd) := by rwa [indexed_snd]
    have hout := VectorInitInfo.Keyed.subtract_eq_taken hindexed hcurs
    rw [indexed_snd] at hout
    obtain ⟨q, w', v, hrun, hq, hitems, -⟩ := sgVectorComputeDiff_subtract keyed hw.fresh hw.plenty
      (hw.copiesInside hroom) hc (hcinfo ▸ hcopies) hready hkeep hlast hcur hother hout
    exact ⟨q, w', v, hrun, hq, hitems, (VectorInitInfo.Keyed.taken_oneToOne_iff lasts c.items).mpr hle⟩

end

/-! ### Named totals -/

def totalInfo : VectorInitInfo (Nat × Nat) :=
  { itemSize := 16
    initFn := some fun _ => (0, 0)
    copyFn := some (keepSource fun s _ => return (.none, s))
    computeDiffFn := some fun last now => (now.1, now.2 - last.2)
    compareFn := some fun a b => some (decide (a.1 = b.1))
    destroyFn := none }

theorem totalInfo_full : totalInfo.Full := by
  refine ⟨by decide, rfl, _, rfl, ?_⟩
  intro s d t
  exact .inl ⟨t, rfl, rfl, id⟩

def totalKeyed : totalInfo.Keyed where
  Key := Nat
  key x := some x.1
  compare a b := some (decide (a.1 = b.1))
  computeDiff last now := (now.1, now.2 - last.2)
  compareFn := rfl
  computeDiffFn := rfl
  compare_eq := by
    intro a b k k' ha hb
    cases ha
    cases hb
    rfl
  key_computeDiff _ _ := rfl

def totalVector (items : List (Nat × Nat)) : SgVector (Nat × Nat) :=
  { usedCount := items.length, allocCount := 16, blockShift := 4, info := totalInfo, slots := 16
    cells := fun i => items.getD i (0, 0) }

/-- A world with a current vector at 0, a last one at 1, and an old difference of one item at 2. -/
def totalWorld (bounded : Bool) (cur last : List (Nat × Nat)) : World (Nat × Nat) :=
  { glob := .clear, mem := fun _ => true, next := 3, raw := fun _ _ => (0, 0), bounded := bounded
    inits := 0, destroys := 0, frees := fun _ => 0
    store := fun p =>
      if p = 0 then some (totalVector cur)
      else if p = 1 then some (totalVector last)
      else if p = 2 then some (totalVector [(7, 7)])
      else none }

theorem totalWorld_fresh (bounded : Bool) (cur last : List (Nat × Nat)) :
    (totalWorld bounded cur last).Fresh := by
  intro p hp
  have hle : 3 ≤ p := hp
  have h0 : p ≠ 0 := (lt_of_lt_of_le (by decide : 0 < 3) hle).ne'
  have h1 : p ≠ 1 := (lt_of_lt_of_le (by decide : 1 < 3) hle).ne'
  have h2 : p ≠ 2 := (lt_of_lt_of_le (by decide : 2 < 3) hle).ne'
  simp [totalWorld, h0, h1, h2]

theorem totalVector_backed {items : List (Nat × Nat)} (hlen : items.length ≤ 16) :
    (totalVector items).Backed := ⟨hlen, fun _ => le_rfl, totalInfo_full⟩

theorem totalWorld_sound {cur last : List (Nat × Nat)} (hcur : cur.length ≤ 16)
    (hlast : last.length ≤ 16) : (totalWorld true cur last).Sound := by
  refine ⟨totalWorld_fresh true cur last, fun _ => rfl, rfl, ?_⟩
  intro p v hv
  simp only [totalWorld] at hv
  split at hv
  · cases hv
    exact totalVector_backed hcur
  · split at hv
    · cases hv
      exact totalVector_backed hlast
    · split at hv
      · cases hv
        exact totalVector_backed (by decide)
      · cases hv

theorem totalVector_fits {n : Nat} (hn : n ≤ 16) : Fits n 4 totalInfo := by
  refine ⟨by decide, by decide, ?_⟩
  have hround := roundUp_le n 4
  simp only [vectorSize, totalInfo, sizeBound]
  omega

theorem totalVector_ready (bounded : Bool) (cur last : List (Nat × Nat)) (hlen : cur.length ≤ 16) :
    TargetReady (totalWorld bounded cur last) (totalVector cur) none := by
  have hmax : max (totalVector cur).allocCount (totalVector cur).usedCount = 16 := by
    simp [totalVector, hlen]
  show Fits _ 4 totalInfo
  rw [hmax]
  exact totalVector_fits le_rfl

theorem totalKeyed_named (items : List (Nat × Nat)) : totalKeyed.Named items := fun _ _ => rfl

/-- A disk that stays, one that comes and one that goes, in another order. -/
theorem sgVectorComputeDiff_totals :
    ∃ q w' v, sgVectorComputeDiff none (some 0) (some 1)
        (totalWorld false [(3, 9), (1, 10)] [(1, 3), (2, 4)]) = .ok ((.none, some q), w') ∧
      w'.store q = some v ∧ v.items = [(3, 9), (1, 7)] := by
  let w := totalWorld false [(3, 9), (1, 10)] [(1, 3), (2, 4)]
  have hcur : w.store 0 = some (totalVector [(3, 9), (1, 10)]) := rfl
  have hlast : w.ItemsOf totalInfo (some 1) [(1, 3), (2, 4)] := ⟨_, rfl, rfl, by decide⟩
  obtain ⟨q, w', v, hrun, hq, hitems, -⟩ := sgVectorComputeDiff_snapshots totalKeyed
    (totalWorld_fresh _ _ _) (fun _ => rfl) rfl hcur rfl totalInfo_full.copies (by decide)
    (totalVector_ready _ _ _ (by decide)) hlast nofun nofun ⟨totalKeyed_named _, by decide⟩
    ⟨totalKeyed_named _, by decide⟩
  exact ⟨q, w', v, hrun, hq, hitems.trans (by decide)⟩

/-- Two current totals under one name, and one last total under it: it is used once. The target is an old
difference. -/
theorem sgVectorComputeDiff_oneToOne_totals :
    ∃ q w' v, sgVectorComputeDiff (some 2) (some 0) (some 1)
        (totalWorld true [(1, 10), (1, 20)] [(1, 3)]) = .ok ((.none, some q), w') ∧
      w'.store q = some v ∧ v.items = [(1, 7), (1, 20)] := by
  let w := totalWorld true [(1, 10), (1, 20)] [(1, 3)]
  have hcur : w.store 0 = some (totalVector [(1, 10), (1, 20)]) := rfl
  have hlast : w.ItemsOf totalInfo (some 1) [(1, 3)] := ⟨_, rfl, rfl, by decide⟩
  have hready : TargetReady w (totalVector [(1, 10), (1, 20)]) (some 2) :=
    ⟨_, rfl, totalVector_fits (by decide)⟩
  have hroom : HasRoom w (totalVector [(1, 10), (1, 20)]) (some 2) := by
    intro p d hp hd hbad
    cases hp
    cases hd
    exact absurd hbad.1 (by decide)
  obtain ⟨q, w', v, hrun, hq, hitems, -⟩ := (sgVectorComputeDiff_oneToOne_iff totalKeyed
    (totalWorld_sound (by decide) (by decide)) hcur rfl hready hlast (by decide) (by decide)
    (totalKeyed_named _) (totalKeyed_named _)).mpr ⟨nofun, hroom, by decide⟩
  exact ⟨q, w', v, hrun, hq, hitems.trans (by decide)⟩

/-- Two last totals under one name: the one current total under it takes both. -/
theorem sgVectorComputeDiff_takes_two :
    (∃ q w' v, sgVectorComputeDiff none (some 0) (some 1)
        (totalWorld true [(1, 10)] [(1, 3), (1, 4)]) = .ok ((.none, some q), w') ∧
      w'.store q = some v ∧ v.items = [(1, 3)] ∧
      v.items = List.zipWith totalKeyed.subtractAll [(1, 10)]
        (totalKeyed.taken (indexed [(1, 3), (1, 4)]) [(1, 10)])) ∧
    totalKeyed.taken (indexed [(1, 3), (1, 4)]) [(1, 10)] = [[(0, (1, 3)), (1, (1, 4))]] ∧
    ¬ totalKeyed.OneToOne [(1, 3), (1, 4)] [(1, 10)]
      (totalKeyed.taken (indexed [(1, 3), (1, 4)]) [(1, 10)]) := by
  refine ⟨?_, by decide, ?_⟩
  · let w := totalWorld true [(1, 10)] [(1, 3), (1, 4)]
    have hsound : w.Sound := totalWorld_sound (by decide) (by decide)
    have hcur : w.store 0 = some (totalVector [(1, 10)]) := rfl
    have hlast : w.ItemsOf totalInfo (some 1) [(1, 3), (1, 4)] := ⟨_, rfl, rfl, by decide⟩
    have hout : subtract totalKeyed.compare totalKeyed.computeDiff [(1, 3), (1, 4)]
        (totalVector [(1, 10)]).items = some [(1, 3)] := by decide
    obtain ⟨q, w', v, hrun, hq, hitems, -⟩ := sgVectorComputeDiff_subtract totalKeyed hsound.fresh
      hsound.plenty (hsound.copiesInside (hasRoom_none w _)) hcur totalInfo_full.copies
      (totalVector_ready _ _ _ (by decide)) nofun hlast nofun nofun hout
    exact ⟨q, w', v, hrun, hq, hitems, hitems.trans (by decide)⟩
  · rw [VectorInitInfo.Keyed.taken_oneToOne_iff]
    decide

end Statgrab
