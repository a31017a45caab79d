import Statgrab.Lib.Search
import Statgrab.Lib.Text
import Statgrab.Stats.DiffRun

/-!
# Sorting what was handed out

A program may sort the items that an accessor has handed out, with `qsort` and one of the comparison functions of
the API. They lie in a vector of the library: that of the difference, or, where there was nothing to compare
with, the snapshot that the next difference is taken from. Every item is looked up by its name there, so a program
that sorts after every call is handed the same differences as one that does not.
-/

namespace Statgrab

variable {α : Type}

/-! ### The comparison functions -/

/-- `strcmp(a, b)`, which follows a name that is NULL. -/
def strcmpPtr (a b : Option CString) : Option Ordering := a.bind fun a => b.map fun b => Text.strcmp a b

/-- A comparison function for `qsort`: it has no answer where it follows NULL, and its answers are those of an
order. -/
structure Comparison (α : Type) where
  fn : α → α → Option Ordering
  order : α → α → Ordering
  transCmp : Std.TransCmp order
  agrees : ∀ {a b o}, fn a b = some o → order a b = o

def Comparison.byName (name : α → Option CString) : Comparison α where
  fn a b := strcmpPtr (name a) (name b)
  order a b := Text.strcmp ((name a).getD []) ((name b).getD [])
  transCmp :=
    { eq_swap := Std.OrientedCmp.eq_swap
      isLE_trans := Std.TransCmp.isLE_trans }
  agrees := by
    intro a b o h
    obtain ⟨x, hx, h⟩ := Option.bind_eq_some_iff.mp h
    obtain ⟨y, hy, rfl⟩ := Option.map_eq_some_iff.mp h
    rw [hx, hy]
    rfl

def sgDiskIoCompareName : Comparison DiskIoStats := .byName DiskIoStats.diskName

def DiskIoStats.total (s : DiskIoStats) : UInt64 := s.readBytes + s.writeBytes

/-- `sg_disk_io_compare_traffic`: the disk with the most traffic comes first. -/
def sgDiskIoCompareTraffic : Comparison DiskIoStats where
  fn a b := some (if a.total = b.total then .eq else if a.total > b.total then .lt else .gt)
  order a b := compare b.total.toNat a.total.toNat
  transCmp :=
    { eq_swap := Std.OrientedCmp.eq_swap
      isLE_trans := fun hab hbc => Std.TransCmp.isLE_trans hbc hab }
  agrees := by
    intro a b o h
    cases h
    split
    · next heq => rw [heq, compare_eq_iff_eq]
    · next hne =>
        split
        · next hgt => exact compare_lt_iff_lt.mpr (UInt64.lt_iff_toNat_lt.mp hgt)
        · next hle =>
            rw [compare_gt_iff_gt]
            have hle' : ¬ b.total.toNat < a.total.toNat := fun h => hle (UInt64.lt_iff_toNat_lt.mpr h)
            have hne' : a.total.toNat ≠ b.total.toNat := fun h => hne (UInt64.toNat_inj.mp h)
            omega

def sgNetworkIoCompareName : Comparison NetworkIoStats := .byName NetworkIoStats.interfaceName

def sgFsCompareDeviceName : Comparison FsStats := .byName FsStats.deviceName

def sgFsCompareMntPoint : Comparison FsStats := .byName FsStats.mntPoint

def DiffFn.comparisons : (f : DiffFn) → List (Comparison f.stat.Item)
  | .diskIo => [sgDiskIoCompareName, sgDiskIoCompareTraffic]
  | .networkIo => [sgNetworkIoCompareName]
  | .fs => [sgFsCompareDeviceName, sgFsCompareMntPoint]

def Comparison.Ordered (c : Comparison α) (items : List α) : Prop :=
  items.Pairwise fun a b => c.fn a b = some .lt ∨ c.fn a b = some .eq

/-- `qsort(result, entries, sizeof(*result), compare)`. Which of the items are compared with each other is
open, so an item that cannot be compared ends the program. -/
def qsortHanded (qsort : (α → α → Ordering) → List α → List α) (c : Comparison α) (result : Access) :
    VecM α Unit :=
  match result.data with
  | none => return ()
  | some p => do
      let v ← deref p
      touch v result.entries
      let items := v.slice 0 result.entries
      if items.Pairwise fun a b => (c.fn a b).isSome = true then
        Prog.modify fun w => w.put p (v.filled 0 (qsort c.order items))
      else Prog.fault .nullPointer

namespace DiffStat

variable (s : DiffStat)

def sortedCalls (qsort : (s.Item → s.Item → Ordering) → List s.Item → List s.Item) :
    List (s.Reading × Comparison s.Item) → Option Ptr → Option Ptr →
      VecM s.Item (List (Observed s.Item × List s.Item))
  | [], _, _ => return []
  | (r, c) :: rest, now, diff => do
      let (result, now, diff) ← multiCompDiff s.info (s.fnInt r.input) now diff
      let seen ← observe result
      qsortHanded qsort c result
      let sorted ← observe result
      let later ← sortedCalls qsort rest now diff
      return (seen, sorted.items) :: later

/-- One getter call followed by diff calls, with a sort behind each of them. -/
def getThenSortedDiffs (qsort : (s.Item → s.Item → Ordering) → List s.Item → List s.Item)
    (first : s.Reading × Comparison s.Item) (rest : List (s.Reading × Comparison s.Item)) :
    VecM s.Item (List (Observed s.Item × List s.Item)) := do
  let (result, now) ← multiCompAccess s.info (s.fnInt first.1.input) none
  let seen ← observe result
  qsortHanded qsort first.2 result
  let sorted ← observe result
  let later ← s.sortedCalls qsort rest now none
  return (seen, sorted.items) :: later

end DiffStat

/-! ### A sort -/

section

variable {info : VectorInitInfo α} {w w' : World α} {c : Comparison α} {result : Access}
  {qsort : (α → α → Ordering) → List α → List α} {p : Ptr} {v : SgVector α}

theorem qsortHanded_run (hdata : result.data = some p) (hv : w.store p = some v)
    (hentries : result.entries = v.usedCount) (hin : w.InBlock v v.usedCount)
    (hc : v.items.Pairwise fun a b => (c.fn a b).isSome = true) :
    qsortHanded qsort c result w = .ok ((), w.put p (v.filled 0 (qsort c.order v.items))) := by
  unfold qsortHanded
  rw [hdata]
  simp only
  rw [Prog.bind_of_ok (deref_run hv), hentries, Prog.bind_of_ok (touch_run hin), slice_items, if_pos hc]
  rfl

theorem Comparison.ordered_qsort (hsort : Search.Sorts qsort) {items : List α}
    (hc : ∀ a ∈ items, ∀ b ∈ items, (c.fn a b).isSome = true) : c.Ordered (qsort c.order items) := by
  have := c.transCmp
  have hperm := hsort.perm c.order items
  apply (hsort.sorted c.order items).imp_of_mem
  intro a b ha hb hle
  obtain ⟨o, ho⟩ := Option.isSome_iff_exists.mp (hc a (hperm.mem_iff.mp ha) b (hperm.mem_iff.mp hb))
  rw [c.agrees ho] at hle
  rw [ho]
  cases o with
  | lt => exact .inl rfl
  | eq => exact .inr rfl
  | gt => cases hle

/-- What a diff call returns lies in one of the two vectors. -/
theorem multiCompDiff_data (fnInt : FillFn α) (now diff : Option Ptr) :
    (multiCompDiff info fnInt now diff).Returns fun r => r.1.data = none ∨ r.1.data = r.2.1 ∨ r.1.data = r.2.2 := by
  have hsucceed : ∀ (x : Option Ptr) (read : Option SgError), (succeed x read : VecM α Access).Returns
      fun result => result.data = x := by
    intro x read
    refine .bind (.any _) fun _ _ => .bind (.any _) fun _ _ => .pure rfl
  have haccess : ∀ x, (multiCompAccess info fnInt x).Returns fun r => r.1.data = none ∨ r.1.data = r.2 := by
    intro x
    refine .bind (.any _) fun target _ => ?_
    cases target with
    | none => exact .pure (.inl rfl)
    | some p =>
        refine .bind (.any _) fun r _ => .ite (.bind (hsucceed _ _) fun result hdata => .pure (.inr hdata)) ?_
        exact .pure (.inl rfl)
  cases now with
  | none =>
      refine .bind (haccess none) fun r hr => .pure ?_
      exact hr.imp_right .inl
  | some n =>
      refine .bind (.any _) fun diff _ => ?_
      cases diff with
      | none => exact .pure (.inl rfl)
      | some d =>
          refine .bind (.any _) fun last _ => ?_
          cases last with
          | none => exact .pure (.inl rfl)
          | some l =>
              refine .bind (.any _) fun r _ => .bind (.any _) fun r' _ => .bind (.any _) fun _ _ => ?_
              exact .ite (.bind (hsucceed _ _) fun result hdata => .pure (.inr (.inr hdata))) (.pure (.inl rfl))

theorem observe_eq {seen : Observed α} (h : observe result w = .ok (seen, w')) :
    result.entries = seen.entries ∧ match result.data with
      | none => seen.items = []
      | some p => ∃ v, w.store p = some v ∧ v.items = seen.items := by
  rw [observe, Prog.bind_of_ok (onThread_run (sgGetError_run _))] at h
  cases hdata : result.data with
  | none =>
      rw [hdata] at h
      cases h
      exact ⟨rfl, rfl⟩
  | some p =>
      rw [hdata] at h
      obtain ⟨v, w1, hderef, h⟩ := Prog.bind_eq_ok.mp h
      cases h
      exact ⟨rfl, v, (deref_eq_ok hderef).1, rfl⟩

theorem World.Sound.put (h : w.Sound) (hv : w.store p = some v) {v' : SgVector α} (hv' : v'.Backed) :
    (w.put p v').Sound := by
  refine ⟨?_, h.plenty, h.bounded, ?_⟩
  · intro q hq
    have hne : q ≠ p := Nat.ne_of_gt (Nat.lt_of_lt_of_le (h.fresh.lt hv) hq)
    rw [put_store, Function.update_of_ne hne]
    exact h.fresh q hq
  · intro q u hu
    rw [put_store] at hu
    by_cases hq : q = p
    · subst hq
      rw [Function.update_self] at hu
      cases hu
      exact hv'
    · rw [Function.update_of_ne hq] at hu
      exact h.backed q u hu

theorem VectorInitInfo.Keyed.Snapshot.perm {keyed : info.Keyed} {items items' : List α}
    (h : keyed.Snapshot items) (hperm : items'.Perm items) : keyed.Snapshot items' := by
  refine ⟨fun x hx => h.named x (hperm.mem_iff.mp hx), ?_⟩
  exact (hperm.map keyed.key).nodup_iff.mpr h.distinct

theorem VectorInitInfo.Keyed.Snapshot.find_iff {keyed : info.Keyed} {items : List α} (h : keyed.Snapshot items)
    {x y : α} : (items.find? fun z => keyed.key z = keyed.key x) = some y ↔ y ∈ items ∧ keyed.key y = keyed.key x := by
  constructor
  · intro hfind
    exact ⟨List.mem_of_find?_eq_some hfind, by simpa using List.find?_some hfind⟩
  · rintro ⟨hy, hkey⟩
    cases hfind : items.find? fun z => keyed.key z = keyed.key x with
    | none => exact absurd hkey (by simpa using List.find?_eq_none.mp hfind y hy)
    | some z =>
        have hz : keyed.key z = keyed.key x := by simpa using List.find?_some hfind
        rw [List.inj_on_of_nodup_map h.distinct (List.mem_of_find?_eq_some hfind) hy (hz.trans hkey.symm)]

theorem VectorInitInfo.Keyed.Snapshot.reduce_perm {keyed : info.Keyed} {last last' : List α}
    (h : keyed.Snapshot last) (hperm : last'.Perm last) : keyed.reduce last' = keyed.reduce last := by
  funext x
  have hfind : (last'.find? fun y => keyed.key y = keyed.key x) = last.find? fun y => keyed.key y = keyed.key x := by
    ext y
    rw [(h.perm hperm).find_iff, h.find_iff, hperm.mem_iff]
  rw [reduce, hfind, ← reduce]

theorem VectorInitInfo.Keyed.key_reduce (keyed : info.Keyed) (last : List α) (x : α) :
    keyed.key (keyed.reduce last x) = keyed.key x := by
  unfold VectorInitInfo.Keyed.reduce
  split
  · exact keyed.key_computeDiff _ _
  · rfl

end

/-! ### A sorted baseline -/

namespace DiffStat

variable {s : DiffStat}

def storeItem (x : α) : ItemFn α := fun _ => return (.none, x)

theorem storeItem_granted (x : α) : GrantedFill (storeItem x) 0 fun y => y = x :=
  fun _ t _ => ⟨x, t, rfl, rfl, (Supply.after_zero t.mem).symm⟩

theorem storeItem_lawful (x : α) : LawfulFill (storeItem x) fun y => y = x :=
  fun _ t => ⟨.none, x, t, rfl, fun h => absurd rfl h, fun ht => ⟨rfl, rfl, ht⟩⟩

/-- The statistic with one more source, of items that are stored as they are. To a snapshot that was put into
another order it is as if it had been read there. -/
abbrev anySource (s : DiffStat) : DiffStat where
  Item := s.Item
  Input := s.Input ⊕ List s.Item
  info := s.info
  keyed := s.keyed
  fnInt
    | .inl input => s.fnInt input
    | .inr items => fillItems s.info storeItem items 0
  drops := s.drops
  entries
    | .inl input => s.entries input
    | .inr items => items.length
  snapshot
    | .inl input => s.snapshot input
    | .inr items => if items.isEmpty then none else some items
  strings := s.strings
  requests
    | .inl input => s.requests input
    | .inr items => loopRequests (fun _ => 0) items
  regular := s.regular
  copiesFor := s.copiesFor
  reads
    | .inl input => s.reads input
    | .inr items => fun hsize => fillItems_reads s.regular storeItem_lawful hsize
  readsGranted
    | .inl input => s.readsGranted input
    | .inr items => by
        intro items' hsize hitems w p hw hp hgrants
        cases hempty : items.isEmpty with
        | true =>
            simp only [hempty, if_true] at hitems
            cases hitems
        | false =>
            simp only [hempty] at hitems
            cases hitems
            obtain ⟨x, w', hrun, hrefill, hnull, hmem⟩ :=
              fillItems_readsGranted s.regular storeItem_granted hsize w p hw hp hgrants
            rw [List.map_id'] at hrefill
            refine ⟨x, w', hrun, hrefill, ?_, hmem⟩
            rw [hnull]
            constructor
            · rintro ⟨hfalse, -⟩
              cases hfalse
            · rintro ⟨-, rfl⟩
              cases hempty

def Reading.lift (r : s.Reading) : s.anySource.Reading := ⟨.inl r.input, r.items, r.read, r.bound, r.snapshot⟩

def Reading.reordered (r : s.anySource.Reading) {items : List s.Item} (hperm : items.Perm r.items)
    (hne : items ≠ []) (hsize : items.length ≤ itemLimit) : s.anySource.Reading where
  input := .inr items
  items := items
  read := if_neg (by rwa [List.isEmpty_iff])
  bound := hsize
  snapshot := r.snapshot.perm hperm

/-- The readings have the same items, in whatever order. -/
def SameItems (r' : s.anySource.Reading) (r : s.Reading) : Prop := r'.items.Perm r.items

theorem SameItems.nil_iff {r' : s.anySource.Reading} {r : s.Reading} (h : SameItems r' r) :
    r'.items = [] ↔ r.items = [] := by
  rw [← List.length_eq_zero_iff, ← List.length_eq_zero_iff, List.Perm.length_eq h]

theorem deliverable_sameItems {prev' : s.anySource.Reading} {prev : s.Reading}
    {before' : List s.anySource.Reading} {before : List s.Reading} (hprev : SameItems prev' prev)
    (hbefore : List.Forall₂ SameItems before' before) (cur : s.Reading) :
    s.anySource.Deliverable prev' before' cur.lift ↔ s.Deliverable prev before cur := by
  have hempty : before' = [] ↔ before = [] := by
    rw [← List.length_eq_zero_iff, ← List.length_eq_zero_iff, hbefore.length_eq]
  have hsome : ∀ {rs' : List s.anySource.Reading} {rs : List s.Reading}, List.Forall₂ SameItems rs' rs →
      ((∃ r ∈ rs', r.items ≠ []) ↔ ∃ r ∈ rs, r.items ≠ []) := by
    intro rs' rs hrs
    induction hrs with
    | nil => simp
    | cons hr _ ih => simp only [List.mem_cons, exists_eq_or_imp, ih, ne_eq, hr.nil_iff]
  show (cur.items = [] → prev'.items = [] ∨ (s.drops = false ∧ before' = [])) ∧
    (s.drops = false → cur.items.length = 1 → ∃ r ∈ prev' :: before', r.items ≠ []) ↔ _
  rw [hprev.nil_iff, hempty, hsome (.cons hprev hbefore)]
  rfl

theorem holds_put_of_ne {info : VectorInitInfo α} {w : World α} {x : Option Ptr} {items : List α} {q : Ptr}
    (h : w.Holds info x items) (hx : x ≠ some q) (v : SgVector α) : (w.put q v).Holds info x items := by
  cases x with
  | none => exact h
  | some p =>
      obtain ⟨u, hu, hrest⟩ := h
      refine ⟨u, ?_, hrest⟩
      rw [put_store, Function.update_of_ne (fun hp => hx (congrArg some hp)), hu]

section

variable {w : World s.Item} {now diff : Option Ptr} {cur : s.anySource.Reading}
  {before : List s.anySource.Reading} {q : Ptr} {v : SgVector s.Item} {items : List s.Item}

theorem Follows.reorder_now (h : Follows s.anySource w (some q) diff cur before) (hv : w.store q = some v)
    (hperm : items.Perm v.items) (hne : items ≠ []) :
    ∃ cur' : s.anySource.Reading, cur'.items.Perm cur.items ∧
      Follows s.anySource (w.put q (v.filled 0 items)) (some q) diff cur' before := by
  obtain ⟨u, hu, hcached, hslots, hitems⟩ := h.holds
  obtain rfl : v = u := Option.some.inj (hv.symm.trans hu)
  have hlen : items.length = v.usedCount := by rw [hperm.length_eq, items_length]
  have hcur : items.Perm cur.items := hitems ▸ hperm
  have hnil : items = [] ↔ cur.items = [] := by
    rw [← List.length_eq_zero_iff, ← List.length_eq_zero_iff, hcur.length_eq]
  have hkept : ∀ d, diff = some d → (w.put q (v.filled 0 items)).store d = w.store d := by
    intro d hd
    have hdq : d ≠ q := fun hcon => h.cache.apart q rfl (hcon ▸ hd)
    rw [put_store, Function.update_of_ne hdq]
  have hholds : (w.put q (v.filled 0 items)).Holds s.info (some q) items :=
    ⟨_, Function.update_self _ _ _, hcached.filled items, by rwa [filled_slots], filled_items v hlen⟩
  refine ⟨cur.reordered hcur hne (hlen ▸ hcached.used), hcur, ?_, hholds, ?_, h.untouched, ?_, ?_⟩
  · refine ⟨h.cache.sound.put hv (hcached.filled items).backed, ⟨items, hholds⟩, ?_, h.cache.apart⟩
    intro d hd
    rw [hkept d hd]
    exact h.cache.live d hd
  · refine iff_of_false (Option.some_ne_none q) ?_
    exact fun hdrops => hne hdrops.2
  · intro d u hd hu hdrops
    rw [hkept d hd] at hu
    obtain ⟨hbefore, hused⟩ := h.used d u hd hu hdrops
    exact ⟨hbefore, hused.trans hcur.length_eq.symm⟩
  · intro d u hd hu
    rw [hkept d hd] at hu
    rw [h.room d u hd hu, List.forall_mem_cons, List.forall_mem_cons, ← hnil]
    rfl

theorem Follows.reorder_diff (h : Follows s.anySource w now (some q) cur before) (hv : w.store q = some v) :
    Follows s.anySource (w.put q (v.filled 0 items)) now (some q) cur before := by
  obtain ⟨u, hu, hcached⟩ := h.cache.live q rfl
  obtain rfl : v = u := Option.some.inj (hv.symm.trans hu)
  have hnow : now ≠ some q := fun hcon => h.cache.apart q hcon rfl
  have hholds := holds_put_of_ne h.holds hnow (v.filled 0 items)
  have hstore : (w.put q (v.filled 0 items)).store q = some (v.filled 0 items) := Function.update_self _ _ _
  refine ⟨?_, hholds, h.null, nofun, ?_, ?_⟩
  · refine ⟨h.cache.sound.put hv (hcached.filled items).backed, ⟨_, hholds⟩, ?_, h.cache.apart⟩
    intro d hd
    cases hd
    exact ⟨_, hstore, hcached.filled items⟩
  · intro d u hd hu hdrops
    cases hd
    rw [hstore] at hu
    cases hu
    rw [filled_usedCount]
    exact h.used q v rfl hv hdrops
  · intro d u hd hu
    cases hd
    rw [hstore] at hu
    cases hu
    rw [filled_slots]
    exact h.room q v rfl hv

/-- What a thread keeps after the items of one of its vectors were put into another order. -/
theorem Follows.reorder (h : Follows s.anySource w now diff cur before) (hq : now = some q ∨ diff = some q)
    (hv : w.store q = some v) (hperm : items.Perm v.items) :
    ∃ cur' : s.anySource.Reading, cur'.items.Perm cur.items ∧
      Follows s.anySource (w.put q (v.filled 0 items)) now diff cur' before := by
  by_cases hne : items = []
  · subst hne
    rw [SgVector.filled, put_self hv]
    exact ⟨cur, .refl _, h⟩
  · rcases hq with rfl | rfl
    · exact h.reorder_now hv hperm hne
    · exact ⟨cur, .refl _, h.reorder_diff hv⟩

end

/-! ### A run -/

/-- The comparison has an answer for items with a key. -/
def Compares (s : DiffStat) (c : Comparison s.Item) : Prop :=
  ∀ a b, (s.keyed.key a).isSome = true → (s.keyed.key b).isSome = true → (c.fn a b).isSome = true

/-- What was handed out is in order after the sort. -/
structure InOrder (c : Comparison α) (seen : Observed α) (items : List α) : Prop where
  perm : items.Perm seen.items
  ordered : c.Ordered items

section

variable {qsort : (s.Item → s.Item → Ordering) → List s.Item → List s.Item} {w : World s.Item}
  {now diff : Option Ptr} {c : Comparison s.Item}

theorem Follows.sort (hsort : Search.Sorts qsort) (hc : s.Compares c) {cur : s.anySource.Reading}
    {before : List s.anySource.Reading} (h : Follows s.anySource w now diff cur before) {result : Access}
    (hdata : result.data = none ∨ result.data = now ∨ result.data = diff) {items : List s.Item}
    (hseen : observe result w = .ok (⟨.none, items.length, items⟩, w)) (hnamed : s.keyed.Named items) :
    ∃ sorted cur' w', qsortHanded qsort c result w = .ok ((), w') ∧
      observe result w' = .ok (⟨.none, items.length, sorted⟩, w') ∧
      InOrder c ⟨.none, items.length, items⟩ sorted ∧ cur'.items.Perm cur.items ∧
      Follows s.anySource w' now diff cur' before := by
  obtain ⟨hentries, hitems⟩ := observe_eq hseen
  cases hres : result.data with
  | none =>
      rw [hres] at hitems
      obtain rfl : items = [] := hitems
      refine ⟨[], cur, w, ?_, hseen, ⟨.refl _, .nil⟩, .refl _, h⟩
      rw [qsortHanded, hres]
      rfl
  | some q =>
      rw [hres] at hitems hdata
      obtain ⟨v, hv, rfl⟩ := hitems
      have hplace : now = some q ∨ diff = some q := by
        rcases hdata with hnone | hnow | hdiff
        · cases hnone
        · exact .inl hnow.symm
        · exact .inr hdiff.symm
      have hperm := hsort.perm c.order v.items
      have hpair : ∀ a ∈ v.items, ∀ b ∈ v.items, (c.fn a b).isSome = true :=
        fun a ha b hb => hc a b (hnamed a ha) (hnamed b hb)
      have hin : w.InBlock v v.usedCount := h.cache.sound.tidy.inBlock hv
      have hused : result.entries = v.usedCount := hentries.trans (items_length v)
      have hlen : (qsort c.order v.items).length = v.usedCount := by rw [hperm.length_eq, items_length]
      obtain ⟨cur', hcur, hfollows⟩ := h.reorder hplace hv hperm
      refine ⟨_, cur', _, qsortHanded_run hres hv hused hin (List.pairwise_of_forall_mem_list hpair), ?_,
        ⟨hperm, Comparison.ordered_qsort hsort hpair⟩, hcur, hfollows⟩
      have herr : w.error = .none := by
        have hrun := observe_some hres hv
        rw [hseen] at hrun
        exact (congrArg Observed.error (Prod.mk.inj (Except.ok.inj hrun)).1).symm
      rw [observe_some hres (Function.update_self _ _ _), filled_items v hlen, hused, items_length]
      show Except.ok (Observed.mk w.error _ _, _) = _
      rw [herr]

theorem named_reduce (last : List s.Item) (cur : s.Reading) :
    s.keyed.Named (cur.items.map (s.keyed.reduce last)) := by
  intro x hx
  obtain ⟨y, hy, rfl⟩ := List.mem_map.mp hx
  rw [s.keyed.key_reduce]
  exact cur.snapshot.named y hy

theorem Follows.sorted_run (hsort : Search.Sorts qsort) {prev' : s.anySource.Reading}
    {before' : List s.anySource.Reading} (h : Follows s.anySource w now diff prev' before') {prev : s.Reading}
    {before : List s.Reading} (hprev : SameItems prev' prev) (hbefore : List.Forall₂ SameItems before' before)
    (rest : List (s.Reading × Comparison s.Item)) (hrest : ∀ call ∈ rest, s.Compares call.2) :
    (∃ shown w', s.sortedCalls qsort rest now diff w = .ok (shown, w') ∧
      shown.map Prod.fst = s.documented prev (rest.map Prod.fst) ∧
      List.Forall₂ (fun call x => InOrder call.2 x.1 x.2) rest shown) ↔
      s.AllDeliverable prev before (rest.map Prod.fst) := by
  induction rest generalizing w now diff prev' before' prev before with
  | nil => exact ⟨fun _ => trivial, fun _ => ⟨[], w, rfl, rfl, .nil⟩⟩
  | cons call rest ih =>
      obtain ⟨cur, c⟩ := call
      have hreduce := prev.snapshot.reduce_perm hprev
      rw [List.map_cons, AllDeliverable, ← deliverable_sameItems hprev hbefore]
      rcases h.step cur.lift with ⟨hdel, now', diff', w1, ⟨result, hrun, hseen⟩, hfollows⟩ | ⟨hdel, hdoc⟩
      · have hseen' : observe result w1 = .ok (⟨.none, (cur.items.map (s.keyed.reduce prev.items)).length,
            cur.items.map (s.keyed.reduce prev.items)⟩, w1) := by
          rw [List.length_map, ← hreduce]
          exact hseen
        obtain ⟨sorted, cur', w2, hqsort, hsorted, horder, hcur, hfollows'⟩ := hfollows.sort hsort
          (hrest _ List.mem_cons_self) (multiCompDiff_data _ _ _ _ _ _ hrun) hseen' (named_reduce _ cur)
        have hcalls : s.sortedCalls qsort ((cur, c) :: rest) now diff w
            = (s.sortedCalls qsort rest now' diff' >>= fun later => pure
                ((⟨.none, cur.items.length, cur.items.map (s.keyed.reduce prev.items)⟩, sorted) :: later)) w2 := by
          have hrun' : multiCompDiff s.info (s.fnInt cur.input) now diff w = .ok ((result, now', diff'), w1) := hrun
          rw [sortedCalls, Prog.bind_of_ok hrun']
          simp only
          rw [Prog.bind_of_ok hseen', Prog.bind_of_ok hqsort, Prog.bind_of_ok hsorted, List.length_map]
        have hnext := ih hfollows' hcur (.cons hprev hbefore) fun call hcall => hrest call (List.mem_cons_of_mem _ hcall)
        rw [← hnext, hcalls]
        constructor
        · rintro ⟨shown, w', hall, hdoc, hin⟩
          obtain ⟨later, w3, hlater, hall⟩ := Prog.bind_eq_ok.mp hall
          cases hall
          rw [documented, List.map_cons] at hdoc
          cases hin with
          | cons _ hin => exact ⟨hdel, later, w', hlater, (List.cons.inj hdoc).2, hin⟩
        · rintro ⟨-, later, w', hlater, hdoc, hin⟩
          refine ⟨_, w', Prog.bind_of_ok hlater _, ?_, .cons ?_ hin⟩
          · rw [documented, List.map_cons, hdoc]
          · rw [List.length_map] at horder
            exact horder
      · refine ⟨?_, fun hcon => absurd hcon.1 hdel⟩
        rintro ⟨shown, w', hall, hshown, -⟩
        rw [sortedCalls] at hall
        obtain ⟨⟨result, now', diff'⟩, w1, hrun, hall⟩ := Prog.bind_eq_ok.mp hall
        obtain ⟨seen, w2, hseen, hall⟩ := Prog.bind_eq_ok.mp hall
        obtain ⟨u, w3, -, hall⟩ := Prog.bind_eq_ok.mp hall
        obtain ⟨sorted, w4, -, hall⟩ := Prog.bind_eq_ok.mp hall
        obtain ⟨later, w5, -, hall⟩ := Prog.bind_eq_ok.mp hall
        cases hall
        rw [documented, List.map_cons] at hshown
        obtain rfl := (List.cons.inj hshown).1
        obtain rfl := observe_world hseen
        refine absurd ⟨result, hrun, ?_⟩ (hdoc now' diff' w2)
        rw [← hreduce] at hseen
        exact hseen

def Reading.shown (r : s.Reading) : Observed s.Item := ⟨.none, r.items.length, r.items⟩

theorem getThenSortedDiffs_run (hsort : Search.Sorts qsort) (hw : w.Sound) (first : s.Reading × Comparison s.Item)
    (rest : List (s.Reading × Comparison s.Item)) (hall : ∀ call ∈ first :: rest, s.Compares call.2) :
    (∃ shown w', s.getThenSortedDiffs qsort first rest w = .ok (shown, w') ∧
      shown.map Prod.fst = first.1.shown :: s.documented first.1 (rest.map Prod.fst) ∧
      List.Forall₂ (fun call x => InOrder call.2 x.1 x.2) (first :: rest) shown) ↔
      s.AllDeliverable first.1 [] (rest.map Prod.fst) := by
  obtain ⟨result, now, w1, hrun, hfollows⟩ := follows_first (s := s.anySource) hw first.1.lift
  have hrun' : multiCompAccess s.info (s.fnInt first.1.input) none w = .ok ((result, now), w1) := hrun
  have hnone : ∃ items, w.Holds s.info none items := ⟨[], w.holds_none _⟩
  obtain ⟨rc, x, items, w', hread, hgot, hrefill, -⟩ :=
    multiCompAccess_run s.regular (s.reads first.1.input first.1.bound) hw hnone
  obtain ⟨rfl, hholds, -⟩ := multiRead_all s.regular (s.readsAll _ _ first.1.bound first.1.read) hw hnone hread
  obtain rfl := hrefill.holds.unique hholds
  rw [hrun', if_pos rfl] at hgot
  cases hgot
  have hdata : w'.cleared.Holds s.info (gotten .none now first.1.items).data first.1.items := hholds.cleared
  have hseen : observe (gotten .none now first.1.items) w'.cleared = .ok (first.1.shown, w'.cleared) :=
    observe_holds hdata
  obtain ⟨sorted, cur', w2, hqsort, hsorted, horder, hcur, hfollows'⟩ := hfollows.sort hsort
    (hall first List.mem_cons_self) (.inr (.inl rfl)) hseen first.1.snapshot.named
  have hcalls : s.getThenSortedDiffs qsort first rest w
      = (s.sortedCalls qsort rest now none >>= fun later => pure ((first.1.shown, sorted) :: later)) w2 := by
    rw [getThenSortedDiffs, Prog.bind_of_ok hrun']
    simp only
    rw [Prog.bind_of_ok hseen, Prog.bind_of_ok hqsort, Prog.bind_of_ok hsorted]
  rw [← hfollows'.sorted_run hsort hcur .nil rest fun call hcall => hall call (List.mem_cons_of_mem _ hcall), hcalls]
  constructor
  · rintro ⟨shown, w', hrun, hdoc, hin⟩
    obtain ⟨later, w3, hlater, hrun⟩ := Prog.bind_eq_ok.mp hrun
    cases hrun
    cases hin with
    | cons _ hin => exact ⟨later, w', hlater, (List.cons.inj hdoc).2, hin⟩
  · rintro ⟨later, w', hlater, hdoc, hin⟩
    refine ⟨_, w', Prog.bind_of_ok hlater _, ?_, .cons horder hin⟩
    rw [List.map_cons, hdoc]

end

end DiffStat

/-! ### The comparison functions of the API -/

theorem strcmpPtr_isSome {a b : Option CString} (ha : a.isSome = true) (hb : b.isSome = true) :
    (strcmpPtr a b).isSome = true := by
  obtain ⟨x, rfl⟩ := Option.isSome_iff_exists.mp ha
  obtain ⟨y, rfl⟩ := Option.isSome_iff_exists.mp hb
  rfl

theorem DiffFn.compares (f : DiffFn) {c : Comparison f.stat.Item} (hc : c ∈ f.comparisons) :
    f.stat.Compares c := by
  intro a b ha hb
  cases f with
  | diskIo =>
      rcases List.mem_cons.mp hc with rfl | hc
      · exact strcmpPtr_isSome (Option.isSome_map.symm.trans ha) (Option.isSome_map.symm.trans hb)
      · obtain rfl := List.mem_singleton.mp hc
        rfl
  | networkIo =>
      obtain rfl := List.mem_singleton.mp hc
      exact strcmpPtr_isSome (Option.isSome_map.symm.trans ha) (Option.isSome_map.symm.trans hb)
  | fs =>
      obtain ⟨k, hk⟩ := Option.isSome_iff_exists.mp ha
      obtain ⟨l, hl⟩ := Option.isSome_iff_exists.mp hb
      obtain ⟨n, -, m, -, hn, -, hm, -⟩ := FsStats.key_eq_some hk
      obtain ⟨n', -, m', -, hn', -, hm', -⟩ := FsStats.key_eq_some hl
      rcases List.mem_cons.mp hc with rfl | hc
      · exact strcmpPtr_isSome (by rw [hn]; rfl) (by rw [hn']; rfl)
      · obtain rfl := List.mem_singleton.mp hc
        exact strcmpPtr_isSome (by rw [hm]; rfl) (by rw [hm']; rfl)

/-- A program that sorts what it was handed after every call is handed the documented differences in the same
runs as one that does not, and has the items of every call in order after its sort. -/
theorem DiffFn.getThenSortedDiffs_documented_iff (f : DiffFn)
    {qsort : (f.stat.Item → f.stat.Item → Ordering) → List f.stat.Item → List f.stat.Item}
    (hsort : Search.Sorts qsort) {w : World f.stat.Item} (hw : w.Sound)
    (first : f.stat.Reading × Comparison f.stat.Item) (rest : List (f.stat.Reading × Comparison f.stat.Item))
    (hall : ∀ call ∈ first :: rest, call.2 ∈ f.comparisons) :
    (∃ shown w', f.stat.getThenSortedDiffs qsort first rest w = .ok (shown, w') ∧
      shown.map Prod.fst = first.1.shown :: f.stat.documented first.1 (rest.map Prod.fst) ∧
      List.Forall₂ (fun call x => DiffStat.InOrder call.2 x.1 x.2) (first :: rest) shown) ↔
      f.stat.AllDeliverable first.1 [] (rest.map Prod.fst) :=
  DiffStat.getThenSortedDiffs_run hsort hw first rest fun call hcall => f.compares (hall call hcall)

/-- Two disks, with the one that moved more bytes in front, then sorted by name, then one of them. -/
theorem DiffFn.getThenSortedDiffs_documented_disks :
    ∃ shown w', DiffFn.diskIo.stat.getThenSortedDiffs Search.merging (twoDisks 5, sgDiskIoCompareTraffic)
        [(twoDisks 9, sgDiskIoCompareName), (oneDisk 10, sgDiskIoCompareTraffic)] (emptyWorld DiskIoStats)
        = .ok (shown, w') ∧
      shown.map Prod.fst
        = (twoDisks 5).shown :: DiffFn.diskIo.stat.documented (twoDisks 5) [twoDisks 9, oneDisk 10] ∧
      List.Forall₂ (fun call x => DiffStat.InOrder call.2 x.1 x.2) [(twoDisks 5, sgDiskIoCompareTraffic),
        (twoDisks 9, sgDiskIoCompareName), (oneDisk 10, sgDiskIoCompareTraffic)] shown := by
  have hall : ∀ call ∈ [(twoDisks 5, sgDiskIoCompareTraffic), (twoDisks 9, sgDiskIoCompareName),
      (oneDisk 10, sgDiskIoCompareTraffic)], call.2 ∈ DiffFn.diskIo.comparisons := by
    intro call hcall
    simp only [List.mem_cons, List.not_mem_nil, or_false] at hcall
    rcases hcall with rfl | rfl | rfl
    · exact List.mem_cons_of_mem _ List.mem_cons_self
    · exact List.mem_cons_self
    · exact List.mem_cons_of_mem _ List.mem_cons_self
  apply (DiffFn.diskIo.getThenSortedDiffs_documented_iff Search.merging_sorts (emptyWorld_sound DiskIoStats)
    (twoDisks 5, sgDiskIoCompareTraffic) _ hall).mpr
  exact disks_deliverable (List.cons_ne_nil _ _) 9 10

end Statgrab
