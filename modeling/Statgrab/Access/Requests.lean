import Statgrab.Access.Refusals
import Statgrab.Vector.Requests

/-!
# The requests of a call

`VECTOR_UPDATE` asks for a block in some of the rounds of a reader's loop, each item for its strings. The
loop ends at the first refusal: which round that is decides how many items are left behind. Before its
read a diff call has asked for the target, if there is none, and for the copy of the cached snapshot.
-/

namespace Statgrab

variable {α : Type}

/-! ### A refused copy -/

section

variable {info : VectorInitInfo α} {weight : α → Nat} {w : World α}

/-- The copy into a target is given up for lack of memory exactly where the target can be made ready and
a string of the items is refused. -/
theorem copyRefused_iff (hinfo : info.Regular) (hcopies : info.CopiesFor weight) (hw : w.Tidy)
    {dest cur : Ptr} {d c : SgVector α} (hd : w.store dest = some d) (hdc : d.Cached info)
    (hc : w.store cur = some c) (hcc : c.Cached info) (hne : dest ≠ cur) :
    CopyRefused w dest cur ↔ w.ResizeSafe d c.usedCount ∧
      ¬ (Supply.after w.mem (d.targetRequests c.usedCount)).Grants (copyRequests weight c.items) := by
  by_cases hsafe : w.ResizeSafe d c.usedCount
  · have hfit := hdc.fits hinfo hcc
    have hbd := hw.inBlock hd
    obtain ⟨q, w1, u, htarget, hand, hu, -, hroom, -⟩ :=
      cloneTarget_run hw.fresh hd hbd (fun _ => hfit) hsafe
    have hready := cloneTarget_served hd hbd (fun hused => (hsafe.resolve_left hused).1) hfit htarget
    have hc1 : w1.store cur = some c := hand.live hw.fresh hc fun hcon => hne (Option.some.inj hcon)
    have hqc : cur ≠ q := fun hcon => hand.avoids (hw.fresh.lt hc)
      (fun hcon => hne (Option.some.inj hcon)) (congrArg some hcon.symm)
    have hcopied : ∀ rc x w', sgVectorCloneIntoInt dest cur w = .ok ((rc, x), w') →
        (x ≠ none ↔ (Supply.after w.mem (d.targetRequests c.usedCount)).Grants
          (copyRequests weight c.items)) := by
      intro rc x w' hrun
      obtain ⟨hserved, -⟩ := sgVectorCloneIntoInt_served hd hc (hcc.info.symm ▸ hcopies) htarget hready
        hc1 hu hqc (fun hb => hw.inBlock hc (hand.bounded ▸ hb)) (fun hb => hroom (hand.bounded ▸ hb)) hrun
      rw [hserved.ok_iff, Supply.grants_add]
      exact and_iff_right (hready.ok_iff.mp trivial)
    rcases sgVectorCloneIntoInt_run hw.fresh hd hc hcc.backed.full.copies hbd (hw.inBlock hc)
        (fun _ => hfit) hsafe with ⟨q', w', v, hrun, -⟩ | ⟨rc, w', hrun, hfail⟩
    · have hgrants := (hcopied _ _ _ hrun).mp (Option.some_ne_none q')
      refine iff_of_false ?_ fun h => h.2 hgrants
      rintro ⟨rc, w2, hrefused⟩
      rw [sgVectorCloneInto] at hrefused
      simp only [Prog.bind_run, hrun, decide_true, if_true, Prog.pure_run] at hrefused
      cases hrefused
    · have hnot : ¬ (Supply.after w.mem (d.targetRequests c.usedCount)).Grants
          (copyRequests weight c.items) := fun h => (hcopied _ _ _ hrun).mpr h rfl
      refine iff_of_true ⟨w'.error, w', ?_⟩ ⟨hsafe, hnot⟩
      rw [sgVectorCloneInto]
      simp [Prog.bind_run, hrun, sgVectorFree, onThread_run (sgGetError_run w'.toThread), hfail.code]
  · refine iff_of_false ?_ fun h => hsafe h.1
    rintro ⟨rc, w', hrefused⟩
    rcases sgVectorCloneInto_unsafe hinfo hw hd hdc hc hcc hsafe with ⟨w1, hrun, -⟩ | ⟨e, hrun⟩
    · rw [hrun] at hrefused
      cases hrefused
    · rw [hrun] at hrefused
      cases hrefused

/-- A target can be made ready for `n` items: it is not about to be emptied, it has the room its record
promises, and the request for a larger block is granted. -/
theorem resizeSafe_iff (hw : w.Tidy) {dest : Ptr} {d : SgVector α} (hd : w.store dest = some d) (n : Nat) :
    w.ResizeSafe d n ↔
      (n = 0 → d.usedCount = 0) ∧ ¬ d.Unbacked n ∧ Supply.Grants w.mem (d.targetRequests n) := by
  constructor
  · intro hsafe
    refine ⟨?_, hw.not_unbacked hd hsafe, ?_⟩
    · rintro rfl
      exact hsafe.resolve_right fun h => h.1 rfl
    · rw [SgVector.targetRequests, SgVector.resizeRequests]
      rcases hsafe with hused | ⟨-, hroom⟩
      · rw [if_pos hused]
        exact Supply.grants_zero _
      · by_cases hround : roundUp n d.blockShift = d.allocCount
        · rw [if_pos hround, ite_self]
          exact Supply.grants_zero _
        · rw [if_neg hround] at hroom
          exact (Supply.grants_one.mpr hroom).mono (by split <;> simp)
  · rintro ⟨hzero, hbad, hgrants⟩
    by_cases hused : d.usedCount = n
    · exact .inl hused
    · have hn : n ≠ 0 := fun hn => hused (by rw [hn, hzero hn])
      refine .inr ⟨hn, ?_⟩
      by_cases hround : roundUp n d.blockShift = d.allocCount
      · rw [if_pos hround]
        exact fun _ => (hw.backed dest d hd).room hn hbad hround
      · rw [if_neg hround]
        rw [SgVector.targetRequests, if_neg hused, SgVector.resizeRequests, if_neg hround] at hgrants
        exact Supply.grants_one.mp hgrants

theorem AtDifference.copyRefused_iff (hinfo : info.Regular) (hcopies : info.CopiesFor weight)
    {d l c : Ptr} {vd vl : SgVector α} {items old : List α}
    (h : AtDifference info w d l vd vl (some c) items old) :
    CopyRefused w d c ↔ w.ResizeSafe vd items.length ∧
      ¬ (Supply.after w.mem (vd.targetRequests items.length)).Grants (copyRequests weight items) := by
  obtain ⟨vc, hvc, hcc, -, rfl⟩ := h.holds
  have hne : d ≠ c := fun hcon => h.held.apart c rfl (congrArg some hcon)
  rw [items_length]
  exact Statgrab.copyRefused_iff hinfo hcopies h.held.tidy h.diff h.diffCached hvc hcc hne

end

/-! ### The loop of the readers -/

/-- The requests for the vector in a loop that grows it by one item in each of `n` rounds, from `i` items
in a block that is recorded with `alloc`. -/
def growths (shift : Nat) : Nat → Nat → Nat → Nat
  | _, _, 0 => 0
  | alloc, i, n + 1 =>
      (if roundUp (i + 1) shift = alloc then 0 else 1)
        + growths shift (roundUp (i + 1) shift) (i + 1) n

/-- The block shift of the vector a variable holds. A new one is created for one item, as if it had grown
from a block for none. -/
def World.shiftAt (w : World α) (x : Option Ptr) : Nat := (x.bind w.store).elim 0 SgVector.blockShift

def World.allocAt (w : World α) (x : Option Ptr) : Nat := (x.bind w.store).elim 0 SgVector.allocCount

section

variable {β : Type} {info : VectorInitInfo α} {w w' : World α} {x : Option Ptr} {items : List α}

theorem shiftAt_some {p : Ptr} {v : SgVector α} (hv : w.store p = some v) :
    w.shiftAt (some p) = v.blockShift := by
  rw [World.shiftAt, Option.bind_some, hv]
  rfl

theorem allocAt_some {p : Ptr} {v : SgVector α} (hv : w.store p = some v) :
    w.allocAt (some p) = v.allocCount := by
  rw [World.allocAt, Option.bind_some, hv]
  rfl

/-- The requests of `VECTOR_UPDATE` for one item more. -/
def World.growRequests (w : World α) (x : Option Ptr) (n : Nat) : Nat :=
  if roundUp (n + 1) (w.shiftAt x) = w.allocAt x then 0 else 1

theorem growths_succ (w : World α) (x : Option Ptr) (i n : Nat) :
    growths (w.shiftAt x) (w.allocAt x) i (n + 1)
      = w.growRequests x i + growths (w.shiftAt x) (roundUp (i + 1) (w.shiftAt x)) (i + 1) n := rfl

/-- How `VECTOR_UPDATE` for one item more leaves the variable: the new item is initialised, and the block
is recorded as rounded up. -/
structure GrownByOne (w w' : World α) (info : VectorInitInfo α) (x : Option Ptr) (items : List α) (q : Ptr)
    (v : SgVector α) : Prop where
  grown : Grown w w' info x items (items.length + 1) q v
  fresh : ∀ f, info.initFn = some f → ∃ y, v.cells items.length = f y
  shift : v.blockShift = w.shiftAt x
  alloc : v.allocCount = roundUp (items.length + 1) (w.shiftAt x)

/-- A new vector for one item. -/
theorem Grown.createdByOne (hinfo : info.Regular) {q : Ptr} {v : SgVector α}
    (hcreate : sgVectorCreateInt 0 1 1 info w = .ok (some q, w')) (hv : Grown w w' info none [] 1 q v) :
    GrownByOne w w' info none [] q v := by
  have hfit : Fits (max 1 1) 0 info := hinfo.fits (by decide) (by decide)
  cases hmem : w.mem 0 with
  | false =>
      rw [sgVectorCreateInt_refused hfit.blockBytes_ne_zero hmem] at hcreate
      cases hcreate
  | true =>
      obtain ⟨w1, u, hcreate', -, hu, hfor, -⟩ := sgVectorCreateInt_created (w := w) hfit hmem
      rw [hcreate] at hcreate'
      cases hcreate'
      have hsame := hv.store
      rw [hu] at hsame
      cases hsame
      have halloc : 2 ^ 0 = roundUp 1 0 := by decide
      refine ⟨hv, ?_, hfor.blockShift, hfor.allocCount.trans halloc⟩
      intro f hf
      exact hfor.fresh f (hfor.info ▸ hf) 0 Nat.zero_lt_one

/-- A vector that is resized for one item more, where it is granted what it asks for. -/
theorem Grown.resizedByOne {p q : Ptr} {u v : SgVector α} (hw : w.Tidy) (hv : w.store p = some v)
    (hcached : v.Cached info) (hslots : v.slots ≠ 0)
    (hfit : Fits (v.usedCount + 1) v.blockShift v.info)
    (hmem : roundUp (v.usedCount + 1) v.blockShift ≠ v.allocCount → w.mem 0 = true)
    (hresize : sgVectorResize (some p) (v.usedCount + 1) w = .ok (some q, w'))
    (hu : Grown w w' info (some p) v.items (v.items.length + 1) q u) :
    GrownByOne w w' info (some p) v.items q u := by
  obtain ⟨q', w1, v', hrun', -, hq', hres, -⟩ :=
    sgVectorResize_run hw.fresh (Nat.succ_ne_zero _) hv (hw.inBlock hv) hfit
      (fun hround _ => hcached.backed.room (Nat.succ_ne_zero _) (fun h => hslots h.1) hround) hmem
  rw [hresize] at hrun'
  cases hrun'
  have hsame := hu.store
  rw [hq'] at hsame
  cases hsame
  refine ⟨hu, ?_, ?_, ?_⟩
  · intro f hf
    rw [items_length]
    exact hres.fresh f (hcached.info.symm ▸ hf) v.usedCount le_rfl (Nat.lt_succ_self _)
  · rw [shiftAt_some hv, hres.blockShift]
  · rw [shiftAt_some hv, items_length, hres.allocCount]

theorem vectorCreateOrResize_served (hinfo : info.Regular) (hw : w.Tidy) (hx : w.Holds info x items)
    (hlimit : items.length + 1 ≤ itemLimit) :
    ∃ r w', vectorCreateOrResize info x (items.length + 1) w = .ok (r, w') ∧
      Served w.mem w'.mem (w.growRequests x items.length) (r ≠ none) ∧
      ∀ q, r = some q → ∃ v, GrownByOne w w' info x items q v := by
  have hone := vectorCreateOrResize_run hinfo hw hx (Nat.succ_ne_zero items.length) hlimit (Nat.le_succ _)
  obtain ⟨r, w', hrun, hgrown⟩ : ∃ r w', vectorCreateOrResize info x (items.length + 1) w = .ok (r, w') ∧
      ∀ q, r = some q → ∃ v, Grown w w' info x items (items.length + 1) q v := by
    rcases hone with ⟨q, w', v, hrun, hgrown⟩ | ⟨w', hrun, -⟩
    · exact ⟨some q, w', hrun, fun q' hq => by cases hq; exact ⟨v, hgrown⟩⟩
    · exact ⟨none, w', hrun, fun q hq => by cases hq⟩
  refine ⟨r, w', hrun, ?_⟩
  cases x with
  | none =>
      have hnil : items = [] := hx
      subst hnil
      have hfit : Fits (max 1 1) 0 info := hinfo.fits (by decide) (by decide)
      have hcreate : sgVectorCreateInt 0 1 1 info w = .ok (r, w') := hrun
      refine ⟨sgVectorCreateInt_served hfit hcreate, ?_⟩
      intro q hq
      subst hq
      obtain ⟨v, hv⟩ := hgrown q rfl
      exact ⟨v, hv.createdByOne hinfo hcreate⟩
  | some p =>
      obtain ⟨v, hv, hcached, hslots, rfl⟩ := hx
      rw [items_length] at hlimit hrun
      have hfit : Fits (v.usedCount + 1) v.blockShift v.info :=
        hcached.info ▸ hinfo.fits (by omega) hcached.shift
      have hserved := sgVectorResize_served (Nat.succ_ne_zero _) hv (hw.inBlock hv) hfit hrun
      have hasks : w.growRequests (some p) v.items.length = v.resizeRequests (v.usedCount + 1) := by
        rw [World.growRequests, shiftAt_some hv, allocAt_some hv, items_length, SgVector.resizeRequests]
      rw [hasks]
      refine ⟨hserved, ?_⟩
      intro q hq
      subst hq
      obtain ⟨u, hu⟩ := hgrown q rfl
      refine ⟨u, hu.resizedByOne hw hv hcached hslots hfit ?_ hrun⟩
      intro hround
      have hgrants := hserved.ok_iff.mp (Option.some_ne_none q)
      rw [SgVector.resizeRequests, if_neg hround] at hgrants
      exact Supply.grants_one.mp hgrants

/-- The function fills an item as `spec` says where it is granted `need` requests, which are all it
makes. -/
def GrantedFill (fill : ItemFn α) (need : Nat) (spec : α → Prop) : Prop :=
  ∀ y t, Supply.Grants t.mem need →
    ∃ z t', fill y t = .ok ((.none, z), t') ∧ spec z ∧ t'.mem = Supply.after t.mem need

theorem plenty_of_after {n : Nat} (h : w'.mem = Supply.after w.mem n) : w.Plenty → w'.Plenty := by
  intro hplenty k
  rw [h]
  exact hplenty (n + k)

theorem GrownByOne.record {q : Ptr} {v : SgVector α} (h : GrownByOne w w' info x items q v) (y : α)
    (t : Thread) :
    (w'.recopy t q (v.setCell items.length y)).shiftAt (some q) = w.shiftAt x ∧
      (w'.recopy t q (v.setCell items.length y)).allocAt (some q)
        = roundUp (items.length + 1) (w.shiftAt x) := by
  have hstore : (w'.recopy t q (v.setCell items.length y)).store q = some (v.setCell items.length y) :=
    Function.update_self _ _ _
  exact ⟨(shiftAt_some hstore).trans h.shift, (allocAt_some hstore).trans h.alloc⟩

/-- A round that has its vector fills one item, and the loop goes on behind it unless the function failed. -/
theorem fillItems_round {fill : β → ItemFn α} {b : β} (bs : List β) {w1 : World α} {q : Ptr} {v : SgVector α}
    {rc : SgError} {y : α} {t : Thread}
    (hupdate : vectorCreateOrResize info x (items.length + 1) w = .ok (some q, w1))
    (hv : GrownByOne w w1 info x items q v)
    (hfn : fill b (v.cells items.length) w1.toThread = .ok ((rc, y), t)) (hkeeps : w.Plenty → t.Plenty) :
    ∃ w2, fillItems info fill (b :: bs) items.length x w
        = (if rc = .none then fillItems info fill bs (items ++ [y]).length (some q) w2
          else .ok ((rc, some q), w2)) ∧
      w.Refill w2 info x (some q) (items ++ [y]) ∧ w2.mem = t.mem ∧ w2.shiftAt (some q) = w.shiftAt x ∧
      w2.allocAt (some q) = roundUp (items.length + 1) (w.shiftAt x) := by
  obtain ⟨hroom, hrefill⟩ := hv.grown.filled y hkeeps
  obtain ⟨hshift, halloc⟩ := hv.record y t
  refine ⟨_, ?_, hrefill, rfl, hshift, halloc⟩
  rw [fillItems_cons, Prog.bind_of_ok hupdate]
  simp only
  rw [Prog.bind_of_ok (onItem_run hv.grown.store hroom hfn), List.length_append, List.length_singleton]
  split
  · rfl
  · rfl

theorem fillItems_granted (hinfo : info.Regular) {fill : β → ItemFn α} {need : β → Nat}
    {spec : β → α → Prop} (hfill : ∀ b, GrantedFill (fill b) (need b) (spec b)) :
    ∀ (bs : List β) (x : Option Ptr) (items : List α) (w : World α), w.Tidy → w.Holds info x items →
      items.length + bs.length ≤ itemLimit →
      Supply.Grants w.mem (growths (w.shiftAt x) (w.allocAt x) items.length bs.length
        + (bs.map need).sum) →
      ∃ x' new w', fillItems info fill bs items.length x w = .ok ((.none, x'), w') ∧
        w.Refill w' info x x' (items ++ new) ∧ List.Forall₂ spec bs new ∧
        (bs ≠ [] ∨ x ≠ none → x' ≠ none) ∧
        w'.mem = Supply.after w.mem (growths (w.shiftAt x) (w.allocAt x) items.length bs.length
          + (bs.map need).sum) := by
  intro bs
  induction bs with
  | nil =>
      intro x items w hw hx _ _
      refine ⟨x, [], w, rfl, ?_, .nil, ?_, (Supply.after_zero w.mem).symm⟩
      · rw [List.append_nil]
        exact .refl hw hx
      · rintro (h | h)
        · exact absurd rfl h
        · exact h
  | cons b bs ih =>
      intro x items w hw hx hlimit hgrants
      rw [List.length_cons] at hlimit
      obtain ⟨r, w1, hupdate, hserved, hgrown⟩ := vectorCreateOrResize_served hinfo hw hx (by omega)
      have hsum : growths (w.shiftAt x) (w.allocAt x) items.length (b :: bs).length
            + ((b :: bs).map need).sum
          = w.growRequests x items.length + (need b
            + (growths (w.shiftAt x) (roundUp (items.length + 1) (w.shiftAt x)) (items.length + 1) bs.length
              + (bs.map need).sum)) := by
        rw [List.length_cons, growths_succ, List.map_cons, List.sum_cons]
        omega
      rw [hsum] at hgrants ⊢
      obtain ⟨hgrow, hgrants⟩ := Supply.grants_add.mp hgrants
      have hr := hserved.ok_iff.mpr hgrow
      obtain ⟨q, rfl⟩ := Option.ne_none_iff_exists'.mp hr
      obtain ⟨v, hv⟩ := hgrown q rfl
      have hmem1 := hserved.rest hr
      rw [← hmem1] at hgrants
      obtain ⟨hneed, hgrants⟩ := Supply.grants_add.mp hgrants
      obtain ⟨y, t, hfn, hspec, hmem2⟩ := hfill b (v.cells items.length) w1.toThread hneed
      have hkeeps : w.Plenty → t.Plenty := by
        intro hplenty k
        rw [hmem2, hmem1]
        exact hplenty _
      obtain ⟨w2, hround, hrefill, hmemt, hshift, halloc⟩ := fillItems_round bs hupdate hv hfn hkeeps
      have hlength : (items ++ [y]).length = items.length + 1 := by simp
      have hmem2' : w2.mem = Supply.after w1.mem (need b) := hmemt.trans hmem2
      obtain ⟨x', new, w', hrun, hrefill', hforall, hnull, hmem'⟩ := ih (some q) (items ++ [y]) w2
        hrefill.step.tidy hrefill.holds (by rw [hlength]; omega) (by rwa [hshift, halloc, hlength, hmem2'])
      refine ⟨x', y :: new, w', ?_, ?_, .cons hspec hforall, fun _ => hnull (.inr (Option.some_ne_none q)), ?_⟩
      · rw [hround, if_pos rfl, hrun]
      · have hall := hrefill.trans hrefill'
        rwa [List.append_assoc] at hall
      · rw [hmem', hshift, halloc, hlength, hmem2', hmem1, Supply.after_after, Supply.after_after]

/-- A loop that stops at the first refusal has made all its requests, or it has stopped in an entry, with an
item for each entry before it and what is left of that one. -/
theorem fillItems_served (hinfo : info.Regular) (good : β → α → Prop) (half : α → Prop)
    {fill : β → ItemFn α} {need : β → Nat}
    (hreturns : ∀ b y t, ∃ r t', fill b y t = .ok (r, t'))
    (hasks : ∀ b y, (fill b y).Asks Thread.mem (need b) fun r => r.1 = .none)
    (hspec : ∀ f, info.initFn = some f → ∀ b y t rc z t', fill b (f y) t = .ok ((rc, z), t') →
      if rc = .none then good b z else half z) :
    ∀ (bs : List β) (x : Option Ptr) (items : List α) (w : World α), w.Tidy → w.Holds info x items →
      items.length + bs.length ≤ itemLimit → ∀ rc x' w',
      fillItems info fill bs items.length x w = .ok ((rc, x'), w') →
      (rc = .none ∧ Supply.Grants w.mem (growths (w.shiftAt x) (w.allocAt x) items.length bs.length
        + (bs.map need).sum)) ∨
      (rc ≠ .none ∧ ∃ pre b post, bs = pre ++ b :: post ∧ ∃ k < need b,
        Supply.Stops w.mem w'.mem (growths (w.shiftAt x) (w.allocAt x) items.length (pre.length + 1)
          + (pre.map need).sum + k) ∧
        ∃ q new y, x' = some q ∧ w.Refill w' info x (some q) (items ++ (new ++ [y])) ∧
          List.Forall₂ good pre new ∧ half y) := by
  obtain ⟨f, hf⟩ := Option.isSome_iff_exists.mp hinfo.full.init
  intro bs
  induction bs with
  | nil =>
      intro x items w _ _ _ rc x' w' hrun
      cases hrun
      exact .inl ⟨rfl, Supply.grants_zero w.mem⟩
  | cons b bs ih =>
      intro x items w hw hx hlimit rc x' w' hrun
      rw [List.length_cons] at hlimit
      obtain ⟨r, w1, hupdate, hserved, hgrown⟩ := vectorCreateOrResize_served hinfo hw hx (by omega)
      cases r with
      | none =>
          rw [fillItems_cons, Prog.bind_of_ok hupdate] at hrun
          cases hrun
      | some q =>
          obtain ⟨v, hv⟩ := hgrown q rfl
          have hgrow := hserved.ok_iff.mp (Option.some_ne_none q)
          have hmem1 := hserved.rest (Option.some_ne_none q)
          obtain ⟨⟨rc1, y⟩, t, hfn⟩ := hreturns b (v.cells items.length) w1.toThread
          have hfill := hasks b _ _ _ _ hfn
          obtain ⟨y0, hfresh⟩ := hv.fresh f hf
          have hleft := hspec f hf b y0 w1.toThread rc1 y t (hfresh ▸ hfn)
          have hkeeps : w.Plenty → t.Plenty := fun hplenty => hfill.keeps (hserved.keeps hplenty)
          obtain ⟨w2, hround, hrefill, hmemt, hshift, halloc⟩ := fillItems_round bs hupdate hv hfn hkeeps
          have hlength : (items ++ [y]).length = items.length + 1 := by simp
          rw [hround] at hrun
          by_cases hrc : rc1 = .none
          · rw [if_pos hrc] at hrun hleft
            have hneed := hfill.ok_iff.mp hrc
            have hmem2 : w2.mem = Supply.after w1.mem (need b) := hmemt.trans (hfill.rest hrc)
            rcases ih (some q) (items ++ [y]) w2 hrefill.step.tidy hrefill.holds (by rw [hlength]; omega)
                rc x' w' hrun with ⟨hok, hgrants⟩ |
              ⟨hne, pre, b', post, rfl, k, hk, hstops, q', new, z, rfl, hrefill', hforall, hhalf⟩
            · rw [hshift, halloc, hlength, hmem2, hmem1, Supply.after_after] at hgrants
              refine .inl ⟨hok, ?_⟩
              have hboth := Supply.grants_add.mpr ⟨Supply.grants_add.mpr ⟨hgrow, hmem1 ▸ hneed⟩, hgrants⟩
              rw [List.length_cons, growths_succ, List.map_cons, List.sum_cons]
              exact hboth.mono (by omega)
            · rw [hshift, halloc, hlength, hmem2, hmem1, Supply.after_after] at hstops
              have hboth := hstops.add (Supply.grants_add.mpr ⟨hgrow, hmem1 ▸ hneed⟩)
              have hindex : growths (w.shiftAt x) (w.allocAt x) items.length ((b :: pre).length + 1)
                    + ((b :: pre).map need).sum + k
                  = w.growRequests x items.length + need b
                    + (growths (w.shiftAt x) (roundUp (items.length + 1) (w.shiftAt x)) (items.length + 1)
                      (pre.length + 1) + (pre.map need).sum + k) := by
                rw [List.length_cons, growths_succ, List.map_cons, List.sum_cons]
                omega
              have hall := hrefill.trans hrefill'
              rw [List.append_assoc] at hall
              refine .inr ⟨hne, b :: pre, b', post, rfl, k, hk, ?_, q', y :: new, z, rfl, hall,
                .cons hleft hforall, hhalf⟩
              rw [hindex]
              exact hboth
          · rw [if_neg hrc] at hrun hleft
            cases hrun
            obtain ⟨k, hk, hstops⟩ := hfill.stopped hrc
            have hindex : growths (w.shiftAt x) (w.allocAt x) items.length (([] : List β).length + 1)
                  + (([] : List β).map need).sum + k
                = w.growRequests x items.length + k := by
              rw [growths_succ]
              rfl
            refine .inr ⟨hrc, [], b, bs, rfl, k, hk, ?_, q, [], y, rfl, hrefill, .nil, hleft⟩
            rw [hindex, hmemt]
            exact (hmem1 ▸ hstops).add hgrow

end

/-! ### A diff call -/

/-- The target of a difference: the vector in `diff`, or the one that is made for as many items as are
cached. -/
def World.targetVector (w : World α) (n : Ptr) : Option Ptr → Option (SgVector α)
  | some d => w.store d
  | none => do
      let v ← w.store n
      let shift ← blockShiftOf v.usedCount
      return .blank shift v.usedCount 0 v.info (w.raw w.next)

/-- The requests a diff call makes before it reads: for the target, if there is none, and for the copy of
the cached snapshot. -/
def World.requestsToRead (w : World α) (weight : α → Nat) (n : Ptr) (diff : Option Ptr) : Nat :=
  (if diff = none then 1 else 0) + (1 + copyRequests weight (w.itemsAt (some n)))

section

variable {info : VectorInitInfo α} {fnInt : FillFn α} {weight : α → Nat} {w w' : World α} {n d l : Ptr}
  {diff x : Option Ptr} {rc : SgError}

theorem diffTarget_served (hinfo : info.Regular) (h : Held info w (some n) diff) {r : Option Ptr}
    (hrun : diffTarget info n diff w = .ok (r, w')) :
    Served w.mem w'.mem (if diff = none then 1 else 0) (r ≠ none) ∧
      ∀ d, r = some d → w'.store d = w.targetVector n diff := by
  cases diff with
  | some d =>
      cases hrun
      refine ⟨.none (Option.some_ne_none d), ?_⟩
      intro d' hd
      cases hd
      rfl
  | none =>
      obtain ⟨items, v, hv, hcached, -, -⟩ := h.holds
      obtain ⟨shift, hshift, hle⟩ := blockShiftOf_isSome hcached.used
      have hfit : Fits (max v.usedCount 0) shift info := by
        have hused := hcached.used
        exact hinfo.fits (by omega) hle
      rw [diffTarget, Prog.bind_of_ok (deref_run hv), vectorCreate, sgVectorCreate, hshift] at hrun
      refine ⟨sgVectorCreateInt_served hfit hrun, ?_⟩
      rintro d rfl
      have hmem : w.mem 0 = true := by
        have hgrants := (sgVectorCreateInt_served hfit hrun).ok_iff.mp (Option.some_ne_none d)
        exact Supply.grants_one.mp hgrants
      have hroom : w.InBlock (.blank shift v.usedCount 0 info (w.raw w.next)) 0 := fun _ => Nat.zero_le _
      have hcreate := sgVectorCreateInt_run hfit.blockBytes_ne_zero hmem hroom
      rw [show sgVectorCreateInt shift v.usedCount 0 info w = _ from hrun] at hcreate
      cases hcreate
      rw [World.targetVector, hv]
      simp only [Option.bind_eq_bind, Option.bind_some, hshift, hcached.info]
      exact Function.update_self _ _ _

/-- What a diff call that has read found: the requests before the read were granted, the read started from
the emptied snapshot with what was left of the supply, and its vectors are those of the thread. -/
structure ReadFrom (info : VectorInitInfo α) (fnInt : FillFn α) (weight : α → Nat) (w : World α) (n : Ptr)
    (diff : Option Ptr) (rc : SgError) (x : Option Ptr) (w1 w2 : World α) (d : Ptr) : Prop where
  grants : Supply.Grants w.mem (w.requestsToRead weight n diff)
  mem : w2.mem = Supply.after w.mem (w.requestsToRead weight n diff)
  tidy : w2.Tidy
  holds : w2.Holds info (some n) []
  shift : w2.shiftAt (some n) = w.shiftAt (some n)
  alloc : w2.allocAt (some n) = w.allocAt (some n)
  run : ∃ w3, fnInt (some n) w2 = .ok ((rc, x), w3) ∧ w1.mem = w3.mem ∧ w1.store = w3.store
  target : w1.store d = w.targetVector n diff

/-- Clearing the cached vector asks for nothing and keeps its record. -/
theorem multiTarget_kept (hinfo : info.Regular) (hw : w.Tidy) {items : List α}
    (hnow : w.Holds info (some n) items) :
    ∃ w', multiTarget info (some n) w = .ok (some n, w') ∧ w.Step w' (some n) ∧
      w'.Holds info (some n) [] ∧ w'.mem = w.mem ∧ w'.shiftAt (some n) = w.shiftAt (some n) ∧
      w'.allocAt (some n) = w.allocAt (some n) := by
  have hlive := hnow
  obtain ⟨v, hv, -, -, -⟩ := hlive
  have hrun : multiTarget info (some n) w = .ok (some n, w.shrink n v 0) := by
    rw [multiTarget, Prog.bind_of_ok (sgVectorClear_run hv (hw.inBlock hv))]
    rfl
  have hshrunk : (w.shrink n v 0).store n = some (v.destroyUnused 0) := Function.update_self _ _ _
  refine ⟨w.shrink n v 0, hrun, ?_, ?_, rfl, ?_, ?_⟩
  · rcases multiTarget_cases hinfo hw ⟨items, hnow⟩ with ⟨p, w1, hrun1, hstep, -⟩ | ⟨hcon, -⟩
    · rw [hrun] at hrun1
      cases hrun1
      exact hstep
    · cases hcon
  · rcases multiTarget_cases hinfo hw ⟨items, hnow⟩ with ⟨p, w1, hrun1, -, -, hholds, -⟩ | ⟨hcon, -⟩
    · rw [hrun] at hrun1
      cases hrun1
      exact hholds
    · cases hcon
  · rw [shiftAt_some hshrunk, shiftAt_some hv, destroyUnused_blockShift]
  · rw [allocAt_some hshrunk, allocAt_some hv, destroyUnused_allocCount]

def targetRequests (now : Option Ptr) : Nat := if now = none then 1 else 0

theorem multiTarget_served (hinfo : info.Regular) (hw : w.Tidy) {now r : Option Ptr}
    (hnow : ∃ items, w.Holds info now items) (hrun : multiTarget info now w = .ok (r, w')) :
    Served w.mem w'.mem (targetRequests now) (r ≠ none) := by
  cases now with
  | none =>
      obtain ⟨shift, hshift, hle⟩ := blockShiftOf_isSome (show 16 ≤ itemLimit by decide)
      rw [multiTarget, vectorCreate, sgVectorCreate, hshift] at hrun
      exact sgVectorCreateInt_served (hinfo.fits (by decide) hle) hrun
  | some n =>
      obtain ⟨items, hitems⟩ := hnow
      obtain ⟨w1, hkept, -, -, hmem, -⟩ := multiTarget_kept hinfo hw hitems
      rw [hrun] at hkept
      cases hkept
      rw [hmem]
      exact .none (Option.some_ne_none n)

/-- The copy of the snapshot leaves everything else alone. -/
theorem cloned_step (hinfo : info.Regular) (hw : w.Tidy) {v : SgVector α} (hv : w.store n = some v)
    (hcached : v.Cached info) (hrun : sgVectorClone (some n) w = .ok (some l, w')) : w.Step w' none := by
  rcases sgVectorClone_run hw.fresh hv hcached.backed.full.copies (hw.inBlock hv) (hcached.fits_clone hinfo) with
    ⟨q, w1, u, hclone, hcopy, hfor⟩ | ⟨rc, w1, hclone, -⟩
  · rw [hrun] at hclone
    cases hclone
    have hback : (u.copied v 0 v.usedCount).Backed :=
      (hfor.backed (le_max_right _ _) hcached.backed.full).copied v 0 v.usedCount
    exact hcopy.handover.created_step hw hcopy.store hback
  · rw [hrun] at hclone
    cases hclone

/-- A diff call that does not come to its read is refused a request before it. -/
theorem diffUpToRead_none (hinfo : info.Regular) (hcopies : info.CopiesFor weight)
    (h : Held info w (some n) diff) (hrun : diffUpToRead info fnInt n diff w = .ok (none, w')) :
    ¬ Supply.Grants w.mem (w.requestsToRead weight n diff) := by
  rw [diffUpToRead] at hrun
  obtain ⟨target, w1, htarget, hrun⟩ := Prog.bind_eq_ok.mp hrun
  obtain ⟨hserved1, -⟩ := diffTarget_served hinfo h htarget
  intro hgrants
  obtain ⟨hfirst, hcopied⟩ := Supply.grants_add.mp hgrants
  cases target with
  | none => exact hserved1.ok_iff.mpr hfirst rfl
  | some d =>
      obtain ⟨hstep1, hheld1⟩ : w.Step w1 none ∧ Held info w1 (some n) (some d) := by
        rcases diffTarget_cases hinfo h with ⟨d2, w2, htarget2, hstep, hheld⟩ | ⟨-, w2, htarget2, -⟩
        · rw [htarget] at htarget2
          cases htarget2
          exact ⟨hstep, hheld⟩
        · rw [htarget] at htarget2
          cases htarget2
      obtain ⟨last, w2, hclone, hrun⟩ := Prog.bind_eq_ok.mp hrun
      obtain ⟨items, v, hv, hcached, -, rfl⟩ := h.holds
      have hv1 : w1.store n = some v := hstep1.live h.tidy hv (by simp)
      have hserved2 := sgVectorClone_served hheld1.tidy.fresh hv1 (hcached.info.symm ▸ hcopies)
        (hheld1.tidy.inBlock hv1) (hcached.fits_clone hinfo) hclone
      cases last with
      | none =>
          refine hserved2.ok_iff.mpr ?_ rfl
          rwa [hserved1.rest (Option.some_ne_none d), ← itemsAt_some hv]
      | some l =>
          obtain ⟨r, w3, -, hrun⟩ := Prog.bind_eq_ok.mp hrun
          cases hrun

theorem diffUpToRead_from (hinfo : info.Regular) (hcopies : info.CopiesFor weight)
    (hreads : Reads info fnInt) (h : Held info w (some n) diff)
    (hrun : diffUpToRead info fnInt n diff w = .ok (some (d, l, some rc, x), w')) :
    ∃ w2, ReadFrom info fnInt weight w n diff rc x w' w2 d := by
  rw [diffUpToRead] at hrun
  obtain ⟨target, w1, htarget, hrun⟩ := Prog.bind_eq_ok.mp hrun
  cases target with
  | none => cases hrun
  | some d1 =>
      obtain ⟨hserved1, hrecord⟩ := diffTarget_served hinfo h htarget
      obtain ⟨hstep1, hheld1⟩ : w.Step w1 none ∧ Held info w1 (some n) (some d1) := by
        rcases diffTarget_cases hinfo h with ⟨d2, w2, htarget2, hstep, hheld⟩ | ⟨-, w2, htarget2, -⟩
        · rw [htarget] at htarget2
          cases htarget2
          exact ⟨hstep, hheld⟩
        · rw [htarget] at htarget2
          cases htarget2
      obtain ⟨last, w2, hclone, hrun⟩ := Prog.bind_eq_ok.mp hrun
      cases last with
      | none => cases hrun
      | some l1 =>
          obtain ⟨⟨got, now⟩, w3, hget, hrun⟩ := Prog.bind_eq_ok.mp hrun
          obtain ⟨items, v, hv, hcached, hslots, rfl⟩ := h.holds
          have hv1 : w1.store n = some v := hstep1.live h.tidy hv (by simp)
          have hserved2 := sgVectorClone_served hheld1.tidy.fresh hv1 (hcached.info.symm ▸ hcopies)
            (hheld1.tidy.inBlock hv1) (hcached.fits_clone hinfo) hclone
          have hstep2 := cloned_step hinfo hheld1.tidy hv1 hcached hclone
          have hv2 : w2.store n = some v := hstep2.live hheld1.tidy hv1 (by simp)
          obtain ⟨w4, htarget2, hstep4, hempty, hmem4, hshift, halloc⟩ :=
            multiTarget_kept hinfo hstep2.tidy ⟨v, hv2, hcached, hslots, rfl⟩
          rcases hreads w4 n hstep4.tidy hempty with ⟨rc1, x1, items1, w5, hfn, hrefill⟩ | ⟨hfault, -⟩
          swap
          · rw [multiCompAccess, Prog.bind_of_ok htarget2] at hget
            simp only at hget
            rw [Prog.bind_of_error hfault] at hget
            cases hget
          rw [multiCompAccess_of_read htarget2 hfn hrefill.holds] at hget
          cases hget
          simp only [gotten_read] at hrun
          cases hrun
          obtain ⟨vd, hvd, -⟩ := hheld1.live d rfl
          have hdn : (some n : Option Ptr) ≠ some d := fun hcon => hheld1.apart n rfl hcon.symm
          have hmem2 : w2.mem = Supply.after w.mem (w.requestsToRead weight n diff) := by
            rw [World.requestsToRead, itemsAt_some hv, ← Supply.after_after,
              ← hserved1.rest (Option.some_ne_none d)]
            exact hserved2.rest (Option.some_ne_none l)
          have hgrants := Supply.grants_add.mpr ⟨hserved1.ok_iff.mp (Option.some_ne_none d),
            hserved1.rest (Option.some_ne_none d) ▸ hserved2.ok_iff.mp (Option.some_ne_none l)⟩
          have hend : w5.store d = w.targetVector n diff := by
            have hvd2 := hstep2.live hheld1.tidy hvd (by simp)
            have hvd4 := hstep4.live hstep2.tidy hvd2 hdn
            rw [hrefill.step.live hstep4.tidy hvd4 hdn, ← hrecord d rfl, hvd]
          refine ⟨w4, ?_, hmem4.trans hmem2, hstep4.tidy, hempty, ?_, ?_, ⟨w5, hfn, ?_, ?_⟩, ?_⟩
          · rw [World.requestsToRead, itemsAt_some hv]
            exact hgrants
          · rw [hshift, shiftAt_some hv2, shiftAt_some hv]
          · rw [halloc, allocAt_some hv2, allocAt_some hv]
          · split
            · rfl
            · rfl
          · split
            · rfl
            · rfl
          · split
            · exact hend
            · exact hend

end

end Statgrab
