import Statgrab.Access.Refusals

/-!
# Getters and diffs of statistics with one item

The cached vectors of these statistics have one item each, are never resized, and are filled in place.
`HeldItem` is what a thread keeps of such a statistic between two calls, with an allocator that may
refuse any request. The lemmas take a call that returned apart: the cached item is what the `fn_int`
left in it, whether it failed or not.
-/

namespace Statgrab

variable {α : Type}

structure SgVector.One (v : SgVector α) : Prop where
  used : v.usedCount = 1
  room : 1 ≤ v.slots

theorem SgVector.One.items {v : SgVector α} (h : v.One) : v.items = [v.cells 0] := by
  rw [SgVector.items, h.used]
  rfl

theorem SgVector.One.inBlock {v : SgVector α} (h : v.One) (w : World α) : w.InBlock v 1 := fun _ => h.room

theorem SgVector.One.setCell {v : SgVector α} (h : v.One) (i : Nat) (x : α) : (v.setCell i x).One :=
  ⟨h.used, h.room⟩

/-- What a thread keeps of a statistic with one item between two calls. -/
structure HeldItem (w : World α) (now diff : Option Ptr) : Prop where
  fresh : w.Fresh
  nowLive : ∀ p, now = some p → ∃ v, w.store p = some v ∧ v.One
  diffLive : ∀ p, diff = some p → ∃ v, w.store p = some v ∧ v.One
  apart : ∀ p, now = some p → diff ≠ some p

namespace HeldItem

variable {w w' : World α} {now diff : Option Ptr} {p : Ptr} {v : SgVector α}

theorem handover {b : Option Ptr} (h : HeldItem w now diff) (hand : w.Handover w' none b) :
    HeldItem w' now diff := by
  refine ⟨hand.fresh h.fresh, ?_, ?_, h.apart⟩
  · intro p hp
    obtain ⟨v, hv, hone⟩ := h.nowLive p hp
    exact ⟨v, hand.live h.fresh hv (by simp), hone⟩
  · intro p hp
    obtain ⟨v, hv, hone⟩ := h.diffLive p hp
    exact ⟨v, hand.live h.fresh hv (by simp), hone⟩

theorem itemsAt_handover {b : Option Ptr} (h : HeldItem w now diff) (hand : w.Handover w' none b) :
    w'.itemsAt now = w.itemsAt now := by
  cases now with
  | none => rfl
  | some p =>
      obtain ⟨v, hv, -⟩ := h.nowLive p rfl
      rw [itemsAt_some hv, itemsAt_some (hand.live h.fresh hv (by simp))]

theorem withNow (h : HeldItem w none diff) (hand : w.Handover w' none (some w.next))
    (hv : w'.store w.next = some v) (hone : v.One) : HeldItem w' (some w.next) diff := by
  have hstep := h.handover hand
  refine ⟨hstep.fresh, ?_, hstep.diffLive, ?_⟩
  · intro p hp
    cases hp
    exact ⟨v, hv, hone⟩
  · intro p hp hdiff
    cases hp
    obtain ⟨u, hu, -⟩ := h.diffLive _ hdiff
    exact absurd (h.fresh.lt hu) (lt_irrefl _)

theorem withDiff (h : HeldItem w now none) (hand : w.Handover w' none (some w.next))
    (hv : w'.store w.next = some v) (hone : v.One) : HeldItem w' now (some w.next) := by
  have hstep := h.handover hand
  refine ⟨hstep.fresh, hstep.nowLive, ?_, ?_⟩
  · intro p hp
    cases hp
    exact ⟨v, hv, hone⟩
  · intro p hp hdiff
    cases hdiff
    obtain ⟨u, hu, -⟩ := h.nowLive _ hp
    exact absurd (h.fresh.lt hu) (lt_irrefl _)

theorem recopy (h : HeldItem w now diff) (hv : w.store p = some v) (hone : v.One) (t : Thread)
    (i : Nat) (x : α) : HeldItem (w.recopy t p (v.setCell i x)) now diff := by
  have hstore : ∀ q u, w.store q = some u → u.One →
      ∃ u', (w.recopy t p (v.setCell i x)).store q = some u' ∧ u'.One := by
    intro q u hu huone
    by_cases hq : q = p
    · subst hq
      exact ⟨_, Function.update_self _ _ _, hone.setCell i x⟩
    · exact ⟨u, (Function.update_of_ne hq _ _).trans hu, huone⟩
  refine ⟨?_, ?_, ?_, h.apart⟩
  · intro q hq
    have hne : q ≠ p := fun hcon => absurd (h.fresh.lt hv) (not_lt.mpr (hcon ▸ hq))
    exact (Function.update_of_ne hne _ _).trans (h.fresh q hq)
  · intro q hq
    obtain ⟨u, hu, huone⟩ := h.nowLive q hq
    exact hstore q u hu huone
  · intro q hq
    obtain ⟨u, hu, huone⟩ := h.diffLive q hq
    exact hstore q u hu huone

theorem cleared (h : HeldItem w now diff) : HeldItem w.cleared now diff :=
  ⟨h.fresh, h.nowLive, h.diffLive, h.apart⟩

end HeldItem

section

variable {info : VectorInitInfo α} {fnInt : ItemFn α} {w w' : World α} {now diff : Option Ptr}

theorem easyTarget_none (w : World α) : easyTarget info none w = sgVectorCreateInt 0 1 1 info w := by
  rw [easyTarget, sgVectorCreate, show blockShiftOf 1 = some 0 by decide]

theorem easyTarget_cases (hfit : Fits 1 0 info) (x : Option Ptr) :
    (∃ p, x = some p ∧ easyTarget info x w = .ok (some p, w)) ∨
    (x = none ∧ ∃ w' v, easyTarget info x w = .ok (some w.next, w') ∧
      w.Handover w' none (some w.next) ∧ w'.store w.next = some v ∧ v.One) ∨
    (x = none ∧ ∃ w', easyTarget info x w = .ok (none, w') ∧ w.Failed w' none .malloc) := by
  cases x with
  | some p => exact .inl ⟨p, rfl, rfl⟩
  | none =>
      have hmax : Fits (max 1 1) 0 info := hfit
      rw [easyTarget_none]
      cases hmem : w.mem 0 with
      | true =>
          obtain ⟨w', v, hrun, hand, hv, hfor, -⟩ := sgVectorCreateInt_created hmax hmem
          have hroom : v.slots = roundUp 1 0 → 1 ≤ v.slots := fun hslots => hslots ▸ le_roundUp 1 0
          exact .inr (.inl ⟨rfl, w', v, hrun, hand, hv, ⟨hfor.usedCount, hroom hfor.slots⟩⟩)
      | false =>
          obtain ⟨w', hrun, hfail⟩ := sgVectorCreateInt_failed hmax hmem
          exact .inr (.inr ⟨rfl, w', hrun, hfail⟩)

theorem onItem_eq_ok {p : Ptr} {i : Nat} {fn : ItemFn α} {rc : SgError}
    (h : onItem p i fn w = .ok (rc, w')) :
    ∃ v x t, w.store p = some v ∧ fn (v.cells i) w.toThread = .ok ((rc, x), t) ∧
      w' = w.recopy t p (v.setCell i x) := by
  rw [onItem] at h
  obtain ⟨v, hv, hrest⟩ := deref_bind_eq_ok h
  obtain ⟨⟨rc', x⟩, w1, hzoom, hrest⟩ := Prog.bind_eq_ok.mp (touch_bind_eq_ok hrest)
  obtain ⟨t, hfn, rfl⟩ := Prog.zoom_eq_ok.mp hzoom
  cases hrest
  exact ⟨v, x, t, hv, hfn, rfl⟩

/-! ### The getter -/

/-- What a getter has done that reached its read: the `fn_int` left `x` in the cached item. -/
structure ItemGot (w' : World α) (now' diff : Option Ptr) (x : α) : Prop where
  held : HeldItem w' now' diff
  items : w'.itemsAt now' = [x]

theorem onItem_got {p : Ptr} {rc : SgError} (h : HeldItem w (some p) diff)
    (hrun : onItem p 0 fnInt w = .ok (rc, w')) :
    ∃ x, ItemGot w' (some p) diff x ∧ ∃ v, w'.store p = some v ∧ v.One := by
  obtain ⟨v, x, t, hv, hfn, rfl⟩ := onItem_eq_ok hrun
  obtain ⟨u, hu, hone⟩ := h.nowLive p rfl
  rw [hv] at hu
  cases hu
  have hheld := h.recopy hv hone t 0 x
  have hp : (w.recopy t p (v.setCell 0 x)).store p = some (v.setCell 0 x) :=
    Function.update_self _ _ _
  have hone' := hone.setCell 0 x
  have hitems : (v.setCell 0 x).items = [x] := by
    rw [hone'.items, setCell_cells_self]
  exact ⟨x, ⟨hheld, (itemsAt_some hp).trans hitems⟩, v.setCell 0 x, hp, hone'⟩

/-- A getter call that returned: it was refused its vector, or it read. -/
theorem easyCompAccess_eq_ok (hfit : Fits 1 0 info) (h : HeldItem w now diff) {r : Access}
    {now' : Option Ptr} (hrun : easyCompAccess info fnInt now w = .ok ((r, now'), w')) :
    (now = none ∧ now' = none ∧ r = .failed none ∧ w.Failed w' none .malloc) ∨
    (∃ p rc x, now' = some p ∧ (now = none ∨ now = some p) ∧ r = gotten rc (some p) [x] ∧
      ItemGot w' (some p) diff x) := by
  rw [easyCompAccess] at hrun
  have hread : ∀ p w1, HeldItem w1 (some p) diff → (now = none ∨ now = some p) →
      (do
        let rc ← onItem p 0 fnInt
        if rc = .none then
          let result ← succeed (some p) (some rc)
          return (result, some p)
        else return (.failed (some rc), some p) : VecM α (Access × Option Ptr)) w1
        = .ok ((r, now'), w') →
      ∃ p rc x, now' = some p ∧ (now = none ∨ now = some p) ∧ r = gotten rc (some p) [x] ∧
        ItemGot w' (some p) diff x := by
    intro p w1 h1 hp hrest
    obtain ⟨rc, w2, hitem, hrest⟩ := Prog.bind_eq_ok.mp hrest
    obtain ⟨x, hgot, v, hv, hone⟩ := onItem_got h1 hitem
    by_cases hrc : rc = .none
    · rw [if_pos hrc, Prog.bind_of_ok (succeed_some hv _)] at hrest
      cases hrest
      refine ⟨p, rc, x, rfl, hp, ?_, hgot.held.cleared, hgot.items⟩
      rw [gotten, if_pos hrc, hone.used]
      rfl
    · rw [if_neg hrc] at hrest
      cases hrest
      refine ⟨p, rc, x, rfl, hp, ?_, hgot⟩
      rw [gotten, if_neg hrc]
  rcases easyTarget_cases (w := w) hfit now with ⟨p, rfl, htarget⟩ |
    ⟨rfl, w1, v, htarget, hand, hv, hone⟩ | ⟨rfl, w1, htarget, hfail⟩
  · rw [Prog.bind_of_ok htarget] at hrun
    exact .inr (hread p w h (.inr rfl) hrun)
  · rw [Prog.bind_of_ok htarget] at hrun
    exact .inr (hread w.next w1 (h.withNow hand hv hone) (.inl rfl) hrun)
  · rw [Prog.bind_of_ok htarget] at hrun
    cases hrun
    exact .inl ⟨rfl, rfl, rfl, hfail⟩

/-! ### The diff -/

def itemMinus (minus : α → α → α) : List α → List α → Option (List α)
  | [], cur => some cur
  | [last], [cur] => some [minus cur last]
  | _, _ => none

theorem easyCompAccess_gets (hfit : Fits 1 0 info) (h : HeldItem w now diff) {r : Access}
    {now' : Option Ptr} (hrun : easyCompAccess info fnInt now w = .ok ((r, now'), w')) :
    HeldItem w' now' diff ∧ Gets w w' now now' r := by
  rcases easyCompAccess_eq_ok hfit h hrun with
    ⟨rfl, rfl, rfl, hfail⟩ | ⟨p, rc, x, rfl, -, rfl, hgot⟩
  · exact ⟨h.handover hfail.handover, .refused rfl⟩
  · exact ⟨hgot.held, gotten_gets hgot.items⟩

theorem easyTarget_held (hfit : Fits 1 0 info) (h : HeldItem w now diff) {x : Option Ptr}
    (hrun : easyTarget info diff w = .ok (x, w')) :
    HeldItem w' now x ∧ w'.itemsAt now = w.itemsAt now ∧ (x = none → w'.error ≠ .none) := by
  rcases easyTarget_cases (w := w) hfit diff with ⟨p, rfl, htarget⟩ |
    ⟨rfl, w1, v, htarget, hand, hv, hone⟩ | ⟨rfl, w1, htarget, hfail⟩
  · rw [htarget] at hrun
    cases hrun
    exact ⟨h, rfl, fun hnone => absurd hnone (Option.some_ne_none p)⟩
  · rw [htarget] at hrun
    cases hrun
    exact ⟨h.withDiff hand hv hone, h.itemsAt_handover hand,
      fun hnone => absurd hnone (Option.some_ne_none w.next)⟩
  · rw [htarget] at hrun
    cases hrun
    refine ⟨h.handover hfail.handover, h.itemsAt_handover hfail.handover, fun _ => ?_⟩
    rw [hfail.error]
    decide

/-- Writing the target of the difference leaves the cached item alone. -/
theorem onItem_delivers {n d : Ptr} {u : SgVector α} {fn : ItemFn α} {z : α} {rc : SgError}
    (h : HeldItem w (some n) (some d)) (hu : w.store n = some u)
    (hfn : ∀ y t, fn y t = .ok ((.none, z), t)) (hrun : onItem d 0 fn w = .ok (rc, w')) :
    rc = .none ∧ HeldItem w' (some n) (some d) ∧ w'.store n = some u ∧
      ∃ v, w'.store d = some v ∧ v.One ∧ v.items = [z] := by
  obtain ⟨v, y, t, hv, hrun', rfl⟩ := onItem_eq_ok hrun
  rw [hfn] at hrun'
  cases hrun'
  obtain ⟨v', hv', hone⟩ := h.diffLive d rfl
  rw [hv] at hv'
  cases hv'
  have hone' := hone.setCell 0 z
  have hne : n ≠ d := fun hcon => h.apart n rfl (congrArg some hcon.symm)
  refine ⟨rfl, h.recopy hv hone w.toThread 0 z, (Function.update_of_ne hne _ _).trans hu,
    v.setCell 0 z, Function.update_self _ _ _, hone', ?_⟩
  rw [hone'.items, setCell_cells_self]

/-- A diff of one item: whatever the read did, a success delivers the difference against the item that
was cached before. -/
theorem easyCompDiff_differs (hfit : Fits 1 0 info) {diffInt : α → α → α → ThreadM (SgError × α)}
    {minus : α → α → α}
    (hminus : ∀ tgt now last t, diffInt tgt now last t = .ok ((.none, minus now last), t))
    (h : HeldItem w now diff) {r : Access} {now' diff' : Option Ptr}
    (hrun : easyCompDiff info fnInt diffInt now diff w = .ok ((r, now', diff'), w')) :
    HeldItem w' now' diff' ∧ Differs (itemMinus minus) w w' now now' r := by
  cases now with
  | none =>
      rw [easyCompDiff] at hrun
      obtain ⟨⟨got, now1⟩, w1, hget, hrest⟩ := Prog.bind_eq_ok.mp hrun
      cases hrest
      obtain ⟨hheld, hgets⟩ := easyCompAccess_gets hfit h hget
      refine ⟨hheld, hgets.unread, ?_⟩
      intro hok
      obtain ⟨-, hdata, hentries⟩ := hgets.delivers hok
      rw [hdata]
      exact ⟨rfl, hentries⟩
  | some n =>
      rw [easyCompDiff] at hrun
      obtain ⟨target, w1, htarget, hrest⟩ := Prog.bind_eq_ok.mp hrun
      obtain ⟨hheld1, hitems1, -⟩ := easyTarget_held hfit h htarget
      cases target with
      | none =>
          cases hrest
          exact ⟨hheld1, .refused hitems1⟩
      | some d =>
          obtain ⟨v, hv, hrest⟩ := deref_bind_eq_ok hrest
          obtain ⟨⟨got, now1⟩, w2, hget, hrest⟩ := Prog.bind_eq_ok.mp (touch_bind_eq_ok hrest)
          obtain ⟨u, hu, hone⟩ := hheld1.nowLive n rfl
          rw [hv] at hu
          cases hu
          have hlast : w.itemsAt (some n) = [v.cells 0] := by
            rw [← hitems1, itemsAt_some hv, hone.items]
          rcases easyCompAccess_eq_ok hfit hheld1 hget with ⟨hnow, -⟩ | ⟨p, rc, x, rfl, hp, rfl, hgot⟩
          · cases hnow
          · obtain rfl : n = p := by
              rcases hp with hp | hp
              · cases hp
              · exact Option.some.inj hp
            by_cases hrc : rc = .none
            · rw [gotten, if_pos hrc] at hrest
              simp only [if_true] at hrest
              obtain ⟨u, hu, hrest⟩ := deref_bind_eq_ok hrest
              obtain ⟨rc', w3, hitem, hrest⟩ := Prog.bind_eq_ok.mp hrest
              obtain ⟨rfl, hheld, hn, vd, hd, honed, hitems⟩ :=
                onItem_delivers hgot.held hu (fun tgt t => hminus tgt (u.cells 0) (v.cells 0) t) hitem
              obtain ⟨u', hu', honen⟩ := hgot.held.nowLive n rfl
              rw [hu] at hu'
              cases hu'
              rw [if_pos rfl, Prog.bind_of_ok (succeed_some hd _)] at hrest
              cases hrest
              refine ⟨hheld.cleared, fun hread => absurd hread (Option.some_ne_none rc), fun _ => ?_⟩
              have hnow : w3.cleared.itemsAt (some n) = [u.cells 0] :=
                (itemsAt_some hn).trans honen.items
              have hdata : w3.cleared.itemsAt (some d) = [minus (u.cells 0) (v.cells 0)] :=
                (itemsAt_some hd).trans hitems
              rw [hlast, hnow, hdata]
              exact ⟨rfl, honed.used⟩
            · rw [gotten, if_neg hrc] at hrest
              cases hrest
              exact ⟨hgot.held, .failed rc⟩

def EasyReads (info : VectorInitInfo α) (fnInt : ItemFn α) (w : World α) : Option Ptr → Option Ptr → Prop
  | none, _ => ∃ r now' w', easyCompAccess info fnInt none w = .ok ((r, now'), w') ∧ r.read = some .none
  | some n, diff => ∃ d w1 r now' w', easyTarget info diff w = .ok (some d, w1) ∧
      easyCompAccess info fnInt (some n) w1 = .ok ((r, now'), w') ∧ r.read = some .none

theorem gotten_ok_of_read {rc : SgError} {x : Option Ptr} {items : List α}
    (h : (gotten rc x items).read = some .none) : rc = .none := by
  rw [gotten_read] at h
  exact Option.some.inj h

theorem easyCompDiff_returns (hfit : Fits 1 0 info) {diffInt : α → α → α → ThreadM (SgError × α)}
    {minus : α → α → α}
    (hminus : ∀ tgt now last t, diffInt tgt now last t = .ok ((.none, minus now last), t))
    (h : HeldItem w now diff) (hread : EasyReads info fnInt w now diff) :
    ∃ r now' diff' w', easyCompDiff info fnInt diffInt now diff w = .ok ((r, now', diff'), w') ∧
      r.read = some .none ∧ (r.ok = false → w'.error ≠ .none) := by
  have hok : ∀ {r : Access} {w' : World α}, r.ok = true → r.ok = false → w'.error ≠ .none :=
    fun htrue hfalse => by rw [htrue] at hfalse; cases hfalse
  cases now with
  | none =>
      obtain ⟨r, now', w', hget, hnone⟩ := hread
      rcases easyCompAccess_eq_ok hfit h hget with ⟨-, -, rfl, -⟩ | ⟨p, rc, x, rfl, -, rfl, -⟩
      · cases hnone
      · obtain rfl := gotten_ok_of_read hnone
        refine ⟨_, some p, diff, w', ?_, hnone, hok rfl⟩
        rw [easyCompDiff, Prog.bind_of_ok hget]
        rfl
  | some n =>
      obtain ⟨d, w1, r, now', w2, htarget, hget, hnone⟩ := hread
      obtain ⟨hheld, -, -⟩ := easyTarget_held hfit h htarget
      rcases easyCompAccess_eq_ok hfit hheld hget with ⟨hcon, -⟩ | ⟨p, rc, x, rfl, hp, rfl, hgot⟩
      · cases hcon
      obtain rfl := gotten_ok_of_read hnone
      obtain rfl : n = p := by
        rcases hp with hp | hp
        · cases hp
        · exact Option.some.inj hp
      obtain ⟨v, hv, hone⟩ := hheld.nowLive n rfl
      obtain ⟨u, hu, -⟩ := hgot.held.nowLive n rfl
      obtain ⟨vd, hvd, honed⟩ := hgot.held.diffLive d rfl
      have hitem : onItem d 0 (fun tgt => diffInt tgt (u.cells 0) (v.cells 0)) w2 = .ok (.none, _) :=
        onItem_run hvd (honed.inBlock w2) (hminus (vd.cells 0) (u.cells 0) (v.cells 0) w2.toThread)
      have hd : (w2.recopy w2.toThread d (vd.setCell 0 (minus (u.cells 0) (v.cells 0)))).store d
          = some (vd.setCell 0 (minus (u.cells 0) (v.cells 0))) := Function.update_self _ _ _
      refine ⟨⟨some d, (vd.setCell 0 (minus (u.cells 0) (v.cells 0))).usedCount, true, some .none⟩, some n,
        some d, (w2.recopy w2.toThread d (vd.setCell 0 (minus (u.cells 0) (v.cells 0)))).cleared, ?_, rfl,
        hok rfl⟩
      rw [easyCompDiff, Prog.bind_of_ok htarget]
      simp only
      rw [Prog.bind_of_ok (deref_run hv), Prog.bind_of_ok (touch_run (hone.inBlock w1)),
        Prog.bind_of_ok hget]
      simp only [gotten, if_true]
      rw [Prog.bind_of_ok (deref_run hu), Prog.bind_of_ok hitem, if_pos rfl,
        Prog.bind_of_ok (succeed_some hd _)]
      rfl

end

end Statgrab
