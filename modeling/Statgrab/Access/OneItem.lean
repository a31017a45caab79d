import Statgrab.Access.Single

/-!
# Calls of a statistic with one item

What a getter and a diff return and what they leave cached, from the two cached items, the item and the
code of the read and the next answer of the allocator. A call asks for memory at most once: the getter
for the vector of its snapshot, the diff for that of the difference. Nothing else can keep it from
returning.
-/

namespace Statgrab

variable {α : Type}

/-- A vector of the one item `x`, with room for it. -/
structure SgVector.Single (v : SgVector α) (x : α) : Prop where
  one : v.One
  item : v.cells 0 = x

inductive World.Has (w : World α) : Option Ptr → Option α → Prop
  | null : w.Has none none
  | item {p : Ptr} {x : α} (v : SgVector α) : w.store p = some v → v.Single x → w.Has (some p) (some x)

namespace World.Has

variable {w w' : World α} {x : Option Ptr} {a : Option α} {p : Ptr}

theorem none_iff (h : w.Has x a) : x = none ↔ a = none := by
  cases h with
  | null => simp
  | item v hv hsingle => simp

theorem itemsAt (h : w.Has x a) : w.itemsAt x = a.toList := by
  cases h with
  | null => rfl
  | item v hv hsingle =>
      rw [itemsAt_some hv, hsingle.one.items, hsingle.item]
      rfl

theorem of_some (h : w.Has (some p) a) : ∃ v y, a = some y ∧ w.store p = some v ∧ v.Single y := by
  cases h with
  | item v hv hsingle => exact ⟨v, _, rfl, hv, hsingle⟩

theorem congr (h : w.Has x a) (hsame : ∀ p, x = some p → w'.store p = w.store p) : w'.Has x a := by
  cases h with
  | null => exact .null
  | item v hv hsingle => exact .item v ((hsame _ rfl).trans hv) hsingle

theorem lt (hfresh : w.Fresh) (h : w.Has (some p) a) : p < w.next := by
  obtain ⟨v, y, -, hv, -⟩ := h.of_some
  exact hfresh.lt hv

end World.Has

theorem SgVector.Single.inBlock {v : SgVector α} {x : α} (h : v.Single x) (w : World α) :
    w.InBlock v (0 + 1) := h.one.inBlock w

theorem SgVector.Single.set {v : SgVector α} {x : α} (h : v.Single x) (y : α) :
    (v.setCell 0 y).Single y :=
  ⟨h.one.setCell 0 y, setCell_cells_self v 0 y⟩

/-- What a thread has cached of a statistic with one item: the snapshot and the difference. -/
structure Caches (w : World α) (now diff : Option Ptr) (a b : Option α) : Prop where
  fresh : w.Fresh
  snapshot : w.Has now a
  difference : w.Has diff b
  apart : ∀ p, now = some p → diff ≠ some p

namespace Caches

variable {w w' : World α} {now diff : Option Ptr} {a b : Option α} {p q : Ptr} {v : SgVector α} {y : α}

theorem start (hstore : ∀ p, w.store p = none) : Caches w none none none none :=
  ⟨fun p _ => hstore p, .null, .null, fun _ hp => nomatch hp⟩

theorem congr (h : Caches w now diff a b) (hstore : w'.store = w.store) (hnext : w'.next = w.next) :
    Caches w' now diff a b := by
  refine ⟨?_, h.snapshot.congr ?_, h.difference.congr ?_, h.apart⟩
  · intro p hp
    rw [hstore]
    exact h.fresh p (hnext ▸ hp)
  · intro p _
    rw [hstore]
  · intro p _
    rw [hstore]

theorem swap (h : Caches w now diff a b) : Caches w diff now b a :=
  ⟨h.fresh, h.difference, h.snapshot, fun p hdiff hnow => h.apart p hnow hdiff⟩

theorem recopy (h : Caches w (some p) diff a b) (hv : w.store p = some v) {x : α} (hsingle : v.Single x)
    (t : Thread) : Caches (w.recopy t p (v.setCell 0 y)) (some p) diff (some y) b := by
  refine ⟨?_, .item (v.setCell 0 y) (Function.update_self _ _ _) (hsingle.set y), h.difference.congr ?_, h.apart⟩
  · intro q hq
    have hne : q ≠ p := fun hcon => absurd (h.fresh.lt hv) (not_lt.mpr (hcon ▸ hq))
    exact (Function.update_of_ne hne _ _).trans (h.fresh q hq)
  · intro q hq
    have hne : q ≠ p := fun hcon => h.apart p rfl (hcon ▸ hq)
    exact Function.update_of_ne hne _ _

theorem made (h : Caches w none diff none b) (hand : w.Handover w' none (some w.next))
    (hv : w'.store w.next = some v) (hsingle : v.Single y) :
    Caches w' (some w.next) diff (some y) b := by
  have hbelow : ∀ p, diff = some p → p < w.next := by
    intro p hp
    subst hp
    exact h.difference.lt h.fresh
  refine ⟨hand.fresh h.fresh, .item v hv hsingle, h.difference.congr ?_, ?_⟩
  · intro p hp
    exact hand.frame p (hbelow p hp) nofun
  · intro p hp hdiff
    cases hp
    exact absurd (hbelow _ hdiff) (lt_irrefl _)

end Caches

section

variable {info : VectorInitInfo α} {w : World α} {now diff : Option Ptr} {a b : Option α}

/-- The vector is there, or it is asked for. -/
def Granted (x : Option Ptr) (mem : Bool) : Prop := x ≠ none ∨ mem = true

instance (x : Option Ptr) (mem : Bool) : Decidable (Granted x mem) := instDecidableOr

theorem easyTarget_run (hfit : Fits 1 0 info) (h : Caches w now diff a b) :
    (¬ Granted now (w.mem 0) ∧
      ∃ w', easyTarget info now w = .ok (none, w') ∧ Caches w' none diff none b) ∨
    (Granted now (w.mem 0) ∧ ∃ p y w', easyTarget info now w = .ok (some p, w') ∧
      Caches w' (some p) diff (some y) b ∧ (∀ x, a = some x → w' = w ∧ now = some p ∧ y = x) ∧
      (now = none → w'.mem 0 = w.mem 1)) := by
  cases now with
  | some p =>
      obtain ⟨v, y, rfl, hv, hsingle⟩ := h.snapshot.of_some
      refine .inr ⟨.inl (Option.some_ne_none p), p, y, w, rfl, h, ?_,
        fun hnone => absurd hnone (Option.some_ne_none p)⟩
      intro x hx
      cases hx
      exact ⟨rfl, rfl, rfl⟩
  | none =>
      obtain rfl := h.snapshot.none_iff.mp rfl
      have hmax : Fits (max 1 1) 0 info := hfit
      rw [easyTarget_none]
      cases hmem : w.mem 0 with
      | true =>
          have hroom : w.InBlock (.blank 0 1 1 info (w.raw w.next)) 1 := by
            intro _
            simp only [SgVector.blank, hmax.slotsIn_eq]
            exact le_roundUp _ _
          obtain ⟨w', v, hrun, hand, hv, hfor, -, -⟩ := sgVectorCreateInt_created hmax hmem
          have hw : w'.mem 0 = w.mem 1 := by
            have hexact := sgVectorCreateInt_run hmax.blockBytes_ne_zero hmem hroom
            rw [hrun] at hexact
            cases hexact
            rfl
          have hsingle : v.Single (v.cells 0) := by
            refine ⟨⟨hfor.usedCount, ?_⟩, rfl⟩
            rw [hfor.slots]
            decide
          refine .inr ⟨.inr rfl, w.next, v.cells 0, w', hrun, h.made hand hv hsingle, ?_, fun _ => hw⟩
          intro x hx
          cases hx
      | false =>
          refine .inl ⟨?_, w.refused _, sgVectorCreateInt_refused hmax.blockBytes_ne_zero hmem, ?_⟩
          · rintro (hnone | htrue)
            · exact hnone rfl
            · cases htrue
          · exact h.congr rfl rfl

theorem onItem_fills {p : Ptr} {y x : α} {fn : ItemFn α} {rc : SgError}
    (h : Caches w (some p) diff (some y) b)
    (hfn : ∀ t, ∃ t', fn y t = .ok ((rc, x), t')) :
    ∃ w', onItem p 0 fn w = .ok (rc, w') ∧ Caches w' (some p) diff (some x) b := by
  obtain ⟨v, y', hy, hv, hsingle⟩ := h.snapshot.of_some
  cases hy
  obtain ⟨t', ht'⟩ := hfn w.toThread
  have hcell : fn (v.cells 0) w.toThread = .ok ((rc, x), t') := by
    rw [hsingle.item]
    exact ht'
  exact ⟨_, onItem_run hv (hsingle.inBlock w) hcell, h.recopy hv hsingle t'⟩

theorem succeed_single {p : Ptr} {x : α} (h : Caches w (some p) diff (some x) b) (read : Option SgError) :
    ∃ w', succeed (some p) read w = .ok (⟨some p, 1, true, read⟩, w') ∧
      Caches w' (some p) diff (some x) b := by
  obtain ⟨v, y, -, hv, hsingle⟩ := h.snapshot.of_some
  refine ⟨w.cleared, ?_, h.congr rfl rfl⟩
  rw [succeed_some hv, hsingle.one.used]

/-! ### The getter -/

/-- A getter call: it is refused its vector, or the item of its read is cached. -/
theorem easyCompAccess_run (hfit : Fits 1 0 info) {fnInt : ItemFn α} {rc : SgError} {x : α}
    (hfn : ∀ y t, ∃ t', fnInt y t = .ok ((rc, x), t')) (h : Caches w now diff a b) :
    (¬ Granted now (w.mem 0) ∧ ∃ w', easyCompAccess info fnInt now w = .ok ((.failed none, none), w') ∧
      Caches w' none diff none b) ∨
    (Granted now (w.mem 0) ∧ ∃ p w',
      easyCompAccess info fnInt now w = .ok ((gotten rc (some p) [x], some p), w') ∧
      Caches w' (some p) diff (some x) b ∧ ∀ q, now = some q → p = q) := by
  rcases easyTarget_run hfit h with ⟨hno, w1, htarget, h1⟩ | ⟨hyes, p, y, w1, htarget, h1, hkept, -⟩
  · refine .inl ⟨hno, w1, ?_, h1⟩
    rw [easyCompAccess, Prog.bind_of_ok htarget]
    rfl
  · have hsame : ∀ q, now = some q → p = q := by
      intro q hq
      subst hq
      obtain ⟨-, y', rfl, -, -⟩ := h.snapshot.of_some
      obtain ⟨-, hp, -⟩ := hkept y' rfl
      exact (Option.some.inj hp).symm
    obtain ⟨w2, hitem, h2⟩ := onItem_fills h1 fun t => hfn y t
    refine .inr ⟨hyes, p, ?_⟩
    by_cases hrc : rc = .none
    · obtain ⟨w3, hsucceed, h3⟩ := succeed_single h2 (some rc)
      refine ⟨w3, ?_, h3, hsame⟩
      rw [easyCompAccess, Prog.bind_of_ok htarget]
      simp only
      rw [Prog.bind_of_ok hitem, if_pos hrc, Prog.bind_of_ok hsucceed, gotten, if_pos hrc]
      rfl
    · refine ⟨w2, ?_, h2, hsame⟩
      rw [easyCompAccess, Prog.bind_of_ok htarget]
      simp only
      rw [Prog.bind_of_ok hitem, if_neg hrc, gotten, if_neg hrc]
      rfl

/-! ### The diff -/

theorem easyCompDiff_none {fnInt : ItemFn α} {diffInt : α → α → α → ThreadM (SgError × α)}
    {r : Access} {now' : Option Ptr} {w' : World α}
    (hrun : easyCompAccess info fnInt none w = .ok ((r, now'), w')) (diff : Option Ptr) :
    easyCompDiff info fnInt diffInt none diff w = .ok ((r, now', diff), w') := by
  rw [easyCompDiff, Prog.bind_of_ok hrun]
  rfl

/-- A diff against the item `last`: it is refused its vector, its read fails, or it delivers the
difference. -/
theorem easyCompDiff_run (hfit : Fits 1 0 info) {fnInt : ItemFn α} {rc : SgError} {x last : α}
    {diffInt : α → α → α → ThreadM (SgError × α)} {minus : α → α → α}
    (hfn : ∀ y t, ∃ t', fnInt y t = .ok ((rc, x), t'))
    (hminus : ∀ tgt now last t, diffInt tgt now last t = .ok ((.none, minus now last), t))
    {n : Ptr} (h : Caches w (some n) diff (some last) b) :
    (¬ Granted diff (w.mem 0) ∧ ∃ w',
      easyCompDiff info fnInt diffInt (some n) diff w = .ok ((.failed none, some n, none), w') ∧
      Caches w' (some n) none (some last) none) ∨
    (Granted diff (w.mem 0) ∧ rc ≠ .none ∧ ∃ d y w',
      easyCompDiff info fnInt diffInt (some n) diff w = .ok ((.failed (some rc), some n, some d), w') ∧
      Caches w' (some n) (some d) (some x) (some y) ∧ ∀ z, b = some z → y = z) ∨
    (Granted diff (w.mem 0) ∧ rc = .none ∧ ∃ d w', easyCompDiff info fnInt diffInt (some n) diff w
        = .ok ((⟨some d, 1, true, some .none⟩, some n, some d), w') ∧
      Caches w' (some n) (some d) (some x) (some (minus x last))) := by
  rcases easyTarget_run hfit h.swap with ⟨hno, w1, htarget, h1⟩ | ⟨hyes, d, y, w1, htarget, h1, hkept, -⟩
  · refine .inl ⟨hno, w1, ?_, h1.swap⟩
    rw [easyCompDiff, Prog.bind_of_ok htarget]
    rfl
  · obtain ⟨v, last', hlast, hv, hsingle⟩ := h1.swap.snapshot.of_some
    cases hlast
    rcases easyCompAccess_run hfit hfn h1.swap with ⟨hno, -⟩ | ⟨-, p, w2, hget, h2, hp⟩
    · exact absurd (.inl (Option.some_ne_none n)) hno
    obtain rfl : p = n := hp n rfl
    have hreach : easyCompDiff info fnInt diffInt (some p) diff w
        = (do
          if (gotten rc (some p) [x]).ok then
            let v ← deref p
            let rc' ← onItem d 0 fun tgt => diffInt tgt (v.cells 0) last
            if rc' = .none then
              let result ← succeed (some d) (gotten rc (some p) [x]).read
              return (result, some p, some d)
            else return (.failed (gotten rc (some p) [x]).read, some p, some d)
          else return (.failed (gotten rc (some p) [x]).read, some p, some d) :
            VecM α (Access × Option Ptr × Option Ptr)) w2 := by
      rw [easyCompDiff, Prog.bind_of_ok htarget]
      simp only
      rw [Prog.bind_of_ok (deref_run hv), Prog.bind_of_ok (touch_run (hsingle.inBlock w1)),
        Prog.bind_of_ok hget, hsingle.item]
    by_cases hrc : rc = .none
    · obtain ⟨u, x', hx, hu, husingle⟩ := h2.snapshot.of_some
      cases hx
      obtain ⟨w3, hitem, h3⟩ := @onItem_fills _ _ _ _ _ _ _ (fun tgt => diffInt tgt x last) _ h2.swap
        fun t => ⟨t, hminus y x last t⟩
      obtain ⟨w4, hsucceed, h4⟩ := succeed_single h3 (some rc)
      refine .inr (.inr ⟨hyes, hrc, d, w4, ?_, h4.swap⟩)
      subst hrc
      rw [hreach, gotten, if_pos rfl, if_pos rfl, Prog.bind_of_ok (deref_run hu), husingle.item,
        Prog.bind_of_ok hitem, if_pos rfl, Prog.bind_of_ok hsucceed]
      rfl
    · refine .inr (.inl ⟨hyes, hrc, d, y, w2, ?_, h2, fun z hz => (hkept z hz).2.2⟩)
      rw [hreach, gotten, if_neg hrc]
      rfl

end

end Statgrab
