import Statgrab.Access.Refusals

/-!
# Reads with memory

The loop of the readers where every request for memory is granted. The number of items is bounded by the
bytes of a block only, which are a `size_t`: the vector that grows keeps the block shift it has, and a
vector that is made on the way is made for one item.
-/

namespace Statgrab

variable {α : Type} {info : VectorInitInfo α} {w : World α} {x : Option Ptr} {items : List α} {m n : Nat}

theorem roundUp_mono (h : m ≤ n) (bs : Nat) : roundUp m bs ≤ roundUp n bs := by
  rcases Nat.eq_zero_or_pos m with rfl | hm
  · simp
  · rw [roundUp_of_pos hm, roundUp_of_pos (lt_of_lt_of_le hm h)]
    apply Nat.mul_le_mul_right
    have hdiv : (m - 1) / 2 ^ bs ≤ (n - 1) / 2 ^ bs := Nat.div_le_div_right (by omega)
    omega

theorem Fits.mono {blockShift : Nat} (h : Fits n blockShift info) (hle : m ≤ n) : Fits m blockShift info := by
  refine ⟨h.shift, h.item, ?_⟩
  have hmul := Nat.mul_le_mul_right info.itemSize (roundUp_mono hle blockShift)
  have hbytes := h.bytes
  omega

/-- The variable is NULL, or holds a vector with room that has these items, and the bytes of a block for
`n` items are a `size_t`. -/
def World.Takes (w : World α) (info : VectorInitInfo α) (x : Option Ptr) (items : List α) (n : Nat) : Prop :=
  match x with
  | none => items = [] ∧ Fits n 0 info
  | some p => ∃ v, w.store p = some v ∧ v.info = info ∧ v.slots ≠ 0 ∧ v.items = items ∧
      Fits n v.blockShift info

theorem World.Takes.itemsAt (h : w.Takes info x items n) : w.itemsAt x = items := by
  cases x with
  | none => exact h.1.symm
  | some p =>
      obtain ⟨v, hv, -, -, hitems, -⟩ := h
      exact (itemsAt_some hv).trans hitems

/-- How `VECTOR_UPDATE` leaves the variable where it asks for `m` items. -/
structure Widened (w w' : World α) (info : VectorInitInfo α) (x : Option Ptr) (items : List α) (m n : Nat)
    (q : Ptr) (v : SgVector α) : Prop where
  step : w.Step w' x
  kept : x = some q ∨ w.next ≤ q
  plenty : w'.Plenty
  store : w'.store q = some v
  backed : v.Backed
  kind : v.info = info
  used : v.usedCount = m
  items : v.items.take items.length = items
  fits : Fits n v.blockShift info

theorem vectorCreate_widened (hinfo : info.Full) (hw : w.Sound) (hfits : Fits n 0 info) (hn : 1 ≤ n) :
    ∃ w' v, vectorCreateOrResize info none 1 w = .ok (some w.next, w') ∧
      Widened w w' info none [] 1 n w.next v := by
  have hshift : blockShiftOf 1 = some 0 := rfl
  obtain ⟨w', v, hrun, hand, hv, hfor, -, hplenty⟩ :=
    sgVectorCreateInt_created (w := w) (hfits.mono hn : Fits (max 1 1) 0 info) (hw.plenty 0)
  have hback : v.Backed := hfor.backed le_rfl hinfo
  refine ⟨w', v, ?_, hand.created_step hw.tidy hv hback, .inr le_rfl, hplenty hw.plenty, hv, hback,
    hfor.info, hfor.usedCount, rfl, ?_⟩
  · rw [vectorCreateOrResize, sgVectorCreate, hshift]
    exact hrun
  · rw [hfor.blockShift]
    exact hfits

theorem vectorResize_widened {p : Ptr} (hw : w.Sound) (hx : w.Takes info (some p) items n)
    (hm : items.length ≤ m) (hpos : m ≠ 0) (hle : m ≤ n) :
    ∃ q w' v, vectorCreateOrResize info (some p) m w = .ok (some q, w') ∧
      Widened w w' info (some p) items m n q v := by
  obtain ⟨v, hv, hinfo, hslots, rfl, hfits⟩ := hx
  rw [items_length] at hm
  have hback := hw.backed p v hv
  have hbad : ¬ v.Unbacked m := fun h => hslots h.1
  have hfit : Fits m v.blockShift v.info := hinfo ▸ hfits.mono hle
  obtain ⟨q, w', v', hrun, hand, hq, hres, -, hplenty⟩ :=
    sgVectorResize_run hw.fresh hpos hv (hw.tidy.inBlock hv) hfit
      (fun hround _ => hback.room hpos hbad hround) fun _ => hw.plenty 0
  have hback' : v'.Backed := hres.backed hback hpos hbad
  refine ⟨q, w', v', hrun, hand.step hw.tidy ?_, (hand.kept q rfl).2, hplenty hw.plenty, hq, hback',
    hres.info.trans hinfo, hres.usedCount, ?_, ?_⟩
  · intro r u hr hu
    cases hr
    rw [hq] at hu
    cases hu
    exact hback'
  · rw [items_length]
    exact hres.items hm
  · rw [hres.blockShift]
    exact hfits

theorem vectorUpdate_widened (hinfo : info.Full) (hw : w.Sound) (hx : w.Takes info x items n)
    (hle : items.length + 1 ≤ n) :
    ∃ q w' v, vectorCreateOrResize info x (items.length + 1) w = .ok (some q, w') ∧
      Widened w w' info x items (items.length + 1) n q v := by
  cases x with
  | none =>
      obtain ⟨rfl, hfits⟩ := hx
      obtain ⟨w', v, hrun, hwide⟩ := vectorCreate_widened hinfo hw hfits hle
      exact ⟨w.next, w', v, hrun, hwide⟩
  | some p => exact vectorResize_widened hw hx (Nat.le_succ _) (Nat.succ_ne_zero _) hle

/-- What a read that succeeds does with the variable it is given. -/
structure World.Filled (w w' : World α) (info : VectorInitInfo α) (x x' : Option Ptr) (items : List α)
    (n : Nat) : Prop where
  step : w.Step w' x
  kept : ∀ q, x' = some q → x = some q ∨ w.next ≤ q
  plenty : w'.Plenty
  takes : w'.Takes info x' items n

/-- The loop of the readers: one item for each entry, in order. -/
theorem fillItems_widened {β : Type} {fill : β → ItemFn α} {spec : β → α → Prop} (hinfo : info.Full)
    (hfill : ∀ b, LawfulFill (fill b) (spec b)) (bs : List β) (hw : w.Sound)
    (hx : w.Takes info x items n) (hle : items.length + bs.length ≤ n) :
    ∃ x' new w', fillItems info fill bs items.length x w = .ok ((.none, x'), w') ∧
      w.Filled w' info x x' (items ++ new) n ∧ List.Forall₂ spec bs new := by
  induction bs generalizing x items w with
  | nil =>
      refine ⟨x, [], w, rfl, ⟨.refl hw.tidy x, fun q hq => .inl hq, hw.plenty, ?_⟩, .nil⟩
      rwa [List.append_nil]
  | cons b bs ih =>
      rw [List.length_cons] at hle
      obtain ⟨q, w1, v, hrun, h⟩ := vectorUpdate_widened hinfo hw hx (by omega)
      obtain ⟨rc, y, t, hfn, -, hgood⟩ := hfill b (v.cells items.length) w1.toThread
      obtain ⟨rfl, hspec, ht⟩ := hgood h.plenty
      have hroom : w1.InBlock v (items.length + 1) := by
        have hblock := h.step.tidy.inBlock h.store
        rwa [h.used] at hblock
      have hback : (v.setCell items.length y).Backed := ⟨h.backed.within, h.backed.record, h.backed.full⟩
      have hslots : v.slots ≠ 0 := by
        have hwithin := h.backed.within
        have hused := h.used
        omega
      have hstep := h.step.tidy.recopy h.store hback t
      have hlen : (items ++ [y]).length = items.length + 1 := by simp
      obtain ⟨x', new, w', hrest, hfilled, hnew⟩ := @ih (w1.recopy t q (v.setCell items.length y)) (some q)
        (items ++ [y]) (hstep.tidy.sound ht)
        ⟨_, Function.update_self _ _ _, h.kind, hslots, setCell_last_items y h.used h.items, h.fits⟩
        (by rw [hlen]; omega)
      refine ⟨x', y :: new, w', ?_, ⟨?_, ?_, hfilled.plenty, ?_⟩, .cons hspec hnew⟩
      · rw [fillItems_cons, Prog.bind_of_ok hrun]
        simp only
        rw [Prog.bind_of_ok (onItem_run h.store hroom hfn), if_pos rfl, ← hlen, hrest]
      · have hsome : w.Step (w1.recopy t q (v.setCell items.length y)) x :=
          h.step.trans hstep fun r hr => by
            cases hr
            exact h.kept
        exact hsome.trans hfilled.step fun r hr => by
          cases hr
          exact h.kept
      · intro r hr
        rcases hfilled.kept r hr with hold | hnew
        · cases hold
          exact h.kept
        · exact .inr (le_trans (le_trans h.step.mono hstep.mono) hnew)
      · have htakes := hfilled.takes
        rwa [List.append_assoc] at htakes

theorem fillItems_items {β : Type} {fill : β → ItemFn α} {f : β → α} (hinfo : info.Full)
    (hfill : ∀ b, LawfulFill (fill b) (fun x => x = f b)) (bs : List β) {p : Ptr} (hw : w.Sound)
    (hp : w.Takes info (some p) [] bs.length) :
    ∃ y w', fillItems info fill bs 0 (some p) w = .ok ((.none, y), w') ∧ w'.itemsAt y = bs.map f := by
  obtain ⟨y, new, w', hrun, hfilled, hnew⟩ := fillItems_widened hinfo hfill bs hw hp
    (by rw [List.length_nil, Nat.zero_add])
  refine ⟨y, w', hrun, ?_⟩
  rw [hfilled.takes.itemsAt, List.nil_append]
  exact forall₂_eq_map hnew

/-! ### Items without a copy -/

/-- The vector has these items and room for `n`, and nothing is asked of its items. -/
structure SgVector.Roomy (v : SgVector α) (info : VectorInitInfo α) (items : List α) (n : Nat) : Prop where
  kind : v.info = info
  items_eq : v.items = items
  used : v.usedCount ≤ v.slots
  alloc : v.allocCount ≤ v.slots
  fits : Fits n v.blockShift info

theorem SgVector.ResizedTo.roomy {v v' : SgVector α} (hres : v.ResizedTo v' (items.length + 1))
    (h : v.Roomy info items n) (x : α) : (v'.setCell items.length x).Roomy info (items ++ [x]) n := by
  have hold : items.length ≤ v.usedCount := by
    rw [← h.items_eq, items_length]
  have hround := le_roundUp (items.length + 1) v.blockShift
  have hkept : v'.items.take items.length = items := by
    have htake := hres.items (show v.usedCount ≤ items.length + 1 by rw [← items_length, h.items_eq]; omega)
    rw [← items_length, h.items_eq] at htake
    exact htake
  refine ⟨hres.info.trans h.kind, setCell_last_items x hres.usedCount hkept, ?_, ?_, ?_⟩
  · show v'.usedCount ≤ v'.slots
    have halloc := h.alloc
    rw [hres.usedCount, hres.slots]
    split
    · omega
    · omega
  · show v'.allocCount ≤ v'.slots
    have halloc := h.alloc
    rw [hres.allocCount, hres.slots]
    split
    · omega
    · exact le_rfl
  · show Fits n v'.blockShift info
    rw [hres.blockShift]
    exact h.fits

/-- The loop of the readers on such a vector: one item for each entry, in order. -/
theorem fillItems_roomy {β : Type} {fill : β → ItemFn α} {spec : β → α → Prop}
    (hfill : ∀ b, LawfulFill (fill b) (spec b)) (bs : List β) {p : Ptr} {v : SgVector α} (hfresh : w.Fresh)
    (hplenty : w.Plenty) (hv : w.store p = some v) (h : v.Roomy info items n)
    (hle : items.length + bs.length ≤ n) :
    ∃ q u new w', fillItems info fill bs items.length (some p) w = .ok ((.none, some q), w') ∧
      w'.store q = some u ∧ u.Roomy info (items ++ new) n ∧ List.Forall₂ spec bs new := by
  induction bs generalizing p v items w with
  | nil =>
      refine ⟨p, v, [], w, rfl, hv, ?_, .nil⟩
      rwa [List.append_nil]
  | cons b bs ih =>
      rw [List.length_cons] at hle
      have hfit : Fits (items.length + 1) v.blockShift v.info := by
        rw [h.kind]
        exact h.fits.mono (by omega)
      obtain ⟨q, w1, v1, hrun, hand, hq, hres, -, hmore⟩ :=
        sgVectorResize_run hfresh (Nat.succ_ne_zero _) hv (fun _ => h.used) hfit
          (fun hround _ => (le_roundUp _ _).trans (hround ▸ h.alloc)) fun _ => hplenty 0
      obtain ⟨rc, y, t, hfn, -, hgood⟩ := hfill b (v1.cells items.length) w1.toThread
      obtain ⟨rfl, hspec, ht⟩ := hgood (hmore hplenty)
      have hroomy := hres.roomy h y
      have hin : w1.InBlock v1 (items.length + 1) := by
        intro _
        have hused : v1.usedCount ≤ v1.slots := hroomy.used
        rwa [hres.usedCount] at hused
      have hlen : (items ++ [y]).length = items.length + 1 := by simp
      have hfresh1 : (w1.recopy t q (v1.setCell items.length y)).Fresh := by
        have hlt := (hand.kept q rfl).1
        intro r hr
        have hne : r ≠ q := Nat.ne_of_gt (Nat.lt_of_lt_of_le hlt hr)
        rw [recopy_store, Function.update_of_ne hne]
        exact hand.fresh hfresh r hr
      obtain ⟨q', u, new, w', hrest, hu, hroomy', hnew⟩ := @ih (w1.recopy t q (v1.setCell items.length y))
        (items ++ [y]) q (v1.setCell items.length y) hfresh1 ht (Function.update_self _ _ _) hroomy
        (by rw [hlen]; omega)
      refine ⟨q', u, y :: new, w', ?_, hu, ?_, .cons hspec hnew⟩
      · rw [fillItems_cons]
        show ((sgVectorResize (some p) (items.length + 1)) >>= _) w = _
        rw [Prog.bind_of_ok hrun]
        simp only
        rw [Prog.bind_of_ok (onItem_run hq hin hfn), if_pos rfl, ← hlen, hrest]
      · rwa [List.append_assoc] at hroomy'

end Statgrab
