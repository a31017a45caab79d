import Statgrab.Vector.Handover

/-!
# Cloning

The copy loop of `sg_vector_clone_into_int` and the functions around it. What the loop needs of an
item type is `LawfulCopy`: a copy either makes the target equal to the source and leaves the error
alone, or returns an error that it has also set. A copy fails only where an allocation does.
-/

namespace Statgrab

open Function (update)

variable {α : Type}

/-- The contract of a `copy_fn`. -/
def LawfulCopy (copy : α → α → ThreadM (SgError × α)) : Prop :=
  ∀ s d t,
    (∃ t', copy s d t = .ok ((.none, s), t') ∧ t'.glob = t.glob ∧ (t.Plenty → t'.Plenty)) ∨
    (∃ rc d' t', copy s d t = .ok ((rc, d'), t') ∧ rc ≠ .none ∧ t'.error = rc ∧ ¬ t.Plenty)

/-- The item type has a `copy_fn` that meets the contract. -/
def VectorInitInfo.Copies (info : VectorInitInfo α) : Prop :=
  ∃ copy, info.copyFn = some (keepSource copy) ∧ LawfulCopy copy

theorem World.inBlock_of_unbounded {w : World α} (hw : w.bounded = false) (v : SgVector α) (n : Nat) :
    w.InBlock v n := by
  intro h
  simp [hw] at h

theorem World.InBlock.mono {w : World α} {v : SgVector α} {m n : Nat} (h : w.InBlock v n)
    (hle : m ≤ n) : w.InBlock v m := fun hb => le_trans hle (h hb)

/-! ### The copy loop -/

/-- The target of the copy loop after `fuel` items from index `i`. -/
def SgVector.copied (d s : SgVector α) (i fuel : Nat) : SgVector α :=
  { d with cells := fun j => if i ≤ j ∧ j < i + fuel then s.cells j else d.cells j }

@[simp] theorem copied_usedCount (d s : SgVector α) (i fuel : Nat) :
    (d.copied s i fuel).usedCount = d.usedCount := rfl
@[simp] theorem copied_allocCount (d s : SgVector α) (i fuel : Nat) :
    (d.copied s i fuel).allocCount = d.allocCount := rfl
@[simp] theorem copied_blockShift (d s : SgVector α) (i fuel : Nat) :
    (d.copied s i fuel).blockShift = d.blockShift := rfl
@[simp] theorem copied_info (d s : SgVector α) (i fuel : Nat) :
    (d.copied s i fuel).info = d.info := rfl
@[simp] theorem copied_slots (d s : SgVector α) (i fuel : Nat) :
    (d.copied s i fuel).slots = d.slots := rfl

theorem copied_zero (d s : SgVector α) (i : Nat) : d.copied s i 0 = d := by
  unfold SgVector.copied
  congr 1
  funext j
  rw [if_neg (by omega)]

theorem copied_succ (d s : SgVector α) (i fuel : Nat) :
    ({ d with cells := update d.cells i (s.cells i) } : SgVector α).copied s (i + 1) fuel
      = d.copied s i (fuel + 1) := by
  unfold SgVector.copied
  congr 1
  funext j
  by_cases hj : j = i
  · subst j
    simp
  · simp only [Function.update_of_ne hj]
    by_cases h : i + 1 ≤ j ∧ j < i + 1 + fuel
    · rw [if_pos h, if_pos (by omega)]
    · rw [if_neg h, if_neg (by omega)]

/-- What one copy does to the world: the thread moves on and the target gets new cells. -/
def World.recopy (w : World α) (t : Thread) (dest : Ptr) (d : SgVector α) : World α :=
  { w with toThread := t, store := update w.store dest (some d) }

@[simp] theorem recopy_store (w : World α) (t : Thread) (dest : Ptr) (d : SgVector α) :
    (w.recopy t dest d).store = update w.store dest (some d) := rfl
@[simp] theorem recopy_toThread (w : World α) (t : Thread) (dest : Ptr) (d : SgVector α) :
    (w.recopy t dest d).toThread = t := rfl
@[simp] theorem recopy_next (w : World α) (t : Thread) (dest : Ptr) (d : SgVector α) :
    (w.recopy t dest d).next = w.next := rfl
@[simp] theorem recopy_raw (w : World α) (t : Thread) (dest : Ptr) (d : SgVector α) :
    (w.recopy t dest d).raw = w.raw := rfl
@[simp] theorem recopy_bounded (w : World α) (t : Thread) (dest : Ptr) (d : SgVector α) :
    (w.recopy t dest d).bounded = w.bounded := rfl
@[simp] theorem recopy_frees (w : World α) (t : Thread) (dest : Ptr) (d : SgVector α) :
    (w.recopy t dest d).frees = w.frees := rfl

theorem recopy_recopy (w : World α) (t t' : Thread) (dest : Ptr) (d d' : SgVector α) :
    (w.recopy t dest d).recopy t' dest d' = w.recopy t' dest d' := by
  simp [World.recopy]

theorem recopy_self {w : World α} {dest : Ptr} {d : SgVector α} (hd : w.store dest = some d) :
    w.recopy w.toThread dest d = w := by
  unfold World.recopy
  rw [← hd, Function.update_eq_self]

theorem World.Handover.recopy {w w' : World α} {a : Option Ptr} {q : Ptr}
    (h : w.Handover w' a (some q)) (t : Thread) (v : SgVector α) :
    w.Handover (w'.recopy t q v) a (some q) :=
  (h.put v).thread t

theorem copyItems_call {copy : α → α → ThreadM (SgError × α × α)} {w : World α} {src dest : Ptr}
    {s d : SgVector α} {i fuel : Nat} {rc : SgError} {x y : α} {t : Thread}
    (hfn : s.info.copyFn = some copy) (hs : w.store src = some s) (hd : w.store dest = some d)
    (hbs : w.InBlock s (i + 1)) (hbd : w.InBlock d (i + 1))
    (hcopy : copy (s.cells i) (d.cells i) w.toThread = .ok ((rc, x, y), t)) :
    copyItems src dest (fuel + 1) i w
      = (if rc = .none then copyItems src dest fuel (i + 1) else pure rc)
          ((({ w with toThread := t } : World α).put src { s with cells := update s.cells i x }).put dest
            { d with cells := update d.cells i y }) := by
  rw [copyItems, Prog.bind_of_ok (deref_run hs), Prog.bind_of_ok (deref_run hd),
    Prog.bind_of_ok (touch_run hbs), Prog.bind_of_ok (touch_run hbd), hfn]
  simp only
  rw [Prog.bind_of_ok (onThread_run hcopy), Prog.bind_of_ok (Prog.modify_run _ _),
    Prog.bind_of_ok (Prog.modify_run _ _)]

/-- One round with a copy function that writes to the target only. -/
theorem copyItems_step {copy : α → α → ThreadM (SgError × α)} {w : World α} {src dest : Ptr}
    {s d : SgVector α} {i fuel : Nat} {rc : SgError} {x : α} {t : Thread}
    (hfn : s.info.copyFn = some (keepSource copy)) (hs : w.store src = some s)
    (hd : w.store dest = some d) (hbs : w.InBlock s (i + 1)) (hbd : w.InBlock d (i + 1))
    (hcopy : copy (s.cells i) (d.cells i) w.toThread = .ok ((rc, x), t)) :
    copyItems src dest (fuel + 1) i w
      = (if rc = .none then copyItems src dest fuel (i + 1) else pure rc)
          (w.recopy t dest { d with cells := update d.cells i x }) := by
  have hkeep : keepSource copy (s.cells i) (d.cells i) w.toThread = .ok ((rc, s.cells i, x), t) := by
    rw [keepSource, Prog.bind_of_ok hcopy]
    rfl
  -- writing the source item back as it was changes nothing
  have hput : ({ w with toThread := t } : World α).put src
      { s with cells := update s.cells i (s.cells i) } = { w with toThread := t } := by
    unfold World.put
    rw [Function.update_eq_self, ← hs, Function.update_eq_self]
  rw [copyItems_call hfn hs hd hbs hbd hkeep, hput]
  rfl

/-- The loop copies all items, or stops at a copy that failed and left its code as the error. -/
theorem copyItems_run {src dest : Ptr} {s : SgVector α} (hcopies : s.info.Copies) :
    ∀ (fuel i : Nat) (w : World α) (d : SgVector α), w.store src = some s →
      w.store dest = some d → w.InBlock s (i + fuel) → w.InBlock d (i + fuel) →
      (∃ t, copyItems src dest fuel i w = .ok (.none, w.recopy t dest (d.copied s i fuel)) ∧
        t.glob = w.glob ∧ (w.Plenty → t.Plenty)) ∨
      (∃ rc t cells, copyItems src dest fuel i w
          = .ok (rc, w.recopy t dest { d with cells := cells }) ∧
        rc ≠ .none ∧ t.error = rc ∧ ¬ w.Plenty) := by
  obtain ⟨copy, hfn, hlaw⟩ := hcopies
  intro fuel
  induction fuel with
  | zero =>
      intro i w d hs hd _ _
      refine .inl ⟨w.toThread, ?_, rfl, id⟩
      rw [copied_zero, recopy_self hd]
      rfl
  | succ fuel ih =>
      intro i w d hs hd hbs hbd
      have hbs1 : w.InBlock s (i + 1) := hbs.mono (by omega)
      have hbd1 : w.InBlock d (i + 1) := hbd.mono (by omega)
      rcases hlaw (s.cells i) (d.cells i) w.toThread with
        ⟨t, hcopy, hglob, hplenty⟩ | ⟨rc, x, t, hcopy, hrc, herr, hnot⟩
      · rw [copyItems_step hfn hs hd hbs1 hbd1 hcopy, if_pos rfl]
        -- when the target is the source itself, the copied cell is already there
        have hs' : (w.recopy t dest { d with cells := update d.cells i (s.cells i) }).store src
            = some s := by
          by_cases hsd : src = dest
          · subst hsd
            rw [hs] at hd
            cases hd
            simp
          · simp [hsd, hs]
        have hd' : (w.recopy t dest { d with cells := update d.cells i (s.cells i) }).store dest
            = some { d with cells := update d.cells i (s.cells i) } := by simp
        rcases ih (i + 1) _ _ hs' hd' (fun hb => by have := hbs hb; omega)
            (fun hb => by have := hbd hb; simp only; omega) with
          ⟨t', hrun, hglob', hplenty'⟩ | ⟨rc, t', cells, hrun, hrc, herr, hnot⟩
        · refine .inl ⟨t', ?_, ?_, fun h => hplenty' (hplenty h)⟩
          · rw [hrun, recopy_recopy, copied_succ]
          · rw [hglob', recopy_toThread, hglob]
        · refine .inr ⟨rc, t', cells, ?_, hrc, herr, fun h => hnot (hplenty h)⟩
          rw [hrun, recopy_recopy]
      · refine .inr ⟨rc, t, update d.cells i x, ?_, hrc, herr, hnot⟩
        rw [copyItems_step hfn hs hd hbs1 hbd1 hcopy, if_neg hrc]
        rfl

theorem copied_items {d s : SgVector α} (h : d.usedCount = s.usedCount) :
    (d.copied s 0 s.usedCount).items = s.items := by
  unfold SgVector.items
  rw [copied_usedCount, h]
  apply List.map_congr_left
  intro j hj
  have hlt := List.mem_range.mp hj
  simp [SgVector.copied, hlt]

/-! ### Cloning into a vector -/

/-- The vector at `q` is `v` with the items of `s` copied into it, and the variable that was `old`
holds it. -/
structure World.CopyOf (w w' : World α) (old : Option Ptr) (q : Ptr) (s v : SgVector α) : Prop where
  handover : w.Handover w' old (some q)
  store : w'.store q = some (v.copied s 0 s.usedCount)
  used : v.usedCount = s.usedCount
  glob : w'.glob = w.glob
  plenty : w.Plenty → w'.Plenty

/-- The vector `v` is `d` made ready for `n` items. -/
def SgVector.SizedFor (d v : SgVector α) (n : Nat) : Prop :=
  (v = d ∧ d.usedCount = n) ∨ (d.usedCount ≠ n ∧ n ≠ 0 ∧ d.ResizedTo v n)

theorem SgVector.SizedFor.usedCount {d v : SgVector α} {n : Nat} (h : d.SizedFor v n) :
    v.usedCount = n := by
  rcases h with ⟨rfl, hused⟩ | ⟨-, -, hres⟩
  · exact hused
  · exact hres.usedCount

/-- What `sg_vector_clone_into_int` relies on when it makes `d` ready for the items of `s`: the
counts agree, or there are items to copy and the resize finds room for them. -/
def World.ResizeSafe (w : World α) (d : SgVector α) (n : Nat) : Prop :=
  d.usedCount = n ∨ (n ≠ 0 ∧ if roundUp n d.blockShift = d.allocCount then w.InBlock d n
    else w.mem 0 = true)

theorem cloneTarget_run {w : World α} {dest : Ptr} {d : SgVector α} {n : Nat} (hf : w.Fresh)
    (hd : w.store dest = some d) (hb : w.InBlock d d.usedCount)
    (hfit : d.usedCount ≠ n → Fits n d.blockShift d.info) (hsafe : w.ResizeSafe d n) :
    ∃ q w' v, cloneTarget dest d.usedCount n w = .ok (some q, w') ∧
      w.Handover w' (some dest) (some q) ∧ w'.store q = some v ∧ d.SizedFor v n ∧ w.InBlock v n ∧ w'.glob = w.glob ∧ (w.Plenty → w'.Plenty) := by
  by_cases hused : d.usedCount = n
  · refine ⟨dest, w, d, ?_, .own (hf.lt hd), hd, .inl ⟨rfl, hused⟩, hused ▸ hb, rfl, id⟩
    rw [cloneTarget, if_pos hused]
    rfl
  · rcases hsafe with heq | ⟨hn, hroom⟩
    · exact absurd heq hused
    · obtain ⟨q, w', v, hrun, hand, hq, hres, hglob, hplenty⟩ :=
        sgVectorResize_run hf hn hd hb (hfit hused) (fun h => by rwa [if_pos h] at hroom)
          (fun h => by rwa [if_neg h] at hroom)
      refine ⟨q, w', v, ?_, hand, hq, .inr ⟨hused, hn, hres⟩, ?_, hglob, hplenty⟩
      · rw [cloneTarget, if_neg hused, hrun]
      · intro hbd
        rw [hres.slots]
        by_cases h : roundUp n d.blockShift = d.allocCount
        · rw [if_pos h] at hroom ⊢
          exact hroom hbd
        · rw [if_neg h]
          exact le_roundUp n d.blockShift

theorem sgVectorCloneIntoInt_run {w : World α} {dest src : Ptr} {d s : SgVector α} (hf : w.Fresh)
    (hd : w.store dest = some d) (hs : w.store src = some s) (hcopies : s.info.Copies)
    (hbd : w.InBlock d d.usedCount) (hbs : w.InBlock s s.usedCount)
    (hfit : d.usedCount ≠ s.usedCount → Fits s.usedCount d.blockShift d.info)
    (hsafe : w.ResizeSafe d s.usedCount) :
    (∃ q w' v, sgVectorCloneIntoInt dest src w = .ok ((.none, some q), w') ∧
      w.CopyOf w' (some dest) q s v ∧ d.SizedFor v s.usedCount ∧ w.InBlock v s.usedCount) ∨
    (∃ rc w', sgVectorCloneIntoInt dest src w = .ok ((rc, none), w') ∧
      w.Failed w' (some dest) rc) := by
  obtain ⟨q, w1, v, htmp, hand, hq, hsized, hroom, hglob, hplenty⟩ :=
    cloneTarget_run hf hd hbd hfit hsafe
  have hs1 : w1.store src = some s := by
    by_cases hsd : src = dest
    · -- the target is the source itself, so nothing was resized
      subst hsd
      rw [hs] at hd
      cases hd
      rw [cloneTarget, if_pos rfl] at htmp
      cases htmp
      exact hs
    · exact hand.live hf hs (fun h => hsd (Option.some.inj h).symm)
  have hbs1 : w1.InBlock s (0 + s.usedCount) := by
    rw [Nat.zero_add]
    exact fun hb => hbs (hand.bounded ▸ hb)
  have hbv : w1.InBlock v (0 + s.usedCount) := by
    rw [Nat.zero_add]
    exact fun hb => hroom (hand.bounded ▸ hb)
  rw [sgVectorCloneIntoInt, Prog.bind_of_ok (deref_run hd), Prog.bind_of_ok (deref_run hs),
    Prog.bind_of_ok htmp]
  simp only
  rcases copyItems_run hcopies s.usedCount 0 w1 v hs1 hq hbs1 hbv with
    ⟨t, hrun, hglob', hplenty'⟩ | ⟨rc, t, cells, hrun, hrc, herr, hnot⟩
  · refine .inl ⟨q, _, v, ?_, ⟨hand.recopy t _, Function.update_self _ _ _,
      hsized.usedCount, hglob'.trans hglob, fun h => hplenty' (hplenty h)⟩, hsized, hroom⟩
    rw [Prog.bind_of_ok hrun]
    rfl
  · have hfree := sgVectorFree_run (w := w1.recopy t q { v with cells := cells }) (p := q)
      (v := { v with cells := cells }) (by simp) (by
        intro hb
        have := hbv hb
        simp only [hsized.usedCount]
        omega)
    refine .inr ⟨rc, _, ?_, ⟨((hand.recopy t { v with cells := cells }).shrink
      { v with cells := cells } 0).drop, hrc, herr, fun h => hnot (hplenty h)⟩⟩
    rw [Prog.bind_of_ok hrun, if_neg hrc, Prog.bind_of_ok hfree]
    rfl

theorem sgVectorClone_run {w : World α} {src : Ptr} {s : SgVector α} (hf : w.Fresh)
    (hs : w.store src = some s) (hcopies : s.info.Copies) (hbs : w.InBlock s s.usedCount)
    (hfit : Fits (max s.allocCount s.usedCount) s.blockShift s.info) :
    (∃ q w' v, sgVectorClone (some src) w = .ok (some q, w') ∧ w.CopyOf w' none q s v ∧
      v.CreatedFor s.blockShift (max s.allocCount s.usedCount) s.usedCount s.info) ∨
    (∃ rc w', sgVectorClone (some src) w = .ok (none, w') ∧ w.Failed w' none rc) := by
  rw [sgVectorClone]
  rw [Prog.bind_of_ok (deref_run hs)]
  cases hmem : w.mem 0 with
  | false =>
      obtain ⟨w', hcreate, hfail⟩ := sgVectorCreateInt_failed (w := w) hfit hmem
      refine .inr ⟨.malloc, w', ?_, hfail⟩
      rw [Prog.bind_of_ok hcreate]
      rfl
  | true =>
      obtain ⟨w1, d, hcreate, hand, hd, hfor, hglob, hplenty⟩ :=
        sgVectorCreateInt_created (w := w) hfit hmem
      have hs1 : w1.store src = some s := hand.live hf hs (by simp)
      have hbd : w1.InBlock d d.usedCount := by
        intro _
        rw [hfor.slots, hfor.usedCount]
        exact le_trans (le_max_right _ _) (le_roundUp _ _)
      have hsame : d.usedCount = s.usedCount := hfor.usedCount
      rw [Prog.bind_of_ok hcreate]
      simp only
      rcases sgVectorCloneIntoInt_run (hand.fresh hf) hd hs1 hcopies hbd
          (fun hb => hbs (hand.bounded ▸ hb)) (fun hne => absurd hsame hne) (.inl hsame) with
        ⟨q, w', v, hrun, hcopy, hsized, -⟩ | ⟨rc, w', hrun, hfail⟩
      · rcases hsized with ⟨rfl, -⟩ | ⟨hne, -⟩
        · refine .inl ⟨q, w', v, ?_, ⟨hand.trans hcopy.handover, hcopy.store, hcopy.used,
            hcopy.glob.trans hglob, fun h => hcopy.plenty (hplenty h)⟩, hfor⟩
          rw [Prog.bind_of_ok hrun]
          rfl
        · exact absurd hsame hne
      · refine .inr ⟨rc, w', ?_, hfail.of_handover hand hplenty⟩
        rw [Prog.bind_of_ok hrun]
        simp only [if_neg hfail.code]
        rfl

end Statgrab
