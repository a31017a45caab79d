import Statgrab.Lib.Supply
import Statgrab.Vector.CloneInto

/-!
# The requests of `vector.c`

How many requests for memory the functions make, in terms of the records of the vectors and of the
strings in their items. A string is one request, a vector is asked for again only where its rounded count
differs from the recorded one, and a copy ends with the first refusal among the strings it copies.
-/

namespace Statgrab

variable {α : Type}

/-! ### Strings and items -/

/-- The requests a string is worth: NULL is not copied. -/
def stringRequests (src : Option CString) : Nat := src.elim 0 fun _ => 1

theorem answered_mem (t : Thread) : t.answered.mem = Supply.after t.mem 1 := by
  funext k
  exact congrArg t.mem (Nat.add_comm k 1)

theorem sgUpdateString_served (dest src : Option CString) :
    (sgUpdateString dest src).Asks Thread.mem (stringRequests src) fun r => r.1 = .none := by
  cases src with
  | none => exact .pure rfl
  | some s =>
      intro t r t' hrun
      cases hmem : t.mem 0 with
      | true =>
          rw [sgUpdateString, Prog.bind_of_ok (sgRealloc_of_mem (Nat.succ_ne_zero _) hmem)] at hrun
          cases hrun
          rw [answered_mem]
          exact .one_granted hmem rfl
      | false =>
          rw [sgUpdateString, Prog.bind_of_ok (sgRealloc_of_not_mem (Nat.succ_ne_zero _) hmem)] at hrun
          cases hrun
          show Served t.mem t.answered.mem 1 _
          rw [answered_mem]
          exact .one_refused hmem (show SgError.malloc ≠ .none by decide)

/-- A copy asks for the strings of its source, one after the other. -/
def CopyAsks (copy : α → α → ThreadM (SgError × α)) (weight : α → Nat) : Prop :=
  ∀ s d, (copy s d).Asks Thread.mem (weight s) fun r => r.1 = .none

/-- The item type has a `copy_fn` that meets its contract and makes these requests. -/
def VectorInitInfo.CopiesFor (info : VectorInitInfo α) (weight : α → Nat) : Prop :=
  ∃ copy, info.copyFn = some (keepSource copy) ∧ LawfulCopy copy ∧ CopyAsks copy weight

theorem VectorInitInfo.CopiesFor.copies {info : VectorInitInfo α} {weight : α → Nat}
    (h : info.CopiesFor weight) : info.Copies := by
  obtain ⟨copy, hfn, hlaw, -⟩ := h
  exact ⟨copy, hfn, hlaw⟩

def copyRequests (weight : α → Nat) (items : List α) : Nat := (items.map weight).sum

/-! ### Creating, resizing, copying -/

section

variable {info : VectorInitInfo α} {weight : α → Nat} {w w' : World α} {p : Ptr} {v : SgVector α} {n : Nat}

theorem sgVectorInitNew_toThread (h : sgVectorInitNew p n w = .ok ((), w')) :
    w'.toThread = w.toThread := by
  rw [sgVectorInitNew] at h
  obtain ⟨v, -, hrest⟩ := deref_bind_eq_ok h
  split at hrest
  · have hrest := touch_bind_eq_ok hrest
    cases hrest
    rfl
  · cases hrest
    rfl

theorem sgVectorCreateInt_served {blockShift allocCount initialUsed : Nat}
    (hfit : Fits (max allocCount initialUsed) blockShift info) {r : Option Ptr}
    (hrun : sgVectorCreateInt blockShift allocCount initialUsed info w = .ok (r, w')) :
    Served w.mem w'.mem 1 (r ≠ none) := by
  cases hmem : w.mem 0 with
  | false =>
      rw [sgVectorCreateInt_refused hfit.blockBytes_ne_zero hmem] at hrun
      cases hrun
      show Served w.mem w.toThread.answered.mem 1 _
      rw [answered_mem]
      exact .one_refused hmem fun hne => hne rfl
  | true =>
      rw [sgVectorCreateInt, Prog.bind_of_ok (onThread_sgRealloc_of_mem hfit.blockBytes_ne_zero hmem),
        if_pos rfl] at hrun
      obtain ⟨q, w1, hgets, hrun⟩ := Prog.bind_eq_ok.mp hrun
      cases hgets
      obtain ⟨_, w2, hplace, hrun⟩ := Prog.bind_eq_ok.mp hrun
      cases hplace
      obtain ⟨_, w3, hinit, hrest⟩ := Prog.bind_eq_ok.mp hrun
      cases hrest
      rw [congrArg Thread.mem (sgVectorInitNew_toThread hinit)]
      show Served w.mem w.toThread.answered.mem 1 _
      rw [answered_mem]
      exact .one_granted hmem (Option.some_ne_none _)

/-- The requests of a resize to `n` items: none where the rounded count is the recorded one. -/
def SgVector.resizeRequests (v : SgVector α) (n : Nat) : Nat :=
  if roundUp n v.blockShift = v.allocCount then 0 else 1

theorem sgVectorResize_served (hn : n ≠ 0) (hv : w.store p = some v) (hb : w.InBlock v v.usedCount)
    (hfit : Fits n v.blockShift v.info) {r : Option Ptr}
    (hrun : sgVectorResize (some p) n w = .ok (r, w')) :
    Served w.mem w'.mem (v.resizeRequests n) (r ≠ none) := by
  have heq := hfit.nextPower2In_eq
  by_cases hround : roundUp n v.blockShift = v.allocCount
  · rw [SgVector.resizeRequests, if_pos hround]
    simp only [sgVectorResize, if_neg hn] at hrun
    rw [Prog.bind_of_ok (sgVectorDestroyUnused_run n hv hb),
      Prog.bind_of_ok (deref_run (v := v.destroyUnused n) (by simp)),
      if_neg (by simpa [heq] using hround), Prog.bind_of_ok (Prog.pure_run _ _)] at hrun
    obtain ⟨_, w1, hinit, hrest⟩ := Prog.bind_eq_ok.mp hrun
    cases hrest
    rw [congrArg Thread.mem (sgVectorInitNew_toThread hinit)]
    exact .none (Option.some_ne_none _)
  · rw [SgVector.resizeRequests, if_neg hround]
    cases hmem : w.mem 0 with
    | false =>
        rw [sgVectorResize_abandon hn hv hb (by rwa [heq])
          (by rw [heq]; exact (roundUp_pos (Nat.pos_of_ne_zero hn) _).ne') hfit.blockBytes_ne_zero
          hmem] at hrun
        cases hrun
        show Served w.mem w.toThread.answered.mem 1 _
        rw [answered_mem]
        exact .one_refused hmem fun hne => hne rfl
    | true =>
        rw [sgVectorResize_move hn hv hb (by rwa [heq]) hfit.blockBytes_ne_zero hmem
          (by
            intro _
            simp only [SgVector.moved, hfit.slotsIn_eq]
            exact le_roundUp n v.blockShift)] at hrun
        cases hrun
        show Served w.mem w.toThread.answered.mem 1 _
        rw [answered_mem]
        exact .one_granted hmem (Option.some_ne_none _)

/-- The copy loop asks for the strings of the items it copies. -/
theorem copyItems_served {src dest : Ptr} {s : SgVector α} (hcopies : s.info.CopiesFor weight)
    (hne : src ≠ dest) :
    ∀ (fuel i : Nat) (w : World α) (d : SgVector α), w.store src = some s →
      w.store dest = some d → w.InBlock s (i + fuel) → w.InBlock d (i + fuel) →
      ∀ rc w', copyItems src dest fuel i w = .ok (rc, w') →
        Served w.mem w'.mem (copyRequests weight ((List.range' i fuel).map s.cells)) (rc = .none) := by
  obtain ⟨copy, hfn, hlaw, hasks⟩ := hcopies
  intro fuel
  induction fuel with
  | zero =>
      intro i w d _ _ _ _ rc w' hrun
      cases hrun
      exact .none rfl
  | succ fuel ih =>
      intro i w d hs hd hbs hbd rc w' hrun
      obtain ⟨rc1, x, t, hcopy⟩ : ∃ rc1 x t, copy (s.cells i) (d.cells i) w.toThread
          = .ok ((rc1, x), t) := by
        rcases hlaw (s.cells i) (d.cells i) w.toThread with ⟨t, hcopy, -⟩ | ⟨rc1, x, t, hcopy, -⟩
        · exact ⟨_, _, t, hcopy⟩
        · exact ⟨rc1, x, t, hcopy⟩
      have hserved := hasks _ _ _ _ _ hcopy
      rw [copyItems_step hfn hs hd (hbs.mono (by omega)) (hbd.mono (by omega)) hcopy] at hrun
      rw [List.range'_succ, List.map_cons, copyRequests, List.map_cons, List.sum_cons]
      by_cases hrc : rc1 = .none
      · rw [if_pos hrc] at hrun
        have hs' : (w.recopy t dest { d with cells := Function.update d.cells i x }).store src
            = some s := by rw [recopy_store, Function.update_of_ne hne, hs]
        exact hserved.trans hrc (ih (i + 1) _ _ hs' (Function.update_self _ _ _)
          (fun hb => by have := hbs hb; omega) (fun hb => by have := hbd hb; simp only; omega) rc w' hrun)
      · rw [if_neg hrc] at hrun
        cases hrun
        exact hserved.stop hrc hrc

theorem items_eq_range' (v : SgVector α) : v.items = (List.range' 0 v.usedCount).map v.cells := by
  rw [SgVector.items, List.range_eq_range']

theorem sgVectorCloneIntoInt_served {dest src q : Ptr} {d s u : SgVector α} {w1 : World α} {k : Nat}
    (hd : w.store dest = some d) (hs : w.store src = some s) (hcopies : s.info.CopiesFor weight)
    (htarget : cloneTarget dest d.usedCount s.usedCount w = .ok (some q, w1))
    (hready : Served w.mem w1.mem k True) (hs1 : w1.store src = some s) (hq : w1.store q = some u)
    (hne : src ≠ q) (hbs : w1.InBlock s s.usedCount) (hbu : w1.InBlock u s.usedCount) {rc : SgError}
    {x : Option Ptr} (hrun : sgVectorCloneIntoInt dest src w = .ok ((rc, x), w')) :
    Served w.mem w'.mem (k + copyRequests weight s.items) (x ≠ none) ∧ (rc = .none ↔ x ≠ none) := by
  rw [sgVectorCloneIntoInt, Prog.bind_of_ok (deref_run hd), Prog.bind_of_ok (deref_run hs),
    Prog.bind_of_ok htarget] at hrun
  obtain ⟨rc1, w2, hcopy, hrest⟩ := Prog.bind_eq_ok.mp hrun
  have hserved := copyItems_served hcopies hne s.usedCount 0 w1 u hs1 hq (by rwa [Nat.zero_add])
    (by rwa [Nat.zero_add]) rc1 w2 hcopy
  rw [← items_eq_range'] at hserved
  by_cases hrc : rc1 = .none
  · rw [if_pos hrc] at hrest
    cases hrest
    have hsome : some q ≠ none := Option.some_ne_none q
    exact ⟨hready.trans trivial (hserved.congr (iff_of_true hrc hsome)), iff_of_true rfl hsome⟩
  · rw [if_neg hrc] at hrest
    obtain ⟨_, w3, hfree, hrest⟩ := Prog.bind_eq_ok.mp hrest
    cases hrest
    rw [congrArg Thread.mem (sgVectorFree_toThread hfree)]
    have hnone : ¬ (none : Option Ptr) ≠ none := fun hne => hne rfl
    exact ⟨hready.trans trivial (hserved.congr (iff_of_false hrc hnone)), iff_of_false hrc hnone⟩

theorem sgVectorClone_served {src : Ptr} {s : SgVector α} (hf : w.Fresh) (hs : w.store src = some s)
    (hcopies : s.info.CopiesFor weight) (hbs : w.InBlock s s.usedCount)
    (hfit : Fits (max s.allocCount s.usedCount) s.blockShift s.info) {r : Option Ptr}
    (hrun : sgVectorClone (some src) w = .ok (r, w')) :
    Served w.mem w'.mem (1 + copyRequests weight s.items) (r ≠ none) := by
  rw [sgVectorClone, Prog.bind_of_ok (deref_run hs)] at hrun
  obtain ⟨dest, w1, hcreate, hrest⟩ := Prog.bind_eq_ok.mp hrun
  have hserved := sgVectorCreateInt_served hfit hcreate
  cases dest with
  | none =>
      cases hrest
      exact hserved.stop (fun hne => hne rfl) fun hne => hne rfl
  | some d =>
      have hmem : w.mem 0 = true := by
        have hgrants := hserved.ok_iff.mp (Option.some_ne_none d)
        exact hgrants 0 Nat.zero_lt_one
      obtain ⟨w1', u, hcreate', hand, hu, hfor, -⟩ := sgVectorCreateInt_created (w := w) hfit hmem
      rw [hcreate] at hcreate'
      cases hcreate'
      have hs1 : w1.store src = some s := hand.live hf hs (Option.some_ne_none src).symm
      have hsame : u.usedCount = s.usedCount := hfor.usedCount
      have hroom : w1.InBlock u s.usedCount := by
        intro _
        rw [hfor.slots]
        exact le_trans (le_max_right _ _) (le_roundUp _ _)
      have htarget : cloneTarget w.next u.usedCount s.usedCount w1 = .ok (some w.next, w1) := by
        rw [cloneTarget, if_pos hsame]
        rfl
      obtain ⟨⟨rc, x⟩, w2, hclone, hrest⟩ := Prog.bind_eq_ok.mp hrest
      obtain ⟨hcopied, hcode⟩ := sgVectorCloneIntoInt_served hu hs1 hcopies htarget (.none trivial) hs1 hu
        (Nat.ne_of_lt (hf.lt hs)) (fun hb => hbs (hand.bounded ▸ hb)) hroom hclone
      rw [Nat.zero_add] at hcopied
      by_cases hrc : rc = .none
      · simp only [if_pos hrc] at hrest
        cases hrest
        exact hserved.trans (Option.some_ne_none _) hcopied
      · simp only [if_neg hrc] at hrest
        obtain ⟨_, w3, hfree, hrest⟩ := Prog.bind_eq_ok.mp hrest
        cases hrest
        rw [congrArg Thread.mem (sgVectorFree_toThread hfree)]
        exact hserved.trans (Option.some_ne_none _)
          (hcopied.congr (iff_of_false (fun hx => hrc (hcode.mpr hx)) fun hne => hne rfl))

/-- The requests with which a target is made ready for `n` items. -/
def SgVector.targetRequests (v : SgVector α) (n : Nat) : Nat :=
  if v.usedCount = n then 0 else v.resizeRequests n

theorem cloneTarget_served {dest q : Ptr} {d : SgVector α} {w1 : World α} (hd : w.store dest = some d)
    (hb : w.InBlock d d.usedCount) (hn : d.usedCount ≠ n → n ≠ 0)
    (hfit : Fits n d.blockShift d.info) (hrun : cloneTarget dest d.usedCount n w = .ok (some q, w1)) :
    Served w.mem w1.mem (d.targetRequests n) True := by
  rw [cloneTarget] at hrun
  rw [SgVector.targetRequests]
  by_cases hused : d.usedCount = n
  · rw [if_pos hused] at hrun ⊢
    cases hrun
    exact .none trivial
  · rw [if_neg hused] at hrun ⊢
    exact (sgVectorResize_served (hn hused) hd hb hfit hrun).congr
      (iff_of_true (Option.some_ne_none q) trivial)

end

end Statgrab
