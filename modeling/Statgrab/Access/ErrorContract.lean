import Statgrab.Access.Single

/-!
# The error an accessor leaves

The error is the thread's, and every helper on the way out may set it or clear it. What a caller may
rely on is `Reports`: an error where the `fn_int` of the call has failed, none where the call succeeded.

Between the return of a failed `fn_int` and the return of the accessor nothing touches the error but the
difference of `MULTI_COMP_DIFF`. So the other accessors report what they should exactly if their `fn_int`
leaves an error together with its code.
-/

namespace Statgrab

variable {α : Type}

/-- What a call that returned owes its caller. -/
structure Reports (result : Access) (w' : World α) : Prop where
  failed : ∀ rc, result.read = some rc → rc ≠ .none → w'.error ≠ .none
  succeeded : result.ok = true → w'.error = .none

/-- Where `fn` fails on what `target` hands it, it leaves an error. -/
def LeavesError (target : VecM α (Option Ptr)) (fn : Ptr → VecM α SgError) (w : World α) : Prop :=
  ∀ p w1 rc w2, target w = .ok (some p, w1) → fn p w1 = .ok (rc, w2) → rc ≠ .none → w2.error ≠ .none

/-- A call that returned did not come to its `fn_int`, or it has left the error of a failed one alone. -/
inductive Exits (target : VecM α (Option Ptr)) (fn : Ptr → VecM α SgError) (w : World α)
    (result : Access) (w' : World α) : Prop where
  | before (htarget : ∀ p w1, target w ≠ .ok (some p, w1)) (hread : result.read = none)
      (hok : result.ok = false)
  | after {p : Ptr} {w1 w2 : World α} {rc : SgError} (htarget : target w = .ok (some p, w1))
      (hfn : fn p w1 = .ok (rc, w2)) (hread : result.read = some rc)
      (herror : rc ≠ .none → result.ok = false ∧ w'.error = w2.error)
      (hok : result.ok = true → w'.error = .none)

theorem Reports.refused (w' : World α) : Reports (.failed none) w' := by
  refine ⟨?_, fun hok => absurd hok failed_ne_ok⟩
  intro rc hrc
  cases hrc

theorem Reports.failed_of {w' : World α} {read : Option SgError} (herror : w'.error ≠ .none) :
    Reports (.failed read) w' :=
  ⟨fun _ _ _ => herror, fun hok => absurd hok failed_ne_ok⟩

theorem Exits.refused {target : VecM α (Option Ptr)} {fn : Ptr → VecM α SgError} {w w1 w' : World α}
    (htarget : target w = .ok (none, w1)) : Exits target fn w (.failed none) w' := by
  refine .before ?_ rfl rfl
  intro p w2 hsome
  rw [htarget] at hsome
  cases hsome

/-- The error exit after a failed `fn_int`. -/
theorem Exits.failed {target : VecM α (Option Ptr)} {fn : Ptr → VecM α SgError}
    {w w1 w2 w' : World α} {p : Ptr} {rc : SgError} (htarget : target w = .ok (some p, w1))
    (hfn : fn p w1 = .ok (rc, w2)) (herror : w'.error = w2.error) :
    Exits target fn w (.failed (some rc)) w' :=
  .after htarget hfn rfl (fun _ => ⟨rfl, herror⟩) fun hok => absurd hok failed_ne_ok

theorem Exits.reports_iff {target : VecM α (Option Ptr)} {fn : Ptr → VecM α SgError}
    {w w' : World α} {result : Access} (h : Exits target fn w result w') :
    Reports result w' ↔ LeavesError target fn w := by
  cases h with
  | before htarget hread hok =>
      constructor
      · intro _ p w1 rc w2 h1
        exact absurd h1 (htarget p w1)
      · intro _
        constructor
        · intro rc hrc
          rw [hread] at hrc
          cases hrc
        · intro htrue
          rw [hok] at htrue
          cases htrue
  | after htarget hfn hread herror hok =>
      constructor
      · intro hreports p w1 rc w2 h1 h2 hne
        rw [htarget] at h1
        cases h1
        rw [hfn] at h2
        cases h2
        rw [← (herror hne).2]
        exact hreports.failed _ hread hne
      · intro hleaves
        constructor
        · intro rc hrc hne
          rw [hread] at hrc
          cases hrc
          rw [(herror hne).2]
          exact hleaves _ _ _ _ htarget hfn hne
        · exact hok

section

variable {info : VectorInitInfo α} {w w' : World α} {result : Access}

theorem succeed_eq_ok {x : Option Ptr} {read : Option SgError} (h : succeed x read w = .ok (result, w')) :
    result.read = read ∧ w'.error = .none := by
  refine ⟨?_, succeed_error h⟩
  rw [succeed, Prog.bind_of_ok (onThread_sgClearError w)] at h
  obtain ⟨n, w1, -, hrest⟩ := Prog.bind_eq_ok.mp h
  cases hrest
  rfl

/-! ### Statistics with many items -/

def FillFn.code (fnInt : FillFn α) (p : Ptr) : VecM α SgError := do
  let (rc, _) ← fnInt (some p)
  return rc

theorem FillFn.code_run {fnInt : FillFn α} {p : Ptr} {rc : SgError} {x : Option Ptr}
    (h : fnInt (some p) w = .ok ((rc, x), w')) : fnInt.code p w = .ok (rc, w') := by
  rw [FillFn.code, Prog.bind_of_ok h]
  rfl

theorem FillFn.code_eq_ok {fnInt : FillFn α} {p : Ptr} {rc : SgError}
    (h : fnInt.code p w = .ok (rc, w')) : ∃ x, fnInt (some p) w = .ok ((rc, x), w') := by
  rw [FillFn.code] at h
  obtain ⟨⟨rc', x⟩, w1, hfn, hrest⟩ := Prog.bind_eq_ok.mp h
  cases hrest
  exact ⟨x, hfn⟩

theorem multiCompAccess_exits {fnInt : FillFn α} {now now' : Option Ptr}
    (hrun : multiCompAccess info fnInt now w = .ok ((result, now'), w')) :
    Exits (multiTarget info now) fnInt.code w result w' := by
  rw [multiCompAccess] at hrun
  obtain ⟨target, w1, htarget, hrest⟩ := Prog.bind_eq_ok.mp hrun
  cases target with
  | none =>
      cases hrest
      exact .refused htarget
  | some p =>
      obtain ⟨⟨rc, x⟩, w2, hfn, hrest⟩ := Prog.bind_eq_ok.mp hrest
      by_cases hrc : rc = .none
      · simp only [hrc, if_true] at hrest
        obtain ⟨r, w3, hsucceed, hrest⟩ := Prog.bind_eq_ok.mp hrest
        cases hrest
        obtain ⟨hread, herror⟩ := succeed_eq_ok hsucceed
        exact .after htarget (FillFn.code_run hfn) (hrc ▸ hread) (fun hne => absurd hrc hne)
          fun _ => herror
      · simp only [hrc, if_false] at hrest
        cases hrest
        exact .failed htarget (FillFn.code_run hfn) rfl

theorem multiCompAccessR_exits {fnInt : FillFn α}
    (hrun : multiCompAccessR info fnInt w = .ok (result, w')) :
    Exits (multiTarget info none) fnInt.code w result w' := by
  rw [multiCompAccessR] at hrun
  obtain ⟨target, w1, htarget, hrest⟩ := Prog.bind_eq_ok.mp hrun
  cases target with
  | none =>
      cases hrest
      exact .refused htarget
  | some p =>
      obtain ⟨⟨rc, x⟩, w2, hfn, hrest⟩ := Prog.bind_eq_ok.mp hrest
      by_cases hrc : rc = .none
      · simp only [hrc, if_true] at hrest
        obtain ⟨hread, herror⟩ := succeed_eq_ok hrest
        exact .after htarget (FillFn.code_run hfn) (hrc ▸ hread) (fun hne => absurd hrc hne)
          fun _ => herror
      · simp only [hrc, if_false] at hrest
        obtain ⟨_, w3, hfree, hrest⟩ := Prog.bind_eq_ok.mp hrest
        cases hrest
        have herror : w'.error = w2.error := congrArg Thread.error (sgVectorFree_toThread hfree)
        exact .failed htarget (FillFn.code_run hfn) herror

theorem sgVectorComputeDiff_error {dest cur last x : Option Ptr} {rc : SgError}
    (h : sgVectorComputeDiff dest cur last w = .ok ((rc, x), w')) (hne : rc ≠ .none) :
    x = none ∧ w'.error = rc := by
  cases cur with
  | none =>
      rw [sgVectorComputeDiff] at h
      obtain ⟨_, w1, -, hrest⟩ := Prog.bind_eq_ok.mp h
      cases hrest
      exact ⟨rfl, rfl⟩
  | some c =>
      rw [sgVectorComputeDiff] at h
      obtain ⟨⟨rc1, x1⟩, w1, hclone, hrest⟩ := Prog.bind_eq_ok.mp h
      by_cases hrc1 : rc1 = .none
      · exfalso
        simp only [hrc1, ne_eq, not_true_eq_false, if_false] at hrest
        cases x1 with
        | none =>
            cases hrest
            exact hne rfl
        | some d =>
            obtain ⟨_, w2, -, hrest⟩ := Prog.bind_eq_ok.mp hrest
            cases hrest
            exact hne rfl
      · simp only [hrc1, ne_eq, not_false_eq_true, if_true] at hrest
        cases hrest
        unfold sgVectorCloneInto at hclone
        obtain ⟨⟨ok, y⟩, w2, -, hrest⟩ := Prog.bind_eq_ok.mp hclone
        cases ok with
        | true =>
            cases hrest
            exact absurd rfl hne
        | false =>
            obtain ⟨_, w3, -, hrest⟩ := Prog.bind_eq_ok.mp hrest
            cases hrest
            exact ⟨rfl, rfl⟩

theorem multiCompDiffBetween_reports {cur last : Option Ptr}
    (hrun : multiCompDiffBetween info cur last w = .ok (result, w')) : Reports result w' := by
  rw [multiCompDiffBetween] at hrun
  obtain ⟨target, w1, -, hrest⟩ := Prog.bind_eq_ok.mp hrun
  cases target with
  | none =>
      cases hrest
      exact .refused w'
  | some d =>
      obtain ⟨⟨rc, x⟩, w2, hcompute, hrest⟩ := Prog.bind_eq_ok.mp hrest
      by_cases hrc : rc = .none
      · simp only [hrc, if_true] at hrest
        obtain ⟨hread, herror⟩ := succeed_eq_ok hrest
        refine ⟨?_, fun _ => herror⟩
        intro code hcode hne
        rw [hread] at hcode
        cases hcode
        exact absurd rfl hne
      · simp only [hrc, if_false] at hrest
        obtain ⟨rfl, herror⟩ := sgVectorComputeDiff_error hcompute hrc
        cases hrest
        apply Reports.failed_of
        rw [herror]
        exact hrc

/-- Where the read of a diff call fails, the difference finds no vector, or is refused its copy. -/
def FailureSeen (info : VectorInitInfo α) (fnInt : FillFn α) (n : Ptr) (diff : Option Ptr)
    (w : World α) : Prop :=
  ∀ d l rc x w1, diffUpToRead info fnInt n diff w = .ok (some (d, l, some rc, x), w1) →
    rc ≠ .none → x = none ∨ ∃ c, x = some c ∧ CopyRefused w1 d c

theorem multiCompDiff_reports_iff_seen (hinfo : info.Regular) (keyed : info.Keyed) {fnInt : FillFn α}
    (hreads : Reads info fnInt) {n : Ptr} {diff now' diff' : Option Ptr}
    (h : Held info w (some n) diff)
    (hrun : multiCompDiff info fnInt (some n) diff w = .ok ((result, now', diff'), w')) :
    Reports result w' ↔ FailureSeen info fnInt n diff w := by
  obtain ⟨old, hold⟩ := h.holds
  rcases diffUpToRead_cases hinfo hreads h hold with
    ⟨diff1, w1, hnone, hrun1, -⟩ | ⟨d, l, rc, x, items, w1, vd, vl, hread, hat, -⟩ | ⟨-, hfault⟩
  rotate_left 2
  · rw [hfault] at hrun
    cases hrun
  · rw [hrun1] at hrun
    cases hrun
    apply iff_of_true (.refused _)
    intro d l rc x w2 hread
    rw [hnone] at hread
    cases hread
  · rw [multiCompDiff_of_read hread] at hrun
    have hseen : FailureSeen info fnInt n diff w ↔
        (rc ≠ .none → x = none ∨ ∃ c, x = some c ∧ CopyRefused w1 d c) := by
      constructor
      · intro hall
        exact hall d l rc x w1 hread
      · intro hone d' l' rc' x' w1' hread'
        rw [hread] at hread'
        cases hread'
        exact hone
    rw [hseen]
    cases x with
    | none =>
        obtain ⟨w2, hfinish, herr, -⟩ := hat.finish_null (some rc)
        rw [hfinish] at hrun
        cases hrun
        refine iff_of_true (.failed_of ?_) fun _ => .inl rfl
        rw [herr]
        decide
    | some c =>
        rcases hat.finish_cases hinfo keyed (some rc) with
          ⟨hnot, ⟨q, r, w2, hfinish, hdel⟩ | ⟨-, e, hfinish⟩⟩ | ⟨hrefused, w2, hfinish, herr, -⟩
        · rw [hfinish] at hrun
          cases hrun
          obtain ⟨q', vq, -, rfl, -⟩ := hdel.data
          constructor
          · intro hreports hne
            exact absurd hdel.error (hreports.failed rc rfl hne)
          · intro hone
            refine ⟨?_, fun _ => hdel.error⟩
            intro code hcode hne
            cases hcode
            rcases hone hne with hcon | ⟨c', hc', hrefused⟩
            · cases hcon
            · cases hc'
              exact absurd hrefused hnot
        · rw [hfinish] at hrun
          cases hrun
        · rw [hfinish] at hrun
          cases hrun
          exact iff_of_true (.failed_of herr) fun _ => .inr ⟨c, rfl, hrefused⟩

/-! ### Statistics with one item -/

theorem easyCompAccess_exits {fnInt : ItemFn α} {now now' : Option Ptr}
    (hrun : easyCompAccess info fnInt now w = .ok ((result, now'), w')) :
    Exits (easyTarget info now) (fun p => onItem p 0 fnInt) w result w' := by
  rw [easyCompAccess] at hrun
  obtain ⟨target, w1, htarget, hrest⟩ := Prog.bind_eq_ok.mp hrun
  cases target with
  | none =>
      cases hrest
      exact .refused htarget
  | some p =>
      obtain ⟨rc, w2, hfn, hrest⟩ := Prog.bind_eq_ok.mp hrest
      by_cases hrc : rc = .none
      · rw [if_pos hrc] at hrest
        obtain ⟨r, w3, hsucceed, hrest⟩ := Prog.bind_eq_ok.mp hrest
        cases hrest
        obtain ⟨hread, herror⟩ := succeed_eq_ok hsucceed
        exact .after htarget hfn hread (fun hne => absurd hrc hne) fun _ => herror
      · rw [if_neg hrc] at hrest
        cases hrest
        exact .failed htarget hfn rfl

theorem easyCompAccessR_exits {fnInt : ItemFn α}
    (hrun : easyCompAccessR info fnInt w = .ok (result, w')) :
    Exits (easyTarget info none) (fun p => onItem p 0 fnInt) w result w' := by
  rw [easyCompAccessR] at hrun
  obtain ⟨target, w1, htarget, hrest⟩ := Prog.bind_eq_ok.mp hrun
  cases target with
  | none =>
      cases hrest
      exact .refused htarget
  | some p =>
      obtain ⟨rc, w2, hfn, hrest⟩ := Prog.bind_eq_ok.mp hrest
      by_cases hrc : rc = .none
      · rw [if_pos hrc] at hrest
        obtain ⟨hread, herror⟩ := succeed_eq_ok hrest
        exact .after htarget hfn hread (fun hne => absurd hrc hne) fun _ => herror
      · rw [if_neg hrc] at hrest
        obtain ⟨_, w3, hfree, hrest⟩ := Prog.bind_eq_ok.mp hrest
        cases hrest
        have herror : w'.error = w2.error := congrArg Thread.error (sgVectorFree_toThread hfree)
        exact .failed htarget hfn herror

/-- What `EASY_COMP_DIFF` does before its read: the target of the difference is made, and the cached item
is read again. -/
def easyDiffTarget (info : VectorInitInfo α) : Option Ptr → Option Ptr → VecM α (Option Ptr)
  | none, _ => easyTarget info none
  | some n, diff => do
      let target ← easyTarget info diff
      return target.map fun _ => n

theorem easyCompDiff_exits {fnInt : ItemFn α} {diffInt : α → α → α → ThreadM (SgError × α)}
    {now diff now' diff' : Option Ptr}
    (hrun : easyCompDiff info fnInt diffInt now diff w = .ok ((result, now', diff'), w')) :
    Exits (easyDiffTarget info now diff) (fun p => onItem p 0 fnInt) w result w' := by
  cases now with
  | none =>
      rw [easyCompDiff] at hrun
      obtain ⟨⟨got, now1⟩, w1, hget, hrest⟩ := Prog.bind_eq_ok.mp hrun
      cases hrest
      exact easyCompAccess_exits hget
  | some n =>
      rw [easyCompDiff] at hrun
      obtain ⟨target, w1, htarget, hrest⟩ := Prog.bind_eq_ok.mp hrun
      have hmade : easyDiffTarget info (some n) diff w = .ok (target.map fun _ => n, w1) := by
        rw [easyDiffTarget, Prog.bind_of_ok htarget]
        rfl
      cases target with
      | none =>
          cases hrest
          exact .refused hmade
      | some d =>
          obtain ⟨v, -, hrest⟩ := deref_bind_eq_ok hrest
          obtain ⟨⟨got, now1⟩, w2, hget, hrest⟩ := Prog.bind_eq_ok.mp (touch_bind_eq_ok hrest)
          cases easyCompAccess_exits hget with
          | before hnone => exact absurd rfl (hnone n w1)
          | after htarget' hfn hread herror hok =>
              cases htarget'
              rename_i rc
              simp only at hrest
              by_cases hgot : got.ok = true
              · -- the item was read, and the difference follows
                have hrc : ¬ rc ≠ .none := by
                  intro hne
                  rw [(herror hne).1] at hgot
                  cases hgot
                rw [if_pos hgot] at hrest
                obtain ⟨u, -, hrest⟩ := deref_bind_eq_ok hrest
                obtain ⟨rc', w3, hitem, hrest⟩ := Prog.bind_eq_ok.mp hrest
                by_cases hrc' : rc' = .none
                · rw [if_pos hrc'] at hrest
                  obtain ⟨r, w4, hsucceed, hrest⟩ := Prog.bind_eq_ok.mp hrest
                  cases hrest
                  obtain ⟨hread', herror'⟩ := succeed_eq_ok hsucceed
                  exact .after hmade hfn (hread'.trans hread) (fun hne => absurd hne hrc)
                    fun _ => herror'
                · rw [if_neg hrc'] at hrest
                  cases hrest
                  exact .after hmade hfn hread (fun hne => absurd hne hrc) fun hok =>
                    absurd hok failed_ne_ok
              · rw [if_neg hgot] at hrest
                cases hrest
                exact .after hmade hfn hread (fun hne => ⟨rfl, (herror hne).2⟩) fun hok =>
                  absurd hok failed_ne_ok

end

/-! ### Readers that leave an error -/

/-- The reader of one item leaves an error with every code but `SG_ERROR_NONE`. -/
def ItemFn.LeavesErrors (fnInt : ItemFn α) : Prop :=
  ∀ y t rc x t', fnInt y t = .ok ((rc, x), t') → rc ≠ .none → t'.error ≠ .none

/-- The same of a reader that fills a vector. -/
def FillFn.LeavesErrors (fnInt : FillFn α) : Prop :=
  ∀ x w rc y w', fnInt x w = .ok ((rc, y), w') → rc ≠ .none → w'.error ≠ .none

theorem ItemFn.leavesErrors_of_eq {fnInt : ItemFn α}
    (h : ∀ y t rc x t', fnInt y t = .ok ((rc, x), t') → rc ≠ .none → t'.error = rc) : fnInt.LeavesErrors := by
  intro y t rc x t' hrun hne
  rw [h y t rc x t' hrun hne]
  exact hne

theorem FillFn.leavesErrors_of_eq {fnInt : FillFn α}
    (h : ∀ x w rc y w', fnInt x w = .ok ((rc, y), w') → rc ≠ .none → w'.error = rc) : fnInt.LeavesErrors := by
  intro x w rc y w' hrun hne
  rw [h x w rc y w' hrun hne]
  exact hne

theorem runCopies_leavesErrors {copies : List (ItemFn α)} (h : ∀ fn ∈ copies, ItemFn.LeavesErrors fn) :
    ItemFn.LeavesErrors (runCopies copies) := by
  induction copies with
  | nil =>
      intro y t rc x t' hrun hne
      cases hrun
      exact absurd rfl hne
  | cons copy copies ih =>
      intro y t rc x t' hrun hne
      rw [runCopies] at hrun
      obtain ⟨⟨rc1, y1⟩, t1, hcopy, hrest⟩ := Prog.bind_eq_ok.mp hrun
      by_cases hrc1 : rc1 = .none
      · simp only [hrc1, ne_eq, not_true_eq_false, if_false] at hrest
        exact ih (fun fn hfn => h fn (List.mem_cons_of_mem copy hfn)) _ _ _ _ _ hrest hne
      · simp only [ne_eq, hrc1, not_false_eq_true, if_true] at hrest
        cases hrest
        exact h copy List.mem_cons_self _ _ _ _ _ hcopy hne

theorem leavesError_onItem {target : VecM α (Option Ptr)} {fn : ItemFn α} (hfn : fn.LeavesErrors) (w : World α) :
    LeavesError target (fun p => onItem p 0 fn) w := by
  intro p w1 rc w2 _ hitem hne
  obtain ⟨v, x, t, -, hrun, rfl⟩ := onItem_eq_ok hitem
  exact hfn _ _ _ _ _ hrun hne

theorem FillFn.LeavesErrors.leavesError {fnInt : FillFn α} (hfn : fnInt.LeavesErrors)
    (target : VecM α (Option Ptr)) (w : World α) : LeavesError target fnInt.code w := by
  intro p w1 rc w2 _ hcode hne
  obtain ⟨x, hrun⟩ := FillFn.code_eq_ok hcode
  exact hfn _ _ _ _ _ hrun hne

end Statgrab
