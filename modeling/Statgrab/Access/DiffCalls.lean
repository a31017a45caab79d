import Mathlib.Data.UInt
import Mathlib.Tactic.Ring
import Statgrab.Access.OneItem

/-!
# Diffs in a row

A caller that shows the difference of a statistic with one item again and again. The first call hands out the
item as it was read, and every other one the difference to the item of the last call that was not refused
memory: a refused call leaves the baseline where it is. So what was shown adds up to the item that was read
last, for every number that is subtracted. Once two calls were granted their vectors no call asks for memory.
-/

namespace Statgrab

open scoped UInt64.CommRing

variable {α β : Type}

/-- The calls, one for each `b`, and the item that each of them hands out, if any. -/
def callDiffs (call : β → Option Ptr → Option Ptr → VecM α (Access × Option Ptr × Option Ptr)) :
    List β → Option Ptr → Option Ptr → VecM α (List (Option α))
  | [], _, _ => return []
  | b :: bs, now, diff => do
      let (got, now, diff) ← call b now diff
      let shown ← Prog.gets fun w => (w.itemsAt got.data).head?
      let rest ← callDiffs call bs now diff
      return shown :: rest

/-- The sum of a number over the items that were handed out. -/
def shownTotal (get : α → UInt64) (shown : List (Option α)) : UInt64 :=
  shown.foldr (fun item total => item.elim 0 get + total) 0

/-- The item that was read by the last call that handed something out, or else `a`. -/
def newest (value : β → α) : Option α → List β → List (Option α) → Option α
  | a, b :: bs, shown :: rest => newest value (if shown.isSome then some (value b) else a) bs rest
  | a, _, _ => a

/-! ### Memory -/

theorem onThread_keeps {x : ThreadM β} (hx : x.Keeps Thread.Plenty) :
    (onThread x : VecM α β).Keeps fun w => w.toThread.Plenty := by
  intro w b w' hw hrun
  obtain ⟨t, hx', rfl⟩ := Prog.zoom_eq_ok.mp hrun
  exact hx w.toThread b t hw hx'

theorem deref_keeps (p : Ptr) (I : World α → Prop) : (deref p).Keeps I := by
  intro w v w' hw hrun
  unfold deref at hrun
  split at hrun
  · cases hrun
    exact hw
  · cases hrun

theorem touch_keeps (v : SgVector α) (hi : Nat) (I : World α → Prop) : (touch v hi).Keeps I := by
  intro w u w' hw hrun
  unfold touch at hrun
  split at hrun
  · cases hrun
  · cases hrun
    exact hw

theorem sgRealloc_keeps (size : Nat) : (sgRealloc size).Keeps Thread.Plenty := by
  intro t ok t' ht hrun
  unfold sgRealloc at hrun
  split at hrun
  · cases hrun
    exact ht
  · split at hrun
    · cases hrun
      exact ht.answered
    · cases hrun
      exact ht.answered

theorem sgVectorInitNew_keeps (p : Ptr) (n : Nat) :
    (sgVectorInitNew p n : VecM α Unit).Keeps fun w => w.toThread.Plenty := by
  refine .bind (deref_keeps p _) fun v => .ite ?_ ?_
  · refine .bind (touch_keeps v n _) fun _ => .bind (.modify fun _ hw => hw) fun _ => ?_
    exact .modify fun _ hw => hw
  · exact .modify fun _ hw => hw

theorem sgVectorCreate_keeps (blockSize n m : Nat) (info : VectorInitInfo α) :
    (sgVectorCreate blockSize n m info).Keeps fun w => w.toThread.Plenty := by
  unfold sgVectorCreate
  cases blockShiftOf blockSize with
  | none => exact .fault _
  | some shift =>
      refine .bind (onThread_keeps (sgRealloc_keeps _)) fun ok => .ite ?_ (.pure _)
      refine .bind (.gets _) fun p => .bind (.modify fun _ hw => hw) fun _ => ?_
      exact .bind (sgVectorInitNew_keeps p m) fun _ => .pure _

theorem easyTarget_keeps (info : VectorInitInfo α) (x : Option Ptr) :
    (easyTarget info x).Keeps fun w => w.toThread.Plenty := by
  cases x with
  | none => exact sgVectorCreate_keeps 1 1 1 info
  | some p => exact .pure _

theorem onItem_keeps {fn : ItemFn α} (hfn : ∀ y, (fn y).Keeps Thread.Plenty) (p : Ptr) (i : Nat) :
    (onItem p i fn).Keeps fun w => w.toThread.Plenty := by
  refine .bind (deref_keeps p _) fun v => .bind (touch_keeps v _ _) fun _ => ?_
  refine .bind (onThread_keeps (hfn _)) fun r => .bind (.modify fun _ hw => hw) fun _ => ?_
  exact .pure _

theorem succeed_keeps (x : Option Ptr) (read : Option SgError) :
    (succeed x read : VecM α Access).Keeps fun w => w.toThread.Plenty := by
  have hclear : sgClearError.Keeps Thread.Plenty := .modify fun _ ht => ht
  refine .bind (onThread_keeps hclear) fun _ => .bind ?_ fun _ => .pure _
  cases x with
  | none => exact .pure _
  | some p => exact .bind (deref_keeps p _) fun _ => .pure _

section

variable {info : VectorInitInfo α} {fnInt : ItemFn α} (hfn : ∀ y, (fnInt y).Keeps Thread.Plenty)

include hfn

theorem easyCompAccess_keeps (now : Option Ptr) :
    (easyCompAccess info fnInt now).Keeps fun w => w.toThread.Plenty := by
  refine .bind (easyTarget_keeps info now) fun target => ?_
  cases target with
  | none => exact .pure _
  | some p =>
      refine .bind (onItem_keeps hfn p 0) fun rc => .ite ?_ (.pure _)
      exact .bind (succeed_keeps _ _) fun _ => .pure _

theorem easyCompDiff_keeps {diffInt : α → α → α → ThreadM (SgError × α)}
    (hdiff : ∀ tgt now last, (diffInt tgt now last).Keeps Thread.Plenty) (now diff : Option Ptr) :
    (easyCompDiff info fnInt diffInt now diff).Keeps fun w => w.toThread.Plenty := by
  cases now with
  | none => exact .bind (easyCompAccess_keeps hfn none) fun _ => .pure _
  | some n =>
      refine .bind (easyTarget_keeps info diff) fun target => ?_
      cases target with
      | none => exact .pure _
      | some d =>
          refine .bind (deref_keeps n _) fun v => .bind (touch_keeps v 1 _) fun _ => ?_
          refine .bind (easyCompAccess_keeps hfn (some n)) fun got => .ite ?_ (.pure _)
          refine .bind (deref_keeps n _) fun v => ?_
          refine .bind (onItem_keeps (fun tgt => hdiff tgt _ _) d 0) fun rc => .ite ?_ (.pure _)
          exact .bind (succeed_keeps _ _) fun _ => .pure _

end

/-! ### One call -/

/-- What a call hands out, and what it leaves cached. -/
structure ShowsDiff (minus : α → α → α) (x : α) (a : Option α) (now diff : Option Ptr) (granted : Bool)
    (shown a' : Option α) (now' diff' : Option Ptr) : Prop where
  baseline : a' = if shown.isSome then some x else a
  value : ∀ y, shown = some y → y = a.elim x (minus x)
  granted : granted = true ∨ (now ≠ none ∧ diff ≠ none) → shown.isSome = true
  kept : now ≠ none ∧ diff ≠ none → now' ≠ none ∧ diff' ≠ none

theorem easyCompDiff_shows {info : VectorInitInfo α} (hfit : Fits 1 0 info) {fnInt : ItemFn α} {x : α}
    (hfn : ∀ y t, fnInt y t = .ok ((.none, x), t)) {diffInt : α → α → α → ThreadM (SgError × α)}
    {minus : α → α → α} (hminus : ∀ tgt now last t, diffInt tgt now last t = .ok ((.none, minus now last), t))
    {w : World α} {now diff : Option Ptr} {a b : Option α} (h : Caches w now diff a b) :
    ∃ got now' diff' shown a' b' w', easyCompDiff info fnInt diffInt now diff w = .ok ((got, now', diff'), w') ∧
      (w'.itemsAt got.data).head? = shown ∧ Caches w' now' diff' a' b' ∧
      ShowsDiff minus x a now diff (w.mem 0) shown a' now' diff' := by
  have hread : ∀ y t, ∃ t', fnInt y t = .ok ((.none, x), t') := fun y t => ⟨t, hfn y t⟩
  cases now with
  | none =>
      obtain rfl := h.snapshot.none_iff.mp rfl
      rcases easyCompAccess_run hfit hread h with ⟨hno, w', hrun, h'⟩ | ⟨-, p, w', hrun, h', -⟩
      · refine ⟨_, none, diff, none, none, b, w', easyCompDiff_none hrun diff, rfl, h', rfl, nofun, ?_, ?_⟩
        · rintro (hmem | hcached)
          · exact absurd (.inr hmem) hno
          · exact absurd rfl hcached.1
        · exact fun hcached => absurd rfl hcached.1
      · refine ⟨_, some p, diff, some x, some x, b, w', easyCompDiff_none hrun diff, ?_, h', rfl, ?_, fun _ => rfl,
          fun hcached => absurd rfl hcached.1⟩
        · rw [gotten, if_pos rfl]
          exact congrArg List.head? h'.snapshot.itemsAt
        · intro y hy
          cases hy
          rfl
  | some n =>
      obtain ⟨-, last, rfl, -, -⟩ := h.snapshot.of_some
      rcases easyCompDiff_run hfit hread hminus h with
        ⟨hno, w', hrun, h'⟩ | ⟨-, hrc, -⟩ | ⟨-, -, d, w', hrun, h'⟩
      · refine ⟨_, _, _, none, _, _, w', hrun, rfl, h', rfl, nofun, ?_, ?_⟩
        · rintro (hmem | hcached)
          · exact absurd (.inr hmem) hno
          · exact absurd (.inl hcached.2) hno
        · exact fun hcached => absurd (.inl hcached.2) hno
      · exact absurd rfl hrc
      · refine ⟨_, _, _, some (minus x last), _, _, w', hrun, ?_, h', rfl, ?_, fun _ => rfl, ?_⟩
        · exact congrArg List.head? h'.difference.itemsAt
        · intro y hy
          cases hy
          rfl
        · exact fun _ => ⟨Option.some_ne_none n, Option.some_ne_none d⟩

/-! ### A run -/

theorem callDiffs_run {info : VectorInitInfo α} (hfit : Fits 1 0 info) {reads : β → ItemFn α} {value : β → α}
    (hreads : ∀ b y t, reads b y t = .ok ((.none, value b), t))
    {diffInt : α → α → α → ThreadM (SgError × α)} {minus : α → α → α}
    (hminus : ∀ tgt now last t, diffInt tgt now last t = .ok ((.none, minus now last), t)) (bs : List β)
    {w : World α} {now diff : Option Ptr} {a b : Option α} (h : Caches w now diff a b) :
    ∃ shown w', callDiffs (fun b => easyCompDiff info (reads b) diffInt) bs now diff w = .ok (shown, w') ∧
      shown.length = bs.length ∧
      (∀ get : α → UInt64, (∀ x y, get (minus x y) = get x - get y) →
        shownTotal get shown + a.elim 0 get = (newest value a bs shown).elim 0 get) ∧
      (w.toThread.Plenty ∨ (now ≠ none ∧ diff ≠ none) → ∀ item ∈ shown, item.isSome = true) := by
  induction bs generalizing w now diff a b with
  | nil =>
      refine ⟨[], w, rfl, rfl, ?_, by simp⟩
      intro get _
      exact UInt64.zero_add _
  | cons r bs ih =>
      obtain ⟨got, now', diff', shown, a', b', w', hrun, hitem, h', hshows⟩ :=
        easyCompDiff_shows hfit (hreads r) hminus h
      obtain ⟨rest, w'', hrest, hlen, htotal, hall⟩ := ih h'
      have hkeeps : w.toThread.Plenty → w'.toThread.Plenty := by
        intro hplenty
        have hread : ∀ y, (reads r y).Keeps Thread.Plenty := by
          intro y t r' t' ht hread
          rw [hreads] at hread
          cases hread
          exact ht
        have hdiff : ∀ tgt x y, (diffInt tgt x y).Keeps Thread.Plenty := by
          intro tgt x y t r' t' ht hdiff
          rw [hminus] at hdiff
          cases hdiff
          exact ht
        exact easyCompDiff_keeps hread hdiff now diff w _ w' hplenty hrun
      refine ⟨shown :: rest, w'', ?_, by rw [List.length_cons, List.length_cons, hlen], ?_, ?_⟩
      · rw [callDiffs, Prog.bind_of_ok hrun]
        simp only
        rw [Prog.bind_of_ok (Prog.gets_run _ _), Prog.bind_of_ok hrest, hitem]
        rfl
      · intro get hget
        have hnext := htotal get hget
        rw [newest, ← hshows.baseline, ← hnext, shownTotal, List.foldr_cons, ← shownTotal]
        cases shown with
        | none =>
            rw [show a' = a from hshows.baseline]
            exact congrArg (· + a.elim 0 get) (UInt64.zero_add _)
        | some y =>
            rw [show a' = some (value r) from hshows.baseline, hshows.value y rfl]
            cases a with
            | none =>
                show get (value r) + shownTotal get rest + 0 = shownTotal get rest + get (value r)
                ring
            | some last =>
                show get (minus (value r) last) + shownTotal get rest + get last
                  = shownTotal get rest + get (value r)
                rw [hget]
                ring
      · intro hready item hmem
        rcases List.mem_cons.mp hmem with rfl | hmem
        · exact hshows.granted (hready.imp_left fun hplenty => hplenty 0)
        · exact hall (hready.imp hkeeps hshows.kept) item hmem

end Statgrab
