import Statgrab.Access.Ownership
import Statgrab.Lib.Run
import Statgrab.Vector.Capacity

/-!
# Threads

Any number of threads call the accessors, in any order, over one heap. Each thread has its own error
record and its own cached pointers, two for each statistic, and owns the vectors an `_r` or `_between`
call has handed it. A call reads one statistic and may fail anywhere; `sg_free_stats_buf` takes back what
the caller owns, and the cleanup functions run when a thread ends.

The vectors are kept in drawers: one for each thread and statistic, with the two cached pointers, and one
for each thread, with what is the caller's. `Balanced` says that each vector is in one drawer or was lost by
a reader, and that every other one has been released once. Every call keeps the balance, and changes the
vectors of the drawers it is about only: what a thread was handed is valid until that thread calls again.
-/

namespace Statgrab

variable {τ κ α : Type} [DecidableEq τ] [DecidableEq κ]

/-- The library as the threads `τ` use it, with the statistics `κ`: the two cached pointers, `now` and
`diff`, are in the component's record of the thread. -/
structure Library (τ κ α : Type) where
  world : World α
  thread : τ → Thread
  cached : τ → κ → Option Ptr × Option Ptr
  handed : τ → Multiset Nat

/-- What a thread calls. Each call brings what its `fn_int` will find. -/
inductive Call (κ α : Type) where
  /-- `MULTI_COMP_ACCESS`, `fn` and `fn_r`. -/
  | get (k : κ) (fnInt : FillFn α)
  | getR (k : κ) (fnInt : FillFn α)
  /-- `MULTI_COMP_DIFF`, `fn` and `fn_between`. -/
  | diff (k : κ) (fnInt : FillFn α)
  | between (k : κ) (cur last : Option Ptr)
  /-- `EASY_COMP_ACCESS`, `fn` and `fn_r`. -/
  | easyGet (k : κ) (fnInt : ItemFn α)
  | easyGetR (k : κ) (fnInt : ItemFn α)
  /-- `EASY_COMP_DIFF`, `fn` and `fn_between`. -/
  | easyDiff (k : κ) (fnInt : ItemFn α) (diffInt : α → α → α → ThreadM (SgError × α))
  | easyBetween (k : κ) (diffInt : DiffIntFn α) (now last : Option α)
  /-- `sg_free_stats_buf`. -/
  | free (data : Option Ptr)
  /-- The cleanup functions of the components. -/
  | cleanup

/-- The drawers of its thread a call is about. A `fn_between` call reads vectors of any of them, and its
copy function may write to them. -/
def Call.Touches : Call κ α → Option κ → Prop
  | .get k _, o => o = some k
  | .diff k _, o => o = some k
  | .easyGet k _, o => o = some k
  | .easyDiff k _ _, o => o = some k
  | .getR _ _, o => o = none
  | .easyGetR _ _, o => o = none
  | .easyBetween _ _ _ _, o => o = none
  | .free _, o => o = none
  | .between _ _ _, _ => True
  | .cleanup, o => o ≠ none

def Call.drawer : Call κ α → Option κ
  | .get k _ => some k
  | .diff k _ => some k
  | .easyGet k _ => some k
  | .easyDiff k _ _ => some k
  | _ => none

/-- The reader of the call leaves alone what others hold, and loses `n` vectors at most. -/
def Call.Loses (n : Nat) : Call κ α → Prop
  | .get _ fnInt => fnInt.Loses n
  | .getR _ fnInt => fnInt.Loses n
  | .diff _ fnInt => fnInt.Loses n
  | _ => True

namespace Library

def onWorld {β : Type} (t : τ) (x : VecM α β) : Prog Fault (Library τ κ α) β :=
  Prog.zoom (fun s => { s.world with toThread := s.thread t })
    (fun s w => { s with world := w, thread := Function.update s.thread t w.toThread }) x

/-- Store the cached pointers of a statistic. -/
def cache (s : Library τ κ α) (t : τ) (k : κ) (now diff : Option Ptr) : Library τ κ α :=
  { s with cached := Function.update s.cached t (Function.update (s.cached t) k (now, diff)) }

def hand (s : Library τ κ α) (t : τ) (vectors : Multiset Nat) : Library τ κ α :=
  { s with handed := Function.update s.handed t vectors }

/-- An accessor that works on the two cached pointers of a statistic. -/
def withCache (t : τ) (k : κ)
    (accessor : Option Ptr → Option Ptr → VecM α (Access × Option Ptr × Option Ptr)) :
    Prog Fault (Library τ κ α) (Option Ptr) := do
  let cached ← Prog.gets fun s : Library τ κ α => s.cached t k
  let (result, now, diff) ← onWorld t (accessor cached.1 cached.2)
  Prog.modify fun s => s.cache t k now diff
  return result.data

/-- An accessor whose vector becomes the caller's. -/
def handOut (t : τ) (accessor : VecM α Access) : Prog Fault (Library τ κ α) (Option Ptr) := do
  let result ← onWorld t accessor
  Prog.modify fun s => s.hand t (held result.data + s.handed t)
  return result.data

/-- `EASY_COMP_CLEANUP_FN` for one statistic after the other: the two vectors are freed, the pointers
are zeroed. -/
def cleanupStats (t : τ) : List κ → Prog Fault (Library τ κ α) Unit
  | [] => return ()
  | k :: ks => do
      let cached ← Prog.gets fun s : Library τ κ α => s.cached t k
      onWorld t (do
        sgVectorFree cached.1
        sgVectorFree cached.2)
      Prog.modify fun s => s.cache t k none none
      cleanupStats t ks

def keepDiff (getter : Option Ptr → VecM α (Access × Option Ptr)) (now diff : Option Ptr) :
    VecM α (Access × Option Ptr × Option Ptr) := do
  let (result, now) ← getter now
  return (result, now, diff)

def call (infos : κ → VectorInitInfo α) (stats : List κ) (t : τ) :
    Call κ α → Prog Fault (Library τ κ α) (Option Ptr)
  | .get k fnInt => withCache t k (keepDiff (multiCompAccess (infos k) fnInt))
  | .getR k fnInt => handOut t (multiCompAccessR (infos k) fnInt)
  | .diff k fnInt => withCache t k (multiCompDiff (infos k) fnInt)
  | .between k cur last => handOut t (multiCompDiffBetween (infos k) cur last)
  | .easyGet k fnInt => withCache t k (keepDiff (easyCompAccess (infos k) fnInt))
  | .easyGetR k fnInt => handOut t (easyCompAccessR (infos k) fnInt)
  | .easyDiff k fnInt diffInt => withCache t k (easyCompDiff (infos k) fnInt diffInt)
  | .easyBetween k diffInt now last => handOut t (easyCompDiffBetween (infos k) diffInt now last)
  | .free data => do
      onWorld t (sgVectorFree data)
      Prog.modify fun s => s.hand t (s.handed t - held data)
      return none
  | .cleanup => do
      cleanupStats t stats
      return none

def step (infos : κ → VectorInitInfo α) (stats : List κ) (c : τ × Call κ α) :
    Prog Fault (Library τ κ α) Unit := do
  let _ ← call infos stats c.1 c.2
  return ()

/-! ### Drawers -/

/-- What is in the drawers: with a statistic the two cached vectors, without one what is the caller's. -/
def owns (s : Library τ κ α) : τ × Option κ → Multiset Nat
  | (t, some k) => held (s.cached t k).1 + held (s.cached t k).2
  | (t, none) => s.handed t

/-- Who has the vectors: the drawers, and behind them nobody. -/
def holders (s : Library τ κ α) (lost : Multiset Nat) : Option (τ × Option κ) → Multiset Nat
  | none => lost
  | some d => s.owns d

/-- Each vector is in one drawer or was lost, or it was released once. -/
def Balanced (s : Library τ κ α) (lost : Multiset Nat) : Prop := s.world.memory.Shared (s.holders lost)

variable {infos : κ → VectorInitInfo α} {stats : List κ} {s s' : Library τ κ α} {t : τ} {k : κ}

theorem owns_cache (s : Library τ κ α) (t : τ) (k : κ) (now diff : Option Ptr) :
    (s.cache t k now diff).owns = Function.update s.owns (t, some k) (held now + held diff) := by
  funext d
  obtain ⟨u, o⟩ := d
  cases o with
  | none =>
      rw [Function.update_of_ne (by simp)]
      rfl
  | some l =>
      by_cases hu : u = t
      · subst hu
        by_cases hl : l = k
        · subst hl
          simp [owns, cache]
        · rw [Function.update_of_ne (by simpa using hl)]
          simp [owns, cache, hl]
      · rw [Function.update_of_ne (by simp [hu])]
        simp [owns, cache, hu]

theorem owns_hand (s : Library τ κ α) (t : τ) (vectors : Multiset Nat) :
    (s.hand t vectors).owns = Function.update s.owns (t, none) vectors := by
  funext d
  obtain ⟨u, o⟩ := d
  cases o with
  | none =>
      by_cases hu : u = t
      · subst hu
        simp [owns, hand]
      · rw [Function.update_of_ne (by simpa using hu)]
        simp [owns, hand, hu]
  | some l =>
      rw [Function.update_of_ne (by simp)]
      rfl

omit [DecidableEq κ] in
theorem onWorld_eq_ok {β : Type} {x : VecM α β} {b : β} (h : onWorld t x s = .ok (b, s')) :
    ∃ w, x { s.world with toThread := s.thread t } = .ok (b, w) ∧
      s' = { s with world := w, thread := Function.update s.thread t w.toThread } :=
  Prog.zoom_eq_ok.mp h

theorem holders_update {s s' : Library τ κ α} {d : τ × Option κ} {new : Multiset Nat} (lost lost' : Multiset Nat)
    (howns : s'.owns = Function.update s.owns d new) :
    s'.holders lost' = Function.update (Function.update (s.holders lost) (some d) new) none lost' := by
  funext o
  cases o with
  | none => rw [Function.update_self, holders]
  | some e =>
      rw [Function.update_of_ne (by simp), holders, howns]
      by_cases he : e = d
      · subst he
        rw [Function.update_self, Function.update_self]
      · rw [Function.update_of_ne he, Function.update_of_ne (by simpa using he), holders]

/-! ### Calls -/

/-- What a caller is held to: it compares vectors it has, and frees what it was handed. -/
def Legal (s : Library τ κ α) (t : τ) : Call κ α → Prop
  | .between _ cur _ => ∀ p, cur = some p → ∃ o, p ∈ s.owns (t, o)
  | .free data => ∀ p, data = some p → p ∈ s.handed t
  | _ => True

/-- What a call of `t` leaves: the balance, the other drawers with their vectors, and the other threads. -/
structure Left (s s' : Library τ κ α) (t : τ) (lost : Multiset Nat) (touched : Option κ → Prop) : Prop where
  balanced : s'.Balanced lost
  mono : s.world.next ≤ s'.world.next
  owns : ∀ d, (d.1 = t → ¬ touched d.2) → s'.owns d = s.owns d
  store : ∀ d, (d.1 = t → ¬ touched d.2) → ∀ p ∈ s.owns d, s'.world.store p = s.world.store p
  thread : ∀ u, u ≠ t → s'.thread u = s.thread u

theorem Left.of_turn {o : Option κ} {lost more new : Multiset Nat} {w : World α} (h : s.Balanced lost)
    (hturn : s.world.memory.Turns w.memory (s.owns (t, o)) (new + more))
    (howns : s'.owns = Function.update s.owns (t, o) new) (hworld : s'.world = w)
    (hthread : ∀ u, u ≠ t → s'.thread u = s.thread u) : Left s s' t (more + lost) fun o' => o' = o := by
  obtain ⟨hshared, hle, hframe⟩ := h.turn_give (Option.some_ne_none (t, o)) hturn
  have hne : ∀ d : τ × Option κ, (d.1 = t → ¬ d.2 = o) → d ≠ (t, o) := by
    rintro d hd rfl
    exact hd rfl rfl
  refine ⟨?_, ?_, ?_, ?_, hthread⟩
  · rw [Balanced, holders_update lost _ howns, hworld]
    exact hshared
  · rw [hworld]
    exact hle
  · intro d hd
    rw [howns]
    exact Function.update_of_ne (hne d hd) _ _
  · intro d hd p hp
    rw [hworld]
    exact hframe (some d) (by simpa using hne d hd) p hp

omit [DecidableEq τ] [DecidableEq κ] in
theorem Left.widen {lost : Multiset Nat} {touched touched' : Option κ → Prop} (h : Left s s' t lost touched)
    (himp : ∀ o, touched o → touched' o) : Left s s' t lost touched' := by
  have hsub : ∀ d : τ × Option κ, (d.1 = t → ¬ touched' d.2) → d.1 = t → ¬ touched d.2 :=
    fun d hd ht hcon => hd ht (himp d.2 hcon)
  exact ⟨h.balanced, h.mono, fun d hd => h.owns d (hsub d hd), fun d hd => h.store d (hsub d hd), h.thread⟩

omit [DecidableEq τ] [DecidableEq κ] in
theorem Left.trans {s'' : Library τ κ α} {lost lost' : Multiset Nat} {touched : Option κ → Prop}
    (h : Left s s' t lost touched) (h' : Left s' s'' t lost' touched) : Left s s'' t lost' touched := by
  refine ⟨h'.balanced, Nat.le_trans h.mono h'.mono, ?_, ?_, ?_⟩
  · intro d hd
    rw [h'.owns d hd, h.owns d hd]
  · intro d hd p hp
    rw [h'.store d hd p (by rwa [h.owns d hd]), h.store d hd p hp]
  · intro u hu
    rw [h'.thread u hu, h.thread u hu]

theorem withCache_left {accessor : Option Ptr → Option Ptr → VecM α (Access × Option Ptr × Option Ptr)} {n : Nat}
    {lost : Multiset Nat}
    (hloses : ∀ now diff, Prog.Loses World.memory n (held now + held diff) (accessor now diff)
      fun r => held r.2.1 + held r.2.2) (h : s.Balanced lost) {data : Option Ptr}
    (hrun : withCache t k accessor s = .ok (data, s')) :
    ∃ more : Multiset Nat, more.card ≤ n ∧ Left s s' t (more + lost) fun o => o = some k := by
  rw [withCache, Prog.bind_of_ok (Prog.gets_run _ _)] at hrun
  obtain ⟨⟨result, now, diff⟩, s1, hworld, hrun⟩ := Prog.bind_eq_ok.mp hrun
  obtain ⟨w, haccess, rfl⟩ := onWorld_eq_ok hworld
  cases hrun
  obtain ⟨more, hcard, hturn⟩ := hloses _ _ _ _ _ haccess
  refine ⟨more, hcard, .of_turn h hturn (owns_cache _ t k now diff) rfl ?_⟩
  intro u hu
  exact Function.update_of_ne hu _ _

theorem handOut_left {accessor : VecM α Access} {n : Nat} {lost : Multiset Nat}
    (hloses : Prog.Loses World.memory n 0 accessor fun r => held r.data) (h : s.Balanced lost) {data : Option Ptr}
    (hrun : handOut t accessor s = .ok (data, s')) :
    ∃ more : Multiset Nat, more.card ≤ n ∧ Left s s' t (more + lost) fun o : Option κ => o = none := by
  obtain ⟨result, s1, hworld, hrun⟩ := Prog.bind_eq_ok.mp hrun
  obtain ⟨w, haccess, rfl⟩ := onWorld_eq_ok hworld
  cases hrun
  obtain ⟨more, hcard, hturn⟩ := hloses.frame (s.owns (t, none)) _ _ _ haccess
  rw [zero_add] at hturn
  refine ⟨more, hcard, .of_turn h hturn (owns_hand _ t _) rfl ?_⟩
  intro u hu
  exact Function.update_of_ne hu _ _

theorem free_left {lost : Multiset Nat} (h : s.Balanced lost) {data x : Option Ptr} (hdata : ∀ p, data = some p → p ∈ s.handed t)
    (hrun : call infos stats t (.free data) s = .ok (x, s')) :
    Left s s' t lost fun o : Option κ => o = none := by
  obtain ⟨u, s1, hworld, hrun⟩ := Prog.bind_eq_ok.mp hrun
  obtain ⟨w, hfree, rfl⟩ := onWorld_eq_ok hworld
  cases hrun
  have hsub : held data + (s.handed t - held data) = s.handed t := by
    cases data with
    | none => simp
    | some p =>
        rw [held_some, Multiset.singleton_add, Multiset.sub_singleton]
        exact Multiset.cons_erase (hdata p rfl)
  have hturn : s.world.memory.Turns w.memory (held data + (s.handed t - held data))
      (0 + (s.handed t - held data)) :=
    (sgVectorFree_hands data _ u w hfree).frame (s.handed t - held data)
  rw [zero_add, hsub, ← add_zero (s.handed t - held data)] at hturn
  rw [← zero_add lost]
  refine .of_turn h hturn (owns_hand _ t _) rfl ?_
  intro u hu
  exact Function.update_of_ne hu _ _

theorem cleanupStats_left {lost : Multiset Nat} (h : s.Balanced lost)
    (hrun : cleanupStats t stats s = .ok ((), s')) : Left s s' t lost fun o : Option κ => o ≠ none := by
  induction stats generalizing s with
  | nil =>
      cases hrun
      exact ⟨h, Nat.le_refl _, fun _ _ => rfl, fun _ _ _ _ => rfl, fun _ _ => rfl⟩
  | cons k stats ih =>
      rw [cleanupStats, Prog.bind_of_ok (Prog.gets_run _ _)] at hrun
      obtain ⟨u, s1, hworld, hrun⟩ := Prog.bind_eq_ok.mp hrun
      obtain ⟨w, hfree, rfl⟩ := onWorld_eq_ok hworld
      rw [Prog.bind_of_ok (Prog.modify_run _ _)] at hrun
      have hboth : Handing (held (s.cached t k).1 + held (s.cached t k).2) (do
          sgVectorFree (s.cached t k).1
          sgVectorFree (s.cached t k).2 : VecM α Unit) fun _ => 0 := by
        apply ((sgVectorFree_hands (s.cached t k).1).frame (held (s.cached t k).2)).bind
        intro _
        rw [zero_add]
        exact sgVectorFree_hands _
      have hturn : s.world.memory.Turns w.memory (s.owns (t, some k)) (0 + 0) :=
        hboth { s.world with toThread := s.thread t } u w hfree
      have hleft : Left s (cache { s with world := w, thread := Function.update s.thread t w.toThread }
          t k none none) t (0 + lost) fun o : Option κ => o = some k := by
        refine .of_turn h hturn (owns_cache _ t k none none) rfl ?_
        intro v hv
        exact Function.update_of_ne hv _ _
      rw [zero_add] at hleft
      exact (hleft.widen fun o ho => by simp [ho]).trans (ih hleft.balanced hrun)

/-- The vector a `fn_between` call makes is first one more in the drawer of the vector it compares. -/
theorem between_left {lost : Multiset Nat} {cur last x : Option Ptr} (h : s.Balanced lost)
    (hcur : ∀ p, cur = some p → ∃ o, p ∈ s.owns (t, o))
    (hrun : call infos stats t (.between k cur last) s = .ok (x, s')) :
    Left s s' t lost fun _ : Option κ => True := by
  obtain ⟨result, s1, hworld, hrun⟩ := Prog.bind_eq_ok.mp hrun
  obtain ⟨w, haccess, rfl⟩ := onWorld_eq_ok hworld
  cases hrun
  obtain ⟨o, more, hmore⟩ : ∃ o more, s.owns (t, o) = held cur + more := by
    cases cur with
    | none => exact ⟨none, s.owns (t, none), (zero_add _).symm⟩
    | some p =>
        obtain ⟨o, hp⟩ := hcur p rfl
        exact ⟨o, _, (Multiset.cons_erase hp).symm⟩
  have hacc := h.accounts (some (t, o))
  rw [holders, hmore] at hacc
  have hturn : s.world.memory.Turns w.memory (held cur + more) (held result.data + held cur + more) :=
    (multiCompDiffBetween_turns haccess (Memory.accounts_add.mp hacc).2.2).frame more
  rw [add_assoc, ← hmore] at hturn
  change s.world.memory.Turns w.memory (s.holders lost (some (t, o)))
    (held result.data + s.holders lost (some (t, o))) at hturn
  have hholders : ∀ new, (hand { s with world := w, thread := Function.update s.thread t w.toThread } t new).holders
      lost = Function.update (s.holders lost) (some (t, none)) new := by
    intro new
    have hupdate := holders_update (s := s) lost lost (owns_hand
      { s with world := w, thread := Function.update s.thread t w.toThread } t new)
    rw [hupdate, Function.update_eq_self_iff, Function.update_of_ne (by simp), holders]
  have hother : ∀ d : τ × Option κ, d.1 ≠ t → d ≠ (t, o) ∧ d ≠ (t, none) := by
    intro d hd
    constructor
    · rintro rfl
      exact hd rfl
    · rintro rfl
      exact hd rfl
  refine ⟨?_, ?_, ?_, ?_, ?_⟩
  · rw [Balanced, hholders]
    by_cases ho : o = none
    · subst ho
      exact (h.turn hturn).1
    · have hne : (some (t, o) : Option (τ × Option κ)) ≠ some (t, none) := by simpa using ho
      rw [add_comm] at hturn
      have hgive := (h.turn_give hne hturn).1
      rw [Function.update_eq_self] at hgive
      exact hgive
  · exact (h.turn hturn).2.1
  · intro d hd
    rw [owns_hand]
    exact Function.update_of_ne (hother d fun heq => hd heq trivial).2 _ _
  · intro d hd p hp
    exact (h.turn hturn).2.2 (some d) (by simpa using (hother d fun heq => hd heq trivial).1) p hp
  · intro u hu
    exact Function.update_of_ne hu _ _

omit [DecidableEq τ] [DecidableEq κ] in
theorem keepDiff_loses {getter : Option Ptr → VecM α (Access × Option Ptr)} {n : Nat}
    (hgetter : ∀ now, Prog.Loses World.memory n (held now) (getter now) fun r => held r.2) (now diff : Option Ptr) :
    Prog.Loses World.memory n (held now + held diff) (keepDiff getter now diff)
      fun r => held r.2.1 + held r.2.2 := by
  apply ((hgetter now).frame (held diff)).bind_hands
  intro r
  exact .pure rfl

theorem call_left {c : Call κ α} {n : Nat} {lost : Multiset Nat} {data : Option Ptr} (h : s.Balanced lost)
    (hlegal : s.Legal t c) (hloses : c.Loses n) (hrun : call infos stats t c s = .ok (data, s')) :
    ∃ more : Multiset Nat, more.card ≤ n ∧ Left s s' t (more + lost) c.Touches := by
  have hnone : Left s s' t lost c.Touches →
      ∃ more : Multiset Nat, more.card ≤ n ∧ Left s s' t (more + lost) c.Touches := by
    intro hleft
    refine ⟨0, Nat.zero_le n, ?_⟩
    rw [zero_add]
    exact hleft
  cases c with
  | get k fnInt => exact withCache_left (keepDiff_loses (multiCompAccess_loses hloses)) h hrun
  | getR k fnInt => exact handOut_left (multiCompAccessR_loses hloses) h hrun
  | diff k fnInt => exact withCache_left (multiCompDiff_loses hloses) h hrun
  | between k cur last => exact hnone (between_left h hlegal hrun)
  | easyGet k fnInt =>
      exact withCache_left (keepDiff_loses fun now => (easyCompAccess_hands fnInt now).loses) h hrun
  | easyGetR k fnInt => exact handOut_left (easyCompAccessR_hands fnInt).loses h hrun
  | easyDiff k fnInt diffInt =>
      exact withCache_left (fun now diff => (easyCompDiff_hands fnInt diffInt now diff).loses) h hrun
  | easyBetween k diffInt now last =>
      exact handOut_left (easyCompAccessR_hands (diffInt.onto now last)).loses h hrun
  | free data => exact hnone (free_left h hlegal hrun)
  | cleanup =>
      obtain ⟨u, s1, hclean, hret⟩ := Prog.bind_eq_ok.mp hrun
      cases hret
      exact hnone (cleanupStats_left h hclean)

theorem step_left {c : τ × Call κ α} {n : Nat} {lost : Multiset Nat} (h : s.Balanced lost)
    (hlegal : s.Legal c.1 c.2) (hloses : c.2.Loses n) (hrun : step infos stats c s = .ok ((), s')) :
    ∃ more : Multiset Nat, more.card ≤ n ∧ Left s s' c.1 (more + lost) c.2.Touches := by
  obtain ⟨data, s1, hcall, hret⟩ := Prog.bind_eq_ok.mp hrun
  cases hret
  exact call_left h hlegal hloses hcall

theorem step_of_call {c : Call κ α} {data : Option Ptr}
    (hcall : call infos stats t c s = .ok (data, s')) :
    step infos stats (t, c) s = .ok ((), s') := Prog.bind_of_ok hcall _

/-! ### Runs -/

def start (world : World α) (thread : τ → Thread) : Library τ κ α where
  world := { world with store := fun _ => none, next := 0, frees := fun _ => 0 }
  thread := thread
  cached := fun _ _ => (none, none)
  handed := fun _ => 0

omit [DecidableEq τ] [DecidableEq κ] in
theorem start_balanced (world : World α) (thread : τ → Thread) :
    (start world thread : Library τ κ α).Balanced 0 := by
  have hempty : ∀ d, (start world thread : Library τ κ α).holders 0 d = 0 := by
    rintro (_ | ⟨t, _ | k⟩)
    · rfl
    · rfl
    · rfl
  refine ⟨?_, ?_, ?_, ?_, fun p _ => ⟨rfl, rfl⟩⟩
  · intro d
    rw [hempty]
    exact Multiset.nodup_zero
  · intro d e p hp
    rw [hempty] at hp
    exact absurd hp (Multiset.notMem_zero p)
  · intro d p hp
    rw [hempty] at hp
    exact absurd hp (Multiset.notMem_zero p)
  · intro p hp
    exact absurd hp (Nat.not_lt_zero p)

/-! ### A process with two threads -/

def counters (found : List Nat) : FillFn Nat :=
  fillItems counterInfo (fun b _ => return (.none, b)) found 0

theorem counters_loses (found : List Nat) (n : Nat) : (counters found).Loses n :=
  FillFn.Tidy.loses (fillItems_tidy _ _ _ _) n

abbrev TwoThreads := Library Bool Unit Nat

def twoThreads : TwoThreads := start (emptyWorld Nat) fun _ => (emptyWorld Nat).toThread

/-- What the second thread does: it reads twice, takes a vector of its own, and ends. -/
def secondThread : List (Bool × Call Unit Nat) :=
  [(true, .get () (counters [1])), (true, .diff () (counters [4])), (true, .getR () (counters [2])),
    (true, .cleanup)]

def bothThreads : Prog Fault TwoThreads (Option Ptr) := do
  let data ← call (fun _ => counterInfo) [()] false (.get () (counters [5, 7]))
  Prog.sequence (step (fun _ => counterInfo) [()]) secondThread
  return data

theorem bothThreads_run :
    (bothThreads twoThreads).toOption.map (fun r => (r.1, r.2.world.next)) = some (some 0, 5) := by
  decide +kernel

theorem bothThreads_parts {s s2 : TwoThreads} {data : Option Ptr}
    (hrun : bothThreads s = .ok (data, s2)) :
    ∃ s1, call (fun _ => counterInfo) [()] false (.get () (counters [5, 7])) s = .ok (data, s1) ∧
      Prog.sequence (step (fun _ => counterInfo) [()]) secondThread s1 = .ok ((), s2) := by
  obtain ⟨x, s1, hcall, hrest⟩ := Prog.bind_eq_ok.mp hrun
  obtain ⟨u, s3, hseq, hret⟩ := Prog.bind_eq_ok.mp hrest
  cases hret
  exact ⟨s1, hcall, hseq⟩

theorem bothThreads_split :
    ∃ s1 s2, call (fun _ => counterInfo) [()] false (.get () (counters [5, 7])) twoThreads
        = .ok (some 0, s1) ∧
      Prog.sequence (step (fun _ => counterInfo) [()]) secondThread s1 = .ok ((), s2) ∧
      s2.world.next = 5 := by
  have hrun := bothThreads_run
  generalize hboth : bothThreads twoThreads = r at hrun
  cases r with
  | error e => cases hrun
  | ok r =>
      obtain ⟨data, s2⟩ := r
      simp only [Except.toOption, Option.map_some, Option.some.injEq, Prod.mk.injEq] at hrun
      obtain ⟨rfl, hnext⟩ := hrun
      obtain ⟨s1, hcall, hseq⟩ := bothThreads_parts hboth
      exact ⟨s1, s2, hcall, hseq, hnext⟩

theorem secondThread_legal {c : Bool × Call Unit Nat} (hc : c ∈ secondThread) (s : TwoThreads) :
    s.Legal c.1 c.2 := by
  simp only [secondThread, List.mem_cons, List.not_mem_nil, or_false] at hc
  rcases hc with rfl | rfl | rfl | rfl
  all_goals trivial

theorem secondThread_loses {c : Bool × Call Unit Nat} (hc : c ∈ secondThread) (n : Nat) : c.2.Loses n := by
  simp only [secondThread, List.mem_cons, List.not_mem_nil, or_false] at hc
  rcases hc with rfl | rfl | rfl | rfl
  · exact counters_loses _ n
  · exact counters_loses _ n
  · exact counters_loses _ n
  · trivial

theorem sequence_balanced {bound : Call κ α → Nat} {calls : List (τ × Call κ α)} {lost : Multiset Nat}
    (h : s.Balanced lost) (hloses : ∀ c ∈ calls, c.2.Loses (bound c.2))
    (hlegal : Prog.Always (step infos stats) (fun s c => s.Legal c.1 c.2) s calls)
    (hrun : Prog.sequence (step infos stats) calls s = .ok ((), s')) :
    ∃ more : Multiset Nat, more.card ≤ (calls.map fun c => bound c.2).sum ∧ s'.Balanced (more + lost) := by
  induction calls generalizing s lost with
  | nil =>
      cases hrun
      refine ⟨0, Nat.zero_le _, ?_⟩
      rw [zero_add]
      exact h
  | cons c calls ih =>
      obtain ⟨u, s1, hstep, hrest⟩ := Prog.bind_eq_ok.mp hrun
      obtain ⟨more, hcard, hleft⟩ := step_left h hlegal.1 (hloses c List.mem_cons_self) hstep
      obtain ⟨more', hcard', hbalanced⟩ := ih hleft.balanced (fun e he => hloses e (List.mem_cons_of_mem c he))
        (hlegal.2 s1 hstep) hrest
      refine ⟨more' + more, ?_, ?_⟩
      · rw [Multiset.card_add, List.map_cons, List.sum_cons]
        omega
      · rw [add_assoc]
        exact hbalanced

/-- Over any run that ends, by any threads, each vector that was ever made is in one drawer of one thread, live
and never released, or it is in none and has been released exactly once, or a reader lost it: it is in none and
was never released. No more are lost than the readers of the run lose. -/
theorem run_balanced (infos : κ → VectorInitInfo α) (stats : List κ) (world : World α) (thread : τ → Thread)
    (bound : Call κ α → Nat) {calls : List (τ × Call κ α)} {s : Library τ κ α}
    (hloses : ∀ c ∈ calls, c.2.Loses (bound c.2))
    (hlegal : Prog.Always (step infos stats) (fun s c => s.Legal c.1 c.2) (start world thread) calls)
    (hrun : Prog.sequence (step infos stats) calls (start world thread) = .ok ((), s)) :
    ∃ lost : Multiset Nat, lost.card ≤ (calls.map fun c => bound c.2).sum ∧ lost.Nodup ∧ ∀ p < s.world.next,
      (∃ d, p ∈ s.owns d ∧ (∀ e, p ∈ s.owns e → e = d) ∧ p ∉ lost ∧ (∃ v, s.world.store p = some v) ∧
        s.world.frees p = 0) ∨
      ((∀ d, p ∉ s.owns d) ∧ p ∉ lost ∧ s.world.store p = none ∧ s.world.frees p = 1) ∨
      ((∀ d, p ∉ s.owns d) ∧ p ∈ lost ∧ (∃ v, s.world.store p = some v) ∧ s.world.frees p = 0) := by
  obtain ⟨lost, hcard, hbalanced⟩ := sequence_balanced (start_balanced world thread) hloses hlegal hrun
  rw [add_zero] at hbalanced
  refine ⟨lost, hcard, hbalanced.nodup none, ?_⟩
  intro p hp
  by_cases hlost : p ∈ lost
  · have hlive := hbalanced.live none p hlost
    refine .inr (.inr ⟨?_, hlost, hlive.block, hlive.frees⟩)
    intro d hd
    cases hbalanced.unique none (some d) p hlost hd
  · by_cases hheld : ∃ d, p ∈ s.owns d
    · obtain ⟨d, hd⟩ := hheld
      have hlive := hbalanced.live (some d) p hd
      refine .inl ⟨d, hd, ?_, hlost, hlive.block, hlive.frees⟩
      intro e he
      exact Option.some.inj (hbalanced.unique (some e) (some d) p he hd)
    · rw [not_exists] at hheld
      have hnone : ∀ o, p ∉ s.holders lost o := by
        rintro (_ | d)
        · exact hlost
        · exact hheld d
      have hdead := hbalanced.dead p hp hnone
      exact .inr (.inl ⟨hheld, hlost, hdead.block, hdead.frees⟩)

theorem run_balanced_bothThreads :
    ∃ s : TwoThreads, s.world.next = 5 ∧ ∃ lost : Multiset Nat, lost.card ≤ 0 ∧ lost.Nodup ∧ ∀ p < s.world.next,
      (∃ d, p ∈ s.owns d ∧ (∀ e, p ∈ s.owns e → e = d) ∧ p ∉ lost ∧ (∃ v, s.world.store p = some v) ∧
        s.world.frees p = 0) ∨
      ((∀ d, p ∉ s.owns d) ∧ p ∉ lost ∧ s.world.store p = none ∧ s.world.frees p = 1) ∨
      ((∀ d, p ∉ s.owns d) ∧ p ∈ lost ∧ (∃ v, s.world.store p = some v) ∧ s.world.frees p = 0) := by
  obtain ⟨s1, s2, hcall, hrest, hnext⟩ := bothThreads_split
  have hrun : Prog.sequence (step (fun _ => counterInfo) [()])
      ((false, .get () (counters [5, 7])) :: secondThread) twoThreads = .ok ((), s2) := by
    rw [Prog.sequence_cons (step_of_call hcall)]
    exact hrest
  have hlegal : ∀ c ∈ (false, Call.get () (counters [5, 7])) :: secondThread, ∀ s : TwoThreads,
      s.Legal c.1 c.2 := by
    intro c hc s
    rcases List.mem_cons.mp hc with rfl | hc
    · trivial
    · exact secondThread_legal hc s
  have hloses : ∀ c ∈ (false, Call.get () (counters [5, 7])) :: secondThread, c.2.Loses 0 := by
    intro c hc
    rcases List.mem_cons.mp hc with rfl | hc
    · exact counters_loses _ 0
    · exact secondThread_loses hc 0
  exact ⟨s2, hnext, run_balanced _ _ _ _ (fun _ => 0) hloses (.of_forall hlegal _) hrun⟩

/-! ### What a call hands out -/

omit [DecidableEq τ] [DecidableEq κ] in
theorem succeed_returns (x : Option Ptr) (read : Option SgError) :
    (succeed x read : VecM α Access).Returns fun r => r.data = x := by
  refine .bind (.any _) fun _ _ => ?_
  refine .bind (.any _) fun n _ => ?_
  exact .pure rfl

/-- What an accessor returns is in the drawer of its statistic. -/
def FromCache (accessor : Option Ptr → Option Ptr → VecM α (Access × Option Ptr × Option Ptr)) : Prop :=
  ∀ now diff, (accessor now diff).Returns fun r =>
    ∀ p, r.1.data = some p → p ∈ held r.2.1 + held r.2.2

theorem FromCache.mem {accessor : Option Ptr → Option Ptr → VecM α (Access × Option Ptr × Option Ptr)}
    (hfrom : FromCache accessor) {p : Ptr} (hrun : withCache t k accessor s = .ok (some p, s')) :
    p ∈ s'.owns (t, some k) := by
  rw [withCache, Prog.bind_of_ok (Prog.gets_run _ _)] at hrun
  obtain ⟨⟨result, now, diff⟩, s1, hworld, hrun⟩ := Prog.bind_eq_ok.mp hrun
  obtain ⟨w, haccess, rfl⟩ := onWorld_eq_ok hworld
  simp only [Prog.bind_run, Prog.modify_run, Prog.pure_run, Except.ok.injEq, Prod.mk.injEq] at hrun
  obtain ⟨hdata, rfl⟩ := hrun
  rw [owns_cache, Function.update_self]
  exact hfrom _ _ _ _ _ haccess p hdata

theorem handOut_mem {accessor : VecM α Access} {p : Ptr}
    (hrun : handOut t accessor s = .ok (some p, s')) : p ∈ s'.owns ((t, none) : τ × Option κ) := by
  obtain ⟨result, s1, hworld, hrun⟩ := Prog.bind_eq_ok.mp hrun
  obtain ⟨w, haccess, rfl⟩ := onWorld_eq_ok hworld
  simp only [Prog.bind_run, Prog.modify_run, Prog.pure_run, Except.ok.injEq, Prod.mk.injEq] at hrun
  obtain ⟨hdata, rfl⟩ := hrun
  rw [owns_hand, Function.update_self, hdata]
  exact Multiset.mem_add.mpr (.inl (Multiset.mem_singleton_self p))

omit [DecidableEq τ] [DecidableEq κ] in
theorem multiCompAccess_returns (info : VectorInitInfo α) (fnInt : FillFn α) (now : Option Ptr) :
    (multiCompAccess info fnInt now).Returns fun r => r.1.data = none ∨ r.1.data = r.2 := by
  refine .bind (.any _) fun target _ => ?_
  cases target with
  | none => exact .pure (.inl rfl)
  | some p =>
      refine .bind (.any _) fun r _ => ?_
      refine .ite ?_ ?_
      · refine .bind (succeed_returns r.2 _) fun result hresult => ?_
        exact .pure (.inr hresult)
      · exact .pure (.inl rfl)

omit [DecidableEq τ] [DecidableEq κ] in
theorem easyCompAccess_returns (info : VectorInitInfo α) (fnInt : ItemFn α) (now : Option Ptr) :
    (easyCompAccess info fnInt now).Returns fun r => r.1.data = none ∨ r.1.data = r.2 := by
  refine .bind (.any _) fun target _ => ?_
  cases target with
  | none => exact .pure (.inl rfl)
  | some p =>
      refine .bind (.any _) fun rc _ => ?_
      refine .ite ?_ ?_
      · refine .bind (succeed_returns (some p) _) fun result hresult => ?_
        exact .pure (.inr hresult)
      · exact .pure (.inl rfl)

omit [DecidableEq τ] [DecidableEq κ] in
theorem keepDiff_fromCache {getter : Option Ptr → VecM α (Access × Option Ptr)}
    (hgetter : ∀ now, (getter now).Returns fun r => r.1.data = none ∨ r.1.data = r.2) :
    FromCache (keepDiff getter) := by
  intro now diff
  refine .bind (hgetter now) fun r hr => ?_
  refine .pure ?_
  intro p hp
  rw [Multiset.mem_add, mem_held]
  left
  rcases hr with hr | hr
  · rw [hr] at hp
    cases hp
  · rw [← hr, hp]

omit [DecidableEq τ] [DecidableEq κ] in
theorem diffFinish_returns (d l : Ptr) (read : Option SgError) (now : Option Ptr) :
    (diffFinish d l read now : VecM α _).Returns fun r =>
      ∀ p, r.1.data = some p → p ∈ held r.2.1 + held r.2.2 := by
  refine .bind (.any _) fun r _ => ?_
  refine .bind (.any _) fun _ _ => ?_
  refine .ite ?_ ?_
  · refine .bind (succeed_returns r.2 read) fun result hresult => ?_
    refine .pure ?_
    intro p hp
    rw [Multiset.mem_add, mem_held, mem_held]
    right
    rw [← hp, hresult]
  · refine .pure ?_
    intro p hp
    cases hp

omit [DecidableEq τ] [DecidableEq κ] in
theorem multiCompDiff_fromCache (info : VectorInitInfo α) (fnInt : FillFn α) :
    FromCache (multiCompDiff info fnInt) := by
  intro now diff
  cases now with
  | none => exact keepDiff_fromCache (multiCompAccess_returns info fnInt) none diff
  | some n =>
      refine .bind (.any _) fun target _ => ?_
      cases target with
      | none =>
          refine .pure ?_
          intro p hp
          cases hp
      | some d =>
          refine .bind (.any _) fun last _ => ?_
          cases last with
          | none =>
              refine .pure ?_
              intro p hp
              cases hp
          | some l =>
              refine .bind (.any _) fun r _ => ?_
              exact diffFinish_returns d l r.1.read r.2

omit [DecidableEq τ] [DecidableEq κ] in
theorem easyCompDiff_fromCache (info : VectorInitInfo α) (fnInt : ItemFn α)
    (diffInt : α → α → α → ThreadM (SgError × α)) : FromCache (easyCompDiff info fnInt diffInt) := by
  have hfailed : ∀ (read : Option SgError) (x y : Option Ptr),
      (pure (Access.failed read, x, y) : VecM α _).Returns fun r =>
        ∀ p, r.1.data = some p → p ∈ held r.2.1 + held r.2.2 := by
    intro read x y
    refine .pure ?_
    intro p hp
    cases hp
  intro now diff
  cases now with
  | none => exact keepDiff_fromCache (easyCompAccess_returns info fnInt) none diff
  | some n =>
      refine .bind (.any _) fun target _ => ?_
      cases target with
      | none => exact hfailed none (some n) none
      | some d =>
          refine .bind (.any _) fun v _ => ?_
          refine .bind (.any _) fun _ _ => ?_
          refine .bind (.any _) fun r _ => ?_
          refine .ite ?_ (hfailed _ _ _)
          refine .bind (.any _) fun u _ => ?_
          refine .bind (.any _) fun rc _ => ?_
          refine .ite ?_ (hfailed _ _ _)
          refine .bind (succeed_returns (some d) _) fun result hresult => ?_
          refine .pure ?_
          intro p hp
          rw [Multiset.mem_add, mem_held, mem_held]
          right
          rw [← hp, hresult]

theorem call_mem {c : Call κ α} {p : Ptr} (hrun : call infos stats t c s = .ok (some p, s')) :
    p ∈ s'.owns (t, c.drawer) := by
  cases c with
  | get k fnInt => exact (keepDiff_fromCache (multiCompAccess_returns _ fnInt)).mem hrun
  | getR k fnInt => exact handOut_mem hrun
  | diff k fnInt => exact (multiCompDiff_fromCache _ fnInt).mem hrun
  | between k cur last => exact handOut_mem hrun
  | easyGet k fnInt => exact (keepDiff_fromCache (easyCompAccess_returns _ fnInt)).mem hrun
  | easyGetR k fnInt => exact handOut_mem hrun
  | easyDiff k fnInt diffInt => exact (easyCompDiff_fromCache _ fnInt diffInt).mem hrun
  | easyBetween k diffInt now last => exact handOut_mem hrun
  | free data =>
      obtain ⟨u, s1, -, hrun⟩ := Prog.bind_eq_ok.mp hrun
      cases hrun
  | cleanup =>
      obtain ⟨u, s1, -, hrun⟩ := Prog.bind_eq_ok.mp hrun
      cases hrun

theorem cleanupStats_cached (hrun : cleanupStats t stats s = .ok ((), s')) :
    s'.handed = s.handed ∧ (∀ u, u ≠ t → s'.cached u = s.cached u) ∧
      ∀ k, s'.cached t k = if k ∈ stats then (none, none) else s.cached t k := by
  induction stats generalizing s with
  | nil =>
      cases hrun
      exact ⟨rfl, fun _ _ => rfl, fun _ => rfl⟩
  | cons k stats ih =>
      rw [cleanupStats, Prog.bind_of_ok (Prog.gets_run _ _)] at hrun
      obtain ⟨u, s1, hworld, hrun⟩ := Prog.bind_eq_ok.mp hrun
      obtain ⟨w, -, rfl⟩ := onWorld_eq_ok hworld
      rw [Prog.bind_of_ok (Prog.modify_run _ _)] at hrun
      obtain ⟨hhanded, hothers, hcached⟩ := ih hrun
      refine ⟨hhanded, ?_, ?_⟩
      · intro v hv
        rw [hothers v hv]
        exact Function.update_of_ne hv _ _
      · intro l
        rw [hcached l]
        by_cases hl : l = k
        · subst hl
          simp [cache]
        · simp [cache, hl]

/-- When a thread ends each vector that was cached for it is released, once, and nothing else is: what
its caller was handed stays, and so does every other thread's. -/
theorem cleanup_releases {data : Option Ptr} {lost : Multiset Nat} (h : s.Balanced lost) (hall : ∀ k, k ∈ stats)
    (hrun : call infos stats t .cleanup s = .ok (data, s')) :
    (∀ k, s'.cached t k = (none, none)) ∧
    (∀ k, ∀ p ∈ s.owns (t, some k), s'.world.store p = none ∧ s'.world.frees p = 1) ∧
    (∀ d, (d.1 = t → d.2 = none) → s'.owns d = s.owns d ∧
      ∀ p ∈ s.owns d, s'.world.store p = s.world.store p ∧ s'.world.frees p = 0) := by
  obtain ⟨u, s1, hclean, hret⟩ := Prog.bind_eq_ok.mp hrun
  cases hret
  have hleft := cleanupStats_left h hclean
  obtain ⟨-, -, hcached⟩ := cleanupStats_cached hclean
  have hempty : ∀ k, s'.cached t k = (none, none) := by
    intro k
    rw [hcached k, if_pos (hall k)]
  have hsame : ∀ d : τ × Option κ, (d.1 = t → d.2 = none) → s'.owns d = s.owns d ∧
      ∀ p ∈ s.owns d, s'.world.store p = s.world.store p := by
    intro d hd
    have huntouched : d.1 = t → ¬ d.2 ≠ none := fun ht => not_not.mpr (hd ht)
    exact ⟨hleft.owns d huntouched, hleft.store d huntouched⟩
  refine ⟨hempty, ?_, ?_⟩
  · intro k p hp
    have hnone : ∀ d, p ∉ s'.holders lost d := by
      rintro (_ | ⟨v, o⟩) hd
      · cases h.unique none (some (t, some k)) p hd hp
      · by_cases hv : v = t → o = none
        · rw [holders, (hsame (v, o) hv).1] at hd
          have heq := h.unique (some (v, o)) (some (t, some k)) p hd hp
          cases heq
          exact Option.some_ne_none k (hv rfl)
        · rw [Classical.not_imp] at hv
          obtain ⟨rfl, ho⟩ := hv
          obtain ⟨l, rfl⟩ := Option.ne_none_iff_exists'.mp ho
          simp [holders, owns, hempty l] at hd
    have hlt : p < s.world.next := (h.live (some (t, some k)) p hp).below
    have hdead := hleft.balanced.dead p (Nat.lt_of_lt_of_le hlt hleft.mono) hnone
    exact ⟨hdead.block, hdead.frees⟩
  · intro d hd
    obtain ⟨howns, hstore⟩ := hsame d hd
    refine ⟨howns, fun p hp => ⟨hstore p hp, ?_⟩⟩
    exact (hleft.balanced.live (some d) p (by rwa [holders, howns])).frees

def readAndEnd : Prog Fault TwoThreads (Option Ptr) := do
  let data ← call (fun _ => counterInfo) [()] true (.get () (counters [1]))
  let _ ← call (fun _ => counterInfo) [()] true .cleanup
  return data

theorem readAndEnd_run : (readAndEnd twoThreads).toOption.map (fun r => r.1) = some (some 0) := by
  decide +kernel

theorem cleanup_releases_readAndEnd :
    ∃ s s' : TwoThreads, 0 ∈ s.owns (true, some ()) ∧ s'.world.store 0 = none ∧
      s'.world.frees 0 = 1 := by
  have hrun := readAndEnd_run
  generalize hend : readAndEnd twoThreads = r at hrun
  cases r with
  | error e => cases hrun
  | ok r =>
      obtain ⟨data, s'⟩ := r
      obtain rfl : data = some 0 := Option.some.inj hrun
      obtain ⟨data, s, hget, hrest⟩ := Prog.bind_eq_ok.mp hend
      obtain ⟨x, s'', hclean, hret⟩ := Prog.bind_eq_ok.mp hrest
      cases hret
      have hstart : twoThreads.Balanced 0 := start_balanced _ _
      have hlegal : twoThreads.Legal true (.get () (counters [1])) := trivial
      obtain ⟨more, -, hleft⟩ := call_left hstart hlegal (counters_loses [1] 0) hget
      have hmem : 0 ∈ s.owns (true, some ()) := call_mem hget
      obtain ⟨-, hdead, -⟩ := cleanup_releases hleft.balanced (fun k => List.mem_singleton.mpr rfl) hclean
      exact ⟨s, s', hmem, hdead () 0 hmem⟩

end Library

end Statgrab
