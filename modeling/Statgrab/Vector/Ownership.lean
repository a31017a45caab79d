import Statgrab.Access.Code
import Statgrab.Lib.Ownership

/-!
# The vectors a call holds

The memory of a world and who holds which vector of it, for the functions of `vector.c` and for the
loop of the readers. Nothing is assumed of the arguments, of the item functions or of the allocator: a
function that returned has handed on what its variables hold, and has kept and lost nothing.

`sg_vector_clone_into` may leave a released vector in its variable; `sg_vector_compute_diff` follows it.
-/

namespace Statgrab

variable {α β : Type}

def World.memory (w : World α) : Memory (SgVector α) := ⟨w.store, w.next, w.frees⟩

def held : Option Ptr → Multiset Nat
  | none => 0
  | some p => {p}

@[simp] theorem held_none : held none = 0 := rfl
@[simp] theorem held_some (p : Ptr) : held (some p) = {p} := rfl

theorem mem_held {p : Ptr} {x : Option Ptr} : p ∈ held x ↔ x = some p := by
  cases x with
  | none => simp
  | some q => simp [eq_comm]

/-- The vectors `old` of the caller become those of `new`. -/
abbrev Handing (old : Multiset Nat) (x : VecM α β) (new : β → Multiset Nat) : Prop :=
  Prog.Hands World.memory old x new

section

variable {old : Multiset Nat} {p q : Ptr}

theorem deref_hands (old : Multiset Nat) (p : Ptr) : Handing old (deref p : VecM α _) fun _ => old := by
  apply Prog.Hands.same
  intro w v w' hrun
  obtain ⟨-, rfl⟩ := deref_eq_ok hrun
  rfl

theorem touch_hands (old : Multiset Nat) (v : SgVector α) (n : Nat) : Handing old (touch v n) fun _ => old := by
  apply Prog.Hands.same
  intro w u w' hrun
  unfold touch at hrun
  split at hrun
  · cases hrun
  · cases hrun
    rfl

theorem onThread_hands (old : Multiset Nat) (x : ThreadM β) :
    Handing old (onThread x : VecM α β) fun _ => old := by
  apply Prog.Hands.same
  intro w a w' hrun
  obtain ⟨t, -, rfl⟩ := Prog.zoom_eq_ok.mp hrun
  rfl

theorem modify_hands (old : Multiset Nat) {f : World α → World α} (hf : ∀ w, (f w).memory = w.memory) :
    Handing old (Prog.modify f) fun _ => old := by
  apply Prog.Hands.modify
  intro w
  rw [hf]
  exact .refl _ _

theorem put_hands (p : Ptr) (v : SgVector α) :
    Handing {p} (Prog.modify fun w => w.put p v) fun _ => {p} := by
  apply Prog.Hands.modify
  intro w
  exact .put rfl rfl rfl

theorem drop_hands (p : Ptr) :
    Handing {p} (Prog.modify fun w : World α => w.drop p) fun _ => 0 := by
  apply Prog.Hands.modify
  intro w
  exact .drop rfl rfl rfl

theorem place_hands {v : World α → Ptr → SgVector α} {rest : Ptr → VecM α β} {new : β → Multiset Nat}
    (hrest : ∀ p, Handing {p} (rest p) new) :
    Handing 0 (do
      let p ← Prog.gets World.next
      Prog.modify fun w => w.place (v w p)
      rest p) new := by
  intro w a w' hrun
  rw [Prog.bind_of_ok (Prog.gets_run _ _), Prog.bind_of_ok (Prog.modify_run _ _)] at hrun
  have hplace : w.memory.Turns (w.place (v w w.next)).memory 0 {w.next} := .place rfl rfl rfl
  exact hplace.trans (hrest w.next _ _ _ hrun)

theorem move_hands {v : SgVector α} {rest : Ptr → VecM α β} {new : β → Multiset Nat}
    (hrest : ∀ q, Handing {q} (rest q) new) :
    Handing {p} (do
      let q ← Prog.gets World.next
      Prog.modify fun w => (w.drop p).place v
      rest q) new := by
  intro w a w' hrun
  rw [Prog.bind_of_ok (Prog.gets_run _ _), Prog.bind_of_ok (Prog.modify_run _ _)] at hrun
  have hdrop : w.memory.Turns (w.drop p).memory {p} 0 := .drop rfl rfl rfl
  have hplace : (w.drop p).memory.Turns ((w.drop p).place v).memory 0 {w.next} := .place rfl rfl rfl
  exact (hdrop.trans hplace).trans (hrest w.next _ _ _ hrun)

/-! ### Creating, resizing and releasing -/

theorem sgVectorDestroyUnused_hands (p : Ptr) (n : Nat) :
    Handing {p} (sgVectorDestroyUnused p n : VecM α Unit) fun _ => {p} := by
  apply (deref_hands _ p).bind
  intro v
  apply Prog.Hands.ite
  · intro _
    apply (touch_hands _ v _).bind
    intro _
    apply (modify_hands _ fun w => ?_).bind
    · intro _
      exact put_hands p _
    · rfl
  · intro _
    exact put_hands p _

theorem sgVectorInitNew_hands (p : Ptr) (n : Nat) :
    Handing {p} (sgVectorInitNew p n : VecM α Unit) fun _ => {p} := by
  apply (deref_hands _ p).bind
  intro v
  apply Prog.Hands.ite
  · intro _
    apply (touch_hands _ v _).bind
    intro _
    apply (modify_hands _ fun w => ?_).bind
    · intro _
      exact put_hands p _
    · rfl
  · intro _
    exact put_hands p _

theorem sgVectorFree_hands (x : Option Ptr) :
    Handing (held x) (sgVectorFree x : VecM α Unit) fun _ => 0 := by
  cases x with
  | none => exact .pure rfl
  | some p =>
      apply (sgVectorDestroyUnused_hands p 0).bind
      intro _
      exact drop_hands p

theorem sgVectorClear_hands (x : Option Ptr) :
    Handing (held x) (sgVectorClear x : VecM α Unit) fun _ => held x := by
  cases x with
  | none => exact .pure rfl
  | some p => exact sgVectorDestroyUnused_hands p 0

theorem sgVectorCreateInt_hands (shift alloc used : Nat) (info : VectorInitInfo α) :
    Handing 0 (sgVectorCreateInt shift alloc used info) held := by
  apply (onThread_hands _ _).bind
  intro ok
  apply Prog.Hands.ite
  · intro _
    apply place_hands
    intro p
    apply (sgVectorInitNew_hands p used).bind
    intro _
    exact .pure rfl
  · intro _
    exact .pure rfl

theorem sgVectorCreate_hands (size alloc used : Nat) (info : VectorInitInfo α) :
    Handing 0 (sgVectorCreate size alloc used info) held := by
  rw [sgVectorCreate]
  cases blockShiftOf size with
  | none => exact .fault _
  | some shift => exact sgVectorCreateInt_hands shift alloc used info

theorem vectorCreate_hands (info : VectorInitInfo α) (size : Nat) :
    Handing 0 (vectorCreate info size) held :=
  sgVectorCreate_hands size size 0 info

/-- A refused move releases the vector. Where no bytes were asked for `sg_realloc` has done that
already, and the vector is followed once more. -/
theorem sgVectorMove_hands (p : Ptr) (n : Nat) : Handing {p} (sgVectorMove p n : VecM α _) held := by
  apply (deref_hands _ p).bind
  intro v
  apply (onThread_hands _ _).bind
  intro ok
  apply Prog.Hands.ite
  · intro _
    apply move_hands
    intro q
    exact .pure rfl
  · intro _
    by_cases hzero : blockBytes n v.info = 0
    · intro w x w' hrun
      simp only [if_pos hzero] at hrun
      rw [Prog.bind_of_ok (Prog.modify_run _ _)] at hrun
      split at hrun
      · cases hrun
      · rw [Prog.bind_of_error (sgVectorFree_released (Function.update_self _ _ _))] at hrun
        cases hrun
    · simp only [if_neg hzero]
      apply Prog.Hands.ite
      · intro _
        exact .fault _
      · intro _
        apply (sgVectorFree_hands (some p)).bind
        intro _
        exact .pure rfl

theorem sgVectorResize_hands (x : Option Ptr) (n : Nat) :
    Handing (held x) (sgVectorResize x n : VecM α _) held := by
  cases x with
  | none =>
      apply (onThread_hands _ _).bind
      intro _
      exact .pure rfl
  | some p =>
      apply Prog.Hands.ite
      · intro _
        apply (sgVectorFree_hands (some p)).bind
        intro _
        apply (onThread_hands _ _).bind
        intro _
        exact .pure rfl
      · intro _
        apply (sgVectorDestroyUnused_hands p n).bind
        intro _
        apply (deref_hands _ p).bind
        intro v
        have hrest : ∀ q, Handing (held q) (match q with
            | none => pure none
            | some q => do
                sgVectorInitNew q n
                pure (some q) : VecM α _) held := by
          intro q
          cases q with
          | none => exact .pure rfl
          | some q =>
              apply (sgVectorInitNew_hands q n).bind
              intro _
              exact .pure rfl
        apply Prog.Hands.ite
        · intro _
          exact (sgVectorMove_hands p _).bind hrest
        · intro _
          exact hrest (some p)

/-! ### Copying -/

theorem put_frame_hands (more : Multiset Nat) (v : SgVector α) :
    Handing ({p} + more) (Prog.modify fun w => w.put p v) fun _ => {p} + more :=
  (put_hands p v).frame more

theorem copyItems_hands (src dest : Ptr) (fuel i : Nat) :
    Handing ({dest} + {src}) (copyItems src dest fuel i : VecM α _) fun _ => {dest} + {src} := by
  induction fuel generalizing i with
  | zero => exact .pure rfl
  | succ fuel ih =>
      apply (deref_hands _ src).bind
      intro s
      apply (deref_hands _ dest).bind
      intro d
      apply (touch_hands _ s _).bind
      intro _
      apply (touch_hands _ d _).bind
      intro _
      cases s.info.copyFn with
      | none => exact .fault _
      | some copyFn =>
          apply (onThread_hands _ _).bind
          intro r
          have hsrc : Handing ({dest} + {src}) (Prog.modify fun w : World α =>
              w.put src { s with cells := Function.update s.cells i r.2.1 })
              fun _ => {dest} + {src} := by
            simp only [add_comm ({dest} : Multiset Nat)]
            exact put_frame_hands _ _
          apply hsrc.bind
          intro _
          apply (put_frame_hands _ _).bind
          intro _
          apply Prog.Hands.ite
          · intro _
            exact ih (i + 1)
          · intro _
            exact .pure rfl

theorem cloneTarget_hands (dest : Ptr) (used n : Nat) :
    Handing {dest} (cloneTarget dest used n : VecM α _) held := by
  apply Prog.Hands.ite
  · intro _
    exact .pure rfl
  · intro _
    exact sgVectorResize_hands (some dest) n

/-- Where the target had to be resized to no items at all its variable is left with what was released. -/
theorem sgVectorCloneIntoInt_turns {w w' : World α} {dest src : Ptr} {rc : SgError} {x : Option Ptr}
    (hrun : sgVectorCloneIntoInt dest src w = .ok ((rc, x), w')) :
    w.memory.Turns w'.memory ({dest} + {src}) (held x + {src}) ∨
    (x = some dest ∧ w.memory.Turns w'.memory ({dest} + {src}) {src} ∧
      ∃ d s, w.store dest = some d ∧ w.store src = some s ∧ d.usedCount ≠ s.usedCount ∧
        (rc = .none → s.usedCount = 0)) := by
  rw [sgVectorCloneIntoInt] at hrun
  obtain ⟨d, hd, hrun⟩ := deref_bind_eq_ok hrun
  obtain ⟨s, hs, hrun⟩ := deref_bind_eq_ok hrun
  obtain ⟨tmp, w1, htarget, hrun⟩ := Prog.bind_eq_ok.mp hrun
  have hturn := (cloneTarget_hands dest d.usedCount s.usedCount).frame {src} w tmp w1 htarget
  cases tmp with
  | none =>
      obtain ⟨rc', w2, hthread, hrun⟩ := Prog.bind_eq_ok.mp hrun
      have hsame := onThread_hands (held none + {src}) _ w1 rc' w2 hthread
      rw [cloneTarget] at htarget
      by_cases heq : d.usedCount = s.usedCount
      · rw [if_pos heq] at htarget
        cases htarget
      · rw [if_neg heq] at htarget
        have herror := sgVectorResize_null htarget
        cases hthread
        cases hrun
        refine .inr ⟨rfl, by simpa using hturn.trans hsame, d, s, hd, hs, heq, ?_⟩
        intro hrc
        rw [hrc] at herror
        by_contra hne
        rw [if_neg hne] at herror
        cases herror
  | some t =>
      left
      obtain ⟨rc', w2, hcopy, hrun⟩ := Prog.bind_eq_ok.mp hrun
      have hcopied := hturn.trans (copyItems_hands src t s.usedCount 0 w1 rc' w2 hcopy)
      split at hrun
      · cases hrun
        exact hcopied
      · obtain ⟨u, w3, hfree, hrun⟩ := Prog.bind_eq_ok.mp hrun
        cases hrun
        exact hcopied.trans ((sgVectorFree_hands (some t)).frame {src} w2 u _ hfree)

theorem sgVectorInitNew_eq_ok {w w' : World α} {p : Ptr} {v : SgVector α} {n : Nat} {u : Unit}
    (hv : w.store p = some v) (hrun : sgVectorInitNew p n w = .ok (u, w')) :
    w'.store p = some (v.initNew n) := by
  rw [sgVectorInitNew, Prog.bind_of_ok (deref_run hv)] at hrun
  split at hrun
  · have hrun := touch_bind_eq_ok hrun
    rw [Prog.bind_of_ok (Prog.modify_run _ _)] at hrun
    cases hrun
    exact Function.update_self _ _ _
  · cases hrun
    exact Function.update_self _ _ _

theorem sgVectorCreateInt_used {w w' : World α} {shift alloc used : Nat} {info : VectorInitInfo α}
    {d : Ptr} (hrun : sgVectorCreateInt shift alloc used info w = .ok (some d, w')) :
    ∃ v, w'.store d = some v ∧ v.usedCount = used := by
  rw [sgVectorCreateInt] at hrun
  obtain ⟨ok, w1, -, hrun⟩ := Prog.bind_eq_ok.mp hrun
  split at hrun
  · rw [Prog.bind_of_ok (Prog.gets_run _ _), Prog.bind_of_ok (Prog.modify_run _ _)] at hrun
    obtain ⟨u, w2, hinit, hrun⟩ := Prog.bind_eq_ok.mp hrun
    cases hrun
    refine ⟨_, sgVectorInitNew_eq_ok (Function.update_self _ _ _) hinit, ?_⟩
    rw [initNew_usedCount]
    exact Nat.zero_max used
  · cases hrun

theorem sgVectorClone_hands (src : Ptr) :
    Handing {src} (sgVectorClone (some src) : VecM α _) fun x => held x + {src} := by
  intro w x w' hrun rest hacc
  rw [sgVectorClone] at hrun
  obtain ⟨s, hs, hrun⟩ := deref_bind_eq_ok hrun
  obtain ⟨dest, w1, hcreate, hrun⟩ := Prog.bind_eq_ok.mp hrun
  have hcreated := sgVectorCreateInt_hands _ _ _ _ w dest w1 hcreate
  have hturn := hcreated.frame {src}
  rw [zero_add] at hturn
  cases dest with
  | none =>
      cases hrun
      exact hturn rest hacc
  | some d =>
      obtain ⟨⟨rc, y⟩, w2, hclone, hrun⟩ := Prog.bind_eq_ok.mp hrun
      -- the new vector has the items of the source, so it is not resized
      have hcopied : w1.memory.Turns w2.memory ({d} + {src}) (held y + {src}) := by
        rcases sgVectorCloneIntoInt_turns hclone with hturns | ⟨-, -, v, s', hv, hs', hne, -⟩
        · exact hturns
        · obtain ⟨v', hv', hused⟩ := sgVectorCreateInt_used hcreate
          have hall : w.memory.Accounts (0 + {src}) rest := by rwa [zero_add]
          have hsrc : w1.store src = w.store src :=
            hcreated.frame_blocks hall (Multiset.mem_singleton_self src)
          rw [hv] at hv'
          cases hv'
          rw [hsrc, hs] at hs'
          cases hs'
          exact absurd hused hne
      by_cases hrc : rc = .none
      · simp only [if_pos hrc] at hrun
        cases hrun
        exact hturn.trans hcopied rest hacc
      · simp only [if_neg hrc] at hrun
        obtain ⟨u, w3, hfree, hrun⟩ := Prog.bind_eq_ok.mp hrun
        cases hrun
        exact ((hturn.trans hcopied).trans ((sgVectorFree_hands y).frame {src} w2 u _ hfree)) rest hacc

theorem sgVectorCloneInto_step {w w' w'' : World α} {old : Multiset Nat} {x y : Option Ptr} {src : Ptr}
    {rc : SgError} {ok : Bool} (hturn : w.memory.Turns w'.memory old (held y + {src}))
    (hrun : (if ok = true then return (.none, y)
      else do
        sgVectorFree y
        let rc ← onThread sgGetError
        return (rc, none) : VecM α (SgError × Option Ptr)) w' = .ok ((rc, x), w'')) :
    w.memory.Turns w''.memory old (held x + {src}) ∧ (rc ≠ .none → x = none) := by
  cases ok with
  | true =>
      cases hrun
      exact ⟨hturn, fun h => absurd rfl h⟩
  | false =>
      rw [if_neg Bool.false_ne_true] at hrun
      obtain ⟨u, w2, hfree, hrun⟩ := Prog.bind_eq_ok.mp hrun
      obtain ⟨rc', w3, hthread, hrun⟩ := Prog.bind_eq_ok.mp hrun
      have hfreed := hturn.trans ((sgVectorFree_hands y).frame {src} w' u w2 hfree)
      have hsame := onThread_hands (0 + {src}) _ w2 rc' w3 hthread
      cases hrun
      exact ⟨hfreed.trans hsame, fun _ => rfl⟩

/-- Cloning into a variable: it holds the copy or nothing, or it still points to what was released. -/
theorem sgVectorCloneInto_turns {w w' : World α} {dest x : Option Ptr} {src : Ptr} {rc : SgError}
    (hrun : sgVectorCloneInto dest (some src) w = .ok ((rc, x), w')) {rest : Nat → Prop}
    (hacc : w.memory.Accounts (held dest + {src}) rest) :
    (w.memory.Turns w'.memory (held dest + {src}) (held x + {src}) ∧ (rc ≠ .none → x = none)) ∨
    (rc = .none ∧ ∃ d, dest = some d ∧ x = some d ∧
      w.memory.Turns w'.memory (held dest + {src}) {src} ∧ w'.store d = none ∧
      ∃ v, w.store d = some v ∧ v.usedCount ≠ 0) := by
  cases dest with
  | none =>
      rw [sgVectorCloneInto] at hrun
      obtain ⟨⟨ok, y⟩, w1, hclone, hrun⟩ := Prog.bind_eq_ok.mp hrun
      obtain ⟨y', w2, hclone, hret⟩ := Prog.bind_eq_ok.mp hclone
      cases hret
      have hturn := sgVectorClone_hands src w y _ hclone
      rw [← zero_add ({src} : Multiset Nat)] at hturn
      exact .inl (sgVectorCloneInto_step (by simpa using hturn) hrun)
  | some d =>
      rw [sgVectorCloneInto] at hrun
      obtain ⟨⟨ok, y⟩, w1, hclone, hrun⟩ := Prog.bind_eq_ok.mp hrun
      obtain ⟨⟨rc', y'⟩, w2, hclone, hret⟩ := Prog.bind_eq_ok.mp hclone
      cases hret
      rcases sgVectorCloneIntoInt_turns hclone with hturn | ⟨rfl, hturn, v, s, hv, -, hne, hzero⟩
      · exact .inl (sgVectorCloneInto_step hturn hrun)
      · have hgone : w1.store d = none := by
          apply (hturn rest hacc).1.absent
          · intro hmem
            have hnodup := hacc.nodup
            rw [Multiset.mem_singleton.mp hmem] at hnodup
            simp at hnodup
          · apply hacc.apart
            simp
        by_cases hrc : rc' = .none
        · simp only [hrc, decide_true, if_true] at hrun
          cases hrun
          refine .inr ⟨rfl, d, rfl, rfl, hturn, hgone, v, hv, ?_⟩
          rw [hzero hrc] at hne
          exact hne
        · simp only [hrc, decide_false, Bool.false_eq_true, if_false] at hrun
          rw [Prog.bind_of_error (sgVectorFree_released hgone)] at hrun
          cases hrun

/-! ### Subtracting -/

theorem diffItem_hands (compare : α → α → Option Bool) (computeDiff : α → α → α) (words : Nat)
    (last dest : Ptr) (i fuel j : Nat) (matched : BitTable) :
    Handing {dest} (diffItem compare computeDiff words last dest i fuel j matched) fun _ => {dest} := by
  induction fuel generalizing j matched with
  | zero => exact .pure rfl
  | succ fuel ih =>
      apply Prog.Hands.ite
      · intro _
        exact .fault _
      · intro _
        apply Prog.Hands.ite
        · intro _
          exact ih (j + 1) matched
        · intro _
          apply (deref_hands _ last).bind
          intro l
          apply (deref_hands _ dest).bind
          intro d
          apply (touch_hands _ l _).bind
          intro _
          apply (touch_hands _ d _).bind
          intro _
          cases compare (l.cells j) (d.cells i) with
          | none => exact .fault _
          | some same =>
              cases same with
              | false => exact ih (j + 1) matched
              | true =>
                  apply (put_hands dest _).bind
                  intro _
                  exact ih (j + 1) _

theorem diffItems_hands (compare : α → α → Option Bool) (computeDiff : α → α → α) (words : Nat)
    (last dest : Ptr) (fuel i : Nat) (matched : BitTable) :
    Handing {dest} (diffItems compare computeDiff words last dest fuel i matched)
      fun _ => {dest} := by
  induction fuel generalizing i matched with
  | zero => exact .pure rfl
  | succ fuel ih =>
      apply (deref_hands _ last).bind
      intro l
      apply (diffItem_hands compare computeDiff words last dest i _ 0 matched).bind
      intro matched
      exact ih (i + 1) matched

theorem subtractLast_hands (dest : Ptr) (last : Option Ptr) :
    Handing {dest} (subtractLast dest last : VecM α Unit) fun _ => {dest} := by
  cases last with
  | none => exact .pure rfl
  | some l =>
      apply (deref_hands _ l).bind
      intro lv
      split
      · apply (deref_hands _ dest).bind
        intro d
        exact diffItems_hands _ _ _ l dest _ 0 _
      · exact .fault _

theorem subtractLast_released {w w' : World α} {dest l : Ptr} (hgone : w.store dest = none) :
    subtractLast dest (some l) w ≠ .ok ((), w') := by
  intro hrun
  rw [subtractLast] at hrun
  obtain ⟨lv, -, hrun⟩ := deref_bind_eq_ok hrun
  cases hcompare : lv.info.compareFn with
  | none =>
      simp only [hcompare] at hrun
      cases hrun
  | some compare =>
      cases hdiff : lv.info.computeDiffFn with
      | none =>
          simp only [hcompare, hdiff] at hrun
          cases hrun
      | some computeDiff =>
          simp only [hcompare, hdiff] at hrun
          rw [Prog.bind_of_error (deref_released hgone)] at hrun
          cases hrun

/-- The difference of two vectors the caller has. A released target is followed where there is a last
snapshot, and an empty target is never released. -/
theorem sgVectorComputeDiff_turns {w w' : World α} {dest cur last x : Option Ptr} {rc : SgError}
    (hrun : sgVectorComputeDiff dest cur last w = .ok ((rc, x), w')) {rest : Nat → Prop}
    (hacc : w.memory.Accounts (held dest + held cur) rest)
    (hlast : last = none → ∀ d v, dest = some d → w.store d = some v → v.usedCount = 0) :
    w.memory.Turns w'.memory (held dest + held cur) (held x + held cur) := by
  cases cur with
  | none =>
      rw [sgVectorComputeDiff] at hrun
      obtain ⟨u, w1, hfree, hrun⟩ := Prog.bind_eq_ok.mp hrun
      cases hrun
      exact (sgVectorFree_hands dest).frame 0 w u w1 hfree
  | some c =>
      rw [sgVectorComputeDiff] at hrun
      obtain ⟨⟨rc', y⟩, w1, hclone, hrun⟩ := Prog.bind_eq_ok.mp hrun
      rcases sgVectorCloneInto_turns hclone hacc with
        ⟨hturn, hnull⟩ | ⟨rfl, d, rfl, rfl, -, hgone, v, hv, hused⟩
      · by_cases hrc : rc' = .none
        · rw [hrc] at hrun
          cases y with
          | none =>
              cases hrun
              exact hturn
          | some d =>
              obtain ⟨u, w2, hsub, hret⟩ := Prog.bind_eq_ok.mp hrun
              cases hret
              exact hturn.trans ((subtractLast_hands d _).frame _ w1 u _ hsub)
        · simp only [ne_eq, hrc, not_false_iff, if_true] at hrun
          cases hrun
          exact hturn
      · cases last with
        | none => exact absurd (hlast rfl d v rfl hv) hused
        | some l =>
            obtain ⟨u, w2, hsub, hret⟩ := Prog.bind_eq_ok.mp hrun
            exact absurd hsub (subtractLast_released hgone)

end

end Statgrab
