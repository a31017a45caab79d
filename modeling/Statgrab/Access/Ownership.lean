import Statgrab.Vector.Ownership

/-!
# What an accessor leaves in its variables

The accessors of `globals.h` as far as the vectors they hold go: whatever the reads and the allocator do,
a call that returned has turned the vectors of the statistic's two cached pointers into those the two
pointers hold afterwards, and an `_r` or `_between` call has left one new vector, the one it returns.
-/

namespace Statgrab

variable {α β : Type} {info : VectorInitInfo α}

/-- An `fn_int` that hands on the vector it is given: it may resize or release it, and leaves the rest. -/
def FillFn.Tidy (fnInt : FillFn α) : Prop := ∀ x, Handing (held x) (fnInt x) fun r => held r.2

/-- An `fn_int` that leaves alone what others hold, and may lose `n` vectors of those it makes or is given. -/
def FillFn.Loses (n : Nat) (fnInt : FillFn α) : Prop :=
  ∀ x, Prog.Loses World.memory n (held x) (fnInt x) fun r => held r.2

theorem FillFn.Tidy.loses {fnInt : FillFn α} (h : fnInt.Tidy) (n : Nat) : fnInt.Loses n := fun x => (h x).loses

/-! ### Readers -/

theorem vectorCreateOrResize_hands (info : VectorInitInfo α) (x : Option Ptr) (n : Nat) :
    Handing (held x) (vectorCreateOrResize info x n) held := by
  cases x with
  | none => exact sgVectorCreate_hands n n n info
  | some p => exact sgVectorResize_hands (some p) n

/-- The vector that `VECTOR_UPDATE` goes on with. -/
def updated : Except SgError (Option Ptr) → Multiset Nat
  | .ok x => held x
  | .error _ => 0

theorem vectorUpdated_hands (info : VectorInitInfo α) (x : Option Ptr) (n : CountArg) :
    Handing (held x) (vectorUpdated info x n) updated := by
  apply (vectorCreateOrResize_hands info x n.value).bind
  intro y
  cases y with
  | some p => exact .pure rfl
  | none =>
      apply Prog.Hands.ite
      · intro _
        exact .pure rfl
      · intro _
        apply (onThread_hands _ _).bind
        intro rc
        exact .pure rfl

theorem vectorUpdate_hands (x : Option Ptr) (n : CountArg) {next : FillFn α} (hnext : next.Tidy) :
    Handing (held x) (vectorUpdate info x n next) fun r => held r.2 := by
  rw [vectorUpdate_eq]
  apply (vectorUpdated_hands info x n).bind
  intro r
  cases r with
  | error rc => exact .pure rfl
  | ok y => exact hnext y

theorem onItem_hands (p : Ptr) (i : Nat) (fn : ItemFn α) :
    Handing {p} (onItem p i fn) fun _ => {p} := by
  apply (deref_hands _ p).bind
  intro v
  apply (touch_hands _ v _).bind
  intro _
  apply (onThread_hands _ _).bind
  intro r
  apply (put_hands p _).bind
  intro _
  exact .pure rfl

/-- The loop all readers share hands its vector on, whatever it fills the items with. -/
theorem fillItems_tidy (info : VectorInitInfo α) (fill : β → ItemFn α) (bs : List β) (i : Nat) :
    (fillItems info fill bs i).Tidy := by
  induction bs generalizing i with
  | nil => exact fun x => .pure rfl
  | cons b bs ih =>
      intro x
      unfold fillItems
      apply vectorUpdate_hands
      intro y
      cases y with
      | none => exact .fault _
      | some p =>
          apply (onItem_hands p i _).bind
          intro rc
          apply Prog.Hands.ite
          · intro _
            exact ih (i + 1) (some p)
          · intro _
            exact .pure rfl

/-! ### Statistics with many items -/

theorem succeed_hands (old : Multiset Nat) (x : Option Ptr) (read : Option SgError) :
    Handing old (succeed x read : VecM α Access) fun _ => old := by
  apply (onThread_hands _ _).bind
  intro _
  cases x with
  | none => exact .pure rfl
  | some p =>
      have hcount : Handing old (vectorItemCount (some p) : VecM α Nat) fun _ => old := by
        apply (deref_hands _ p).bind
        intro v
        exact .pure rfl
      apply hcount.bind
      intro n
      exact .pure rfl

theorem succeed_hands_data (x : Option Ptr) (read : Option SgError) :
    Handing (held x) (succeed x read : VecM α Access) fun r => held r.data := by
  intro w r w' hrun
  have hturn := succeed_hands (held x) x read w r w' hrun
  have hdata : r.data = x := by
    rw [succeed] at hrun
    obtain ⟨u, w1, -, hrun⟩ := Prog.bind_eq_ok.mp hrun
    obtain ⟨n, w2, -, hrun⟩ := Prog.bind_eq_ok.mp hrun
    cases hrun
    rfl
  simpa only [hdata] using hturn

theorem multiTarget_hands (info : VectorInitInfo α) (now : Option Ptr) :
    Handing (held now) (multiTarget info now) held := by
  cases now with
  | none => exact vectorCreate_hands info 16
  | some p =>
      apply (sgVectorClear_hands (some p)).bind
      intro _
      exact .pure rfl

theorem multiCompAccess_loses {n : Nat} {fnInt : FillFn α} (hloses : fnInt.Loses n) (now : Option Ptr) :
    Prog.Loses World.memory n (held now) (multiCompAccess info fnInt now) fun r => held r.2 := by
  apply (multiTarget_hands info now).bind_loses
  intro target
  cases target with
  | none => exact Prog.Hands.loses (.pure rfl)
  | some p =>
      apply (hloses (some p)).bind_hands
      intro r
      apply Prog.Hands.ite
      · intro _
        apply (succeed_hands _ _ _).bind
        intro result
        exact .pure rfl
      · intro _
        exact .pure rfl

theorem multiCompAccessR_loses {n : Nat} {fnInt : FillFn α} (hloses : fnInt.Loses n) :
    Prog.Loses World.memory n 0 (multiCompAccessR info fnInt) fun r => held r.data := by
  apply (vectorCreate_hands info 16).bind_loses
  intro vector
  cases vector with
  | none => exact Prog.Hands.loses (.pure rfl)
  | some p =>
      apply (hloses (some p)).bind_hands
      intro r
      apply Prog.Hands.ite
      · intro _
        exact succeed_hands_data r.2 _
      · intro _
        apply (sgVectorFree_hands r.2).bind
        intro _
        exact .pure rfl

theorem diffTarget_hands (info : VectorInitInfo α) (n : Ptr) (diff : Option Ptr) :
    Handing (held diff) (diffTarget info n diff) held := by
  cases diff with
  | some d => exact .pure rfl
  | none =>
      apply (deref_hands _ n).bind
      intro v
      exact vectorCreate_hands info v.usedCount

theorem sgVectorComputeDiff_hands (dest cur : Option Ptr) (l : Ptr) :
    Handing (held dest + held cur) (sgVectorComputeDiff dest cur (some l) : VecM α _)
      fun r => held r.2 + held cur := by
  intro w r w' hrun rest hacc
  exact sgVectorComputeDiff_turns hrun hacc (fun hnone => by cases hnone) rest hacc

theorem diffFinish_hands (d l : Ptr) (read : Option SgError) (now : Option Ptr) :
    Handing ({d} + held now + {l}) (diffFinish d l read now : VecM α _)
      fun r => held r.2.1 + held r.2.2 := by
  apply ((sgVectorComputeDiff_hands (some d) now l).frame {l}).bind
  intro r
  have hfree := (sgVectorFree_hands (α := α) (some l)).frame (held r.2 + held now)
  rw [zero_add, add_comm] at hfree
  apply hfree.bind
  intro _
  have hsum : held now + held r.2 = held r.2 + held now := add_comm _ _
  apply Prog.Hands.ite
  · intro _
    apply (succeed_hands _ _ _).bind
    intro result
    exact .pure hsum
  · intro _
    exact .pure hsum

theorem multiCompDiff_loses {m : Nat} {fnInt : FillFn α} (hloses : fnInt.Loses m) (now diff : Option Ptr) :
    Prog.Loses World.memory m (held now + held diff) (multiCompDiff info fnInt now diff)
      fun r => held r.2.1 + held r.2.2 := by
  cases now with
  | none =>
      apply ((multiCompAccess_loses hloses none).frame (held diff)).bind_hands
      intro r
      exact .pure rfl
  | some n =>
      have htarget := (diffTarget_hands info n diff).frame (held (some n))
      rw [add_comm] at htarget
      apply htarget.bind_loses
      intro target
      cases target with
      | none => exact Prog.Hands.loses (.pure (add_comm _ _))
      | some d =>
          have hclone := (sgVectorClone_hands (α := α) n).frame {d}
          rw [add_comm] at hclone
          apply hclone.bind_loses
          intro last
          cases last with
          | none => exact Prog.Hands.loses (.pure (by simp))
          | some l =>
              have hget := (@multiCompAccess_loses α info m fnInt hloses (some n)).frame
                (held (some d) + held (some l))
              have hsum : held (some l) + held (some n) + held (some d)
                  = held (some n) + (held (some d) + held (some l)) := by
                rw [add_comm (held (some l)), add_assoc, add_comm (held (some l))]
              apply Prog.Loses.of_eq (hget.bind_hands _) hsum fun _ => rfl
              intro r
              apply (diffFinish_hands d l r.1.read r.2).of_eq _ fun _ => rfl
              rw [← add_assoc, add_comm (held r.2)]
              rfl

theorem multiCompDiffBetween_turns {w w' : World α} {cur last : Option Ptr} {r : Access}
    (hrun : multiCompDiffBetween info cur last w = .ok (r, w')) {rest : Nat → Prop}
    (hacc : w.memory.Accounts (held cur) rest) :
    w.memory.Turns w'.memory (held cur) (held r.data + held cur) := by
  rw [multiCompDiffBetween] at hrun
  obtain ⟨diff, w1, hcreate, hrun⟩ := Prog.bind_eq_ok.mp hrun
  have hcreated := (vectorCreate_hands info 1).frame (held cur) w diff w1 hcreate
  rw [zero_add] at hcreated
  cases diff with
  | none =>
      cases hrun
      simpa [Access.failed] using hcreated
  | some d =>
      obtain ⟨⟨rc, x⟩, w2, hdiff, hrun⟩ := Prog.bind_eq_ok.mp hrun
      have hempty : ∀ e v, some d = some e → w1.store e = some v → v.usedCount = 0 := by
        intro e v he hv
        cases he
        rw [vectorCreate, sgVectorCreate, show blockShiftOf 1 = some 0 by decide] at hcreate
        obtain ⟨u, hu, hused⟩ := sgVectorCreateInt_used hcreate
        rw [hv] at hu
        cases hu
        exact hused
      have hturn := hcreated.trans
        (sgVectorComputeDiff_turns hdiff (hcreated rest hacc).1 fun _ => hempty)
      by_cases hrc : rc = .none
      · simp only [if_pos hrc] at hrun
        exact hturn.trans ((succeed_hands_data x _).frame (held cur) w2 r w' hrun)
      · simp only [if_neg hrc] at hrun
        obtain ⟨u, w3, hfree, hrun⟩ := Prog.bind_eq_ok.mp hrun
        cases hrun
        exact hturn.trans ((sgVectorFree_hands x).frame (held cur) w2 u _ hfree)

/-! ### Statistics with one item -/

theorem easyTarget_hands (info : VectorInitInfo α) (now : Option Ptr) :
    Handing (held now) (easyTarget info now) held := by
  cases now with
  | none => exact sgVectorCreate_hands 1 1 1 info
  | some p => exact .pure rfl

theorem easyCompAccess_hands (fnInt : ItemFn α) (now : Option Ptr) :
    Handing (held now) (easyCompAccess info fnInt now) fun r => held r.2 := by
  apply (easyTarget_hands info now).bind
  intro target
  cases target with
  | none => exact .pure rfl
  | some p =>
      apply (onItem_hands p 0 fnInt).bind
      intro rc
      apply Prog.Hands.ite
      · intro _
        apply (succeed_hands _ _ _).bind
        intro result
        exact .pure rfl
      · intro _
        exact .pure rfl

theorem easyCompAccessR_hands (fnInt : ItemFn α) :
    Handing 0 (easyCompAccessR info fnInt) fun r => held r.data := by
  apply (sgVectorCreate_hands 1 1 1 info).bind
  intro vector
  cases vector with
  | none => exact .pure rfl
  | some p =>
      apply (onItem_hands p 0 fnInt).bind
      intro rc
      apply Prog.Hands.ite
      · intro _
        exact succeed_hands_data (some p) _
      · intro _
        apply (sgVectorFree_hands (some p)).bind
        intro _
        exact .pure rfl

theorem easyCompDiff_hands (fnInt : ItemFn α) (diffInt : α → α → α → ThreadM (SgError × α))
    (now diff : Option Ptr) :
    Handing (held now + held diff) (easyCompDiff info fnInt diffInt now diff)
      fun r => held r.2.1 + held r.2.2 := by
  cases now with
  | none =>
      apply ((easyCompAccess_hands fnInt none).frame (held diff)).bind
      intro r
      exact .pure rfl
  | some n =>
      have htarget := (easyTarget_hands info diff).frame (held (some n))
      rw [add_comm] at htarget
      apply htarget.bind
      intro target
      cases target with
      | none => exact .pure (add_comm _ _)
      | some d =>
          apply (deref_hands _ n).bind
          intro v
          apply (touch_hands _ v 1).bind
          intro _
          have hget := (@easyCompAccess_hands α info fnInt (some n)).frame (held (some d))
          rw [add_comm (held (some d))]
          apply hget.bind
          intro r
          apply Prog.Hands.ite
          · intro _
            apply (deref_hands _ n).bind
            intro v
            have hitem : ∀ fn : ItemFn α, Handing (held r.2 + {d}) (onItem d 0 fn)
                fun _ => held r.2 + {d} := by
              intro fn
              rw [add_comm]
              exact (onItem_hands d 0 fn).frame (held r.2)
            apply (hitem _).bind
            intro rc
            apply Prog.Hands.ite
            · intro _
              apply (succeed_hands _ _ _).bind
              intro result
              exact .pure rfl
            · intro _
              exact .pure rfl
          · intro _
            exact .pure rfl

end Statgrab
