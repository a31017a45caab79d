import Mathlib.Logic.Function.Basic
import Mathlib.Order.Basic

/-!
# Programs over a state that may fault

A computation reads and writes a state and either returns a value or stops with a fault: the
behaviour the language leaves undefined, after which nothing more can be said of the run. Programs
compose by `bind`, and the rules below are the ones a proof walks a program with: read the result of
the first part, continue with the second one from there.

`zoom` runs a program over a part of a larger state. A fault of the part is a fault of the whole.
-/

/-- A computation over the state `σ` that returns an `α` or faults with an `ε`. -/
def Prog (ε σ α : Type) : Type := σ → Except ε (α × σ)

namespace Prog

variable {ε σ τ α β : Type}

instance : Monad (Prog ε σ) where
  pure a := fun s => .ok (a, s)
  bind x f := fun s =>
    match x s with
    | .error e => .error e
    | .ok (a, s') => f a s'

def fault (e : ε) : Prog ε σ α := fun _ => .error e

def gets (f : σ → α) : Prog ε σ α := fun s => .ok (f s, s)

def modify (f : σ → σ) : Prog ε σ Unit := fun s => .ok ((), f s)

/-- Run a program over the part of the state that `get` reads and `set` writes back. -/
def zoom (get : τ → σ) (set : τ → σ → τ) (x : Prog ε σ α) : Prog ε τ α := fun t =>
  match x (get t) with
  | .error e => .error e
  | .ok (a, s) => .ok (a, set t s)

@[simp] theorem pure_run (a : α) (s : σ) : (pure a : Prog ε σ α) s = .ok (a, s) := rfl

@[simp] theorem fault_run (e : ε) (s : σ) : (fault e : Prog ε σ α) s = .error e := rfl

@[simp] theorem gets_run (f : σ → α) (s : σ) : (gets f : Prog ε σ α) s = .ok (f s, s) := rfl

@[simp] theorem modify_run (f : σ → σ) (s : σ) : (modify f : Prog ε σ Unit) s = .ok ((), f s) := rfl

theorem bind_run (x : Prog ε σ α) (f : α → Prog ε σ β) (s : σ) :
    (x >>= f) s = match x s with
      | .error e => .error e
      | .ok (a, s') => f a s' := rfl

theorem bind_of_ok {x : Prog ε σ α} {s s' : σ} {a : α} (hx : x s = .ok (a, s'))
    (f : α → Prog ε σ β) : (x >>= f) s = f a s' := by
  rw [bind_run, hx]

/-- A fault of the first part is a fault of the whole. -/
theorem bind_of_error {x : Prog ε σ α} {s : σ} {e : ε} (hx : x s = .error e)
    (f : α → Prog ε σ β) : (x >>= f) s = .error e := by
  rw [bind_run, hx]

/-- A sequence that returned splits into two parts that returned. -/
theorem bind_eq_ok {x : Prog ε σ α} {f : α → Prog ε σ β} {s s'' : σ} {b : β} :
    (x >>= f) s = .ok (b, s'') ↔ ∃ a s', x s = .ok (a, s') ∧ f a s' = .ok (b, s'') := by
  rw [bind_run]
  cases hx : x s with
  | error e => simp
  | ok r =>
      obtain ⟨a, s'⟩ := r
      constructor
      · intro h
        exact ⟨a, s', rfl, h⟩
      · rintro ⟨a', t, heq, h⟩
        cases heq
        exact h

theorem zoom_of_ok {get : τ → σ} {set : τ → σ → τ} {x : Prog ε σ α} {t : τ} {a : α} {s : σ}
    (hx : x (get t) = .ok (a, s)) : zoom get set x t = .ok (a, set t s) := by
  simp only [zoom, hx]

theorem zoom_eq_ok {get : τ → σ} {set : τ → σ → τ} {x : Prog ε σ α} {t t' : τ} {a : α} :
    zoom get set x t = .ok (a, t') ↔ ∃ s, x (get t) = .ok (a, s) ∧ t' = set t s := by
  unfold zoom
  cases hx : x (get t) with
  | error e => simp
  | ok r =>
      obtain ⟨b, s⟩ := r
      constructor
      · intro h
        cases h
        exact ⟨s, rfl, rfl⟩
      · rintro ⟨s', heq, rfl⟩
        cases heq
        rfl

/-! ### Returned values -/

/-- What the program returns, if it returns, is as `P` says. -/
def Returns (x : Prog ε σ α) (P : α → Prop) : Prop := ∀ s a s', x s = .ok (a, s') → P a

namespace Returns

variable {x y : Prog ε σ α} {f : α → Prog ε σ β} {P : α → Prop} {Q : β → Prop}

theorem any (x : Prog ε σ α) : x.Returns fun _ => True := fun _ _ _ _ => trivial

theorem pure {a : α} (h : P a) : Returns (ε := ε) (σ := σ) (Pure.pure a) P := by
  intro s b s' hrun
  cases hrun
  exact h

theorem bind (hx : x.Returns P) (hf : ∀ a, P a → (f a).Returns Q) : (x >>= f).Returns Q := by
  intro s b s'' hrun
  obtain ⟨a, s', hrun, hrest⟩ := bind_eq_ok.mp hrun
  exact hf a (hx s a s' hrun) s' b s'' hrest

theorem ite {c : Prop} [Decidable c] (hx : x.Returns P) (hy : y.Returns P) :
    Returns (if c then x else y) P := by
  by_cases hc : c
  · rwa [if_pos hc]
  · rwa [if_neg hc]

end Returns

/-! ### Kept properties of the state -/

/-- A state with the property stays one. -/
def Keeps (I : σ → Prop) (x : Prog ε σ α) : Prop := ∀ s a s', I s → x s = .ok (a, s') → I s'

namespace Keeps

variable {I : σ → Prop} {x y : Prog ε σ α} {f : α → Prog ε σ β}

theorem pure (a : α) : Keeps (ε := ε) I (Pure.pure a) := by
  intro s b s' hs hrun
  cases hrun
  exact hs

theorem fault (e : ε) : Keeps (α := α) I (Prog.fault e) := by
  intro s a s' _ hrun
  cases hrun

theorem gets (f : σ → α) : Keeps (ε := ε) I (Prog.gets f) := by
  intro s a s' hs hrun
  cases hrun
  exact hs

theorem modify {f : σ → σ} (h : ∀ s, I s → I (f s)) : Keeps (ε := ε) I (Prog.modify f) := by
  intro s a s' hs hrun
  cases hrun
  exact h s hs

theorem bind (hx : x.Keeps I) (hf : ∀ a, (f a).Keeps I) : (x >>= f).Keeps I := by
  intro s b s'' hs hrun
  obtain ⟨a, s', hrun, hrest⟩ := bind_eq_ok.mp hrun
  exact hf a s' b s'' (hx s a s' hs hrun) hrest

theorem ite {c : Prop} [Decidable c] (hx : x.Keeps I) (hy : y.Keeps I) : Keeps I (if c then x else y) := by
  by_cases hc : c
  · rwa [if_pos hc]
  · rwa [if_neg hc]

end Keeps

end Prog
