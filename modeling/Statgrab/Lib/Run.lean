import Statgrab.Lib.Prog

/-!
# Runs of commands

A run applies one command after the other to a state. `Always step P s cs` says that `P` holds of
every command of the run `cs` from `s` and of the state it meets; after a fault nothing more is asked.
`Always.imp` is the invariant rule: what holds of each step from the states of an invariant holds along
the run. `Always.congr` is its form for two properties that agree on each step.
-/

namespace Prog

variable {ε σ κ : Type} {step : κ → Prog ε σ Unit} {I : σ → Prop} {V P Q : σ → κ → Prop}

/-- `P` holds of every command of the run and the state it is applied to. -/
def Always (step : κ → Prog ε σ Unit) (P : σ → κ → Prop) : σ → List κ → Prop
  | _, [] => True
  | s, c :: cs => P s c ∧ ∀ s', step c s = .ok ((), s') → Always step P s' cs

theorem always_cons_of_ok {s s' : σ} {c : κ} (hrun : step c s = .ok ((), s')) (cs : List κ) :
    Always step P s (c :: cs) ↔ P s c ∧ Always step P s' cs := by
  constructor
  · intro h
    exact ⟨h.1, h.2 s' hrun⟩
  · intro h
    refine ⟨h.1, ?_⟩
    intro t ht
    rw [hrun] at ht
    cases ht
    exact h.2

theorem always_true (cs : List κ) (s : σ) : Always step (fun _ _ => True) s cs := by
  induction cs generalizing s with
  | nil => trivial
  | cons c cs ih => exact ⟨trivial, fun s' _ => ih s'⟩

theorem Always.of_forall {cs : List κ} (h : ∀ c ∈ cs, ∀ s, P s c) (s : σ) : Always step P s cs := by
  induction cs generalizing s with
  | nil => trivial
  | cons c cs ih =>
      refine ⟨h c List.mem_cons_self s, ?_⟩
      intro s' _
      exact ih (fun c hc => h c (List.mem_cons_of_mem _ hc)) s'

theorem Always.and {cs : List κ} {s : σ} (hP : Always step P s cs) (hQ : Always step Q s cs) :
    Always step (fun s c => P s c ∧ Q s c) s cs := by
  induction cs generalizing s with
  | nil => trivial
  | cons c cs ih =>
      refine ⟨⟨hP.1, hQ.1⟩, ?_⟩
      intro s' hs'
      exact ih (hP.2 s' hs') (hQ.2 s' hs')

theorem Always.imp (hP : ∀ s c, I s → V s c → P s c)
    (hstep : ∀ s c s', I s → V s c → step c s = .ok ((), s') → I s') {cs : List κ} {s : σ}
    (hs : I s) (hV : Always step V s cs) : Always step P s cs := by
  induction cs generalizing s with
  | nil => trivial
  | cons c cs ih =>
      refine ⟨hP s c hs hV.1, ?_⟩
      intro s' hs'
      exact ih (hstep s c s' hs hV.1 hs') (hV.2 s' hs')

theorem Always.congr (hiff : ∀ s c, I s → V s c → (P s c ↔ Q s c))
    (hstep : ∀ s c s', I s → V s c → Q s c → step c s = .ok ((), s') → I s') {cs : List κ} {s : σ}
    (hs : I s) (hV : Always step V s cs) : Always step P s cs ↔ Always step Q s cs := by
  constructor
  · intro hP
    refine Always.imp ?_ ?_ hs (hV.and hP)
    · intro s c hs hc
      exact (hiff s c hs hc.1).mp hc.2
    · intro s c s' hs hc hrun
      exact hstep s c s' hs hc.1 ((hiff s c hs hc.1).mp hc.2) hrun
  · intro hQ
    refine Always.imp ?_ ?_ hs (hV.and hQ)
    · intro s c hs hc
      exact (hiff s c hs hc.1).mpr hc.2
    · intro s c s' hs hc hrun
      exact hstep s c s' hs hc.1 hc.2 hrun

/-! ### The end of a run -/

def sequence (step : κ → Prog ε σ Unit) : List κ → Prog ε σ Unit
  | [] => pure ()
  | c :: cs => do
      step c
      sequence step cs

theorem sequence_cons {s s' : σ} {c : κ} (hrun : step c s = .ok ((), s')) (cs : List κ) :
    sequence step (c :: cs) s = sequence step cs s' := bind_of_ok hrun _

/-- What holds at the start and is kept by each step holds at the end of a run. -/
theorem Always.final (hstep : ∀ s c s', I s → V s c → step c s = .ok ((), s') → I s') {cs : List κ}
    {s s' : σ} (hs : I s) (hV : Always step V s cs) (hrun : sequence step cs s = .ok ((), s')) : I s' := by
  induction cs generalizing s with
  | nil =>
      cases hrun
      exact hs
  | cons c cs ih =>
      obtain ⟨u, s1, hc, hrest⟩ := bind_eq_ok.mp hrun
      exact ih (hstep s c s1 hs hV.1 hc) (hV.2 s1 hc) hrest

end Prog
