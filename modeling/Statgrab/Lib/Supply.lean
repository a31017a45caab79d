import Statgrab.Lib.Prog

/-!
# Requests that may be refused

A supply answers the requests of a program in order, each with a yes or a no. Most programs stop at the
first no: what such a program does is decided by the number of requests it would make, and by where the
supply has its first no. `Served` is this account of one run, and accounts of consecutive parts add up.
-/

/-- The answers to the requests to come. -/
abbrev Supply := Nat → Bool

namespace Supply

variable {m : Supply} {a b j k n : Nat}

def after (m : Supply) (n : Nat) : Supply := fun k => m (n + k)

def Grants (m : Supply) (n : Nat) : Prop := ∀ k < n, m k = true

/-- The first request that is refused is the one behind `n` others. -/
def Refuses (m : Supply) (n : Nat) : Prop := m.Grants n ∧ m n = false

instance (m : Supply) (n : Nat) : Decidable (m.Grants n) :=
  inferInstanceAs (Decidable (∀ k < n, m k = true))

instance (m : Supply) (n : Nat) : Decidable (m.Refuses n) :=
  inferInstanceAs (Decidable (m.Grants n ∧ m n = false))

@[simp] theorem after_apply (m : Supply) (n k : Nat) : m.after n k = m (n + k) := rfl

@[simp] theorem after_zero (m : Supply) : m.after 0 = m := by
  funext k
  exact congrArg m (Nat.zero_add k)

@[simp] theorem after_after (m : Supply) (a b : Nat) : (m.after a).after b = m.after (a + b) := by
  funext k
  exact congrArg m (Nat.add_assoc a b k).symm

@[simp] theorem grants_zero (m : Supply) : m.Grants 0 := fun _ hk => absurd hk (Nat.not_lt_zero _)

@[simp] theorem grants_one : m.Grants 1 ↔ m 0 = true := by
  constructor
  · exact fun h => h 0 Nat.zero_lt_one
  · intro h k hk
    rwa [Nat.lt_one_iff.mp hk]

theorem grants_add : m.Grants (a + b) ↔ m.Grants a ∧ (m.after a).Grants b := by
  constructor
  · exact fun h => ⟨fun k hk => h k (by omega), fun k hk => h (a + k) (by omega)⟩
  · rintro ⟨ha, hb⟩ k hk
    by_cases hlt : k < a
    · exact ha k hlt
    · obtain ⟨j, rfl⟩ := Nat.exists_eq_add_of_le (Nat.not_lt.mp hlt)
      exact hb j (by omega)

theorem Grants.mono (h : m.Grants n) (hle : k ≤ n) : m.Grants k :=
  fun j hj => h j (Nat.lt_of_lt_of_le hj hle)

theorem Refuses.unique (hj : m.Refuses j) (hk : m.Refuses k) : j = k := by
  rcases Nat.lt_trichotomy j k with hlt | heq | hlt
  · exact absurd (hk.1 j hlt) (by simp [hj.2])
  · exact heq
  · exact absurd (hj.1 k hlt) (by simp [hk.2])

theorem Refuses.not_grants (h : m.Refuses k) (hlt : k < n) : ¬ m.Grants n := by
  intro hall
  exact absurd (hall k hlt) (by simp [h.2])

/-- The program stopped at the request behind `n` others, which was refused, and left `m'`. -/
structure Stops (m m' : Supply) (n : Nat) : Prop where
  refuses : m.Refuses n
  rest : m' = m.after (n + 1)

theorem Stops.add {m' : Supply} (ha : m.Grants a) (h : (m.after a).Stops m' k) : m.Stops m' (a + k) := by
  refine ⟨⟨grants_add.mpr ⟨ha, h.refuses.1⟩, h.refuses.2⟩, ?_⟩
  rw [h.rest, after_after, Nat.add_assoc]

end Supply

/-- A program that stops at the first refusal was to make `n` requests, which took the supply from `m` to
`m'`. All were granted, which `ok` says, or it stopped at one of them. -/
def Served (m m' : Supply) (n : Nat) (ok : Prop) : Prop :=
  (ok ∧ m.Grants n ∧ m' = m.after n) ∨ (¬ ok ∧ ∃ k < n, m.Stops m' k)

namespace Served

variable {m m' m'' : Supply} {a b n : Nat} {p q ok : Prop}

theorem ok_iff (h : Served m m' n ok) : ok ↔ m.Grants n := by
  rcases h with ⟨hok, hgrants, -⟩ | ⟨hok, k, hk, hstops⟩
  · exact iff_of_true hok hgrants
  · exact iff_of_false hok (hstops.refuses.not_grants hk)

theorem rest (h : Served m m' n ok) (hok : ok) : m' = m.after n := by
  rcases h with ⟨-, -, hrest⟩ | ⟨hnot, -⟩
  · exact hrest
  · exact absurd hok hnot

theorem stopped (h : Served m m' n ok) (hok : ¬ ok) : ∃ k < n, m.Stops m' k := by
  rcases h with ⟨hcon, -⟩ | ⟨-, hstopped⟩
  · exact absurd hcon hok
  · exact hstopped

theorem none (hok : ok) : Served m m 0 ok := .inl ⟨hok, m.grants_zero, m.after_zero.symm⟩

theorem one_granted (hmem : m 0 = true) (hok : ok) : Served m (m.after 1) 1 ok :=
  .inl ⟨hok, Supply.grants_one.mpr hmem, rfl⟩

theorem one_refused (hmem : m 0 = false) (hok : ¬ ok) : Served m (m.after 1) 1 ok :=
  .inr ⟨hok, 0, Nat.zero_lt_one, ⟨m.grants_zero, hmem⟩, rfl⟩

/-- Whatever was asked, a supply that grants everything still does. -/
theorem keeps (h : Served m m' n ok) (hall : ∀ k, m k = true) (k : Nat) : m' k = true := by
  rcases h with ⟨-, -, rfl⟩ | ⟨-, j, -, -, rfl⟩
  · exact hall (n + k)
  · exact hall (j + 1 + k)

theorem congr (h : Served m m' n p) (hiff : p ↔ q) : Served m m' n q := by
  rwa [← propext hiff]

/-- A part that was served is followed by another one. -/
theorem trans (h : Served m m' a p) (hp : p) (h' : Served m' m'' b q) : Served m m'' (a + b) q := by
  obtain rfl := h.rest hp
  have hgrants := h.ok_iff.mp hp
  rcases h' with ⟨hq, hgrants', rfl⟩ | ⟨hq, k, hk, hstops⟩
  · exact .inl ⟨hq, Supply.grants_add.mpr ⟨hgrants, hgrants'⟩, Supply.after_after m a b⟩
  · exact .inr ⟨hq, a + k, by omega, hstops.add hgrants⟩

theorem stop (h : Served m m' a p) (hp : ¬ p) (hq : ¬ q) : Served m m' (a + b) q := by
  obtain ⟨k, hk, hstops⟩ := h.stopped hp
  exact .inr ⟨hq, k, by omega, hstops⟩

end Served

namespace Prog

variable {ε σ α β : Type} {mem : σ → Supply} {x : Prog ε σ α} {f : α → Prog ε σ β} {a b : Nat}
  {p : α → Prop} {q : β → Prop}

/-- Where it returns, the program was to make `n` requests, and its value tells whether they were
granted. -/
def Asks (mem : σ → Supply) (x : Prog ε σ α) (n : Nat) (ok : α → Prop) : Prop :=
  ∀ s r s', x s = .ok (r, s') → Served (mem s) (mem s') n (ok r)

/-- The program makes no request and returns a value for a refusal. -/
def Quits (mem : σ → Supply) (x : Prog ε σ α) (ok : α → Prop) : Prop :=
  ∀ s r s', x s = .ok (r, s') → mem s' = mem s ∧ ¬ ok r

namespace Asks

theorem pure {r : α} (h : p r) : Asks mem (Pure.pure r : Prog ε σ α) 0 p := by
  intro s t s' hrun
  cases hrun
  exact .none h

/-- The requests of consecutive parts add up. -/
theorem bind (hx : x.Asks mem a p) (hgo : ∀ r, p r → (f r).Asks mem b q)
    (hstop : ∀ r, ¬ p r → (f r).Quits mem q) : (x >>= f).Asks mem (a + b) q := by
  intro s t s'' hrun
  obtain ⟨r, s', hrun, hrest⟩ := bind_eq_ok.mp hrun
  have hserved := hx s r s' hrun
  by_cases hp : p r
  · exact hserved.trans hp (hgo r hp s' t s'' hrest)
  · obtain ⟨hmem, hq⟩ := hstop r hp s' t s'' hrest
    rw [hmem]
    exact hserved.stop hp hq

end Asks

theorem Quits.pure {r : α} (h : ¬ p r) : Quits mem (Pure.pure r : Prog ε σ α) p := by
  intro s t s' hrun
  cases hrun
  exact ⟨rfl, h⟩

end Prog
