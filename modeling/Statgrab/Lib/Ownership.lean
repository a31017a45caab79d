import Mathlib.Algebra.Order.Group.Multiset
import Mathlib.Data.Multiset.UnionInter
import Statgrab.Lib.Prog

/-!
# Who holds which block

A memory gives its blocks out at addresses that were never used before and counts how often each was
given back. `Accounts own rest` is the balance of such a memory: the blocks of `own` and of `rest` are
there, no block is held twice, and every other address that was given out has been given back exactly
once. There is no leak and no double release.

`Turns old new` says what happened to a memory from the side of one party: it held `old`, it holds
`new`, and whatever the others held, the balance is kept and their blocks are as they were. Since the
others are arbitrary, turns compose, and may be read with more blocks on both sides. `Prog.Hands` is the
same of a program, with one rule for each way to build one. `Prog.Loses` allows a program to drop some of its
blocks: nobody holds them any more, and they are not given back.
-/

/-- What a memory shows: the block behind each address, the next address, and how often the block of
each address was given back. -/
structure Memory (β : Type) where
  blocks : Nat → Option β
  next : Nat
  frees : Nat → Nat

namespace Memory

variable {β : Type}

structure Live (m : Memory β) (p : Nat) : Prop where
  below : p < m.next
  block : ∃ b, m.blocks p = some b
  frees : m.frees p = 0

/-- The block was given back, once. -/
structure Dead (m : Memory β) (p : Nat) : Prop where
  block : m.blocks p = none
  frees : m.frees p = 1

/-- The balance of a memory between a party that holds `own` and the others. -/
structure Accounts (m : Memory β) (own : Multiset Nat) (rest : Nat → Prop) : Prop where
  nodup : own.Nodup
  apart : ∀ p ∈ own, ¬ rest p
  mine : ∀ p ∈ own, m.Live p
  others : ∀ p, rest p → m.Live p
  dead : ∀ p < m.next, p ∉ own → ¬ rest p → m.Dead p
  unborn : ∀ p, m.next ≤ p → m.blocks p = none ∧ m.frees p = 0

/-- The party that held `old` holds `new`, and the others have not noticed. -/
def Turns (m m' : Memory β) (old new : Multiset Nat) : Prop :=
  ∀ rest, m.Accounts old rest →
    m'.Accounts new rest ∧ m.next ≤ m'.next ∧ ∀ p, rest p → m'.blocks p = m.blocks p

variable {m m' m'' : Memory β} {old new new' own more : Multiset Nat} {rest : Nat → Prop} {p : Nat}

/-- Blocks of the party may be counted among those of the others. -/
theorem accounts_add :
    m.Accounts (own + more) rest ↔
      more.Nodup ∧ (∀ p ∈ more, ¬ rest p) ∧ m.Accounts own fun p => rest p ∨ p ∈ more := by
  constructor
  · intro h
    obtain ⟨hown, hmore, hdisj⟩ := Multiset.nodup_add.mp h.nodup
    refine ⟨hmore, fun p hp => h.apart p (Multiset.mem_add.mpr (.inr hp)), hown, ?_, ?_, ?_, ?_,
      h.unborn⟩
    · rintro p hp (hrest | hp')
      · exact h.apart p (Multiset.mem_add.mpr (.inl hp)) hrest
      · exact Multiset.disjoint_left.mp hdisj hp hp'
    · intro p hp
      exact h.mine p (Multiset.mem_add.mpr (.inl hp))
    · rintro p (hrest | hp)
      · exact h.others p hrest
      · exact h.mine p (Multiset.mem_add.mpr (.inr hp))
    · intro p hlt hp hnot
      rw [not_or] at hnot
      apply h.dead p hlt _ hnot.1
      rw [Multiset.mem_add]
      exact not_or.mpr ⟨hp, hnot.2⟩
  · rintro ⟨hmore, hapart, h⟩
    refine ⟨Multiset.nodup_add.mpr ⟨h.nodup, hmore, ?_⟩, ?_, ?_, ?_, ?_, h.unborn⟩
    · rw [Multiset.disjoint_left]
      intro p hp hp'
      exact h.apart p hp (.inr hp')
    · intro p hp
      rcases Multiset.mem_add.mp hp with hp | hp
      · exact fun hrest => h.apart p hp (.inl hrest)
      · exact hapart p hp
    · intro p hp
      rcases Multiset.mem_add.mp hp with hp | hp
      · exact h.mine p hp
      · exact h.others p (.inr hp)
    · intro p hrest
      exact h.others p (.inl hrest)
    · intro p hlt hp hrest
      rw [Multiset.mem_add, not_or] at hp
      exact h.dead p hlt hp.1 (not_or.mpr ⟨hrest, hp.2⟩)

theorem Accounts.absent (h : m.Accounts own rest) (hp : p ∉ own) (hrest : ¬ rest p) :
    m.blocks p = none := by
  by_cases hlt : p < m.next
  · exact (h.dead p hlt hp hrest).block
  · exact (h.unborn p (Nat.le_of_not_lt hlt)).1

namespace Turns

theorem refl (m : Memory β) (old : Multiset Nat) : m.Turns m old old :=
  fun _ h => ⟨h, Nat.le_refl _, fun _ _ => rfl⟩

theorem trans (h : m.Turns m' old new) (h' : m'.Turns m'' new new') : m.Turns m'' old new' := by
  intro rest hacc
  obtain ⟨hacc', hle, hframe⟩ := h rest hacc
  obtain ⟨hacc'', hle', hframe'⟩ := h' rest hacc'
  exact ⟨hacc'', Nat.le_trans hle hle', fun p hp => (hframe' p hp).trans (hframe p hp)⟩

theorem frame (h : m.Turns m' old new) (more : Multiset Nat) : m.Turns m' (old + more) (new + more) := by
  intro rest hacc
  obtain ⟨hmore, hapart, hacc⟩ := accounts_add.mp hacc
  obtain ⟨hacc', hle, hframe⟩ := h _ hacc
  exact ⟨accounts_add.mpr ⟨hmore, hapart, hacc'⟩, hle, fun p hp => hframe p (.inl hp)⟩

theorem frame_blocks (h : m.Turns m' old new) (hacc : m.Accounts (old + more) rest) (hp : p ∈ more) :
    m'.blocks p = m.blocks p := by
  obtain ⟨-, -, hacc⟩ := accounts_add.mp hacc
  exact (h _ hacc).2.2 p (.inr hp)

theorem put {b : β} (hblocks : m'.blocks = Function.update m.blocks p (some b))
    (hnext : m'.next = m.next) (hfrees : m'.frees = m.frees) : m.Turns m' {p} {p} := by
  intro rest h
  have hp := h.mine p (Multiset.mem_singleton_self p)
  have hsame : ∀ q, q ≠ p → m'.blocks q = m.blocks q := by
    intro q hq
    rw [hblocks]
    exact Function.update_of_ne hq _ _
  have hlive : ∀ q, m.Live q → m'.Live q := by
    intro q hq
    refine ⟨hnext ▸ hq.below, ?_, hfrees ▸ hq.frees⟩
    by_cases heq : q = p
    · refine ⟨b, ?_⟩
      rw [heq, hblocks]
      exact Function.update_self _ _ _
    · rw [hsame q heq]
      exact hq.block
  have hne : ∀ q, q ∉ ({p} : Multiset Nat) → q ≠ p := by
    intro q hq heq
    exact hq (Multiset.mem_singleton.mpr heq)
  refine ⟨⟨h.nodup, h.apart, fun q hq => hlive q (h.mine q hq), fun q hq => hlive q (h.others q hq), ?_,
    ?_⟩, hnext.ge, ?_⟩
  · intro q hlt hq hrest
    have hdead := h.dead q (hnext ▸ hlt) hq hrest
    exact ⟨(hsame q (hne q hq)).trans hdead.block, hfrees ▸ hdead.frees⟩
  · intro q hq
    have hborn := h.unborn q (hnext ▸ hq)
    have hnp : q ≠ p := Nat.ne_of_gt (Nat.lt_of_lt_of_le hp.below (hnext ▸ hq))
    exact ⟨(hsame q hnp).trans hborn.1, hfrees ▸ hborn.2⟩
  · intro q hq
    apply hsame
    rintro rfl
    exact h.apart q (Multiset.mem_singleton_self q) hq

theorem place {b : β} (hblocks : m'.blocks = Function.update m.blocks m.next (some b))
    (hnext : m'.next = m.next + 1) (hfrees : m'.frees = m.frees) : m.Turns m' 0 {m.next} := by
  intro rest h
  have hsame : ∀ q, q ≠ m.next → m'.blocks q = m.blocks q := by
    intro q hq
    rw [hblocks]
    exact Function.update_of_ne hq _ _
  have hlive : ∀ q, m.Live q → m'.Live q := by
    intro q hq
    refine ⟨?_, ?_, hfrees ▸ hq.frees⟩
    · rw [hnext]
      exact Nat.lt_succ_of_lt hq.below
    · rw [hsame q (Nat.ne_of_lt hq.below)]
      exact hq.block
  refine ⟨⟨Multiset.nodup_singleton _, ?_, ?_, fun q hq => hlive q (h.others q hq), ?_, ?_⟩,
    hnext ▸ Nat.le_succ _, ?_⟩
  · intro q hq hrest
    rw [Multiset.mem_singleton.mp hq] at hrest
    exact Nat.lt_irrefl _ (h.others _ hrest).below
  · intro q hq
    rw [Multiset.mem_singleton.mp hq]
    refine ⟨by rw [hnext]; exact Nat.lt_succ_self _, ⟨b, ?_⟩, ?_⟩
    · rw [hblocks]
      exact Function.update_self _ _ _
    · rw [hfrees]
      exact (h.unborn _ (Nat.le_refl _)).2
  · intro q hlt hq hrest
    have hne : q ≠ m.next := fun heq => hq (Multiset.mem_singleton.mpr heq)
    rw [hnext] at hlt
    have hdead := h.dead q (by omega) (Multiset.notMem_zero q) hrest
    exact ⟨(hsame q hne).trans hdead.block, hfrees ▸ hdead.frees⟩
  · intro q hq
    rw [hnext] at hq
    have hborn := h.unborn q (by omega)
    exact ⟨(hsame q (by omega)).trans hborn.1, hfrees ▸ hborn.2⟩
  · intro q hq
    exact hsame q (Nat.ne_of_lt (h.others q hq).below)

theorem drop (hblocks : m'.blocks = Function.update m.blocks p none) (hnext : m'.next = m.next)
    (hfrees : m'.frees = Function.update m.frees p (m.frees p + 1)) : m.Turns m' {p} 0 := by
  intro rest h
  have hp := h.mine p (Multiset.mem_singleton_self p)
  have hsame : ∀ q, q ≠ p → m'.blocks q = m.blocks q ∧ m'.frees q = m.frees q := by
    intro q hq
    rw [hblocks, hfrees]
    exact ⟨Function.update_of_ne hq _ _, Function.update_of_ne hq _ _⟩
  have hrest : ∀ q, rest q → q ≠ p := by
    rintro q hq rfl
    exact h.apart q (Multiset.mem_singleton_self q) hq
  refine ⟨⟨Multiset.nodup_zero, ?_, ?_, ?_, ?_, ?_⟩, hnext.ge, ?_⟩
  · intro q hq
    exact absurd hq (Multiset.notMem_zero q)
  · intro q hq
    exact absurd hq (Multiset.notMem_zero q)
  · intro q hq
    obtain ⟨hb, hf⟩ := hsame q (hrest q hq)
    have hlive := h.others q hq
    exact ⟨hnext ▸ hlive.below, hb ▸ hlive.block, hf ▸ hlive.frees⟩
  · intro q hlt _ hq
    by_cases heq : q = p
    · subst heq
      refine ⟨?_, ?_⟩
      · rw [hblocks]
        exact Function.update_self _ _ _
      · rw [hfrees, Function.update_self, hp.frees]
    · obtain ⟨hb, hf⟩ := hsame q heq
      have hdead := h.dead q (hnext ▸ hlt) (fun hmem => heq (Multiset.mem_singleton.mp hmem)) hq
      exact ⟨hb.trans hdead.block, hf.trans hdead.frees⟩
  · intro q hq
    obtain ⟨hb, hf⟩ := hsame q (Nat.ne_of_gt (Nat.lt_of_lt_of_le hp.below (hnext ▸ hq)))
    have hborn := h.unborn q (hnext ▸ hq)
    exact ⟨hb.trans hborn.1, hf.trans hborn.2⟩
  · intro q hq
    exact (hsame q (hrest q hq)).1

end Turns

/-! ### Many parties -/

/-- Each block is held by one of many parties, or it was given back once. -/
structure Shared {ι : Type} (m : Memory β) (owns : ι → Multiset Nat) : Prop where
  nodup : ∀ i, (owns i).Nodup
  unique : ∀ i j p, p ∈ owns i → p ∈ owns j → i = j
  live : ∀ i, ∀ p ∈ owns i, m.Live p
  dead : ∀ p < m.next, (∀ i, p ∉ owns i) → m.Dead p
  unborn : ∀ p, m.next ≤ p → m.blocks p = none ∧ m.frees p = 0

namespace Shared

variable {ι : Type} [DecidableEq ι] {owns : ι → Multiset Nat} {i j : ι}

omit [DecidableEq ι] in
theorem accounts (h : m.Shared owns) (i : ι) :
    m.Accounts (owns i) fun p => ∃ j, j ≠ i ∧ p ∈ owns j := by
  refine ⟨h.nodup i, ?_, h.live i, ?_, ?_, h.unborn⟩
  · rintro p hp ⟨j, hne, hp'⟩
    exact hne (h.unique j i p hp' hp)
  · rintro p ⟨j, -, hp⟩
    exact h.live j p hp
  · intro p hlt hp hnone
    apply h.dead p hlt
    intro j hj
    by_cases hne : j = i
    · exact hp (hne ▸ hj)
    · exact hnone ⟨j, hne, hj⟩

theorem turn (h : m.Shared owns) (hturn : m.Turns m' (owns i) new) :
    m'.Shared (Function.update owns i new) ∧ m.next ≤ m'.next ∧
      ∀ j, j ≠ i → ∀ p ∈ owns j, m'.blocks p = m.blocks p := by
  obtain ⟨hacc, hle, hframe⟩ := hturn _ (h.accounts i)
  have hself : Function.update owns i new i = new := Function.update_self _ _ _
  have hother : ∀ j, j ≠ i → Function.update owns i new j = owns j :=
    fun j hj => Function.update_of_ne hj _ _
  refine ⟨⟨?_, ?_, ?_, ?_, hacc.unborn⟩, hle, fun j hj p hp => hframe p ⟨j, hj, hp⟩⟩
  · intro j
    by_cases hj : j = i
    · rw [hj, hself]
      exact hacc.nodup
    · rw [hother j hj]
      exact h.nodup j
  · intro j l p hp hp'
    by_cases hj : j = i
    · by_cases hl : l = i
      · rw [hj, hl]
      · rw [hj, hself] at hp
        rw [hother l hl] at hp'
        exact absurd ⟨l, hl, hp'⟩ (hacc.apart p hp)
    · rw [hother j hj] at hp
      by_cases hl : l = i
      · rw [hl, hself] at hp'
        exact absurd ⟨j, hj, hp⟩ (hacc.apart p hp')
      · rw [hother l hl] at hp'
        exact h.unique j l p hp hp'
  · intro j p hp
    by_cases hj : j = i
    · rw [hj, hself] at hp
      exact hacc.mine p hp
    · rw [hother j hj] at hp
      exact hacc.others p ⟨j, hj, hp⟩
  · intro p hlt hnone
    apply hacc.dead p hlt
    · have hi := hnone i
      rwa [hself] at hi
    · rintro ⟨j, hj, hp⟩
      have hjp := hnone j
      rw [hother j hj] at hjp
      exact hjp hp

theorem give (h : m.Shared owns) (hne : i ≠ j) {rest : Multiset Nat} (hi : owns i = more + rest) :
    m.Shared (Function.update (Function.update owns i rest) j (more + owns j)) := by
  have hsplit := h.nodup i
  rw [hi, Multiset.nodup_add] at hsplit
  obtain ⟨hmore, hrest, hdisj⟩ := hsplit
  have hmem : ∀ p, p ∈ owns i ↔ p ∈ more ∨ p ∈ rest := by
    intro p
    rw [hi, Multiset.mem_add]
  -- who holds a block afterwards held it before, or it is one of `more`
  have hcases : ∀ l p, p ∈ Function.update (Function.update owns i rest) j (more + owns j) l ↔
      (l = j ∧ p ∈ more) ∨ (p ∈ owns l ∧ (l = i → p ∉ more)) := by
    intro l p
    by_cases hl : l = j
    · subst hl
      rw [Function.update_self, Multiset.mem_add]
      constructor
      · rintro (hp | hp)
        · exact .inl ⟨rfl, hp⟩
        · exact .inr ⟨hp, fun heq => absurd heq.symm hne⟩
      · rintro (⟨-, hp⟩ | ⟨hp, -⟩)
        · exact .inl hp
        · exact .inr hp
    · rw [Function.update_of_ne hl]
      by_cases hli : l = i
      · subst hli
        rw [Function.update_self, hmem]
        constructor
        · intro hp
          exact .inr ⟨.inr hp, fun _ hmore => Multiset.disjoint_left.mp hdisj hmore hp⟩
        · rintro (⟨hcon, -⟩ | ⟨hp, hnot⟩)
          · exact absurd hcon hl
          · exact hp.resolve_left (hnot rfl)
      · rw [Function.update_of_ne hli]
        constructor
        · intro hp
          exact .inr ⟨hp, fun hcon => absurd hcon hli⟩
        · rintro (⟨hcon, -⟩ | ⟨hp, -⟩)
          · exact absurd hcon hl
          · exact hp
  have hmine : ∀ p ∈ more, p ∈ owns i := fun p hp => (hmem p).mpr (.inl hp)
  refine ⟨?_, ?_, ?_, ?_, h.unborn⟩
  · intro l
    by_cases hl : l = j
    · subst hl
      rw [Function.update_self, Multiset.nodup_add]
      refine ⟨hmore, h.nodup l, ?_⟩
      rw [Multiset.disjoint_left]
      intro p hp hp'
      exact hne (h.unique i l p (hmine p hp) hp')
    · rw [Function.update_of_ne hl]
      by_cases hli : l = i
      · subst hli
        rwa [Function.update_self]
      · rw [Function.update_of_ne hli]
        exact h.nodup l
  · intro l l' p hp hp'
    rw [hcases] at hp hp'
    rcases hp with ⟨rfl, hp⟩ | ⟨hp, hnot⟩
    · rcases hp' with ⟨rfl, -⟩ | ⟨hp', hnot'⟩
      · rfl
      · have heq := h.unique l' i p hp' (hmine p hp)
        exact absurd hp (hnot' heq)
    · rcases hp' with ⟨rfl, hp'⟩ | ⟨hp', -⟩
      · have heq := h.unique l i p hp (hmine p hp')
        exact absurd hp' (hnot heq)
      · exact h.unique l l' p hp hp'
  · intro l p hp
    rcases (hcases l p).mp hp with ⟨-, hp⟩ | ⟨hp, -⟩
    · exact h.live i p (hmine p hp)
    · exact h.live l p hp
  · intro p hlt hnone
    apply h.dead p hlt
    intro l hl
    by_cases hp : p ∈ more
    · exact hnone j ((hcases j p).mpr (.inl ⟨rfl, hp⟩))
    · exact hnone l ((hcases l p).mpr (.inr ⟨hl, fun _ => hp⟩))

/-- One party turns its blocks into others, and gives some of them away. -/
theorem turn_give (h : m.Shared owns) (hne : i ≠ j) (hturn : m.Turns m' (owns i) (new + more)) :
    m'.Shared (Function.update (Function.update owns i new) j (more + owns j)) ∧ m.next ≤ m'.next ∧
      ∀ l, l ≠ i → ∀ p ∈ owns l, m'.blocks p = m.blocks p := by
  obtain ⟨hshared, hle, hframe⟩ := h.turn hturn
  have hself : Function.update owns i (new + more) i = more + new := by
    rw [Function.update_self, add_comm]
  have hgive := hshared.give hne hself
  rw [Function.update_idem, Function.update_of_ne hne.symm] at hgive
  exact ⟨hgive, hle, hframe⟩

end Shared

end Memory

namespace Prog

variable {ε σ α γ β : Type} {view : σ → Memory β}

/-- A run of the program that returned turned the blocks `old` of its caller into those of `new`. -/
def Hands (view : σ → Memory β) (old : Multiset Nat) (x : Prog ε σ α) (new : α → Multiset Nat) : Prop :=
  ∀ s a s', x s = .ok (a, s') → (view s).Turns (view s') old (new a)

namespace Hands

variable {x : Prog ε σ α} {f : α → Prog ε σ γ} {old : Multiset Nat} {new : α → Multiset Nat}
  {new' : γ → Multiset Nat}

theorem pure {a : α} (h : new a = old) : Hands (ε := ε) view old (Pure.pure a) new := by
  intro s b s' hrun
  cases hrun
  rw [h]
  exact .refl _ _

theorem fault (e : ε) : Hands view old (Prog.fault e : Prog ε σ α) new := by
  intro s a s' hrun
  cases hrun

theorem bind (hx : Hands view old x new) (hf : ∀ a, Hands view (new a) (f a) new') :
    Hands view old (x >>= f) new' := by
  intro s b s'' hrun
  obtain ⟨a, s', hrun, hrest⟩ := bind_eq_ok.mp hrun
  exact (hx s a s' hrun).trans (hf a s' b s'' hrest)

theorem frame (hx : Hands view old x new) (more : Multiset Nat) :
    Hands view (old + more) x fun a => new a + more :=
  fun s a s' hrun => (hx s a s' hrun).frame more

theorem same (hx : ∀ s a s', x s = .ok (a, s') → view s' = view s) : Hands view old x fun _ => old := by
  intro s a s' hrun
  rw [hx s a s' hrun]
  exact .refl _ _

theorem modify {g : σ → σ} {held : Multiset Nat} (hg : ∀ s, (view s).Turns (view (g s)) old held) :
    Hands view old (Prog.modify g : Prog ε σ Unit) fun _ => held := by
  intro s a s' hrun
  cases hrun
  exact hg s

theorem ite {c : Prop} [Decidable c] {y : Prog ε σ α} (hx : c → Hands view old x new)
    (hy : ¬ c → Hands view old y new) : Hands view old (if c then x else y) new := by
  by_cases hc : c
  · rw [if_pos hc]
    exact hx hc
  · rw [if_neg hc]
    exact hy hc

theorem of_eq {old' : Multiset Nat} {held : α → Multiset Nat} (hx : Hands view old' x held)
    (hold : old = old') (hnew : ∀ a, new a = held a) : Hands view old x new := by
  rw [hold, show new = held from funext hnew]
  exact hx

end Hands

/-- A run of the program that returned turned the blocks `old` of its caller into those of `new`, but for `n` of
them at most, which were lost. -/
def Loses (view : σ → Memory β) (n : Nat) (old : Multiset Nat) (x : Prog ε σ α) (new : α → Multiset Nat) : Prop :=
  ∀ s a s', x s = .ok (a, s') →
    ∃ lost : Multiset Nat, lost.card ≤ n ∧ (view s).Turns (view s') old (new a + lost)

section Loses

variable {n : Nat} {x : Prog ε σ α} {f : α → Prog ε σ γ} {old : Multiset Nat} {new : α → Multiset Nat}
  {new' : γ → Multiset Nat}

theorem Hands.loses (hx : Hands view old x new) : Loses view n old x new := by
  intro s a s' hrun
  refine ⟨0, Nat.zero_le n, ?_⟩
  rw [add_zero]
  exact hx s a s' hrun

theorem Hands.bind_loses (hx : Hands view old x new) (hf : ∀ a, Loses view n (new a) (f a) new') :
    Loses view n old (x >>= f) new' := by
  intro s b s'' hrun
  obtain ⟨a, s', hrun, hrest⟩ := bind_eq_ok.mp hrun
  obtain ⟨lost, hcard, hturn⟩ := hf a s' b s'' hrest
  exact ⟨lost, hcard, (hx s a s' hrun).trans hturn⟩

theorem Loses.bind_hands (hx : Loses view n old x new) (hf : ∀ a, Hands view (new a) (f a) new') :
    Loses view n old (x >>= f) new' := by
  intro s b s'' hrun
  obtain ⟨a, s', hrun, hrest⟩ := bind_eq_ok.mp hrun
  obtain ⟨lost, hcard, hturn⟩ := hx s a s' hrun
  exact ⟨lost, hcard, hturn.trans ((hf a s' b s'' hrest).frame lost)⟩

theorem Loses.frame (hx : Loses view n old x new) (more : Multiset Nat) :
    Loses view n (old + more) x fun a => new a + more := by
  intro s a s' hrun
  obtain ⟨lost, hcard, hturn⟩ := hx s a s' hrun
  refine ⟨lost, hcard, ?_⟩
  rw [add_right_comm]
  exact hturn.frame more

theorem Loses.of_eq {old' : Multiset Nat} {held : α → Multiset Nat} (hx : Loses view n old' x held)
    (hold : old = old') (hnew : ∀ a, new a = held a) : Loses view n old x new := by
  rw [hold, show new = held from funext hnew]
  exact hx

end Loses

end Prog
