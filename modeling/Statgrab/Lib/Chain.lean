import Mathlib.Data.List.Nodup
import Statgrab.Lib.Heap

/-!
# Chains in a heap

A chain is a row of blocks, each of which names the next one: `link` reads that name off a block. The nodes of
a chain are its addresses with what is behind them.

A chain may be cut at any of its nodes and put together again. It is the only one from its start to its end, and
it is not touched by what happens at other addresses.
-/

namespace Heap

variable {β : Type} (link : β → Option Nat)

/-- From `p` on, the links lead through these nodes to `q`. -/
def Chain (h : Heap β) : Option Nat → List (Nat × β) → Option Nat → Prop
  | p, [], q => p = q
  | p, n :: ns, q => p = some n.1 ∧ h.blocks n.1 = some n.2 ∧ Chain h (link n.2) ns q

variable {link} {h h' : Heap β} {p q : Option Nat} {ns ms : List (Nat × β)}

theorem chain_append :
    h.Chain link p (ns ++ ms) q ↔ ∃ r, h.Chain link p ns r ∧ h.Chain link r ms q := by
  induction ns generalizing p with
  | nil =>
      constructor
      · intro hc
        exact ⟨p, rfl, hc⟩
      · rintro ⟨r, hr, hc⟩
        cases hr
        exact hc
  | cons n ns ih =>
      rw [List.cons_append, Chain, ih]
      constructor
      · rintro ⟨hp, hb, r, hns, hms⟩
        exact ⟨r, ⟨hp, hb, hns⟩, hms⟩
      · rintro ⟨r, ⟨hp, hb, hns⟩, hms⟩
        exact ⟨hp, hb, r, hns, hms⟩

theorem chain_snoc {a : Nat} {b : β} :
    h.Chain link p (ns ++ [(a, b)]) q ↔
      h.Chain link p ns (some a) ∧ h.blocks a = some b ∧ link b = q := by
  rw [chain_append]
  constructor
  · rintro ⟨r, hns, hr, hb, hq⟩
    exact ⟨hr ▸ hns, hb, hq⟩
  · rintro ⟨hns, hb, hq⟩
    exact ⟨some a, hns, rfl, hb, hq⟩

theorem Chain.unique (hns : h.Chain link p ns none) (hms : h.Chain link p ms none) : ns = ms := by
  induction ns generalizing p ms with
  | nil =>
      have hp : p = none := hns
      cases ms with
      | nil => rfl
      | cons m ms =>
          rw [hp] at hms
          cases hms.1
  | cons n ns ih =>
      obtain ⟨hp, hn, hrest⟩ := hns
      cases ms with
      | nil =>
          rw [hp] at hms
          cases hms
      | cons m ms =>
          obtain ⟨hm, hmb, hmrest⟩ := hms
          have haddr : n.1 = m.1 := Option.some.inj (hp.symm.trans hm)
          have hblock : n.2 = m.2 := by
            rw [haddr, hmb] at hn
            exact (Option.some.inj hn).symm
          rw [← hblock] at hmrest
          rw [Prod.ext haddr hblock, ih hrest hmrest]

/-- A chain is not touched by what happens at other addresses. -/
theorem Chain.frame (hc : h.Chain link p ns q)
    (hsame : ∀ a ∈ ns.map Prod.fst, h'.blocks a = h.blocks a) : h'.Chain link p ns q := by
  induction ns generalizing p with
  | nil => exact hc
  | cons n ns ih =>
      obtain ⟨hp, hb, hrest⟩ := hc
      rw [List.map_cons] at hsame
      exact ⟨hp, (hsame n.1 List.mem_cons_self).trans hb,
        ih hrest fun a ha => hsame a (List.mem_cons_of_mem _ ha)⟩

end Heap
