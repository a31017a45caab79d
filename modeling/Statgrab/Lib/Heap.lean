import Mathlib.Logic.Function.Basic

/-!
# Heaps of blocks

A heap gives its blocks out at addresses that were never used before, so a pointer to a block that was
given back stays dead. A block may be written in place and given back; nothing else changes.

The rules are the frame rules: what a write, an allocation or a release leaves at the other addresses.
-/

structure Heap (β : Type) where
  blocks : Nat → Option β
  next : Nat

namespace Heap

variable {β : Type} (h : Heap β) (p q : Nat) (b : β)

/-- No block is behind the next address. -/
def Fresh : Prop := ∀ p, h.next ≤ p → h.blocks p = none

def place : Heap β := ⟨Function.update h.blocks h.next (some b), h.next + 1⟩

def put : Heap β := ⟨Function.update h.blocks p (some b), h.next⟩

def drop : Heap β := ⟨Function.update h.blocks p none, h.next⟩

@[simp] theorem place_next : (h.place b).next = h.next + 1 := rfl
@[simp] theorem put_next : (h.put p b).next = h.next := rfl
@[simp] theorem drop_next : (h.drop p).next = h.next := rfl

@[simp] theorem place_self : (h.place b).blocks h.next = some b := Function.update_self _ _ _
@[simp] theorem put_self : (h.put p b).blocks p = some b := Function.update_self _ _ _

variable {h p q b}

theorem place_of_ne (hne : q ≠ h.next) : (h.place b).blocks q = h.blocks q :=
  Function.update_of_ne hne _ _

theorem put_of_ne (hne : q ≠ p) : (h.put p b).blocks q = h.blocks q := Function.update_of_ne hne _ _

theorem put_eq_self (hb : h.blocks p = some b) : h.put p b = h := by
  rw [put, Function.update_eq_self_iff.mpr hb.symm]

theorem drop_of_ne (hne : q ≠ p) : (h.drop p).blocks q = h.blocks q := Function.update_of_ne hne _ _

theorem Fresh.lt (hf : h.Fresh) (hb : h.blocks p = some b) : p < h.next := by
  by_contra hge
  rw [hf p (Nat.le_of_not_lt hge)] at hb
  cases hb

theorem Fresh.place (hf : h.Fresh) : (h.place b).Fresh := by
  intro q hq
  rw [place_next] at hq
  rw [place_of_ne (Nat.ne_of_gt hq)]
  exact hf q (Nat.le_of_succ_le hq)

theorem Fresh.put (hf : h.Fresh) (hp : p < h.next) : (h.put p b).Fresh := by
  intro q hq
  have hne : q ≠ p := Nat.ne_of_gt (Nat.lt_of_lt_of_le hp hq)
  rw [put_of_ne hne]
  exact hf q hq

theorem Fresh.drop (hf : h.Fresh) : (h.drop p).Fresh := by
  intro q hq
  by_cases hne : q = p
  · rw [hne]
    exact Function.update_self _ _ _
  · rw [drop_of_ne hne]
    exact hf q hq

def dropAll (h : Heap β) (ps : List Nat) : Heap β := ps.foldl Heap.drop h

@[simp] theorem dropAll_cons (h : Heap β) (p : Nat) (ps : List Nat) :
    h.dropAll (p :: ps) = (h.drop p).dropAll ps := rfl

@[simp] theorem dropAll_next (h : Heap β) (ps : List Nat) : (h.dropAll ps).next = h.next := by
  induction ps generalizing h with
  | nil => rfl
  | cons p ps ih => rw [dropAll_cons, ih, drop_next]

theorem dropAll_of_notMem {ps : List Nat} (hq : q ∉ ps) : (h.dropAll ps).blocks q = h.blocks q := by
  induction ps generalizing h with
  | nil => rfl
  | cons p ps ih =>
      rw [List.mem_cons, not_or] at hq
      obtain ⟨hne, hrest⟩ := hq
      rw [dropAll_cons, ih hrest, drop_of_ne hne]

theorem dropAll_of_mem {ps : List Nat} (hq : q ∈ ps) : (h.dropAll ps).blocks q = none := by
  induction ps generalizing h with
  | nil => cases hq
  | cons p ps ih =>
      rw [dropAll_cons]
      by_cases hmem : q ∈ ps
      · exact ih hmem
      · rcases List.mem_cons.mp hq with rfl | hq
        · rw [dropAll_of_notMem hmem]
          exact Function.update_self _ _ _
        · exact absurd hq hmem

theorem Fresh.dropAll (hf : h.Fresh) (ps : List Nat) : (h.dropAll ps).Fresh := by
  induction ps generalizing h with
  | nil => exact hf
  | cons p ps ih => exact ih hf.drop

end Heap
