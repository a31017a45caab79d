import Mathlib.Algebra.GroupWithZero.Nat
import Mathlib.Algebra.BigOperators.Group.List.Basic
import Mathlib.Data.Nat.SuccPred
import Mathlib.Order.CompletePartialOrder
import Mathlib.Order.Interval.Set.Union
import Mathlib.Order.SuccPred.IntervalSucc

/-!
# Ranges one behind the other

A row of sizes is laid out without gaps: every range starts where the one before it ends. The ranges do not
overlap, and together they are the numbers below the sum of the sizes. A range may be empty, and then starts
where its neighbour does.
-/

namespace Ranges

def start (sizes : List Nat) (i : Nat) : Nat := (sizes.take i).sum

def range (sizes : List Nat) (i : Nat) : Set Nat := Set.Ico (start sizes i) (start sizes (i + 1))

variable {sizes : List Nat} {i : Nat}

@[simp] theorem start_zero (sizes : List Nat) : start sizes 0 = 0 := rfl

@[simp] theorem start_cons_succ (size : Nat) (sizes : List Nat) (i : Nat) :
    start (size :: sizes) (i + 1) = size + start sizes i := by
  rw [start, List.take_succ_cons, List.sum_cons, start]

@[simp] theorem start_length (sizes : List Nat) : start sizes sizes.length = sizes.sum := by
  rw [start, List.take_length]

theorem start_succ (hi : i < sizes.length) : start sizes (i + 1) = start sizes i + sizes[i] := by
  rw [start, List.take_succ_eq_append_getElem hi, List.sum_append, List.sum_singleton, start]

theorem start_mono (sizes : List Nat) : Monotone (start sizes) := by
  apply monotone_nat_of_le_succ
  intro i
  rcases Nat.lt_or_ge i sizes.length with hi | hi
  · rw [start_succ hi]
    exact Nat.le_add_right _ _
  · rw [start, start, List.take_of_length_le hi, List.take_of_length_le (by omega)]

theorem start_le_sum (sizes : List Nat) (i : Nat) : start sizes i ≤ sizes.sum := by
  rcases Nat.le_total i sizes.length with hi | hi
  · exact start_length sizes ▸ start_mono sizes hi
  · rw [start, List.take_of_length_le hi]

theorem range_disjoint (sizes : List Nat) {i j : Nat} (hij : i ≠ j) :
    Disjoint (range sizes i) (range sizes j) :=
  (start_mono sizes).pairwise_disjoint_on_Ico_succ hij

theorem iUnion_range (sizes : List Nat) :
    ⋃ i ∈ Finset.range sizes.length, range sizes i = Set.Iio sizes.sum := by
  apply Set.Subset.antisymm
  · intro x hx
    simp only [Set.mem_iUnion] at hx
    obtain ⟨i, -, hlo, hhi⟩ := hx
    exact Nat.lt_of_lt_of_le hhi (start_le_sum sizes (i + 1))
  · have hall := Ico_subset_biUnion_Ico sizes.length (start sizes)
    rw [start_zero, start_length] at hall
    intro x hx
    exact hall ⟨Nat.zero_le x, hx⟩

end Ranges
