import Mathlib.Data.Nat.Bitwise
import Mathlib.Logic.Function.Basic

/-!
# Tables of bits

A table of bits is kept in words of 32: bit `n` is bit `n % 32` of word `n / 32`. Setting a bit is an
`|=` on its word and testing it an `&`, and a set bit does not disturb the others.
-/

/-- Words of 32 bits, all zero beyond what has been set. -/
abbrev BitTable := Nat → Nat

namespace BitTable

def zero : BitTable := fun _ => 0

def set (t : BitTable) (n : Nat) : BitTable :=
  Function.update t (n / 32) (t (n / 32) ||| (1 <<< (n % 32)))

def isSet (t : BitTable) (n : Nat) : Bool := t (n / 32) &&& (1 <<< (n % 32)) != 0

theorem isSet_eq_testBit (t : BitTable) (n : Nat) : t.isSet n = (t (n / 32)).testBit (n % 32) := by
  rw [isSet, Nat.shiftLeft_eq, Nat.one_mul, Nat.and_two_pow]
  cases (t (n / 32)).testBit (n % 32) with
  | false => simp
  | true => simp

@[simp] theorem isSet_zero (n : Nat) : zero.isSet n = false := by
  rw [isSet_eq_testBit, zero, Nat.zero_testBit]

theorem isSet_set (t : BitTable) (m n : Nat) :
    (t.set m).isSet n = (decide (m = n) || t.isSet n) := by
  rw [isSet_eq_testBit, isSet_eq_testBit, set]
  by_cases hword : n / 32 = m / 32
  · rw [hword, Function.update_self, Nat.testBit_or, Nat.shiftLeft_eq, Nat.one_mul,
      Nat.testBit_two_pow, Bool.or_comm]
    congr 1
    apply decide_eq_decide.mpr
    omega
  · rw [Function.update_of_ne hword]
    have hne : m ≠ n := by
      intro h
      exact hword (by rw [h])
    simp [hne]

end BitTable
