import Mathlib.Tactic.Ring
import Statgrab.Tools

/-!
# Block sizes and rounding

A vector grows in blocks of `2 ^ block_shift` items. The shift is the first one whose power of two
reaches the requested block size, and `NEXT_POWER2_IN` rounds a count up to a multiple of the block.
Both are 64-bit computations in C: the macro subtracts one before it shifts, so it wraps at 0, and
the loop shifts a 32-bit constant, so it leaves the language at 32.
-/

namespace Statgrab

/-- The loop of `sg_vector_create`, with `fuel` shifts left before the 32-bit constant overflows. -/
def blockShiftFrom (blockSize : Nat) : Nat → Nat → Option Nat
  | 0, _ => none
  | fuel + 1, shift =>
      if 1 <<< shift < blockSize then blockShiftFrom blockSize fuel (shift + 1) else some shift

/-- The block shift `sg_vector_create` computes, or `none` when it shifts by 32. -/
def blockShiftOf (blockSize : Nat) : Option Nat := blockShiftFrom blockSize 32 0

def nextPower2In (x bs : Nat) : Nat :=
  ((((((sizeBound - 1 + x) % sizeBound) >>> bs) + 1) % sizeBound) <<< bs) % sizeBound

/-- The least multiple of `2 ^ bs` that is at least `x`, without wraparound. -/
def roundUp (x bs : Nat) : Nat := if x = 0 then 0 else ((x - 1) / 2 ^ bs + 1) * 2 ^ bs

@[simp] theorem roundUp_zero (bs : Nat) : roundUp 0 bs = 0 := rfl

theorem roundUp_of_pos {x : Nat} (hx : 0 < x) (bs : Nat) :
    roundUp x bs = ((x - 1) / 2 ^ bs + 1) * 2 ^ bs := by
  rw [roundUp, if_neg (by omega)]

theorem le_roundUp (x bs : Nat) : x ≤ roundUp x bs := by
  rcases Nat.eq_zero_or_pos x with rfl | hx
  · simp
  · rw [roundUp_of_pos hx, Nat.add_mul, Nat.one_mul]
    have hdiv := Nat.div_add_mod (x - 1) (2 ^ bs)
    have hmod := Nat.mod_lt (x - 1) (Nat.two_pow_pos bs)
    rw [Nat.mul_comm] at hdiv
    omega

theorem roundUp_le (x bs : Nat) : roundUp x bs ≤ x + 2 ^ bs := by
  rcases Nat.eq_zero_or_pos x with rfl | hx
  · simp
  · rw [roundUp_of_pos hx, Nat.add_mul, Nat.one_mul]
    have := Nat.div_mul_le_self (x - 1) (2 ^ bs)
    omega

theorem block_le_roundUp {x : Nat} (hx : 0 < x) (bs : Nat) : 2 ^ bs ≤ roundUp x bs := by
  rw [roundUp_of_pos hx]
  exact Nat.le_mul_of_pos_left _ (Nat.succ_pos _)

theorem roundUp_pos {x : Nat} (hx : 0 < x) (bs : Nat) : 0 < roundUp x bs :=
  lt_of_lt_of_le hx (le_roundUp x bs)

theorem nextPower2In_zero {bs : Nat} (hbs : bs < 64) : nextPower2In 0 bs = 0 := by
  have hsplit : 2 ^ 64 = 2 ^ (64 - bs) * 2 ^ bs := by rw [← pow_add]; congr 1; omega
  have hpos : 0 < 2 ^ bs := Nat.two_pow_pos bs
  have hdiv : (2 ^ 64 - 1) / 2 ^ bs + 1 = 2 ^ (64 - bs) := by
    have hlt : (2 ^ 64 - 1) / 2 ^ bs < 2 ^ (64 - bs) := by
      rw [Nat.div_lt_iff_lt_mul hpos, ← hsplit]
      omega
    have hge : 2 ^ (64 - bs) - 1 ≤ (2 ^ 64 - 1) / 2 ^ bs := by
      rw [Nat.le_div_iff_mul_le hpos, Nat.sub_mul, ← hsplit]
      omega
    omega
  simp only [nextPower2In, sizeBound, Nat.shiftRight_eq_div_pow, Nat.shiftLeft_eq, Nat.add_zero]
  rw [Nat.mod_eq_of_lt (by omega : 2 ^ 64 - 1 < 2 ^ 64), hdiv, Nat.mod_mul_mod, ← hsplit,
    Nat.mod_self]

/-- The macro rounds up as long as the result is a `size_t`. -/
theorem nextPower2In_eq_roundUp {x bs : Nat} (hbs : bs < 64) (hfit : roundUp x bs < sizeBound) :
    nextPower2In x bs = roundUp x bs := by
  rcases Nat.eq_zero_or_pos x with rfl | hx
  · rw [nextPower2In_zero hbs, roundUp_zero]
  · have hle := le_roundUp x bs
    have hwrap : (sizeBound - 1 + x) % sizeBound = x - 1 := by
      have : sizeBound - 1 + x = x - 1 + sizeBound := by omega
      rw [this, Nat.add_mod_right, Nat.mod_eq_of_lt (by omega)]
    rw [roundUp_of_pos hx] at hfit ⊢
    have hblocks : (x - 1) / 2 ^ bs + 1 < sizeBound :=
      lt_of_le_of_lt (Nat.le_mul_of_pos_right _ (Nat.two_pow_pos bs)) hfit
    rw [nextPower2In, hwrap, Nat.shiftRight_eq_div_pow, Nat.shiftLeft_eq, Nat.mod_eq_of_lt hblocks,
      Nat.mod_eq_of_lt hfit]

/-- For a block size of at most `2 ^ 31` the loop ends, on a shift below 32. -/
theorem blockShiftFrom_isSome {blockSize : Nat} (hsize : blockSize ≤ 2 ^ 31) :
    ∀ fuel shift, shift + fuel = 32 → shift ≤ 31 →
      ∃ bs, blockShiftFrom blockSize fuel shift = some bs ∧ bs ≤ 31 := by
  intro fuel
  induction fuel with
  | zero => intro shift hsum hshift; omega
  | succ fuel ih =>
      intro shift hsum hshift
      rw [blockShiftFrom]
      split
      · rename_i hlt
        have hne : shift ≠ 31 := by
          rintro rfl
          rw [Nat.shiftLeft_eq, Nat.one_mul] at hlt
          omega
        exact ih (shift + 1) (by omega) (by omega)
      · exact ⟨shift, rfl, hshift⟩

theorem blockShiftOf_isSome {blockSize : Nat} (hsize : blockSize ≤ 2 ^ 31) :
    ∃ bs, blockShiftOf blockSize = some bs ∧ bs ≤ 31 :=
  blockShiftFrom_isSome hsize 32 0 rfl (by omega)

end Statgrab
