import Mathlib.Order.Bounds.Basic
import Statgrab.Vector.Handover

/-!
# The size of the first block

`sg_vector_create` looks for the least power of two that holds the block size it is given, rounds the larger
of its two counts up to a multiple of it, and asks for that many items. The rounding is right for every count,
0 included. The search compares a 32-bit constant with a `size_t`: behind `2 ^ 31` no power is left to try, and
the shift by 32 has no meaning.
-/

namespace Statgrab

section Shift

variable {blockSize s : Nat}

theorem blockShiftFrom_eq_some (fuel shift : Nat) :
    blockShiftFrom blockSize fuel shift = some s ↔
      shift ≤ s ∧ s < shift + fuel ∧ blockSize ≤ 2 ^ s ∧ ∀ j, shift ≤ j → j < s → 2 ^ j < blockSize := by
  induction fuel generalizing shift with
  | zero =>
      constructor
      · intro h
        cases h
      · rintro ⟨hle, hlt, -⟩
        omega
  | succ fuel ih =>
      rw [blockShiftFrom, Nat.shiftLeft_eq, Nat.one_mul]
      by_cases hless : 2 ^ shift < blockSize
      · rw [if_pos hless, ih]
        constructor
        · rintro ⟨hle, hlt, hreach, hbefore⟩
          refine ⟨by omega, by omega, hreach, ?_⟩
          intro j hj hjs
          rcases Nat.eq_or_lt_of_le hj with rfl | hj
          · exact hless
          · exact hbefore j hj hjs
        · rintro ⟨hle, hlt, hreach, hbefore⟩
          -- the shift that was tried is not the answer
          have hne : shift ≠ s := by
            rintro rfl
            omega
          exact ⟨by omega, by omega, hreach, fun j hj hjs => hbefore j (by omega) hjs⟩
      · rw [if_neg hless]
        constructor
        · intro h
          cases h
          exact ⟨le_rfl, by omega, Nat.le_of_not_lt hless, fun j hj hjs => absurd hjs (by omega)⟩
        · rintro ⟨hle, -, -, hbefore⟩
          rcases Nat.eq_or_lt_of_le hle with rfl | hlt
          · rfl
          · exact absurd (hbefore shift le_rfl hlt) hless

/-- The loop ends where a power of two below `2 ^ 32` holds the block size, on the least one. -/
theorem blockShiftOf_eq_some :
    blockShiftOf blockSize = some s ↔ s < 32 ∧ IsLeast { s | blockSize ≤ 2 ^ s } s := by
  rw [blockShiftOf, blockShiftFrom_eq_some]
  constructor
  · rintro ⟨-, hlt, hreach, hbefore⟩
    refine ⟨by omega, hreach, ?_⟩
    intro j hj
    by_contra hjs
    exact absurd (hbefore j (Nat.zero_le j) (Nat.lt_of_not_le hjs)) (Nat.not_lt.mpr hj)
  · rintro ⟨hlt, hreach, hleast⟩
    refine ⟨Nat.zero_le s, by omega, hreach, ?_⟩
    intro j _ hjs
    by_contra hj
    exact absurd (hleast (Nat.le_of_not_lt hj)) (Nat.not_le.mpr hjs)

end Shift

section Count

def multiplesFrom (x bs : Nat) : Set Nat := { m | x ≤ m ∧ 2 ^ bs ∣ m }

theorem roundUp_isLeast (x bs : Nat) : IsLeast (multiplesFrom x bs) (roundUp x bs) := by
  rcases Nat.eq_zero_or_pos x with rfl | hx
  · rw [roundUp_zero]
    exact ⟨⟨le_rfl, Nat.dvd_zero _⟩, fun m _ => Nat.zero_le m⟩
  · refine ⟨⟨le_roundUp x bs, ?_⟩, ?_⟩
    · rw [roundUp_of_pos hx]
      exact Nat.dvd_mul_left _ _
    · rintro m ⟨hm, k, rfl⟩
      have hpos : 0 < 2 ^ bs := Nat.two_pow_pos bs
      have hblocks : (x - 1) / 2 ^ bs < k := by
        rw [Nat.div_lt_iff_lt_mul hpos, Nat.mul_comm]
        omega
      rw [roundUp_of_pos hx, Nat.mul_comm]
      exact Nat.mul_le_mul_left _ hblocks

/-- A block of a positive count that is a `size_t` has a shift below 64. -/
theorem shift_lt_of_roundUp {x bs : Nat} (hx : 0 < x) (hfit : roundUp x bs < sizeBound) : bs < 64 := by
  have hblock := block_le_roundUp hx bs
  exact (Nat.pow_lt_pow_iff_right (by omega : 1 < 2)).mp (lt_of_le_of_lt hblock hfit)

theorem nextPower2In_isLeast {x bs m : Nat} (hx : 0 < x) (hm : m ∈ multiplesFrom x bs)
    (hfit : m < sizeBound) : IsLeast (multiplesFrom x bs) (nextPower2In x bs) := by
  have hround := roundUp_isLeast x bs
  have hlt : roundUp x bs < sizeBound := lt_of_le_of_lt (hround.2 hm) hfit
  rwa [nextPower2In_eq_roundUp (shift_lt_of_roundUp hx hlt) hlt]

end Count

variable {α β : Type}

/-- What is expected of the size of the first block: the search for the shift ends on the least one, with
shifts of the 32-bit constant by less than 32; the macro rounds every positive count up to the least multiple;
and where the block is granted and its byte size is a `size_t`, the vector has room for the larger of the two
counts. -/
structure RoundsBlock (blockSize allocCount initialUsed : Nat) (info : VectorInitInfo α) : Prop where
  shift : ∃ s, blockShiftOf blockSize = some s ∧ s < 32 ∧ IsLeast { s | blockSize ≤ 2 ^ s } s
  count : ∀ x bs m, 0 < x → m ∈ multiplesFrom x bs → m < sizeBound →
    IsLeast (multiplesFrom x bs) (nextPower2In x bs)
  room : ∀ s m, blockShiftOf blockSize = some s → IsLeast (multiplesFrom (max allocCount initialUsed) s) m →
    0 < info.itemSize → vectorSize + m * info.itemSize < sizeBound → ∀ w : World α, w.mem 0 = true →
    ∃ p w' v, sgVectorCreate blockSize allocCount initialUsed info w = .ok (some p, w') ∧
      w'.store p = some v ∧ v.usedCount = initialUsed ∧ v.slots = m ∧ max allocCount initialUsed ≤ v.slots

theorem sgVectorCreate_room {blockSize allocCount initialUsed s : Nat} {info : VectorInitInfo α} {w : World α}
    (hshift : blockShiftOf blockSize = some s) (hfit : Fits (max allocCount initialUsed) s info)
    (hmem : w.mem 0 = true) :
    ∃ p w' v, sgVectorCreate blockSize allocCount initialUsed info w = .ok (some p, w') ∧
      w'.store p = some v ∧ v.usedCount = initialUsed ∧
      v.slots = roundUp (max allocCount initialUsed) s := by
  have hle : max allocCount initialUsed ≤ roundUp (max allocCount initialUsed) s := le_roundUp _ s
  have hblank : (SgVector.blank s allocCount initialUsed info (w.raw w.next)).slots
      = roundUp (max allocCount initialUsed) s := hfit.slotsIn_eq
  have hblock : w.InBlock (.blank s allocCount initialUsed info (w.raw w.next)) initialUsed := by
    intro _
    rw [hblank]
    exact le_trans (le_max_right _ _) hle
  have hcreate : sgVectorCreate blockSize allocCount initialUsed info
      = sgVectorCreateInt s allocCount initialUsed info := by
    rw [sgVectorCreate, hshift]
  have hrun := sgVectorCreateInt_run hfit.blockBytes_ne_zero hmem hblock
  refine ⟨_, _, _, hcreate ▸ hrun, Function.update_self _ _ _, ?_, ?_⟩
  · simp [SgVector.blank]
  · rw [initNew_slots, hblank]

/-- The first block is sized as expected exactly for the block sizes up to `2 ^ 31`, whatever the counts and
the items are. -/
theorem roundsBlock_iff (blockSize allocCount initialUsed : Nat) (info : VectorInitInfo α) :
    RoundsBlock blockSize allocCount initialUsed info ↔ blockSize ≤ 2 ^ 31 := by
  constructor
  · intro h
    obtain ⟨s, -, hlt, hreach, -⟩ := h.shift
    exact le_trans hreach (Nat.pow_le_pow_right (by omega) (by omega))
  · intro hsize
    refine ⟨?_, fun x bs m hx hm hfit => nextPower2In_isLeast hx hm hfit, ?_⟩
    · obtain ⟨s, hs, -⟩ := blockShiftOf_isSome hsize
      exact ⟨s, hs, blockShiftOf_eq_some.mp hs⟩
    · intro s m hs hm hitem hfit w hmem
      have hround : m = roundUp (max allocCount initialUsed) s := hm.unique (roundUp_isLeast _ s)
      subst hround
      have hlt := (blockShiftOf_eq_some.mp hs).1
      obtain ⟨p, w', v, hrun, hv, hused, hslots⟩ := sgVectorCreate_room hs ⟨by omega, hitem, hfit⟩ hmem
      exact ⟨p, w', v, hrun, hv, hused, hslots, hslots ▸ le_roundUp _ s⟩

/-- A vector for `2 ^ 31 + 1` items, as `VECTOR_CREATE` asks for one. -/
theorem not_roundsBlock_large :
    ¬ RoundsBlock (2 ^ 31 + 1) (2 ^ 31 + 1) 0
      (⟨8, none, none, none, none, none⟩ : VectorInitInfo Nat) := by
  intro h
  obtain ⟨s, hs, -⟩ := h.shift
  have hnone : blockShiftOf (2 ^ 31 + 1) = none := by decide
  rw [hnone] at hs
  cases hs

end Statgrab
