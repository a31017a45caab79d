import Mathlib.Algebra.BigOperators.Intervals
import Mathlib.Data.UInt
import Statgrab.Stats.CpuPage
import Statgrab.Stats.Network

/-!
# Differences of counters

What the differences of successive snapshots of one item add up to. A field that `compute_diff`
subtracts telescopes: the differences add up to the growth, modulo `2 ^ 64`. A field it leaves out adds
up to the sum of the absolute values. `sg_fs_stats` leaves out two, `free` and `systime`.

Counters of 32 bits wrap around between two reads. `transfer_diff` puts the wrap back. The `vmmeter`
branch of `counter_diff` adds `INT_MAX + 1` instead of `2 ^ 32`, so that every wrap loses `2 ^ 31`. On
Linux the counters of an interface are wider than that, and a fall by more than `2 ^ 32` is no wrap.
-/

namespace Statgrab

open Finset
open scoped UInt64.CommRing

/-! ### Fields -/

/-- The counts, sizes and times of an `sg_fs_stats`. -/
inductive FsField where
  | size
  | used
  | free
  | avail
  | totalInodes
  | usedInodes
  | freeInodes
  | availInodes
  | ioSize
  | blockSize
  | totalBlocks
  | freeBlocks
  | usedBlocks
  | availBlocks
  | systime
  deriving DecidableEq, Repr

def FsField.get : FsField → FsStats → UInt64
  | .size, s => s.size
  | .used, s => s.used
  | .free, s => s.free
  | .avail, s => s.avail
  | .totalInodes, s => s.totalInodes
  | .usedInodes, s => s.usedInodes
  | .freeInodes, s => s.freeInodes
  | .availInodes, s => s.availInodes
  | .ioSize, s => s.ioSize
  | .blockSize, s => s.blockSize
  | .totalBlocks, s => s.totalBlocks
  | .freeBlocks, s => s.freeBlocks
  | .usedBlocks, s => s.usedBlocks
  | .availBlocks, s => s.availBlocks
  | .systime, s => .ofInt s.systime

/-- The counts and the time of an `sg_disk_io_stats`. -/
inductive DiskIoField where
  | readBytes
  | writeBytes
  | systime
  deriving DecidableEq, Repr

def DiskIoField.get : DiskIoField → DiskIoStats → UInt64
  | .readBytes, s => s.readBytes
  | .writeBytes, s => s.writeBytes
  | .systime, s => .ofInt s.systime

/-- The counts and the time of an `sg_cpu_stats`. -/
inductive CpuField where
  | user
  | kernel
  | idle
  | iowait
  | swap
  | nice
  | total
  | contextSwitches
  | voluntaryContextSwitches
  | involuntaryContextSwitches
  | syscalls
  | interrupts
  | softInterrupts
  | systime
  deriving DecidableEq, Repr

def CpuField.get : CpuField → CpuStats → UInt64
  | .user, s => s.user
  | .kernel, s => s.kernel
  | .idle, s => s.idle
  | .iowait, s => s.iowait
  | .swap, s => s.swap
  | .nice, s => s.nice
  | .total, s => s.total
  | .contextSwitches, s => s.contextSwitches
  | .voluntaryContextSwitches, s => s.voluntaryContextSwitches
  | .involuntaryContextSwitches, s => s.involuntaryContextSwitches
  | .syscalls, s => s.syscalls
  | .interrupts, s => s.interrupts
  | .softInterrupts, s => s.softInterrupts
  | .systime, s => .ofInt s.systime

inductive CountedType where
  | fs
  | diskIo
  | cpu
  deriving DecidableEq, Repr

namespace CountedType

def Item : CountedType → Type
  | .fs => FsStats
  | .diskIo => DiskIoStats
  | .cpu => CpuStats

/-- The fields of a type that are a count, a size or the time. -/
def Field : CountedType → Type
  | .fs => FsField
  | .diskIo => DiskIoField
  | .cpu => CpuField

def get : (t : CountedType) → t.Field → t.Item → UInt64
  | .fs => FsField.get
  | .diskIo => DiskIoField.get
  | .cpu => CpuField.get

/-- The difference the library delivers of an item and the same item in the snapshot before, in a build
with 64 bit counters. -/
def diff : (t : CountedType) → t.Item → t.Item → t.Item
  | .fs, now, last => FsStats.computeDiff last now
  | .diskIo, now, last => DiskIoStats.computeDiff last now
  | .cpu, now, last => CpuStats.minus .plain now last

/-- The fields `compute_diff` does not subtract. -/
def LeftOut : (t : CountedType) → t.Field → Prop
  | .fs, field => field = FsField.free ∨ field = FsField.systime
  | .diskIo, _ => False
  | .cpu, _ => False

/-- The differences of a field add up to its growth. -/
def Telescopes (t : CountedType) (field : t.Field) (s : ℕ → t.Item) (n : ℕ) : Prop :=
  ∑ k ∈ range n, t.get field (t.diff (s (k + 1)) (s k)) = t.get field (s n) - t.get field (s 0)

theorem ofInt_sub (a b : Int) : UInt64.ofInt (a - b) = UInt64.ofInt a - UInt64.ofInt b := by
  rw [Int.sub_eq_add_neg, UInt64.ofInt_add, UInt64.ofInt_neg, ← sub_eq_add_neg]

theorem get_diff (t : CountedType) (field : t.Field) (now last : t.Item) :
    (¬ t.LeftOut field ∧ t.get field (t.diff now last) = t.get field now - t.get field last) ∨
      (t.LeftOut field ∧ t.get field (t.diff now last) = t.get field now) := by
  cases t with
  | fs =>
      cases field
      case free => exact .inr ⟨.inl rfl, rfl⟩
      case systime => exact .inr ⟨.inr rfl, rfl⟩
      all_goals exact .inl ⟨(by rintro (h | h) <;> cases h), rfl⟩
  | diskIo =>
      cases field
      case systime => exact .inl ⟨id, ofInt_sub _ _⟩
      all_goals exact .inl ⟨id, rfl⟩
  | cpu =>
      cases field
      case systime => exact .inl ⟨id, ofInt_sub _ _⟩
      all_goals exact .inl ⟨id, rfl⟩

/-- The differences of a field telescope exactly if it is subtracted, or if its values before the last
one happen to add up to 0. -/
theorem telescopes_iff (t : CountedType) (field : t.Field) (s : ℕ → t.Item) (n : ℕ) :
    t.Telescopes field s n ↔ ¬ t.LeftOut field ∨ ∑ k ∈ range n, t.get field (s k) = 0 := by
  by_cases hout : t.LeftOut field
  · have hsum : ∑ k ∈ range n, t.get field (t.diff (s (k + 1)) (s k))
        = ∑ k ∈ range n, t.get field (s (k + 1)) := by
      apply sum_congr rfl
      intro k _
      rcases t.get_diff field (s (k + 1)) (s k) with ⟨hin, -⟩ | ⟨-, heq⟩
      · exact absurd hout hin
      · exact heq
    have hshift : ∑ k ∈ range n, t.get field (s (k + 1))
        = ∑ k ∈ range n, t.get field (s k) + (t.get field (s n) - t.get field (s 0)) := by
      have h := sum_range_sub (fun k => t.get field (s k)) n
      rw [sum_sub_distrib] at h
      rw [← h]
      ring
    rw [Telescopes, hsum, hshift, add_eq_right]
    simp [hout]
  · refine iff_of_true ?_ (.inl hout)
    rw [Telescopes, ← sum_range_sub (fun k => t.get field (s k)) n]
    apply sum_congr rfl
    intro k _
    rcases t.get_diff field (s (k + 1)) (s k) with ⟨-, heq⟩ | ⟨hin, -⟩
    · exact heq
    · exact absurd hin hout

end CountedType

/-- A filesystem with one free byte, read twice. -/
def idleFs : FsStats :=
  ⟨none, none, none, none, .unknown, 0, 0, 1, 0, 0, 0, 0, 0, 0, 0, 0, 0, 0, 0, 0⟩

/-- The difference of two identical snapshots reports the free bytes. -/
theorem not_telescopes_free : ¬ CountedType.fs.Telescopes FsField.free (fun _ => idleFs) 1 := by
  intro h
  unfold CountedType.Telescopes at h
  rw [sum_range_one] at h
  cases h

/-! ### Counters of 32 bits -/

theorem toInt64_le_iff {new old : UInt64} (hnew : new.toNat < 2 ^ 63) (hold : old.toNat < 2 ^ 63) :
    old.toInt64 ≤ new.toInt64 ↔ old.toNat ≤ new.toNat := by
  rw [Int64.le_iff_toInt_le]
  show old.toBitVec.toInt ≤ new.toBitVec.toInt ↔ _
  rw [BitVec.toInt_eq_toNat_of_lt, BitVec.toInt_eq_toNat_of_lt]
  · simp
  · simp only [UInt64.toNat_toBitVec]
    omega
  · simp only [UInt64.toNat_toBitVec]
    omega

/-- What `transfer_diff` makes of counters that are no 32 bits wide: a fall by more than `2 ^ 32` is
negative, and comes out modulo `2 ^ 64`. -/
theorem toNat_transferDiff {new old : UInt64} (hnew : new.toNat < 2 ^ 63)
    (hold : old.toNat < 2 ^ 63) :
    (transferDiff new old).toNat
      = if old.toNat ≤ new.toNat then new.toNat - old.toNat
        else if old.toNat ≤ new.toNat + 2 ^ 32 then 2 ^ 32 + new.toNat - old.toNat
        else 2 ^ 64 + 2 ^ 32 + new.toNat - old.toNat := by
  rw [transferDiff]
  by_cases hle : old.toNat ≤ new.toNat
  · rw [if_pos ((toInt64_le_iff hnew hold).mpr hle), if_pos hle, UInt64.toNat_sub]
    omega
  · rw [if_neg (fun h => hle ((toInt64_le_iff hnew hold).mp h)), if_neg hle, UInt64.toNat_sub,
      UInt64.toNat_add]
    have hmax : (0x100000000 : UInt64).toNat = 2 ^ 32 := rfl
    rw [hmax]
    split
    · omega
    · omega

/-- What the `vmmeter` branch makes of a wrap: `2 ^ 31` too little, and modulo `2 ^ 64` where that is
negative. -/
theorem toNat_counterDiff {new old : UInt64} (hnew : new.toNat < 2 ^ 32)
    (hold : old.toNat < 2 ^ 32) :
    (counterDiff .vmmeter new old).toNat
      = if old.toNat ≤ new.toNat then new.toNat - old.toNat
        else if old.toNat ≤ new.toNat + 2 ^ 31 then new.toNat + 2 ^ 31 - old.toNat
        else 2 ^ 64 + 2 ^ 31 + new.toNat - old.toNat := by
  rw [counterDiff]
  by_cases hle : old.toNat ≤ new.toNat
  · rw [if_pos (UInt64.le_iff_toNat_le.mpr hle), if_pos hle, UInt64.toNat_sub]
    omega
  · rw [if_neg (fun h => hle (UInt64.le_iff_toNat_le.mp h)), if_neg hle, UInt64.toNat_sub,
      UInt64.toNat_add]
    have hmax : (intMax + 1).toNat = 2 ^ 31 := rfl
    rw [hmax]
    split
    · omega
    · omega

def observed32 (c : ℕ) : UInt64 := .ofNat (c % 2 ^ 32)

theorem toNat_observed32 (c : ℕ) : (observed32 c).toNat = c % 2 ^ 32 := by
  rw [observed32, UInt64.toNat_ofNat']
  omega

/-- In `n` reads the counter never falls and grows by less than `2 ^ 32` between two of them. -/
def Slow (c : ℕ → ℕ) (n : ℕ) : Prop := ∀ k < n, c k ≤ c (k + 1) ∧ c (k + 1) < c k + 2 ^ 32

/-- How often the counter is seen to wrap in `n` reads. -/
def wraps (c : ℕ → ℕ) : ℕ → ℕ
  | 0 => 0
  | n + 1 => wraps c n + if c (n + 1) % 2 ^ 32 < c n % 2 ^ 32 then 1 else 0

/-- How often it is seen to wrap by more than `2 ^ 31`: it has grown by less than that. -/
def shortWraps (c : ℕ → ℕ) : ℕ → ℕ
  | 0 => 0
  | n + 1 => shortWraps c n + if c (n + 1) % 2 ^ 32 + 2 ^ 31 < c n % 2 ^ 32 then 1 else 0

theorem Slow.pred {c : ℕ → ℕ} {n : ℕ} (h : Slow c (n + 1)) : Slow c n :=
  fun k hk => h k (by omega)

theorem transferDiff_observed32 {c d : ℕ} (hle : c ≤ d) (hlt : d < c + 2 ^ 32) :
    (transferDiff (observed32 d) (observed32 c)).toNat = d - c := by
  have hc := toNat_observed32 c
  have hd := toNat_observed32 d
  rw [toNat_transferDiff (by omega) (by omega), hc, hd]
  by_cases hle : c % 2 ^ 32 ≤ d % 2 ^ 32
  · rw [if_pos hle]
    omega
  · rw [if_neg hle, if_pos (by omega)]
    omega

theorem counterDiff_observed32 {c d : ℕ} (hle : c ≤ d) (hlt : d < c + 2 ^ 32) :
    (counterDiff .vmmeter (observed32 d) (observed32 c)).toNat
        + 2 ^ 31 * (if d % 2 ^ 32 < c % 2 ^ 32 then 1 else 0)
      = d - c + 2 ^ 64 * if d % 2 ^ 32 + 2 ^ 31 < c % 2 ^ 32 then 1 else 0 := by
  have hc := toNat_observed32 c
  have hd := toNat_observed32 d
  rw [toNat_counterDiff (by omega) (by omega), hc, hd]
  by_cases hwrap : c % 2 ^ 32 ≤ d % 2 ^ 32
  · rw [if_pos hwrap, if_neg (by omega), if_neg (by omega)]
    omega
  · rw [if_neg hwrap, if_pos (not_le.mp hwrap)]
    by_cases hshort : c % 2 ^ 32 ≤ d % 2 ^ 32 + 2 ^ 31
    · rw [if_pos hshort, if_neg (by omega)]
      omega
    · rw [if_neg hshort, if_pos (not_le.mp hshort)]
      omega

theorem sum_transferDiff {c : ℕ → ℕ} {n : ℕ} (h : Slow c n) :
    ∑ k ∈ range n, (transferDiff (observed32 (c (k + 1))) (observed32 (c k))).toNat + c 0 = c n := by
  induction n with
  | zero => simp
  | succ n ih =>
      obtain ⟨hle, hlt⟩ := h n (by omega)
      have hsum := ih h.pred
      rw [sum_range_succ, transferDiff_observed32 hle hlt]
      omega

/-- The differences `counter_diff` reports lose `2 ^ 31` at each wrap, modulo `2 ^ 64`. -/
theorem sum_counterDiff {c : ℕ → ℕ} {n : ℕ} (h : Slow c n) :
    ∑ k ∈ range n, (counterDiff .vmmeter (observed32 (c (k + 1))) (observed32 (c k))).toNat
        + 2 ^ 31 * wraps c n + c 0
      = c n + 2 ^ 64 * shortWraps c n := by
  induction n with
  | zero => simp [wraps, shortWraps]
  | succ n ih =>
      obtain ⟨hle, hlt⟩ := h n (by omega)
      have hsum := ih h.pred
      have hstep := counterDiff_observed32 hle hlt
      rw [sum_range_succ, wraps, shortWraps, Nat.mul_add, Nat.mul_add]
      omega

def diff32 (new old : ℕ) : ℕ := (new + 2 ^ 32 - old) % 2 ^ 32

/-- `transfer_diff` corrects every wrap, and its differences always add up to the growth. The `vmmeter`
branch of `counter_diff` agrees with it exactly where nothing wraps, and its differences add up to the
growth exactly if there are `2 ^ 33` wraps for each of those by more than `2 ^ 31`. -/
theorem counterDiff_wraparound_iff (new old : UInt64) (hnew : new.toNat < 2 ^ 32)
    (hold : old.toNat < 2 ^ 32) (c : ℕ → ℕ) (n : ℕ) (hslow : Slow c n) :
    ((transferDiff new old).toNat = diff32 new.toNat old.toNat ∧
      ((counterDiff .vmmeter new old).toNat = diff32 new.toNat old.toNat ↔ old ≤ new)) ∧
    (∑ k ∈ range n, (transferDiff (observed32 (c (k + 1))) (observed32 (c k))).toNat = c n - c 0 ∧
      (∑ k ∈ range n, (counterDiff .vmmeter (observed32 (c (k + 1))) (observed32 (c k))).toNat
          = c n - c 0 ↔
        wraps c n = 2 ^ 33 * shortWraps c n)) := by
  refine ⟨?_, ?_⟩
  · rw [toNat_transferDiff (by omega) (by omega), toNat_counterDiff hnew hold, UInt64.le_iff_toNat_le,
      diff32]
    by_cases hle : old.toNat ≤ new.toNat
    · rw [if_pos hle, if_pos hle]
      omega
    · rw [if_neg hle, if_neg hle, if_pos (show old.toNat ≤ new.toNat + 2 ^ 32 by omega)]
      split
      · omega
      · omega
  · have htransfer := sum_transferDiff hslow
    have hcounter := sum_counterDiff hslow
    omega

/-- Two reads, and two differences of a counter that grows by 3 each time. -/
theorem counterDiff_wraparound_slow :
    (counterDiff .vmmeter 5 3).toNat = diff32 5 3 ∧
      ∑ k ∈ range 2, (counterDiff .vmmeter (observed32 (3 * (k + 1))) (observed32 (3 * k))).toNat
        = 6 := by
  have hslow : Slow (fun k => 3 * k) 2 := fun k _ => by
    simp only
    omega
  obtain ⟨⟨-, hone⟩, -, hsum⟩ :=
    counterDiff_wraparound_iff 5 3 (by decide) (by decide) (fun k => 3 * k) 2 hslow
  exact ⟨hone.mpr (by decide), hsum.mpr (by decide)⟩

/-- A counter that wraps from `2 ^ 32 - 1` to 0 has grown by one: `counter_diff` reports
`2 ^ 64 - 2 ^ 31 + 1`. -/
theorem counterDiff_wrap :
    counterDiff .vmmeter 0 4294967295 ≠ transferDiff 0 4294967295 ∧
      (counterDiff .vmmeter 0 4294967295).toNat ≠ diff32 0 4294967295 := by
  decide

/-! ### Counters of 63 bits -/

/-- The counters of an `sg_network_io_stats`. -/
inductive NetworkIoField where
  | tx
  | rx
  | ipackets
  | opackets
  | ierrors
  | oerrors
  | collisions
  deriving DecidableEq, Repr

def NetworkIoField.get : NetworkIoField → NetworkIoStats → UInt64
  | .tx, s => s.tx
  | .rx, s => s.rx
  | .ipackets, s => s.ipackets
  | .opackets, s => s.opackets
  | .ierrors, s => s.ierrors
  | .oerrors, s => s.oerrors
  | .collisions, s => s.collisions

/-- Every counter is a `long long` that is not negative. -/
def NetworkIoStats.Counts63 (s : NetworkIoStats) : Prop :=
  ∀ field : NetworkIoField, (field.get s).toNat < 2 ^ 63

/-- A difference in range: the growth, or less than `2 ^ 32` where the counter has fallen. -/
structure InRange (new old diff : UInt64) : Prop where
  grown : old ≤ new → diff = new - old
  fallen : new < old → diff.toNat < 2 ^ 32
  unwrapped : diff.toNat < 2 ^ 63

theorem get_networkIo_diff (field : NetworkIoField) (last now : NetworkIoStats) :
    field.get (NetworkIoStats.computeDiff last now) = transferDiff (field.get now) (field.get last) := by
  cases field <;> rfl

/-- A counter that has fallen by `2 ^ 32` at most is taken for one that wrapped; one that has fallen
further gives a difference of almost `2 ^ 64`. -/
theorem transferDiff_inRange_iff {new old : UInt64} (hnew : new.toNat < 2 ^ 63)
    (hold : old.toNat < 2 ^ 63) :
    InRange new old (transferDiff new old) ↔ old.toNat ≤ new.toNat + 2 ^ 32 := by
  have hdiff := toNat_transferDiff hnew hold
  constructor
  · intro h
    by_contra hfar
    rw [if_neg (by omega), if_neg hfar] at hdiff
    have := h.unwrapped
    omega
  · intro hnear
    by_cases hle : old.toNat ≤ new.toNat
    · rw [if_pos hle] at hdiff
      refine ⟨fun _ => ?_, fun hlt => ?_, by omega⟩
      · rw [transferDiff, if_pos ((toInt64_le_iff hnew hold).mpr hle)]
      · rw [UInt64.lt_iff_toNat_lt] at hlt
        omega
    · rw [if_neg hle, if_pos hnear] at hdiff
      refine ⟨fun hge => ?_, fun _ => by omega, by omega⟩
      exact absurd (UInt64.le_iff_toNat_le.mp hge) hle

/-- The difference of two snapshots of an interface stays in range exactly if no counter has fallen by
more than `2 ^ 32`. -/
theorem networkIo_inRange_iff (last now : NetworkIoStats) (hlast : last.Counts63)
    (hnow : now.Counts63) :
    (∀ field : NetworkIoField, InRange (field.get now) (field.get last)
      (field.get (NetworkIoStats.computeDiff last now))) ↔
    ∀ field : NetworkIoField, (field.get last).toNat ≤ (field.get now).toNat + 2 ^ 32 := by
  apply forall_congr'
  intro field
  rw [get_networkIo_diff]
  exact transferDiff_inRange_iff (hnow field) (hlast field)

/-- An interface that has sent `n` bytes. -/
def sender (n : UInt64) : NetworkIoStats := ⟨some [101], n, 0, 0, 0, 0, 0, 0, 0⟩

theorem sender_counts63 {n : UInt64} (hn : n.toNat < 2 ^ 63) : (sender n).Counts63 := by
  intro field
  cases field
  case tx => exact hn
  all_goals exact Nat.two_pow_pos 63

/-- A counter of 32 bits that wraps. -/
theorem networkIo_inRange_wrap :
    InRange (NetworkIoField.tx.get (sender 4)) (NetworkIoField.tx.get (sender 4294967295))
      (NetworkIoField.tx.get (NetworkIoStats.computeDiff (sender 4294967295) (sender 4))) := by
  refine (networkIo_inRange_iff _ _ (sender_counts63 (by decide)) (sender_counts63 (by decide))).mpr
    ?_ .tx
  intro field
  cases field <;> decide

/-- An interface that has sent `2 ^ 33` bytes is created again: it has sent `2 ^ 64 - 2 ^ 32` since. -/
theorem networkIo_not_inRange :
    (sender 8589934592).Counts63 ∧ (sender 0).Counts63 ∧
      ¬ InRange (NetworkIoField.tx.get (sender 0)) (NetworkIoField.tx.get (sender 8589934592))
        (NetworkIoField.tx.get (NetworkIoStats.computeDiff (sender 8589934592) (sender 0))) := by
  refine ⟨sender_counts63 (by decide), sender_counts63 (by decide), ?_⟩
  intro h
  have := h.unwrapped
  revert this
  decide

end Statgrab
