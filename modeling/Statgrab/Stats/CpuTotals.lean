import Mathlib.Data.UInt
import Mathlib.Tactic.FieldSimp
import Statgrab.Stats.CpuPage

/-!
# The components of the CPU time

`sg_get_cpu_percents_int` divides the six components of an `sg_cpu_stats` by its `total`, so the
percentages are worth what the total is worth: it has to be the sum of the six. AIX and Solaris form it
from all the components they fill. Linux leaves `iowait` out.

A percentage is a `double`; here it is the rational number the expression stands for.
-/

namespace Statgrab

open scoped UInt64.CommRing

/-! ### Percentages -/

structure CpuPercents where
  user : ℚ
  kernel : ℚ
  idle : ℚ
  iowait : ℚ
  swap : ℚ
  nice : ℚ
  timeTaken : Int
  deriving DecidableEq

/-- `sg_get_cpu_percents_int`, with rational numbers for its `double`s. The quotients by the total 0 are 0 here;
those of the code are infinite or not a number. -/
def sgGetCpuPercentsInt (s : CpuStats) : CpuPercents :=
  { user := s.user.toNat / s.total.toNat * 100
    kernel := s.kernel.toNat / s.total.toNat * 100
    idle := s.idle.toNat / s.total.toNat * 100
    iowait := s.iowait.toNat / s.total.toNat * 100
    swap := s.swap.toNat / s.total.toNat * 100
    nice := s.nice.toNat / s.total.toNat * 100
    timeTaken := s.systime }

def CpuPercents.sum (p : CpuPercents) : ℚ :=
  p.user + p.nice + p.kernel + p.idle + p.iowait + p.swap

namespace CpuStats

def parts (s : CpuStats) : ℕ :=
  s.user.toNat + s.nice.toNat + s.kernel.toNat + s.idle.toNat + s.iowait.toNat + s.swap.toNat

/-- The components add up to the total, modulo `2 ^ 64`. -/
def AddsUp (s : CpuStats) : Prop :=
  s.user + s.nice + s.kernel + s.idle + s.iowait + s.swap = s.total

/-- The components add up to the total, and the percentages to 100. -/
structure Whole (s : CpuStats) : Prop where
  addsUp : s.AddsUp
  percents : s.total ≠ 0 → (sgGetCpuPercentsInt s).sum = 100

theorem parts_mod (s : CpuStats) :
    (s.user + s.nice + s.kernel + s.idle + s.iowait + s.swap).toNat = s.parts % 2 ^ 64 := by
  simp only [UInt64.toNat_add, parts]
  omega

theorem percents_sum (s : CpuStats) :
    (sgGetCpuPercentsInt s).sum = (s.parts : ℚ) / s.total.toNat * 100 := by
  unfold CpuPercents.sum sgGetCpuPercentsInt parts
  push_cast
  ring

theorem percents_sum_eq_iff {s : CpuStats} (htotal : s.total ≠ 0) :
    (sgGetCpuPercentsInt s).sum = 100 ↔ s.parts = s.total.toNat := by
  have hpos : (s.total.toNat : ℚ) ≠ 0 := by
    rw [Nat.cast_ne_zero]
    intro hzero
    exact htotal (UInt64.toNat_inj.mp hzero)
  rw [percents_sum, ← Nat.cast_inj (R := ℚ)]
  constructor
  · intro h
    field_simp at h
    exact h
  · intro h
    rw [h]
    field_simp

/-- With components that add up the percentages do so where the sum has not wrapped. -/
theorem whole_iff {s : CpuStats} : s.Whole ↔ s.AddsUp ∧ (s.total = 0 ∨ s.parts < 2 ^ 64) := by
  constructor
  · intro h
    refine ⟨h.addsUp, ?_⟩
    by_cases htotal : s.total = 0
    · exact .inl htotal
    · right
      rw [(percents_sum_eq_iff htotal).mp (h.percents htotal)]
      exact s.total.toNat_lt
  · rintro ⟨hadds, hrest⟩
    refine ⟨hadds, ?_⟩
    intro htotal
    rw [percents_sum_eq_iff htotal]
    have hparts := s.parts_mod
    rw [hadds] at hparts
    rcases hrest with hzero | hlt
    · exact absurd hzero htotal
    · omega

end CpuStats

/-! ### Linux -/

/-- The `iowait` counter of the lines of `/proc/stat` that are read, with `matched` lines found so far
and `iowait` from the last `cpu` line among them. -/
def iowaitOf : List StatLine → Nat → UInt64 → UInt64
  | [], _, iowait => iowait
  | line :: lines, matched, iowait =>
      if 4 ≤ matched then iowait
      else
        match line with
        | .cpu values => iowaitOf lines (matched + 1) (values.getD 4 iowait)
        | .intr _ => iowaitOf lines (matched + 1) iowait
        | .ctxt _ => iowaitOf lines (matched + 1) iowait
        | .softirq _ => iowaitOf lines (matched + 1) iowait
        | .other => iowaitOf lines matched iowait

/-- The `iowait` counter of `/proc/stat`: the fifth number of its `cpu` line, 0 where there is none. -/
def StatFile.iowait (file : StatFile) : UInt64 :=
  match file.lines with
  | .error _ => 0
  | .ok lines => iowaitOf lines 0 0

theorem getD_take_five (values : List UInt64) (x : UInt64) :
    (values.take 5).getD 4 x = values.getD 4 x := by
  rw [List.getD_eq_getElem?_getD, List.getD_eq_getElem?_getD, List.getElem?_take_of_lt (by omega)]

theorem scanStat_eq_ok {lines : List StatLine} {matched m : Nat} {buf s : CpuStats} {t t' : Thread}
    (h : scanStat lines matched buf t = .ok ((.none, s, m), t')) :
    s.iowait = iowaitOf lines matched buf.iowait ∧ s.swap = buf.swap := by
  induction lines generalizing matched buf with
  | nil =>
      cases h
      exact ⟨rfl, rfl⟩
  | cons line lines ih =>
      unfold scanStat at h
      unfold iowaitOf
      by_cases hfull : 4 ≤ matched
      · rw [if_pos hfull] at h ⊢
        cases h
        exact ⟨rfl, rfl⟩
      · rw [if_neg hfull] at h ⊢
        match line with
        | .cpu values =>
            simp only at h
            by_cases hshort : (values.take 5).length < 4
            · rw [if_pos hshort] at h
              cases h
            · rw [if_neg hshort] at h
              obtain ⟨hiowait, hswap⟩ := ih h
              refine ⟨?_, hswap⟩
              rw [hiowait, CpuStats.storeCpu, getD_take_five]
        | .intr (some _) | .ctxt (some _) | .softirq (some _) | .other =>
            obtain ⟨hiowait, hswap⟩ := ih h
            exact ⟨hiowait, hswap⟩
        | .intr none | .ctxt none | .softirq none => cases h

/-- What `sg_get_cpu_stats_int` delivers: `iowait` from the file, no `swap`, and a total of the four
other components. -/
theorem sgGetCpuStatsInt_eq_ok {file : StatFile} {y s : CpuStats} {t t' : Thread}
    (h : sgGetCpuStatsInt file y t = .ok ((.none, s), t')) :
    s.iowait = file.iowait ∧ s.swap = 0 ∧ s.total = s.user + s.nice + s.kernel + s.idle := by
  rw [StatFile.iowait]
  cases hlines : file.lines with
  | error errno =>
      rw [sgGetCpuStatsInt, hlines] at h
      cases h
  | ok lines =>
      rw [sgGetCpuStatsInt, hlines] at h
      obtain ⟨⟨rc, buf, matched⟩, t1, hscan, hrest⟩ := Prog.bind_eq_ok.mp h
      by_cases hrc : rc = .none
      · subst hrc
        simp only [ne_eq, not_true_eq_false, if_false] at hrest
        by_cases hmatched : matched = 0
        · rw [if_pos hmatched] at hrest
          cases hrest
        · rw [if_neg hmatched] at hrest
          cases hrest
          obtain ⟨hiowait, hswap⟩ := scanStat_eq_ok hscan
          exact ⟨hiowait, hswap, rfl⟩
      · simp only [ne_eq, hrc, not_false_eq_true, if_true] at hrest
        cases hrest
        exact absurd rfl hrc

namespace CpuStats

/-- Where the total is formed from four components, the two others decide. -/
theorem addsUp_iff {s : CpuStats} (htotal : s.total = s.user + s.nice + s.kernel + s.idle)
    (hswap : s.swap = 0) : s.AddsUp ↔ s.iowait = 0 := by
  rw [AddsUp, htotal, hswap, add_zero, add_eq_left]

/-- How far the components of the total have advanced between two snapshots, each modulo `2 ^ 64`. -/
def advance (now last : CpuStats) : ℕ :=
  (now.user - last.user).toNat + (now.nice - last.nice).toNat + (now.kernel - last.kernel).toNat +
    (now.idle - last.idle).toNat

theorem minus_total {now last : CpuStats} (branch : CounterBranch)
    (hnow : now.total = now.user + now.nice + now.kernel + now.idle)
    (hlast : last.total = last.user + last.nice + last.kernel + last.idle) :
    (now.minus branch last).total = (now.minus branch last).user + (now.minus branch last).nice +
      (now.minus branch last).kernel + (now.minus branch last).idle := by
  simp only [minus, hnow, hlast]
  ring

end CpuStats

/-- A snapshot is whole exactly if the kernel reports no `iowait`. The difference of two snapshots is
whole exactly if `iowait` is the same in both and the other counters have not advanced by `2 ^ 64`
together, as they do where one runs backwards. -/
theorem cpu_whole_iff {last now : StatFile} {y0 y1 s0 s1 tgt d : CpuStats} {t0 t0' t1 t1' t t' : Thread}
    (branch : CounterBranch) (hlast : sgGetCpuStatsInt last y0 t0 = .ok ((.none, s0), t0'))
    (hnow : sgGetCpuStatsInt now y1 t1 = .ok ((.none, s1), t1'))
    (hdiff : sgGetCpuStatsDiffInt branch (some tgt) (some s1) (some s0) t = .ok ((.none, some d), t'))
    (hsum : s1.parts < 2 ^ 64) :
    (s1.Whole ↔ now.iowait = 0) ∧
    (d.Whole ↔ now.iowait = last.iowait ∧ (s1.total = s0.total ∨ CpuStats.advance s1 s0 < 2 ^ 64)) := by
  obtain ⟨hio0, hswap0, htotal0⟩ := sgGetCpuStatsInt_eq_ok hlast
  obtain ⟨hio1, hswap1, htotal1⟩ := sgGetCpuStatsInt_eq_ok hnow
  cases hdiff
  have hswap : (s1.minus branch s0).swap = 0 := by
    simp only [CpuStats.minus, hswap0, hswap1, sub_zero]
  have hio : (s1.minus branch s0).iowait = s1.iowait - s0.iowait := rfl
  have hadds := CpuStats.addsUp_iff (CpuStats.minus_total branch htotal1 htotal0) hswap
  rw [CpuStats.whole_iff, CpuStats.whole_iff, CpuStats.addsUp_iff htotal1 hswap1, hadds, hio,
    sub_eq_zero, hio0, hio1]
  constructor
  · exact and_iff_left (.inr hsum)
  · apply and_congr_right
    intro hsame
    have hzero : (s1.minus branch s0).total = 0 ↔ s1.total = s0.total := sub_eq_zero
    have hparts : (s1.minus branch s0).parts = CpuStats.advance s1 s0 := by
      rw [CpuStats.parts, hswap, hio, hio0, hio1, hsame, sub_self]
      rfl
    rw [hzero, hparts]

/-- `/proc/stat` with one `cpu` line. -/
def cpuLine (values : List UInt64) : StatFile := ⟨.ok [.cpu values], 0⟩

/-- The item of a `cpu` line whose first four numbers are `n`. -/
def evenTicks (n iowait : UInt64) : CpuStats :=
  { CpuStats.zero with
    user := n, nice := n, kernel := n, idle := n, iowait := iowait, total := n + n + n + n }

/-- Two snapshots without `iowait`: the second is whole, and so is the difference. -/
theorem cpu_whole_even :
    (evenTicks 50 0).Whole ∧ (CpuStats.minus .plain (evenTicks 50 0) (evenTicks 25 0)).Whole := by
  have calm : Thread := ⟨.clear, fun _ => true⟩
  obtain ⟨hsnapshot, hdiff⟩ := @cpu_whole_iff (cpuLine [25, 25, 25, 25]) (cpuLine [50, 50, 50, 50])
    .zero .zero (evenTicks 25 0) (evenTicks 50 0) .zero _ calm _ calm _ calm _ .plain rfl rfl rfl
    (by decide)
  exact ⟨hsnapshot.mpr rfl, hdiff.mpr ⟨rfl, .inr (by decide)⟩⟩

/-- A fifth of the time is spent waiting for I/O: the percentages add up to 125. -/
theorem cpu_not_whole :
    sgGetCpuStatsInt (cpuLine [25, 25, 25, 25, 25]) .zero ⟨.clear, fun _ => true⟩
        = .ok ((.none, evenTicks 25 25), ⟨.clear, fun _ => true⟩) ∧
      ¬ (evenTicks 25 25).AddsUp ∧ (sgGetCpuPercentsInt (evenTicks 25 25)).sum = 125 := by
  refine ⟨rfl, ?_, ?_⟩
  · unfold CpuStats.AddsUp
    decide
  · rw [CpuStats.percents_sum, show (evenTicks 25 25).parts = 125 from rfl,
      show (evenTicks 25 25).total.toNat = 100 from rfl]
    norm_num

/-! ### AIX and Solaris -/

structure PerfstatCpuTotal where
  user : UInt64
  sys : UInt64
  idle : UInt64
  wait : UInt64
  pswitch : UInt64
  syscall : UInt64
  devintrs : UInt64
  softintrs : UInt64

/-- The item of `sg_get_cpu_stats_int` on AIX. -/
def aixCpuStats (info : PerfstatCpuTotal) (now : Int) : CpuStats :=
  { CpuStats.zero with
    user := info.user
    iowait := info.wait
    kernel := info.sys
    idle := info.idle
    total := info.user + info.wait + info.sys + info.idle
    contextSwitches := info.pswitch
    syscalls := info.syscall
    interrupts := info.devintrs
    softInterrupts := info.softintrs
    systime := now }

theorem aixCpuStats_addsUp (info : PerfstatCpuTotal) (now : Int) : (aixCpuStats info now).AddsUp := by
  unfold CpuStats.AddsUp aixCpuStats CpuStats.zero
  ring

structure CpuStat where
  user : UInt32
  kernel : UInt32
  idle : UInt32
  waitIo : UInt32
  waitPio : UInt32
  waitSwap : UInt32
  pswitch : UInt32
  syscall : UInt32
  invSwtch : UInt32
  intr : UInt32

/-- One round of the loop over the `cpu_stat` records on Solaris. -/
def addCpuStat (buf : CpuStats) (cs : CpuStat) : CpuStats :=
  { buf with
    user := buf.user + cs.user.toUInt64
    kernel := buf.kernel + cs.kernel.toUInt64
    idle := buf.idle + cs.idle.toUInt64
    iowait := buf.iowait + (cs.waitIo.toUInt64 + cs.waitPio.toUInt64)
    swap := buf.swap + cs.waitSwap.toUInt64
    contextSwitches := buf.contextSwitches + cs.pswitch.toUInt64
    syscalls := buf.syscalls + cs.syscall.toUInt64
    involuntaryContextSwitches := buf.involuntaryContextSwitches + cs.invSwtch.toUInt64
    interrupts := buf.interrupts + cs.intr.toUInt64 }

/-- The item of `sg_get_cpu_stats_int` on Solaris, from the records that could be read. -/
def solarisCpuStats (stats : List CpuStat) (now : Int) : CpuStats :=
  let buf := stats.foldl addCpuStat .zero
  { buf with
    total := buf.user + buf.iowait + buf.kernel + buf.idle + buf.swap
    voluntaryContextSwitches := buf.contextSwitches - buf.involuntaryContextSwitches
    systime := now }

theorem foldl_addCpuStat_nice (stats : List CpuStat) (buf : CpuStats) :
    (stats.foldl addCpuStat buf).nice = buf.nice := by
  induction stats generalizing buf with
  | nil => rfl
  | cons cs stats ih => exact ih (addCpuStat buf cs)

theorem solarisCpuStats_addsUp (stats : List CpuStat) (now : Int) :
    (solarisCpuStats stats now).AddsUp := by
  have hnice : (solarisCpuStats stats now).nice = 0 := foldl_addCpuStat_nice stats .zero
  rw [CpuStats.AddsUp, hnice]
  unfold solarisCpuStats
  ring

end Statgrab
