import Statgrab.Access.DiffCalls
import Statgrab.Stats.Baseline
import Statgrab.Stats.Differences
import Statgrab.Stats.ProcTables

/-!
# The CPU statistics from `/proc/stat` to the caller

What `sg_get_cpu_stats` and `sg_get_cpu_stats_diff` hand out of the tables that the kernel writes to
`/proc/stat`, call after call. `statgrab -s` is such a caller.
-/

namespace Statgrab

open Text

theorem sgGetCpuStatsDiffInt_plain (tgt now last : CpuStats) (t : Thread) :
    DiffIntFn.onto (sgGetCpuStatsDiffInt .plain) (some now) (some last) tgt t
      = .ok ((.none, now.minus .plain last), t) := rfl

/-- A getter call that is not refused its vector hands out the numbers of the table. -/
theorem sgGetCpuStats_table (r : StatReading) {w : World CpuStats} {now diff : Option Ptr}
    {a b : Option CpuStats} (h : Caches w now diff a b) (hgranted : Granted now (w.mem 0)) :
    ∃ p w', sgGetCpuStats r.file now w = .ok ((⟨some p, 1, true, some .none⟩, some p), w') ∧
      w'.itemsAt (some p) = [CpuStats.ofTable r.rows r.now] := by
  have hread : ∀ y t, ∃ t', sgGetCpuStatsInt r.file y t = .ok ((.none, r.stats), t') :=
    fun y t => ⟨t, r.read y t⟩
  rcases easyCompAccess_run CpuStats.fits hread h with ⟨hno, -⟩ | ⟨-, p, w', hrun, h', -⟩
  · exact absurd hgranted hno
  · refine ⟨p, w', hrun, ?_⟩
    rw [h'.snapshot.itemsAt]
    rfl

/-- A machine with many interrupts, whose `intr` row `fgets` gets in two pieces. -/
def busyRows (user : UInt64) : List Row :=
  [⟨bytes "cpu", forall_mem_of_all (by decide), 1, [user.toNat, 2, 4, 800, 3, 0, 1], false⟩,
    ⟨bytes "cpu0", forall_mem_of_all (by decide), 0, [user.toNat, 2, 4, 800, 3, 0, 1], false⟩,
    ⟨bytes "intr", forall_mem_of_all (by decide), 0, 7777 :: List.replicate 700 0, false⟩,
    ⟨bytes "ctxt", forall_mem_of_all (by decide), 0, [99], false⟩]

theorem busyRows_distinct (user : UInt64) : ((busyRows user).map Row.word).Nodup :=
  (by decide : [bytes "cpu", bytes "cpu0", bytes "intr", bytes "ctxt"].Nodup)

theorem busyRows_found (user : UInt64) : ∃ row ∈ busyRows user, row.word ∈ statWords :=
  ⟨_, List.mem_cons_self, (by decide : bytes "cpu" ∈ statWords)⟩

theorem busyRows_statRow (user : UInt64) : ∀ row ∈ busyRows user, StatRow row := by
  have huser := user.toNat_lt
  have hword : (bytes "cpu").length < 1024 ∧ (bytes "cpu0").length < 1024 := by decide
  have hcpu0 : bytes "cpu0" ∉ statWords := by decide
  intro row hrow
  simp only [busyRows, List.mem_cons, List.not_mem_nil, or_false] at hrow
  rcases hrow with rfl | rfl | rfl | rfl
  · refine ⟨hword.1, fun _ => (by decide : 1 < 900), ?_, fun _ => (Nat.le_add_right 4 3 : 4 ≤ 7)⟩
    intro _ n hn
    simp only [List.mem_cons, List.not_mem_nil, or_false] at hn
    omega
  · exact ⟨hword.2, fun hmem => absurd hmem hcpu0, fun hmem => absurd hmem hcpu0, fun hmem => absurd hmem hcpu0⟩
  · refine ⟨by decide, by decide, ?_, ?_⟩
    · intro _ n hn
      rcases List.mem_cons.mp hn with rfl | hn
      · decide
      · rw [List.eq_of_mem_replicate hn]
        decide
    · intro _
      rw [if_neg (by decide), List.length_cons]
      exact Nat.le_add_left 1 _
  · exact ⟨by decide, by decide, by decide, by decide⟩

def busyReading (user : UInt64) : StatReading where
  rows := busyRows user
  failure := none
  now := 5
  distinct := busyRows_distinct user
  row := busyRows_statRow user
  found := busyRows_found user

theorem sgGetCpuStats_table_busy :
    ∃ p w', sgGetCpuStats (busyReading 10).file none (emptyWorld CpuStats)
        = .ok ((⟨some p, 1, true, some .none⟩, some p), w') ∧
      w'.itemsAt (some p) = [CpuStats.ofTable (busyReading 10).rows (busyReading 10).now] :=
  sgGetCpuStats_table (busyReading 10) (Caches.start fun _ => rfl) (.inr rfl)

/-- What a caller has been shown of a counter adds up to what `/proc/stat` had at the last call that showed
something, whatever memory the calls were refused. -/
theorem cpuDiffs_addUp (readings : List StatReading) {w : World CpuStats} (hstore : ∀ p, w.store p = none) :
    ∃ shown w', callDiffs (fun r : StatReading => sgGetCpuStatsDiff r.file) readings none none w
        = .ok (shown, w') ∧ shown.length = readings.length ∧
      (∀ field : CpuField, shownTotal field.get shown
        = (newest (fun r : StatReading => CpuStats.ofTable r.rows r.now) none readings shown).elim 0 field.get) ∧
      (w.toThread.Plenty → ∀ item ∈ shown, item.isSome = true) := by
  obtain ⟨shown, w', hrun, hlen, htotal, hall⟩ := callDiffs_run CpuStats.fits StatReading.read
    sgGetCpuStatsDiffInt_plain readings (Caches.start hstore)
  refine ⟨shown, w', hrun, hlen, ?_, fun hplenty => hall (.inl hplenty)⟩
  intro field
  have hget : ∀ x y : CpuStats, field.get (x.minus .plain y) = field.get x - field.get y := by
    intro x y
    rcases CountedType.get_diff .cpu field x y with ⟨-, hsub⟩ | ⟨hout, -⟩
    · exact hsub
    · exact hout.elim
  have hfield := htotal field.get hget
  rwa [Option.elim_none, UInt64.add_zero] at hfield

/-- A supply of memory that refuses the first request. -/
def refusingWorld : World CpuStats :=
  { emptyWorld CpuStats with mem := fun n => n ≠ 0 }

theorem cpuDiffs_addUp_refused :
    ∃ shown w', callDiffs (fun r : StatReading => sgGetCpuStatsDiff r.file)
        [busyReading 10, busyReading 30, busyReading 35] none none refusingWorld = .ok (shown, w') ∧
      shown.length = 3 ∧
      (∀ field : CpuField, shownTotal field.get shown
        = (newest (fun r : StatReading => CpuStats.ofTable r.rows r.now) none
            [busyReading 10, busyReading 30, busyReading 35] shown).elim 0 field.get) ∧
      (refusingWorld.toThread.Plenty → ∀ item ∈ shown, item.isSome = true) :=
  cpuDiffs_addUp [busyReading 10, busyReading 30, busyReading 35] fun _ => rfl

end Statgrab
