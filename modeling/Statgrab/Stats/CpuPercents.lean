import Statgrab.Access.OneItem
import Statgrab.Stats.Baseline
import Statgrab.Stats.CpuTotals

/-!
# The percentages of `cpu_stats.c`

`sg_get_cpu_percents_of` divides the stats that its source names by their total: the cached snapshot, the
cached difference, or what a getter or a diff that it calls itself delivers. Its switch leaves two
variables, the vector of what is cached and the pointer of what was fetched, and only one of them is set.
The stats are taken from whichever it is, the number of entries always from the vector.

A difference of two snapshots of the same tick has the total 0. So has a snapshot whose read failed,
which stays cached, and one of a `/proc/stat` without a `cpu` line.
-/

namespace Statgrab

/-! ### The calls -/

inductive SgCpuPercentSource where
  | entireCpuPercent
  | lastDiffCpuPercent
  | newDiffCpuPercent
  | other (code : Int)
  deriving DecidableEq

/-- The vectors of `struct sg_cpu_glob`. -/
structure CpuGlob where
  now : Option Ptr
  diff : Option Ptr
  percent : Option Ptr
  deriving DecidableEq

/-- The vectors of a thread. The thread is that of `stats`. -/
structure CpuWorld where
  stats : World CpuStats
  percents : World CpuPercents

/-- A function that works on both kinds of vectors. -/
abbrev CpuM := Prog Fault CpuWorld

/-- Run a function on the vectors of stats. -/
def onCpuStats {β : Type} (x : VecM CpuStats β) : CpuM β :=
  Prog.zoom CpuWorld.stats (fun s w => { s with stats := w }) x

/-- Run a function on the vectors of percentages. -/
def onPercents {β : Type} (x : VecM CpuPercents β) : CpuM β :=
  Prog.zoom (fun s => { s.percents with toThread := s.stats.toThread })
    (fun s w => ⟨{ s.stats with toThread := w.toThread }, w⟩) x

theorem onCpuStats_of_ok {β : Type} {x : VecM CpuStats β} {w : CpuWorld} {y : β} {w' : World CpuStats}
    (h : x w.stats = .ok (y, w')) : onCpuStats x w = .ok (y, { w with stats := w' }) :=
  Prog.zoom_of_ok h

theorem onPercents_of_ok {β : Type} {x : VecM CpuPercents β} {w : CpuWorld} {y : β}
    {w' : World CpuPercents} (h : x { w.percents with toThread := w.stats.toThread } = .ok (y, w')) :
    onPercents x w = .ok (y, ⟨{ w.stats with toThread := w'.toThread }, w'⟩) :=
  Prog.zoom_of_ok h

/-- `VECTOR_INIT_INFO_EMPTY_INIT(sg_cpu_percents)`. -/
def CpuPercents.info : VectorInitInfo CpuPercents :=
  { itemSize := 56, initFn := none, copyFn := none, computeDiffFn := none, compareFn := none
    destroyFn := none }

/-- What a caller gets: the pointer and `*entries`. The stats that were divided are not visible to it. -/
structure PercentAccess where
  data : Option Ptr
  entries : Nat
  divided : Option CpuStats
  deriving DecidableEq

/-- The vector for the percentages, made at the first call. -/
def percentTarget (percent : Option Ptr) : CpuM (Option Ptr) :=
  onPercents (easyTarget CpuPercents.info percent)

/-- `cs_ptr = sg_get_cpu_stats_diff(NULL)`. -/
def percentNewDiff (file : StatFile) (glob : CpuGlob) : CpuM (Option Ptr × Option Ptr × CpuGlob) := do
  let (got, now, diff) ← onCpuStats (sgGetCpuStatsDiff file glob.now glob.diff)
  return (none, got.data, { glob with now := now, diff := diff })

/-- The switch of `sg_get_cpu_percents_of`: `cpu_stats_vector` and `cs_ptr`. -/
def percentSource (file : StatFile) (cps : SgCpuPercentSource) (glob : CpuGlob) :
    CpuM (Option Ptr × Option Ptr × CpuGlob) :=
  match cps with
  | .entireCpuPercent =>
      match glob.now with
      | some p => return (some p, none, glob)
      | none => do
          let (got, now) ← onCpuStats (sgGetCpuStats file none)
          return (none, got.data, { glob with now := now })
  | .lastDiffCpuPercent =>
      match glob.diff with
      | some p => return (some p, none, glob)
      | none => percentNewDiff file glob
  | .newDiffCpuPercent => percentNewDiff file glob
  | .other code => do
      onCpuStats (onThread (sgSetError .invalidArgument 0
        ("sg_get_cpu_percents_of(cps = " ++ toString code ++ ")")))
      return (none, none, glob)

/-- The end of `sg_get_cpu_percents_of`: the stats behind the pointer are divided, and the items of the
vector are counted. -/
def percentsInto (q p : Ptr) (vector : Option Ptr) : CpuM PercentAccess := do
  let v ← onCpuStats (deref p)
  onCpuStats (touch v 1)
  let _ ← onPercents (onItem q 0 fun _ => return (.none, sgGetCpuPercentsInt (v.cells 0)))
  let entries ← onCpuStats (vectorItemCount vector)
  return ⟨some q, entries, some (v.cells 0)⟩

/-- `sg_get_cpu_percents_of(cps, entries)`, with what `*entries` held before. -/
def sgGetCpuPercentsOf (file : StatFile) (cps : SgCpuPercentSource) (entries : Nat) (glob : CpuGlob) :
    CpuM (PercentAccess × CpuGlob) := do
  let percent ← percentTarget glob.percent
  match percent with
  | none => do
      onCpuStats (onThread (sgSetError .malloc 0 "sg_get_cpu_percents_of"))
      -- this exit does not write `*entries`
      return (⟨none, entries, none⟩, glob)
  | some q => do
      let (vector, csPtr, glob) ← percentSource file cps { glob with percent := some q }
      match csPtr.or vector with
      | none => return (⟨none, 0, none⟩, glob)
      | some p => do
          let result ← percentsInto q p vector
          return (result, glob)

def sgGetCpuPercentsR (whereof : Option CpuStats) : VecM CpuPercents PercentAccess :=
  match whereof with
  | none => do
      onThread (sgSetError .invalidArgument 0 "sg_get_cpu_percents_r(whereof = (nil))")
      return ⟨none, 0, none⟩
  | some s => do
      let vector ← sgVectorCreate 1 1 1 CpuPercents.info
      match vector with
      | none => return ⟨none, 0, none⟩
      | some p => do
          let _ ← onItem p 0 fun _ => return (.none, sgGetCpuPercentsInt s)
          let entries ← vectorItemCount (some p)
          return ⟨some p, entries, some s⟩

/-! ### The ticks of `/proc/stat` -/

/-- The ticks of the last `cpu` line among those that are read, with `matched` lines found so far. There
is no answer where a number is missing. -/
def ticksOf : List StatLine → Nat → UInt64 → Option (Nat × UInt64)
  | [], matched, ticks => some (matched, ticks)
  | line :: lines, matched, ticks =>
      if 4 ≤ matched then some (matched, ticks)
      else
        match line with
        | .cpu (user :: nice :: kernel :: idle :: _) =>
            ticksOf lines (matched + 1) (user + nice + kernel + idle)
        | .cpu _ => none
        | .intr value => value.bind fun _ => ticksOf lines (matched + 1) ticks
        | .ctxt value => value.bind fun _ => ticksOf lines (matched + 1) ticks
        | .softirq value => value.bind fun _ => ticksOf lines (matched + 1) ticks
        | .other => ticksOf lines matched ticks

/-- The ticks that `/proc/stat` counts, where it can be read: 0 without a `cpu` line. -/
def StatFile.ticks (file : StatFile) : Option UInt64 :=
  match file.lines with
  | .error _ => none
  | .ok lines => (ticksOf lines 0 0).bind fun r => if r.1 = 0 then none else some r.2

/-- The four counters of an item together. -/
def CpuStats.ticks (s : CpuStats) : UInt64 := s.user + s.nice + s.kernel + s.idle

theorem scanStat_ticks (lines : List StatLine) (matched : Nat) (buf : CpuStats) (hbuf : buf.total = 0) :
    (∃ m n s, ticksOf lines matched buf.ticks = some (m, n) ∧ s.ticks = n ∧ s.total = 0 ∧
      ∀ t, scanStat lines matched buf t = .ok ((.none, s, m), t)) ∨
    (ticksOf lines matched buf.ticks = none ∧ ∃ rc m s, rc ≠ .none ∧ s.total = 0 ∧
      ∀ t, ∃ t', scanStat lines matched buf t = .ok ((rc, s, m), t')) := by
  induction lines generalizing matched buf with
  | nil => exact .inl ⟨matched, buf.ticks, buf, rfl, rfl, hbuf, fun _ => rfl⟩
  | cons line lines ih =>
      unfold scanStat ticksOf
      by_cases hfull : 4 ≤ matched
      · simp only [if_pos hfull]
        exact .inl ⟨matched, buf.ticks, buf, rfl, rfl, hbuf, fun _ => rfl⟩
      · simp only [if_neg hfull]
        -- a line that is read goes on with the induction, one that is not ends the scan
        cases line with
        | cpu values =>
            rcases values with _ | ⟨user, _ | ⟨nice, _ | ⟨kernel, _ | ⟨idle, rest⟩⟩⟩⟩
            iterate 4
              exact .inr ⟨rfl, .parse, matched, buf.storeCpu (List.take 5 _), by decide, hbuf,
                fun t => ⟨_, rfl⟩⟩
            have hlong : ¬ (List.take 5 (user :: nice :: kernel :: idle :: rest)).length < 4 := by
              simp only [List.length_take, List.length_cons]
              omega
            simp only [if_neg hlong]
            exact ih (matched + 1) (buf.storeCpu (List.take 5 (user :: nice :: kernel :: idle :: rest))) hbuf
        | intr value =>
            cases value with
            | none => exact .inr ⟨rfl, .parse, matched, buf, by decide, hbuf, fun t => ⟨_, rfl⟩⟩
            | some value => exact ih (matched + 1) { buf with interrupts := value } hbuf
        | ctxt value =>
            cases value with
            | none => exact .inr ⟨rfl, .parse, matched, buf, by decide, hbuf, fun t => ⟨_, rfl⟩⟩
            | some value => exact ih (matched + 1) { buf with contextSwitches := value } hbuf
        | softirq value =>
            cases value with
            | none => exact .inr ⟨rfl, .parse, matched, buf, by decide, hbuf, fun t => ⟨_, rfl⟩⟩
            | some value => exact ih (matched + 1) { buf with softInterrupts := value } hbuf
        | other => exact ih matched buf hbuf

/-- A read of `/proc/stat`: the total is the ticks, and 0 where the read fails. -/
theorem sgGetCpuStatsInt_ticks (file : StatFile) :
    ∃ rc x, (∀ y t, ∃ t', sgGetCpuStatsInt file y t = .ok ((rc, x), t')) ∧
      (rc = .none → file.ticks = some x.total) ∧ (rc ≠ .none → file.ticks = none ∧ x.total = 0) := by
  unfold StatFile.ticks
  cases hlines : file.lines with
  | error errno =>
      refine ⟨.open, .zero, ?_, fun hcon => absurd hcon (by decide), fun _ => ⟨rfl, rfl⟩⟩
      intro y t
      rw [sgGetCpuStatsInt, hlines]
      exact ⟨_, rfl⟩
  | ok lines =>
      rcases scanStat_ticks lines 0 .zero rfl with
        ⟨m, n, s, hticks, hs, hzero, hscan⟩ | ⟨hticks, rc, m, s, hrc, hzero, hscan⟩
      · rw [show CpuStats.zero.ticks = 0 from rfl] at hticks
        simp only [hticks, Option.bind_some]
        by_cases hm : m = 0
        · refine ⟨.parse, s, ?_, fun hcon => absurd hcon (by decide), fun _ => ⟨if_pos hm, hzero⟩⟩
          intro y t
          rw [sgGetCpuStatsInt, hlines]
          simp only
          rw [Prog.bind_of_ok (hscan t)]
          simp only [ne_eq, not_true_eq_false, if_false, if_pos hm]
          exact ⟨_, rfl⟩
        · refine ⟨.none, { s with total := s.ticks, systime := file.now }, ?_, ?_, fun h => absurd rfl h⟩
          · intro y t
            rw [sgGetCpuStatsInt, hlines]
            simp only
            rw [Prog.bind_of_ok (hscan t)]
            simp only [ne_eq, not_true_eq_false, if_false, if_neg hm]
            exact ⟨_, rfl⟩
          · intro _
            rw [if_neg hm, hs]
      · rw [show CpuStats.zero.ticks = 0 from rfl] at hticks
        simp only [hticks, Option.bind_none]
        refine ⟨rc, s, ?_, fun h => absurd h hrc, fun _ => ⟨trivial, hzero⟩⟩
        intro y t
        obtain ⟨t', ht'⟩ := hscan t
        rw [sgGetCpuStatsInt, hlines]
        simp only
        rw [Prog.bind_of_ok ht', if_pos hrc]
        exact ⟨_, rfl⟩

/-- What a read leaves as the total, whether it fails or not. -/
theorem sgGetCpuStatsInt_total {file : StatFile} {rc : SgError} {x : CpuStats}
    (hok : rc = .none → file.ticks = some x.total) (hfailed : rc ≠ .none → file.ticks = none ∧ x.total = 0) :
    x.total = file.ticks.getD 0 := by
  by_cases hrc : rc = .none
  · rw [hok hrc]
    rfl
  · rw [(hfailed hrc).1]
    exact (hfailed hrc).2

/-! ### What is divided -/

theorem CpuPercents.fits : Fits 1 0 CpuPercents.info := ⟨by decide, by decide, by decide⟩

/-- What a thread has cached between two calls: the snapshot `a` and the difference `b`. -/
structure CpuGlob.Kept (glob : CpuGlob) (w : CpuWorld) (a b : Option CpuStats) : Prop where
  stats : Caches w.stats glob.now glob.diff a b
  percents : ∃ c, Caches w.percents glob.percent none c none

/-- The ticks of `/proc/stat` since a snapshot, or since boot. -/
def StatFile.since (file : StatFile) (last : Option CpuStats) : Option UInt64 :=
  file.ticks.map fun n => n - last.elim 0 CpuStats.total

theorem StatFile.since_none (file : StatFile) : file.since none = file.ticks := by
  have hid : (fun n : UInt64 => n - (none : Option CpuStats).elim 0 CpuStats.total) = id := by
    funext n
    exact UInt64.sub_zero n
  rw [StatFile.since, hid, Option.map_id, id_eq]

/-- The source finds its stats in a vector that is cached. -/
def SgCpuPercentSource.Cached (cps : SgCpuPercentSource) (glob : CpuGlob) : Prop :=
  match cps with
  | .entireCpuPercent => glob.now ≠ none
  | .lastDiffCpuPercent => glob.diff ≠ none
  | .newDiffCpuPercent => False
  | .other _ => False

/-- The allocator does not keep the source from its stats. -/
def SgCpuPercentSource.Granted (cps : SgCpuPercentSource) (glob : CpuGlob) (answer : Bool) : Prop :=
  match cps with
  | .entireCpuPercent => glob.now ≠ none ∨ answer = true
  | .lastDiffCpuPercent => glob.diff ≠ none ∨ answer = true
  | .newDiffCpuPercent => (glob.now ≠ none ∧ glob.diff ≠ none) ∨ answer = true
  | .other _ => False

/-- The total of the stats that a source names, from the cached snapshot, the cached difference and the
file. -/
def SgCpuPercentSource.total (cps : SgCpuPercentSource) (file : StatFile) (a b : Option CpuStats) :
    Option UInt64 :=
  match cps with
  | .entireCpuPercent => a.elim file.ticks fun s => some s.total
  | .lastDiffCpuPercent => b.elim (file.since a) fun s => some s.total
  | .newDiffCpuPercent => file.since a
  | .other _ => none

/-- A getter has read the file: the total of the snapshot is the ticks, and 0 where the read fails. -/
def StatFile.Got (file : StatFile) (b a' b' : Option CpuStats) : Prop :=
  a'.map CpuStats.total = some (file.ticks.getD 0) ∧ b' = b

/-- A diff has read the file: so has a getter, and the total of the difference is the ticks since the snapshot
of before. Where the read fails the difference of before stays cached. -/
def StatFile.Diffed (file : StatFile) (a b a' b' : Option CpuStats) : Prop :=
  match a with
  | none => file.Got b a' b'
  | some last =>
      a'.map CpuStats.total = some (file.ticks.getD 0) ∧
        match file.ticks with
        | some n => b'.map CpuStats.total = some (n - last.total)
        | none => ∀ z, b = some z → b' = some z

/-- What is cached after a call that needs the stats of the source: those of before, or what its read has left
where it had to read. -/
def SgCpuPercentSource.Leaves (cps : SgCpuPercentSource) (file : StatFile) (glob : CpuGlob) (answer : Bool)
    (a b a' b' : Option CpuStats) : Prop :=
  (¬ cps.Cached glob ∧ cps.Granted glob answer → match cps with
    | .entireCpuPercent => file.Got b a' b'
    | _ => file.Diffed a b a' b') ∧
  (¬ (¬ cps.Cached glob ∧ cps.Granted glob answer) → a' = a ∧ b' = b)

def FreshStats (file : StatFile) (glob : CpuGlob) (w : World CpuStats) (s : CpuStats) : Prop :=
  ∃ got now w', sgGetCpuStats file glob.now w = .ok ((got, now), w') ∧ w'.itemsAt got.data = [s]

def FreshDiff (file : StatFile) (glob : CpuGlob) (w : World CpuStats) (s : CpuStats) : Prop :=
  ∃ got now diff w', sgGetCpuStatsDiff file glob.now glob.diff w = .ok ((got, now, diff), w') ∧
    w'.itemsAt got.data = [s]

/-- The stats that a source names: the cached snapshot or else a fresh one; the cached difference or else
a fresh one; a fresh difference. -/
def SgCpuPercentSource.Names (cps : SgCpuPercentSource) (file : StatFile) (glob : CpuGlob)
    (w : World CpuStats) (s : CpuStats) : Prop :=
  match cps with
  | .entireCpuPercent => w.itemsAt glob.now = [s] ∨ glob.now = none ∧ FreshStats file glob w s
  | .lastDiffCpuPercent => w.itemsAt glob.diff = [s] ∨ glob.diff = none ∧ FreshDiff file glob w s
  | .newDiffCpuPercent => FreshDiff file glob w s
  | .other _ => False

section

variable {file : StatFile} {glob : CpuGlob} {a b : Option CpuStats}

theorem sgGetCpuStats_run {w : World CpuStats} {diff : Option Ptr} (file : StatFile)
    (h : Caches w none diff none b) :
    ∃ got now a' s w', sgGetCpuStats file none w = .ok ((got, now), w') ∧ Caches w' now diff a' b ∧
      w'.Has got.data s ∧ (w.mem 0 = true → s.map CpuStats.total = file.ticks ∧ file.Got b a' b) ∧
      (w.mem 0 = false → s = none ∧ a' = none) := by
  obtain ⟨rc, x, hread, hok, hfailed⟩ := sgGetCpuStatsInt_ticks file
  have htotal := sgGetCpuStatsInt_total hok hfailed
  rcases easyCompAccess_run CpuStats.fits hread h with ⟨hno, w', hrun, h'⟩ | ⟨hyes, p, w', hrun, h', -⟩
  · refine ⟨_, none, none, none, w', hrun, h', .null, ?_, fun _ => ⟨rfl, rfl⟩⟩
    intro hmem
    exact absurd (.inr hmem) hno
  · have hmem : w.mem 0 = true := hyes.resolve_left fun hne => hne rfl
    have hgot : file.Got b (some x) b := ⟨congrArg some htotal, rfl⟩
    have hnot : w.mem 0 ≠ false := ne_false_of_eq_true hmem
    by_cases hrc : rc = .none
    · refine ⟨_, some p, some x, some x, w', hrun, h', ?_, fun _ => ⟨(hok hrc).symm, hgot⟩,
        fun hfalse => absurd hfalse hnot⟩
      rw [gotten, if_pos hrc]
      exact h'.snapshot
    · refine ⟨_, some p, some x, none, w', hrun, h', ?_, fun _ => ⟨(hfailed hrc).1.symm, hgot⟩,
        fun hfalse => absurd hfalse hnot⟩
      rw [gotten, if_neg hrc]
      exact .null

theorem sgGetCpuStatsDiff_run {w : World CpuStats} {now diff : Option Ptr} (file : StatFile)
    (h : Caches w now diff a b) :
    ∃ got now' diff' a' b' s w', sgGetCpuStatsDiff file now diff w = .ok ((got, now', diff'), w') ∧
      Caches w' now' diff' a' b' ∧ w'.Has got.data s ∧
      ((now ≠ none ∧ diff ≠ none) ∨ w.mem 0 = true →
        s.map CpuStats.total = file.since a ∧ file.Diffed a b a' b') ∧
      (¬ ((now ≠ none ∧ diff ≠ none) ∨ w.mem 0 = true) → s = none ∧ a' = a ∧ b' = b) := by
  cases now with
  | none =>
      obtain rfl := h.snapshot.none_iff.mp rfl
      obtain ⟨got, now', a', s, w', hrun, h', hs, hyes, hno⟩ := sgGetCpuStats_run file h
      refine ⟨got, now', diff, a', b, s, w', easyCompDiff_none hrun diff, h', hs, ?_, ?_⟩
      · intro hgranted
        rw [StatFile.since_none]
        exact hyes (hgranted.resolve_left fun hne => hne.1 rfl)
      · intro hrefused
        obtain ⟨hs', ha'⟩ := hno (Bool.eq_false_iff.mpr fun hmem => hrefused (.inr hmem))
        exact ⟨hs', ha', rfl⟩
  | some n =>
      obtain ⟨-, last, rfl, -, -⟩ := h.snapshot.of_some
      obtain ⟨rc, x, hread, hok, hfailed⟩ := sgGetCpuStatsInt_ticks file
      have htotal : (some x).map CpuStats.total = some (file.ticks.getD 0) :=
        congrArg some (sgGetCpuStatsInt_total hok hfailed)
      have hgranted : ((some n ≠ none ∧ diff ≠ none) ∨ w.mem 0 = true) ↔ Granted diff (w.mem 0) := by
        simp [Granted]
      rw [hgranted]
      rcases easyCompDiff_run CpuStats.fits hread (fun _ _ _ _ => rfl) h with
        ⟨hno, w', hrun, h'⟩ | ⟨hyes, hrc, d, y, w', hrun, h', hkept⟩ | ⟨hyes, hrc, d, w', hrun, h'⟩
      · have hdiff : diff = none := by
          by_contra hne
          exact hno (.inl hne)
        exact ⟨_, _, _, _, _, none, w', hrun, h', .null, fun hyes => absurd hyes hno,
          fun _ => ⟨rfl, rfl, (h.difference.none_iff.mp hdiff).symm⟩⟩
      · refine ⟨_, _, _, _, _, none, w', hrun, h', .null, fun _ => ⟨?_, htotal, ?_⟩,
          fun hno => absurd hyes hno⟩
        · rw [StatFile.since, (hfailed hrc).1]
          rfl
        · rw [(hfailed hrc).1]
          intro z hz
          exact congrArg some (hkept z hz)
      · refine ⟨_, _, _, _, _, _, w', hrun, h', h'.difference, fun _ => ⟨?_, htotal, ?_⟩,
          fun hno => absurd hyes hno⟩
        · rw [StatFile.since, hok hrc]
          rfl
        · rw [hok hrc]
          rfl

/-- What the switch has chosen: the stats `s`, if there are any. -/
structure SourceChosen (file : StatFile) (cps : SgCpuPercentSource) (glob : CpuGlob) (w : CpuWorld)
    (a b : Option CpuStats) (vector csPtr : Option Ptr) (glob' : CpuGlob) (w' : CpuWorld)
    (s : Option CpuStats) : Prop where
  kept : ∃ a' b', glob'.Kept w' a' b' ∧ cps.Leaves file glob (w.stats.mem 0) a b a' b'
  percent : glob'.percent = glob.percent
  has : w'.stats.Has (csPtr.or vector) s
  cached : cps.Cached glob → csPtr = none ∧ vector ≠ none
  fetched : ¬ cps.Cached glob → vector = none
  named : ∀ x, s = some x → cps.Names file glob w.stats x
  total : cps.Granted glob (w.stats.mem 0) → s.map CpuStats.total = cps.total file a b
  refused : ¬ cps.Granted glob (w.stats.mem 0) → s = none

theorem percentNewDiff_run {w : CpuWorld} (file : StatFile) (h : glob.Kept w a b) :
    ∃ csPtr glob' w' s, percentNewDiff file glob w = .ok ((none, csPtr, glob'), w') ∧
      SourceChosen file .newDiffCpuPercent glob w a b none csPtr glob' w' s := by
  obtain ⟨got, now, diff, a', b', s, w', hrun, h', hs, hyes, hno⟩ := sgGetCpuStatsDiff_run file h.stats
  have hdiff := onCpuStats_of_ok hrun
  refine ⟨got.data, { glob with now := now, diff := diff }, { w with stats := w' }, s, ?_, ?_⟩
  · rw [percentNewDiff, Prog.bind_of_ok hdiff]
    rfl
  · refine ⟨⟨a', b', ⟨h', h.percents⟩, fun hread => (hyes hread.2).2, ?_⟩, rfl, ?_, nofun, fun _ => rfl, ?_,
      fun hgranted => (hyes hgranted).1, fun hrefused => (hno hrefused).1⟩
    · intro hsame
      exact (hno fun hgranted => hsame ⟨not_false, hgranted⟩).2
    · rw [Option.or_none]
      exact hs
    · intro x hx
      refine ⟨got, now, diff, w', hrun, ?_⟩
      rw [hs.itemsAt, hx]
      rfl

theorem sourceChosen_cached {w : CpuWorld} {file : StatFile} {cps : SgCpuPercentSource} {x : Option Ptr}
    {s : Option CpuStats} (h : glob.Kept w a b) (hs : w.stats.Has x s) (hcached : cps.Cached glob)
    (hx : x ≠ none) (hnamed : ∀ y, s = some y → cps.Names file glob w.stats y)
    (htotal : s.map CpuStats.total = cps.total file a b) (hgranted : cps.Granted glob (w.stats.mem 0)) :
    SourceChosen file cps glob w a b x none glob w s := by
  refine ⟨⟨a, b, h, fun hread => absurd hcached hread.1, fun _ => ⟨rfl, rfl⟩⟩, rfl, ?_, fun _ => ⟨rfl, hx⟩,
    fun hno => absurd hcached hno, hnamed, fun _ => htotal, fun hno => absurd hgranted hno⟩
  rw [Option.none_or]
  exact hs

/-- The whole run of the processor: the cached stats, or a read where there are none. -/
theorem percentEntire_run {w : CpuWorld} (file : StatFile) (h : glob.Kept w a b) :
    ∃ vector csPtr glob' w' s, percentSource file .entireCpuPercent glob w = .ok ((vector, csPtr, glob'), w') ∧
      SourceChosen file .entireCpuPercent glob w a b vector csPtr glob' w' s := by
  cases hnow : glob.now with
  | some p =>
      have hne : glob.now ≠ none := by simp [hnow]
      obtain ⟨-, y, hy, -, -⟩ := (hnow ▸ h.stats.snapshot).of_some
      refine ⟨some p, none, glob, w, a, ?_,
        hnow ▸ sourceChosen_cached h h.stats.snapshot hne hne ?_ ?_ (.inl hne)⟩
      · rw [percentSource, hnow]
        rfl
      · intro x hx
        refine .inl ?_
        rw [h.stats.snapshot.itemsAt, hx]
        rfl
      · rw [hy]
        rfl
  | none =>
      have hstats := h.stats
      rw [hnow] at hstats
      obtain rfl := hstats.snapshot.none_iff.mp rfl
      obtain ⟨got, now, a', s, w', hrun, h', hs, hyes, hno⟩ := sgGetCpuStats_run file hstats
      have hget := onCpuStats_of_ok hrun
      refine ⟨none, got.data, { glob with now := now }, { w with stats := w' }, s, ?_, ?_⟩
      · rw [percentSource, hnow]
        simp only
        rw [Prog.bind_of_ok hget]
        rfl
      · refine ⟨⟨a', b, ⟨h', h.percents⟩, fun hread => (hyes (hread.2.resolve_left hread.1)).2, ?_⟩, rfl, ?_,
          fun hcached => absurd hnow hcached, fun _ => rfl, ?_,
          fun hgranted => (hyes (hgranted.resolve_left fun hne => hne hnow)).1, ?_⟩
        · intro hsame
          have hrefused := hno (Bool.eq_false_iff.mpr fun hmem => hsame ⟨fun hne => hne hnow, .inr hmem⟩)
          exact ⟨hrefused.2, rfl⟩
        · rw [Option.or_none]
          exact hs
        · intro x hx
          refine .inr ⟨hnow, got, now, w', ?_, ?_⟩
          · rw [hnow]
            exact hrun
          · rw [hs.itemsAt, hx]
            rfl
        · intro hrefused
          exact (hno (Bool.eq_false_iff.mpr fun hmem => hrefused (.inr hmem))).1

/-- The last difference: the cached one, or a new one where there is none. -/
theorem percentLastDiff_run {w : CpuWorld} (file : StatFile) (h : glob.Kept w a b) :
    ∃ vector csPtr glob' w' s, percentSource file .lastDiffCpuPercent glob w = .ok ((vector, csPtr, glob'), w') ∧
      SourceChosen file .lastDiffCpuPercent glob w a b vector csPtr glob' w' s := by
  cases hdiff : glob.diff with
  | some p =>
      have hne : glob.diff ≠ none := by simp [hdiff]
      obtain ⟨-, y, hy, -, -⟩ := (hdiff ▸ h.stats.difference).of_some
      refine ⟨some p, none, glob, w, b, ?_,
        hdiff ▸ sourceChosen_cached h h.stats.difference hne hne ?_ ?_ (.inl hne)⟩
      · rw [percentSource, hdiff]
        rfl
      · intro x hx
        refine .inl ?_
        rw [h.stats.difference.itemsAt, hx]
        rfl
      · rw [hy]
        rfl
  | none =>
      -- the fallthrough: without a cached difference the source is the next one
      obtain ⟨csPtr, glob', w', s, hrun, hchosen⟩ := percentNewDiff_run file h
      have hb : b = none := h.stats.difference.none_iff.mp hdiff
      have hgranted : ((glob.now ≠ none ∧ glob.diff ≠ none) ∨ w.stats.mem 0 = true) ↔
          (glob.diff ≠ none ∨ w.stats.mem 0 = true) := by
        simp [hdiff]
      obtain ⟨a', b', hkept, hread, hsame⟩ := hchosen.kept
      refine ⟨none, csPtr, glob', w', s, ?_,
        ⟨a', b', hkept, fun h => hread ⟨not_false, hgranted.mpr h.2⟩, ?_⟩, hchosen.percent, hchosen.has,
        fun hcached => absurd hdiff hcached, fun _ => rfl,
        fun x hx => .inr ⟨hdiff, hchosen.named x hx⟩, ?_,
        fun hrefused => hchosen.refused fun hyes => hrefused (hgranted.mp hyes)⟩
      · rw [percentSource, hdiff]
        exact hrun
      · intro h
        exact hsame fun hnew => h ⟨fun hne => hne hdiff, hgranted.mp hnew.2⟩
      · intro hyes
        rw [hchosen.total (hgranted.mpr hyes), SgCpuPercentSource.total, SgCpuPercentSource.total, hb]
        rfl

theorem percentSource_run {w : CpuWorld} (file : StatFile) (cps : SgCpuPercentSource)
    (h : glob.Kept w a b) :
    ∃ vector csPtr glob' w' s, percentSource file cps glob w = .ok ((vector, csPtr, glob'), w') ∧
      SourceChosen file cps glob w a b vector csPtr glob' w' s := by
  cases cps with
  | entireCpuPercent => exact percentEntire_run file h
  | lastDiffCpuPercent => exact percentLastDiff_run file h
  | newDiffCpuPercent =>
      obtain ⟨csPtr, glob', w', s, hrun, hchosen⟩ := percentNewDiff_run file h
      exact ⟨none, csPtr, glob', w', s, hrun, hchosen⟩
  | other code =>
      refine ⟨none, none, glob, _, none, rfl,
        ⟨a, b, ⟨h.stats.congr rfl rfl, h.percents⟩, fun hread => hread.2.elim, fun _ => ⟨rfl, rfl⟩⟩, rfl, .null,
        nofun, fun _ => rfl, nofun, nofun, fun _ => rfl⟩

/-- The vector for the percentages is there, or the allocator is asked for it. -/
theorem percentTarget_run {w : CpuWorld} (h : glob.Kept w a b) :
    (¬ Granted glob.percent (w.stats.mem 0) ∧
      ∃ w', percentTarget glob.percent w = .ok (none, w') ∧ glob.Kept w' a b) ∨
    (Granted glob.percent (w.stats.mem 0) ∧ ∃ q w', percentTarget glob.percent w = .ok (some q, w') ∧
      CpuGlob.Kept { glob with percent := some q } w' a b ∧
      w'.stats.mem 0 = if glob.percent = none then w.stats.mem 1 else w.stats.mem 0) := by
  obtain ⟨c, hc⟩ := h.percents
  have hzoomed : Caches { w.percents with toThread := w.stats.toThread } glob.percent none c none :=
    hc.congr rfl rfl
  rcases easyTarget_run CpuPercents.fits hzoomed with
    ⟨hno, w1, hrun, h1⟩ | ⟨hyes, q, y, w1, hrun, h1, hkept, hnext⟩
  · refine .inl ⟨hno, _, onPercents_of_ok hrun, h.stats.congr rfl rfl, none, ?_⟩
    have hnone : glob.percent = none := by
      by_contra hne
      exact hno (.inl hne)
    rw [hnone]
    exact h1
  · refine .inr ⟨hyes, q, _, onPercents_of_ok hrun, ⟨h.stats.congr rfl rfl, some y, h1⟩, ?_⟩
    by_cases hnone : glob.percent = none
    · rw [if_pos hnone]
      exact hnext hnone
    · rw [if_neg hnone]
      obtain ⟨x, hx⟩ := Option.ne_none_iff_exists'.mp fun hcnone => hnone (hc.snapshot.none_iff.mpr hcnone)
      obtain ⟨rfl, -, -⟩ := hkept x hx
      rfl

/-- The stats behind the pointer are divided; they are counted only where they are in the vector. -/
theorem percentsInto_run {w : CpuWorld} {q p : Ptr} {x : CpuStats} {vector : Option Ptr}
    (h : glob.Kept w a b) (hq : glob.percent = some q) (hx : w.stats.Has (some p) (some x))
    (hvector : vector = none ∨ vector = some p) :
    ∃ w', percentsInto q p vector w = .ok (⟨some q, if vector = none then 0 else 1, some x⟩, w') ∧
      glob.Kept w' a b ∧ w'.percents.itemsAt (some q) = [sgGetCpuPercentsInt x] := by
  obtain ⟨c, hc⟩ := h.percents
  rw [hq] at hc
  obtain ⟨u, y, rfl, hu, husingle⟩ := hc.snapshot.of_some
  obtain ⟨v, x', hx', hv, hsingle⟩ := hx.of_some
  cases hx'
  have hzoomed : Caches { w.percents with toThread := w.stats.toThread } (some q) none (some y) none :=
    hc.congr rfl rfl
  obtain ⟨w1, hitem, h1⟩ := @onItem_fills _ _ _ _ _ _ (sgGetCpuPercentsInt x)
    (fun _ => return (.none, sgGetCpuPercentsInt x)) .none hzoomed fun t => ⟨t, rfl⟩
  have hderef := onCpuStats_of_ok (deref_run hv)
  have htouch := onCpuStats_of_ok (touch_run (hsingle.inBlock w.stats))
  have hfill := onPercents_of_ok hitem
  have hcount : vectorItemCount vector { w.stats with toThread := w1.toThread }
      = .ok (if vector = none then 0 else 1, { w.stats with toThread := w1.toThread }) := by
    rcases hvector with rfl | rfl
    · rfl
    · have hthread : World.store { w.stats with toThread := w1.toThread } p = some v := hv
      rw [vectorItemCount, Prog.bind_of_ok (deref_run hthread), hsingle.one.used]
      rfl
  refine ⟨⟨{ w.stats with toThread := w1.toThread }, w1⟩, ?_,
    ⟨h.stats.congr rfl rfl, some (sgGetCpuPercentsInt x), hq ▸ h1⟩, h1.snapshot.itemsAt⟩
  rw [percentsInto, Prog.bind_of_ok hderef, Prog.bind_of_ok htouch, hsingle.item, Prog.bind_of_ok hfill]
  exact Prog.bind_of_ok (onCpuStats_of_ok hcount) _

/-- What a call has done that has its vector: the stats `s` were divided, if there are any. -/
structure PercentsDone (file : StatFile) (cps : SgCpuPercentSource) (glob : CpuGlob) (w : CpuWorld)
    (a b : Option CpuStats) (q : Ptr) (result : PercentAccess) (w' : CpuWorld) : Prop where
  data : result.data = result.divided.map fun _ => q
  entries : result.entries = 1 ↔ result.divided ≠ none ∧ cps.Cached glob
  undivided : result.divided = none → result.entries = 0
  percents : ∀ x, result.divided = some x →
    w'.percents.itemsAt (some q) = [sgGetCpuPercentsInt x] ∧ cps.Names file glob w.stats x
  total : cps.Granted glob (w.stats.mem 0) → result.divided.map CpuStats.total = cps.total file a b
  refused : ¬ cps.Granted glob (w.stats.mem 0) → result.divided = none

/-- A call of `sg_get_cpu_percents_of`: it is refused its vector, or it goes on with the source. -/
theorem sgGetCpuPercentsOf_run {w : CpuWorld} (file : StatFile) (cps : SgCpuPercentSource) (entries : Nat)
    (h : glob.Kept w a b) :
    (¬ Granted glob.percent (w.stats.mem 0) ∧ ∃ w', glob.Kept w' a b ∧
      sgGetCpuPercentsOf file cps entries glob w = .ok ((⟨none, entries, none⟩, glob), w')) ∨
    (Granted glob.percent (w.stats.mem 0) ∧ ∃ q w1 result glob' w',
      percentTarget glob.percent w = .ok (some q, w1) ∧
      w1.stats.mem 0 = (if glob.percent = none then w.stats.mem 1 else w.stats.mem 0) ∧
      sgGetCpuPercentsOf file cps entries glob w = .ok ((result, glob'), w') ∧
      (∃ a' b', glob'.Kept w' a' b' ∧ cps.Leaves file glob (w1.stats.mem 0) a b a' b') ∧
      PercentsDone file cps glob w1 a b q result w') := by
  rcases percentTarget_run h with ⟨hno, w1, htarget, h1⟩ | ⟨hyes, q, w1, htarget, h1, hanswer⟩
  · refine .inl ⟨hno, { w1 with stats := { w1.stats with toThread :=
      { w1.stats.toThread with glob := ⟨.malloc, 0, "sg_get_cpu_percents_of"⟩ } } },
      ⟨h1.stats.congr rfl rfl, h1.percents⟩, ?_⟩
    rw [sgGetCpuPercentsOf, Prog.bind_of_ok htarget]
    rfl
  · refine .inr ⟨hyes, ?_⟩
    obtain ⟨vector, csPtr, glob', w2, s, hsource, hchosen⟩ := percentSource_run file cps h1
    obtain ⟨a', b', h2, hleaves⟩ := hchosen.kept
    have hrun : sgGetCpuPercentsOf file cps entries glob w = (match csPtr.or vector with
        | none => return (⟨none, 0, none⟩, glob')
        | some p => do
            let result ← percentsInto q p vector
            return (result, glob') : CpuM (PercentAccess × CpuGlob)) w2 := by
      rw [sgGetCpuPercentsOf, Prog.bind_of_ok htarget]
      simp only
      rw [Prog.bind_of_ok hsource]
    cases hs : s with
    | none =>
        have hnone : csPtr.or vector = none := hchosen.has.none_iff.mpr hs
        refine ⟨q, w1, ⟨none, 0, none⟩, glob', w2, htarget, hanswer, ?_, hchosen.kept, rfl, ?_,
          fun _ => rfl, nofun, fun hgranted => ?_, fun _ => rfl⟩
        · rw [hrun, hnone]
          rfl
        · simp
        · rw [← hchosen.total hgranted, hs]
    | some x =>
        have hhas := hchosen.has
        rw [hs] at hhas
        obtain ⟨p, hp⟩ := Option.ne_none_iff_exists'.mp fun hnone => nomatch hhas.none_iff.mp hnone
        rw [hp] at hhas
        have hvector : vector = none ∨ vector = some p := by
          by_cases hcached : cps.Cached glob
          · obtain ⟨hcs, -⟩ := hchosen.cached hcached
            rw [hcs, Option.none_or] at hp
            exact .inr hp
          · exact .inl (hchosen.fetched hcached)
        obtain ⟨w3, hinto, h3, hitems⟩ := percentsInto_run h2 hchosen.percent hhas hvector
        refine ⟨q, w1, ⟨some q, if vector = none then 0 else 1, some x⟩, glob', w3, htarget, hanswer, ?_,
          ⟨a', b', h3, hleaves⟩, rfl, ?_, nofun, ?_, fun hgranted => ?_, fun hrefused => ?_⟩
        · rw [hrun, hp]
          simp only
          rw [Prog.bind_of_ok hinto]
          rfl
        · by_cases hcached : cps.Cached glob
          · simp [(hchosen.cached hcached).2, hcached]
          · simp [hchosen.fetched hcached, hcached]
        · intro y hy
          cases hy
          exact ⟨hitems, hchosen.named x hs⟩
        · rw [← hchosen.total hgranted, hs]
        · rw [← hchosen.refused hrefused, hs]

end

/-! ### The divisor -/

inductive CpuCall where
  | stats (file : StatFile)
  | diff (file : StatFile)
  | percents (file : StatFile) (cps : SgCpuPercentSource) (entries : Nat)

structure CpuSession where
  world : CpuWorld
  glob : CpuGlob

namespace CpuSession

def start (t : Thread) (next : Ptr) (raw : Ptr → Nat → CpuStats) (raw' : Ptr → Nat → CpuPercents) :
    CpuSession :=
  { world :=
      { stats :=
          { toThread := t, store := fun _ => none, next := next, raw := raw, bounded := true
            inits := 0, destroys := 0, frees := fun _ => 0 }
        percents :=
          { toThread := t, store := fun _ => none, next := next, raw := raw', bounded := true
            inits := 0, destroys := 0, frees := fun _ => 0 } }
    glob := ⟨none, none, none⟩ }

def step (c : CpuCall) : Prog Fault CpuSession Unit := fun σ =>
  match c with
  | .stats file =>
      match onCpuStats (sgGetCpuStats file σ.glob.now) σ.world with
      | .error e => .error e
      | .ok ((_, now), w) => .ok ((), ⟨w, { σ.glob with now := now }⟩)
  | .diff file =>
      match onCpuStats (sgGetCpuStatsDiff file σ.glob.now σ.glob.diff) σ.world with
      | .error e => .error e
      | .ok ((_, now, diff), w) => .ok ((), ⟨w, { σ.glob with now := now, diff := diff }⟩)
  | .percents file cps entries =>
      match sgGetCpuPercentsOf file cps entries σ.glob σ.world with
      | .error e => .error e
      | .ok ((_, glob), w) => .ok ((), ⟨w, glob⟩)

/-- A call of `sg_get_cpu_percents_of` that does not return NULL has divided by a total that is not 0. -/
def NonzeroDivisor (σ : CpuSession) : CpuCall → Prop
  | .stats _ => True
  | .diff _ => True
  | .percents file cps entries => ∀ result glob w,
      sgGetCpuPercentsOf file cps entries σ.glob σ.world = .ok ((result, glob), w) → result.data ≠ none →
      ∃ s, result.divided = some s ∧ s.total ≠ 0

def snapshot (σ : CpuSession) : Option CpuStats := (σ.world.stats.itemsAt σ.glob.now).head?

def difference (σ : CpuSession) : Option CpuStats := (σ.world.stats.itemsAt σ.glob.diff).head?

/-- The allocator grants the vectors that a call asks for: that of the percentages, and that of the stats. -/
def Granted (σ : CpuSession) (cps : SgCpuPercentSource) : Prop :=
  Statgrab.Granted σ.glob.percent (σ.world.stats.mem 0) ∧
    cps.Granted σ.glob (if σ.glob.percent = none then σ.world.stats.mem 1 else σ.world.stats.mem 0)

/-- The stats that the source names have ticks: the total of what is cached is not 0; where the source has
to read, the ticks of `/proc/stat` are not those of the cached snapshot, and not 0 where there is none. -/
def Ticked (σ : CpuSession) : CpuCall → Prop
  | .stats _ => True
  | .diff _ => True
  | .percents file cps _ => σ.Granted cps → cps.total file σ.snapshot σ.difference ≠ some 0

/-- What every call keeps. -/
def Inv (σ : CpuSession) : Prop := ∃ a b, σ.glob.Kept σ.world a b

theorem Inv.start (t : Thread) (next : Ptr) (raw : Ptr → Nat → CpuStats)
    (raw' : Ptr → Nat → CpuPercents) : Inv (CpuSession.start t next raw raw') :=
  ⟨none, none, Caches.start fun _ => rfl, none, Caches.start fun _ => rfl⟩

def Leaves (σ : CpuSession) (c : CpuCall) (a b a' b' : Option CpuStats) : Prop :=
  match c with
  | .stats file =>
      (Statgrab.Granted σ.glob.now (σ.world.stats.mem 0) → file.Got b a' b') ∧
        (¬ Statgrab.Granted σ.glob.now (σ.world.stats.mem 0) → a' = a ∧ b' = b)
  | .diff file => SgCpuPercentSource.newDiffCpuPercent.Leaves file σ.glob (σ.world.stats.mem 0) a b a' b'
  | .percents file cps _ =>
      (Statgrab.Granted σ.glob.percent (σ.world.stats.mem 0) → cps.Leaves file σ.glob
        (if σ.glob.percent = none then σ.world.stats.mem 1 else σ.world.stats.mem 0) a b a' b') ∧
        (¬ Statgrab.Granted σ.glob.percent (σ.world.stats.mem 0) → a' = a ∧ b' = b)

section

variable {σ σ' : CpuSession} {file : StatFile} {a b : Option CpuStats}

theorem stats_kept (h : σ.glob.Kept σ.world a b) (hstep : step (.stats file) σ = .ok ((), σ')) :
    ∃ a' b', σ'.glob.Kept σ'.world a' b' ∧ σ.Leaves (.stats file) a b a' b' := by
  obtain ⟨rc, x, hread, hok, hfailed⟩ := sgGetCpuStatsInt_ticks file
  have htotal : (some x).map CpuStats.total = some (file.ticks.getD 0) :=
    congrArg some (sgGetCpuStatsInt_total hok hfailed)
  rcases easyCompAccess_run CpuStats.fits hread h.stats with ⟨hno, w, hrun, hw⟩ | ⟨hyes, p, w, hrun, hw, -⟩
  · have hget : sgGetCpuStats file σ.glob.now σ.world.stats = .ok ((.failed none, none), w) := hrun
    rw [step, onCpuStats_of_ok hget] at hstep
    cases hstep
    have hnow : σ.glob.now = none := by
      by_contra hne
      exact hno (.inl hne)
    exact ⟨none, b, ⟨hw, h.percents⟩, fun hyes => absurd hyes hno,
      fun _ => ⟨(h.stats.snapshot.none_iff.mp hnow).symm, rfl⟩⟩
  · have hget : sgGetCpuStats file σ.glob.now σ.world.stats = .ok ((gotten rc (some p) [x], some p), w) := hrun
    rw [step, onCpuStats_of_ok hget] at hstep
    cases hstep
    exact ⟨some x, b, ⟨hw, h.percents⟩, fun _ => ⟨htotal, rfl⟩, fun hno => absurd hyes hno⟩

theorem diff_kept (h : σ.glob.Kept σ.world a b) (hstep : step (.diff file) σ = .ok ((), σ')) :
    ∃ a' b', σ'.glob.Kept σ'.world a' b' ∧ σ.Leaves (.diff file) a b a' b' := by
  obtain ⟨got, now, diff, a', b', s, w, hrun, hw, -, hyes, hno⟩ := sgGetCpuStatsDiff_run file h.stats
  rw [step, onCpuStats_of_ok hrun] at hstep
  cases hstep
  refine ⟨a', b', ⟨hw, h.percents⟩, fun hread => (hyes hread.2).2, ?_⟩
  intro hsame
  exact (hno fun hgranted => hsame ⟨not_false, hgranted⟩).2

theorem percents_kept {cps : SgCpuPercentSource} {entries : Nat} (h : σ.glob.Kept σ.world a b)
    (hstep : step (.percents file cps entries) σ = .ok ((), σ')) :
    ∃ a' b', σ'.glob.Kept σ'.world a' b' ∧ σ.Leaves (.percents file cps entries) a b a' b' := by
  rw [step] at hstep
  rcases sgGetCpuPercentsOf_run file cps entries h with
    ⟨hno, w, hw, hrun⟩ | ⟨hyes, -, w1, result, glob, w, -, hanswer, hrun, ⟨a', b', hw, hleaves⟩, -⟩
  · rw [hrun] at hstep
    cases hstep
    exact ⟨a, b, hw, fun hyes => absurd hyes hno, fun _ => ⟨rfl, rfl⟩⟩
  · rw [hrun] at hstep
    cases hstep
    exact ⟨a', b', hw, fun _ => hanswer ▸ hleaves, fun hno => absurd hyes hno⟩

end

theorem step_kept {c : CpuCall} {σ σ' : CpuSession} {a b : Option CpuStats} (h : σ.glob.Kept σ.world a b)
    (hstep : step c σ = .ok ((), σ')) : ∃ a' b', σ'.glob.Kept σ'.world a' b' ∧ σ.Leaves c a b a' b' := by
  cases c with
  | stats file => exact stats_kept h hstep
  | diff file => exact diff_kept h hstep
  | percents file cps entries => exact percents_kept h hstep

theorem Inv.step {c : CpuCall} {σ σ' : CpuSession} (h : σ.Inv) (hstep : step c σ = .ok ((), σ')) :
    σ'.Inv := by
  obtain ⟨a, b, hkept⟩ := h
  obtain ⟨a', b', hkept', -⟩ := step_kept hkept hstep
  exact ⟨a', b', hkept'⟩

theorem snapshot_eq {σ : CpuSession} {a b : Option CpuStats} (h : σ.glob.Kept σ.world a b) :
    σ.snapshot = a := by
  rw [snapshot, h.stats.snapshot.itemsAt]
  cases a <;> rfl

theorem difference_eq {σ : CpuSession} {a b : Option CpuStats} (h : σ.glob.Kept σ.world a b) :
    σ.difference = b := by
  rw [difference, h.stats.difference.itemsAt]
  cases b <;> rfl

theorem Inv.step_leaves {c : CpuCall} {σ σ' : CpuSession} (h : σ.Inv) (hstep : CpuSession.step c σ = .ok ((), σ')) :
    σ.Leaves c σ.snapshot σ.difference σ'.snapshot σ'.difference := by
  obtain ⟨a, b, hkept⟩ := h
  obtain ⟨a', b', hkept', hleaves⟩ := step_kept hkept hstep
  rw [snapshot_eq hkept, difference_eq hkept, snapshot_eq hkept', difference_eq hkept']
  exact hleaves

/-- After a getter that could not read the file the whole run of the processor has no ticks. -/
theorem Inv.not_ticked_of_failed {σ σ' : CpuSession} (h : σ.Inv) {file : StatFile} (hfailed : file.ticks = none)
    (hmem : Statgrab.Granted σ.glob.now (σ.world.stats.mem 0))
    (hstep : CpuSession.step (.stats file) σ = .ok ((), σ')) (file' : StatFile) (n : Nat) (hgranted : σ'.Granted .entireCpuPercent) :
    ¬ σ'.Ticked (.percents file' .entireCpuPercent n) := by
  have htotal := ((h.step_leaves hstep).1 hmem).1
  rw [hfailed] at htotal
  obtain ⟨s, hs, hzero⟩ := Option.map_eq_some_iff.mp htotal
  intro hticked
  apply hticked hgranted
  rw [SgCpuPercentSource.total, hs]
  exact congrArg some hzero

theorem Inv.nonzeroDivisor_iff {σ : CpuSession} (h : σ.Inv) (c : CpuCall) :
    σ.NonzeroDivisor c ↔ σ.Ticked c := by
  cases c with
  | stats file => exact Iff.rfl
  | diff file => exact Iff.rfl
  | percents file cps entries =>
      obtain ⟨a, b, hkept⟩ := h
      rw [NonzeroDivisor, Ticked, snapshot_eq hkept, difference_eq hkept]
      rcases sgGetCpuPercentsOf_run file cps entries hkept with
        ⟨hno, w, -, hrun⟩ | ⟨hyes, q, w1, result, glob, w, -, hanswer, hrun, -, hdone⟩
      · constructor
        · intro _ hgranted
          exact absurd hgranted.1 hno
        · intro _ result' glob' w' hrun' hdata
          rw [hrun] at hrun'
          cases hrun'
          exact absurd rfl hdata
      · constructor
        · intro hnonzero hgranted hzero
          have htotal := hdone.total (hanswer ▸ hgranted.2)
          rw [hzero] at htotal
          obtain ⟨s, hs, hs0⟩ := Option.map_eq_some_iff.mp htotal
          have hdata : result.data ≠ none := by
            rw [hdone.data, hs]
            exact nofun
          obtain ⟨s', hs', hne⟩ := hnonzero result glob w hrun hdata
          rw [hs] at hs'
          cases hs'
          exact hne hs0
        · intro hticked result' glob' w' hrun' hdata
          rw [hrun] at hrun'
          cases hrun'
          rw [hdone.data, ne_eq, Option.map_eq_none_iff] at hdata
          obtain ⟨s, hs⟩ := Option.ne_none_iff_exists'.mp hdata
          refine ⟨s, hs, ?_⟩
          intro hzero
          have hgranted : cps.Granted σ.glob (w1.stats.mem 0) := by
            by_contra hrefused
            exact hdata (hdone.refused hrefused)
          apply hticked ⟨hyes, hanswer ▸ hgranted⟩
          rw [← hdone.total hgranted, hs, Option.map_some, hzero]

end CpuSession

/-- In a run of getter, diff and percentage calls none of the percentages is divided by 0 if and only if
at each of their calls the stats that the source names have ticks. -/
theorem cpu_nonzero_divisor_iff (t : Thread) (next : Ptr) (raw : Ptr → Nat → CpuStats)
    (raw' : Ptr → Nat → CpuPercents) (calls : List CpuCall) :
    Prog.Always CpuSession.step CpuSession.NonzeroDivisor (CpuSession.start t next raw raw') calls ↔
      Prog.Always CpuSession.step CpuSession.Ticked (CpuSession.start t next raw raw') calls := by
  refine Prog.Always.congr ?_ ?_ (CpuSession.Inv.start t next raw raw') (Prog.always_true calls _)
  · intro σ c hσ _
    exact hσ.nonzeroDivisor_iff c
  · intro σ c σ' hσ _ _ hstep
    exact hσ.step hstep

/-- Two reads in the same tick: the difference has the total 0. -/
theorem cpu_divisor_same_tick :
    ¬ Prog.Always CpuSession.step CpuSession.NonzeroDivisor
      (CpuSession.start ⟨.clear, fun _ => true⟩ 0 (fun _ _ => .zero) fun _ _ => ⟨0, 0, 0, 0, 0, 0, 0⟩)
      [.stats (busy 7), .percents (busy 7) .newDiffCpuPercent 0] := by
  rw [Prog.always_cons_of_ok rfl]
  rintro ⟨-, hdivisor, -⟩
  obtain ⟨s, hs, htotal⟩ := hdivisor _ _ _ rfl nofun
  cases hs
  exact htotal rfl

/-! ### The two entry points -/

/-- A result is that of `sg_get_cpu_percents_r` for the stats that the source names, and both count one
entry; without a result there are no entries. -/
def PercentsAgree (file : StatFile) (cps : SgCpuPercentSource) (n : Nat) (glob : CpuGlob) (w : CpuWorld) :
    Prop :=
  ∃ result glob' w', sgGetCpuPercentsOf file cps n glob w = .ok ((result, glob'), w') ∧
    (∀ q, result.data = some q → ∃ w1 s, percentTarget glob.percent w = .ok (some q, w1) ∧
      cps.Names file glob w1.stats s ∧ result.entries = 1 ∧
      ∀ wr : World CpuPercents, wr.Fresh → wr.mem 0 = true → ∃ r wr',
        sgGetCpuPercentsR (some s) wr = .ok (r, wr') ∧ r.entries = 1 ∧ r.data ≠ none ∧
        w'.percents.itemsAt (some q) = wr'.itemsAt r.data) ∧
    (result.data = none → result.entries = 0)

theorem sgGetCpuPercentsR_run {w : World CpuPercents} (hfresh : w.Fresh) (hmem : w.mem 0 = true)
    (s : CpuStats) :
    ∃ p w', sgGetCpuPercentsR (some s) w = .ok (⟨some p, 1, some s⟩, w') ∧
      w'.itemsAt (some p) = [sgGetCpuPercentsInt s] := by
  have hcaches : Caches w none none none none := ⟨hfresh, .null, .null, nofun⟩
  rcases easyTarget_run CpuPercents.fits hcaches with ⟨hno, -⟩ | ⟨-, p, y, w1, htarget, h1, -, -⟩
  · exact absurd (.inr hmem) hno
  · have hcreate : sgVectorCreate 1 1 1 CpuPercents.info w = .ok (some p, w1) := htarget
    obtain ⟨w2, hitem, h2⟩ := @onItem_fills _ _ _ _ _ _ (sgGetCpuPercentsInt s)
      (fun _ => return (.none, sgGetCpuPercentsInt s)) .none h1 fun t => ⟨t, rfl⟩
    obtain ⟨v, x, -, hv, hsingle⟩ := h2.snapshot.of_some
    refine ⟨p, w2, ?_, h2.snapshot.itemsAt⟩
    rw [sgGetCpuPercentsR, Prog.bind_of_ok hcreate]
    simp only
    rw [Prog.bind_of_ok hitem, vectorItemCount]
    rw [Prog.bind_of_ok (Prog.bind_of_ok (deref_run hv) _), hsingle.one.used]
    rfl

/-- The two entry points agree if and only if `*entries` was 0 where the vector for the percentages is
refused, and elsewhere the stats are cached or there are none: where they are fetched, no entry is
counted. -/
theorem percentsAgree_iff (file : StatFile) (cps : SgCpuPercentSource) (n : Nat) (glob : CpuGlob)
    (w : CpuWorld) (a b : Option CpuStats) (h : glob.Kept w a b) :
    PercentsAgree file cps n glob w ↔
      (¬ Granted glob.percent (w.stats.mem 0) → n = 0) ∧
      (Granted glob.percent (w.stats.mem 0) → cps.Cached glob ∨
        ¬ cps.Granted glob (if glob.percent = none then w.stats.mem 1 else w.stats.mem 0) ∨
        cps.total file a b = none) := by
  rcases sgGetCpuPercentsOf_run file cps n h with
    ⟨hno, w', -, hrun⟩ | ⟨hyes, q, w1, result, glob', w', htarget, hanswer, hrun, -, hdone⟩
  · constructor
    · rintro ⟨result, glob', w2, hrun', -, hzero⟩
      rw [hrun] at hrun'
      cases hrun'
      exact ⟨fun _ => hzero rfl, fun hyes => absurd hyes hno⟩
    · rintro ⟨hzero, -⟩
      exact ⟨_, glob, w', hrun, nofun, fun _ => hzero hno⟩
  · rw [← hanswer]
    constructor
    · rintro ⟨result', glob2, w2, hrun', hsome, -⟩
      rw [hrun] at hrun'
      cases hrun'
      refine ⟨fun hno => absurd hyes hno, fun _ => ?_⟩
      by_cases hgranted : cps.Granted glob (w1.stats.mem 0)
      · cases hs : result.divided with
        | none =>
            refine .inr (.inr ?_)
            rw [← hdone.total hgranted, hs]
            rfl
        | some s =>
            have hdata : result.data = some q := by
              rw [hdone.data, hs]
              rfl
            obtain ⟨-, -, -, -, hentries, -⟩ := hsome q hdata
            exact .inl (hdone.entries.mp hentries).2
      · exact .inr (.inl hgranted)
    · rintro ⟨-, hcond⟩
      refine ⟨result, glob', w', hrun, ?_, ?_⟩
      · intro q' hq'
        rw [hdone.data] at hq'
        obtain ⟨s, hs, rfl⟩ := Option.map_eq_some_iff.mp hq'
        obtain ⟨hitems, hnames⟩ := hdone.percents s hs
        have hcached : cps.Cached glob := by
          rcases hcond hyes with hcached | hrefused | hnone
          · exact hcached
          · rw [hdone.refused hrefused] at hs
            cases hs
          · have hgranted : cps.Granted glob (w1.stats.mem 0) := by
              by_contra hrefused
              rw [hdone.refused hrefused] at hs
              cases hs
            have htotal := hdone.total hgranted
            rw [hs, hnone] at htotal
            cases htotal
        refine ⟨w1, s, htarget, hnames, hdone.entries.mpr ⟨by simp [hs], hcached⟩, ?_⟩
        intro wr hfresh hmem
        obtain ⟨p, wr', hr, hritems⟩ := sgGetCpuPercentsR_run hfresh hmem s
        exact ⟨_, wr', hr, rfl, nofun, hitems.trans hritems.symm⟩
      · intro hnone
        rw [hdone.data, Option.map_eq_none_iff] at hnone
        exact hdone.undivided hnone

def CpuSession.holding (x : CpuStats) : CpuSession :=
  { world :=
      { stats :=
          { toThread := ⟨.clear, fun _ => true⟩, next := 1, raw := fun _ _ => .zero, bounded := true
            store := fun p => if p = 0 then some ⟨1, 1, 0, CpuStats.info, 1, fun _ => x⟩ else none
            inits := 0, destroys := 0, frees := fun _ => 0 }
        percents :=
          { toThread := ⟨.clear, fun _ => true⟩, next := 0, raw := fun _ _ => ⟨0, 0, 0, 0, 0, 0, 0⟩
            bounded := true, store := fun _ => none, inits := 0, destroys := 0, frees := fun _ => 0 } }
    glob := ⟨some 0, none, none⟩ }

theorem CpuSession.holding_kept (x : CpuStats) :
    (CpuSession.holding x).glob.Kept (CpuSession.holding x).world (some x) none := by
  have hfresh : (CpuSession.holding x).world.stats.Fresh := by
    intro p hp
    exact if_neg (Nat.ne_of_gt hp)
  exact ⟨⟨hfresh, .item _ rfl ⟨⟨rfl, Nat.le_refl 1⟩, rfl⟩, .null, nofun⟩, none, Caches.start fun _ => rfl⟩

/-- The cached snapshot is divided, and one entry is counted. -/
theorem percentsAgree_holding : PercentsAgree noStat .entireCpuPercent 3
    (CpuSession.holding (evenTicks 25 0)).glob (CpuSession.holding (evenTicks 25 0)).world := by
  refine (percentsAgree_iff noStat .entireCpuPercent 3 _ _ _ _
    (CpuSession.holding_kept (evenTicks 25 0))).mpr ⟨fun hno => absurd (.inr rfl) hno, fun _ => .inl nofun⟩

/-- The first snapshot is fetched: its percentages are returned, with no entry. -/
theorem percentsAgree_fails : ¬ PercentsAgree (busy 7) .entireCpuPercent 0 ⟨none, none, none⟩
    (CpuSession.start ⟨.clear, fun _ => true⟩ 0 (fun _ _ => .zero) fun _ _ => ⟨0, 0, 0, 0, 0, 0, 0⟩).world := by
  rintro ⟨result, glob, w, hrun, hsome, -⟩
  cases hrun
  obtain ⟨w1, s, -, -, hentries, -⟩ := hsome 0 rfl
  cases hentries

end Statgrab
