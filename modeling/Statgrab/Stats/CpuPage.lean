import Mathlib.Data.UInt
import Statgrab.Access.Code
import Statgrab.Lib.Scanf

/-!
# `cpu_stats.c` and `page_stats.c`

The two statistics of one item that have a diff, as they are read on Linux. Both readers fill the
cached item in place: the CPU reader clears it before it opens `/proc/stat`, the page reader before it
opens `/proc/vmstat`. What `sscanf` makes of a line is an input, but for the `page` line of the old format.
-/

namespace Statgrab

open Text Scanf

/-! ### CPU -/

structure CpuStats where
  user : UInt64
  kernel : UInt64
  idle : UInt64
  iowait : UInt64
  swap : UInt64
  nice : UInt64
  total : UInt64
  contextSwitches : UInt64
  voluntaryContextSwitches : UInt64
  involuntaryContextSwitches : UInt64
  syscalls : UInt64
  interrupts : UInt64
  softInterrupts : UInt64
  systime : Int
  deriving DecidableEq, Inhabited

/-- `memset(buf, 0, sizeof(*buf))`. -/
def CpuStats.zero : CpuStats := ⟨0, 0, 0, 0, 0, 0, 0, 0, 0, 0, 0, 0, 0, 0⟩

/-- A line of `/proc/stat`: the numbers that were converted after one of the four words the reader
looks for, or a line it skips. -/
inductive StatLine where
  | cpu (values : List UInt64)
  | intr (value : Option UInt64)
  | ctxt (value : Option UInt64)
  | softirq (value : Option UInt64)
  | other

/-- What a read of `/proc/stat` meets: the errno of a failed open, or the lines; and the time. -/
structure StatFile where
  lines : Except Int (List StatLine)
  now : Int

/-- The fields `sscanf` stores to for a `cpu` line. -/
def CpuStats.storeCpu (buf : CpuStats) (values : List UInt64) : CpuStats :=
  { buf with
    user := values.getD 0 buf.user
    nice := values.getD 1 buf.nice
    kernel := values.getD 2 buf.kernel
    idle := values.getD 3 buf.idle
    iowait := values.getD 4 buf.iowait }

/-- The loop over the lines of `/proc/stat`, with `matched` lines found so far: the code, the item and
the lines found. -/
def scanStat : List StatLine → Nat → CpuStats → ThreadM (SgError × CpuStats × Nat)
  | [], matched, buf => return (.none, buf, matched)
  | line :: lines, matched, buf =>
      if 4 ≤ matched then return (.none, buf, matched)
      else
        match line with
        | .cpu values =>
            -- at most five numbers are converted
            let buf := buf.storeCpu (values.take 5)
            if (values.take 5).length < 4 then do
              let rc ← returnWithSetError .parse 0 "cpu"
              return (rc, buf, matched)
            else scanStat lines (matched + 1) buf
        | .intr none => do
            let rc ← returnWithSetError .parse 0 "intr"
            return (rc, buf, matched)
        | .intr (some value) => scanStat lines (matched + 1) { buf with interrupts := value }
        | .ctxt none => do
            let rc ← returnWithSetError .parse 0 "ctxt"
            return (rc, buf, matched)
        | .ctxt (some value) => scanStat lines (matched + 1) { buf with contextSwitches := value }
        | .softirq none => do
            let rc ← returnWithSetError .parse 0 "softirq"
            return (rc, buf, matched)
        | .softirq (some value) => scanStat lines (matched + 1) { buf with softInterrupts := value }
        | .other => scanStat lines matched buf

def sgGetCpuStatsInt (file : StatFile) : ItemFn CpuStats := fun _ =>
  match file.lines with
  | .error errno => do
      let rc ← returnWithSetError .open errno "/proc/stat"
      return (rc, .zero)
  | .ok lines => do
      let (rc, buf, matched) ← scanStat lines 0 .zero
      if rc ≠ .none then return (rc, buf)
      else if matched = 0 then
        let rc ← returnWithSetError .parse 0
          "all from 'cpu', 'intr', 'ctxt', 'softirq' missing from '/proc/stat'"
        return (rc, buf)
      else
        return (.none, { buf with
          total := buf.user + buf.nice + buf.kernel + buf.idle, systime := file.now })

/-- `VECTOR_INIT_INFO_EMPTY_INIT(sg_cpu_stats)`. -/
def CpuStats.info : VectorInitInfo CpuStats :=
  { itemSize := 112, initFn := none, copyFn := none, computeDiffFn := none, compareFn := none
    destroyFn := none }

/-- The branches of `counter_diff`: the counters are 64 bits wide, or they come from
`struct vmmeter`. -/
inductive CounterBranch where
  | plain
  | vmmeter
  deriving DecidableEq, Repr

def intMax : UInt64 := 2147483647

def counterDiff : CounterBranch → UInt64 → UInt64 → UInt64
  | .plain, new, old => new - old
  | .vmmeter, new, old => if old ≤ new then new - old else intMax + 1 + new - old

def CpuStats.minus (branch : CounterBranch) (now last : CpuStats) : CpuStats :=
  { user := now.user - last.user
    kernel := now.kernel - last.kernel
    idle := now.idle - last.idle
    iowait := now.iowait - last.iowait
    swap := now.swap - last.swap
    nice := now.nice - last.nice
    total := now.total - last.total
    contextSwitches := counterDiff branch now.contextSwitches last.contextSwitches
    voluntaryContextSwitches :=
      counterDiff branch now.voluntaryContextSwitches last.voluntaryContextSwitches
    involuntaryContextSwitches :=
      counterDiff branch now.involuntaryContextSwitches last.involuntaryContextSwitches
    syscalls := counterDiff branch now.syscalls last.syscalls
    interrupts := counterDiff branch now.interrupts last.interrupts
    softInterrupts := counterDiff branch now.softInterrupts last.softInterrupts
    systime := now.systime - last.systime }

def sgGetCpuStatsDiffInt (branch : CounterBranch) (tgt now last : Option CpuStats) :
    ThreadM (SgError × Option CpuStats) :=
  match tgt with
  | none => do
      let rc ← returnWithSetError .invalidArgument 0 "sg_get_cpu_stats_diff_int(tgt)"
      return (rc, none)
  | some _ =>
      match now, last with
      | none, _ => return (.none, some .zero)
      | some now, none => return (.none, some now)
      | some now, some last => return (.none, some (now.minus branch last))

def sgGetCpuStats (file : StatFile) : Option Ptr → VecM CpuStats (Access × Option Ptr) :=
  easyCompAccess CpuStats.info (sgGetCpuStatsInt file)

def sgGetCpuStatsDiff (file : StatFile) :
    Option Ptr → Option Ptr → VecM CpuStats (Access × Option Ptr × Option Ptr) :=
  easyCompDiff CpuStats.info (sgGetCpuStatsInt file) fun tgt now last =>
    DiffIntFn.onto (sgGetCpuStatsDiffInt .plain) (some now) (some last) tgt

/-! ### Pages -/

structure PageStats where
  pagesPagein : UInt64
  pagesPageout : UInt64
  systime : Int
  deriving DecidableEq, Inhabited

/-- `memset(tgt, 0, sizeof(*tgt))`. -/
def PageStats.zero : PageStats := ⟨0, 0, 0⟩

/-- A line of `/proc/vmstat`: one of the two words the reader looks for with its number, or a line it
skips. -/
inductive VmLine where
  | pgpgin (value : UInt64)
  | pgpgout (value : UInt64)
  | other

/-- What a read of the pages meets: `/proc/vmstat`, or `/proc/stat` where the first cannot be opened,
or the errno of the second open; and the time. -/
structure PageFile where
  source : Except (Except Int Stream) (List VmLine)
  now : Int

/-- The loop over the lines of `/proc/vmstat`, with `matches` lines found so far. -/
def scanVmstat : List VmLine → Nat → PageStats → PageStats × Nat
  | [], found, buf => (buf, found)
  | line :: lines, found, buf =>
      if 2 ≤ found then (buf, found)
      else
        match line with
        | .pgpgin value => scanVmstat lines (found + 1) { buf with pagesPagein := value }
        | .pgpgout value => scanVmstat lines (found + 1) { buf with pagesPageout := value }
        | .other => scanVmstat lines found buf

/-- What `sscanf` stores of a `page` line. -/
def pageValues (line : List UInt8) : List UInt64 :=
  (scanf (bytes "page %llu %llu") (upToNul line)).1.filterMap fun
    | .number value => some (UInt64.ofInt value)
    | _ => none

/-- The two numbers `sscanf` stores to for a `page` line. -/
def PageStats.storePage (buf : PageStats) (values : List UInt64) : PageStats :=
  { buf with
    pagesPagein := values.getD 0 buf.pagesPagein
    pagesPageout := values.getD 1 buf.pagesPageout }

def sgGetPageStatsInt (file : PageFile) : ItemFn PageStats := fun _ =>
  let buf : PageStats := ⟨0, 0, file.now⟩
  match file.source with
  | .ok lines =>
      let (buf, found) := scanVmstat lines 0 buf
      if found < 2 then do
        let rc ← returnWithSetError .parse 0 "/proc/vmstat"
        return (rc, buf)
      else return (.none, buf)
  | .error (.ok f) => do
      let (line, _) ← sgFReadLine 256 f "page"
      match line with
      | none =>
          let rc ← returnFromPreviousError
          return (rc, buf)
      | some line =>
          let buf := buf.storePage (pageValues line)
          if (pageValues line).length ≠ 2 then
            let rc ← returnWithSetError .parse 0 "page"
            return (rc, buf)
          else return (.none, buf)
  | .error (.error errno) => do
      let rc ← returnWithSetError .open errno "/proc/stat"
      return (rc, buf)

/-- `VECTOR_INIT_INFO_EMPTY_INIT(sg_page_stats)`. -/
def PageStats.info : VectorInitInfo PageStats :=
  { itemSize := 24, initFn := none, copyFn := none, computeDiffFn := none, compareFn := none
    destroyFn := none }

def PageStats.minus (now last : PageStats) : PageStats :=
  { pagesPagein := now.pagesPagein - last.pagesPagein
    pagesPageout := now.pagesPageout - last.pagesPageout
    systime := now.systime - last.systime }

def sgGetPageStatsDiffInt (tgt now last : Option PageStats) : ThreadM (SgError × Option PageStats) :=
  match tgt with
  | none => do
      let rc ← returnWithSetError .invalidArgument 0 "sg_get_page_stats_diff_int(tgt)"
      return (rc, none)
  | some _ =>
      match now, last with
      | none, _ => return (.none, some .zero)
      | some now, none => return (.none, some now)
      | some now, some last => return (.none, some (now.minus last))

def sgGetPageStats (file : PageFile) : Option Ptr → VecM PageStats (Access × Option Ptr) :=
  easyCompAccess PageStats.info (sgGetPageStatsInt file)

def sgGetPageStatsDiff (file : PageFile) :
    Option Ptr → Option Ptr → VecM PageStats (Access × Option Ptr × Option Ptr) :=
  easyCompDiff PageStats.info (sgGetPageStatsInt file) fun tgt now last =>
    DiffIntFn.onto sgGetPageStatsDiffInt (some now) (some last) tgt

end Statgrab
