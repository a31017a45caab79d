import Statgrab.Access.Code
import Statgrab.Lib.Scanf
import Statgrab.Process.Cmdline
import Statgrab.Stats.ProcDir

/-!
# `process_stats.c` on Linux

The processes are listed from four files each. `/proc/PID/comm` gives the name, from which the format for
`/proc/PID/stat` is made, `/proc/PID/status` the users and the context switches, and `/proc/PID/cmdline`
the title. A process may vanish between any two of them: then the loop goes on with the next pid, and the
item that was being filled stays where it is, to be filled for that one.

What opening and reading the files of a pid gives is an input, and does not change during the scan.
-/

namespace Statgrab.Process

open Text Scanf

/-- `sg_process_state`, and what memory that was never written may hold in its place. -/
inductive SgProcessState where
  | running
  | sleeping
  | stopped
  | zombie
  | unknown
  | invalid (code : UInt32)
  deriving DecidableEq, Repr

/-- `cpu_percent`, by the formula that gives it, which is not evaluated here. -/
inductive CpuPercent where
  /-- `(100.0 * ticks) / ((uptime * 100.0) - starttime)`. -/
  | share (ticks : UInt64) (uptime : Int) (starttime : UInt64)
  /-- `((double)ticks / FSCALE) * 100.0`. -/
  | scaled (ticks : Int)
  /-- A number as it is. -/
  | plain (value : Int)
  deriving DecidableEq

structure ProcessStats where
  processName : Option CString
  proctitle : Option CString
  pid : Int
  parent : Int
  pgid : Int
  sessid : Int
  uid : UInt32
  euid : UInt32
  gid : UInt32
  egid : UInt32
  contextSwitches : UInt64
  voluntaryContextSwitches : UInt64
  involuntaryContextSwitches : UInt64
  procSize : UInt64
  procResident : UInt64
  startTime : Int
  timeSpent : Int
  cpuPercent : CpuPercent
  nice : Int
  state : SgProcessState
  systime : Int
  deriving DecidableEq

def ProcessStats.init (d : ProcessStats) : ProcessStats :=
  { d with processName := none, proctitle := none, sessid := 0 }

/-- `sg_process_stats_item_destroy`: the strings are given back, and the fields are not written. -/
def ProcessStats.destroy (d : ProcessStats) : ProcessStats := d

/-- `VECTOR_INIT_INFO_FULL_INIT(sg_process_stats)`. Three of the functions are defined to be NULL. -/
def ProcessStats.info : VectorInitInfo ProcessStats :=
  { itemSize := 128, initFn := some ProcessStats.init, copyFn := none, computeDiffFn := none
    compareFn := none, destroyFn := some ProcessStats.destroy }

/-! ### The files -/

/-- What opening and reading the files of one pid gives. The name of a task is a C string. -/
structure ProcessFiles where
  comm : Option Stream
  stat : Option Stream
  status : Option Stream
  cmdline : Option CmdlineFile
  commText : ∀ f, comm = some f → 0 ∉ f.bytes

/-- What a read of the processes meets: the uptime, the pids and the size of a page, the files of each pid,
the time, the ticks of a second, and what new memory holds. -/
structure ProcessSource extends ProcFs where
  files : Int → ProcessFiles
  now : Int
  tickspersec : Int
  ticks : tickspersec ≠ 0
  raw : Nat → UInt8

def readbufLength : Nat := 4095

def procStatFmtBase : List UInt8 := bytes
  "%%d %s %%c %%d %%d %%*d %%*d %%*d %%*u %%*u %%*u %%*u %%*u %%lu %%lu %%*d %%*d %%*d %%d %%*d %%*d %%llu %%llu %%llu %%*u %%*u %%*u %%*u %%*u %%*u %%*u %%*u %%*u %%*u %%*u %%*u %%*u %%*d %%*d"

def procStatFmtDefault : List UInt8 := bytes
  "%d %4095s %c %d %d %*d %*d %*d %*u %*u %*u %*u %*u %lu %lu %*d %*d %*d %d %*d %*d %llu %llu %llu %*u %*u %*u %*u %*u %*u %*u %*u %*u %*u %*u %*u %*u %*d %*d"

/-! ### The name and the format -/

/-- The line of `/proc/PID/comm` without its newline. -/
def commName (line : List UInt8) : CString := if line.getLast? = some 10 then line.dropLast else line

/-- `strncat(comm_jmp, s, sizeof(comm_jmp) - strlen(comm_jmp) - 1)`. -/
def appendJmp (commJmp : CString) (s : String) : CString :=
  strncat commJmp (bytes s) (32 - commJmp.length - 1)

/-- The loop over the name from `tok` on: for each run of white space one more word to skip. The byte
behind a run is passed over. -/
def jmpLoop : Nat → List UInt8 → CString → CString
  | 0, _, commJmp => commJmp
  | _, [], commJmp => commJmp
  | fuel + 1, b :: tok, commJmp =>
      if isSpace b then
        jmpLoop fuel (((b :: tok).dropWhile isSpace).drop 1) (appendJmp (appendJmp commJmp " ") "%*s")
      else jmpLoop fuel tok commJmp

/-- `comm_jmp`. Each round passes a byte of the name at least, so they bound the rounds. -/
def commJmp (name : CString) : CString := jmpLoop name.length name (appendJmp [] "%*s")

def procStatFmt (name : CString) : List UInt8 :=
  snprintf (procStatFmtBase.length + 1) procStatFmtBase (commJmp name)

/-- What comes of `/proc/PID/comm`. -/
inductive CommRead where
  /-- It could not be opened. -/
  | closed
  /-- It was opened and there is no line. -/
  | empty
  /-- The name. -/
  | name (s : CString)
  deriving DecidableEq

/-- The part of the loop that reads `/proc/PID/comm`. -/
def readComm : Option Stream → CommRead
  | none => .closed
  | some f =>
      match fgets readbufLength f with
      | none => .empty
      | some (line, _) => .name (commName line)

/-! ### `/proc/PID/stat` -/

def numberAt? (values : List Value) (i : Nat) : Option Int :=
  match values[i]? with
  | some (.number n) => some n
  | _ => none

def byteAt (values : List Value) (i : Nat) : UInt8 :=
  match values[i]? with
  | some (.byte b) => b
  | _ => 0

def textAt (values : List Value) (i : Nat) : CString :=
  match values[i]? with
  | some (.text s) => s
  | _ => []

/-- What `fscanf` stores of `/proc/PID/stat`, apart from the name; `read_buf` behind it; and whether it
stored everything. -/
structure StatScan where
  values : List Value
  readBuf : CString
  complete : Bool

/-- The two calls of `fscanf`. Without the name of `/proc/PID/comm` the name is the second value. -/
def scanStat (name : Option CString) (stat : Stream) : StatScan :=
  match name with
  | some name =>
      let r := scanf (procStatFmt name) stat.bytes
      ⟨r.1, name, 10 ≤ returned r⟩
  | none =>
      let r := scanf procStatFmtDefault stat.bytes
      ⟨r.1.eraseIdx 1, textAt r.1 1, 11 ≤ returned r⟩

/-- A number as an `unsigned long long`. -/
def toULL (n : Int) : UInt64 := n.toNat.toUInt64

/-- The fields `fscanf` stores to, as far as it came. -/
def ProcessStats.storeStat (item : ProcessStats) (values : List Value) : ProcessStats :=
  { item with
    pid := (numberAt? values 0).getD item.pid
    parent := (numberAt? values 2).getD item.parent
    pgid := (numberAt? values 3).getD item.pgid
    nice := (numberAt? values 6).getD item.nice
    procSize := ((numberAt? values 8).map toULL).getD item.procSize
    procResident := ((numberAt? values 9).map toULL).getD item.procResident }

/-- The `switch` over the letter of the state. -/
def stateOf (s : UInt8) : SgProcessState :=
  if s = 83 then .sleeping
  else if s = 82 then .running
  else if s = 90 then .zombie
  else if s = 84 ∨ s = 68 then .stopped
  else .unknown

/-- The name in `read_buf`. Whichever way it came there, it is taken to be in parentheses where one is
closed. -/
def procName (readBuf : CString) : CString := (strchr (readBuf.drop 1) 41).getD readBuf

/-- The fields that are computed from what was scanned, up to the name. -/
def ProcessStats.storeState (src : ProcessSource) (item : ProcessStats) (values : List Value) :
    ProcessStats :=
  { item with
    procResident := (item.procResident + 3) * src.pageSize.toUInt64
    state := stateOf (byteAt values 1) }

/-- The times. They are computed in 64 bits without a sign, and stored in a `time_t`; without the ticks of
a second there are none. -/
def ProcessStats.storeTimes (src : ProcessSource) (uptime : Int) (item : ProcessStats)
    (values : List Value) : ProcessStats :=
  let ticks := toULL ((numberAt? values 4).getD 0) + toULL ((numberAt? values 5).getD 0)
  let starttime := toULL ((numberAt? values 7).getD 0)
  { item with
    cpuPercent := .share ticks uptime starttime
    timeSpent :=
      if src.tickspersec < 0 then 0 else (ticks / toULL src.tickspersec).toInt64.toInt
    startTime :=
      if src.tickspersec < 0 then 0
      else ((src.now - uptime) + ((starttime / toULL src.tickspersec).toNat : Int)).bmod (2 ^ 64) }

/-! ### `/proc/PID/status` -/

/-- `sscanf(read_buf, fmt, ..)`: what is stored. -/
def sscanf (readBuf : List UInt8) (fmt : String) : List Value :=
  (scanf (bytes fmt) (readBuf.takeWhile (· ≠ 0))).1

/-- `sscanf` of the numbers of a `Uid:` or a `Gid:` line. -/
def idsOf (readBuf : List UInt8) (fmt : String) (real effective : UInt32) : UInt32 × UInt32 :=
  let values := sscanf readBuf fmt
  (((numberAt? values 0).map fun n => n.toNat.toUInt32).getD real,
    ((numberAt? values 1).map fun n => n.toNat.toUInt32).getD effective)

/-- `sg_f_read_line` and `sscanf` of a counter: 0 without the line, and as it was where the line has no
number. -/
def readSwitches (f : Stream) (key fmt : String) (old : UInt64) : ThreadM (UInt64 × Stream) := do
  let (line, f) ← sgFReadLine (readbufLength + 1) f key
  match line with
  | none => return (0, f)
  | some line => return (((numberAt? (sscanf line fmt) 0).map toULL).getD old, f)

/-- The part of the loop that reads `/proc/PID/status`: whether both lines of ids were found. -/
def fillStatus (f : Stream) (item : ProcessStats) : ThreadM (Bool × ProcessStats) := do
  let (line, f) ← sgFReadLine (readbufLength + 1) f "Uid:"
  match line with
  | none => return (false, item)
  | some line =>
      let (uid, euid) := idsOf line "Uid:\t%u\t%u\t%*d\t%*d\n" item.uid item.euid
      let item := { item with uid := uid, euid := euid }
      let (line, f) ← sgFReadLine (readbufLength + 1) f "Gid:"
      match line with
      | none => return (false, item)
      | some line =>
          let (gid, egid) := idsOf line "Gid:\t%u\t%u\t%*d\t%*d\n" item.gid item.egid
          let item := { item with gid := gid, egid := egid }
          let (voluntary, f) ← readSwitches f "voluntary_ctxt_switches:"
            "voluntary_ctxt_switches:\t%llu" item.voluntaryContextSwitches
          let item := { item with voluntaryContextSwitches := voluntary }
          let (involuntary, _) ← readSwitches f "nonvoluntary_ctxt_switches:"
            "nonvoluntary_ctxt_switches:\t%llu" item.involuntaryContextSwitches
          return (true, { item with
            involuntaryContextSwitches := involuntary
            contextSwitches := voluntary + involuntary })

/-! ### One process -/

inductive Fill where
  /-- The process has vanished, or a file of it can not be read. -/
  | skipped
  /-- The call returns this code. -/
  | failed (rc : SgError)
  /-- The item is complete. -/
  | filled
  deriving DecidableEq

def asprintf (text : CString) : ThreadM (Option CString) := fun t =>
  .ok (if t.mem 0 then some text else none, t.answered)

/-- The part of the loop that reads `/proc/PID/cmdline`. A process without arguments gets its name for a
title. -/
def fillTitle (src : ProcessSource) (file : CmdlineFile) (item : ProcessStats) :
    ThreadM (Fill × ProcessStats) := do
  let read ← readCmdline src.raw file (item.proctitle.map (· ++ [0]))
  match read with
  | .refused rc => return (.failed rc, { item with proctitle := none })
  | .unreadable => return (.skipped, { item with proctitle := none })
  | .title block =>
      match block.cstr 0 with
      | none => Prog.fault .outOfBlock
      | some title => return (.filled, { item with proctitle := some title, systime := src.now })
  | .empty =>
      match item.processName with
      | none => Prog.fault .nullPointer
      | some name => do
          let title ← asprintf (91 :: (name ++ [93]))
          match title with
          -- the stream that is closed here was closed before
          | none => Prog.fault .released
          | some title => return (.filled, { item with proctitle := some title, systime := src.now })

/-- The part of the loop behind `/proc/PID/stat`. -/
def fillRest (src : ProcessSource) (files : ProcessFiles) (item : ProcessStats) :
    ThreadM (Fill × ProcessStats) :=
  match files.status with
  | none => return (.skipped, item)
  | some f => do
      let (found, item) ← fillStatus f item
      if found then
        match files.cmdline with
        | none => return (.skipped, item)
        | some file => fillTitle src file item
      else return (.skipped, item)

/-- The body of the loop from the `fscanf` of `/proc/PID/stat` on. -/
def fillProcess (src : ProcessSource) (uptime : Int) (files : ProcessFiles) (name : Option CString)
    (stat : Stream) (item : ProcessStats) : ThreadM (Fill × ProcessStats) := do
  let scan := scanStat name stat
  let item := item.storeStat scan.values
  if scan.complete then
    let item := item.storeState src scan.values
    let (rc, processName) ← sgUpdateString item.processName (some (procName scan.readBuf))
    let item := { item with processName := processName }
    if rc = .none then fillRest src files (item.storeTimes src uptime scan.values)
    else
      let rc ← returnFromPreviousError
      return (.failed rc, item)
  else return (.skipped, item)

/-! ### The loop -/

def onSlot {α β : Type} (p : Ptr) (i : Nat) (fn : α → ThreadM (β × α)) : VecM α β := do
  let v ← deref p
  touch v (i + 1)
  let (b, item) ← onThread (fn (v.cells i))
  Prog.modify fun w => w.put p (v.setCell i item)
  return b

/-- The variables of the loop: the pages that are left, the index in the first of them, the items that are
complete, and the vector. -/
structure Loop where
  pages : List (List Int)
  pidItem : Nat
  procItems : Nat
  vector : Option Ptr
  deriving DecidableEq

inductive Round where
  | next (s : Loop)
  | returned (rc : SgError) (vector : Option Ptr)
  deriving DecidableEq

/-- `++pid_item`, after the vector was resized. -/
def Loop.advance (s : Loop) (vector : Option Ptr) : Loop :=
  { s with pidItem := s.pidItem + 1, vector := vector }

def nextPage (s : Loop) (pages : List (List Int)) : VecM ProcessStats Round :=
  match pages with
  | [] => return .next { s with pages := [], pidItem := 0 }
  | page :: rest => do
      let vector ← vectorUpdated ProcessStats.info s.vector (.sum s.procItems page.length)
      match vector with
      | .ok vector => return .next { s with pages := page :: rest, pidItem := 0, vector := vector }
      -- no stream is open, and `VECTOR_UPDATE_ERROR_CLEANUP` closes one
      | .error _ => Prog.fault .released

/-- The round for a pid whose `/proc/PID/comm` has been read. -/
def readProcess (src : ProcessSource) (uptime : Int) (s : Loop) (files : ProcessFiles)
    (name : Option CString) : VecM ProcessStats Round :=
  match files.stat with
  | none => return .next (s.advance s.vector)
  | some stat => do
      let vector ← vectorUpdated ProcessStats.info s.vector (.sum s.procItems 1)
      match vector with
      | .error rc => return .returned rc none
      | .ok none => Prog.fault .nullPointer
      | .ok (some p) => do
          let fill ← onSlot p s.procItems (fillProcess src uptime files name stat)
          match fill with
          | .skipped => return .next (s.advance (some p))
          | .failed rc => return .returned rc (some p)
          | .filled => return .next { s.advance (some p) with procItems := s.procItems + 1 }

/-- One round of the `while` loop, with a page left. A `/proc/PID/comm` without a line is left by a
`continue` that does not advance the index. -/
def round (src : ProcessSource) (uptime : Int) (s : Loop) (page : List Int) (pages : List (List Int)) :
    VecM ProcessStats Round :=
  match page[s.pidItem]? with
  | none => nextPage s pages
  | some pid =>
      match readComm (src.files pid).comm with
      | .empty => return .next s
      | .closed => readProcess src uptime s (src.files pid) none
      | .name name => readProcess src uptime s (src.files pid) (some name)

/-- What the loop comes to: `none` where it is not over after so many rounds, else the code of an early
return, if there is one, and the variables at the end. -/
def processLoop (src : ProcessSource) (uptime : Int) :
    Nat → Loop → VecM ProcessStats (Option (Option SgError × Loop))
  | fuel, s =>
      match s.pages with
      | [] => return some (none, s)
      | page :: pages =>
          match fuel with
          | 0 => return none
          | fuel + 1 => do
              let r ← round src uptime s page pages
              match r with
              | .next s => processLoop src uptime fuel s
              | .returned rc vector => return some (some rc, { s with vector := vector })

/-- The end of `sg_get_process_stats_int`: the items that are not complete are cut off. -/
def trimItems (vector : Option Ptr) (procItems : Nat) : VecM ProcessStats (SgError × Option Ptr) :=
  match vector with
  | none => return (.none, none)
  | some p => do
      let v ← deref p
      if procItems ≠ v.usedCount then
        vectorUpdate ProcessStats.info (some p) (.count procItems) fun vector =>
          return (.none, vector)
      else return (.none, some p)

/-- `sg_get_process_stats_int` on Linux, with at most `fuel` rounds of its loop. -/
def sgGetProcessStatsInt (src : ProcessSource) (fuel : Nat) (vector : Option Ptr) :
    VecM ProcessStats (Option (SgError × Option Ptr)) := do
  let pids ← onThread (processPids src.toProcFs)
  match pids with
  | .error rc => return some (rc, vector)
  | .ok (uptime, chain) => do
      let pages := chain.full ++ [chain.last]
      let grown ← vectorUpdated ProcessStats.info vector (.sum 0 (pages.headD []).length)
      match grown with
      -- the stream of `/proc/uptime` is closed
      | .error _ => Prog.fault .released
      | .ok vector => do
          let done ← processLoop src uptime fuel ⟨pages, 0, 0, vector⟩
          match done with
          | none => return none
          | some (some rc, s) => return some (rc, s.vector)
          | some (none, s) => do
              let r ← trimItems s.vector s.procItems
              return some r

end Statgrab.Process
