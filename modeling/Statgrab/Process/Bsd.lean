import Statgrab.Process.Code

/-!
# `process_stats.c` on the BSDs

Where there are `kinfo_proc2` or `kinfo_proc` records, one `sysctl` gives them all, and a loop over the
records fills the items. It has two indices, `i` for the records and `proc_items` for the items, which part
at the first record that is left by a `continue`.

The functions start where the records have been read. What a second `sysctl` gives for the arguments of a
process is a part of its record.
-/

namespace Statgrab.Process

/-- What a read needs to know of the system. -/
structure BsdSystem where
  sysPageSize : Nat
  now : Int

/-- The states of a process or a thread, `SIDL` and the like or `LSIDL` and the like; `unset` is 0. -/
inductive KernStat where
  | unset
  | idl
  | run
  | sleep
  | stop
  | zomb
  | dead
  | wait
  | lock
  | onproc
  | suspended
  | active
  | other
  deriving DecidableEq

def einval : Int := 22

/-- What the `sysctl` for the arguments of a process comes to, once the buffer is large enough: its size,
and what `adjust_procname_cmndline` makes of it. -/
inductive ArgvRead where
  | failed (errno : Int)
  | read (size : Nat) (text : CString)
  deriving DecidableEq

inductive Title where
  /-- The arguments can not be read, and the loop goes on with the next record. -/
  | skipped
  /-- There is no such `sysctl`. -/
  | absent
  /-- `print_kernel_proctitle`: the name in brackets. -/
  | kernel
  /-- The arguments. -/
  | text (s : CString)
  deriving DecidableEq

/-! ### The slots -/

/-- Assignments to the fields of the item `i`. -/
def setSlot (p : Ptr) (i : Nat) (f : ProcessStats → ProcessStats) : VecM ProcessStats Unit :=
  onSlot p i fun item => return ((), f item)

def getSlot (p : Ptr) (i : Nat) : VecM ProcessStats ProcessStats := do
  let v ← deref p
  touch v (i + 1)
  return v.cells i

/-- `sg_update_string(&proc_stats_ptr[i].process_name, name)`. -/
def updateName (p : Ptr) (i : Nat) (name : CString) : VecM ProcessStats SgError :=
  onSlot p i fun item => do
    let (rc, processName) ← sgUpdateString item.processName (some name)
    return (rc, { item with processName := processName })

/-- `sg_update_string(&proc_stats_ptr[i].proctitle, title)`. -/
def updateTitle (p : Ptr) (i : Nat) (title : CString) : VecM ProcessStats SgError :=
  onSlot p i fun item => do
    let (rc, proctitle) ← sgUpdateString item.proctitle (some title)
    return (rc, { item with proctitle := proctitle })

/-- `asprintf(&proc_stats_ptr[i].proctitle, "[%s]", proc_stats_ptr[i].process_name)`. -/
def printKernelProctitle (p : Ptr) (i : Nat) : VecM ProcessStats Bool :=
  onSlot p i fun item =>
    match item.processName with
    | none => Prog.fault .nullPointer
    | some name => do
        let title ← asprintf (91 :: (name ++ [93]))
        return (title.isSome, { item with proctitle := title })

/-- The end of a round: the title of the item `i`. -/
def storeTitle (p : Ptr) (i : Nat) (title : Title) (arg : String) : VecM ProcessStats Fill :=
  match title with
  | .skipped => return .skipped
  | .absent => return .filled
  | .text s => do
      let rc ← updateTitle p i s
      if rc = .none then return .filled
      else
        let rc ← onThread returnFromPreviousError
        return .failed rc
  | .kernel => do
      let ok ← printKernelProctitle p i
      if ok then return .filled
      else
        let rc ← onThread (returnWithSetError .asprintf enomem arg)
        return .failed rc

/-- The vector around the loop, for both kinds of records: an item for each record before it, and the items
that are complete behind it. -/
def fillFromRecords (nprocs : Nat) (loop : Ptr → VecM ProcessStats (Except SgError Nat)) :
    FillFn ProcessStats := fun vector => do
  let grown ← vectorUpdated ProcessStats.info vector (.count nprocs)
  match grown with
  | .error rc => return (rc, none)
  | .ok none =>
      if nprocs = 0 then
        vectorUpdate ProcessStats.info none (.count 0) fun vector => trimItems vector 0
      else Prog.fault .nullPointer
  | .ok (some p) => do
      let done ← loop p
      match done with
      | .error rc => return (rc, some p)
      | .ok procItems =>
          vectorUpdate ProcessStats.info (some p) (.count procItems) fun vector =>
            trimItems vector procItems

/-! ### `KERN_PROC2` -/

/-- `struct kinfo_proc2`, and what is read of the arguments of the process. -/
structure KinfoProc2 where
  comm : CString
  pid : Int
  ppid : Int
  pgid : Int
  sid : Int
  uid : UInt32
  ruid : UInt32
  gid : UInt32
  rgid : UInt32
  nvcsw : UInt64
  nivcsw : UInt64
  vmDsize : UInt64
  vmSsize : UInt64
  vmRssize : UInt64
  ustartSec : Int
  uutimeSec : UInt64
  ustimeSec : UInt64
  cpticks : Int
  nice : Int
  stat : KernStat
  argv : ArgvRead

/-- The `switch` over `p_stat`. -/
def stateOfProc2 : KernStat → SgProcessState
  | .idl | .sleep | .run | .suspended => .sleeping
  | .dead | .zomb => .zombie
  | .stop => .stopped
  | .onproc => .running
  | _ => .unknown

/-- The fields of an item that come straight from the record. -/
def KinfoProc2.onto (sys : BsdSystem) (r : KinfoProc2) (item : ProcessStats) : ProcessStats :=
  { item with
    pid := r.pid
    parent := r.ppid
    pgid := r.pgid
    sessid := r.sid
    uid := r.uid
    euid := r.ruid
    gid := r.gid
    egid := r.rgid
    voluntaryContextSwitches := r.nvcsw
    involuntaryContextSwitches := r.nivcsw
    procSize := (r.vmDsize + r.vmSsize) * sys.sysPageSize.toUInt64
    procResident := r.vmRssize * sys.sysPageSize.toUInt64
    startTime := r.ustartSec
    timeSpent := (r.uutimeSec + r.ustimeSec).toInt64.toInt
    cpuPercent := .scaled r.cpticks
    nice := r.nice
    state := stateOfProc2 r.stat }

def KinfoProc2.title (r : KinfoProc2) : Title :=
  if r.pid = 0 then .kernel
  else
    match r.argv with
    | .failed errno => if r.ppid = 0 ∧ errno = einval then .kernel else .skipped
    | .read size text => if 1 < size ∧ text ≠ [] then .text text else .kernel

/-- One round of the loop over `kinfo_proc2` records. The strings go to the item `i`, and the context
switches are added up from there. -/
def proc2Round (sys : BsdSystem) (p : Ptr) (i procItems : Nat) (r : KinfoProc2) :
    VecM ProcessStats Fill := do
  let rc ← updateName p i r.comm
  if rc = .none then
    setSlot p procItems (r.onto sys)
    let here ← getSlot p i
    setSlot p procItems fun item => { item with
      contextSwitches := here.voluntaryContextSwitches + here.involuntaryContextSwitches }
    let fill ← storeTitle p i r.title ("pid=" ++ toString r.pid)
    if fill = .filled then setSlot p procItems fun item => { item with systime := sys.now }
    return fill
  else
    let rc ← onThread returnFromPreviousError
    return .failed rc

/-- The loop over `kinfo_proc2` records: the number of items that are complete, or the code of an early
return. -/
def proc2Loop (sys : BsdSystem) (p : Ptr) :
    List KinfoProc2 → Nat → Nat → VecM ProcessStats (Except SgError Nat)
  | [], _, procItems => return .ok procItems
  | r :: rest, i, procItems => do
      let fill ← proc2Round sys p i procItems r
      match fill with
      | .skipped => proc2Loop sys p rest (i + 1) procItems
      | .filled => proc2Loop sys p rest (i + 1) (procItems + 1)
      | .failed rc => return .error rc

/-- `sg_get_process_stats_int` with `KERN_PROC2`, from the records on. -/
def processStatsProc2 (sys : BsdSystem) (kpStats : List KinfoProc2) : FillFn ProcessStats :=
  fillFromRecords kpStats.length fun p => proc2Loop sys p kpStats 0 0

/-! ### `KERN_PROC` -/

/-- The layouts of `struct kinfo_proc` that `configure` tells apart, by the member that is found. Only
`darwin` has `proc_pidinfo`. -/
inductive KinfoLayout where
  | kiStat
  | kpPid
  | kpThread
  | kpProc
  | darwin
  | pStat
  deriving DecidableEq

/-- The layout, and the macros for the arguments of a process: whether there is one, and whether it is
`KERN_PROCARGS2`. -/
structure KinfoBuild where
  layout : KinfoLayout
  procArgs : Bool
  procArgs2 : Bool

/-- `struct kinfo_proc`, under the names that are common to its layouts, with what `proc_pidinfo` gives and
what is read of the arguments of the process. -/
structure KinfoProc where
  stat : KernStat
  lwpStat : KernStat
  comm : CString
  pid : Int
  ppid : Int
  pgid : Int
  sid : Int
  ruid : UInt32
  uid : UInt32
  svuid : UInt32
  rgid : UInt32
  svgid : UInt32
  /-- `*p_ru`: the voluntary context switches and the others. -/
  ru : Option (UInt64 × UInt64)
  /-- `pti_csw`. -/
  csw : UInt64
  /-- `ki_runtime`, the sum of the ticks of the thread, or that of `pti_total_user` and
  `pti_total_system`. -/
  runtime : UInt64
  start : Int
  pctcpu : Int
  nice : Int
  size : UInt64
  rssize : UInt64
  argv : ArgvRead

/-- There is a member `kp_eproc`. -/
def KinfoLayout.eproc : KinfoLayout → Bool
  | .kpThread | .kpProc | .darwin => true
  | _ => false

def KinfoBuild.parent (b : KinfoBuild) (r : KinfoProc) : Int :=
  match b.layout with
  | .kpPid | .pStat => if r.ppid = -1 then 0 else r.ppid
  | _ => r.ppid

/-- `context_switches`. -/
def KinfoBuild.switches (b : KinfoBuild) (r : KinfoProc) : UInt64 :=
  match b.layout with
  | .darwin => r.csw
  | _ => 0

/-- `voluntary_context_switches` and `involuntary_context_switches`. -/
def KinfoBuild.counters (b : KinfoBuild) (r : KinfoProc) : UInt64 × UInt64 :=
  match b.layout with
  | .kpProc | .darwin => r.ru.getD (0, 0)
  | _ => (0, 0)

/-- `state`. The state of an active thread is read from the record `named`, and one that is none of the
three keeps what the item held. -/
def KinfoBuild.state (b : KinfoBuild) (r named : KinfoProc) (old : SgProcessState) : SgProcessState :=
  match r.stat with
  | .run => .running
  | .active =>
      match b.layout with
      | .kpPid =>
          match named.lwpStat with
          | .run => .running
          | .stop => .stopped
          | .sleep => .sleeping
          | _ => old
      | _ => .unknown
  | .idl | .sleep | .wait | .lock => .sleeping
  | .stop => .stopped
  | .zomb | .dead => .zombie
  | _ => .unknown

/-- The times, the percentage and the priority, as far as the layout has them. The time spent that is
summed up of `kp_ru` is overwritten by the time of the start. -/
def KinfoBuild.storeTimes (b : KinfoBuild) (r : KinfoProc) (item : ProcessStats) : ProcessStats :=
  match b.layout with
  | .kiStat =>
      { item with startTime := 0, timeSpent := (r.runtime / 1000000).toInt64.toInt, cpuPercent := .plain 0,
                  nice := r.nice }
  | .kpPid => { item with startTime := 0, timeSpent := r.start, cpuPercent := .plain r.pctcpu, nice := r.nice }
  | .kpThread => { item with startTime := 0, timeSpent := (r.runtime / 1000000).toInt64.toInt }
  | .kpProc => { item with startTime := r.start, cpuPercent := .scaled r.pctcpu }
  | .darwin =>
      { item with startTime := r.start, timeSpent := (r.runtime / 1000000000).toInt64.toInt,
                  cpuPercent := .scaled r.pctcpu, nice := r.nice }
  | .pStat => { item with startTime := 0 }

def KinfoBuild.storeSizes (b : KinfoBuild) (sys : BsdSystem) (r : KinfoProc) (item : ProcessStats) :
    ProcessStats :=
  match b.layout with
  | .kiStat | .kpPid | .pStat =>
      { item with procSize := r.size, procResident := r.rssize * sys.sysPageSize.toUInt64 }
  | .darwin => { item with procSize := r.size, procResident := r.rssize }
  | .kpThread | .kpProc => item

def KinfoBuild.onto (b : KinfoBuild) (sys : BsdSystem) (r named : KinfoProc) (item : ProcessStats) :
    ProcessStats :=
  b.storeSizes sys r (b.storeTimes r { item with
    pid := r.pid
    parent := b.parent r
    pgid := r.pgid
    sessid := if b.layout.eproc then 0 else r.sid
    uid := r.ruid
    euid := if b.layout.eproc then r.svuid else r.uid
    gid := r.rgid
    egid := r.svgid
    contextSwitches := b.switches r
    voluntaryContextSwitches := (b.counters r).1
    involuntaryContextSwitches := (b.counters r).2
    state := b.state r named item.state })

def KinfoBuild.title (b : KinfoBuild) (r : KinfoProc) : Title :=
  if b.procArgs then
    if r.pid = 0 then .kernel
    else
      match r.argv with
      | .failed errno => if b.procArgs2 ∧ errno = einval then .kernel else .skipped
      | .read size text => if 1 < size then .text text else .kernel
  else .absent

/-- One round of the loop over `kinfo_proc` records. The name is that of the record `proc_items`. -/
def procRound (b : KinfoBuild) (sys : BsdSystem) (kpStats : List KinfoProc) (p : Ptr) (procItems : Nat)
    (r : KinfoProc) : VecM ProcessStats Fill :=
  if r.stat = .unset then return .skipped
  else
    match kpStats[procItems]? with
    | none => Prog.fault .outOfBlock
    | some named => do
        let rc ← updateName p procItems named.comm
        if rc = .none then
          setSlot p procItems (b.onto sys r named)
          let fill ← storeTitle p procItems (b.title r) ""
          if fill = .filled then setSlot p procItems fun item => { item with systime := sys.now }
          return fill
        else
          let rc ← onThread returnFromPreviousError
          return .failed rc

def procLoop (b : KinfoBuild) (sys : BsdSystem) (kpStats : List KinfoProc) (p : Ptr) :
    List KinfoProc → Nat → VecM ProcessStats (Except SgError Nat)
  | [], procItems => return .ok procItems
  | r :: rest, procItems => do
      let fill ← procRound b sys kpStats p procItems r
      match fill with
      | .skipped => procLoop b sys kpStats p rest procItems
      | .filled => procLoop b sys kpStats p rest (procItems + 1)
      | .failed rc => return .error rc

/-- `sg_get_process_stats_int` with `KERN_PROC`, from the records on. -/
def processStatsProc (b : KinfoBuild) (sys : BsdSystem) (kpStats : List KinfoProc) :
    FillFn ProcessStats :=
  fillFromRecords kpStats.length fun p => procLoop b sys kpStats p kpStats 0

end Statgrab.Process
