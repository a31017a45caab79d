import Statgrab.Command.PrintStat
import Statgrab.Command.StatNames
import Statgrab.Process.Count
import Statgrab.Stats.CpuPage
import Statgrab.Stats.Host
import Statgrab.Stats.Users

/-!
# What the `statgrab` command shows

The functions `populate_const` to `populate_page` add the stats of their sections. The names of all of them are
pasted together from a section, in some sections a user's terminal, a file system, a disk or an interface, and a
field, so two stats may only share a name where two of those do once their spaces and dots are underscores.

The stats of the network are added by two loops, over the counters and over the interfaces; both may have an
interface, and its name is added once.
-/

namespace Statgrab

open Text

/-! ### The statistics -/

/-- `sg_cpu_percents`. -/
structure CpuShares (F : Type) where
  user : F
  kernel : F
  idle : F
  iowait : F
  swap : F
  nice : F
  timeTaken : Int

structure ShownHost extends HostInfo where
  os : CString
  release : CString
  version : CString
  machine : CString
  node : CString
  stored : osName = some os ∧ osRelease = some release ∧ osVersion = some version ∧ platform = some machine ∧
    hostname = some node

structure ShownUser extends UserStats where
  name : CString
  tty : CString
  host : CString
  stored : loginName = some name ∧ device = some tty ∧ hostname = some host

/-- An item of the file systems whose strings were stored. -/
structure ShownFs extends FsStats where
  device : CString
  canonical : CString
  kind : CString
  mount : CString
  stored : deviceName = some device ∧ deviceCanonical = some canonical ∧ fsType = some kind ∧
    mntPoint = some mount

structure ShownDisk extends DiskIoStats where
  name : CString
  stored : diskName = some name

structure ShownIo extends NetworkIoStats where
  name : CString
  stored : interfaceName = some name

structure ShownIface extends NetworkIfaceStats where
  name : CString
  stored : interfaceName = some name

/-- What the library returns for the statistics, with NULL for those that failed, and the options
`use_cpu_percent`. Where differences are shown it is what the `_diff` functions return. -/
structure Snapshot (F : Type) where
  useCpuPercent : Bool
  cpu : Option CpuStats
  cpuPercents : Option (CpuShares F)
  mem : Option MemStats
  load : Option (LoadStats F)
  users : Option (List ShownUser)
  swap : Option SwapStats
  host : Option ShownHost
  fs : Option (List ShownFs)
  disk : Option (List ShownDisk)
  proc : Option Process.ProcessCount
  io : Option (List ShownIo)
  iface : Option (List ShownIface)
  page : Option PageStats

/-! ### The code -/

/-- A call of `add_stat`: the value behind the address, and the parts of the name. -/
structure ShownStat (F : Type) where
  value : StatValue F
  parts : List CString

section Code

variable {F : Type}

def populateConst : List (ShownStat F) := [⟨.int 0, [bytes "const", bytes "0"]⟩]

def cpuPercentCalls (p : CpuShares F) : List (ShownStat F) :=
  [⟨.double p.user, [bytes "cpu", bytes "user"]⟩,
    ⟨.double p.kernel, [bytes "cpu", bytes "kernel"]⟩,
    ⟨.double p.idle, [bytes "cpu", bytes "idle"]⟩,
    ⟨.double p.iowait, [bytes "cpu", bytes "iowait"]⟩,
    ⟨.double p.swap, [bytes "cpu", bytes "swap"]⟩,
    ⟨.double p.nice, [bytes "cpu", bytes "nice"]⟩,
    ⟨.timeT p.timeTaken, [bytes "cpu", bytes "time_taken"]⟩]

def cpuTickCalls (s : CpuStats) : List (ShownStat F) :=
  [⟨.unsignedLongLong s.user, [bytes "cpu", bytes "user"]⟩,
    ⟨.unsignedLongLong s.kernel, [bytes "cpu", bytes "kernel"]⟩,
    ⟨.unsignedLongLong s.idle, [bytes "cpu", bytes "idle"]⟩,
    ⟨.unsignedLongLong s.iowait, [bytes "cpu", bytes "iowait"]⟩,
    ⟨.unsignedLongLong s.swap, [bytes "cpu", bytes "swap"]⟩,
    ⟨.unsignedLongLong s.nice, [bytes "cpu", bytes "nice"]⟩,
    ⟨.unsignedLongLong s.total, [bytes "cpu", bytes "total"]⟩,
    ⟨.timeT s.systime, [bytes "cpu", bytes "systime"]⟩]

def cpuEventCalls (s : CpuStats) : List (ShownStat F) :=
  [⟨.unsignedLongLong s.contextSwitches, [bytes "cpu", bytes "ctxsw"]⟩,
    ⟨.unsignedLongLong s.voluntaryContextSwitches, [bytes "cpu", bytes "vctxsw"]⟩,
    ⟨.unsignedLongLong s.involuntaryContextSwitches, [bytes "cpu", bytes "nvctxsw"]⟩,
    ⟨.unsignedLongLong s.syscalls, [bytes "cpu", bytes "syscalls"]⟩,
    ⟨.unsignedLongLong s.interrupts, [bytes "cpu", bytes "intrs"]⟩,
    ⟨.unsignedLongLong s.softInterrupts, [bytes "cpu", bytes "softintrs"]⟩]

def ofReturned {β : Type} (x : Option β) (f : β → List (ShownStat F)) : List (ShownStat F) :=
  match x with
  | none => []
  | some b => f b

def populateCpu (s : Snapshot F) : List (ShownStat F) :=
  (if s.useCpuPercent then ofReturned s.cpuPercents cpuPercentCalls else ofReturned s.cpu cpuTickCalls) ++
    ofReturned s.cpu cpuEventCalls

def populateMem (s : Snapshot F) : List (ShownStat F) :=
  ofReturned s.mem fun mem =>
    [⟨.bytes mem.total, [bytes "mem", bytes "total"]⟩,
      ⟨.bytes mem.free, [bytes "mem", bytes "free"]⟩,
      ⟨.bytes mem.used, [bytes "mem", bytes "used"]⟩,
      ⟨.bytes mem.cache, [bytes "mem", bytes "cache"]⟩]

def populateLoad (s : Snapshot F) : List (ShownStat F) :=
  ofReturned s.load fun load =>
    [⟨.double load.min1, [bytes "load", bytes "min1"]⟩,
      ⟨.double load.min5, [bytes "load", bytes "min5"]⟩,
      ⟨.double load.min15, [bytes "load", bytes "min15"]⟩]

def userCalls (u : ShownUser) : List (ShownStat F) :=
  [⟨.string u.name, [bytes "user", u.tty, bytes "login_name"]⟩,
    ⟨.string u.tty, [bytes "user", u.tty, bytes "tty"]⟩,
    ⟨.string u.host, [bytes "user", u.tty, bytes "from"]⟩,
    ⟨.timeT u.loginTime, [bytes "user", u.tty, bytes "login_time"]⟩]

/-- The names of the users, as `populate_user` puts them into `name_list`. -/
def nameList (users : List ShownUser) : CString := [32].intercalate (users.map (·.name))

/-- The stats of all users. Their number is a `size_t`, of which the low half is printed. -/
def userTotals (users : List ShownUser) : List (ShownStat F) :=
  [⟨.int (Int32.ofNat users.length), [bytes "user", bytes "num"]⟩,
    ⟨.string (nameList users), [bytes "user", bytes "names"]⟩]

def populateUser (s : Snapshot F) : List (ShownStat F) :=
  ofReturned s.users fun users => users.flatMap userCalls ++ userTotals users

def populateSwap (s : Snapshot F) : List (ShownStat F) :=
  ofReturned s.swap fun swap =>
    [⟨.bytes swap.total, [bytes "swap", bytes "total"]⟩,
      ⟨.bytes swap.used, [bytes "swap", bytes "used"]⟩,
      ⟨.bytes swap.free, [bytes "swap", bytes "free"]⟩]

def hostStates : List CString :=
  [bytes "unknown", bytes "physical host", bytes "virtual machine (full virtualized)",
    bytes "virtual machine (paravirtualized)", bytes "hardware virtualization"]

/-- `unexpected_host_state`, behind the last of them. -/
def hostStateText (state : Nat) : CString :=
  hostStates.getD state (bytes "unexpected state (libstatgrab too new)")

def populateGeneral (s : Snapshot F) : List (ShownStat F) :=
  ofReturned s.host fun host =>
    [⟨.string host.os, [bytes "general", bytes "os_name"]⟩,
      ⟨.string host.release, [bytes "general", bytes "os_release"]⟩,
      ⟨.string host.version, [bytes "general", bytes "os_version"]⟩,
      ⟨.string host.machine, [bytes "general", bytes "platform"]⟩,
      ⟨.string host.node, [bytes "general", bytes "hostname"]⟩,
      ⟨.unsigned host.ncpus, [bytes "general", bytes "ncpus"]⟩,
      ⟨.unsigned host.maxcpus, [bytes "general", bytes "ncpus_cfg"]⟩,
      ⟨.unsigned host.bitwidth, [bytes "general", bytes "bitwidth"]⟩,
      ⟨.string (hostStateText host.hostState.value), [bytes "general", bytes "hoststate"]⟩,
      ⟨.timeT host.uptime, [bytes "general", bytes "uptime"]⟩]

/-- The name of a file system: that of its device without `/dev/`, and with every slash an underscore. -/
def fsKey (device : CString) : CString :=
  let name := if strcmp device (bytes "/") = .eq then bytes "root" else device
  let name := if name.length = 2 ∧ name[1]? = some 58 then name.take 1 else name
  let name := if strncmp name (bytes "/dev/") 5 = .eq then name.drop 5 else name
  name.map fun b => if b = 47 then 95 else b

def fsCalls (d : ShownFs) : List (ShownStat F) :=
  let name := fsKey d.device
  [⟨.string d.device, [bytes "fs", name, bytes "device_name"]⟩,
    ⟨.string d.canonical, [bytes "fs", name, bytes "device_canonical"]⟩,
    ⟨.string d.kind, [bytes "fs", name, bytes "fs_type"]⟩,
    ⟨.string d.mount, [bytes "fs", name, bytes "mnt_point"]⟩,
    ⟨.bytes d.size, [bytes "fs", name, bytes "size"]⟩,
    ⟨.bytes d.used, [bytes "fs", name, bytes "used"]⟩,
    ⟨.bytes d.avail, [bytes "fs", name, bytes "avail"]⟩,
    ⟨.unsignedLongLong d.totalInodes, [bytes "fs", name, bytes "total_inodes"]⟩,
    ⟨.unsignedLongLong d.usedInodes, [bytes "fs", name, bytes "used_inodes"]⟩,
    ⟨.unsignedLongLong d.freeInodes, [bytes "fs", name, bytes "free_inodes"]⟩,
    ⟨.unsignedLongLong d.availInodes, [bytes "fs", name, bytes "avail_inodes"]⟩,
    ⟨.bytes d.ioSize, [bytes "fs", name, bytes "io_size"]⟩,
    ⟨.bytes d.blockSize, [bytes "fs", name, bytes "block_size"]⟩,
    ⟨.unsignedLongLong d.totalBlocks, [bytes "fs", name, bytes "total_blocks"]⟩,
    ⟨.unsignedLongLong d.freeBlocks, [bytes "fs", name, bytes "free_blocks"]⟩,
    ⟨.unsignedLongLong d.availBlocks, [bytes "fs", name, bytes "avail_blocks"]⟩,
    ⟨.unsignedLongLong d.usedBlocks, [bytes "fs", name, bytes "used_blocks"]⟩]

def populateFs (s : Snapshot F) : List (ShownStat F) := ofReturned s.fs fun fs => fs.flatMap fsCalls

def diskCalls (d : ShownDisk) : List (ShownStat F) :=
  [⟨.string d.name, [bytes "disk", d.name, bytes "disk_name"]⟩,
    ⟨.bytes d.readBytes, [bytes "disk", d.name, bytes "read_bytes"]⟩,
    ⟨.bytes d.writeBytes, [bytes "disk", d.name, bytes "write_bytes"]⟩,
    ⟨.timeT d.systime, [bytes "disk", d.name, bytes "systime"]⟩]

def populateDisk (s : Snapshot F) : List (ShownStat F) := ofReturned s.disk fun disk => disk.flatMap diskCalls

def populateProc (s : Snapshot F) : List (ShownStat F) :=
  ofReturned s.proc fun proc =>
    [⟨.unsignedLongLong proc.total.toUInt64, [bytes "proc", bytes "total"]⟩,
      ⟨.unsignedLongLong proc.running.toUInt64, [bytes "proc", bytes "running"]⟩,
      ⟨.unsignedLongLong proc.sleeping.toUInt64, [bytes "proc", bytes "sleeping"]⟩,
      ⟨.unsignedLongLong proc.stopped.toUInt64, [bytes "proc", bytes "stopped"]⟩,
      ⟨.unsignedLongLong proc.zombie.toUInt64, [bytes "proc", bytes "zombie"]⟩]

def ioCalls (d : ShownIo) : List (ShownStat F) :=
  [⟨.string d.name, [bytes "net", d.name, bytes "interface_name"]⟩,
    ⟨.bytes d.tx, [bytes "net", d.name, bytes "tx"]⟩,
    ⟨.bytes d.rx, [bytes "net", d.name, bytes "rx"]⟩,
    ⟨.unsignedLongLong d.ipackets, [bytes "net", d.name, bytes "ipackets"]⟩,
    ⟨.unsignedLongLong d.opackets, [bytes "net", d.name, bytes "opackets"]⟩,
    ⟨.unsignedLongLong d.ierrors, [bytes "net", d.name, bytes "ierrors"]⟩,
    ⟨.unsignedLongLong d.oerrors, [bytes "net", d.name, bytes "oerrors"]⟩,
    ⟨.unsignedLongLong d.collisions, [bytes "net", d.name, bytes "collisions"]⟩,
    ⟨.timeT d.systime, [bytes "net", d.name, bytes "systime"]⟩]

/-- `had_io`, by the loop over the counters. -/
def hadIo (io : List ShownIo) (name : CString) : Bool := io.any fun d => strcmp d.name name = .eq

/-- The stats of an interface. Its name is only added where the counters did not. -/
def ifaceCalls (io : List ShownIo) (d : ShownIface) : List (ShownStat F) :=
  (if hadIo io d.name then [] else [⟨.string d.name, [bytes "net", d.name, bytes "interface_name"]⟩]) ++
    [⟨.unsignedLongLong d.speed, [bytes "net", d.name, bytes "speed"]⟩,
      ⟨.bool (if d.up = .up then 1 else 0), [bytes "net", d.name, bytes "up"]⟩,
      ⟨.duplex d.duplex, [bytes "net", d.name, bytes "duplex"]⟩]

def populateNet (s : Snapshot F) : List (ShownStat F) :=
  ofReturned s.io (fun io => io.flatMap ioCalls) ++
    ofReturned s.iface fun iface => iface.flatMap (ifaceCalls (s.io.getD []))

def populatePage (s : Snapshot F) : List (ShownStat F) :=
  ofReturned s.page fun page =>
    [⟨.unsignedLongLong page.pagesPagein, [bytes "page", bytes "in"]⟩,
      ⟨.unsignedLongLong page.pagesPageout, [bytes "page", bytes "out"]⟩,
      ⟨.timeT page.systime, [bytes "page", bytes "systime"]⟩]

/-- What the functions of `toplevels` add, under the names of their sections. -/
def sections (s : Snapshot F) : List (CString × List (ShownStat F)) :=
  [(bytes "const", populateConst), (bytes "cpu", populateCpu s), (bytes "mem", populateMem s),
    (bytes "load", populateLoad s), (bytes "user", populateUser s), (bytes "swap", populateSwap s),
    (bytes "general", populateGeneral s), (bytes "fs", populateFs s), (bytes "disk", populateDisk s),
    (bytes "proc", populateProc s), (bytes "net", populateNet s), (bytes "page", populatePage s)]

def populateCalls (s : Snapshot F) : List (ShownStat F) := (sections s).flatMap fun section' => section'.2

end Code

/-! ### Names -/

section Names

variable {F : Type}

/-- The name `add_stat` gives a stat. -/
def ShownStat.name (call : ShownStat F) : CString := statName call.parts

def ShownStat.key (call : ShownStat F) : List CString := call.parts.map sanitise

/-- No two stats have the terminal, the file system, the disk or the interface in common: not even once spaces
and dots are underscores. -/
structure Distinguishable (s : Snapshot F) : Prop where
  users : ((s.users.getD []).map fun u => sanitise u.tty).Nodup
  fs : ((s.fs.getD []).map fun d => sanitise (fsKey d.device)).Nodup
  disk : ((s.disk.getD []).map fun d => sanitise d.name).Nodup
  io : ((s.io.getD []).map fun d => sanitise d.name).Nodup
  iface : ((s.iface.getD []).map fun d => sanitise d.name).Nodup
  same : ∀ d ∈ s.io.getD [], ∀ e ∈ s.iface.getD [], sanitise d.name = sanitise e.name → d.name = e.name

theorem statName_inj {parts parts' : List CString} (hne : parts ≠ []) (hne' : parts' ≠ []) :
    statName parts = statName parts' ↔ parts.map sanitise = parts'.map sanitise := by
  constructor
  · intro h
    rw [← statName_fields hne, ← statName_fields hne', h]
  · intro h
    rw [statName, statName, h]

theorem names_nodup_iff {calls : List (ShownStat F)} (hne : ∀ call ∈ calls, call.parts ≠ []) :
    (calls.map ShownStat.name).Nodup ↔ (calls.map ShownStat.key).Nodup := by
  rw [List.Nodup, List.Nodup, List.pairwise_map, List.pairwise_map]
  apply List.Pairwise.iff_of_mem
  intro a b ha hb
  exact not_congr (statName_inj (hne a ha) (hne b hb))

def InSection (name : CString) (calls : List (ShownStat F)) : Prop :=
  ∀ call ∈ calls, ∃ part rest, call.parts = name :: part :: rest

theorem InSection.append {name : CString} {calls calls' : List (ShownStat F)} (h : InSection name calls)
    (h' : InSection name calls') : InSection name (calls ++ calls') := by
  intro call hcall
  rcases List.mem_append.mp hcall with hcall | hcall
  · exact h call hcall
  · exact h' call hcall

theorem InSection.flatMap {β : Type} {name : CString} {rows : List β} {f : β → List (ShownStat F)}
    (h : ∀ row, InSection name (f row)) : InSection name (rows.flatMap f) := by
  intro call hcall
  obtain ⟨row, -, hmem⟩ := List.mem_flatMap.mp hcall
  exact h row call hmem

theorem InSection.ofReturned {β : Type} {name : CString} (x : Option β) {f : β → List (ShownStat F)}
    (h : ∀ b, InSection name (f b)) : InSection name (ofReturned x f) := by
  cases x with
  | none =>
      intro call hcall
      cases hcall
  | some b => exact h b

/-! #### Sections with one row -/

/-- The calls are for the fields of a section, which are all different. -/
structure Fields (name : CString) (fields : List CString) (calls : List (ShownStat F)) : Prop where
  parts : calls.map ShownStat.parts = fields.map fun field => [name, field]
  nodup : (fields.map sanitise).Nodup

theorem Fields.inSection {name : CString} {fields : List CString} {calls : List (ShownStat F)}
    (h : Fields name fields calls) : InSection name calls := by
  intro call hcall
  have hmem := List.mem_map_of_mem (f := ShownStat.parts) hcall
  rw [h.parts] at hmem
  obtain ⟨field, -, hparts⟩ := List.mem_map.mp hmem
  exact ⟨field, [], hparts.symm⟩

theorem keys_of_parts {calls : List (ShownStat F)} {fields : List CString} {f : CString → List CString}
    (h : calls.map ShownStat.parts = fields.map f) :
    calls.map ShownStat.key = fields.map fun field => (f field).map sanitise := by
  have hmap : calls.map ShownStat.key = (calls.map ShownStat.parts).map fun parts => parts.map sanitise := by
    rw [List.map_map]
    rfl
  rw [hmap, h, List.map_map]
  rfl

theorem Fields.keys_nodup {name : CString} {fields : List CString} {calls : List (ShownStat F)}
    (h : Fields name fields calls) : (calls.map ShownStat.key).Nodup := by
  have hkeys : calls.map ShownStat.key = (fields.map sanitise).map fun field => [sanitise name, field] := by
    rw [keys_of_parts h.parts, List.map_map]
    rfl
  rw [hkeys]
  exact h.nodup.map fun a b hab => by simpa using hab

/-- A section without rows: its stats are in it, and their names are different. -/
def Plain (name : CString) (calls : List (ShownStat F)) : Prop := ∃ fields, Fields name fields calls

theorem plain_ofReturned {β : Type} {name : CString} (fields : List CString) (x : Option β)
    {f : β → List (ShownStat F)} (h : ∀ b, Fields name fields (f b)) : Plain name (ofReturned x f) := by
  cases x with
  | none => exact ⟨[], rfl, List.nodup_nil⟩
  | some b => exact ⟨fields, h b⟩

theorem populateConst_plain : Plain (bytes "const") (populateConst (F := F)) := ⟨[bytes "0"], rfl, by decide⟩

theorem populateCpu_plain (s : Snapshot F) : Plain (bytes "cpu") (populateCpu s) := by
  rw [populateCpu]
  cases s.useCpuPercent with
  | true =>
      cases s.cpuPercents with
      | none =>
          exact plain_ofReturned [bytes "ctxsw", bytes "vctxsw", bytes "nvctxsw", bytes "syscalls",
            bytes "intrs", bytes "softintrs"] s.cpu fun _ => ⟨rfl, by decide⟩
      | some p =>
          cases s.cpu with
          | none =>
              exact ⟨[bytes "user", bytes "kernel", bytes "idle", bytes "iowait", bytes "swap", bytes "nice",
                bytes "time_taken"], rfl, by decide⟩
          | some c =>
              exact ⟨[bytes "user", bytes "kernel", bytes "idle", bytes "iowait", bytes "swap", bytes "nice",
                bytes "time_taken", bytes "ctxsw", bytes "vctxsw", bytes "nvctxsw", bytes "syscalls",
                bytes "intrs", bytes "softintrs"], rfl, by decide⟩
  | false =>
      cases s.cpu with
      | none => exact ⟨[], rfl, List.nodup_nil⟩
      | some c =>
          exact ⟨[bytes "user", bytes "kernel", bytes "idle", bytes "iowait", bytes "swap", bytes "nice",
            bytes "total", bytes "systime", bytes "ctxsw", bytes "vctxsw", bytes "nvctxsw", bytes "syscalls",
            bytes "intrs", bytes "softintrs"], rfl, by decide⟩

theorem populateMem_plain (s : Snapshot F) : Plain (bytes "mem") (populateMem s) :=
  plain_ofReturned [bytes "total", bytes "free", bytes "used", bytes "cache"] s.mem
    fun _ => ⟨rfl, by decide⟩

theorem populateLoad_plain (s : Snapshot F) : Plain (bytes "load") (populateLoad s) :=
  plain_ofReturned [bytes "min1", bytes "min5", bytes "min15"] s.load fun _ => ⟨rfl, by decide⟩

theorem populateSwap_plain (s : Snapshot F) : Plain (bytes "swap") (populateSwap s) :=
  plain_ofReturned [bytes "total", bytes "used", bytes "free"] s.swap fun _ => ⟨rfl, by decide⟩

theorem populateGeneral_plain (s : Snapshot F) : Plain (bytes "general") (populateGeneral s) :=
  plain_ofReturned [bytes "os_name", bytes "os_release", bytes "os_version", bytes "platform",
    bytes "hostname", bytes "ncpus", bytes "ncpus_cfg", bytes "bitwidth", bytes "hoststate", bytes "uptime"]
    s.host fun _ => ⟨rfl, by decide⟩

theorem populateProc_plain (s : Snapshot F) : Plain (bytes "proc") (populateProc s) :=
  plain_ofReturned [bytes "total", bytes "running", bytes "sleeping", bytes "stopped",
    bytes "zombie"] s.proc fun _ => ⟨rfl, by decide⟩

theorem populatePage_plain (s : Snapshot F) : Plain (bytes "page") (populatePage s) :=
  plain_ofReturned [bytes "in", bytes "out", bytes "systime"] s.page fun _ => ⟨rfl, by decide⟩

/-! #### Sections with rows -/

/-- The calls of a row are for the fields of its section, which are all different. -/
structure RowFields (name key : CString) (fields : List CString) (calls : List (ShownStat F)) : Prop where
  parts : calls.map ShownStat.parts = fields.map fun field => [name, key, field]
  nodup : (fields.map sanitise).Nodup

theorem RowFields.inSection {name key : CString} {fields : List CString} {calls : List (ShownStat F)}
    (h : RowFields name key fields calls) : InSection name calls := by
  intro call hcall
  have hmem := List.mem_map_of_mem (f := ShownStat.parts) hcall
  rw [h.parts] at hmem
  obtain ⟨field, -, hparts⟩ := List.mem_map.mp hmem
  exact ⟨key, [field], hparts.symm⟩

theorem RowFields.keys {name key : CString} {fields : List CString} {calls : List (ShownStat F)}
    (h : RowFields name key fields calls) :
    calls.map ShownStat.key = (fields.map sanitise).map fun field => [sanitise name, sanitise key, field] := by
  rw [keys_of_parts h.parts, List.map_map]
  rfl

theorem RowFields.keys_nodup {name key : CString} {fields : List CString} {calls : List (ShownStat F)}
    (h : RowFields name key fields calls) : (calls.map ShownStat.key).Nodup := by
  rw [h.keys]
  exact h.nodup.map fun a b hab => by simpa using hab

theorem RowFields.key_of_mem {name key : CString} {fields : List CString} {calls : List (ShownStat F)}
    (h : RowFields name key fields calls) {k : List CString} (hk : k ∈ calls.map ShownStat.key) :
    k[1]? = some (sanitise key) := by
  rw [h.keys] at hk
  obtain ⟨field, -, rfl⟩ := List.mem_map.mp hk
  rfl

/-- The names of a section with rows are different just where the rows are, if all rows have some field. -/
theorem rows_nodup_iff {β : Type} {name : CString} (common : CString) {fields : β → List CString}
    (hcommon : ∀ row, common ∈ fields row) {key : β → CString} {f : β → List (ShownStat F)}
    (h : ∀ row, RowFields name (key row) (fields row) (f row)) (rows : List β) :
    ((rows.flatMap f).map ShownStat.key).Nodup ↔ (rows.map fun row => sanitise (key row)).Nodup := by
  rw [List.map_flatMap, List.nodup_flatMap]
  have hmem : ∀ row, [sanitise name, sanitise (key row), sanitise common] ∈ (f row).map ShownStat.key := by
    intro row
    rw [(h row).keys]
    exact List.mem_map_of_mem (List.mem_map_of_mem (hcommon row))
  have hrows : ∀ row row', List.Disjoint ((f row).map ShownStat.key) ((f row').map ShownStat.key)
      ↔ sanitise (key row) ≠ sanitise (key row') := by
    intro row row'
    constructor
    · intro hdisjoint hsame
      apply hdisjoint (hmem row)
      rw [hsame]
      exact hmem row'
    · intro hdiff k hk hk'
      have hsame := ((h row).key_of_mem hk).symm.trans ((h row').key_of_mem hk')
      exact hdiff (Option.some.inj hsame)
  have hnodup : ∀ row ∈ rows, ((f row).map ShownStat.key).Nodup := fun row _ => (h row).keys_nodup
  rw [and_iff_right hnodup, List.Nodup, List.pairwise_map]
  exact List.Pairwise.iff fun a b => hrows a b

theorem userCalls_fields (u : ShownUser) : RowFields (bytes "user") u.tty
    [bytes "login_name", bytes "tty", bytes "from", bytes "login_time"] (userCalls (F := F) u) :=
  ⟨rfl, by decide⟩

theorem fsCalls_fields (d : ShownFs) : RowFields (bytes "fs") (fsKey d.device)
    [bytes "device_name", bytes "device_canonical", bytes "fs_type", bytes "mnt_point", bytes "size",
      bytes "used", bytes "avail", bytes "total_inodes", bytes "used_inodes", bytes "free_inodes",
      bytes "avail_inodes", bytes "io_size", bytes "block_size", bytes "total_blocks", bytes "free_blocks",
      bytes "avail_blocks", bytes "used_blocks"] (fsCalls (F := F) d) :=
  ⟨rfl, by decide⟩

theorem diskCalls_fields (d : ShownDisk) : RowFields (bytes "disk") d.name
    [bytes "disk_name", bytes "read_bytes", bytes "write_bytes", bytes "systime"] (diskCalls (F := F) d) :=
  ⟨rfl, by decide⟩

def ioFields : List CString :=
  [bytes "interface_name", bytes "tx", bytes "rx", bytes "ipackets", bytes "opackets", bytes "ierrors",
    bytes "oerrors", bytes "collisions", bytes "systime"]

theorem ioCalls_fields (d : ShownIo) : RowFields (bytes "net") d.name ioFields (ioCalls (F := F) d) :=
  ⟨rfl, by decide⟩

def ifaceFields (io : List ShownIo) (d : ShownIface) : List CString :=
  (if hadIo io d.name then [] else [bytes "interface_name"]) ++ [bytes "speed", bytes "up", bytes "duplex"]

theorem ifaceCalls_fields (io : List ShownIo) (d : ShownIface) :
    RowFields (bytes "net") d.name (ifaceFields io d) (ifaceCalls (F := F) io d) := by
  rw [ifaceFields, ifaceCalls]
  cases hadIo io d.name with
  | true => exact ⟨rfl, by decide⟩
  | false => exact ⟨rfl, by decide⟩

theorem populateFs_nodup_iff (s : Snapshot F) : ((populateFs s).map ShownStat.key).Nodup ↔
    ((s.fs.getD []).map fun d => sanitise (fsKey d.device)).Nodup := by
  rw [← rows_nodup_iff (bytes "size") (fun _ => by decide) fsCalls_fields, populateFs]
  cases s.fs with
  | none => rfl
  | some fs => rfl

theorem populateDisk_nodup_iff (s : Snapshot F) : ((populateDisk s).map ShownStat.key).Nodup ↔
    ((s.disk.getD []).map fun d => sanitise d.name).Nodup := by
  rw [← rows_nodup_iff (bytes "systime") (fun _ => by decide) diskCalls_fields, populateDisk]
  cases s.disk with
  | none => rfl
  | some disk => rfl

theorem userTotals_fields (users : List ShownUser) :
    Fields (bytes "user") [bytes "num", bytes "names"] (userTotals (F := F) users) :=
  ⟨rfl, by decide⟩

theorem populateUser_nodup_iff (s : Snapshot F) : ((populateUser s).map ShownStat.key).Nodup ↔
    ((s.users.getD []).map fun u => sanitise u.tty).Nodup := by
  rw [← rows_nodup_iff (bytes "tty") (fun _ => by decide) (userCalls_fields (F := F)), populateUser]
  cases s.users with
  | none => rfl
  | some users =>
      have htotals := userTotals_fields (F := F) users
      -- the keys of the two totals have no terminal in them
      have hdisjoint : List.Disjoint ((users.flatMap (userCalls (F := F))).map ShownStat.key)
          ((userTotals (F := F) users).map ShownStat.key) := by
        intro k hk hk'
        rw [List.map_flatMap] at hk
        obtain ⟨u, -, hk⟩ := List.mem_flatMap.mp hk
        rw [(userCalls_fields u).keys] at hk
        rw [keys_of_parts htotals.parts] at hk'
        obtain ⟨field, -, rfl⟩ := List.mem_map.mp hk
        obtain ⟨field', -, hsame⟩ := List.mem_map.mp hk'
        have hlength := congrArg List.length hsame
        simp at hlength
      rw [ofReturned, Option.getD_some, List.map_append, List.nodup_append']
      exact and_iff_left ⟨htotals.keys_nodup, hdisjoint⟩

theorem hadIo_iff {io : List ShownIo} {name : CString} : hadIo io name = true ↔ ∃ d ∈ io, d.name = name := by
  rw [hadIo, List.any_eq_true]
  simp only [decide_eq_true_eq, strcmp_eq_iff]

/-- The two loops add no name twice where an interface of both has one name. -/
theorem io_iface_disjoint_iff (io : List ShownIo) (iface : List ShownIface) :
    List.Disjoint ((io.flatMap (ioCalls (F := F))).map ShownStat.key)
        ((iface.flatMap (ifaceCalls (F := F) io)).map ShownStat.key) ↔
      ∀ d ∈ io, ∀ e ∈ iface, sanitise d.name = sanitise e.name → hadIo io e.name = true := by
  have hfields : ∀ f ∈ ioFields.map sanitise, f ∉ [bytes "speed", bytes "up", bytes "duplex"].map sanitise := by
    decide
  rw [List.map_flatMap, List.map_flatMap]
  constructor
  · intro hdisjoint d hd e he hsame
    by_contra hno
    -- the name of the interface is added by both loops
    apply hdisjoint (a := [bytes "net", sanitise d.name, bytes "interface_name"])
    · refine List.mem_flatMap.mpr ⟨d, hd, ?_⟩
      rw [(ioCalls_fields d).keys]
      exact List.mem_cons_self
    · refine List.mem_flatMap.mpr ⟨e, he, ?_⟩
      rw [(ifaceCalls_fields io e).keys, hsame, ifaceFields, if_neg hno]
      exact List.mem_cons_self
  · intro hhad k hk hk'
    obtain ⟨d, hd, hkd⟩ := List.mem_flatMap.mp hk
    obtain ⟨e, he, hke⟩ := List.mem_flatMap.mp hk'
    have hsame := ((ioCalls_fields d).key_of_mem hkd).symm.trans ((ifaceCalls_fields io e).key_of_mem hke)
    rw [(ioCalls_fields d).keys] at hkd
    rw [(ifaceCalls_fields io e).keys, ifaceFields, if_pos (hhad d hd e he (Option.some.inj hsame))] at hke
    obtain ⟨f, hf, rfl⟩ := List.mem_map.mp hkd
    obtain ⟨f', hf', hkey⟩ := List.mem_map.mp hke
    have hfield : f' = f := List.cons.inj (List.cons.inj (List.cons.inj hkey).2).2 |>.1
    rw [hfield] at hf'
    exact hfields f hf hf'

theorem populateNet_nodup_iff (s : Snapshot F) : ((populateNet s).map ShownStat.key).Nodup ↔
    ((s.io.getD []).map fun d => sanitise d.name).Nodup ∧ ((s.iface.getD []).map fun d => sanitise d.name).Nodup ∧
      ∀ d ∈ s.io.getD [], ∀ e ∈ s.iface.getD [], sanitise d.name = sanitise e.name → d.name = e.name := by
  have hcalls : populateNet s
      = (s.io.getD []).flatMap ioCalls ++ (s.iface.getD []).flatMap (ifaceCalls (s.io.getD [])) := by
    rw [populateNet]
    cases s.io with
    | none =>
        cases s.iface with
        | none => rfl
        | some iface => rfl
    | some io =>
        cases s.iface with
        | none => rfl
        | some iface => rfl
  rw [hcalls, List.map_append, List.nodup_append', io_iface_disjoint_iff,
    rows_nodup_iff (bytes "tx") (fun _ => by decide) ioCalls_fields,
    rows_nodup_iff (bytes "speed") (fun _ => List.mem_append_right _ List.mem_cons_self)
      (ifaceCalls_fields _)]
  apply and_congr_right
  intro hio
  apply and_congr_right
  intro _
  constructor
  · intro hhad d hd e he hsame
    obtain ⟨d', hd', hname⟩ := hadIo_iff.mp (hhad d hd e he hsame)
    rw [← hname] at hsame ⊢
    exact congrArg ShownIo.name (List.inj_on_of_nodup_map hio hd hd' hsame)
  · intro hsame d hd e he hkey
    exact hadIo_iff.mpr ⟨d, hd, hsame d hd e he hkey⟩

/-! #### All sections -/

theorem Plain.inSection {name : CString} {calls : List (ShownStat F)} (h : Plain name calls) :
    InSection name calls := by
  obtain ⟨fields, hfields⟩ := h
  exact hfields.inSection

theorem Plain.keys_nodup {name : CString} {calls : List (ShownStat F)} (h : Plain name calls) :
    (calls.map ShownStat.key).Nodup := by
  obtain ⟨fields, hfields⟩ := h
  exact hfields.keys_nodup

theorem sections_inSection (s : Snapshot F) : ∀ sec ∈ sections s, InSection sec.1 sec.2 := by
  have huser : InSection (bytes "user") (populateUser s) := .ofReturned s.users fun users =>
    .append (.flatMap fun u => (userCalls_fields u).inSection) (userTotals_fields users).inSection
  have hfs : InSection (bytes "fs") (populateFs s) :=
    .ofReturned s.fs fun _ => .flatMap fun d => (fsCalls_fields d).inSection
  have hdisk : InSection (bytes "disk") (populateDisk s) :=
    .ofReturned s.disk fun _ => .flatMap fun d => (diskCalls_fields d).inSection
  have hnet : InSection (bytes "net") (populateNet s) := .append
    (.ofReturned s.io fun _ => .flatMap fun d => (ioCalls_fields d).inSection)
    (.ofReturned s.iface fun _ => .flatMap fun e => (ifaceCalls_fields _ e).inSection)
  simp only [sections, List.forall_mem_cons, List.not_mem_nil, IsEmpty.forall_iff, implies_true, and_true]
  exact ⟨populateConst_plain.inSection, (populateCpu_plain s).inSection, (populateMem_plain s).inSection,
    (populateLoad_plain s).inSection, huser, (populateSwap_plain s).inSection, (populateGeneral_plain s).inSection,
    hfs, hdisk, (populateProc_plain s).inSection, hnet, (populatePage_plain s).inSection⟩

theorem parts_ne_nil (s : Snapshot F) : ∀ call ∈ populateCalls s, call.parts ≠ [] := by
  intro call hcall
  obtain ⟨sec, hsec, hcall⟩ := List.mem_flatMap.mp hcall
  obtain ⟨part, rest, hparts⟩ := sections_inSection s sec hsec call hcall
  rw [hparts]
  exact List.cons_ne_nil _ _

theorem sections_names (s : Snapshot F) : ((sections s).map fun sec => sanitise sec.1).Nodup := by
  show [bytes "const", bytes "cpu", bytes "mem", bytes "load", bytes "user", bytes "swap", bytes "general",
    bytes "fs", bytes "disk", bytes "proc", bytes "net", bytes "page"].Nodup
  decide

theorem sections_disjoint (s : Snapshot F) :
    (sections s).Pairwise (Function.onFun List.Disjoint fun sec => sec.2.map ShownStat.key) := by
  have hnames := sections_names s
  rw [List.Nodup, List.pairwise_map] at hnames
  refine List.Pairwise.imp_of_mem ?_ hnames
  intro a b ha hb hne k hka hkb
  obtain ⟨call, hcall, rfl⟩ := List.mem_map.mp hka
  obtain ⟨call', hcall', hsame⟩ := List.mem_map.mp hkb
  obtain ⟨part, rest, hparts⟩ := sections_inSection s a ha call hcall
  obtain ⟨part', rest', hparts'⟩ := sections_inSection s b hb call' hcall'
  rw [ShownStat.key, ShownStat.key, hparts, hparts'] at hsame
  exact hne (List.cons.inj hsame).1.symm

theorem keys_nodup_iff (s : Snapshot F) :
    ((populateCalls s).map ShownStat.key).Nodup ↔ Distinguishable s := by
  rw [populateCalls, List.map_flatMap, List.nodup_flatMap,
    and_iff_left (sections_disjoint s)]
  simp only [sections, List.forall_mem_cons, List.not_mem_nil, IsEmpty.forall_iff, implies_true, and_true]
  rw [populateUser_nodup_iff, populateFs_nodup_iff, populateDisk_nodup_iff, populateNet_nodup_iff]
  constructor
  · rintro ⟨-, -, -, -, husers, -, -, hfs, hdisk, -, ⟨hio, hiface, hsame⟩, -⟩
    exact ⟨husers, hfs, hdisk, hio, hiface, hsame⟩
  · intro h
    exact ⟨populateConst_plain.keys_nodup, (populateCpu_plain s).keys_nodup, (populateMem_plain s).keys_nodup,
      (populateLoad_plain s).keys_nodup, h.users, (populateSwap_plain s).keys_nodup,
      (populateGeneral_plain s).keys_nodup, h.fs, h.disk, (populateProc_plain s).keys_nodup,
      ⟨h.io, h.iface, h.same⟩, (populatePage_plain s).keys_nodup⟩

/-- The stats have different names just where what they are shown for can be told apart. -/
theorem populateCalls_nodup_iff (s : Snapshot F) :
    ((populateCalls s).map ShownStat.name).Nodup ↔ Distinguishable s := by
  rw [names_nodup_iff (parts_ne_nil s)]
  exact keys_nodup_iff s

end Names

end Statgrab
