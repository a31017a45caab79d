import Statgrab.Stats.Disk

/-!
# `network_stats.c`

The I/O counters of the network interfaces, as they are read on Linux from `/proc/net/dev`, and the
items of the interface statistics.
-/

namespace Statgrab

structure NetworkIoStats where
  interfaceName : Option CString
  tx : UInt64
  rx : UInt64
  ipackets : UInt64
  opackets : UInt64
  ierrors : UInt64
  oerrors : UInt64
  collisions : UInt64
  systime : Int
  deriving DecidableEq

/-- `transfer_diff`: the counters are 32 bits wide and wrap around. The comparison is a signed one. -/
def transferDiff (new old : UInt64) : UInt64 :=
  if old.toInt64 ≤ new.toInt64 then new - old else 0x100000000 + new - old

namespace NetworkIoStats

def init (_ : NetworkIoStats) : NetworkIoStats := ⟨none, 0, 0, 0, 0, 0, 0, 0, 0⟩

def copy (s d : NetworkIoStats) : ThreadM (SgError × NetworkIoStats) := do
  let (rc, interfaceName) ← sgUpdateString d.interfaceName s.interfaceName
  let d := { d with interfaceName := interfaceName }
  if rc ≠ .none then
    let rc ← returnFromPreviousError
    return (rc, d)
  else
    return (.none, { d with
      tx := s.tx
      rx := s.rx
      ipackets := s.ipackets
      opackets := s.opackets
      ierrors := s.ierrors
      oerrors := s.oerrors
      collisions := s.collisions
      systime := s.systime })

def computeDiff (s d : NetworkIoStats) : NetworkIoStats :=
  { d with
    tx := transferDiff d.tx s.tx
    rx := transferDiff d.rx s.rx
    ipackets := transferDiff d.ipackets s.ipackets
    opackets := transferDiff d.opackets s.opackets
    ierrors := transferDiff d.ierrors s.ierrors
    oerrors := transferDiff d.oerrors s.oerrors
    collisions := transferDiff d.collisions s.collisions
    systime := d.systime - s.systime }

/-- `sg_network_io_stats_item_compare`, for equality. -/
def compare (a b : NetworkIoStats) : Option Bool := strcmpEq a.interfaceName b.interfaceName

def destroy (d : NetworkIoStats) : NetworkIoStats := { d with interfaceName := none }

/-- `VECTOR_INIT_INFO_FULL_INIT(sg_network_io_stats)`. -/
def info : VectorInitInfo NetworkIoStats :=
  { itemSize := 72, initFn := some init, copyFn := some (keepSource copy), computeDiffFn := some computeDiff
    compareFn := some compare, destroyFn := some destroy }

end NetworkIoStats

inductive IfaceDuplex where
  | full
  | half
  | unknown
  deriving DecidableEq, Repr

inductive IfaceUpdown where
  | down
  | up
  deriving DecidableEq, Repr

structure NetworkIfaceStats where
  interfaceName : Option CString
  speed : UInt64
  factor : UInt64
  duplex : IfaceDuplex
  up : IfaceUpdown
  systime : Int
  deriving DecidableEq

namespace NetworkIfaceStats

/-- The item `sg_network_iface_stats_item_init` leaves. -/
def initial : NetworkIfaceStats := ⟨none, 0, 0, .unknown, .down, 0⟩

def init (_ : NetworkIfaceStats) : NetworkIfaceStats := initial

/-- `sg_network_iface_stats_item_copy(d, s)`: it writes to its first argument. -/
def copy (d s : NetworkIfaceStats) : ThreadM (SgError × NetworkIfaceStats) := do
  let (rc, interfaceName) ← sgUpdateString d.interfaceName s.interfaceName
  let d := { d with interfaceName := interfaceName }
  if rc ≠ .none then
    let rc ← returnFromPreviousError
    return (rc, d)
  else
    return (.none, { d with
      speed := s.speed, factor := s.factor, duplex := s.duplex, up := s.up, systime := s.systime })

/-- `sg_network_iface_stats_item_destroy`: the field is not written. -/
def destroy (d : NetworkIfaceStats) : NetworkIfaceStats := d

/-- The function as it is registered, called with the source and the target. -/
def copyFn (src dst : NetworkIfaceStats) :
    ThreadM (SgError × NetworkIfaceStats × NetworkIfaceStats) := do
  let (rc, first) ← copy src dst
  return (rc, first, dst)

/-- `VECTOR_INIT_INFO_FULL_INIT(sg_network_iface_stats)`. -/
def info : VectorInitInfo NetworkIfaceStats :=
  { itemSize := 40, initFn := some init, copyFn := some copyFn, computeDiffFn := none
    compareFn := none, destroyFn := some destroy }

end NetworkIfaceStats

/-- A line of `/proc/net/dev` that matched `network_io_rx`: the name and its numbers, in the order of
the matches, and the time at which it was read. -/
structure NetworkLine where
  name : CString
  rx : UInt64
  ipackets : UInt64
  ierrors : UInt64
  tx : UInt64
  opackets : UInt64
  oerrors : UInt64
  collisions : UInt64
  systime : Int

/-- What a read of `/proc/net/dev` meets: the errno of a failed open, the errno of a file without its
two title lines, or the lines, where those that did not match are `none`. -/
inductive NetworkFile where
  | unopened (errno : Int)
  | untitled (errno : Int)
  | titled (lines : List (Option NetworkLine))

def strndupError : ErrorGlob := ⟨.malloc, enomem, "sg_get_string_match: couldn't strndup()"⟩

/-- `sg_get_string_match`: the string of a match, or NULL with an error set. -/
def sgGetStringMatch (match_ : CString) : ThreadM (Option CString) := fun t =>
  if t.mem 0 then .ok (some match_, t.answered)
  else .ok (none, { t.answered with glob := strndupError })

def networkItem (line : NetworkLine) : NetworkIoStats :=
  { interfaceName := some line.name, tx := line.tx, rx := line.rx, ipackets := line.ipackets
    opackets := line.opackets, ierrors := line.ierrors, oerrors := line.oerrors
    collisions := line.collisions, systime := line.systime }

/-- One round of the loop in `sg_get_network_io_stats_int`. A name that could not be copied is not an
error here. -/
def fillNetworkIo (line : NetworkLine) : ItemFn NetworkIoStats := fun _ => do
  let interfaceName ← sgGetStringMatch line.name
  return (.none, { networkItem line with interfaceName := interfaceName })

def sgGetNetworkIoStatsInt (file : NetworkFile) : FillFn NetworkIoStats := fun vector =>
  match file with
  | .unopened errno => do
      let rc ← onThread (returnWithSetError .open errno "/proc/net/dev")
      return (rc, vector)
  | .untitled errno => do
      let rc ← onThread (returnWithSetError .parse errno "/proc/net/dev")
      return (rc, vector)
  | .titled lines => fillItems NetworkIoStats.info fillNetworkIo (lines.filterMap id) 0 vector

end Statgrab
