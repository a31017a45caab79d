import Statgrab.Access.ErrorContract
import Statgrab.Stats.Meminfo
import Statgrab.Stats.Swap

/-!
# Load, swap and host on Linux

The readers of the other statistics with one item. The averages come from `getloadavg`, whose result is not
looked at, the sums of the swap areas from two lines of `/proc/meminfo`, and what is known of the host from
`uname`, `/proc/uptime` and `sysconf`.
-/

namespace Statgrab

open Text Scanf
open scoped UInt64.CommRing

/-! ### Load -/

/-- `sg_load_stats`, over the type of its `double`s. -/
structure LoadStats (F : Type) where
  min1 : F
  min5 : F
  min15 : F
  systime : Int
  deriving DecidableEq

/-- `sg_get_load_stats_int`, with what `getloadavg` leaves in its array, and the time. -/
def sgGetLoadStatsInt {F : Type} (loadav : Fin 3 → F) (now : Int) : ItemFn (LoadStats F) := fun _ =>
  return (.none, ⟨loadav 0, loadav 1, loadav 2, now⟩)

/-- `VECTOR_INIT_INFO_EMPTY_INIT(sg_load_stats)`. -/
def LoadStats.info {F : Type} : VectorInitInfo (LoadStats F) :=
  { itemSize := 32, initFn := none, copyFn := none, computeDiffFn := none, compareFn := none
    destroyFn := none }

/-! ### Swap -/

/-- The loop over the lines of `/proc/meminfo`, with `found` lines found so far. -/
def scanSwap : List (List UInt8) → Nat → SwapStats → SwapStats × Nat
  | [], found, buf => (buf, found)
  | line :: lines, found, buf =>
      if 2 ≤ found then (buf, found)
      else
        match (scanf (bytes "%*s %llu kB") (upToNul line)).1 with
        | [.number value] =>
            let value := UInt64.ofInt value * 1024
            if startsWith (upToNul line) (bytes "SwapTotal:") then
              scanSwap lines (found + 1) { buf with total := value }
            else if startsWith (upToNul line) (bytes "SwapFree:") then
              scanSwap lines (found + 1) { buf with free := value }
            else scanSwap lines found buf
        | _ => scanSwap lines found buf

/-- `sg_get_swap_stats_int`, with `/proc/meminfo` unless it cannot be opened, and the time. -/
def Linux.sgGetSwapStatsInt (file : Except Int Stream) (now : Int) : ItemFn SwapStats := fun buf =>
  match file with
  | .error errno => do
      let rc ← returnWithSetError .open errno "/proc/meminfo"
      return (rc, buf.zeroed)
  | .ok f =>
      let (buf, found) := scanSwap (readLines 256 f) 0 buf.zeroed
      if found < 2 then do
        let rc ← returnWithSetError .parse 0 "/proc/meminfo"
        return (rc, buf)
      else return (.none, { buf with used := buf.total - buf.free, systime := now })

/-- `VECTOR_INIT_INFO_EMPTY_INIT(sg_swap_stats)`. -/
def SwapStats.info : VectorInitInfo SwapStats :=
  { itemSize := 32, initFn := none, copyFn := none, computeDiffFn := none, compareFn := none
    destroyFn := none }

/-! ### Host -/

inductive SgHostState where
  | unknownConfiguration
  | physicalHost
  | virtualMachine
  | paravirtualMachine
  | hardwareVirtualized
  deriving DecidableEq, Repr

def SgHostState.value : SgHostState → Nat
  | .unknownConfiguration => 0
  | .physicalHost => 1
  | .virtualMachine => 2
  | .paravirtualMachine => 3
  | .hardwareVirtualized => 4

structure HostInfo where
  osName : Option CString
  osRelease : Option CString
  osVersion : Option CString
  platform : Option CString
  hostname : Option CString
  bitwidth : UInt32
  hostState : SgHostState
  ncpus : UInt32
  maxcpus : UInt32
  uptime : Int
  systime : Int
  deriving DecidableEq

structure Utsname where
  sysname : CString
  release : CString
  version : CString
  machine : CString
  nodename : CString

/-- What a read of the host meets: the answers of `uname`, of the open of `/proc/uptime`, of `sysconf` about the
processors and the bits of a `long`, and of `access` about the two files of a 64 bit kernel; and the time. -/
structure HostSource where
  uname : Except Int Utsname
  uptime : Except Int Stream
  nprocessorsOnln : UInt32
  nprocessorsConf : UInt32
  vsyscall64 : Bool
  vsyscall32 : Bool
  longBit : UInt32
  now : Int

def copyMember (get : HostInfo → Option CString) (set : HostInfo → Option CString → HostInfo) (src : CString) :
    ItemFn HostInfo := fun buf => do
  let (rc, s) ← sgUpdateString (get buf) (some src)
  return (rc, set buf s)

/-- The five strings of `uname`. -/
def utsnameCopies (os : Utsname) : List (ItemFn HostInfo) :=
  [copyMember HostInfo.osName (fun buf s => { buf with osName := s }) os.sysname,
    copyMember HostInfo.osRelease (fun buf s => { buf with osRelease := s }) os.release,
    copyMember HostInfo.osVersion (fun buf s => { buf with osVersion := s }) os.version,
    copyMember HostInfo.platform (fun buf s => { buf with platform := s }) os.machine,
    copyMember HostInfo.hostname (fun buf s => { buf with hostname := s }) os.nodename]

/-- `fscanf(f, "%ld %*d", ..)`: the number, if there is one. -/
def scanUptime (f : Stream) : Option Int :=
  match (scanf (bytes "%ld %*d") f.bytes).1 with
  | [.number uptime] => some uptime
  | _ => none

/-- The part of `sg_get_host_info_int` from `/proc/uptime` on. -/
def readUptime (src : HostSource) : ItemFn HostInfo := fun buf =>
  match src.uptime with
  | .error errno => do
      let rc ← returnWithSetError .open errno "/proc/uptime"
      return (rc, buf)
  | .ok f =>
      match scanUptime f with
      | some uptime =>
          return (.none, { buf with
            uptime := uptime
            ncpus := src.nprocessorsOnln
            maxcpus := src.nprocessorsConf
            bitwidth := if src.vsyscall64 || src.vsyscall32 then 64 else src.longBit
            hostState := .unknownConfiguration
            systime := src.now })
      | none => do
          let rc ← returnWithSetError .parse 0 ""
          return (rc, buf)

def HostInfo.cleared (buf : HostInfo) : HostInfo :=
  { buf with
    ncpus := 0, maxcpus := 0, bitwidth := 0, hostState := .unknownConfiguration, uptime := 0, systime := 0 }

def sgGetHostInfoInt (src : HostSource) : ItemFn HostInfo := fun buf =>
  match src.uname with
  | .error errno => do
      let rc ← returnWithSetError .uname errno ""
      return (rc, buf.cleared)
  | .ok os => do
      let (rc, buf) ← runCopies (utsnameCopies os) buf.cleared
      if rc ≠ .none then
        let rc ← returnFromPreviousError
        return (rc, buf)
      else readUptime src buf

/-- `sg_os_stats_item_init`, under the second name of the type. -/
def HostInfo.zero : HostInfo := ⟨none, none, none, none, none, 0, .unknownConfiguration, 0, 0, 0, 0⟩

/-- `VECTOR_INIT_INFO_FULL_INIT(sg_os_stats)`. Three of the functions are defined to be NULL. -/
def HostInfo.info : VectorInitInfo HostInfo :=
  { itemSize := 72, initFn := some fun _ => .zero, copyFn := none, computeDiffFn := none, compareFn := none
    destroyFn := some fun _ => .zero }

/-! ### The errors -/

theorem Linux.sgGetSwapStatsInt_error {file : Except Int Stream} {now : Int} {y x : SwapStats} {t t' : Thread}
    {rc : SgError} (h : Linux.sgGetSwapStatsInt file now y t = .ok ((rc, x), t')) (hne : rc ≠ .none) :
    t'.error = rc := by
  cases file with
  | error errno =>
      cases h
      rfl
  | ok f =>
      rw [Linux.sgGetSwapStatsInt] at h
      simp only at h
      by_cases hfound : (scanSwap (readLines 256 f) 0 y.zeroed).2 < 2
      · rw [if_pos hfound] at h
        cases h
        rfl
      · rw [if_neg hfound] at h
        cases h
        exact absurd rfl hne

theorem readUptime_error {src : HostSource} {y x : HostInfo} {t t' : Thread} {rc : SgError}
    (h : readUptime src y t = .ok ((rc, x), t')) (hne : rc ≠ .none) : t'.error = rc := by
  match huptime : src.uptime with
  | .error errno =>
      rw [readUptime, huptime] at h
      cases h
      rfl
  | .ok f =>
      rw [readUptime, huptime] at h
      simp only at h
      cases hscan : scanUptime f with
      | some uptime =>
          rw [hscan] at h
          cases h
          exact absurd rfl hne
      | none =>
          rw [hscan] at h
          cases h
          rfl

theorem utsnameCopies_leaveErrors (os : Utsname) : ItemFn.LeavesErrors (runCopies (utsnameCopies os)) := by
  have hmember : ∀ get set src, ItemFn.LeavesErrors (copyMember get set src) := by
    intro get set src buf t rc x t' h hne
    obtain ⟨⟨rc1, s⟩, t1, hupdate, h⟩ := Prog.bind_eq_ok.mp h
    cases h
    rw [sgUpdateString_refused hupdate hne]
    decide
  apply runCopies_leavesErrors
  intro fn hfn
  simp only [utsnameCopies, List.mem_cons, List.not_mem_nil, or_false] at hfn
  rcases hfn with rfl | rfl | rfl | rfl | rfl <;> exact hmember _ _ _

theorem sgGetHostInfoInt_error {src : HostSource} {y x : HostInfo} {t t' : Thread} {rc : SgError}
    (h : sgGetHostInfoInt src y t = .ok ((rc, x), t')) (hne : rc ≠ .none) : t'.error = rc := by
  match huname : src.uname with
  | .error errno =>
      rw [sgGetHostInfoInt, huname] at h
      cases h
      rfl
  | .ok os =>
      rw [sgGetHostInfoInt, huname] at h
      obtain ⟨⟨rc1, buf⟩, t1, -, hrest⟩ := Prog.bind_eq_ok.mp h
      by_cases hrc1 : rc1 = .none
      · simp only [hrc1, ne_eq, not_true_eq_false, if_false] at hrest
        exact readUptime_error hrest hne
      · simp only [ne_eq, hrc1, not_false_eq_true, if_true] at hrest
        cases hrest
        rfl

theorem sgGetMemStatsInt_error {file : Except Int Stream} {now : Int} {y x : MemStats} {t t' : Thread}
    {rc : SgError} (h : sgGetMemStatsInt file now y t = .ok ((rc, x), t')) (hne : rc ≠ .none) :
    t'.error = rc := by
  cases file with
  | error errno =>
      cases h
      rfl
  | ok f =>
      cases h
      exact absurd rfl hne

end Statgrab
