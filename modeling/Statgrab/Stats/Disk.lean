import Statgrab.Access.Code

/-!
# `disk_stats.c`

The two statistics of the disk component, as they are read on Linux: the I/O counters of
`/proc/diskstats` and the mounted filesystems. What the system hands out is an input: the lines that
`sscanf` could convert, the entries of the mount table, what `statvfs` answers for each of them.
-/

namespace Statgrab

/-- `strcmp(a, b) == 0`, which must not be asked about NULL. -/
def strcmpEq (a b : Option CString) : Option Bool :=
  match a, b with
  | some a, some b => some (decide (a = b))
  | _, _ => none

/-! ### Disk I/O -/

structure DiskIoStats where
  diskName : Option CString
  readBytes : UInt64
  writeBytes : UInt64
  systime : Int
  deriving DecidableEq, Inhabited

namespace DiskIoStats

def init (d : DiskIoStats) : DiskIoStats := { d with diskName := none }

def copy (s d : DiskIoStats) : ThreadM (SgError × DiskIoStats) := do
  let (rc, diskName) ← sgUpdateString d.diskName s.diskName
  let d := { d with diskName := diskName }
  if rc ≠ .none then
    let rc ← returnFromPreviousError
    return (rc, d)
  else
    return (.none, { d with
      readBytes := s.readBytes, writeBytes := s.writeBytes, systime := s.systime })

def computeDiff (s d : DiskIoStats) : DiskIoStats :=
  { d with
    readBytes := d.readBytes - s.readBytes
    writeBytes := d.writeBytes - s.writeBytes
    systime := d.systime - s.systime }

/-- `sg_disk_io_stats_item_compare`, for equality. -/
def compare (a b : DiskIoStats) : Option Bool := strcmpEq a.diskName b.diskName

def destroy (d : DiskIoStats) : DiskIoStats := { d with diskName := none }

/-- `VECTOR_INIT_INFO_FULL_INIT(sg_disk_io_stats)`. -/
def info : VectorInitInfo DiskIoStats :=
  { itemSize := 32, initFn := some init, copyFn := some (keepSource copy), computeDiffFn := some computeDiff
    compareFn := some compare, destroyFn := some destroy }

end DiskIoStats

/-- A line of `/proc/diskstats` that was converted. -/
structure DiskLine where
  name : CString
  rsect : UInt64
  wsect : UInt64

/-- What a read of `/proc/diskstats` meets: the errno of a failed open, or the lines, where those that
`sscanf` could not convert are `none`; and the time. -/
structure DiskFile where
  lines : Except Int (List (Option DiskLine))
  now : Int

def diskItem (now : Int) (line : DiskLine) : DiskIoStats :=
  { diskName := some line.name, readBytes := line.rsect * 512, writeBytes := line.wsect * 512
    systime := now }

/-- One round of the loop in `sg_get_disk_io_stats_int`. -/
def fillDiskIo (now : Int) (line : DiskLine) : ItemFn DiskIoStats := fun item => do
  let (rc, diskName) ← sgUpdateString item.diskName (some line.name)
  if rc ≠ .none then
    let rc ← returnFromPreviousError
    return (rc, { item with diskName := diskName })
  else
    return (.none, { item with
      diskName := diskName, readBytes := line.rsect * 512, writeBytes := line.wsect * 512
      systime := now })

def sgGetDiskIoStatsInt (file : DiskFile) : FillFn DiskIoStats := fun vector =>
  match vector with
  | none => do
      let rc ← onThread (returnWithSetError .invalidArgument 0 "disk_io_stats_vector_ptr")
      return (rc, none)
  | some p =>
      match file.lines with
      | .error errno => do
          let rc ← onThread (returnWithSetError .open errno "/proc/diskstats")
          return (rc, some p)
      | .ok lines =>
          fillItems DiskIoStats.info (fillDiskIo file.now) (lines.filterMap id) 0 (some p)

/-! ### Filesystems -/

/-- `sg_fs_device_type`; the Linux code knows no other. -/
inductive FsDeviceType where
  | unknown
  deriving DecidableEq

structure FsStats where
  deviceName : Option CString
  deviceCanonical : Option CString
  fsType : Option CString
  mntPoint : Option CString
  deviceType : FsDeviceType
  size : UInt64
  used : UInt64
  free : UInt64
  avail : UInt64
  totalInodes : UInt64
  usedInodes : UInt64
  freeInodes : UInt64
  availInodes : UInt64
  ioSize : UInt64
  blockSize : UInt64
  totalBlocks : UInt64
  freeBlocks : UInt64
  usedBlocks : UInt64
  availBlocks : UInt64
  systime : Int
  deriving DecidableEq

namespace FsStats

def init (d : FsStats) : FsStats :=
  { d with deviceName := none, deviceCanonical := none, fsType := none, mntPoint := none }

/-- The four `sg_update_string` calls of `sg_fs_stats_item_copy`, up to the first that fails. -/
def copyStrings (s d : FsStats) : ThreadM (SgError × FsStats) := do
  let (rc, deviceName) ← sgUpdateString d.deviceName s.deviceName
  let d := { d with deviceName := deviceName }
  if rc ≠ .none then return (rc, d)
  else
    let (rc, deviceCanonical) ← sgUpdateString d.deviceCanonical s.deviceCanonical
    let d := { d with deviceCanonical := deviceCanonical }
    if rc ≠ .none then return (rc, d)
    else
      let (rc, fsType) ← sgUpdateString d.fsType s.fsType
      let d := { d with fsType := fsType }
      if rc ≠ .none then return (rc, d)
      else
        let (rc, mntPoint) ← sgUpdateString d.mntPoint s.mntPoint
        return (rc, { d with mntPoint := mntPoint })

def copy (s d : FsStats) : ThreadM (SgError × FsStats) := do
  let (rc, d) ← copyStrings s d
  if rc ≠ .none then
    let rc ← returnFromPreviousError
    return (rc, d)
  else
    return (.none, { d with
      deviceType := s.deviceType
      size := s.size
      used := s.used
      free := s.free
      avail := s.avail
      totalInodes := s.totalInodes
      usedInodes := s.usedInodes
      freeInodes := s.freeInodes
      availInodes := s.availInodes
      ioSize := s.ioSize
      blockSize := s.blockSize
      totalBlocks := s.totalBlocks
      freeBlocks := s.freeBlocks
      usedBlocks := s.usedBlocks
      availBlocks := s.availBlocks
      systime := s.systime })

/-- `sg_fs_stats_item_compute_diff`. Neither `free` nor `systime` is subtracted. -/
def computeDiff (s d : FsStats) : FsStats :=
  { d with
    size := d.size - s.size
    used := d.used - s.used
    avail := d.avail - s.avail
    totalInodes := d.totalInodes - s.totalInodes
    usedInodes := d.usedInodes - s.usedInodes
    freeInodes := d.freeInodes - s.freeInodes
    availInodes := d.availInodes - s.availInodes
    ioSize := d.ioSize - s.ioSize
    blockSize := d.blockSize - s.blockSize
    totalBlocks := d.totalBlocks - s.totalBlocks
    freeBlocks := d.freeBlocks - s.freeBlocks
    usedBlocks := d.usedBlocks - s.usedBlocks
    availBlocks := d.availBlocks - s.availBlocks }

/-- `sg_fs_stats_item_compare`, for equality: the first string that differs decides. -/
def compare (a b : FsStats) : Option Bool := do
  if !(← strcmpEq a.deviceName b.deviceName) then return false
  if !(← strcmpEq a.deviceCanonical b.deviceCanonical) then return false
  if !(← strcmpEq a.mntPoint b.mntPoint) then return false
  strcmpEq a.fsType b.fsType

/-- `sg_fs_stats_item_destroy`: the strings are given back, and the fields are not written. -/
def destroy (d : FsStats) : FsStats := d

/-- `VECTOR_INIT_INFO_FULL_INIT(sg_fs_stats)`. -/
def info : VectorInitInfo FsStats :=
  { itemSize := 160, initFn := some init, copyFn := some (keepSource copy), computeDiffFn := some computeDiff
    compareFn := some compare, destroyFn := some destroy }

end FsStats

/-- The fields of `struct statvfs` that are read. -/
structure StatVfs where
  bsize : UInt64
  frsize : UInt64
  blocks : UInt64
  bfree : UInt64
  bavail : UInt64
  files : UInt64
  ffree : UInt64
  favail : UInt64

/-- An entry of the mount table, with the links `realpath` resolves its device to, one after the
other. -/
structure Mount where
  fsName : CString
  dir : CString
  type : CString
  links : List CString

/-- What a read of the filesystems meets: the errno of a failed `setmntent`, or the entries of the
mount table and the errno that is left after the last one; what `statvfs` answers for each entry, and
the time; and the list of valid filesystem types. -/
structure MountTable where
  mounts : Except Int (List Mount)
  errnoAfter : Int
  now : Int
  statvfs : Nat → Except Int StatVfs
  statTime : Nat → Int
  validTypes : List CString

def lowerAscii (c : UInt8) : UInt8 := if 65 ≤ c ∧ c ≤ 90 then c + 32 else c

/-- `is_valid_fs_type`: a search in a sorted list, by `strcasecmp`. -/
def isValidFsType (validTypes : List CString) : Option CString → Bool
  | none => false
  | some type => validTypes.any fun v => v.map lowerAscii = type.map lowerAscii

/-- The `while` loop that resolves the links of a device. -/
def resolveLinks : List CString → ItemFn FsStats
  | [], item => return (.none, item)
  | link :: links, item => do
      let (rc, deviceCanonical) ← sgUpdateString item.deviceCanonical (some link)
      let item := { item with deviceCanonical := deviceCanonical }
      if rc ≠ .none then return (rc, item) else resolveLinks links item

def mountStrings (mount : Mount) (item : FsStats) : FsStats :=
  { item with
    deviceName := some mount.fsName, deviceCanonical := some mount.fsName
    fsType := some mount.type, mntPoint := some mount.dir }

/-- One round of the loop in `sg_get_fs_list_int`. -/
def fillFsList (now : Int) (mount : Mount) : ItemFn FsStats := fun item => do
  let (rc, item) ← FsStats.copyStrings (mountStrings mount item) item
  if rc ≠ .none then return (rc, item)
  else
    let (rc, item) ← resolveLinks mount.links item
    if rc ≠ .none then return (rc, item)
    else return (.none, { item with deviceType := .unknown, systime := now })

def sgGetFsListInt (table : MountTable) : FillFn FsStats := fun vector =>
  match table.mounts with
  | .error errno => do
      let rc ← onThread (returnWithSetError .setmntent errno "")
      return (rc, vector)
  | .ok mounts => do
      let (rc, vector) ← fillItems FsStats.info (fillFsList table.now) mounts 0 vector
      if rc ≠ .none then return (rc, vector)
      else if table.errnoAfter ≠ 0 then
        let rc ← onThread (returnWithSetError .diskinfo table.errnoAfter "getmntent")
        return (rc, vector)
      else return (.none, vector)

/-- The numbers of `sg_fill_fs_stat_int`. -/
def withStatVfs (fs : StatVfs) (statTime : Int) (item : FsStats) : FsStats :=
  let usedBlocks := fs.blocks - fs.bfree
  { item with
    totalInodes := fs.files
    freeInodes := fs.ffree
    availInodes := fs.favail
    usedInodes := fs.files - fs.ffree
    ioSize := fs.bsize
    blockSize := fs.frsize
    totalBlocks := fs.blocks
    freeBlocks := fs.bfree
    availBlocks := fs.bavail
    usedBlocks := usedBlocks
    size := fs.frsize * fs.blocks
    avail := fs.frsize * fs.bavail
    free := fs.frsize * fs.bfree
    used := fs.frsize * usedBlocks
    systime := statTime }

/-- The text of a string in an error message. -/
def showString : Option CString → String
  | none => "(null)"
  | some s => String.ofList (s.map fun c => Char.ofNat c.toNat)

/-- `sg_fill_fs_stat_int` for the filesystem `i` of the list. -/
def sgFillFsStatInt (table : MountTable) (i : Nat) : ItemFn FsStats := fun item =>
  match table.statvfs i with
  | .error errno => do
      let rc ← returnWithSetError .diskinfo errno ("statvfs for mnt_point at " ++
        showString item.mntPoint ++ " (device: " ++ showString item.deviceName ++ ", fs_type: " ++
        showString item.fsType ++ ")")
      return (rc, item)
  | .ok fs => return (.none, withStatVfs fs (table.statTime i) item)

/-- The loop that fills the listed filesystems from the last to the first, here with `i` of them left:
the bits of the valid ones, and how many there are. -/
def fillValid (table : MountTable) (tmp : Ptr) : Nat → BitTable × Nat → VecM FsStats (BitTable × Nat)
  | 0, found => return found
  | i + 1, (valid, n) => do
      let v ← deref tmp
      touch v (i + 1)
      if isValidFsType table.validTypes (v.cells i).fsType then
        let rc ← onItem tmp i (sgFillFsStatInt table i)
        if rc ≠ .none then fillValid table tmp i (valid, n)
        else fillValid table tmp i (valid.set i, n + 1)
      else fillValid table tmp i (valid, n)

/-- `BIT_SCAN_FWD`, within a table of which `fuel` bits are left. -/
def bitScanFwd (valid : BitTable) : Nat → Nat → Option Nat
  | 0, _ => none
  | fuel + 1, i => if valid.isSet i then some i else bitScanFwd valid fuel (i + 1)

/-- The loop that copies the valid filesystems, here with `fuel` of them left: from the item `i` of
`tmp` on to the item `j` of the target. What the copy returns is not looked at. -/
def copyValid (tmp items : Ptr) (valid : BitTable) : Nat → Nat → Nat → VecM FsStats Unit
  | 0, _, _ => return ()
  | fuel + 1, i, j => do
      let t ← deref tmp
      match bitScanFwd valid ((t.usedCount / 32 + 1) * 32 - i) i with
      | none => Prog.fault .outOfBlock
      | some i =>
          -- leaving the loop early would fail the assertion after it
          if t.usedCount ≤ i then Prog.fault .outOfBlock
          else
            touch t (i + 1)
            let _ ← onItem items j (FsStats.copy (t.cells i))
            copyValid tmp items valid fuel (i + 1) (j + 1)

/-- The first part of `sg_get_fs_stats_int`: which of the listed filesystems are valid. -/
def validFs (table : MountTable) (err : SgError) (tmp : Option Ptr) : VecM FsStats (BitTable × Nat) :=
  match tmp with
  | none => return (.zero, 0)
  | some t =>
      if err = .none then do
        let v ← deref t
        fillValid table t v.usedCount (.zero, 0)
      else return (.zero, 0)

/-- The second part of `sg_get_fs_stats_int`: the valid filesystems are copied to the vector. -/
def storeFs (err : SgError) (tmp : Option Ptr) (valid : BitTable) (n : Nat) : FillFn FsStats :=
  fun vector =>
    vectorUpdate FsStats.info vector (.count n) fun vector => do
      match tmp, vector with
      | some t, some p => copyValid t p valid n 0 0
      | _, _ => pure ()
      sgVectorFree tmp
      return (err, vector)

def sgGetFsStatsInt (table : MountTable) : FillFn FsStats := fun vector => do
  let (err, tmp) ← sgGetFsListInt table none
  let (valid, n) ← validFs table err tmp
  storeFs err tmp valid n vector

end Statgrab
