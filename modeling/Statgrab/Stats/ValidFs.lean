import Mathlib.Data.List.TakeWhile
import Statgrab.Lib.Search
import Statgrab.Stats.Disk

/-!
# The set of valid file systems

`disk_stats.c` keeps the valid types in two globals: an array that ends with a NULL entry, and the number
of entries before it. `init_valid_fs_types` fills them from `/proc/filesystems` or from a built-in list,
`sg_set_valid_filesystems` replaces them, and the component's destroy function gives the array back.

`Settled` is what the readers rely on. The arrays on the way to it are `filled` with some names and then
NULL entries, and sorting keeps that shape.
-/

namespace Statgrab

/-- The globals of the component, and the thread that calls. -/
structure FsTypes extends Thread where
  validFileSystems : Option (List (Option CString))
  numValidFileSystems : Nat

abbrev FsTypesM := Prog Fault FsTypes

def onFsThread {β : Type} (x : ThreadM β) : FsTypesM β :=
  Prog.zoom FsTypes.toThread (fun s t => { s with toThread := t }) x

/-- The sign of `strcasecmp(a, b)`. -/
def strcasecmp (a b : CString) : Ordering := compare (a.map lowerAscii) (b.map lowerAscii)

/-- `cmp_valid_fs`: NULL entries are sorted to the end. -/
def cmpValidFs : Option CString → Option CString → Ordering
  | some a, some b => strcasecmp a b
  | some _, none => .lt
  | none, some _ => .gt
  | none, none => .eq

/-- The order `qsort` is called with. -/
def fsTypeLE (a b : Option CString) : Bool := (cmpValidFs a b).isLE

def literal (s : String) : CString := s.toUTF8.toList

/-- `VALID_FS_TYPES` on Linux. -/
def validFsTypes : List CString :=
  ["adfs", "affs", "befs", "bfs", "btrfs", "cifs", "efs", "ext2", "ext3", "ext4", "vxfs", "hfs",
    "hfsplus", "hpfs", "jffs", "jffs2", "jfs", "minix", "msdos", "nfs", "ntfs", "ocfs", "qnx4", "ramfs",
    "rootfs", "reiserfs", "sysv", "tmpfs", "v7", "udf", "ufs", "umsdos", "vfat", "xfs"].map literal

/-! ### The functions -/

def updateFsType (i : Nat) (name : CString) : FsTypesM SgError := do
  let s ← Prog.gets FsTypes.validFileSystems
  match s with
  | none => Prog.fault .nullPointer
  | some entries =>
      match entries[i]? with
      | none => Prog.fault .outOfBlock
      | some old =>
          let (rc, entry) ← onFsThread (sgUpdateString old (some name))
          Prog.modify fun s => { s with validFileSystems := some (entries.set i entry) }
          return rc

/-- `num_valid_file_systems = 0; valid_file_systems = NULL`, after the array was given back. -/
def dropFsTypes : FsTypesM Unit :=
  Prog.modify fun s => { s with validFileSystems := none, numValidFileSystems := 0 }

/-- The array grows by 16 entries, and is zeroed from the index `i` on. -/
def growFsTypes (i : Nat) : FsTypesM Bool := do
  Prog.modify fun s => { s with numValidFileSystems := s.numValidFileSystems + 16 }
  let num ← Prog.gets FsTypes.numValidFileSystems
  let ok ← onFsThread (sgRealloc (8 * (num + 1)))
  if ok then
    Prog.modify fun s => { s with
      validFileSystems :=
        s.validFileSystems.map fun entries => entries.take i ++ List.replicate (num + 1 - i) none }
  return ok

/-- The loop over the lines of `/proc/filesystems` that match, from the index `i` on: the index it ends
with, or the code of the error it leaves with. -/
def readFsTypes : Nat → List CString → FsTypesM (Except SgError Nat)
  | i, [] => return .ok i
  | i, name :: names => do
      let num ← Prog.gets FsTypes.numValidFileSystems
      let room ← if num ≤ i then growFsTypes i else pure true
      if room then
        let rc ← updateFsType i name
        if rc = .none then readFsTypes (i + 1) names
        else
          dropFsTypes
          return .error rc
      else
        dropFsTypes
        let rc ← onFsThread returnFromPreviousError
        return .error rc

/-- The loop over the built-in list, with `fuel` entries left from the index `i`. -/
def fillFsTypes : Nat → Nat → FsTypesM SgError
  | 0, _ => return .none
  | fuel + 1, i =>
      match validFsTypes[i]? with
      | none => Prog.fault .outOfBlock
      | some name => do
          let rc ← updateFsType i name
          if rc = .none then fillFsTypes fuel (i + 1) else return rc

/-- The end of `init_valid_fs_types`: the array is sorted, and cut behind the `i` entries in use. -/
def finishFsTypes (i : Nat) : FsTypesM Unit := do
  let s ← Prog.gets id
  match s.validFileSystems with
  | none => Prog.fault .nullPointer
  | some entries =>
      let num := s.numValidFileSystems
      if entries.length < num then Prog.fault .outOfBlock
      else
        let sorted := (entries.take num).mergeSort fsTypeLE ++ entries.drop num
        Prog.modify fun s => { s with validFileSystems := some sorted }
        if i < num then
          Prog.modify fun s => { s with numValidFileSystems := i }
          let ok ← onFsThread (sgRealloc (8 * (i + 1)))
          if ok then
            Prog.modify fun s => { s with validFileSystems := some (sorted.take (i + 1)) }

/-- The label `use_builtin_fs` of `init_valid_fs_types`. -/
def useBuiltinFs : FsTypesM SgError := do
  let num ← Prog.gets FsTypes.numValidFileSystems
  let ok ← onFsThread calloc
  if ok then
    Prog.modify fun s => { s with validFileSystems := some (List.replicate (num + 1) none) }
    let rc ← fillFsTypes num 0
    if rc = .none then
      finishFsTypes num
      return .none
    else return rc
  else
    Prog.modify fun s => { s with validFileSystems := none }
    onFsThread (returnWithSetError .malloc enomem "init_valid_fs_types")

/-- What is found in `/proc/filesystems`: whether its regular expression can be compiled, and the names
of the lines that match. -/
structure ProcFilesystems where
  compiles : Bool
  names : List CString

/-- `init_valid_fs_types`, with the file unless it cannot be opened. -/
def initValidFsTypes : Option ProcFilesystems → FsTypesM SgError
  | none => useBuiltinFs
  | some file => do
      Prog.modify fun s => { s with numValidFileSystems := 15 }
      let ok ← onFsThread calloc
      Prog.modify fun s => { s with
        validFileSystems := if ok then some (List.replicate 16 none) else none }
      if file.compiles then
        let r ← readFsTypes 0 file.names
        match r with
        | .error rc => return rc
        | .ok i =>
            finishFsTypes i
            return .none
      else useBuiltinFs

/-- The entries of an array are given back, and the array. -/
def freeFsTypes (entries : Option (List (Option CString))) (num : Nat) : FsTypesM Unit :=
  match entries with
  | none => return ()
  | some entries => if entries.length < num then Prog.fault .outOfBlock else return ()

/-- The loop of `sg_set_valid_filesystems` that copies the names. -/
def copyFsTypes : List CString → ThreadM SgError
  | [] => return .none
  | name :: names => do
      let (rc, _) ← sgUpdateString none (some name)
      if rc = .none then copyFsTypes names else return rc

/-- `sg_set_valid_filesystems`, with the entries of its argument before the NULL. -/
def sgSetValidFilesystems (validFs : Option (List CString)) : FsTypesM SgError := do
  let old ← Prog.gets id
  match validFs with
  | none | some [] =>
      dropFsTypes
      freeFsTypes old.validFileSystems old.numValidFileSystems
      return .none
  | some names =>
      let ok ← onFsThread calloc
      if ok then
        -- from the last name to the first
        let rc ← onFsThread (copyFsTypes names.reverse)
        if rc = .none then
          Prog.modify fun s => { s with
            validFileSystems := some ((names.map some).mergeSort fsTypeLE ++ [none])
            numValidFileSystems := names.length }
          freeFsTypes old.validFileSystems old.numValidFileSystems
          return .none
        else return rc
      else onFsThread (returnWithSetError .malloc enomem "set_valid_filesystems")

/-- `sg_disk_destroy_comp`. The number of entries is not touched. -/
def sgDiskDestroyComp : FsTypesM Unit := do
  let s ← Prog.gets id
  freeFsTypes s.validFileSystems s.numValidFileSystems
  Prog.modify fun s => { s with validFileSystems := none }

def sgGetValidFilesystems : FsTypesM (Nat × Option (List (Option CString))) :=
  Prog.gets fun s => (s.numValidFileSystems, s.validFileSystems)

def searchFsType (type : Option CString) : FsTypesM Bool := do
  let s ← Prog.gets id
  match s.validFileSystems with
  | none => if s.numValidFileSystems = 0 then return false else Prog.fault .nullPointer
  | some entries =>
      match Search.bsearch (cmpValidFs type) entries s.numValidFileSystems 0 s.numValidFileSystems with
      | none => Prog.fault .outOfBlock
      | some found => return found

theorem growFsTypes_refused {i : Nat} {s s' : FsTypes} (h : growFsTypes i s = .ok (false, s')) :
    s'.error = .malloc := by
  obtain ⟨_, s1, hadd, h⟩ := Prog.bind_eq_ok.mp h
  cases hadd
  obtain ⟨num, s2, hnum, h⟩ := Prog.bind_eq_ok.mp h
  cases hnum
  obtain ⟨ok, s3, hzoom, h⟩ := Prog.bind_eq_ok.mp h
  obtain ⟨t, hrealloc, rfl⟩ := Prog.zoom_eq_ok.mp hzoom
  cases ok with
  | true => cases h
  | false =>
      have herr := sgRealloc_refused (Nat.mul_ne_zero (by decide) (Nat.succ_ne_zero _)) hrealloc
      cases h
      exact herr

/-- An array that cannot grow ends the loop with the error of the thread. -/
theorem readFsTypes_refused {i : Nat} {s s' : FsTypes} (hnum : s.numValidFileSystems ≤ i)
    (hgrow : growFsTypes i s = .ok (false, s')) (name : CString) (names : List CString) :
    readFsTypes i (name :: names) s =
      .ok (.error s'.error, { s' with validFileSystems := none, numValidFileSystems := 0 }) := by
  rw [readFsTypes, Prog.bind_of_ok (Prog.gets_run _ _), if_pos hnum, Prog.bind_of_ok hgrow]
  rfl

/-! ### What the readers rely on -/

/-- The number is 0 without an array; with one it is the number of its leading entries, which are
sorted, and the entry behind them is NULL. -/
def FsTypes.Settled (s : FsTypes) : Prop :=
  match s.validFileSystems with
  | none => s.numValidFileSystems = 0
  | some entries =>
      (entries.takeWhile Option.isSome).length = s.numValidFileSystems ∧
      entries[s.numValidFileSystems]? = some none ∧
      (entries.take s.numValidFileSystems).Pairwise fun a b => fsTypeLE a b

instance : Std.OrientedCmp cmpValidFs where
  eq_swap {a b} := by
    cases a with
    | none => cases b <;> rfl
    | some a =>
        cases b with
        | none => rfl
        | some b =>
            show compare (a.map lowerAscii) (b.map lowerAscii) = _
            exact Std.OrientedCmp.eq_swap

instance : Std.TransCmp cmpValidFs where
  isLE_trans {a b c} hab hbc := by
    cases a with
    | none =>
        cases b with
        | none => exact hbc
        | some b => cases hab
    | some a =>
        cases c with
        | none => rfl
        | some c =>
            cases b with
            | none => cases hbc
            | some b =>
                have hab' : (compare (a.map lowerAscii) (b.map lowerAscii)).isLE = true := hab
                have hac : (compare (a.map lowerAscii) (c.map lowerAscii)).isLE = true :=
                  Std.TransCmp.isLE_trans hab' hbc
                exact hac

theorem fsTypeLE_total (a b : Option CString) : (fsTypeLE a b || fsTypeLE b a) = true := by
  have hswap : cmpValidFs b a = (cmpValidFs a b).swap := Std.OrientedCmp.eq_swap
  rw [fsTypeLE, fsTypeLE, hswap]
  cases cmpValidFs a b <;> rfl

theorem monotone_of_fsTypeLE (key : Option CString) {a b : Option CString} (hab : fsTypeLE a b) :
    Search.Monotone (cmpValidFs key) a b := Search.monotone_of_isLE key hab

/-- An array with some names and then NULL entries. -/
def filled (names : List CString) (k : Nat) : List (Option CString) :=
  names.map some ++ List.replicate k none

section Filled

variable (names : List CString) (k : Nat)

@[simp] theorem filled_length : (filled names k).length = names.length + k := by simp [filled]

theorem filled_getElem? : (filled names (k + 1))[names.length]? = some none := by
  simp [filled]

theorem filled_set (x : CString) :
    (filled names (k + 1)).set names.length (some x) = filled (names ++ [x]) k := by
  simp [filled, List.set_append_right, List.replicate_succ]

theorem filled_take : (filled names k).take names.length = names.map some := by simp [filled]

theorem filled_append (m : Nat) : filled names k ++ List.replicate m none = filled names (k + m) := by
  simp [filled, List.replicate_append_replicate]

theorem filled_take_add (m : Nat) (hm : m ≤ k) :
    (filled names k).take (names.length + m) = filled names m := by
  rw [filled, List.take_append, List.take_of_length_le (by simp), List.length_map,
    Nat.add_sub_cancel_left, List.take_replicate, Nat.min_eq_left hm]
  rfl

theorem filterMap_filled : (filled names k).filterMap id = names := by
  rw [filled, List.filterMap_append, List.filterMap_map,
    show (id ∘ some : CString → Option CString) = some from rfl, List.filterMap_some]
  simp

theorem takeWhile_filled : ((filled names k).takeWhile Option.isSome).length = names.length := by
  have hnone : (List.replicate k (none : Option CString)).takeWhile Option.isSome = [] := by
    cases k <;> rfl
  rw [filled, List.takeWhile_append_of_pos (by simp), hnone]
  simp

end Filled

theorem mergeSort_filled (names : List CString) (k : Nat) :
    ∃ sorted : List CString, (filled names k).mergeSort fsTypeLE = filled sorted k ∧
      sorted.Perm names ∧ (sorted.map some).Pairwise fun a b => fsTypeLE a b := by
  have htrans : ∀ a b c, fsTypeLE a b = true → fsTypeLE b c = true → fsTypeLE a c = true := by
    intro a b c hab hbc
    have hab' : (cmpValidFs a b).isLE = true := hab
    exact Std.TransCmp.isLE_trans hab' hbc
  have hsorted := List.pairwise_mergeSort htrans fsTypeLE_total (filled names k)
  have hperm := List.mergeSort_perm (filled names k) fsTypeLE
  generalize (filled names k).mergeSort fsTypeLE = l at hsorted hperm
  -- a sorted list has its names in front
  have hfront : ∀ l : List (Option CString), (l.Pairwise fun a b => fsTypeLE a b) →
      ∃ xs m, l = filled xs m := by
    intro l
    induction l with
    | nil => exact fun _ => ⟨[], 0, rfl⟩
    | cons a l ih =>
        intro h
        obtain ⟨ha, hl⟩ := List.pairwise_cons.mp h
        obtain ⟨xs, m, rfl⟩ := ih hl
        cases a with
        | some a => exact ⟨a :: xs, m, rfl⟩
        | none =>
            cases xs with
            | nil => exact ⟨[], m + 1, rfl⟩
            | cons x xs => exact absurd (ha (some x) List.mem_cons_self) Bool.false_ne_true
  obtain ⟨xs, m, rfl⟩ := hfront l hsorted
  have hnone : m = k := by
    have hzero : ∀ ys : List CString, (ys.map some).count none = 0 := by
      intro ys
      simp [List.count_eq_zero]
    have hcount := hperm.count_eq none
    simpa [filled, List.count_append, hzero] using hcount
  subst hnone
  have hnames := hperm.filterMap id
  rw [filterMap_filled, filterMap_filled] at hnames
  exact ⟨xs, rfl, hnames, (List.pairwise_append.mp hsorted).1⟩

theorem settled_of_filled {s : FsTypes} {sorted : List CString} (k : Nat)
    (hentries : s.validFileSystems = some (filled sorted (k + 1)))
    (hnum : s.numValidFileSystems = sorted.length)
    (hsorted : (sorted.map some).Pairwise fun a b => fsTypeLE a b) : s.Settled := by
  unfold FsTypes.Settled
  rw [hentries, hnum]
  exact ⟨takeWhile_filled sorted (k + 1), filled_getElem? sorted k, by rwa [filled_take]⟩

theorem not_settled_of_filled {s : FsTypes} {names : List CString} {k : Nat}
    (hentries : s.validFileSystems = some (filled names k))
    (hnum : names.length ≠ s.numValidFileSystems) : ¬ s.Settled := by
  unfold FsTypes.Settled
  rw [hentries]
  rintro ⟨hleading, -⟩
  rw [takeWhile_filled] at hleading
  exact hnum hleading

theorem FsTypes.Settled.eq_zero {s : FsTypes} (h : s.Settled) (hnone : s.validFileSystems = none) :
    s.numValidFileSystems = 0 := by
  unfold FsTypes.Settled at h
  rwa [hnone] at h

theorem FsTypes.Settled.lt {s : FsTypes} (h : s.Settled) {entries : List (Option CString)}
    (hsome : s.validFileSystems = some entries) : s.numValidFileSystems < entries.length := by
  unfold FsTypes.Settled at h
  rw [hsome] at h
  exact (List.getElem?_eq_some_iff.mp h.2.1).1

end Statgrab
