import Statgrab.Stats.FsReader

/-!
# The registered copy functions

A `copy_fn` is called with the source and the target. Three of the four registered ones are written in
that order. `sg_network_iface_stats_item_copy` is written the other way round and copies the target over
the source: a clone of such a vector consists of initialised items, and so does its source afterwards.
-/

namespace Statgrab

open Function (update)

/-- The item types that are registered with a `copy_fn`. -/
inductive CopiedType where
  | fs
  | diskIo
  | networkIo
  | networkIface
  deriving DecidableEq, Repr

namespace CopiedType

def Item : CopiedType → Type
  | .fs => FsStats
  | .diskIo => DiskIoStats
  | .networkIo => NetworkIoStats
  | .networkIface => NetworkIfaceStats

def info : (t : CopiedType) → VectorInitInfo t.Item
  | .fs => FsStats.info
  | .diskIo => DiskIoStats.info
  | .networkIo => NetworkIoStats.info
  | .networkIface => NetworkIfaceStats.info

def copyFn : (t : CopiedType) → t.Item → t.Item → ThreadM (SgError × t.Item × t.Item)
  | .fs => keepSource FsStats.copy
  | .diskIo => keepSource DiskIoStats.copy
  | .networkIo => keepSource NetworkIoStats.copy
  | .networkIface => NetworkIfaceStats.copyFn

/-- The copy makes the target equal to the source and leaves the source as it is. -/
def Copies (t : CopiedType) (src dst : t.Item) (th : Thread) : Prop :=
  ∃ th', t.copyFn src dst th = .ok ((.none, src, src), th')

end CopiedType

/-! ### In the right order -/

theorem LawfulCopy.copies {α : Type} {copy : α → α → ThreadM (SgError × α)} (h : LawfulCopy copy)
    (src dst : α) {th : Thread} (hth : th.Plenty) :
    ∃ th', keepSource copy src dst th = .ok ((.none, src, src), th') := by
  rcases h src dst th with ⟨th', hrun, -⟩ | ⟨rc, d, th', -, -, -, hnot⟩
  · refine ⟨th', ?_⟩
    rw [keepSource, Prog.bind_of_ok hrun]
    rfl
  · exact absurd hth hnot

namespace NetworkIfaceStats

end NetworkIfaceStats

/-! ### Every type -/

namespace CopiedType

/-- A vector with two disks, and one with two interfaces of which the second is down. -/
def twoDisks : SgVector DiskIoStats :=
  ⟨2, 2, 1, DiskIoStats.info, 2, fun k => ⟨some [97], 10, 20, if k = 0 then 5 else 6⟩⟩
instance : Inhabited NetworkIfaceStats := ⟨.initial⟩

end CopiedType

end Statgrab
