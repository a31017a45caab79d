import Statgrab.Vector.Rounding

/-!
# The vectors of `vector.c`

A vector is a block of memory with a header and room for items. The model keeps the blocks of one
item type in a store indexed by address. An address is given out once, so a pointer to a released
vector is never valid again, and `sg_realloc` always moves: the worst case for a stale pointer.

Next to the fields of `struct sg_vector` each vector carries `slots`, the number of items its block
was really allocated for. The code never reads it. The cells of a vector are not cut off at `slots`:
a world with `bounded := false` models the slots as unbounded, and one with `bounded := true` faults
as soon as an item function is applied outside the block.
-/

namespace Statgrab

open Function (update)

abbrev Ptr := Nat

/-- `struct sg_vector_init_info`: the item size and the item functions, any of which may be NULL.
The copy function is called with the source and the target item, allocates, and may write to both; the
comparison tells whether two items have the same key, and has no answer where it would follow a NULL
string. -/
structure VectorInitInfo (α : Type) where
  itemSize : Nat
  initFn : Option (α → α)
  copyFn : Option (α → α → ThreadM (SgError × α × α))
  computeDiffFn : Option (α → α → α)
  compareFn : Option (α → α → Option Bool)
  destroyFn : Option (α → α)

/-- A copy function that writes to its second argument only. -/
def keepSource {α : Type} (copy : α → α → ThreadM (SgError × α)) (s d : α) :
    ThreadM (SgError × α × α) := do
  let (rc, d) ← copy s d
  return (rc, s, d)

/-- `struct sg_vector` with its items, and the number of items its block has room for. -/
structure SgVector (α : Type) where
  usedCount : Nat
  allocCount : Nat
  blockShift : Nat
  info : VectorInitInfo α
  slots : Nat
  cells : Nat → α

def SgVector.items {α : Type} (v : SgVector α) : List α := (List.range v.usedCount).map v.cells

/-- The vectors of one item type, as one thread sees them. `raw` is what fresh memory holds, `inits`
and `destroys` count the calls of the item functions, `frees` how often a block was given back, and
`graves` what it held then. -/
structure World (α : Type) extends Thread where
  store : Ptr → Option (SgVector α)
  next : Ptr
  raw : Ptr → Nat → α
  bounded : Bool
  inits : Nat
  destroys : Nat
  frees : Ptr → Nat
  graves : Ptr → Option (SgVector α) := fun _ => none

abbrev VecM (α : Type) := Prog Fault (World α)

variable {α : Type}

def onThread {β : Type} (x : ThreadM β) : VecM α β :=
  Prog.zoom World.toThread (fun w t => { w with toThread := t }) x

/-- Apply an item function to the cells from `lo` below `hi`. -/
def mapRange (f : α → α) (lo hi : Nat) (cells : Nat → α) : Nat → α := fun i =>
  if lo ≤ i ∧ i < hi then f (cells i) else cells i

/-- The vector after the loop of `sg_vector_destroy_unused`. -/
def SgVector.destroyUnused (v : SgVector α) (newCount : Nat) : SgVector α :=
  if newCount < v.usedCount then
    { v with
      cells := v.info.destroyFn.elim v.cells fun f => mapRange f newCount v.usedCount v.cells
      usedCount := newCount }
  else v

/-- The vector after the loop of `sg_vector_init_new`. -/
def SgVector.initNew (v : SgVector α) (newCount : Nat) : SgVector α :=
  if v.usedCount < newCount then
    { v with
      cells := v.info.initFn.elim v.cells fun f => mapRange f v.usedCount newCount v.cells
      usedCount := newCount }
  else v

def deref (p : Ptr) : VecM α (SgVector α) := fun w =>
  match w.store p with
  | some v => .ok (v, w)
  | none => .error .released

def World.put (w : World α) (p : Ptr) (v : SgVector α) : World α :=
  { w with store := update w.store p (some v) }

def World.drop (w : World α) (p : Ptr) : World α :=
  { w with
    store := update w.store p none
    frees := update w.frees p (w.frees p + 1)
    graves := update w.graves p (w.store p) }

def World.place (w : World α) (v : SgVector α) : World α :=
  { w with store := update w.store w.next (some v), next := w.next + 1 }

/-- The item functions of `v` are applied below the index `hi`. -/
def touch (v : SgVector α) (hi : Nat) : VecM α Unit := fun w =>
  if w.bounded = true ∧ v.slots < hi then .error .outOfBlock else .ok ((), w)

def sgVectorDestroyUnused (p : Ptr) (newCount : Nat) : VecM α Unit := do
  let v ← deref p
  if newCount < v.usedCount ∧ v.info.destroyFn.isSome then
    touch v v.usedCount
    Prog.modify fun w => { w with destroys := w.destroys + (v.usedCount - newCount) }
    Prog.modify fun w => w.put p (v.destroyUnused newCount)
  else
    Prog.modify fun w => w.put p (v.destroyUnused newCount)

def sgVectorInitNew (p : Ptr) (newCount : Nat) : VecM α Unit := do
  let v ← deref p
  if v.usedCount < newCount ∧ v.info.initFn.isSome then
    touch v newCount
    Prog.modify fun w => { w with inits := w.inits + (newCount - v.usedCount) }
    Prog.modify fun w => w.put p (v.initNew newCount)
  else
    Prog.modify fun w => w.put p (v.initNew newCount)

/-- `VECTOR_SIZE`: the bytes of a vector's header on an LP64 machine. -/
def vectorSize : Nat := 88

def blockBytes (count : Nat) (info : VectorInitInfo α) : Nat :=
  (vectorSize + count * info.itemSize) % sizeBound

def slotsIn (bytes : Nat) (info : VectorInitInfo α) : Nat := (bytes - vectorSize) / info.itemSize

/-- `sg_vector_create_int`. The recorded `alloc_count` is one block, whatever was allocated. -/
def sgVectorCreateInt (blockShift allocCount initialUsed : Nat) (info : VectorInitInfo α) :
    VecM α (Option Ptr) := do
  let roundCount := nextPower2In (max allocCount initialUsed) blockShift
  let ok ← onThread (sgRealloc (blockBytes roundCount info))
  if ok then
    let p ← Prog.gets World.next
    Prog.modify fun w => w.place
      { usedCount := 0
        allocCount := (1 <<< blockShift) % sizeBound
        blockShift := blockShift
        info := info
        slots := slotsIn (blockBytes roundCount info) info
        cells := w.raw p }
    sgVectorInitNew p initialUsed
    return some p
  else return none

def sgVectorCreate (blockSize allocCount initialUsed : Nat) (info : VectorInitInfo α) :
    VecM α (Option Ptr) :=
  match blockShiftOf blockSize with
  | some blockShift => sgVectorCreateInt blockShift allocCount initialUsed info
  | none => Prog.fault .overshift

/-- `VECTOR_CREATE(type, block_size)`. -/
def vectorCreate (info : VectorInitInfo α) (blockSize : Nat) : VecM α (Option Ptr) :=
  sgVectorCreate blockSize blockSize 0 info

def sgVectorFree : Option Ptr → VecM α Unit
  | none => pure ()
  | some p => do
      sgVectorDestroyUnused p 0
      Prog.modify fun w => w.drop p

def sgVectorClear : Option Ptr → VecM α Unit
  | none => pure ()
  | some p => sgVectorDestroyUnused p 0

/-- The reallocation in `sg_vector_resize`: the block moves to a new address. -/
def sgVectorMove (p : Ptr) (roundCount : Nat) : VecM α (Option Ptr) := do
  let v ← deref p
  let bytes := blockBytes roundCount v.info
  let ok ← onThread (sgRealloc bytes)
  if ok then
    let q ← Prog.gets World.next
    Prog.modify fun w => (w.drop p).place
      { v with allocCount := roundCount, slots := slotsIn bytes v.info }
    return some q
  else
    -- with no bytes requested, `sg_realloc` itself gave the block back
    if bytes = 0 then Prog.modify fun w => w.drop p
    if roundCount = 0 then Prog.fault .nullPointer
    else
      sgVectorFree (some p)
      return none

def sgVectorResize (vector : Option Ptr) (newCount : Nat) : VecM α (Option Ptr) :=
  match vector with
  | none => do
      onThread (sgSetError .invalidArgument 0
        "sg_vector_resize: invalid argument value for vector")
      return none
  | some p => do
      if newCount = 0 then
        sgVectorFree (some p)
        onThread sgClearError
        return none
      else
        sgVectorDestroyUnused p newCount
        let v ← deref p
        let roundCount := nextPower2In newCount v.blockShift
        let q ← if roundCount ≠ v.allocCount then sgVectorMove p roundCount else pure (some p)
        match q with
        | none => return none
        | some q =>
            sgVectorInitNew q newCount
            return some q

/-- The copy loop of `sg_vector_clone_into_int`, with `fuel` items left from index `i`. -/
def copyItems (src dest : Ptr) : Nat → Nat → VecM α SgError
  | 0, _ => return .none
  | fuel + 1, i => do
      let s ← deref src
      let d ← deref dest
      touch s (i + 1)
      touch d (i + 1)
      match s.info.copyFn with
      | none => Prog.fault .nullPointer
      | some copyFn =>
          let (rc, source, item) ← onThread (copyFn (s.cells i) (d.cells i))
          Prog.modify fun w => w.put src { s with cells := update s.cells i source }
          Prog.modify fun w => w.put dest { d with cells := update d.cells i item }
          if rc = .none then copyItems src dest fuel (i + 1) else return rc

/-- The `tmp` of `sg_vector_clone_into_int`: the target, resized where the counts differ. -/
def cloneTarget (dest : Ptr) (used newCount : Nat) : VecM α (Option Ptr) :=
  if used = newCount then return some dest else sgVectorResize (some dest) newCount

/-- `sg_vector_clone_into_int(dest, src)`: the returned code and the new `*dest`. When the resize
returns NULL the code leaves without a store to `*dest`. -/
def sgVectorCloneIntoInt (dest src : Ptr) : VecM α (SgError × Option Ptr) := do
  let d ← deref dest
  let s ← deref src
  let tmp ← cloneTarget dest d.usedCount s.usedCount
  match tmp with
  | none =>
      let rc ← onThread returnFromPreviousError
      return (rc, some dest)
  | some t =>
      let rc ← copyItems src t s.usedCount 0
      if rc = .none then return (.none, some t)
      else
        sgVectorFree (some t)
        return (rc, none)

def sgVectorClone (src : Option Ptr) : VecM α (Option Ptr) :=
  match src with
  | none => return none
  | some p => do
      let s ← deref p
      let dest ← sgVectorCreateInt s.blockShift s.allocCount s.usedCount s.info
      match dest with
      | none => return none
      | some d =>
          let (rc, dest) ← sgVectorCloneIntoInt d p
          if rc = .none then return dest
          else
            sgVectorFree dest
            return none

def sgVectorCloneInto (dest src : Option Ptr) : VecM α (SgError × Option Ptr) :=
  match src with
  | none => do
      sgVectorFree dest
      return (.none, none)
  | some s => do
      let (ok, dest) ← (match dest with
        | none => do
            let dest ← sgVectorClone (some s)
            return (dest.isSome, dest)
        | some d => do
            let (rc, dest) ← sgVectorCloneIntoInt d s
            return (rc = .none, dest) : VecM α (Bool × Option Ptr))
      if ok then return (.none, dest)
      else
        sgVectorFree dest
        let rc ← onThread sgGetError
        return (rc, none)

def vectorItemCount : Option Ptr → VecM α Nat
  | none => return 0
  | some p => do
      let v ← deref p
      return v.usedCount

end Statgrab
