import Mathlib.Data.List.Basic
import Statgrab.Comp.ErrorStorage
import Statgrab.Tools

/-!
# The component table

The library is a table of components. `sg_comp_init` counts its callers; the first one lays out the
thread-local storage, builds the table of named mutexes and calls every component's `init_fn`, and the
last `sg_comp_destroy` takes all of it down again. Both run under the lock `glob_lock`.

What the environment decides during one `sg_comp_init`, the outcomes of the `init_fn`s, of the
allocations and of the pthread calls, is an `InitEnv`. A refused allocation is reported through the
error functions, so the storage these find is part of it. The calls of `init_fn` and `destroy_fn` are
recorded in the order they are made.
-/

namespace Statgrab

open Function (update)

/-- `struct sg_comp_init`, with a flag for each pointer that may be NULL. The `init_fn` of the error
component keeps its id for the error functions. -/
structure CompInit where
  initFn : Bool
  destroyFn : Bool
  staticBufSize : Nat
  requiredLocks : List CString
  status : Bool
  errorComp : Bool
  deriving DecidableEq, Repr

abbrev Tid := Nat

/-- A `pthread_mutex_t`: fresh memory, unlocked, held by a thread, or locked by it again and again. -/
inductive Mutex where
  | raw
  | free
  | held (tid : Tid)
  | nested (tid : Tid) (again : Nat)
  deriving DecidableEq, Repr

structure NamedMutex where
  name : CString
  mutex : Mutex
  deriving DecidableEq, Repr

/-- A call of one of a component's functions, by the component's index. -/
inductive CompCall where
  | init (i : Nat)
  | destroy (i : Nat)
  deriving DecidableEq, Repr

/-- The static variables of `globals.c`. `tableLive` tells whether `required_locks` points to a
table, `tableSlots` is the number of entries it was last allocated for, and `reported` the last error
set through `SET_ERROR`. `errorGlobId` is the id the error component keeps. -/
structure CompState where
  initialized : Nat
  globSize : Nat
  globOfs : List Nat
  globLock : NamedMutex
  tableLive : Bool
  tableSlots : Nat
  requiredLocks : List NamedMutex
  initError : Nat → SgError
  reported : SgError
  errorGlobId : Nat
  calls : List CompCall

/-- Why a thread does not come back from a call. -/
inductive CompStop where
  /-- The thread waits for a mutex that is held. -/
  | blocked
  /-- The process ended. -/
  | exited (code : Nat)
  /-- The reports of an error nest until the stack is used up. -/
  | nested
  deriving DecidableEq, Repr

abbrev CompM := Prog CompStop CompState

/-- What the environment answers during one `sg_comp_init`. -/
structure InitEnv where
  /-- The code component `i`'s `init_fn` returns. -/
  initFn : Nat → SgError
  /-- Whether the mutex table gets its first block. -/
  malloc : Bool
  /-- Whether the table gets its new block for component `i`. -/
  realloc : Nat → Bool
  mutexattrInit : Int
  mutexattrSettype : Int
  /-- What the error functions find for the calling thread when a refusal is reported. -/
  thread : Storage
  /-- The number of reports the stack has room for. -/
  depth : Nat

/-- One more than the largest `unsigned`. -/
def unsignedBound : Nat := 2 ^ 32

/-- `"statgrab"`, the name of `glob_lock`. -/
def globLockName : CString := [115, 116, 97, 116, 103, 114, 97, 98]

def sgGlobalLock (tid : Tid) : CompM Unit := fun s =>
  if s.globLock.mutex = .free then
    .ok ((), { s with globLock := { s.globLock with mutex := .held tid } })
  else .error .blocked

def sgGlobalUnlock : CompM SgError := do
  Prog.modify fun s => { s with globLock := { s.globLock with mutex := .free } }
  return .none

/-! ### The storage layout -/

/-- The offsets the first loop of `sg_comp_init` assigns, from `size` on. -/
def layoutFrom : Nat → List CompInit → List Nat
  | _, [] => []
  | size, c :: cs => size :: layoutFrom ((size + c.staticBufSize) % sizeBound) cs

/-- The size the first loop of `sg_comp_init` arrives at, from `size` on. -/
def layoutSize : Nat → List CompInit → Nat
  | size, [] => size
  | size, c :: cs => layoutSize ((size + c.staticBufSize) % sizeBound) cs

/-! ### The mutex table -/

def strcmpLe : CString → CString → Bool
  | [], _ => true
  | _ :: _, [] => false
  | a :: as, b :: bs => a < b || (a == b && strcmpLe as bs)

/-- `bsearch` with `cmp_named_locks`, on a table sorted by name. -/
def findLock (table : List NamedMutex) (name : CString) : Option NamedMutex :=
  table.find? fun m => m.name == name

/-- `qsort` with `cmp_named_locks`. -/
def sortLocks (table : List NamedMutex) : List NamedMutex :=
  table.mergeSort fun a b => strcmpLe a.name b.name

/-- The names a component requires that the table does not have yet, repeats included: what the
counting loop of `sg_comp_init` counts. -/
def newLocks (table : List NamedMutex) (names : List CString) : List CString :=
  names.filter fun name => (findLock table name).isNone

def enterLocks (table : List NamedMutex) : List CString → List NamedMutex
  | [] => table
  | name :: names =>
      if (findLock table name).isSome then enterLocks table names
      else enterLocks (sortLocks (table ++ [⟨name, .raw⟩])) names

/-! ### `sg_comp_init` -/

/-- Where `sg_comp_init` returns: after an aborted initialisation, or at its end. -/
inductive InitResult where
  | aborted (rc : SgError)
  | finished (rc : SgError)
  deriving DecidableEq, Repr

/-- `sizeof(struct sg_named_mutex)`. -/
def namedMutexSize : Nat := 48

/-- The storage in which a refusal is reported: what the thread has, as the library has laid it
out. -/
def InitEnv.storage (env : InitEnv) (globSize errorGlobId compCount : Nat) : Storage :=
  { env.thread with globSize := globSize, errorGlobId := errorGlobId, compCount := compCount }

/-- The reports of a refused block of `size` bytes: the one of `sg_realloc` and
`SET_ERROR("globals", SG_ERROR_MALLOC, "sg_comp_init")`. -/
def reportRefusal (depth size : Nat) : StorageM (Place × SgError) := do
  let _ ← ErrorCall.run depth (.set .malloc enomem (reallocError size).errorArg)
  ErrorCall.run depth (.set .malloc 0 "sg_comp_init")

/-- The return after a refused block of `size` bytes. -/
def abortMalloc (env : InitEnv) (size : Nat) : CompM InitResult := fun s =>
  match reportRefusal env.depth size (env.storage s.globSize s.errorGlobId s.globOfs.length) with
  | .ok _ => .ok (.aborted .malloc, { s with reported := .malloc })
  | .error _ => .error .nested

/-- The call of component `i`'s `init_fn`: `.inl` with its code where the initialisation is aborted,
`.inr` with the new `errc` where it goes on. -/
def callInitFn (env : InitEnv) (ignoreInitErrors : Bool) (c : CompInit) (i : Nat) (errc : SgError) :
    CompM (SgError ⊕ SgError) := do
  if c.initFn then
    Prog.modify fun s => { s with
      calls := s.calls ++ [.init i]
      errorGlobId := if c.errorComp then (i + globMask) % unsignedBound else s.errorGlobId }
    if env.initFn i = .none then return .inr errc
    else if ignoreInitErrors && c.status then
      Prog.modify fun s => { s with initError := update s.initError i (env.initFn i) }
      return .inr .initialisation
    else return .inl (env.initFn i)
  else return .inr errc

/-- The component loop of `sg_comp_init`, from component `i` on. -/
def initLoop (env : InitEnv) (ignoreInitErrors : Bool) :
    List CompInit → Nat → SgError → CompM (InitResult ⊕ SgError)
  | [], _, errc => return .inr errc
  | c :: cs, i, errc => do
      let called ← callInitFn env ignoreInitErrors c i errc
      match called with
      | .inl rc => return .inl (.aborted rc)
      | .inr errc =>
          let table ← Prog.gets CompState.requiredLocks
          let newCount := (newLocks table c.requiredLocks).length
          if newCount = 0 then initLoop env ignoreInitErrors cs (i + 1) errc
          else if env.realloc i then
            Prog.modify fun s => { s with
              tableSlots := table.length + newCount
              requiredLocks := enterLocks table c.requiredLocks }
            initLoop env ignoreInitErrors cs (i + 1) errc
          else
            let r ← abortMalloc env (namedMutexSize * (table.length + newCount))
            return .inl r

/-- The end of `sg_comp_init`: the mutexes are initialised and the lock is given back. -/
def finishInit (env : InitEnv) (errc : SgError) : CompM InitResult := do
  if env.mutexattrInit ≠ 0 then Prog.fault (.exited 255)
  else if env.mutexattrSettype ≠ 0 then Prog.fault (.exited 255)
  else
    Prog.modify fun s => { s with
      requiredLocks := s.requiredLocks.map fun m =>
        if m.name = s.globLock.name then m else { m with mutex := .free } }
    let _ ← sgGlobalUnlock
    return .finished errc

def afterLoop (env : InitEnv) : InitResult ⊕ SgError → CompM InitResult
  | .inl r => return r
  | .inr errc => finishInit env errc

def sgCompInit (comps : List CompInit) (env : InitEnv) (tid : Tid) (ignoreInitErrors : Bool) :
    CompM InitResult := do
  sgGlobalLock tid
  let count ← Prog.gets CompState.initialized
  Prog.modify fun s => { s with initialized := (count + 1) % unsignedBound }
  if count ≠ 0 then
    let rc ← sgGlobalUnlock
    return .finished rc
  else
    Prog.modify fun s => { s with globOfs := layoutFrom 0 comps, globSize := layoutSize 0 comps }
    if env.malloc then
      Prog.modify fun s => { s with tableLive := true, tableSlots := 1, requiredLocks := [s.globLock] }
      let looped ← initLoop env ignoreInitErrors comps 0 .none
      afterLoop env looped
    else
      Prog.modify fun s => { s with tableLive := false }
      abortMalloc env namedMutexSize

/-! ### `sg_comp_destroy` -/

/-- The calls of `destroy_fn`, from the last component to the first. -/
def destroyCalls (comps : List CompInit) : List CompCall :=
  ((comps.zipIdx.filter fun c => c.1.destroyFn).map fun c => .destroy c.2).reverse

def sgCompDestroy (comps : List CompInit) (tid : Tid) : CompM SgError := do
  sgGlobalLock tid
  let count ← Prog.gets CompState.initialized
  let count := (unsignedBound - 1 + count) % unsignedBound
  Prog.modify fun s => { s with initialized := count }
  if count ≠ 0 then sgGlobalUnlock
  else
    Prog.modify fun s => { s with
      globSize := 0
      calls := s.calls ++ destroyCalls comps
      tableLive := false
      requiredLocks := [] }
    sgGlobalUnlock

def CompState.start : CompState :=
  { initialized := 0, globSize := 0, globOfs := [], globLock := ⟨globLockName, .free⟩
    tableLive := false, tableSlots := 0, requiredLocks := [], initError := fun _ => .none
    reported := .none, errorGlobId := 0, calls := [] }

/-- `comp_info` on Linux, with the sizes of the components' storage on an LP64 machine. -/
def linuxComps : List CompInit :=
  ⟨true, true, 4104, [], true, true⟩ ::
    [24, 32, 8, 8, 24, 8, 16, 16, 8].map (fun size => ⟨true, true, size, [], true, false⟩) ++
      -- the users component needs the mutex "utmp"
      [⟨true, true, 8, [[117, 116, 109, 112]], true, false⟩]

end Statgrab
