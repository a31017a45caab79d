import Statgrab.Comp.Init
import Statgrab.Lib.Run

/-!
# The named mutexes

`sg_lock_mutex` and `sg_unlock_mutex` look a mutex up by its name in the table that `sg_comp_init` built.
The entry "statgrab" of the table is a copy of `glob_lock`, taken while the initialising thread holds
the lock, and the pass that initialises the mutexes of the table skips it. So the entry is born locked,
and nobody's unlocking of `glob_lock` reaches it.
-/

namespace Statgrab

/-- `EPERM`, what a thread gets that unlocks a mutex it does not hold. -/
def eperm : Int := 1

/-- `pthread_mutex_lock`: the mutex afterwards, or none where the thread waits. -/
def pthreadMutexLock (recursive : Bool) (tid : Tid) : Mutex → Option Mutex
  | .raw => none
  | .free => some (.held tid)
  | .held owner => if recursive && owner == tid then some (.nested tid 0) else none
  | .nested owner again =>
      if recursive && owner == tid then some (.nested tid (again + 1)) else none

/-- `pthread_mutex_unlock`: the code it returns and the mutex afterwards. -/
def pthreadMutexUnlock (tid : Tid) : Mutex → Int × Mutex
  | .held owner => if owner = tid then (0, .free) else (eperm, .held owner)
  | .nested owner 0 => if owner = tid then (0, .held owner) else (eperm, .nested owner 0)
  | .nested owner (again + 1) =>
      if owner = tid then (0, .nested owner again) else (eperm, .nested owner (again + 1))
  | m => (eperm, m)

def storeLock (name : CString) (mutex : Mutex) : CompM Unit :=
  Prog.modify fun s => { s with
    requiredLocks := s.requiredLocks.map fun m => if m.name = name then { m with mutex := mutex } else m }

/-- `RETURN_WITH_SET_ERROR("globals", rc, ..)`. -/
def returnReported (rc : SgError) : CompM SgError := do
  Prog.modify fun s => { s with reported := rc }
  return rc

/-- `sg_lock_mutex`. The mutexes that `sg_comp_init` initialises are recursive; `glob_lock` and its copy
are not. -/
def sgLockMutex (mutexName : CString) (tid : Tid) : CompM SgError := do
  let table ← Prog.gets CompState.requiredLocks
  match findLock table mutexName with
  | none => returnReported .invalidArgument
  | some found =>
      match pthreadMutexLock (found.name != globLockName) tid found.mutex with
      | none => Prog.fault .blocked
      | some mutex =>
          storeLock mutexName mutex
          return .none

def sgUnlockMutex (mutexName : CString) (tid : Tid) : CompM SgError := do
  let table ← Prog.gets CompState.requiredLocks
  match findLock table mutexName with
  | none => returnReported .invalidArgument
  | some found =>
      match pthreadMutexUnlock tid found.mutex with
      | (0, mutex) =>
          storeLock mutexName mutex
          return .none
      | _ => returnReported .mutexLock

/-! ### The entry of the table -/

theorem mem_enterLocks {table : List NamedMutex} {m : NamedMutex} (hm : m ∈ table) (names : List CString) :
    m ∈ enterLocks table names := by
  induction names generalizing table with
  | nil => exact hm
  | cons name names ih =>
      rw [enterLocks]
      split
      · exact ih hm
      · exact ih ((List.mergeSort_perm _ _).mem_iff.mpr (List.mem_append_left _ hm))

theorem mem_of_mem_enterLocks {table : List NamedMutex} {m : NamedMutex} {names : List CString}
    (hm : m ∈ enterLocks table names) (hname : m.name ∈ lockNames table) : m ∈ table := by
  induction names generalizing table with
  | nil => exact hm
  | cons name names ih =>
      rw [enterLocks] at hm
      split at hm
      case isTrue => exact ih hm hname
      case isFalse hnew =>
        have hsorted := ih hm (by
          rw [lockNames_sortLocks]
          obtain ⟨m', hm', heq⟩ := hname
          exact ⟨m', List.mem_append_left _ hm', heq⟩)
        rcases List.mem_append.mp ((List.mergeSort_perm _ _).mem_iff.mp hsorted) with hold | hentry
        · exact hold
        · rw [List.mem_singleton.mp hentry] at hname
          exact absurd (findLock_isSome.mpr hname) hnew

theorem mem_locksAfter {table : List NamedMutex} {m : NamedMutex} (hm : m ∈ table)
    (cs : List CompInit) : m ∈ locksAfter table cs := by
  induction cs generalizing table with
  | nil => exact hm
  | cons c cs ih => exact ih (mem_enterLocks hm c.requiredLocks)

theorem mem_of_mem_locksAfter {table : List NamedMutex} {m : NamedMutex} {cs : List CompInit}
    (hm : m ∈ locksAfter table cs) (hname : m.name ∈ lockNames table) : m ∈ table := by
  induction cs generalizing table with
  | nil => exact hm
  | cons c cs ih =>
      have hentered : m ∈ enterLocks table c.requiredLocks := by
        apply ih hm
        rw [lockNames_enterLocks]
        exact .inl hname
      exact mem_of_mem_enterLocks hentered hname

theorem findLock_of_unique {table : List NamedMutex} {m : NamedMutex} (hm : m ∈ table)
    (hunique : ∀ m' ∈ table, m'.name = m.name → m' = m) : findLock table m.name = some m := by
  cases hfind : findLock table m.name with
  | none =>
      have hnone := List.find?_eq_none.mp hfind m hm
      simp at hnone
  | some found =>
      have hname : found.name = m.name := by simpa using List.find?_some hfind
      rw [hunique found (List.mem_of_find?_eq_some hfind) hname]

theorem findLock_stored {table : List NamedMutex} {name : CString} {found : NamedMutex}
    (hfind : findLock table name = some found) (mutex : Mutex) :
    findLock (table.map fun m => if m.name = name then { m with mutex := mutex } else m) name
      = some { found with mutex := mutex } := by
  have hname : found.name = name := by simpa using List.find?_some hfind
  have hsame : ∀ m : NamedMutex, ((if m.name = name then { m with mutex := mutex } else m).name == name)
      = (m.name == name) := by
    intro m
    split <;> rfl
  unfold findLock at *
  rw [List.find?_map]
  simp only [Function.comp_def, hsame, hfind, Option.map_some, if_pos hname]

/-- The library as the first caller leaves it: the lock is given back, and the copy in the table is
still the caller's. -/
structure CompState.Born (s : CompState) (tid : Tid) : Prop where
  entry : findLock s.requiredLocks globLockName = some ⟨globLockName, .held tid⟩
  lock : s.globLock.mutex = .free
  initialized : s.initialized = 1

theorem sgCompInit_born {comps : List CompInit} {env : InitEnv} {tid : Tid} {ignoreInitErrors : Bool}
    {s s' : CompState} {rc : SgError} (hname : s.globLock.name = globLockName)
    (hfree : s.globLock.mutex = .free) (hcount : s.initialized = 0)
    (hrun : sgCompInit comps env tid ignoreInitErrors s = .ok (.finished rc, s')) : s'.Born tid := by
  rcases sgCompInit_first tid hfree hcount (goesThrough_of_finished hfree hcount hrun) with
    ⟨code, hexit⟩ | ⟨rc', s1, hrun', hlock, hone, -, -, -, -, htable⟩
  · rw [hexit] at hrun
    cases hrun
  · rw [hrun'] at hrun
    cases hrun
    refine ⟨?_, by rw [hlock, hfree], hone⟩
    let entry : NamedMutex := ⟨globLockName, .held tid⟩
    have hstart : ({ s.globLock with mutex := .held tid } : NamedMutex) = entry := by
      simp only [entry, ← hname]
    rw [htable, hstart, hname]
    apply findLock_of_unique (m := entry)
    · refine List.mem_map.mpr ⟨entry, mem_locksAfter (List.mem_singleton.mpr rfl) comps, ?_⟩
      rw [if_pos rfl]
    · intro m' hm' heq
      obtain ⟨m, hm, rfl⟩ := List.mem_map.mp hm'
      by_cases hmname : m.name = globLockName
      · rw [if_pos hmname]
        apply List.mem_singleton.mp
        exact mem_of_mem_locksAfter hm ⟨entry, List.mem_singleton.mpr rfl, hmname.symm⟩
      · rw [if_neg hmname] at heq
        exact absurd heq hmname

/-! ### What the callers of the mutexes expect -/

inductive MutexEv where
  | lock (tid : Tid) (name : CString)
  | unlock (tid : Tid) (name : CString)
  | init (tid : Tid) (env : InitEnv) (ignoreInitErrors : Bool)
  | destroy (tid : Tid)

/-- The call, with its result thrown away. -/
def MutexEv.run (comps : List CompInit) : MutexEv → CompM Unit
  | .lock tid name => do
      let _ ← sgLockMutex name tid
  | .unlock tid name => do
      let _ ← sgUnlockMutex name tid
  | .init tid env ignoreInitErrors => do
      let _ ← sgCompInit comps env tid ignoreInitErrors
  | .destroy tid => do
      let _ ← sgCompDestroy comps tid

namespace CompState

def AllUnlocked (s : CompState) : Prop := ∀ m ∈ s.requiredLocks, m.mutex = .free

/-- `sg_lock_mutex("statgrab")` and `sg_global_lock` take the same mutex: a thread gets it through the
one exactly if it gets it through the other. -/
def OneLock (s : CompState) : Prop :=
  ∀ tid, (∃ s', sgLockMutex globLockName tid s = .ok (.none, s')) ↔
    ∃ s', sgGlobalLock tid s = .ok ((), s')

/-- A thread that gets "statgrab" keeps the others out of `sg_comp_init` and `sg_comp_destroy`. -/
def Guarded (comps : List CompInit) (s : CompState) : MutexEv → Prop
  | .lock tid name => name = globLockName → ∀ s', sgLockMutex name tid s = .ok (.none, s') →
      ∀ other, other ≠ tid →
        (∀ env ignoreInitErrors, sgCompInit comps env other ignoreInitErrors s' = .error .blocked) ∧
        sgCompDestroy comps other s' = .error .blocked
  | _ => True

/-- Every interleaving of calls keeps to this. -/
def Excludes (comps : List CompInit) (s : CompState) : Prop :=
  ∀ evs, Prog.Always (MutexEv.run comps) (Guarded comps) s evs

def AllUsable (s : CompState) : Prop :=
  ∀ name ∈ lockNames s.requiredLocks, ∀ tid, ∃ s', sgLockMutex name tid s = .ok (.none, s')

end CompState

/-! ### None of it holds -/

section

variable {s : CompState} {tid : Tid}

/-- Every thread waits for "statgrab", its owner included. -/
theorem CompState.Born.blocked (h : s.Born tid) (t : Tid) :
    sgLockMutex globLockName t s = .error .blocked := by
  rw [sgLockMutex, Prog.bind_of_ok (Prog.gets_run _ _), h.entry]
  simp [pthreadMutexLock]

/-- The owner can give the copy back, and then any thread gets it, with `glob_lock` untouched. -/
theorem CompState.Born.taken (h : s.Born tid) (t : Tid) :
    ∃ s1 s2, sgUnlockMutex globLockName tid s = .ok (.none, s1) ∧
      sgLockMutex globLockName t s1 = .ok (.none, s2) ∧ s2.globLock.mutex = .free ∧
      s2.initialized = 1 := by
  let freed : CompState := { s with
    requiredLocks := s.requiredLocks.map fun m =>
      if m.name = globLockName then { m with mutex := .free } else m }
  have hunlock : sgUnlockMutex globLockName tid s = .ok (.none, freed) := by
    rw [sgUnlockMutex, Prog.bind_of_ok (Prog.gets_run _ _), h.entry]
    simp only [pthreadMutexUnlock, if_pos]
    rfl
  have hentry : findLock freed.requiredLocks globLockName = some ⟨globLockName, .free⟩ :=
    findLock_stored h.entry .free
  refine ⟨freed, { freed with
    requiredLocks := freed.requiredLocks.map fun m =>
      if m.name = globLockName then { m with mutex := .held t } else m }, hunlock, ?_, h.lock,
    h.initialized⟩
  rw [sgLockMutex, Prog.bind_of_ok (Prog.gets_run _ _), hentry]
  rfl

/-- After every first `sg_comp_init` that succeeds, whatever the component table: the table has a locked
mutex, its "statgrab" is not `glob_lock`, holding it keeps nobody out, and it cannot be locked. -/
theorem sgCompInit_statgrab_locked (comps : List CompInit) (env : InitEnv) (ignoreInitErrors : Bool)
    {s' : CompState} {rc : SgError} (hname : s.globLock.name = globLockName)
    (hfree : s.globLock.mutex = .free) (hcount : s.initialized = 0)
    (hrun : sgCompInit comps env tid ignoreInitErrors s = .ok (.finished rc, s')) :
    ¬ s'.AllUnlocked ∧ ¬ s'.OneLock ∧ ¬ s'.Excludes comps ∧ ¬ s'.AllUsable := by
  have hborn := sgCompInit_born hname hfree hcount hrun
  have hmem : (⟨globLockName, .held tid⟩ : NamedMutex) ∈ s'.requiredLocks :=
    List.mem_of_find?_eq_some hborn.entry
  refine ⟨?_, ?_, ?_, ?_⟩
  · intro hall
    cases hall _ hmem
  · intro hone
    obtain ⟨s1, hlock⟩ := (hone 0).mpr ⟨_, by rw [sgGlobalLock, if_pos hborn.lock]⟩
    rw [hborn.blocked] at hlock
    cases hlock
  · intro hexcludes
    obtain ⟨s1, s2, hunlock, hlock, hlock2, hone⟩ := hborn.taken 0
    have hguarded := hexcludes [.unlock tid globLockName, .lock 0 globLockName]
    have hev : (MutexEv.unlock tid globLockName).run comps s' = .ok ((), s1) := by
      rw [MutexEv.run, Prog.bind_of_ok hunlock]
      rfl
    rw [Prog.always_cons_of_ok hev] at hguarded
    have hblocked := (hguarded.2.1 rfl s2 hlock 1 (by decide)).1 env false
    rw [sgCompInit_counted hlock2 (by rw [hone]; decide)] at hblocked
    cases hblocked
  · intro husable
    obtain ⟨s1, hlock⟩ := husable globLockName ⟨_, hmem, rfl⟩ 0
    rw [hborn.blocked] at hlock
    cases hlock

end

/-! ### The table on Linux -/

theorem sgCompInit_linux :
    ∃ rc s', sgCompInit linuxComps calmEnv 1 false .start = .ok (.finished rc, s') := by
  have hok : InitGoesThrough linuxComps calmEnv false .start :=
    ⟨rfl, initFnsOk_of_none (fun _ => rfl) false _ 0, reallocsOk_of_all (fun _ => rfl) _ _ 0⟩
  obtain ⟨errc, s1, hrun, -⟩ := sgCompInit_finishing 1 rfl rfl hok
  rw [hrun]
  exact ⟨errc, _, rfl⟩

/-- After `sg_init` in thread 1. -/
theorem statgrab_locked_linux :
    ∃ rc s', sgCompInit linuxComps calmEnv 1 false .start = .ok (.finished rc, s') ∧
      ¬ s'.AllUnlocked ∧ ¬ s'.OneLock ∧ ¬ s'.Excludes linuxComps ∧ ¬ s'.AllUsable := by
  obtain ⟨rc, s', hrun⟩ := sgCompInit_linux
  exact ⟨rc, s', hrun, sgCompInit_statgrab_locked linuxComps calmEnv false rfl rfl rfl hrun⟩

/-- After `sg_init` in thread 1 the table has a mutex that thread 1 holds, and the first
`sg_lock_mutex("statgrab")` of thread 2 waits for ever, with `glob_lock` free. -/
theorem sgLockMutex_blocks_linux :
    ∃ rc s', sgCompInit linuxComps calmEnv 1 false .start = .ok (.finished rc, s') ∧
      ⟨globLockName, .held 1⟩ ∈ s'.requiredLocks ∧ s'.globLock.mutex = .free ∧
      sgLockMutex globLockName 2 s' = .error .blocked := by
  obtain ⟨rc, s', hrun⟩ := sgCompInit_linux
  have hborn := sgCompInit_born rfl rfl rfl hrun
  exact ⟨rc, s', hrun, List.mem_of_find?_eq_some hborn.entry, hborn.lock, hborn.blocked 2⟩

end Statgrab
