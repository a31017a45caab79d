import Statgrab.Lib.Text
import Statgrab.Access.ErrorContract

/-!
# The login records

`sg_get_user_stats_int` reads the users from `utmpx`, from `utmp`, or from `utmp` where `utmpx` has none, under
the mutex "utmp". The lock is taken in the branch for `utmpx`, and given back behind both and in the cleanup of
every error exit. A build with `utmp` alone never takes it.

The second matter is `VECTOR_UPDATE`, which is asked for `num_users + 1` items: its test for 0 items sees
`!num_users + 1`, so a refused vector is no error to it, and the next statement follows NULL.
-/

namespace Statgrab

open Text

/-! ### The data -/

/-- `sg_user_stats`, with the `pid` once it is set. -/
structure UserStats where
  loginName : Option CString
  recordId : Option (List UInt8)
  recordIdSize : Nat
  device : Option CString
  hostname : Option CString
  pid : Option Int
  loginTime : Int
  systime : Int
  deriving DecidableEq, Repr

/-- `sg_user_stats_item_init`. It does not set the `pid`. -/
def UserStats.init : UserStats := ⟨none, none, 0, none, none, none, 0, 0⟩

/-- `VECTOR_INIT_INFO_FULL_INIT(sg_user_stats)`. Three of the functions are defined to be NULL, and the last
gives the strings back. -/
def UserStats.info : VectorInitInfo UserStats :=
  { itemSize := 64, initFn := some fun _ => .init, copyFn := none, computeDiffFn := none, compareFn := none
    destroyFn := some id }

/-- What is read of a `struct utmpx`: `userProcess` says whether `ut_type` is `USER_PROCESS`. The array `ut_id`
has at least one byte. -/
structure Utmpx where
  userProcess : Bool
  utUser : List UInt8
  utHost : List UInt8
  utSyslen : Nat
  utLine : List UInt8
  utId : List UInt8
  utPid : Int
  utTvSec : Int
  sized : utId ≠ []

/-- What is read of a `struct utmp`. -/
structure Utmp where
  userProcess : Bool
  utName : List UInt8
  utUser : List UInt8
  utHost : List UInt8
  utLine : List UInt8
  utId : List UInt8
  utPid : Int
  utTime : Int
  sized : utId ≠ []

inductive LoginDatabases where
  | utmpxOnly
  | utmpOnly
  | both
  deriving DecidableEq, Repr

def LoginDatabases.canUseUtmpx : LoginDatabases → Bool
  | utmpxOnly | both => true
  | utmpOnly => false

/-- What the build found: the databases and the members of the two structures. -/
structure LoginBuild where
  databases : LoginDatabases
  haveUtmpxHost : Bool
  haveUtmpxSyslen : Bool
  haveUtmpType : Bool
  haveUtmpName : Bool
  haveUtmpUser : Bool
  haveUtmpHost : Bool
  haveUtmpId : Bool
  haveUtmpPid : Bool
  haveUtmpTime : Bool
  deriving DecidableEq, Repr

/-- The calls that are seen from outside: those on the mutex "utmp" and those on the databases. -/
inductive LoginEvent where
  | lock
  | unlock
  | setutxent
  | getutxent
  | endutxent
  | setutent
  | getutent
  | endutent
  deriving DecidableEq, Repr

def LoginEvent.touches : LoginEvent → Bool
  | lock | unlock => false
  | _ => true

/-- The vector of the users and the calls so far. Of the next `VECTOR_CREATE_OR_RESIZE` calls it is given which
are refused, and with which error. -/
structure Logins extends Thread where
  refused : Nat → Option ErrorGlob
  users : Option (List UserStats)
  trace : List LoginEvent

abbrev LoginM := Prog Fault Logins

/-! ### The code -/

def onLoginThread {β : Type} (x : ThreadM β) : LoginM β :=
  Prog.zoom Logins.toThread (fun s t => { s with toThread := t }) x

def call (event : LoginEvent) : LoginM Unit := Prog.modify fun s => { s with trace := s.trace ++ [event] }

/-- A vector with `n` items: the first ones are kept, and the new ones are initialised. -/
def resizeUsers (users : Option (List UserStats)) (n : Nat) : List UserStats :=
  (users.getD []).take n ++ List.replicate (n - (users.getD []).length) .init

/-- `VECTOR_UPDATE(.., num_users + 1, ..)`: the code it returns with, if it does. -/
def updateUsers (numUsers : Nat) : LoginM (Except SgError Unit) := do
  let answer ← Prog.gets fun s => s.refused 0
  Prog.modify fun s => { s with refused := fun n => s.refused (n + 1) }
  match answer with
  | none => do
      Prog.modify fun s => { s with users := some (resizeUsers s.users (numUsers + 1)) }
      return .ok ()
  | some glob => do
      Prog.modify fun s => { s with glob := glob, users := none }
      if (CountArg.sum numUsers 1).negated then return .ok ()
      else do
        let rc ← onLoginThread sgGetError
        return .error rc

def onUser (i : Nat) (fn : ItemFn UserStats) : LoginM SgError := do
  let users ← Prog.gets Logins.users
  match users with
  | none => Prog.fault .nullPointer
  | some users =>
      match users[i]? with
      | none => Prog.fault .outOfBlock
      | some item => do
          let (rc, item) ← onLoginThread (fn item)
          Prog.modify fun s => { s with users := some (users.set i item) }
          return rc

/-- `sg_lupdate_string` of a member, with the bytes of a field. -/
def copyField (get : UserStats → Option CString) (set : UserStats → Option CString → UserStats)
    (field : List UInt8) : ItemFn UserStats := fun item => do
  let (rc, s) ← sgUpdateString (get item) (some (upToNul field))
  return (rc, set item s)

/-- `sg_lupdate_string(&login_name, field, sizeof(field))`. -/
def copyLoginName : List UInt8 → ItemFn UserStats :=
  copyField UserStats.loginName fun item s => { item with loginName := s }

/-- `sg_lupdate_string(&device, field, sizeof(field))`. -/
def copyDevice : List UInt8 → ItemFn UserStats :=
  copyField UserStats.device fun item s => { item with device := s }

/-- `sg_lupdate_string(&hostname, field, sizeof(field))`. -/
def copyHostname : List UInt8 → ItemFn UserStats :=
  copyField UserStats.hostname fun item s => { item with hostname := s }

/-- `sg_update_mem(&record_id, ut_id, sizeof(ut_id))`. -/
def copyRecordId (field : List UInt8) : ItemFn UserStats := fun item => do
  let (rc, s) ← sgUpdateMem item.recordId (some field)
  return (rc, { item with recordId := s.join })

/-- What the reader of the users is made of: the calls that are seen from outside, `VECTOR_UPDATE` for one more
user, a function on a user, and the error of the thread. -/
structure LoginOps (M : Type → Type) where
  call : LoginEvent → M Unit
  updateUsers : Nat → M (Except SgError Unit)
  onUser : Nat → ItemFn UserStats → M SgError
  previousError : M SgError

@[reducible] def loginOps : LoginOps LoginM :=
  ⟨call, updateUsers, onUser, onLoginThread returnFromPreviousError⟩

/-- What the loops over the two databases differ in: their calls, the records they skip, the copies and the
other members that are set. -/
structure LoginSource (β : Type) where
  set : LoginEvent
  get : LoginEvent
  stop : LoginEvent
  skipped : β → Bool
  copies : β → List (ItemFn UserStats)
  finish : β → UserStats → UserStats

section

variable {M : Type → Type} [Monad M] (ops : LoginOps M) {β : Type}

/-- The loop over the records of a database: the number of users, or the code it returns with. -/
def readLogins (source : LoginSource β) : List β → Nat → M (Except SgError Nat)
  | [], numUsers => do
      ops.call source.get
      return .ok numUsers
  | record :: records, numUsers => do
      ops.call source.get
      if source.skipped record then readLogins source records numUsers
      else do
        let updated ← ops.updateUsers numUsers
        match updated with
        | .error rc => do
            ops.call source.stop
            ops.call .unlock
            return .error rc
        | .ok () => do
            let rc ← ops.onUser numUsers (runCopies (source.copies record))
            if rc ≠ .none then do
              ops.call source.stop
              ops.call .unlock
              let rc ← ops.previousError
              return .error rc
            else do
              let _ ← ops.onUser numUsers fun item => return (.none, source.finish record item)
              readLogins source records (numUsers + 1)

def readDatabase (source : LoginSource β) (records : List β) : M (Except SgError Nat) := do
  ops.call source.set
  let result ← readLogins ops source records 0
  match result with
  | .error rc => return .error rc
  | .ok numUsers => do
      ops.call source.stop
      return .ok numUsers

def finishUsers : Except SgError Nat → M SgError
  | .error rc => return rc
  | .ok _ => do
      ops.call .unlock
      return .none

end

def utmpxSource (build : LoginBuild) (now : Int) : LoginSource Utmpx where
  set := .setutxent
  get := .getutxent
  stop := .endutxent
  skipped := fun utx => !utx.userProcess
  copies := fun utx =>
    [copyLoginName utx.utUser] ++
    (if build.haveUtmpxHost then
      [copyHostname (if build.haveUtmpxSyslen then utx.utHost.take (utx.utSyslen + 1) else utx.utHost)] else []) ++
    [copyDevice utx.utLine, copyRecordId utx.utId]
  finish := fun utx item =>
    { item with recordIdSize := utx.utId.length, pid := some utx.utPid, loginTime := utx.utTvSec, systime := now }

def utmpSource (build : LoginBuild) (now : Int) : LoginSource Utmp where
  set := .setutent
  get := .getutent
  stop := .endutent
  skipped := fun ut =>
    if build.haveUtmpType then !ut.userProcess
    else if build.haveUtmpName then ut.utName.head? = some 0
    else if build.haveUtmpUser then ut.utUser.head? = some 0
    else false
  copies := fun ut =>
    [copyDevice ut.utLine] ++
    (if build.haveUtmpUser then [copyLoginName ut.utUser]
      else if build.haveUtmpName then [copyLoginName ut.utName] else []) ++
    (if build.haveUtmpHost then [copyHostname ut.utHost] else []) ++
    (if build.haveUtmpId then [copyRecordId ut.utId] else [])
  finish := fun ut item =>
    { item with
      recordIdSize := if build.haveUtmpId then ut.utId.length else item.recordIdSize
      pid := if build.haveUtmpPid then some ut.utPid else item.pid
      loginTime := if build.haveUtmpTime then ut.utTime else item.loginTime
      systime := now }

/-- `sg_get_user_stats_int` in a build with threads, with the records of the two databases and what `time`
returns. -/
def sgGetUserStatsInt {M : Type → Type} [Monad M] (ops : LoginOps M) (build : LoginBuild) (now : Int)
    (utmpx : List Utmpx) (utmp : List Utmp) : M SgError :=
  match build.databases with
  | .utmpOnly => do
      let result ← readDatabase ops (utmpSource build now) utmp
      finishUsers ops result
  | .utmpxOnly => do
      ops.call .lock
      let result ← readDatabase ops (utmpxSource build now) utmpx
      finishUsers ops result
  | .both => do
      ops.call .lock
      let result ← readDatabase ops (utmpxSource build now) utmpx
      match result with
      | .ok 0 => do
          let result ← readDatabase ops (utmpSource build now) utmp
          finishUsers ops result
      | result => finishUsers ops result

/-- The reader at work on a vector, with the calls so far. -/
structure UserReading extends World UserStats where
  vector : Option Ptr
  trace : List LoginEvent

def onUserVectors {β : Type} (x : VecM UserStats β) : Prog Fault UserReading β :=
  Prog.zoom UserReading.toWorld (fun s w => { s with toWorld := w }) x

/-- The users are in the vector, which `VECTOR_UPDATE` makes larger. -/
@[reducible] def userVectorOps : LoginOps (Prog Fault UserReading) where
  call event := Prog.modify fun s => { s with trace := s.trace ++ [event] }
  updateUsers numUsers := do
    let vector ← Prog.gets UserReading.vector
    let updated ← onUserVectors (vectorUpdated UserStats.info vector (.sum numUsers 1))
    match updated with
    | .error rc => do
        Prog.modify fun s => { s with vector := none }
        return .error rc
    | .ok vector => do
        Prog.modify fun s => { s with vector := vector }
        return .ok ()
  onUser i fn := do
    let vector ← Prog.gets UserReading.vector
    match vector with
    | none => Prog.fault .nullPointer
    | some p => onUserVectors (onItem p i fn)
  previousError := onUserVectors (onThread returnFromPreviousError)

def fillUserStats (build : LoginBuild) (now : Int) (utmpx : List Utmpx) (utmp : List Utmp) : FillFn UserStats :=
  fun vector w =>
    match sgGetUserStatsInt userVectorOps build now utmpx utmp ⟨w, vector, []⟩ with
    | .error e => .error e
    | .ok (rc, s) => .ok ((rc, s.vector), s.toWorld)

/-! ### The copies of a record -/

/-- The function asks for memory once, and reports it if there is none. -/
def AsksOnce (fn : ItemFn UserStats) : Prop := ∀ item t,
  (t.mem 0 = true → ∃ item', fn item t = .ok ((.none, item'), t.answered)) ∧
  (t.mem 0 = false → ∃ rc item' t', fn item t = .ok ((rc, item'), t') ∧ rc ≠ .none)

theorem sgUpdateString_asks (dest : Option CString) (src : CString) (t : Thread) :
    (t.mem 0 = true → sgUpdateString dest (some src) t = .ok ((.none, some src), t.answered)) ∧
    (t.mem 0 = false → ∃ t', sgUpdateString dest (some src) t = .ok ((.malloc, dest), t')) := by
  constructor
  · intro hmem
    rw [sgUpdateString, Prog.bind_of_ok (sgRealloc_of_mem (Nat.succ_ne_zero _) hmem)]
    rfl
  · intro hmem
    rw [sgUpdateString, Prog.bind_of_ok (sgRealloc_of_not_mem (Nat.succ_ne_zero _) hmem)]
    exact ⟨_, rfl⟩

theorem copyField_asks (get : UserStats → Option CString) (set : UserStats → Option CString → UserStats)
    (field : List UInt8) : AsksOnce (copyField get set field) := by
  intro item t
  obtain ⟨hyes, hno⟩ := sgUpdateString_asks (get item) (upToNul field) t
  constructor
  · intro hmem
    exact ⟨_, Prog.bind_of_ok (hyes hmem) _⟩
  · intro hmem
    obtain ⟨t', hrun⟩ := hno hmem
    exact ⟨_, _, t', Prog.bind_of_ok hrun _, by decide⟩

theorem copyRecordId_asks {field : List UInt8} (hne : field ≠ []) : AsksOnce (copyRecordId field) := by
  intro item t
  have hsize : field.length ≠ 0 := fun hzero => hne (List.length_eq_zero_iff.mp hzero)
  constructor
  · intro hmem
    have hrun : sgUpdateMem item.recordId (some field) t = .ok ((.none, some (some field)), t.answered) := by
      rw [sgUpdateMem, Prog.bind_of_ok (sgRealloc_of_mem hsize hmem)]
      rfl
    exact ⟨_, Prog.bind_of_ok hrun _⟩
  · intro hmem
    have hrun : sgUpdateMem item.recordId (some field) t
        = .ok ((.malloc, some item.recordId), { t.answered with glob := reallocError field.length }) := by
      rw [sgUpdateMem, Prog.bind_of_ok (sgRealloc_of_not_mem hsize hmem), if_neg Bool.false_ne_true]
      simp only [if_neg hsize]
      rfl
    exact ⟨_, _, _, Prog.bind_of_ok hrun _, by decide⟩

theorem runCopies_run {copies : List (ItemFn UserStats)} (hcopies : ∀ fn ∈ copies, AsksOnce fn)
    (item : UserStats) (t : Thread) :
    ((∀ n < copies.length, t.mem n = true) → ∃ item' t', runCopies copies item t = .ok ((.none, item'), t') ∧
      t'.mem = fun n => t.mem (n + copies.length)) ∧
    ((¬ ∀ n < copies.length, t.mem n = true) →
      ∃ rc item' t', runCopies copies item t = .ok ((rc, item'), t') ∧ rc ≠ .none) := by
  induction copies generalizing item t with
  | nil =>
      refine ⟨fun _ => ⟨item, t, rfl, rfl⟩, fun hno => ?_⟩
      exact absurd (fun n hn => absurd hn (Nat.not_lt_zero n)) hno
  | cons copy copies ih =>
      obtain ⟨hyes, hno⟩ := hcopies copy List.mem_cons_self item t
      have hrest := fun fn hfn => hcopies fn (List.mem_cons_of_mem copy hfn)
      cases hmem : t.mem 0 with
      | false =>
          obtain ⟨rc, item1, t1, hrun, hrc⟩ := hno hmem
          have hstop : runCopies (copy :: copies) item t = .ok ((rc, item1), t1) := by
            rw [runCopies, Prog.bind_of_ok hrun]
            exact congrFun (if_pos hrc) t1
          refine ⟨fun hall => ?_, fun _ => ⟨rc, item1, t1, hstop, hrc⟩⟩
          rw [hall 0 (by simp)] at hmem
          cases hmem
      | true =>
          obtain ⟨item1, hrun⟩ := hyes hmem
          have hgo : runCopies (copy :: copies) item t = runCopies copies item1 t.answered := by
            rw [runCopies, Prog.bind_of_ok hrun]
            exact congrFun (if_neg (by decide)) t.answered
          have hshift : (∀ n < (copy :: copies).length, t.mem n = true) ↔
              ∀ n < copies.length, t.answered.mem n = true := by
            constructor
            · intro hall n hn
              exact hall (n + 1) (Nat.succ_lt_succ hn)
            · intro hall n hn
              cases n with
              | zero => exact hmem
              | succ n => exact hall n (Nat.lt_of_succ_lt_succ hn)
          obtain ⟨hall, hsome⟩ := ih hrest item1 t.answered
          rw [hgo, hshift]
          refine ⟨fun h => ?_, hsome⟩
          obtain ⟨item', t', hrun', hmem'⟩ := hall h
          refine ⟨item', t', hrun', ?_⟩
          rw [hmem']
          funext n
          exact congrArg t.mem (by rw [List.length_cons]; omega)

/-! ### The loop -/

/-- Every `VECTOR_UPDATE` that is reached gets its memory, with `users` records to store and `copies` copies for
each: the one for the record `k` is reached if the copies of all records before it got theirs. -/
def VectorsGranted (copies : Nat) (s : Logins) (users : Nat) : Prop :=
  ∀ k < users, (∀ n < copies * k, s.mem n = true) → s.refused k = none

/-- The state once a record is stored. -/
def Logins.After (s s' : Logins) (copies : Nat) : Prop :=
  (s'.mem = fun n => s.mem (n + copies)) ∧ s'.refused = fun n => s.refused (n + 1)

theorem vectorsGranted_succ {copies : Nat} {s s' : Logins} (hafter : s.After s' copies) (users : Nat) :
    VectorsGranted copies s (users + 1) ↔
      s.refused 0 = none ∧ ((∀ n < copies, s.mem n = true) → VectorsGranted copies s' users) := by
  obtain ⟨hmem, hrefused⟩ := hafter
  simp only [VectorsGranted, hmem, hrefused]
  constructor
  · intro h
    refine ⟨h 0 (Nat.succ_pos _) fun n hn => absurd hn (by simp), ?_⟩
    intro hfirst k hk hall
    apply h (k + 1) (Nat.succ_lt_succ hk)
    intro n hn
    by_cases hlt : n < copies
    · exact hfirst n hlt
    · have hn' : n - copies < copies * k := by
        rw [Nat.mul_succ] at hn
        omega
      have hback := hall (n - copies) hn'
      rwa [Nat.sub_add_cancel (Nat.le_of_not_lt hlt)] at hback
  · rintro ⟨h0, hrest⟩ k hk hall
    cases k with
    | zero => exact h0
    | succ k =>
        have hmul : copies * (k + 1) = copies * k + copies := Nat.mul_succ _ _
        refine hrest (fun n hn => hall n (by omega)) k (Nat.lt_of_succ_lt_succ hk) ?_
        intro n hn
        exact hall (n + copies) (by omega)

/-- A loop whose records all need as many copies. -/
structure LoginSource.Regular {β : Type} (source : LoginSource β) (copies : Nat) : Prop where
  length : ∀ record, (source.copies record).length = copies
  copied : ∀ record, ∀ fn ∈ source.copies record, (∃ get set field, fn = copyField get set field) ∨
    ∃ field, field ≠ [] ∧ fn = copyRecordId field

theorem LoginSource.Regular.asks {β : Type} {source : LoginSource β} {copies : Nat} (h : source.Regular copies)
    (record : β) : ∀ fn ∈ source.copies record, AsksOnce fn := by
  intro fn hfn
  rcases h.copied record fn hfn with ⟨get, set, field, rfl⟩ | ⟨field, hne, rfl⟩
  · exact copyField_asks get set field
  · exact copyRecordId_asks hne

theorem copyField_leavesErrors (get : UserStats → Option CString) (set : UserStats → Option CString → UserStats)
    (field : List UInt8) : ItemFn.LeavesErrors (copyField get set field) := by
  intro item t rc x t' h hne
  obtain ⟨⟨rc1, s⟩, t1, hupdate, h⟩ := Prog.bind_eq_ok.mp h
  cases h
  rw [sgUpdateString_refused hupdate hne]
  decide

theorem copyRecordId_leavesErrors (field : List UInt8) : ItemFn.LeavesErrors (copyRecordId field) := by
  intro item t rc x t' h hne
  obtain ⟨⟨rc1, s⟩, t1, hupdate, h⟩ := Prog.bind_eq_ok.mp h
  cases h
  rw [sgUpdateMem_error hupdate hne]
  exact hne

theorem LoginSource.Regular.copies_leaveErrors {β : Type} {source : LoginSource β} {copies : Nat}
    (h : source.Regular copies) (record : β) : ItemFn.LeavesErrors (runCopies (source.copies record)) := by
  apply runCopies_leavesErrors
  intro fn hfn
  rcases h.copied record fn hfn with ⟨get, set, field, rfl⟩ | ⟨field, -, rfl⟩
  · exact copyField_leavesErrors get set field
  · exact copyRecordId_leavesErrors field

/-- What a loop leaves: the records were all read, or it gave up and cleaned up. -/
structure LoopDone {β : Type} (source : LoginSource β) (s s' : Logins) (numUsers users : Nat)
    (result : Except SgError Nat) : Prop where
  trace : ∃ calls, (∀ event ∈ calls, event = source.get) ∧
    (result = .ok (numUsers + users) ∧ s'.trace = s.trace ++ calls ∨
      ∃ rc, result = .error rc ∧ s'.trace = s.trace ++ calls ++ [source.stop, .unlock])
  idle : users = 0 → result = .ok numUsers ∧ s'.mem = s.mem ∧ s'.refused = s.refused

def Logins.called (s : Logins) (event : LoginEvent) : Logins := { s with trace := s.trace ++ [event] }

/-- The state once the vector has room for this user. -/
def Logins.roomFor (s : Logins) (numUsers : Nat) : Logins :=
  { s with refused := fun n => s.refused (n + 1), users := some (resizeUsers s.users (numUsers + 1)) }

@[simp] theorem called_trace (s : Logins) (event : LoginEvent) : (s.called event).trace = s.trace ++ [event] := rfl

theorem call_run (event : LoginEvent) (s : Logins) : call event s = .ok ((), s.called event) := rfl

section Loop

variable {β : Type} {source : LoginSource β} {copies : Nat} {s : Logins}

theorem updateUsers_granted (h : s.refused 0 = none) (numUsers : Nat) :
    updateUsers numUsers s = .ok (.ok (), s.roomFor numUsers) := by
  rw [updateUsers, Prog.bind_of_ok (Prog.gets_run _ _), Prog.bind_of_ok (Prog.modify_run _ _), h]
  rfl

/-- A refused vector is taken for one that was asked to be empty. -/
theorem updateUsers_refused {glob : ErrorGlob} (h : s.refused 0 = some glob) (numUsers : Nat) :
    ∃ s', updateUsers numUsers s = .ok (.ok (), s') ∧ s'.users = none := by
  have hnegated : (CountArg.sum numUsers 1).negated = true := by simp [CountArg.negated]
  rw [updateUsers, Prog.bind_of_ok (Prog.gets_run _ _), Prog.bind_of_ok (Prog.modify_run _ _), h]
  simp only
  rw [Prog.bind_of_ok (Prog.modify_run _ _), if_pos hnegated]
  exact ⟨_, rfl, rfl⟩

theorem resizeUsers_item (users : Option (List UserStats)) (n : Nat) :
    ∃ item, (resizeUsers users (n + 1))[n]? = some item := by
  have hlt : n < (resizeUsers users (n + 1)).length := by
    rw [resizeUsers, List.length_append, List.length_take, List.length_replicate]
    omega
  exact ⟨_, List.getElem?_eq_getElem hlt⟩

theorem onUser_run {i : Nat} {fn : ItemFn UserStats} {users : List UserStats} {item item' : UserStats}
    {rc : SgError} {t : Thread} (husers : s.users = some users) (hitem : users[i]? = some item)
    (hfn : fn item s.toThread = .ok ((rc, item'), t)) :
    onUser i fn s = .ok (rc, { s with toThread := t, users := some (users.set i item') }) := by
  rw [onUser, Prog.bind_of_ok (Prog.gets_run _ _), husers]
  simp only [hitem]
  rw [Prog.bind_of_ok (show onLoginThread (fn item) s = _ from Prog.zoom_of_ok hfn)]
  rfl

theorem readLogins_skip {record : β} (hskip : source.skipped record = true) (records : List β) (numUsers : Nat) :
    readLogins loginOps source (record :: records) numUsers s =
      readLogins loginOps source records numUsers (s.called source.get) := by
  rw [readLogins, Prog.bind_of_ok (call_run _ _), if_pos hskip]

theorem readLogins_refusal {record : β} (hskip : source.skipped record = false) {glob : ErrorGlob}
    (hrefused : s.refused 0 = some glob) (records : List β) (numUsers : Nat) :
    readLogins loginOps source (record :: records) numUsers s = .error .nullPointer := by
  obtain ⟨s', hupdate, husers⟩ := @updateUsers_refused (s.called source.get) glob hrefused numUsers
  have hnull : onUser numUsers (runCopies (source.copies record)) s' = .error .nullPointer := by
    rw [onUser, Prog.bind_of_ok (Prog.gets_run _ _), husers]
    rfl
  rw [readLogins, Prog.bind_of_ok (call_run _ _), if_neg (by simp [hskip]), Prog.bind_of_ok hupdate]
  exact Prog.bind_of_error hnull _

theorem readLogins_stored {record : β} (hskip : source.skipped record = false) (hgranted : s.refused 0 = none)
    (records : List β) (numUsers : Nat) :
    readLogins loginOps source (record :: records) numUsers s = (do
      let rc ← onUser numUsers (runCopies (source.copies record))
      if rc ≠ .none then do
        call source.stop
        call .unlock
        let rc ← onLoginThread returnFromPreviousError
        return .error rc
      else do
        let _ ← onUser numUsers fun item => return (.none, source.finish record item)
        readLogins loginOps source records (numUsers + 1) : LoginM (Except SgError Nat))
      ((s.called source.get).roomFor numUsers) := by
  rw [readLogins, Prog.bind_of_ok (call_run _ _), if_neg (by simp [hskip]),
    Prog.bind_of_ok (@updateUsers_granted (s.called source.get) hgranted numUsers)]

theorem readLogins_failed {record : β} (hskip : source.skipped record = false) (hgranted : s.refused 0 = none)
    {numUsers : Nat} {item item' : UserStats} {rc : SgError} {t : Thread}
    (hitem : (resizeUsers s.users (numUsers + 1))[numUsers]? = some item)
    (hcopies : runCopies (source.copies record) item s.toThread = .ok ((rc, item'), t)) (hrc : rc ≠ .none)
    (records : List β) :
    ∃ s1, readLogins loginOps source (record :: records) numUsers s = .ok (.error t.error, s1) ∧
      s1.trace = s.trace ++ [source.get] ++ [source.stop, .unlock] := by
  rw [readLogins_stored hskip hgranted,
    Prog.bind_of_ok (@onUser_run ((s.called source.get).roomFor numUsers) _ _ _ _ _ _ _ rfl hitem hcopies), if_pos hrc]
  refine ⟨(({ (s.called source.get).roomFor numUsers with
    toThread := t
    users := some ((resizeUsers s.users (numUsers + 1)).set numUsers item') } : Logins).called source.stop).called
      .unlock, rfl, ?_⟩
  exact List.append_assoc _ [source.stop] [.unlock]

/-- A record is stored, or the loop is left through its cleanup. -/
theorem readLogins_user (hreg : source.Regular copies) {record : β} (hskip : source.skipped record = false)
    (hgranted : s.refused 0 = none) (records : List β) (numUsers : Nat) :
    ((∀ n < copies, s.mem n = true) → ∃ s1,
      readLogins loginOps source (record :: records) numUsers s = readLogins loginOps source records (numUsers + 1) s1 ∧
      s.After s1 copies ∧ s1.trace = s.trace ++ [source.get]) ∧
    ((¬ ∀ n < copies, s.mem n = true) → ∃ rc s1,
      readLogins loginOps source (record :: records) numUsers s = .ok (.error rc, s1) ∧
      s1.trace = s.trace ++ [source.get] ++ [source.stop, .unlock]) := by
  obtain ⟨item, hitem⟩ := resizeUsers_item s.users numUsers
  obtain ⟨hall, hsome⟩ := runCopies_run (hreg.asks record) item s.toThread
  rw [hreg.length record] at hall hsome
  have hset : ∀ item', ((resizeUsers s.users (numUsers + 1)).set numUsers item')[numUsers]? = some item' := by
    intro item'
    obtain ⟨hlt, -⟩ := List.getElem?_eq_some_iff.mp hitem
    rw [List.getElem?_set_self hlt]
  constructor
  · intro hmem
    obtain ⟨item', t', hcopies, hmem'⟩ := hall hmem
    rw [readLogins_stored hskip hgranted,
      Prog.bind_of_ok (@onUser_run ((s.called source.get).roomFor numUsers) _ _ _ _ _ _ _ rfl hitem hcopies),
      if_neg (by decide)]
    exact ⟨_, Prog.bind_of_ok (@onUser_run { (s.called source.get).roomFor numUsers with
      toThread := t'
      users := some ((resizeUsers s.users (numUsers + 1)).set numUsers item') } numUsers
        (fun item => return (.none, source.finish record item)) _ _ _ _ _ rfl (hset item') rfl) _, ⟨hmem', rfl⟩, rfl⟩
  · intro hmem
    obtain ⟨rc, item', t', hcopies, hrc⟩ := hsome hmem
    obtain ⟨s1, hrun, htrace⟩ := readLogins_failed hskip hgranted hitem hcopies hrc records
    exact ⟨t'.error, s1, hrun, htrace⟩

def LoginSource.users (source : LoginSource β) (records : List β) : Nat :=
  records.countP fun record => !source.skipped record

theorem users_skip {record : β} (hskip : source.skipped record = true) (records : List β) :
    source.users (record :: records) = source.users records := by
  rw [LoginSource.users, List.countP_cons_of_neg (by simp [hskip]), LoginSource.users]

theorem users_stored {record : β} (hskip : source.skipped record = false) (records : List β) :
    source.users (record :: records) = source.users records + 1 := by
  rw [LoginSource.users, List.countP_cons_of_pos (by simp [hskip]), LoginSource.users]

theorem LoopDone.traced {s1 s' : Logins} {numUsers numUsers1 users users1 : Nat} {result : Except SgError Nat}
    (hrest : LoopDone source s1 s' numUsers1 users1 result) (htrace : s1.trace = s.trace ++ [source.get])
    (hsum : numUsers1 + users1 = numUsers + users) :
    ∃ calls, (∀ event ∈ calls, event = source.get) ∧
      (result = .ok (numUsers + users) ∧ s'.trace = s.trace ++ calls ∨
        ∃ rc, result = .error rc ∧ s'.trace = s.trace ++ calls ++ [source.stop, .unlock]) := by
  obtain ⟨calls, hcalls, hend⟩ := hrest.trace
  have hcons : s1.trace ++ calls = s.trace ++ (source.get :: calls) := by
    rw [htrace, ← List.append_cons]
  rw [hcons, hsum] at hend
  exact ⟨source.get :: calls, List.forall_mem_cons.mpr ⟨rfl, hcalls⟩, hend⟩

/-- Where every vector that is reached gets its memory, the loop ends. -/
theorem readLogins_granted (hreg : source.Regular copies) (records : List β) (numUsers : Nat)
    (hgranted : VectorsGranted copies s (source.users records)) :
    ∃ result s', readLogins loginOps source records numUsers s = .ok (result, s') ∧
      LoopDone source s s' numUsers (source.users records) result := by
  induction records generalizing numUsers s with
  | nil =>
      refine ⟨.ok numUsers, s.called source.get, rfl, ?_, fun _ => ⟨rfl, rfl, rfl⟩⟩
      exact ⟨[source.get], by simp, .inl ⟨rfl, rfl⟩⟩
  | cons record records ih =>
      cases hskip : source.skipped record with
      | true =>
          rw [users_skip hskip] at hgranted ⊢
          obtain ⟨result, s', hrun, hdone⟩ := ih numUsers (s := s.called source.get) hgranted
          refine ⟨result, s', (readLogins_skip hskip records numUsers).trans hrun, hdone.traced rfl rfl, ?_⟩
          exact hdone.idle
      | false =>
          rw [users_stored hskip] at hgranted ⊢
          have hrefused : s.refused 0 = none :=
            hgranted 0 (Nat.succ_pos _) fun n hn => absurd hn (by simp)
          obtain ⟨hstored, hleft⟩ := readLogins_user hreg hskip hrefused records numUsers
          by_cases hmem : ∀ n < copies, s.mem n = true
          · obtain ⟨s1, hgo, hafter, htrace⟩ := hstored hmem
            have hrest := ((vectorsGranted_succ hafter _).mp hgranted).2 hmem
            obtain ⟨result, s', hrun, hdone⟩ := ih (numUsers + 1) hrest
            refine ⟨result, s', hgo.trans hrun, hdone.traced htrace (by omega), ?_⟩
            exact fun hzero => absurd hzero (Nat.succ_ne_zero _)
          · obtain ⟨rc, s1, hrun, htrace⟩ := hleft hmem
            refine ⟨.error rc, s1, hrun, ⟨[source.get], by simp, .inr ⟨rc, rfl, htrace⟩⟩, ?_⟩
            exact fun hzero => absurd hzero (Nat.succ_ne_zero _)

theorem readLogins_refused (hreg : source.Regular copies) (records : List β) (numUsers : Nat)
    (hgranted : ¬ VectorsGranted copies s (source.users records)) :
    readLogins loginOps source records numUsers s = .error .nullPointer := by
  induction records generalizing numUsers s with
  | nil => exact absurd (fun k hk => absurd hk (Nat.not_lt_zero k)) hgranted
  | cons record records ih =>
      cases hskip : source.skipped record with
      | true =>
          rw [users_skip hskip] at hgranted
          rw [readLogins_skip hskip]
          exact ih (s := s.called source.get) numUsers hgranted
      | false =>
          rcases Option.eq_none_or_eq_some (s.refused 0) with hnone | ⟨glob, hsome⟩
          · rw [users_stored hskip] at hgranted
            obtain ⟨hstored, -⟩ := readLogins_user hreg hskip hnone records numUsers
            by_cases hmem : ∀ n < copies, s.mem n = true
            · obtain ⟨s1, hgo, hafter, -⟩ := hstored hmem
              rw [hgo]
              refine ih (numUsers + 1) fun hrest => hgranted ?_
              exact (vectorsGranted_succ hafter _).mpr ⟨hnone, fun _ => hrest⟩
            · -- the copies of this record fail, so no later vector is reached
              refine absurd (fun k hk hall => ?_) hgranted
              cases k with
              | zero => exact hnone
              | succ k =>
                  refine absurd (fun n hn => hall n ?_) hmem
                  exact Nat.lt_of_lt_of_le hn (Nat.le_mul_of_pos_right copies (Nat.succ_pos k))
          · exact readLogins_refusal hskip hsome records numUsers

end Loop

/-! ### The two databases -/

def LoginBuild.utmpxCopies (build : LoginBuild) : Nat := if build.haveUtmpxHost then 4 else 3

def LoginBuild.utmpCopies (build : LoginBuild) : Nat :=
  1 + (if build.haveUtmpUser || build.haveUtmpName then 1 else 0) + (if build.haveUtmpHost then 1 else 0) +
    (if build.haveUtmpId then 1 else 0)

theorem utmpxSource_regular (build : LoginBuild) (now : Int) :
    (utmpxSource build now).Regular build.utmpxCopies where
  length := by
    intro utx
    cases hhost : build.haveUtmpxHost <;> simp [utmpxSource, LoginBuild.utmpxCopies, hhost]
  copied := by
    intro utx fn hfn
    have hmem : fn = copyLoginName utx.utUser ∨ (∃ field, fn = copyHostname field) ∨
        fn = copyDevice utx.utLine ∨ fn = copyRecordId utx.utId := by
      cases hhost : build.haveUtmpxHost <;> simp [utmpxSource, hhost] at hfn <;> grind
    rcases hmem with rfl | ⟨field, rfl⟩ | rfl | rfl
    · exact .inl ⟨_, _, _, rfl⟩
    · exact .inl ⟨_, _, _, rfl⟩
    · exact .inl ⟨_, _, _, rfl⟩
    · exact .inr ⟨_, utx.sized, rfl⟩

theorem utmpSource_regular (build : LoginBuild) (now : Int) :
    (utmpSource build now).Regular build.utmpCopies where
  length := by
    intro ut
    cases huser : build.haveUtmpUser <;> cases hname : build.haveUtmpName <;>
      cases hhost : build.haveUtmpHost <;> cases hid : build.haveUtmpId <;>
      simp [utmpSource, LoginBuild.utmpCopies, huser, hname, hhost, hid]
  copied := by
    intro ut fn hfn
    have hmem : fn = copyDevice ut.utLine ∨ (∃ field, fn = copyLoginName field) ∨
        fn = copyHostname ut.utHost ∨ fn = copyRecordId ut.utId := by
      simp only [utmpSource, List.mem_append, List.mem_singleton] at hfn
      rcases hfn with ((hfn | hfn) | hfn) | hfn
      · exact .inl hfn
      · refine .inr (.inl ?_)
        split at hfn
        · exact ⟨_, List.mem_singleton.mp hfn⟩
        · split at hfn
          · exact ⟨_, List.mem_singleton.mp hfn⟩
          · cases hfn
      · split at hfn
        · exact .inr (.inr (.inl (List.mem_singleton.mp hfn)))
        · cases hfn
      · split at hfn
        · exact .inr (.inr (.inr (List.mem_singleton.mp hfn)))
        · cases hfn
    rcases hmem with rfl | ⟨field, rfl⟩ | rfl | rfl
    · exact .inl ⟨_, _, _, rfl⟩
    · exact .inl ⟨_, _, _, rfl⟩
    · exact .inl ⟨_, _, _, rfl⟩
    · exact .inr ⟨_, ut.sized, rfl⟩

section Database

variable {β : Type} {source : LoginSource β} {copies : Nat} {s : Logins}

/-- The calls of a loop are calls on the database. -/
def LoginSource.Touches (source : LoginSource β) : Prop :=
  source.set.touches = true ∧ source.get.touches = true ∧ source.stop.touches = true

/-- What reading a database leaves. After an error the mutex is given back. -/
structure DatabaseDone (s s' : Logins) (users : Nat) (result : Except SgError Nat) : Prop where
  trace : ∃ calls, (∀ event ∈ calls, event.touches = true) ∧
    (result = .ok users ∧ s'.trace = s.trace ++ calls ∨
      ∃ rc, result = .error rc ∧ s'.trace = s.trace ++ calls ++ [.unlock])
  idle : users = 0 → result = .ok 0 ∧ s'.mem = s.mem ∧ s'.refused = s.refused

theorem readDatabase_granted (hreg : source.Regular copies) (htouches : source.Touches) (records : List β)
    (hgranted : VectorsGranted copies s (source.users records)) :
    ∃ result s', readDatabase loginOps source records s = .ok (result, s') ∧
      DatabaseDone s s' (source.users records) result := by
  obtain ⟨hset, hget, hstop⟩ := htouches
  obtain ⟨result, s1, hrun, hdone⟩ :=
    readLogins_granted (s := s.called source.set) hreg records 0 hgranted
  obtain ⟨calls, hcalls, hend⟩ := hdone.trace
  have htouched : ∀ event ∈ source.set :: (calls ++ [source.stop]), event.touches = true := by
    intro event hevent
    simp only [List.mem_cons, List.mem_append, List.not_mem_nil, or_false] at hevent
    rcases hevent with rfl | hevent | rfl
    · exact hset
    · rw [hcalls event hevent]
      exact hget
    · exact hstop
  rcases hend with ⟨rfl, htrace⟩ | ⟨rc, rfl, htrace⟩
  · refine ⟨.ok (source.users records), { s1 with trace := s1.trace ++ [source.stop] }, ?_, ?_, ?_⟩
    · rw [readDatabase, Prog.bind_of_ok (call_run _ _), Prog.bind_of_ok hrun, Nat.zero_add]
      rfl
    · refine ⟨source.set :: (calls ++ [source.stop]), htouched, .inl ⟨rfl, ?_⟩⟩
      simp [htrace]
    · intro hzero
      exact ⟨by rw [hzero], (hdone.idle hzero).2⟩
  · refine ⟨.error rc, s1, ?_, ?_, ?_⟩
    · rw [readDatabase, Prog.bind_of_ok (call_run _ _), Prog.bind_of_ok hrun]
      rfl
    · refine ⟨source.set :: (calls ++ [source.stop]), htouched, .inr ⟨rc, rfl, ?_⟩⟩
      simp [htrace]
    · intro hzero
      cases (hdone.idle hzero).1

theorem readDatabase_refused (hreg : source.Regular copies) (records : List β)
    (hgranted : ¬ VectorsGranted copies s (source.users records)) :
    readDatabase loginOps source records s = .error .nullPointer := by
  have hrun := readLogins_refused (s := s.called source.set) hreg records 0 hgranted
  rw [readDatabase, Prog.bind_of_ok (call_run _ _)]
  exact Prog.bind_of_error hrun _

/-- Either way the mutex is given back. -/
theorem finishUsers_run {s' : Logins} {users : Nat} {result : Except SgError Nat}
    (hdone : DatabaseDone s s' users result) :
    ∃ rc s2 calls, finishUsers loginOps result s' = .ok (rc, s2) ∧ s2.trace = s.trace ++ calls ++ [.unlock] ∧
      ∀ event ∈ calls, event.touches = true := by
  obtain ⟨calls, hcalls, hend⟩ := hdone.trace
  rcases hend with ⟨rfl, htrace⟩ | ⟨rc, rfl, htrace⟩
  · refine ⟨.none, { s' with trace := s'.trace ++ [.unlock] }, calls, rfl, ?_, hcalls⟩
    simp [htrace]
  · exact ⟨rc, s', calls, rfl, htrace, hcalls⟩

end Database

/-! ### The balance of the mutex -/

/-- The mutex is locked once and unlocked once, and every call on a database stands between the two. -/
structure Balanced (calls : List LoginEvent) : Prop where
  lock : calls.count .lock = 1
  unlock : calls.count .unlock = 1
  between : ∀ before event after, calls = before ++ event :: after → event.touches = true →
    .lock ∈ before ∧ .unlock ∈ after

theorem count_touches {event : LoginEvent} (hevent : event.touches = false) {calls : List LoginEvent}
    (hcalls : ∀ e ∈ calls, e.touches = true) : calls.count event = 0 := by
  refine List.count_eq_zero.mpr fun hmem => ?_
  rw [hcalls event hmem] at hevent
  cases hevent

theorem balanced_of_touches {calls : List LoginEvent} (hcalls : ∀ event ∈ calls, event.touches = true) :
    Balanced (.lock :: (calls ++ [.unlock])) where
  lock := by
    rw [List.count_cons_self, List.count_append, count_touches rfl hcalls]
    rfl
  unlock := by
    rw [List.count_cons_of_ne (by decide), List.count_append, count_touches rfl hcalls]
    rfl
  between := by
    intro before event after hsplit hevent
    cases before with
    | nil =>
        obtain ⟨rfl, -⟩ := List.cons.inj hsplit
        cases hevent
    | cons first before =>
        obtain ⟨rfl, htail⟩ := List.cons.inj hsplit
        have hrest : calls ++ [.unlock] = before ++ event :: after := htail
        refine ⟨List.mem_cons_self, ?_⟩
        rcases List.eq_nil_or_concat after with rfl | ⟨after, last, rfl⟩
        · obtain ⟨-, hlast⟩ := List.append_inj' hrest rfl
          obtain ⟨rfl, -⟩ := List.cons.inj hlast
          cases hevent
        · rw [List.concat_eq_append, ← List.cons_append, ← List.append_assoc] at hrest
          obtain ⟨-, hlast⟩ := List.append_inj' hrest rfl
          obtain ⟨rfl, -⟩ := List.cons.inj hlast
          simp

theorem not_balanced_of_touches {calls : List LoginEvent} (hcalls : ∀ event ∈ calls, event.touches = true) :
    ¬ Balanced (calls ++ [.unlock]) := by
  intro hbalanced
  have hlock := hbalanced.lock
  rw [List.count_append, count_touches rfl hcalls] at hlock
  cases hlock

def ReturnsBalanced (x : LoginM SgError) (s : Logins) : Prop :=
  ∃ rc s' calls, x s = .ok (rc, s') ∧ s'.trace = s.trace ++ calls ∧ Balanced calls

theorem not_returnsBalanced_of_error {x : LoginM SgError} {s : Logins} {fault : Fault} (hx : x s = .error fault) :
    ¬ ReturnsBalanced x s := by
  rintro ⟨rc, s', calls, hrun, -, -⟩
  rw [hx] at hrun
  cases hrun

theorem returnsBalanced_of_run {x : LoginM SgError} {s s' : Logins} {rc : SgError} {calls : List LoginEvent}
    (hx : x s = .ok (rc, s')) (htrace : s'.trace = s.trace ++ [.lock] ++ calls ++ [.unlock])
    (hcalls : ∀ event ∈ calls, event.touches = true) : ReturnsBalanced x s := by
  refine ⟨rc, s', .lock :: (calls ++ [.unlock]), hx, ?_, balanced_of_touches hcalls⟩
  rw [htrace]
  simp

variable (build : LoginBuild) (now : Int) (utmpx : List Utmpx) (utmp : List Utmp) (s : Logins)

/-- A build with `utmp` alone gives back a mutex that it does not have, or follows NULL. -/
theorem not_returnsBalanced_utmpOnly (hbuild : build.databases = .utmpOnly) :
    ¬ ReturnsBalanced (sgGetUserStatsInt loginOps build now utmpx utmp) s := by
  have hreg := utmpSource_regular build now
  by_cases hgranted : VectorsGranted build.utmpCopies s ((utmpSource build now).users utmp)
  · obtain ⟨result, s1, hrun, hdone⟩ := readDatabase_granted hreg ⟨rfl, rfl, rfl⟩ utmp hgranted
    obtain ⟨rc, s2, calls, hfinish, htrace, hcalls⟩ := finishUsers_run hdone
    have hcode : sgGetUserStatsInt loginOps build now utmpx utmp s = .ok (rc, s2) := by
      rw [sgGetUserStatsInt, hbuild]
      exact (Prog.bind_of_ok hrun _).trans hfinish
    rintro ⟨rc', s', calls', hrun', htrace', hbalanced⟩
    rw [hcode] at hrun'
    cases hrun'
    rw [htrace, List.append_assoc] at htrace'
    rw [← List.append_cancel_left htrace'] at hbalanced
    exact not_balanced_of_touches hcalls hbalanced
  · have hcode : sgGetUserStatsInt loginOps build now utmpx utmp s = .error .nullPointer := by
      rw [sgGetUserStatsInt, hbuild]
      exact Prog.bind_of_error (readDatabase_refused hreg utmp hgranted) _
    exact not_returnsBalanced_of_error hcode

theorem returnsBalanced_utmpxOnly (hbuild : build.databases = .utmpxOnly) :
    ReturnsBalanced (sgGetUserStatsInt loginOps build now utmpx utmp) s ↔
      VectorsGranted build.utmpxCopies s ((utmpxSource build now).users utmpx) := by
  have hreg := utmpxSource_regular build now
  constructor
  · intro hreturns
    by_contra hgranted
    have hcode : sgGetUserStatsInt loginOps build now utmpx utmp s = .error .nullPointer := by
      rw [sgGetUserStatsInt, hbuild]
      simp only
      rw [Prog.bind_of_ok (call_run _ _)]
      exact Prog.bind_of_error
        (readDatabase_refused (s := s.called .lock) hreg utmpx hgranted) _
    exact not_returnsBalanced_of_error hcode hreturns
  · intro hgranted
    obtain ⟨result, s1, hrun, hdone⟩ :=
      readDatabase_granted (s := s.called .lock) hreg ⟨rfl, rfl, rfl⟩ utmpx hgranted
    obtain ⟨rc, s2, calls, hfinish, htrace, hcalls⟩ := finishUsers_run hdone
    have hcode : sgGetUserStatsInt loginOps build now utmpx utmp s = .ok (rc, s2) := by
      rw [sgGetUserStatsInt, hbuild]
      simp only
      rw [Prog.bind_of_ok (call_run _ _)]
      exact (Prog.bind_of_ok hrun _).trans hfinish
    exact returnsBalanced_of_run hcode htrace hcalls

theorem vectorsGranted_congr {s s' : Logins} (hmem : s'.mem = s.mem) (hrefused : s'.refused = s.refused)
    (copies users : Nat) : VectorsGranted copies s' users ↔ VectorsGranted copies s users := by
  rw [VectorsGranted, hmem, hrefused, VectorsGranted]

theorem returnsBalanced_both (hbuild : build.databases = .both) :
    ReturnsBalanced (sgGetUserStatsInt loginOps build now utmpx utmp) s ↔
      VectorsGranted build.utmpxCopies s ((utmpxSource build now).users utmpx) ∧
      ((utmpxSource build now).users utmpx = 0 →
        VectorsGranted build.utmpCopies s ((utmpSource build now).users utmp)) := by
  have hreg := utmpxSource_regular build now
  have hreg' := utmpSource_regular build now
  have hcode : sgGetUserStatsInt loginOps build now utmpx utmp s = (do
        let result ← readDatabase loginOps (utmpxSource build now) utmpx
        match result with
        | .ok 0 => do
            let result ← readDatabase loginOps (utmpSource build now) utmp
            finishUsers loginOps result
        | result => finishUsers loginOps result : LoginM SgError) (s.called .lock) := by
    rw [sgGetUserStatsInt, hbuild]
    simp only
    rw [Prog.bind_of_ok (call_run _ _)]
  by_cases hgranted : VectorsGranted build.utmpxCopies s ((utmpxSource build now).users utmpx)
  swap
  · have hfault := readDatabase_refused (s := s.called .lock) hreg utmpx hgranted
    refine iff_of_false ?_ fun h => hgranted h.1
    exact not_returnsBalanced_of_error (hcode.trans (Prog.bind_of_error hfault _))
  obtain ⟨result, s1, hrun, hdone⟩ :=
    readDatabase_granted (s := s.called .lock) hreg ⟨rfl, rfl, rfl⟩ utmpx hgranted
  rw [Prog.bind_of_ok hrun] at hcode
  by_cases hzero : (utmpxSource build now).users utmpx = 0
  · -- no user in `utmpx`: the memory is as before, and `utmp` is read
    obtain ⟨rfl, hmem, hrefused⟩ := hdone.idle hzero
    obtain ⟨calls, hcalls, hend⟩ := hdone.trace
    have htrace : s1.trace = s.trace ++ [.lock] ++ calls := by
      rcases hend with ⟨-, htrace⟩ | ⟨rc, hrc, -⟩
      · exact htrace
      · cases hrc
    have hsame := vectorsGranted_congr hmem hrefused build.utmpCopies ((utmpSource build now).users utmp)
    by_cases hgranted' : VectorsGranted build.utmpCopies s ((utmpSource build now).users utmp)
    · obtain ⟨result, s2, hrun', hdone'⟩ := readDatabase_granted hreg' ⟨rfl, rfl, rfl⟩ utmp (hsame.mpr hgranted')
      obtain ⟨rc, s3, calls', hfinish, htrace', hcalls'⟩ := finishUsers_run hdone'
      have hall : ∀ event ∈ calls ++ calls', event.touches = true := by
        intro event hevent
        rcases List.mem_append.mp hevent with hevent | hevent
        · exact hcalls event hevent
        · exact hcalls' event hevent
      have hreturn := hcode.trans ((Prog.bind_of_ok hrun' _).trans hfinish)
      refine iff_of_true (returnsBalanced_of_run hreturn ?_ hall) ⟨hgranted, fun _ => hgranted'⟩
      rw [htrace', htrace, List.append_assoc _ calls calls']
    · have hfault := readDatabase_refused hreg' utmp fun h => hgranted' (hsame.mp h)
      refine iff_of_false ?_ fun h => hgranted' (h.2 hzero)
      exact not_returnsBalanced_of_error (hcode.trans (Prog.bind_of_error hfault _))
  · obtain ⟨rc, s2, calls, hfinish, htrace, hcalls⟩ := finishUsers_run hdone
    have hrest : sgGetUserStatsInt loginOps build now utmpx utmp s = finishUsers loginOps result s1 := by
      obtain ⟨_, -, hend⟩ := hdone.trace
      rcases hend with ⟨rfl, -⟩ | ⟨rc, rfl, -⟩
      · obtain ⟨n, hn⟩ := Nat.exists_eq_succ_of_ne_zero hzero
        rw [hn] at hcode ⊢
        exact hcode
      · exact hcode
    exact iff_of_true (returnsBalanced_of_run (hrest.trans hfinish) htrace hcalls)
      ⟨hgranted, fun h => absurd h hzero⟩

theorem sgGetUserStatsInt_balanced_iff :
    ReturnsBalanced (sgGetUserStatsInt loginOps build now utmpx utmp) s ↔
      build.databases.canUseUtmpx = true ∧
      VectorsGranted build.utmpxCopies s ((utmpxSource build now).users utmpx) ∧
      (build.databases = .both → (utmpxSource build now).users utmpx = 0 →
        VectorsGranted build.utmpCopies s ((utmpSource build now).users utmp)) := by
  cases hbuild : build.databases with
  | utmpOnly =>
      apply iff_of_false (not_returnsBalanced_utmpOnly build now utmpx utmp s hbuild)
      rintro ⟨hcan, -⟩
      cases hcan
  | utmpxOnly =>
      rw [returnsBalanced_utmpxOnly build now utmpx utmp s hbuild]
      simp [LoginDatabases.canUseUtmpx]
  | both =>
      rw [returnsBalanced_both build now utmpx utmp s hbuild]
      simp [LoginDatabases.canUseUtmpx]

/-! ### The error -/

theorem userVectorOps_update_error {numUsers : Nat} {s s' : UserReading} {rc : SgError}
    (h : userVectorOps.updateUsers numUsers s = .ok (.error rc, s')) : s'.error = rc := by
  obtain ⟨x, s1, hget, hrest⟩ := Prog.bind_eq_ok.mp h
  cases hget
  obtain ⟨updated, s2, hupdated, hrest⟩ := Prog.bind_eq_ok.mp hrest
  obtain ⟨w, hrun, rfl⟩ := Prog.zoom_eq_ok.mp hupdated
  cases updated with
  | error rc' =>
      cases hrest
      exact vectorUpdated_error hrun
  | ok x => cases hrest

/-- The code with which the loop is left early is the error of the thread. -/
theorem readLogins_error {β : Type} {source : LoginSource β} (records : List β) {numUsers : Nat}
    {s s' : UserReading} {rc : SgError}
    (h : readLogins userVectorOps source records numUsers s = .ok (.error rc, s')) : s'.error = rc := by
  induction records generalizing numUsers s with
  | nil => cases h
  | cons record records ih =>
      rw [readLogins] at h
      obtain ⟨_, s1, -, h⟩ := Prog.bind_eq_ok.mp h
      by_cases hskip : source.skipped record = true
      · rw [if_pos hskip] at h
        exact ih h
      · rw [if_neg hskip] at h
        obtain ⟨updated, s2, hupdated, h⟩ := Prog.bind_eq_ok.mp h
        cases updated with
        | error rc' =>
            have herr := userVectorOps_update_error hupdated
            cases h
            exact herr
        | ok _ =>
            obtain ⟨rc1, s3, -, h⟩ := Prog.bind_eq_ok.mp h
            by_cases hrc1 : rc1 = .none
            · rw [if_neg (not_not.mpr hrc1)] at h
              obtain ⟨_, s4, -, h⟩ := Prog.bind_eq_ok.mp h
              exact ih h
            · rw [if_pos hrc1] at h
              cases h
              rfl

theorem readDatabase_error {β : Type} {source : LoginSource β} {records : List β} {s s' : UserReading}
    {rc : SgError} (h : readDatabase userVectorOps source records s = .ok (.error rc, s')) : s'.error = rc := by
  obtain ⟨_, s1, -, h⟩ := Prog.bind_eq_ok.mp h
  obtain ⟨result, s2, hread, h⟩ := Prog.bind_eq_ok.mp h
  cases result with
  | error rc' =>
      have herr := readLogins_error records hread
      cases h
      exact herr
  | ok n => cases h

theorem finishUsers_error {result : Except SgError Nat} {s s' : UserReading} {rc : SgError}
    (hresult : ∀ rc, result = .error rc → s.error = rc)
    (h : finishUsers userVectorOps result s = .ok (rc, s')) (hne : rc ≠ .none) : s'.error = rc := by
  cases result with
  | error rc' =>
      cases h
      exact hresult rc rfl
  | ok n =>
      cases h
      exact absurd rfl hne

theorem sgGetUserStatsInt_error {build : LoginBuild} {now : Int} {utmpx : List Utmpx} {utmp : List Utmp}
    {s s' : UserReading} {rc : SgError}
    (h : sgGetUserStatsInt userVectorOps build now utmpx utmp s = .ok (rc, s')) (hne : rc ≠ .none) :
    s'.error = rc := by
  have hfinish : ∀ {β : Type} {source : LoginSource β} {records : List β} {s1 : UserReading},
      (do let result ← readDatabase userVectorOps source records
          finishUsers userVectorOps result : Prog Fault UserReading SgError) s1 = .ok (rc, s') → s'.error = rc := by
    intro β source records s1 hrun
    obtain ⟨result, s2, hread, hrest⟩ := Prog.bind_eq_ok.mp hrun
    refine finishUsers_error ?_ hrest hne
    rintro rc' rfl
    exact readDatabase_error hread
  cases hbuild : build.databases with
  | utmpOnly =>
      rw [sgGetUserStatsInt, hbuild] at h
      exact hfinish h
  | utmpxOnly =>
      rw [sgGetUserStatsInt, hbuild] at h
      obtain ⟨_, s1, -, h⟩ := Prog.bind_eq_ok.mp h
      exact hfinish h
  | both =>
      rw [sgGetUserStatsInt, hbuild] at h
      obtain ⟨_, s1, -, h⟩ := Prog.bind_eq_ok.mp h
      obtain ⟨result, s2, hread, h⟩ := Prog.bind_eq_ok.mp h
      have hresult : ∀ rc, result = .error rc → s2.error = rc := by
        rintro rc' rfl
        exact readDatabase_error hread
      match result with
      | .ok 0 => exact hfinish h
      | .ok (_ + 1) => exact finishUsers_error hresult h hne
      | .error _ => exact finishUsers_error hresult h hne

theorem fillUserStats_error {build : LoginBuild} {now : Int} {utmpx : List Utmpx} {utmp : List Utmp}
    {x y : Option Ptr} {w w' : World UserStats} {rc : SgError}
    (h : fillUserStats build now utmpx utmp x w = .ok ((rc, y), w')) (hne : rc ≠ .none) : w'.error = rc := by
  unfold fillUserStats at h
  split at h
  · cases h
  · rename_i rc' s hrun
    cases h
    exact sgGetUserStatsInt_error hrun hne

def fullBuild (databases : LoginDatabases) : LoginBuild :=
  ⟨databases, true, true, true, true, true, true, true, true, true⟩

/-- No memory is refused, and nothing was called yet. -/
def freshLogins : Logins := ⟨⟨.clear, fun _ => true⟩, fun _ => none, none, []⟩

/-- `utmp` alone and nobody logged in: four calls, and none of them locks. -/
theorem sgGetUserStatsInt_unlocked :
    (∃ s', sgGetUserStatsInt loginOps (fullBuild .utmpOnly) 0 [] [] freshLogins = .ok (.none, s') ∧
      s'.trace = [.setutent, .getutent, .endutent, .unlock]) ∧
    ¬ ReturnsBalanced (sgGetUserStatsInt loginOps (fullBuild .utmpOnly) 0 [] []) freshLogins :=
  ⟨⟨_, rfl, rfl⟩, not_returnsBalanced_utmpOnly _ _ _ _ _ rfl⟩

/-- A user in `utmpx`, and no memory for the vector. -/
example : sgGetUserStatsInt loginOps (fullBuild .utmpxOnly) 0 [⟨true, [], [], 0, [], [0], 1, 0, by decide⟩] []
    { freshLogins with refused := fun _ => some .clear } = .error .nullPointer := rfl

end Statgrab
