import Statgrab.Lib.Prog

/-!
# The thread's error record

Every thread carries one error record: the code, the errno that came with it and the text of its
argument. Helpers set it and clear it as a side effect, and an error exit reads its return code back
from it, so the record is part of the state of every modelled function. The other part is the supply
of allocation outcomes: the allocator answers each request with a success or a failure, and a model
function that allocates takes the next answer.

The thread's storage is in use here, so the record is one cell; how the library finds the cell, and
what happens before there is one, is the subject of `Statgrab.Comp.ErrorStorage`.
-/

namespace Statgrab

inductive SgError where
  | none
  | invalidArgument
  | asprintf
  | sprintf
  | devices
  | devstatGetdevs
  | devstatSelectdevs
  | diskinfo
  | enoent
  | getifaddrs
  | getmntinfo
  | getpagesize
  | host
  | kstatDataLookup
  | kstatLookup
  | kstatOpen
  | kstatRead
  | kvmGetswapinfo
  | kvmOpenfiles
  | malloc
  | memstatus
  | open
  | opendir
  | readdir
  | parse
  | pdhadd
  | pdhcollect
  | pdhopen
  | pdhread
  | permission
  | pstat
  | setegid
  | seteuid
  | setmntent
  | socket
  | swapctl
  | sysconf
  | sysctl
  | sysctlbyname
  | sysctlnametomib
  | sysinfo
  | machcall
  | iokit
  | uname
  | unsupported
  | xswVerMismatch
  | getmsg
  | putmsg
  | initialisation
  | mutexLock
  | mutexUnlock
  deriving DecidableEq, Repr

/-- The error record of a thread, `struct sg_error_glob`. -/
structure ErrorGlob where
  error : SgError
  errnoValue : Int
  errorArg : String
  deriving DecidableEq, Repr

def ErrorGlob.clear : ErrorGlob := ⟨.none, 0, ""⟩

@[simp] theorem ErrorGlob.clear_error : ErrorGlob.clear.error = .none := rfl

/-- Behaviour the C language leaves undefined, or an assertion that fails. -/
inductive Fault where
  /-- A vector was used or released after it had been released. -/
  | released
  /-- An item function was applied outside the vector's block. -/
  | outOfBlock
  /-- A null pointer was followed. -/
  | nullPointer
  /-- A shift by the width of its operand or more. -/
  | overshift
  /-- A loop is not over after the rounds it was given. -/
  | unfinished
  deriving DecidableEq, Repr

/-- What the functions of one thread share: its error record, and the answers the allocator will
give to its next requests. -/
structure Thread where
  glob : ErrorGlob
  mem : Nat → Bool

/-- The code `sg_get_error` reads. -/
abbrev Thread.error (t : Thread) : SgError := t.glob.error

/-- A function that touches nothing but the thread. -/
abbrev ThreadM := Prog Fault Thread

/-- `sg_set_error_fmt` and its siblings, with the text already formatted. -/
def sgSetError (code : SgError) (errnoValue : Int) (arg : String) : ThreadM Unit :=
  Prog.modify fun t => { t with glob := ⟨code, errnoValue, arg⟩ }

def sgClearError : ThreadM Unit := Prog.modify fun t => { t with glob := .clear }

def sgGetError : ThreadM SgError := Prog.gets Thread.error

/-- `RETURN_WITH_SET_ERROR` and its siblings: set the error and return its code. -/
def returnWithSetError (code : SgError) (errnoValue : Int) (arg : String) : ThreadM SgError := do
  sgSetError code errnoValue arg
  return code

/-- `RETURN_FROM_PREVIOUS_ERROR(comp, sg_get_error())`: the error a helper has set is the code. -/
def returnFromPreviousError : ThreadM SgError := sgGetError

@[simp] theorem sgSetError_run (code : SgError) (errnoValue : Int) (arg : String) (t : Thread) :
    sgSetError code errnoValue arg t = .ok ((), { t with glob := ⟨code, errnoValue, arg⟩ }) := rfl

@[simp] theorem sgClearError_run (t : Thread) :
    sgClearError t = .ok ((), { t with glob := .clear }) := rfl

@[simp] theorem sgGetError_run (t : Thread) : sgGetError t = .ok (t.error, t) := rfl

@[simp] theorem returnWithSetError_run (code : SgError) (errnoValue : Int) (arg : String)
    (t : Thread) : returnWithSetError code errnoValue arg t
      = .ok (code, { t with glob := ⟨code, errnoValue, arg⟩ }) := rfl

@[simp] theorem returnFromPreviousError_run (t : Thread) :
    returnFromPreviousError t = .ok (t.error, t) := rfl

/-- Every allocation to come succeeds. -/
def Thread.Plenty (t : Thread) : Prop := ∀ n, t.mem n = true

end Statgrab
