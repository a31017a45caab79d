import Mathlib.Algebra.Group.Nat.Defs
import Mathlib.Logic.Function.Basic
import Mathlib.Tactic.ByContra
import Statgrab.Error

/-!
# Where the error record lives

The error functions find the thread's record through the thread-local storage, and the storage reports
its own failures through the error functions. `sg_get_error_glob` asks `sg_comp_get_tls` for the record;
without a block `sg_comp_get_tls` has one allocated, and both a refused allocation and an invalid
component id are reported with `SET_ERROR`, which asks `sg_get_error_glob` again. When no record can be
found `pre_init_errs` is used.

The recursion has no bound of its own. It is modelled with a depth: the number of calls of
`sg_set_error_int` that may be open at a time.
-/

namespace Statgrab

open Function (update)

/-- What the error functions of one thread work on. The block holds a record for each component, of
which the error component's is used; `mem` and `keys` are the answers `malloc` and
`pthread_setspecific` will give. -/
structure Storage where
  block : Option (Nat → ErrorGlob)
  globSize : Nat
  errorGlobId : Nat
  compCount : Nat
  preInitErrs : ErrorGlob
  mem : Nat → Bool
  keys : Nat → Bool

/-- The nesting went deeper than the model allows. -/
inductive TooDeep where
  | tooDeep
  deriving DecidableEq, Repr

abbrev StorageM := Prog TooDeep Storage

/-- `GLOB_MASK`, `MAGIC_EYE('g','l','o','b')`. -/
def globMask : Nat := 0x626f6c67

/-- `id - GLOB_MASK` on `unsigned`. -/
def compIndex (id : Nat) : Nat := (2 ^ 32 - globMask + id) % 2 ^ 32

inductive Place where
  | tls (i : Nat)
  | preInit
  deriving DecidableEq, Repr

def errorArgMax : Nat := 4096

/-- The text `vsnprintf` leaves in the record. -/
def fitArg (arg : String) : String := String.ofList (arg.toList.take (errorArgMax - 1))

section

variable (setError : SgError → String → StorageM Unit)

/-- `sg_alloc_globals`: whether it returns a block, which is then the thread's. -/
def sgAllocGlobals : StorageM Bool := fun st =>
  if st.globSize = 0 then .ok (false, st)
  else if st.mem 0 then
    if st.keys 0 then
      .ok (true, { st with
        block := some fun _ => .clear
        mem := fun n => st.mem (n + 1)
        keys := fun n => st.keys (n + 1) })
    else .ok (false, { st with mem := fun n => st.mem (n + 1), keys := fun n => st.keys (n + 1) })
  else
    (do
      setError .malloc "sg_alloc_globals: malloc() failed or no components registered"
      return false : StorageM Bool) { st with mem := fun n => st.mem (n + 1) }

/-- `sg_comp_get_tls(id)`: the index of the component whose storage is returned. -/
def sgCompGetTls (id : Nat) : StorageM (Option Nat) := do
  let block ← Prog.gets Storage.block
  let found ← if block.isSome then pure true else sgAllocGlobals setError
  if found then
    let count ← Prog.gets Storage.compCount
    if compIndex id < count then return some (compIndex id)
    else
      setError .invalidArgument ("sg_comp_get_tls: invalid id (" ++ toString (compIndex id) ++ ")")
      return none
  else return none

def sgGetErrorGlob : StorageM Place := do
  let id ← Prog.gets Storage.errorGlobId
  let tls ← sgCompGetTls setError id
  match tls with
  | some i => return .tls i
  | none => return .preInit

end

def Storage.read (st : Storage) : Place → ErrorGlob
  | .tls i => (st.block.map fun b => b i).getD .clear
  | .preInit => st.preInitErrs

def Storage.write (st : Storage) (g : ErrorGlob) : Place → Storage
  | .tls i => { st with block := st.block.map fun b => update b i g }
  | .preInit => { st with preInitErrs := g }

/-- `sg_set_error_int` with its callers, at a depth of open calls. -/
def sgSetErrorInt : Nat → SgError → Int → String → StorageM Unit
  | 0, _, _, _ => Prog.fault .tooDeep
  | depth + 1, code, errnoValue, arg => do
      let place ← sgGetErrorGlob fun code arg => sgSetErrorInt depth code 0 arg
      Prog.modify fun st => st.write ⟨code, errnoValue, fitArg arg⟩ place

/-- A call of the error functions: `sg_set_error_fmt` and its siblings, `sg_get_error`,
`sg_clear_error`. -/
inductive ErrorCall where
  | set (code : SgError) (errnoValue : Int) (arg : String)
  | get
  | clear
  deriving DecidableEq, Repr

/-- The place the call uses, the code it returns, and the record it writes there. -/
def ErrorCall.finish : ErrorCall → Place → StorageM (Place × SgError)
  | .set code errnoValue arg, place => do
      Prog.modify fun st => st.write ⟨code, errnoValue, fitArg arg⟩ place
      return (place, code)
  | .get, place => do
      let g ← Prog.gets fun st => st.read place
      return (place, g.error)
  | .clear, place => do
      Prog.modify fun st => st.write .clear place
      return (place, .none)

/-- The call, with at most `depth` calls of `sg_set_error_int` nested in it. -/
def ErrorCall.run (depth : Nat) (call : ErrorCall) : StorageM (Place × SgError) := do
  let place ← sgGetErrorGlob fun code arg => sgSetErrorInt depth code 0 arg
  call.finish place

/-! ### One call of `sg_get_error_glob` -/

def Storage.IdValid (st : Storage) : Prop := compIndex st.errorGlobId < st.compCount

/-- The state after a refused `malloc`. -/
def Storage.refused (st : Storage) : Storage := { st with mem := fun n => st.mem (n + 1) }

def Storage.allocated (st : Storage) : Storage :=
  { st with
    block := some fun _ => .clear
    mem := fun n => st.mem (n + 1)
    keys := fun n => st.keys (n + 1) }

/-- The state after a block could not be made the thread's. -/
def Storage.discarded (st : Storage) : Storage :=
  { st with mem := fun n => st.mem (n + 1), keys := fun n => st.keys (n + 1) }

/-- The state after `k` refused requests and a block that could not be made the thread's. -/
def Storage.discardedAfter (st : Storage) (k : Nat) : Storage :=
  { st with mem := fun n => st.mem (n + 1 + k), keys := fun n => st.keys (n + 1) }

section

variable (setError : SgError → String → StorageM Unit) {st : Storage}

theorem sgGetErrorGlob_block (hb : st.block.isSome) (hid : st.IdValid) :
    sgGetErrorGlob setError st = .ok (.tls (compIndex st.errorGlobId), st) := by
  have hlt : compIndex st.errorGlobId < st.compCount := hid
  simp [sgGetErrorGlob, sgCompGetTls, Prog.bind_run, hb, hlt]

theorem sgGetErrorGlob_block_invalid (hb : st.block.isSome) (hid : ¬ st.IdValid) :
    ∃ arg, sgGetErrorGlob setError st
      = (setError .invalidArgument arg >>= fun _ => pure .preInit) st := by
  have hge : ¬ compIndex st.errorGlobId < st.compCount := hid
  refine ⟨"sg_comp_get_tls: invalid id (" ++ toString (compIndex st.errorGlobId) ++ ")", ?_⟩
  simp only [sgGetErrorGlob, sgCompGetTls, Prog.bind_run, Prog.gets_run, hb, if_true,
    Prog.pure_run, if_neg hge]
  cases setError .invalidArgument _ st <;> rfl

theorem sgGetErrorGlob_unlaid (hb : st.block = none) (hsize : st.globSize = 0) :
    sgGetErrorGlob setError st = .ok (.preInit, st) := by
  simp [sgGetErrorGlob, sgCompGetTls, sgAllocGlobals, Prog.bind_run, hb, hsize]

theorem sgGetErrorGlob_discarded (hb : st.block = none) (hsize : st.globSize ≠ 0)
    (hmem : st.mem 0 = true) (hkey : st.keys 0 = false) :
    sgGetErrorGlob setError st = .ok (.preInit, st.discarded) := by
  simp [sgGetErrorGlob, sgCompGetTls, sgAllocGlobals, Prog.bind_run, hb, hsize, hmem, hkey,
    Storage.discarded]

theorem sgGetErrorGlob_allocated (hb : st.block = none) (hsize : st.globSize ≠ 0)
    (hmem : st.mem 0 = true) (hkey : st.keys 0 = true) :
    sgGetErrorGlob setError st = sgGetErrorGlob setError st.allocated := by
  simp [sgGetErrorGlob, sgCompGetTls, sgAllocGlobals, Prog.bind_run, hb, hsize, hmem, hkey,
    Storage.allocated]

theorem sgGetErrorGlob_refused (hb : st.block = none) (hsize : st.globSize ≠ 0)
    (hmem : st.mem 0 = false) :
    ∃ arg, sgGetErrorGlob setError st
      = (setError .malloc arg >>= fun _ => pure .preInit) st.refused := by
  refine ⟨"sg_alloc_globals: malloc() failed or no components registered", ?_⟩
  simp only [sgGetErrorGlob, sgCompGetTls, sgAllocGlobals, Prog.bind_run, Prog.gets_run, hb, hsize,
    hmem, Option.isSome_none, if_false, Bool.false_eq_true, Storage.refused]
  cases setError .malloc _ _ <;> rfl

end

/-! ### Which calls end -/

/-- The calls of the error functions end: the record is found in the thread's block; or there is no
block and no storage is laid out; or some `malloc` to come succeeds, and the block then either cannot
be made the thread's or is of use. -/
def Storage.Ends (st : Storage) : Prop :=
  (st.block.isSome → st.IdValid) ∧
    (st.block = none → st.globSize ≠ 0 → ∃ k, (∀ j, j < k → st.mem j = false) ∧ st.mem k = true ∧
      (st.keys 0 = false ∨ st.IdValid))

/-- They end with at most `depth` reports open at a time. -/
def Storage.EndsWithin (st : Storage) (depth : Nat) : Prop :=
  (st.block.isSome → st.IdValid) ∧
    (st.block = none → st.globSize ≠ 0 → ∃ k, k ≤ depth ∧ (∀ j, j < k → st.mem j = false) ∧
      st.mem k = true ∧ (st.keys 0 = false ∨ st.IdValid))

/-- The thread's block can be used right away. -/
def Storage.Usable (st : Storage) : Prop :=
  st.IdValid ∧ (st.block.isSome ∨ (st.globSize ≠ 0 ∧ st.mem 0 = true ∧ st.keys 0 = true))

def reportAt (depth : Nat) (code : SgError) (arg : String) : StorageM Unit :=
  sgSetErrorInt depth code 0 arg

theorem reportAt_ok {depth : Nat} {code : SgError} {arg : String} {st st' : Storage}
    (h : reportAt depth code arg st = .ok ((), st')) :
    ∃ d r, depth = d + 1 ∧ sgGetErrorGlob (reportAt d) st = .ok r := by
  cases depth with
  | zero => cases h
  | succ d =>
      obtain ⟨place, st1, hglob, -⟩ := Prog.bind_eq_ok.mp h
      exact ⟨d, (place, st1), rfl, hglob⟩

theorem idValid_of_run (depth : Nat) : ∀ (st : Storage) (r : Place × Storage), st.block.isSome →
    sgGetErrorGlob (reportAt depth) st = .ok r → st.IdValid := by
  induction depth with
  | zero =>
      intro st r hb hrun
      by_contra hid
      obtain ⟨arg, heq⟩ := sgGetErrorGlob_block_invalid (reportAt 0) hb hid
      rw [heq] at hrun
      cases hrun
  | succ depth ih =>
      intro st r hb hrun
      by_contra hid
      obtain ⟨arg, heq⟩ := sgGetErrorGlob_block_invalid (reportAt (depth + 1)) hb hid
      rw [heq] at hrun
      obtain ⟨_, st1, hreport, -⟩ := Prog.bind_eq_ok.mp hrun
      obtain ⟨d, r', hd, hglob⟩ := reportAt_ok hreport
      cases hd
      exact hid (ih st r' hb hglob)

theorem keys_or_idValid {depth : Nat} {st : Storage} {r : Place × Storage} (hb : st.block = none)
    (hsize : st.globSize ≠ 0) (hmem : st.mem 0 = true)
    (hrun : sgGetErrorGlob (reportAt depth) st = .ok r) : st.keys 0 = false ∨ st.IdValid := by
  cases hkey : st.keys 0 with
  | false => exact .inl rfl
  | true =>
      rw [sgGetErrorGlob_allocated _ hb hsize hmem hkey] at hrun
      exact .inr (idValid_of_run depth st.allocated r rfl hrun)

theorem endsWithin_of_run (depth : Nat) : ∀ (st : Storage) (r : Place × Storage),
    sgGetErrorGlob (reportAt depth) st = .ok r → st.EndsWithin depth := by
  induction depth with
  | zero =>
      intro st r hrun
      refine ⟨fun hb => idValid_of_run 0 st r hb hrun, fun hb hsize => ?_⟩
      cases hmem : st.mem 0 with
      | true =>
          exact ⟨0, Nat.le_refl 0, fun j hj => absurd hj (by omega), hmem,
            keys_or_idValid hb hsize hmem hrun⟩
      | false =>
          obtain ⟨arg, heq⟩ := sgGetErrorGlob_refused (reportAt 0) hb hsize hmem
          rw [heq] at hrun
          cases hrun
  | succ depth ih =>
      intro st r hrun
      refine ⟨fun hb => idValid_of_run (depth + 1) st r hb hrun, fun hb hsize => ?_⟩
      cases hmem : st.mem 0 with
      | true =>
          exact ⟨0, Nat.zero_le _, fun j hj => absurd hj (by omega), hmem,
            keys_or_idValid hb hsize hmem hrun⟩
      | false =>
          -- the report of the refusal starts over, one answer of `malloc` further on
          obtain ⟨arg, heq⟩ := sgGetErrorGlob_refused (reportAt (depth + 1)) hb hsize hmem
          rw [heq] at hrun
          obtain ⟨_, st1, hreport, -⟩ := Prog.bind_eq_ok.mp hrun
          obtain ⟨d, r', hd, hglob⟩ := reportAt_ok hreport
          cases hd
          obtain ⟨k, hle, hbefore, hk, hrest⟩ := (ih st.refused r' hglob).2 hb hsize
          refine ⟨k + 1, by omega, ?_, hk, hrest⟩
          intro j hj
          cases j with
          | zero => exact hmem
          | succ j => exact hbefore j (by omega)

theorem reportAt_succ {d : Nat} {st st' : Storage} {place : Place}
    (h : sgGetErrorGlob (reportAt d) st = .ok (place, st')) (code : SgError) (arg : String) :
    reportAt (d + 1) code arg st = .ok ((), st'.write ⟨code, 0, fitArg arg⟩ place) := by
  rw [reportAt, sgSetErrorInt]
  exact Prog.bind_of_ok h _

/-- What the next report will find. -/
structure Storage.Like (st st' : Storage) : Prop where
  block : st'.block.isSome = st.block.isSome
  globSize : st'.globSize = st.globSize
  errorGlobId : st'.errorGlobId = st.errorGlobId
  compCount : st'.compCount = st.compCount
  mem : st'.mem = st.mem
  keys : st'.keys = st.keys

theorem Storage.Like.refl (st : Storage) : st.Like st := ⟨rfl, rfl, rfl, rfl, rfl, rfl⟩

theorem Storage.like_write (st : Storage) (g : ErrorGlob) (place : Place) :
    st.Like (st.write g place) := by
  cases place with
  | tls i => exact ⟨by simp [Storage.write], rfl, rfl, rfl, rfl, rfl⟩
  | preInit => exact ⟨rfl, rfl, rfl, rfl, rfl, rfl⟩

theorem Storage.Like.trans {st st' st'' : Storage} (h : st.Like st') (h' : st'.Like st'') :
    st.Like st'' :=
  ⟨h'.block.trans h.block, h'.globSize.trans h.globSize, h'.errorGlobId.trans h.errorGlobId,
    h'.compCount.trans h.compCount, h'.mem.trans h.mem, h'.keys.trans h.keys⟩

theorem Storage.Like.endsWithin {st st' : Storage} (h : st.Like st') (depth : Nat) :
    st'.EndsWithin depth ↔ st.EndsWithin depth := by
  have hblock : st'.block = none ↔ st.block = none := by
    rw [← Option.not_isSome_iff_eq_none, ← Option.not_isSome_iff_eq_none, h.block]
  have hid : st'.IdValid ↔ st.IdValid := by
    rw [Storage.IdValid, Storage.IdValid, h.errorGlobId, h.compCount]
  rw [Storage.EndsWithin, Storage.EndsWithin, h.block, h.globSize, h.mem, h.keys, hblock, hid]

/-- The storage a report leaves that started from `st`, was refused a block `k` times and then got
one. -/
def Storage.After (st : Storage) (k : Nat) (st' : Storage) : Prop :=
  if st.keys 0 = true then st'.block.isSome ∧ st'.IdValid else (st.discardedAfter k).Like st'

/-- After `k` refused requests the block is there, and `k` reports are open. -/
theorem run_of_endsWithin (k : Nat) : ∀ (depth : Nat) (st : Storage), k ≤ depth → st.block = none →
    st.globSize ≠ 0 → (∀ j, j < k → st.mem j = false) → st.mem k = true →
    (st.keys 0 = false ∨ st.IdValid) →
    ∃ place st', sgGetErrorGlob (reportAt depth) st = .ok (place, st') ∧ st.After k st' := by
  induction k with
  | zero =>
      intro depth st _ hb hsize _ hmem hrest
      cases hkey : st.keys 0 with
      | false =>
          refine ⟨_, _, sgGetErrorGlob_discarded _ hb hsize hmem hkey, ?_⟩
          rw [Storage.After, if_neg (by simp [hkey])]
          exact .refl _
      | true =>
          have hid : st.allocated.IdValid := hrest.resolve_left (by simp [hkey])
          rw [sgGetErrorGlob_allocated _ hb hsize hmem hkey]
          refine ⟨_, _, sgGetErrorGlob_block _ rfl hid, ?_⟩
          rw [Storage.After, if_pos hkey]
          exact ⟨rfl, hid⟩
  | succ k ih =>
      intro depth st hle hb hsize hbefore hmem hrest
      obtain ⟨depth, rfl⟩ : ∃ d, depth = d + 1 := ⟨depth - 1, by omega⟩
      obtain ⟨place, st', hrun, hafter⟩ := ih depth st.refused (by omega) hb hsize
        (fun j hj => hbefore (j + 1) (by omega)) hmem hrest
      obtain ⟨arg, heq⟩ := sgGetErrorGlob_refused (reportAt (depth + 1)) hb hsize
        (hbefore 0 (by omega))
      refine ⟨.preInit, st'.write ⟨.malloc, 0, fitArg arg⟩ place, ?_, ?_⟩
      · rw [heq, Prog.bind_of_ok (reportAt_succ hrun .malloc arg)]
        rfl
      · have hlike := st'.like_write ⟨.malloc, 0, fitArg arg⟩ place
        by_cases hkey : st.keys 0 = true
        · rw [Storage.After, if_pos hkey]
          rw [Storage.After, if_pos (show st.refused.keys 0 = true from hkey)] at hafter
          refine ⟨hlike.block.trans hafter.1, ?_⟩
          rw [Storage.IdValid, hlike.errorGlobId, hlike.compCount]
          exact hafter.2
        · rw [Storage.After, if_neg hkey]
          rw [Storage.After, if_neg (show ¬ st.refused.keys 0 = true from hkey)] at hafter
          exact hafter.trans hlike

theorem sgGetErrorGlob_run_iff (depth : Nat) (st : Storage) :
    (∃ r, sgGetErrorGlob (reportAt depth) st = .ok r) ↔ st.EndsWithin depth := by
  constructor
  · rintro ⟨r, hrun⟩
    exact endsWithin_of_run depth st r hrun
  · intro h
    cases hb : st.block with
    | some b => exact ⟨_, sgGetErrorGlob_block _ (by simp [hb]) (h.1 (by simp [hb]))⟩
    | none =>
        by_cases hsize : st.globSize = 0
        · exact ⟨_, sgGetErrorGlob_unlaid _ hb hsize⟩
        · obtain ⟨k, hle, hbefore, hk, hrest⟩ := h.2 hb hsize
          obtain ⟨place, st', hrun, -⟩ := run_of_endsWithin k depth st hle hb hsize hbefore hk hrest
          exact ⟨_, hrun⟩

theorem ends_iff (st : Storage) : st.Ends ↔ ∃ depth, st.EndsWithin depth := by
  constructor
  · rintro ⟨hid, hgets⟩
    by_cases hneeds : st.block = none ∧ st.globSize ≠ 0
    · obtain ⟨k, hbefore, hk, hrest⟩ := hgets hneeds.1 hneeds.2
      exact ⟨k, hid, fun _ _ => ⟨k, Nat.le_refl k, hbefore, hk, hrest⟩⟩
    · exact ⟨0, hid, fun hb hsize => absurd ⟨hb, hsize⟩ hneeds⟩
  · rintro ⟨depth, hid, hgets⟩
    refine ⟨hid, fun hb hsize => ?_⟩
    obtain ⟨k, -, hrest⟩ := hgets hb hsize
    exact ⟨k, hrest⟩

theorem exists_run_iff (st : Storage) :
    (∃ depth r, sgGetErrorGlob (reportAt depth) st = .ok r) ↔ st.Ends := by
  rw [ends_iff]
  exact exists_congr fun depth => sgGetErrorGlob_run_iff depth st

/-- Where the block cannot be used right away, the record is the one in `pre_init_errs`. -/
theorem place_of_not_usable {setError : SgError → String → StorageM Unit} {st st' : Storage}
    {place : Place} (hnot : ¬ st.Usable) (hrun : sgGetErrorGlob setError st = .ok (place, st')) :
    place = .preInit := by
  cases hb : st.block with
  | some b =>
      have hid : ¬ st.IdValid := fun hid => hnot ⟨hid, .inl (by simp [hb])⟩
      obtain ⟨arg, heq⟩ := sgGetErrorGlob_block_invalid setError (by simp [hb]) hid
      rw [heq] at hrun
      obtain ⟨_, st1, -, hpure⟩ := Prog.bind_eq_ok.mp hrun
      cases hpure
      rfl
  | none =>
      by_cases hsize : st.globSize = 0
      · rw [sgGetErrorGlob_unlaid _ hb hsize] at hrun
        cases hrun
        rfl
      · cases hmem : st.mem 0 with
        | false =>
            obtain ⟨arg, heq⟩ := sgGetErrorGlob_refused setError hb hsize hmem
            rw [heq] at hrun
            obtain ⟨_, st1, -, hpure⟩ := Prog.bind_eq_ok.mp hrun
            cases hpure
            rfl
        | true =>
            cases hkey : st.keys 0 with
            | false =>
                rw [sgGetErrorGlob_discarded _ hb hsize hmem hkey] at hrun
                cases hrun
                rfl
            | true =>
                have hid : ¬ st.allocated.IdValid :=
                  fun hid => hnot ⟨hid, .inr ⟨hsize, hmem, hkey⟩⟩
                rw [sgGetErrorGlob_allocated _ hb hsize hmem hkey] at hrun
                obtain ⟨arg, heq⟩ :=
                  sgGetErrorGlob_block_invalid setError (show st.allocated.block.isSome from rfl) hid
                rw [heq] at hrun
                obtain ⟨_, st1, -, hpure⟩ := Prog.bind_eq_ok.mp hrun
                cases hpure
                rfl

theorem ErrorCall.finish_run (call : ErrorCall) (place : Place) (st : Storage) :
    ∃ rc st', call.finish place st = .ok ((place, rc), st') := by
  cases call with
  | set code errnoValue arg => exact ⟨_, _, rfl⟩
  | get => exact ⟨_, _, rfl⟩
  | clear => exact ⟨_, _, rfl⟩

/-! ### Two reports in a row -/

/-- A second report ends, too. Only a block that could not be made the thread's has to be asked for
again. -/
def Storage.EndTwice (st : Storage) (depth : Nat) : Prop :=
  st.EndsWithin depth ∧ ∀ k, st.block = none → st.globSize ≠ 0 → (∀ j, j < k → st.mem j = false) →
    st.mem k = true → st.keys 0 = false → (st.discardedAfter k).EndsWithin depth

theorem first_unset {mem : Nat → Bool} {k k' : Nat} (hbefore : ∀ j, j < k → mem j = false)
    (hk : mem k = true) (hbefore' : ∀ j, j < k' → mem j = false) (hk' : mem k' = true) : k = k' := by
  by_contra hne
  rcases Nat.lt_or_gt_of_ne hne with hlt | hlt
  · exact Bool.false_ne_true ((hbefore' k hlt).symm.trans hk)
  · exact Bool.false_ne_true ((hbefore k' hlt).symm.trans hk')

theorem ErrorCall.run_leaves (call : ErrorCall) {depth : Nat} {st : Storage}
    (h : st.EndsWithin depth) : ∃ r st', call.run depth st = .ok (r, st') ∧
      (st'.EndsWithin depth ↔ st.EndTwice depth) := by
  have hfinish : ∀ {place : Place} {st1 : Storage},
      sgGetErrorGlob (reportAt depth) st = .ok (place, st1) →
      ∃ r st', call.run depth st = .ok (r, st') ∧ st1.Like st' := by
    intro place st1 hglob
    have hrun : call.run depth st = call.finish place st1 := Prog.bind_of_ok hglob _
    rw [hrun]
    cases call with
    | set code errnoValue arg => exact ⟨_, _, rfl, st1.like_write _ place⟩
    | get => exact ⟨_, _, rfl, .refl st1⟩
    | clear => exact ⟨_, _, rfl, st1.like_write _ place⟩
  by_cases hneeds : st.block = none ∧ st.globSize ≠ 0
  · obtain ⟨hb, hsize⟩ := hneeds
    obtain ⟨k, hle, hbefore, hk, hrest⟩ := h.2 hb hsize
    obtain ⟨place, st1, hglob, hafter⟩ := run_of_endsWithin k depth st hle hb hsize hbefore hk hrest
    obtain ⟨r, st', hrun, hlike⟩ := hfinish hglob
    refine ⟨r, st', hrun, (hlike.endsWithin depth).trans ?_⟩
    by_cases hkey : st.keys 0 = true
    · rw [Storage.After, if_pos hkey] at hafter
      refine iff_of_true ⟨fun _ => hafter.2, fun hnone => ?_⟩ ⟨h, ?_⟩
      · simp [hnone] at hafter
      · intro _ _ _ _ _ hrefused
        exact absurd (hkey.symm.trans hrefused) (by simp)
    · rw [Storage.After, if_neg hkey] at hafter
      rw [hafter.endsWithin depth]
      constructor
      · intro hends
        refine ⟨h, fun k' _ _ hbefore' hk' _ => ?_⟩
        rwa [← first_unset hbefore hk hbefore' hk']
      · rintro ⟨-, hends⟩
        exact hends k hb hsize hbefore hk (by simpa using hkey)
  · have hglob : ∃ place, sgGetErrorGlob (reportAt depth) st = .ok (place, st) := by
      cases hb : st.block with
      | some b => exact ⟨_, sgGetErrorGlob_block _ (by simp [hb]) (h.1 (by simp [hb]))⟩
      | none =>
          have hsize : st.globSize = 0 := by
            by_contra hsize
            exact hneeds ⟨hb, hsize⟩
          exact ⟨_, sgGetErrorGlob_unlaid _ hb hsize⟩
    obtain ⟨place, hglob⟩ := hglob
    obtain ⟨r, st', hrun, hlike⟩ := hfinish hglob
    refine ⟨r, st', hrun, (hlike.endsWithin depth).trans ?_⟩
    exact iff_of_true h ⟨h, fun _ hb hsize => absurd ⟨hb, hsize⟩ hneeds⟩

theorem ErrorCall.run_iff (call : ErrorCall) (depth : Nat) (st : Storage) :
    (∃ r, call.run depth st = .ok r) ↔ st.EndsWithin depth := by
  constructor
  · rintro ⟨r, hrun⟩
    obtain ⟨place, st1, hglob, -⟩ := Prog.bind_eq_ok.mp hrun
    exact endsWithin_of_run depth st (place, st1) hglob
  · intro h
    obtain ⟨r, st', hrun, -⟩ := call.run_leaves h
    exact ⟨_, hrun⟩

theorem ErrorCall.run_run_iff (first second : ErrorCall) (depth : Nat) (st : Storage) :
    (∃ r, (first.run depth >>= fun _ => second.run depth) st = .ok r) ↔ st.EndTwice depth := by
  constructor
  · rintro ⟨r, hrun⟩
    obtain ⟨r1, st1, hfirst, hsecond⟩ := Prog.bind_eq_ok.mp hrun
    obtain ⟨r1', st1', hfirst', hiff⟩ := first.run_leaves ((first.run_iff depth st).mp ⟨_, hfirst⟩)
    rw [hfirst] at hfirst'
    cases hfirst'
    exact hiff.mp ((second.run_iff depth st1).mp ⟨_, hsecond⟩)
  · intro h
    obtain ⟨r1, st1, hfirst, hiff⟩ := first.run_leaves h.1
    obtain ⟨r, hsecond⟩ := (second.run_iff depth st1).mpr (hiff.mpr h)
    exact ⟨r, (Prog.bind_of_ok hfirst _).trans hsecond⟩

/-! ### The record as one cell -/

def ErrorCall.onRecord : ErrorCall → ThreadM SgError
  | .set code errnoValue arg => returnWithSetError code errnoValue arg
  | .get => sgGetError
  | .clear => do
      sgClearError
      return .none

theorem fitArg_of_short {arg : String} (h : arg.toList.length < errorArgMax) : fitArg arg = arg := by
  rw [fitArg, List.take_of_length_le (by omega), String.ofList_toList]

/-- Once the thread has a block and the error component an id, the error functions work on the record
of `Thread`. -/
theorem errorCall_refines (call : ErrorCall) {st : Storage} {b : Nat → ErrorGlob} {t : Thread}
    (hb : st.block = some b) (hid : st.IdValid) (ht : t.glob = b (compIndex st.errorGlobId))
    (hshort : ∀ code errnoValue arg, call = .set code errnoValue arg →
      arg.toList.length < errorArgMax) (depth : Nat) :
    ∃ rc st' t', call.run depth st = .ok ((.tls (compIndex st.errorGlobId), rc), st') ∧
      call.onRecord t = .ok (rc, t') ∧ st'.read (.tls (compIndex st.errorGlobId)) = t'.glob := by
  have hglob := sgGetErrorGlob_block (reportAt depth) (by simp [hb]) hid
  have hrun : call.run depth st = call.finish (.tls (compIndex st.errorGlobId)) st :=
    Prog.bind_of_ok hglob _
  rw [hrun]
  cases call with
  | set code errnoValue arg =>
      refine ⟨code, _, _, rfl, rfl, ?_⟩
      simp [Storage.write, Storage.read, hb, fitArg_of_short (hshort code errnoValue arg rfl)]
  | get =>
      refine ⟨_, st, t, rfl, ?_, ?_⟩
      · simp [ErrorCall.onRecord, Storage.read, hb, Thread.error, ht]
      · simp [Storage.read, hb, ht]
  | clear =>
      refine ⟨.none, _, _, rfl, rfl, ?_⟩
      simp [Storage.write, Storage.read, hb]

/-! ### The error functions -/

/-- A call of the error functions ends, using `pre_init_errs` where the thread's block cannot be used,
exactly in the states of `Storage.Ends`. -/
theorem errorCall_ends_iff (call : ErrorCall) (st : Storage) :
    (∃ depth place rc st', call.run depth st = .ok ((place, rc), st') ∧
      (¬ st.Usable → place = .preInit)) ↔ st.Ends := by
  rw [← exists_run_iff]
  constructor
  · rintro ⟨depth, place, rc, st', hrun, -⟩
    obtain ⟨p, st1, hglob, -⟩ := Prog.bind_eq_ok.mp hrun
    exact ⟨depth, (p, st1), hglob⟩
  · rintro ⟨depth, ⟨place, st1⟩, hglob⟩
    obtain ⟨rc, st', hfinish⟩ := call.finish_run place st1
    refine ⟨depth, place, rc, st', ?_, fun hnot => place_of_not_usable hnot hglob⟩
    rw [ErrorCall.run]
    exact (Prog.bind_of_ok hglob _).trans hfinish

/-- `sg_comp_init` reports its own failure on Linux: the storage is laid out, the error component has
no id yet. However deep the calls nest, the report does not end. -/
theorem errorCall_of_failed_init :
    ¬ ∃ depth place rc st', ErrorCall.run depth (.set .malloc 0 "sg_comp_init")
      { block := none, globSize := 4256, errorGlobId := 0, compCount := 11
        preInitErrs := .clear, mem := fun _ => true, keys := fun _ => true }
      = .ok ((place, rc), st') := by
  rintro ⟨depth, place, rc, st', hrun⟩
  obtain ⟨p, st1, hglob, -⟩ := Prog.bind_eq_ok.mp hrun
  obtain ⟨k, -, -, hrest⟩ := ((exists_run_iff _).mp ⟨depth, (p, st1), hglob⟩).2 rfl (by decide)
  rcases hrest with hkey | hid
  · cases hkey
  · exact absurd hid (by show ¬ compIndex 0 < 11; decide)

end Statgrab
