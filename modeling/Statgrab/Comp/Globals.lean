import Statgrab.Comp.ErrorStorage
import Statgrab.Comp.Layout
import Statgrab.Lib.Heap
import Statgrab.Lib.Run

/-!
# The thread-local storage of the components

`sg_comp_init` assigns each component a part of the storage of a thread. A thread gets its block with the first
call of `sg_comp_get_tls`, which hands out a pointer into it for the id of a component, and at the end of the
thread `sg_destroy_globals` lets every component clean its part up, clears the block and gives it back.

The layout is made once and used by any number of threads, each with a block of its own: before and after the
last `sg_comp_destroy`, which forgets the size of the storage and not where its parts start. The invariant is
that every block that is in use was allocated for the layout that the table has now.
-/

namespace Statgrab

open Function (update)

/-! ### The code -/

/-- An entry of `comp_info`: a component with its `cleanup_fn`, if there is one. That is what it makes of the bytes
of a block in which the component's part starts at the given place. -/
structure CompEntry extends CompInit where
  cleanupFn : Option (Nat → (Nat → UInt8) → Nat → UInt8)

/-- The storage of a thread: the bytes it was allocated with, and what they hold. -/
structure GlobBlock where
  size : Nat
  bytes : Nat → UInt8

/-- A pointer into the storage of a thread. -/
structure GlobPtr where
  block : Nat
  ofs : Nat
  deriving DecidableEq, Repr

/-- What `sg_destroy_globals` does to a block: a call of component `i`'s `cleanup_fn`, `memset` to 0 and
`free`. -/
inductive GlobCall where
  | cleanup (i : Nat) (p : GlobPtr)
  | clear (block bytes : Nat)
  | free (block : Nat)
  deriving DecidableEq, Repr

/-- What the threads work on: the static variables, the value of `glob_key` in each thread, the blocks, the
error record of each thread, and the answers `malloc` and `pthread_setspecific` will give. -/
structure Globals where
  comp : CompState
  globKey : Tid → Option Nat
  heap : Heap GlobBlock
  errors : Tid → ErrorGlob
  mem : Nat → Bool
  keys : Nat → Bool
  calls : List GlobCall

/-- Why a call does not come back: one of the reasons of the component table, or a misuse of a block. -/
inductive GlobStop where
  | comp (stop : CompStop)
  | outside
  | released
  deriving DecidableEq, Repr

abbrev GlobalsM := Prog GlobStop Globals

/-- The entries of the table without their `cleanup_fn`s. -/
def compInits (comps : List CompEntry) : List CompInit := comps.map CompEntry.toCompInit

namespace Globals

/-- `SET_ERROR`. Where the report allocates a block for its record first, that is one more call of
`sg_comp_get_tls` by the thread, an event of its own. -/
def setError (tid : Tid) (code : SgError) (arg : String) : GlobalsM Unit :=
  Prog.modify fun s => { s with errors := update s.errors tid ⟨code, 0, arg⟩ }

def malloc : GlobalsM Bool := fun s => .ok (s.mem 0, { s with mem := fun n => s.mem (n + 1) })

/-- `pthread_setspecific(glob_key, value)`: whether the value was set. -/
def setSpecific (tid : Tid) (value : Option Nat) : GlobalsM Bool := fun s =>
  .ok (s.keys 0, { s with
    keys := fun n => s.keys (n + 1)
    globKey := if s.keys 0 then update s.globKey tid value else s.globKey })

def deref (b : Nat) : GlobalsM GlobBlock := fun s =>
  match s.heap.blocks b with
  | some block => .ok (block, s)
  | none => .error .released

def sgAllocGlobals (tid : Tid) : GlobalsM (Option Nat) := do
  let size ← Prog.gets fun s => s.comp.globSize
  if size = 0 then return none
  else
    let ok ← malloc
    if ok then
      let b ← Prog.gets fun s => s.heap.next
      Prog.modify fun s => { s with heap := s.heap.place ⟨size, fun _ => 0⟩ }
      let set ← setSpecific tid (some b)
      if set then return some b
      else
        Prog.modify fun s => { s with heap := s.heap.drop b }
        return none
    else
      setError tid .malloc "sg_alloc_globals: malloc() failed or no components registered"
      return none

section

variable (comps : List CompEntry) (tid : Tid)

/-- The end of `sg_comp_get_tls`, with the block of the thread. -/
def getTlsIn (id b : Nat) : GlobalsM (Option GlobPtr) :=
  if compIndex id < comps.length then do
    let ofs ← Prog.gets fun s => s.comp.ofs (compIndex id)
    return some ⟨b, ofs⟩
  else do
    setError tid .invalidArgument ("sg_comp_get_tls: invalid id (" ++ toString (compIndex id) ++ ")")
    return none

def threadBlock : GlobalsM (Option Nat) := fun s =>
  match s.globKey tid with
  | some b => .ok (some b, s)
  | none => sgAllocGlobals tid s

def sgCompGetTls (id : Nat) : GlobalsM (Option GlobPtr) := do
  let block ← threadBlock tid
  match block with
  | none => return none
  | some b => getTlsIn comps tid id b

/-- The call of component `i`'s `cleanup_fn` with its part of the block. -/
def cleanup (b i : Nat) : GlobalsM Unit :=
  match comps[i]?.bind CompEntry.cleanupFn with
  | none => pure ()
  | some cleanupFn => do
      let ofs ← Prog.gets fun s => s.comp.ofs i
      let block ← deref b
      Prog.modify fun s => { s with
        calls := s.calls ++ [.cleanup i ⟨b, ofs⟩]
        heap := s.heap.put b { block with bytes := cleanupFn ofs block.bytes } }

/-- The loop of `sg_destroy_globals`, with the index before the decrement. -/
def cleanupLoop (b : Nat) : Nat → GlobalsM Unit
  | 0 => pure ()
  | i + 1 => do
      cleanup comps b i
      cleanupLoop b i

def clear (b n : Nat) : GlobalsM Unit := do
  let block ← deref b
  if block.size < n then Prog.fault .outside
  else
    Prog.modify fun s => { s with
      calls := s.calls ++ [.clear b n]
      heap := s.heap.put b { block with bytes := fun i => if i < n then 0 else block.bytes i } }

def free (b : Nat) : GlobalsM Unit := do
  let _ ← deref b
  Prog.modify fun s => { s with calls := s.calls ++ [.free b], heap := s.heap.drop b }

def sgDestroyGlobals : Option Nat → GlobalsM Unit
  | none => pure ()
  | some b => do
      let lastIdx := comps.length - 1
      let lastOfs ← Prog.gets fun s => s.comp.ofs lastIdx
      let zeroSize := (lastOfs + bufSize (compInits comps) lastIdx) % sizeBound
      cleanupLoop comps b comps.length
      clear b zeroSize
      free b
      let _ ← setSpecific tid none
      return ()

/-- The end of a thread: the value of the key is taken away, and `sg_destroy_globals` is called with it. -/
def threadExit : GlobalsM Unit := do
  let key ← Prog.gets fun s => s.globKey tid
  Prog.modify fun s => { s with globKey := update s.globKey tid none }
  sgDestroyGlobals comps tid key

end

def onComp {β : Type} (x : CompM β) : GlobalsM β := fun s =>
  match x s.comp with
  | .error stop => .error (.comp stop)
  | .ok (r, c) => .ok (r, { s with comp := c })

/-- A call of the library, or the end of a thread. -/
inductive Event where
  | init (tid : Tid) (env : InitEnv) (ignoreInitErrors : Bool)
  | destroy (tid : Tid)
  | getTls (tid : Tid) (id : Nat)
  | exit (tid : Tid)

def step (comps : List CompEntry) : Event → GlobalsM Unit
  | .init tid env ignoreInitErrors => do
      let _ ← onComp (sgCompInit (compInits comps) env tid ignoreInitErrors)
      return ()
  | .destroy tid => do
      let _ ← onComp (sgCompDestroy (compInits comps) tid)
      return ()
  | .getTls tid id => do
      let _ ← sgCompGetTls comps tid id
      return ()
  | .exit tid => threadExit comps tid

def start (mem keys : Nat → Bool) : Globals :=
  { comp := .start, globKey := fun _ => none, heap := ⟨fun _ => none, 0⟩
    errors := fun _ => .clear, mem := mem, keys := keys, calls := [] }

/-- What the callers owe: no destroy without an init before it. -/
def Valid (s : Globals) : Event → Prop
  | .destroy _ => s.comp.initialized ≠ 0
  | _ => True

/-! ### The end of a block -/

def cleanupCall (comps : List CompEntry) (c : CompState) (b i : Nat) : List GlobCall :=
  if (comps[i]?.bind CompEntry.cleanupFn).isSome then [.cleanup i ⟨b, c.ofs i⟩] else []

/-- The calls of the `cleanup_fn`s, from the last component to the first. -/
def cleanupCalls (comps : List CompEntry) (c : CompState) (b : Nat) : List GlobCall :=
  ((comps.zipIdx.filter fun e => e.1.cleanupFn.isSome).map fun e => .cleanup e.2 ⟨b, c.ofs e.2⟩).reverse

structure Worked (b : Nat) (s s' : Globals) (calls : List GlobCall) : Prop where
  comp : s'.comp = s.comp
  globKey : s'.globKey = s.globKey
  next : s'.heap.next = s.heap.next
  others : ∀ q, q ≠ b → s'.heap.blocks q = s.heap.blocks q
  block : ∀ block, s.heap.blocks b = some block →
    ∃ block', s'.heap.blocks b = some block' ∧ block'.size = block.size
  calls : s'.calls = s.calls ++ calls

theorem Worked.refl (b : Nat) (s : Globals) : Worked b s s [] :=
  ⟨rfl, rfl, rfl, fun _ _ => rfl, fun block hb => ⟨block, hb, rfl⟩, (List.append_nil _).symm⟩

theorem Worked.trans {b : Nat} {s s' s'' : Globals} {xs ys : List GlobCall} (h : Worked b s s' xs)
    (h' : Worked b s' s'' ys) : Worked b s s'' (xs ++ ys) := by
  refine ⟨h'.comp.trans h.comp, h'.globKey.trans h.globKey, h'.next.trans h.next, ?_, ?_, ?_⟩
  · intro q hq
    rw [h'.others q hq, h.others q hq]
  · intro block hb
    obtain ⟨block', hb', hsize⟩ := h.block block hb
    obtain ⟨block'', hb'', hsize'⟩ := h'.block block' hb'
    exact ⟨block'', hb'', hsize'.trans hsize⟩
  · rw [h'.calls, h.calls, List.append_assoc]

section

variable {comps : List CompEntry} {tid : Tid} {b : Nat} {s : Globals} {block : GlobBlock}

theorem deref_run (hb : s.heap.blocks b = some block) : deref b s = .ok (block, s) := by
  rw [deref, hb]

theorem worked_put (hb : s.heap.blocks b = some block) (bytes : Nat → UInt8) (call : GlobCall) :
    Worked b s { s with
      calls := s.calls ++ [call], heap := s.heap.put b { block with bytes := bytes } } [call] := by
  refine ⟨rfl, rfl, rfl, fun q hq => Heap.put_of_ne hq, ?_, rfl⟩
  intro block' hb'
  rw [hb] at hb'
  cases hb'
  exact ⟨_, Heap.put_self _ _ _, rfl⟩

theorem cleanup_run (hb : s.heap.blocks b = some block) (i : Nat) :
    ∃ s', cleanup comps b i s = .ok ((), s') ∧ Worked b s s' (cleanupCall comps s.comp b i) := by
  rw [cleanup, cleanupCall]
  cases comps[i]?.bind CompEntry.cleanupFn with
  | none => exact ⟨s, rfl, Worked.refl b s⟩
  | some cleanupFn =>
      refine ⟨_, ?_, worked_put hb (cleanupFn (s.comp.ofs i) block.bytes) (.cleanup i ⟨b, s.comp.ofs i⟩)⟩
      simp only [Prog.bind_run, Prog.gets_run, deref_run hb, Prog.modify_run]

theorem cleanupCalls_take (c : CompState) {i : Nat} (hi : i < comps.length) :
    cleanupCalls (comps.take (i + 1)) c b
      = cleanupCall comps c b i ++ cleanupCalls (comps.take i) c b := by
  have hlen : (comps.take i).length = i := by
    rw [List.length_take]
    omega
  rw [cleanupCalls, List.take_succ_eq_append_getElem hi, List.zipIdx_append, hlen, Nat.zero_add,
    List.filter_append, List.map_append, List.reverse_append, cleanupCalls, cleanupCall,
    List.getElem?_eq_getElem hi, Option.bind_some]
  congr 1
  cases hfn : comps[i].cleanupFn with
  | none => simp [hfn]
  | some cleanupFn => simp [hfn]

theorem cleanupLoop_run (i : Nat) (hi : i ≤ comps.length) (hb : s.heap.blocks b = some block) :
    ∃ s', cleanupLoop comps b i s = .ok ((), s') ∧
      Worked b s s' (cleanupCalls (comps.take i) s.comp b) := by
  induction i generalizing s block with
  | zero => exact ⟨s, rfl, Worked.refl b s⟩
  | succ i ih =>
      obtain ⟨s1, hrun1, hworked1⟩ := @cleanup_run comps b s block hb i
      obtain ⟨block1, hb1, -⟩ := hworked1.block block hb
      obtain ⟨s2, hrun2, hworked2⟩ := ih (by omega) hb1
      refine ⟨s2, ?_, ?_⟩
      · rw [cleanupLoop, Prog.bind_of_ok hrun1, hrun2]
      · rw [cleanupCalls_take s.comp hi]
        rw [hworked1.comp] at hworked2
        exact hworked1.trans hworked2

theorem clear_run (hb : s.heap.blocks b = some block) {n : Nat} (hn : n ≤ block.size) :
    ∃ s', clear b n s = .ok ((), s') ∧ Worked b s s' [.clear b n] := by
  refine ⟨_, ?_, worked_put hb (fun i => if i < n then 0 else block.bytes i) (.clear b n)⟩
  rw [clear, Prog.bind_of_ok (deref_run hb), if_neg (by omega)]
  rfl

theorem free_run (hb : s.heap.blocks b = some block) :
    free b s = .ok ((), { s with calls := s.calls ++ [.free b], heap := s.heap.drop b }) := by
  rw [free, Prog.bind_of_ok (deref_run hb)]
  rfl

/-- What `sg_destroy_globals` leaves of a block: it is given back, after these calls, and the key of the thread
may have been set to NULL. -/
structure Destroyed (tid : Tid) (b : Nat) (s s' : Globals) (calls : List GlobCall) : Prop where
  comp : s'.comp = s.comp
  next : s'.heap.next = s.heap.next
  gone : s'.heap.blocks b = none
  others : ∀ q, q ≠ b → s'.heap.blocks q = s.heap.blocks q
  globKey : s'.globKey = s.globKey ∨ s'.globKey = update s.globKey tid none
  calls : s'.calls = s.calls ++ calls

/-- `sg_destroy_globals` cleans every part up, clears the whole block and gives it back, where the end of the
last part is the end of the block. -/
theorem sgDestroyGlobals_run (tid : Tid) (hb : s.heap.blocks b = some block)
    (hsize : (s.comp.ofs (comps.length - 1) + bufSize (compInits comps) (comps.length - 1)) % sizeBound
      = block.size) :
    ∃ s', sgDestroyGlobals comps tid (some b) s = .ok ((), s') ∧
      Destroyed tid b s s' (cleanupCalls comps s.comp b ++ [.clear b block.size, .free b]) := by
  obtain ⟨s1, hrun1, hworked1⟩ := @cleanupLoop_run comps b s block comps.length le_rfl hb
  rw [List.take_length] at hworked1
  obtain ⟨block1, hb1, hsize1⟩ := hworked1.block block hb
  obtain ⟨s2, hrun2, hworked2⟩ := clear_run hb1 (n := block.size) (le_of_eq hsize1.symm)
  have hworked := hworked1.trans hworked2
  obtain ⟨block2, hb2, -⟩ := hworked2.block block1 hb1
  let s3 : Globals := { s2 with calls := s2.calls ++ [.free b], heap := s2.heap.drop b }
  refine ⟨{ s3 with
    keys := fun n => s3.keys (n + 1)
    globKey := if s3.keys 0 then update s3.globKey tid none else s3.globKey }, ?_, ?_⟩
  · rw [sgDestroyGlobals, Prog.bind_of_ok (Prog.gets_run _ s), hsize, Prog.bind_of_ok hrun1,
      Prog.bind_of_ok hrun2, Prog.bind_of_ok (free_run hb2)]
    rfl
  · refine ⟨hworked.comp, hworked.next, Function.update_self _ _ _, ?_, ?_, ?_⟩
    · intro q hq
      exact (Heap.drop_of_ne hq).trans (hworked.others q hq)
    · rw [← hworked.globKey]
      cases hkey : s3.keys 0 with
      | true => exact .inr rfl
      | false => exact .inl rfl
    · show s2.calls ++ [.free b] = _
      rw [hworked.calls, List.append_assoc, List.append_assoc]
      rfl

end

/-! ### The invariant -/

/-- The states of a run: the storage is laid out while the library is in use, and every thread's block is its
own and was allocated for the layout. -/
structure Inv (comps : List CompEntry) (s : Globals) : Prop where
  fresh : s.heap.Fresh
  ready : s.comp.initialized ≠ 0 → s.comp.LaidOut (compInits comps)
  sized : s.comp.globSize ≠ 0 → s.comp.LaidOut (compInits comps)
  blocks : ∀ tid b, s.globKey tid = some b → s.comp.globOfs = layoutFrom 0 (compInits comps) ∧
    layoutSize 0 (compInits comps) ≠ 0 ∧
    ∃ block, s.heap.blocks b = some block ∧ block.size = layoutSize 0 (compInits comps)
  apart : ∀ tid tid' b, s.globKey tid = some b → s.globKey tid' = some b → tid = tid'

section

variable {comps : List CompEntry} {tid : Tid} {s s' : Globals}

/-- No thread gets a block, and the blocks that stay in use stay as they are. -/
theorem Inv.frame (h : s.Inv comps) (hcomp : s'.comp = s.comp)
    (hkey : ∀ t b, s'.globKey t = some b → s.globKey t = some b) (hfresh : s'.heap.Fresh)
    (hblocks : ∀ t b, s'.globKey t = some b → s'.heap.blocks b = s.heap.blocks b) : s'.Inv comps := by
  refine ⟨hfresh, hcomp ▸ h.ready, hcomp ▸ h.sized, ?_, ?_⟩
  · intro t b hb
    rw [hcomp, hblocks t b hb]
    exact h.blocks t b (hkey t b hb)
  · intro t t' b hb hb'
    exact h.apart t t' b (hkey t b hb) (hkey t' b hb')

theorem Inv.lt (h : s.Inv comps) {b : Nat} (hb : s.globKey tid = some b) : b < s.heap.next := by
  obtain ⟨-, -, block, hblock, -⟩ := h.blocks tid b hb
  exact h.fresh.lt hblock

theorem Inv.withComp (h : s.Inv comps) {c : CompState}
    (hready : c.initialized ≠ 0 → c.LaidOut (compInits comps))
    (hsized : c.globSize ≠ 0 → c.LaidOut (compInits comps))
    (hofs : s.comp.globOfs = layoutFrom 0 (compInits comps) → c.globOfs = s.comp.globOfs) :
    Inv comps { s with comp := c } := by
  refine ⟨h.fresh, hready, hsized, ?_, h.apart⟩
  intro t b hb
  obtain ⟨hlayout, hrest⟩ := h.blocks t b hb
  exact ⟨(hofs hlayout).trans hlayout, hrest⟩

theorem init_laidOut (h : s.Inv comps) {env : InitEnv} {ignoreInitErrors : Bool} {r : InitResult}
    {c : CompState} (hrun : sgCompInit (compInits comps) env tid ignoreInitErrors s.comp = .ok (r, c)) :
    c.LaidOut (compInits comps) := by
  have hlayout := sgCompInit_layout hrun
  by_cases hcount : s.comp.initialized = 0
  · rwa [if_pos hcount] at hlayout
  · rw [if_neg hcount] at hlayout
    have hready := h.ready hcount
    exact ⟨hlayout.1.trans hready.globOfs, hlayout.2.trans hready.globSize⟩

theorem init_inv (h : s.Inv comps) {env : InitEnv} {ignoreInitErrors : Bool} {r : InitResult} {c : CompState}
    (hrun : sgCompInit (compInits comps) env tid ignoreInitErrors s.comp = .ok (r, c)) :
    Inv comps { s with comp := c } := by
  have hlaid := init_laidOut h hrun
  exact h.withComp (fun _ => hlaid) (fun _ => hlaid) fun hofs => hlaid.globOfs.trans hofs.symm

theorem destroy_inv (h : s.Inv comps) (hcount : s.comp.initialized ≠ 0) {rc : SgError} {c : CompState}
    (hrun : sgCompDestroy (compInits comps) tid s.comp = .ok (rc, c)) : Inv comps { s with comp := c } := by
  have hready := h.ready hcount
  obtain ⟨hofs, hsize⟩ := sgCompDestroy_layout hrun
  have hlaid : c.initialized ≠ 0 ∨ c.globSize ≠ 0 → c.LaidOut (compInits comps) := by
    intro hused
    rcases hsize with hsize | ⟨hzero, hnone⟩
    · exact ⟨hofs.trans hready.globOfs, hsize.trans hready.globSize⟩
    · rcases hused with hused | hused
      · exact absurd hzero hused
      · exact absurd hnone hused
  exact h.withComp (fun hne => hlaid (.inl hne)) (fun hne => hlaid (.inr hne)) fun _ => hofs

theorem Inv.allocated (h : s.Inv comps) (hsize : s.comp.globSize ≠ 0)
    (bytes : Nat → UInt8) (hcomp : s'.comp = s.comp)
    (hheap : s'.heap = s.heap.place ⟨s.comp.globSize, bytes⟩)
    (hkey' : s'.globKey = update s.globKey tid (some s.heap.next)) : s'.Inv comps := by
  have hlaid := h.sized hsize
  have hold : ∀ t b, s.globKey t = some b → b ≠ s.heap.next := fun t b hb => Nat.ne_of_lt (h.lt hb)
  refine ⟨hheap ▸ h.fresh.place, hcomp ▸ h.ready, hcomp ▸ h.sized, ?_, ?_⟩
  · intro t b hb
    rw [hkey'] at hb
    by_cases ht : t = tid
    · rw [ht, Function.update_self, Option.some_inj] at hb
      rw [hcomp, hheap, ← hb, ← hlaid.globSize, Heap.place_self]
      exact ⟨hlaid.globOfs, hsize, _, rfl, rfl⟩
    · rw [Function.update_of_ne ht] at hb
      rw [hcomp, hheap, Heap.place_of_ne (hold t b hb)]
      exact h.blocks t b hb
  · intro t t' b hb hb'
    rw [hkey'] at hb hb'
    by_cases ht : t = tid
    · by_cases ht' : t' = tid
      · rw [ht, ht']
      · rw [ht, Function.update_self, Option.some_inj] at hb
        rw [Function.update_of_ne ht'] at hb'
        exact absurd hb.symm (hold t' b hb')
    · rw [Function.update_of_ne ht] at hb
      by_cases ht' : t' = tid
      · rw [ht', Function.update_self, Option.some_inj] at hb'
        exact absurd hb'.symm (hold t b hb)
      · rw [Function.update_of_ne ht'] at hb'
        exact h.apart t t' b hb hb'

theorem sgAllocGlobals_inv (h : s.Inv comps) {block : Option Nat}
    (hrun : sgAllocGlobals tid s = .ok (block, s')) : s'.Inv comps := by
  by_cases hsize : s.comp.globSize = 0
  · rw [sgAllocGlobals, Prog.bind_of_ok (Prog.gets_run _ s), if_pos hsize] at hrun
    cases hrun
    exact h
  · rw [sgAllocGlobals, Prog.bind_of_ok (Prog.gets_run _ s), if_neg hsize] at hrun
    cases hmem : s.mem 0 with
    | false =>
        simp only [malloc, setError, Prog.bind_run, hmem, Bool.false_eq_true, if_false, Prog.modify_run,
          Prog.pure_run] at hrun
        cases hrun
        exact h.frame rfl (fun _ _ hb => hb) h.fresh fun _ _ _ => rfl
    | true =>
        simp only [malloc, setSpecific, Prog.bind_run, hmem, Prog.gets_run, Prog.modify_run, if_true] at hrun
        cases hset : s.keys 0 with
        | false =>
            simp only [hset, Bool.false_eq_true, if_false, Prog.bind_run, Prog.modify_run, Prog.pure_run] at hrun
            cases hrun
            refine h.frame rfl (fun _ _ hb => hb) h.fresh.place.drop ?_
            intro t b hb
            have hne := Nat.ne_of_lt (h.lt hb)
            exact (Heap.drop_of_ne hne).trans (Heap.place_of_ne hne)
        | true =>
            simp only [hset, if_true, Prog.pure_run] at hrun
            cases hrun
            exact h.allocated hsize _ rfl rfl rfl

theorem getTlsIn_inv (h : s.Inv comps) {id b : Nat} {p : Option GlobPtr}
    (hrun : getTlsIn comps tid id b s = .ok (p, s')) : s'.Inv comps := by
  rw [getTlsIn] at hrun
  split at hrun
  · cases hrun
    exact h
  · cases hrun
    exact h.frame rfl (fun _ _ hb => hb) h.fresh fun _ _ _ => rfl

theorem sgCompGetTls_inv (h : s.Inv comps) {id : Nat} {p : Option GlobPtr}
    (hrun : sgCompGetTls comps tid id s = .ok (p, s')) : s'.Inv comps := by
  obtain ⟨block, s1, hblock, hrun⟩ := Prog.bind_eq_ok.mp hrun
  have h1 : s1.Inv comps := by
    rw [threadBlock] at hblock
    split at hblock
    · cases hblock
      exact h
    · exact sgAllocGlobals_inv h hblock
  cases block with
  | none =>
      cases hrun
      exact h1
  | some b => exact getTlsIn_inv h1 hrun

theorem Inv.zeroSize (h : s.Inv comps) (hsum : (bufSizes (compInits comps)).sum < sizeBound) {b : Nat}
    (hb : s.globKey tid = some b) {block : GlobBlock} (hblock : s.heap.blocks b = some block) :
    (s.comp.ofs (comps.length - 1) + bufSize (compInits comps) (comps.length - 1)) % sizeBound
      = block.size := by
  obtain ⟨hofs, hne, block', hblock', hsize⟩ := h.blocks tid b hb
  rw [hblock] at hblock'
  cases hblock'
  have hlen : (compInits comps).length = comps.length := List.length_map _
  have hpos : comps.length ≠ 0 := by
    intro hzero
    apply hne
    rw [List.length_eq_zero_iff.mp hzero]
    rfl
  have hend := ofs_add_bufSize hofs hsum (i := comps.length - 1) (by omega)
  rw [hend, hsize, layoutSize_eq 0 (by omega), Nat.zero_add, Nat.sub_add_cancel (by omega), ← hlen,
    ← bufSizes_length, Ranges.start_length, Nat.mod_eq_of_lt hsum]

theorem threadExit_run (h : s.Inv comps) (hsum : (bufSizes (compInits comps)).sum < sizeBound) {b : Nat}
    (hb : s.globKey tid = some b) :
    ∃ block s', s.heap.blocks b = some block ∧ threadExit comps tid s = .ok ((), s') ∧
      Destroyed tid b { s with globKey := update s.globKey tid none } s'
        (cleanupCalls comps s.comp b ++ [.clear b block.size, .free b]) := by
  obtain ⟨-, -, block, hblock, -⟩ := h.blocks tid b hb
  obtain ⟨s', hrun, hdestroyed⟩ := @sgDestroyGlobals_run comps b
    { s with globKey := update s.globKey tid none } block tid hblock (h.zeroSize hsum hb hblock)
  refine ⟨block, s', hblock, ?_, hdestroyed⟩
  rw [threadExit, Prog.bind_of_ok (Prog.gets_run _ s), hb, Prog.bind_of_ok (Prog.modify_run _ s)]
  exact hrun

theorem threadExit_inv (h : s.Inv comps) (hsum : (bufSizes (compInits comps)).sum < sizeBound)
    (hrun : threadExit comps tid s = .ok ((), s')) : s'.Inv comps := by
  have hother : ∀ t b, update s.globKey tid none t = some b → t ≠ tid ∧ s.globKey t = some b := by
    intro t b hb
    by_cases ht : t = tid
    · rw [ht, Function.update_self] at hb
      cases hb
    · rw [Function.update_of_ne ht] at hb
      exact ⟨ht, hb⟩
  cases hkey : s.globKey tid with
  | none =>
      rw [threadExit, Prog.bind_of_ok (Prog.gets_run _ s), hkey, Prog.bind_of_ok (Prog.modify_run _ s)] at hrun
      cases hrun
      exact h.frame rfl (fun t b hb => (hother t b hb).2) h.fresh fun _ _ _ => rfl
  | some b =>
      obtain ⟨block, s1, hblock, hrun', hdestroyed⟩ := threadExit_run h hsum hkey
      rw [hrun'] at hrun
      cases hrun
      have hkeys : s'.globKey = update s.globKey tid none := by
        rcases hdestroyed.globKey with hsame | hsame
        · exact hsame
        · rw [hsame]
          exact Function.update_idem _ _ _
      rw [← hkeys] at hother
      -- the block that is gone was no other thread's
      have hne : ∀ t q, s'.globKey t = some q → q ≠ b := by
        rintro t q hq rfl
        obtain ⟨ht, hold⟩ := hother t q hq
        exact ht (h.apart t tid q hold hkey)
      refine h.frame hdestroyed.comp (fun t q hq => (hother t q hq).2) ?_ ?_
      · intro q hq
        rw [hdestroyed.next] at hq
        by_cases hqb : q = b
        · rw [hqb]
          exact hdestroyed.gone
        · rw [hdestroyed.others q hqb]
          exact h.fresh q hq
      · intro t q hq
        exact hdestroyed.others q (hne t q hq)

theorem onComp_eq_ok {β : Type} {x : CompM β} {r : β} (hrun : onComp x s = .ok (r, s')) :
    ∃ c, x s.comp = .ok (r, c) ∧ s' = { s with comp := c } := by
  rw [onComp] at hrun
  cases hx : x s.comp with
  | error stop =>
      rw [hx] at hrun
      cases hrun
  | ok p =>
      rw [hx] at hrun
      cases hrun
      exact ⟨_, rfl, rfl⟩

theorem step_inv (h : s.Inv comps) (hsum : (bufSizes (compInits comps)).sum < sizeBound) {ev : Event}
    (hvalid : s.Valid ev) (hrun : step comps ev s = .ok ((), s')) : s'.Inv comps := by
  cases ev with
  | init tid env ignoreInitErrors =>
      obtain ⟨r, s1, hinit, hrun⟩ := Prog.bind_eq_ok.mp hrun
      cases hrun
      obtain ⟨c, hcomp, rfl⟩ := onComp_eq_ok hinit
      exact init_inv h hcomp
  | destroy tid =>
      obtain ⟨r, s1, hdestroy, hrun⟩ := Prog.bind_eq_ok.mp hrun
      cases hrun
      obtain ⟨c, hcomp, rfl⟩ := onComp_eq_ok hdestroy
      exact destroy_inv h hvalid hcomp
  | getTls tid id =>
      obtain ⟨p, s1, hget, hrun⟩ := Prog.bind_eq_ok.mp hrun
      cases hrun
      exact sgCompGetTls_inv h hget
  | exit tid => exact threadExit_inv h hsum hrun

end

/-! ### `sg_comp_get_tls` -/

section

variable {comps : List CompEntry} {tid : Tid} {s : Globals} {b : Nat}

theorem compIndex_add {i : Nat} (hi : i < unsignedBound) :
    compIndex ((i + globMask) % unsignedBound) = i := by
  rw [unsignedBound] at hi ⊢
  rw [compIndex, globMask]
  omega

theorem add_compIndex {id : Nat} (hid : id < unsignedBound) :
    id = (compIndex id + globMask) % unsignedBound := by
  rw [unsignedBound] at hid ⊢
  rw [compIndex, globMask]
  omega

theorem sgCompGetTls_block (hb : s.globKey tid = some b) (id : Nat) :
    sgCompGetTls comps tid id s = getTlsIn comps tid id b s := by
  have hblock : threadBlock tid s = .ok (some b, s) := by rw [threadBlock, hb]
  exact Prog.bind_of_ok hblock _

theorem sgCompGetTls_found (hb : s.globKey tid = some b) {id : Nat} (hid : compIndex id < comps.length) :
    sgCompGetTls comps tid id s = .ok (some ⟨b, s.comp.ofs (compIndex id)⟩, s) := by
  rw [sgCompGetTls_block hb, getTlsIn, if_pos hid]
  rfl

/-- A thread without a block: its first call allocates one. -/
theorem sgCompGetTls_allocated (hkey : s.globKey tid = none) (hsize : s.comp.globSize ≠ 0)
    (hmem : s.mem 0 = true) (hset : s.keys 0 = true) {id : Nat} (hid : compIndex id < comps.length) :
    ∃ s', sgCompGetTls comps tid id s = .ok (some ⟨s.heap.next, s.comp.ofs (compIndex id)⟩, s') ∧
      s'.heap.blocks s.heap.next = some ⟨s.comp.globSize, fun _ => 0⟩ ∧
      s'.globKey = update s.globKey tid (some s.heap.next) ∧ s'.comp = s.comp := by
  let s1 : Globals := { s with
    mem := fun n => s.mem (n + 1)
    heap := s.heap.place ⟨s.comp.globSize, fun _ => 0⟩
    keys := fun n => s.keys (n + 1)
    globKey := update s.globKey tid (some s.heap.next) }
  have hblock : threadBlock tid s = .ok (some s.heap.next, s1) := by
    rw [threadBlock, hkey]
    simp only [sgAllocGlobals, malloc, setSpecific, Prog.bind_run, Prog.gets_run, Prog.modify_run, hsize, hmem,
      hset, if_true, if_false, Prog.pure_run]
    rfl
  refine ⟨s1, ?_, Heap.place_self _ _, rfl, rfl⟩
  rw [sgCompGetTls, Prog.bind_of_ok hblock]
  simp only [getTlsIn, if_pos hid]
  rfl

theorem sgCompGetTls_refused (hb : s.globKey tid = some b) {id : Nat} (hid : ¬ compIndex id < comps.length) :
    ∃ s', sgCompGetTls comps tid id s = .ok (none, s') := by
  rw [sgCompGetTls_block hb, getTlsIn, if_neg hid]
  exact ⟨_, rfl⟩

/-- Where the error functions find their record, the report of an invalid id ends, and the pointer is that of
the component the error functions would find. -/
theorem sgCompGetTls_refines (hb : s.globKey tid = some b) {st : Storage} (hst : st.block.isSome)
    (hid : st.IdValid) (hcount : st.compCount = comps.length) (id : Nat) :
    ∃ depth found st' s', Statgrab.sgCompGetTls (reportAt depth) id st = .ok (found, st') ∧
      sgCompGetTls comps tid id s = .ok (found.map fun i => ⟨b, s.comp.ofs i⟩, s') := by
  by_cases hlt : compIndex id < comps.length
  · refine ⟨0, some (compIndex id), st, s, ?_, sgCompGetTls_found hb hlt⟩
    rw [← hcount] at hlt
    simp [Statgrab.sgCompGetTls, Prog.bind_run, hst, hlt]
  · obtain ⟨s', hrun⟩ := sgCompGetTls_refused hb hlt
    have hreport := reportAt_succ (sgGetErrorGlob_block (reportAt 0) hst hid) .invalidArgument
      ("sg_comp_get_tls: invalid id (" ++ toString (compIndex id) ++ ")")
    rw [← hcount] at hlt
    have hindex : ∃ st', Statgrab.sgCompGetTls (reportAt 1) id st = .ok (none, st') := by
      simp only [Statgrab.sgCompGetTls, Prog.bind_run, Prog.gets_run, hst, if_true, Prog.pure_run, if_neg hlt,
        hreport]
      exact ⟨_, rfl⟩
    obtain ⟨st', hindex⟩ := hindex
    exact ⟨1, none, st', s', hindex, hrun⟩

end

/-! ### Every run -/

/-- What is expected of a state: an `sg_comp_init` leaves parts that fill the storage without an overlap; so
are the blocks in use filled; a thread without a block gets one with its first `sg_comp_get_tls`, if the memory
and the key are granted; `sg_comp_get_tls` finds the part of each component in the block of the thread and
refuses all other ids; and at the end of the thread the `cleanup_fn`s are called with these pointers, from the
last component to the first, before the block is cleared and given back. -/
structure Right (comps : List CompEntry) (s : Globals) : Prop where
  laidOut : ∀ env tid ignoreInitErrors r c,
    sgCompInit (compInits comps) env tid ignoreInitErrors s.comp = .ok (r, c) →
      c.Tiled (compInits comps) c.globSize
  filled : ∀ tid b block, s.globKey tid = some b → s.heap.blocks b = some block →
    s.comp.Tiled (compInits comps) block.size
  allocated : ∀ tid i, s.globKey tid = none → s.comp.globSize ≠ 0 → s.mem 0 = true → s.keys 0 = true →
    i < comps.length → i < unsignedBound → ∃ b s',
      sgCompGetTls comps tid ((i + globMask) % unsignedBound) s = .ok (some ⟨b, s.comp.ofs i⟩, s') ∧
      s.heap.blocks b = none ∧ s'.heap.blocks b = some ⟨s.comp.globSize, fun _ => 0⟩ ∧
      s'.globKey = update s.globKey tid (some b) ∧ s'.comp = s.comp
  found : ∀ tid b i, s.globKey tid = some b → i < comps.length → i < unsignedBound →
    sgCompGetTls comps tid ((i + globMask) % unsignedBound) s = .ok (some ⟨b, s.comp.ofs i⟩, s)
  refused : ∀ tid b id, s.globKey tid = some b → id < unsignedBound →
    (∀ i, i < comps.length → id ≠ (i + globMask) % unsignedBound) →
      ∃ s', sgCompGetTls comps tid id s = .ok (none, s')
  destroyed : ∀ tid b, s.globKey tid = some b → ∃ block s', s.heap.blocks b = some block ∧
    threadExit comps tid s = .ok ((), s') ∧ s'.heap.blocks b = none ∧
      s'.calls = s.calls ++ (cleanupCalls comps s.comp b ++ [.clear b block.size, .free b])

theorem Inv.right {comps : List CompEntry} {s : Globals} (h : s.Inv comps)
    (hsum : (bufSizes (compInits comps)).sum < sizeBound) : s.Right comps := by
  constructor
  · intro env tid ignoreInitErrors r c hrun
    have hlaid := init_laidOut h hrun
    rw [hlaid.globSize]
    exact tiled_of_layout hlaid.globOfs hsum
  · intro tid b block hb hblock
    obtain ⟨hofs, -, block', hblock', hsize⟩ := h.blocks tid b hb
    rw [hblock] at hblock'
    cases hblock'
    rw [hsize]
    exact tiled_of_layout hofs hsum
  · intro tid i hkey hsize hmem hset hi hbound
    have hindex := compIndex_add hbound
    have hid : compIndex ((i + globMask) % unsignedBound) < comps.length := by rwa [hindex]
    obtain ⟨s', hrun, hrest⟩ := sgCompGetTls_allocated hkey hsize hmem hset hid
    rw [hindex] at hrun
    exact ⟨_, s', hrun, h.fresh _ (Nat.le_refl _), hrest⟩
  · intro tid b i hb hi hbound
    have hindex := compIndex_add hbound
    have hfound := @sgCompGetTls_found _ _ _ _ hb ((i + globMask) % unsignedBound) (by rwa [hindex])
    rwa [hindex] at hfound
  · intro tid b id hb hid hother
    apply sgCompGetTls_refused hb
    intro hlt
    exact hother (compIndex id) hlt (add_compIndex hid)
  · intro tid b hb
    obtain ⟨block, s', hblock, hrun, hdestroyed⟩ := threadExit_run h hsum hb
    exact ⟨block, s', hblock, hrun, hdestroyed.gone, hdestroyed.calls⟩

theorem start_inv (comps : List CompEntry) (mem keys : Nat → Bool) : (start mem keys).Inv comps := by
  refine ⟨fun _ _ => rfl, fun hne => absurd rfl hne, fun hne => absurd rfl hne, ?_, ?_⟩
  · intro tid b hb
    cases hb
  · intro tid tid' b hb
    cases hb

/-- In every run of inits, destroys, lookups and ends of threads every state is as expected, for every table
of components whose parts fit into a `size_t`. -/
theorem right_always (comps : List CompEntry) (hsum : (bufSizes (compInits comps)).sum < sizeBound)
    (mem keys : Nat → Bool) (evs : List Event)
    (hvalid : Prog.Always (step comps) Valid (start mem keys) evs) :
    Prog.Always (step comps) (fun s _ => s.Right comps) (start mem keys) evs :=
  Prog.Always.imp (fun _ _ h _ => h.right hsum) (fun _ _ _ h hev hrun => step_inv h hsum hev hrun)
    (start_inv comps mem keys) hvalid

/-- The components of Linux, each with a `cleanup_fn`. -/
def linuxInfos : List CompEntry := linuxComps.map fun c => ⟨c, some fun _ bytes => bytes⟩

/-- A thread that looks the storage of the process component up and ends: the pointer it gets, and the calls at
its end. -/
theorem right_always_linux :
    Prog.Always (step linuxInfos) (fun s _ => s.Right linuxInfos) (start (fun _ => true) fun _ => true)
      [.init 1 calmEnv false, .getTls 1 (globMask + 8), .exit 1] ∧
    ∃ s1 s2 s3,
      step linuxInfos (.init 1 calmEnv false) (start (fun _ => true) fun _ => true) = .ok ((), s1) ∧
      sgCompGetTls linuxInfos 1 (globMask + 8) s1 = .ok (some ⟨0, 4224⟩, s2) ∧
      threadExit linuxInfos 1 s2 = .ok ((), s3) ∧
      s3.calls = [.cleanup 10 ⟨0, 4248⟩, .cleanup 9 ⟨0, 4240⟩, .cleanup 8 ⟨0, 4224⟩,
        .cleanup 7 ⟨0, 4208⟩, .cleanup 6 ⟨0, 4200⟩, .cleanup 5 ⟨0, 4176⟩, .cleanup 4 ⟨0, 4168⟩,
        .cleanup 3 ⟨0, 4160⟩, .cleanup 2 ⟨0, 4128⟩, .cleanup 1 ⟨0, 4104⟩, .cleanup 0 ⟨0, 0⟩,
        .clear 0 4256, .free 0] := by
  have halways := right_always linuxInfos (by decide) (fun _ => true) (fun _ => true)
    [.init 1 calmEnv false, .getTls 1 (globMask + 8), .exit 1]
    ⟨trivial, fun _ _ => ⟨trivial, fun _ _ => ⟨trivial, fun _ _ => trivial⟩⟩⟩
  have hright := ((halways.2 _ rfl).2 _ rfl).1
  obtain ⟨block, s3, hblock, hexit, -, hcalls⟩ := hright.destroyed 1 0 rfl
  cases hblock
  exact ⟨halways, _, _, s3, rfl, rfl, hexit, hcalls⟩

end Globals

end Statgrab
