import Statgrab.Comp.Counter

/-!
# With and without threads

The counter of `sg_comp_init` and `sg_comp_destroy` is compiled in with `ENABLE_THREADS` only. Without
it every `sg_comp_init` calls the `init_fn`s and every `sg_comp_destroy` the `destroy_fn`s. Both builds
are run here over the same calls of one thread. A call adds to the record of the one build what it adds
to that of the other, or nothing where the threaded build only counts or waits for the lock an aborted
initialisation kept, so the records are equal at the end exactly if they were at every call.
-/

namespace Statgrab

/-! ### The build without threads -/

/-- The component loop of `sg_comp_init`, without the mutexes. -/
def plainLoop (env : InitEnv) (ignoreInitErrors : Bool) :
    List CompInit → Nat → SgError → CompM InitResult
  | [], _, errc => return .finished errc
  | c :: cs, i, errc => do
      let called ← callInitFn env ignoreInitErrors c i errc
      match called with
      | .inl rc => return .aborted rc
      | .inr errc => plainLoop env ignoreInitErrors cs (i + 1) errc

/-- `sg_comp_init` without `ENABLE_THREADS`. -/
def sgCompInitPlain (comps : List CompInit) (env : InitEnv) (ignoreInitErrors : Bool) :
    CompM InitResult := do
  Prog.modify fun s => { s with globOfs := layoutFrom 0 comps, globSize := layoutSize 0 comps }
  plainLoop env ignoreInitErrors comps 0 .none

/-- `sg_comp_destroy` without `ENABLE_THREADS`. -/
def sgCompDestroyPlain (comps : List CompInit) : CompM SgError := do
  Prog.modify fun s => { s with globSize := 0, calls := s.calls ++ destroyCalls comps }
  return .none

/-! ### The same calls in both builds -/

/-- A call of the one thread, with what the `init_fn`s return in it. -/
inductive BuildOp where
  | init (ignoreInitErrors : Bool) (outcomes : Nat → SgError)
  | destroy

def initFnEnv (outcomes : Nat → SgError) : InitEnv := { calmEnv with initFn := outcomes }

/-- The state after a call, or the state before it where the thread waits for ever. -/
def after {α : Type} (x : CompM α) (s : CompState) : CompState :=
  match x s with
  | .ok (_, s') => s'
  | .error _ => s

structure Builds where
  threaded : CompState
  plain : CompState

namespace Builds

variable (comps : List CompInit)

def step (b : Builds) : BuildOp → Builds
  | .init ignoreInitErrors outcomes =>
      { threaded := after (sgCompInit comps (initFnEnv outcomes) 0 ignoreInitErrors) b.threaded
        plain := after (sgCompInitPlain comps (initFnEnv outcomes) ignoreInitErrors) b.plain }
  | .destroy =>
      { threaded := after (sgCompDestroy comps 0) b.threaded
        plain := after (sgCompDestroyPlain comps) b.plain }

def run (b : Builds) (ops : List BuildOp) : Builds := ops.foldl (step comps) b

def start : Builds := ⟨.start, .start⟩

/-- Component `i` is initialised: of its functions, `init_fn` was called last. -/
def Initialised (calls : List CompCall) (i : Nat) : Prop :=
  (calls.filter fun c => c = .init i ∨ c = .destroy i).getLast? = some (.init i)

/-- The builds have called the same functions and left the same components initialised. -/
def Same (b : Builds) : Prop :=
  b.threaded.calls = b.plain.calls ∧
    ∀ i, Initialised b.threaded.calls i ↔ Initialised b.plain.calls i

/-- The threaded build does what the other does: it is the first initialisation or the last
destruction, or there is nothing to call. -/
def Agrees (b : Builds) : BuildOp → Prop
  | .init _ _ =>
      (b.threaded.globLock.mutex = .free ∧ b.threaded.initialized = 0) ∨ ∀ c ∈ comps, c.initFn = false
  | .destroy =>
      (b.threaded.globLock.mutex = .free ∧ b.threaded.initialized = 1) ∨
        ∀ c ∈ comps, c.destroyFn = false

def AlwaysAgrees : Builds → List BuildOp → Prop
  | _, [] => True
  | b, op :: ops => b.Agrees comps op ∧ AlwaysAgrees (b.step comps op) ops

end Builds

/-! ### What a call adds to the records -/

/-- The calls of `init_fn` from component `i` on, up to the one that aborts. -/
def calledInits (outcomes : Nat → SgError) (ignoreInitErrors : Bool) :
    Nat → List CompInit → List CompCall
  | _, [] => []
  | i, c :: cs =>
      if c.initFn then
        .init i :: (if outcomes i = .none ∨ (ignoreInitErrors && c.status) = true then
          calledInits outcomes ignoreInitErrors (i + 1) cs else [])
      else calledInits outcomes ignoreInitErrors (i + 1) cs

theorem calledInits_eq_nil {outcomes : Nat → SgError} {ignoreInitErrors : Bool} (cs : List CompInit) :
    ∀ i, calledInits outcomes ignoreInitErrors i cs = [] ↔ ∀ c ∈ cs, c.initFn = false := by
  induction cs with
  | nil => simp [calledInits]
  | cons c cs ih =>
      intro i
      cases hfn : c.initFn with
      | true => simp [calledInits, hfn]
      | false =>
          rw [calledInits, hfn, if_neg Bool.false_ne_true, ih, List.forall_mem_cons]
          simp [hfn]

theorem destroyCalls_eq_nil (comps : List CompInit) :
    destroyCalls comps = [] ↔ ∀ c ∈ comps, c.destroyFn = false := by
  rw [destroyCalls, List.reverse_eq_nil_iff, List.map_eq_nil_iff, List.filter_eq_nil_iff]
  constructor
  · intro h c hc
    obtain ⟨i, hi, rfl⟩ := List.getElem_of_mem hc
    have hmem : (comps[i], i) ∈ comps.zipIdx := by
      rw [List.mem_zipIdx_iff_getElem?]
      exact List.getElem?_eq_getElem hi
    simpa using h _ hmem
  · rintro h ⟨c, i⟩ hc
    have hmem : c ∈ comps := List.mem_of_getElem? (List.mem_zipIdx_iff_getElem?.mp hc)
    simp [h c hmem]

section Calls

variable {env : InitEnv} {ignoreInitErrors : Bool}

theorem calledInits_cons_ok {c : CompInit} {i : Nat} (cs : List CompInit)
    (h : c.initFn = true → env.initFn i = .none ∨ (ignoreInitErrors && c.status) = true) :
    calledInits env.initFn ignoreInitErrors i (c :: cs)
      = (if c.initFn then [.init i] else []) ++ calledInits env.initFn ignoreInitErrors (i + 1) cs := by
  cases hfn : c.initFn with
  | true => rw [calledInits, hfn, if_pos rfl, if_pos (h hfn), if_pos rfl, List.singleton_append]
  | false => rw [calledInits, hfn, if_neg Bool.false_ne_true, if_neg Bool.false_ne_true, List.nil_append]

theorem calledInits_cons_aborts {c : CompInit} {i : Nat} (cs : List CompInit)
    (h : ¬ (c.initFn = true → env.initFn i = .none ∨ (ignoreInitErrors && c.status) = true)) :
    calledInits env.initFn ignoreInitErrors i (c :: cs) = [.init i] := by
  rw [Classical.not_imp] at h
  rw [calledInits, h.1, if_pos rfl, if_neg h.2]

variable (env ignoreInitErrors) in
theorem initLoop_calls (hre : ∀ i, env.realloc i = true) (cs : List CompInit) :
    ∀ (i : Nat) (errc : SgError) (s : CompState),
      ∃ r s', initLoop env ignoreInitErrors cs i errc s = .ok (r, s') ∧ s.Kept s' ∧
        s'.calls = s.calls ++ calledInits env.initFn ignoreInitErrors i cs := by
  induction cs with
  | nil =>
      intro i errc s
      exact ⟨.inr errc, s, rfl, ⟨rfl, rfl, rfl, rfl, rfl⟩, (List.append_nil _).symm⟩
  | cons c cs ih =>
      intro i errc s
      by_cases hfn : c.initFn = true → env.initFn i = .none ∨ (ignoreInitErrors && c.status) = true
      · obtain ⟨errc1, s1, hcall, hkept1, -, hcalls1, -⟩ := callInitFn_ok errc s hfn
        obtain ⟨t, hstep, hkept2, hcalls2, -⟩ := initLoop_step hcall (fun _ => hre i) cs
        obtain ⟨r, s', hrun, hkept3, hcalls3⟩ := ih (i + 1) errc1 t
        refine ⟨r, s', hstep.trans hrun, (hkept1.trans hkept2).trans hkept3, ?_⟩
        rw [hcalls3, hcalls2, hcalls1, calledInits_cons_ok cs hfn, List.append_assoc]
      · obtain ⟨rc, s1, hcall, hkept, hcalls⟩ := callInitFn_aborts errc s hfn
        refine ⟨.inl (.aborted rc), s1, ?_, hkept, ?_⟩
        · rw [initLoop, Prog.bind_of_ok hcall]
          rfl
        · rw [hcalls, calledInits_cons_aborts cs hfn]

variable (env ignoreInitErrors) in
theorem plainLoop_calls (cs : List CompInit) :
    ∀ (i : Nat) (errc : SgError) (s : CompState),
      ∃ r s', plainLoop env ignoreInitErrors cs i errc s = .ok (r, s') ∧
        s'.calls = s.calls ++ calledInits env.initFn ignoreInitErrors i cs := by
  induction cs with
  | nil =>
      intro i errc s
      exact ⟨.finished errc, s, rfl, (List.append_nil _).symm⟩
  | cons c cs ih =>
      intro i errc s
      by_cases hfn : c.initFn = true → env.initFn i = .none ∨ (ignoreInitErrors && c.status) = true
      · obtain ⟨errc1, s1, hcall, -, -, hcalls1, -⟩ := callInitFn_ok errc s hfn
        obtain ⟨r, s', hrun, hcalls2⟩ := ih (i + 1) errc1 s1
        refine ⟨r, s', ?_, ?_⟩
        · rw [plainLoop, Prog.bind_of_ok hcall]
          exact hrun
        · rw [hcalls2, hcalls1, calledInits_cons_ok cs hfn, List.append_assoc]
      · obtain ⟨rc, s1, hcall, -, hcalls⟩ := callInitFn_aborts errc s hfn
        refine ⟨.aborted rc, s1, ?_, ?_⟩
        · rw [plainLoop, Prog.bind_of_ok hcall]
          rfl
        · rw [hcalls, calledInits_cons_aborts cs hfn]

end Calls

section Step

variable {comps : List CompInit} {outcomes : Nat → SgError} {ignoreInitErrors : Bool}

theorem after_of_ok {α : Type} {x : CompM α} {s s' : CompState} {a : α} (hx : x s = .ok (a, s')) :
    after x s = s' := by
  rw [after, hx]

theorem sgCompInitPlain_calls (s : CompState) :
    (after (sgCompInitPlain comps (initFnEnv outcomes) ignoreInitErrors) s).calls
      = s.calls ++ calledInits outcomes ignoreInitErrors 0 comps := by
  obtain ⟨r, s', hrun, hcalls⟩ := plainLoop_calls (initFnEnv outcomes) ignoreInitErrors comps 0 .none
    { s with globOfs := layoutFrom 0 comps, globSize := layoutSize 0 comps }
  have hinit : sgCompInitPlain comps (initFnEnv outcomes) ignoreInitErrors s = .ok (r, s') := by
    rw [sgCompInitPlain, Prog.bind_of_ok (Prog.modify_run _ _), hrun]
  rw [after_of_ok hinit, hcalls]
  rfl

variable (comps outcomes ignoreInitErrors) in
theorem sgCompInit_firstCalls {s : CompState} (hfree : s.globLock.mutex = .free)
    (hcount : s.initialized = 0) :
    (after (sgCompInit comps (initFnEnv outcomes) 0 ignoreInitErrors) s).calls
        = s.calls ++ calledInits outcomes ignoreInitErrors 0 comps ∧
      (after (sgCompInit comps (initFnEnv outcomes) 0 ignoreInitErrors) s).initialized = 1 := by
  obtain ⟨r, s1, hloop, hkept, hcalls⟩ := initLoop_calls (initFnEnv outcomes) ignoreInitErrors
    (fun _ => rfl) comps 0 .none (s.laidOut comps 0)
  have hinit : sgCompInit comps (initFnEnv outcomes) 0 ignoreInitErrors s = _ :=
    sgCompInit_loop hfree hcount rfl
  rw [Prog.bind_of_ok hloop] at hinit
  cases r with
  | inl r => rw [after_of_ok hinit, hcalls, hkept.initialized]; exact ⟨rfl, rfl⟩
  | inr errc =>
      rcases finishInit_unlocks (initFnEnv outcomes) errc (s := s1) with ⟨code, hexit⟩ |
        ⟨s', hrun, -, -, hone, -, -, -, hcalls', -⟩
      · simp [finishInit, initFnEnv, calmEnv, sgGlobalUnlock, Prog.bind_run] at hexit
      · rw [after_of_ok (hinit.trans hrun), hcalls', hcalls, hone, hkept.initialized]
        exact ⟨rfl, rfl⟩

theorem after_locked {α : Type} {f : CompM α} {s : CompState} (hlocked : s.globLock.mutex ≠ .free) :
    after (do
      sgGlobalLock 0
      f) s = s := by
  have hblocked : sgGlobalLock 0 s = .error .blocked := by rw [sgGlobalLock, if_neg hlocked]
  rw [after, Prog.bind_of_error hblocked]

/-- A destruction without an initialisation, which is not the last one either. -/
theorem sgCompDestroy_wraps {s : CompState} (hfree : s.globLock.mutex = .free)
    (hcount : s.initialized = 0) :
    sgCompDestroy comps 0 s = .ok (.none, { s with initialized := unsignedBound - 1 }) := by
  have hne : unsignedBound - 1 ≠ 0 := by decide
  simp [sgCompDestroy, sgGlobalLock, sgGlobalUnlock, Prog.bind_run, hfree, hcount, hne]
  rw [← hfree]

variable (comps) in
/-- A destruction that does not bring the counter to 0 calls nothing. -/
theorem sgCompDestroy_quiet {s : CompState} (hlt : s.initialized < unsignedBound)
    (hnot : ¬ (s.globLock.mutex = .free ∧ s.initialized = 1)) :
    (after (sgCompDestroy comps 0) s).calls = s.calls ∧
      (after (sgCompDestroy comps 0) s).initialized < unsignedBound := by
  by_cases hfree : s.globLock.mutex = .free
  · by_cases hzero : s.initialized = 0
    · rw [after_of_ok (sgCompDestroy_wraps hfree hzero)]
      exact ⟨rfl, Nat.sub_lt (by decide) Nat.one_pos⟩
    · have hone : s.initialized ≠ 1 := fun h => hnot ⟨hfree, h⟩
      rw [after_of_ok (sgCompDestroy_counted hfree (by omega) hlt)]
      exact ⟨rfl, by simp only; omega⟩
  · rw [sgCompDestroy, after_locked hfree]
    exact ⟨rfl, hlt⟩

variable (comps outcomes ignoreInitErrors) in
/-- An initialisation that does not find the counter at 0 calls nothing. -/
theorem sgCompInit_quiet {s : CompState} (hlt : s.initialized < unsignedBound)
    (hnot : ¬ (s.globLock.mutex = .free ∧ s.initialized = 0)) :
    (after (sgCompInit comps (initFnEnv outcomes) 0 ignoreInitErrors) s).calls = s.calls ∧
      (after (sgCompInit comps (initFnEnv outcomes) 0 ignoreInitErrors) s).initialized
        < unsignedBound := by
  by_cases hfree : s.globLock.mutex = .free
  · rw [after_of_ok (sgCompInit_counted hfree (fun h => hnot ⟨hfree, h⟩))]
    exact ⟨rfl, Nat.mod_lt _ (by decide)⟩
  · rw [sgCompInit, after_locked hfree]
    exact ⟨rfl, hlt⟩

/-- What one call adds: the same in both builds where it agrees, and otherwise something in the build
without threads only. -/
structure Builds.Adds (b b' : Builds) (agrees : Prop) (added : List CompCall) : Prop where
  plain : b'.plain.calls = b.plain.calls ++ added
  same : agrees → b'.threaded.calls = b.threaded.calls ++ added
  more : ¬ agrees → b'.threaded.calls = b.threaded.calls ∧ added ≠ []
  bound : b'.threaded.initialized < unsignedBound

variable (comps) in
theorem Builds.step_adds (b : Builds) (op : BuildOp) (hlt : b.threaded.initialized < unsignedBound) :
    ∃ added, b.Adds (b.step comps op) (b.Agrees comps op) added := by
  cases op with
  | init ignoreInitErrors outcomes =>
      refine ⟨calledInits outcomes ignoreInitErrors 0 comps, ?_⟩
      by_cases hfirst : b.threaded.globLock.mutex = .free ∧ b.threaded.initialized = 0
      · obtain ⟨hcalls, hone⟩ := sgCompInit_firstCalls comps outcomes ignoreInitErrors hfirst.1 hfirst.2
        refine ⟨sgCompInitPlain_calls b.plain, fun _ => hcalls, fun hnot => absurd (.inl hfirst) hnot, ?_⟩
        show (after _ _).initialized < unsignedBound
        rw [hone]
        decide
      · obtain ⟨hcalls, hbound⟩ := sgCompInit_quiet comps outcomes ignoreInitErrors hlt hfirst
        refine ⟨sgCompInitPlain_calls b.plain, ?_, ?_, hbound⟩
        · rintro (hcon | hnone)
          · exact absurd hcon hfirst
          · rw [(calledInits_eq_nil comps 0).mpr hnone, List.append_nil]
            exact hcalls
        · intro hnot
          exact ⟨hcalls, fun hnil => hnot (.inr ((calledInits_eq_nil comps 0).mp hnil))⟩
  | destroy =>
      refine ⟨destroyCalls comps, ?_⟩
      by_cases hlast : b.threaded.globLock.mutex = .free ∧ b.threaded.initialized = 1
      · have hrun : sgCompDestroy comps 0 b.threaded = _ := sgCompDestroy_last hlast.1 hlast.2
        refine ⟨rfl, ?_, fun hnot => absurd (.inl hlast) hnot, ?_⟩
        · intro _
          show (after _ _).calls = _
          rw [after_of_ok hrun]
        · show (after _ _).initialized < unsignedBound
          rw [after_of_ok hrun]
          exact (by decide : 0 < unsignedBound)
      · obtain ⟨hcalls, hbound⟩ := sgCompDestroy_quiet comps hlt hlast
        refine ⟨rfl, ?_, ?_, hbound⟩
        · rintro (hcon | hnone)
          · exact absurd hcon hlast
          · rw [(destroyCalls_eq_nil comps).mpr hnone, List.append_nil]
            exact hcalls
        · intro hnot
          exact ⟨hcalls, fun hnil => hnot (.inr ((destroyCalls_eq_nil comps).mp hnil))⟩

end Step

/-! ### Runs -/

namespace Builds

variable (comps : List CompInit)

/-- Once the build without threads is ahead it stays ahead. -/
theorem run_behind (ops : List BuildOp) (b : Builds) (hlt : b.threaded.initialized < unsignedBound)
    (hbehind : b.threaded.calls.length < b.plain.calls.length) :
    (b.run comps ops).threaded.calls.length < (b.run comps ops).plain.calls.length := by
  induction ops generalizing b with
  | nil => exact hbehind
  | cons op ops ih =>
      obtain ⟨added, hadds⟩ := b.step_adds comps op hlt
      apply ih (b.step comps op) hadds.bound
      have hplain : (b.step comps op).plain.calls.length = b.plain.calls.length + added.length := by
        rw [hadds.plain, List.length_append]
      by_cases hagrees : b.Agrees comps op
      · rw [hadds.same hagrees, hplain, List.length_append]
        omega
      · rw [(hadds.more hagrees).1, hplain]
        omega

theorem run_calls_iff (ops : List BuildOp) (b : Builds) (hlt : b.threaded.initialized < unsignedBound)
    (hsame : b.threaded.calls = b.plain.calls) :
    (b.run comps ops).threaded.calls = (b.run comps ops).plain.calls ↔ b.AlwaysAgrees comps ops := by
  induction ops generalizing b with
  | nil => exact iff_of_true hsame trivial
  | cons op ops ih =>
      obtain ⟨added, hadds⟩ := b.step_adds comps op hlt
      by_cases hagrees : b.Agrees comps op
      · have hnext : (b.step comps op).threaded.calls = (b.step comps op).plain.calls := by
          rw [hadds.same hagrees, hadds.plain, hsame]
        exact (ih (b.step comps op) hadds.bound hnext).trans (and_iff_right hagrees).symm
      · obtain ⟨hthreaded, hadded⟩ := hadds.more hagrees
        have hbehind := run_behind comps ops (b.step comps op) hadds.bound (by
          rw [hthreaded, hadds.plain, hsame, List.length_append]
          have := List.length_pos_iff.mpr hadded
          omega)
        refine iff_of_false ?_ (fun hall => hagrees hall.1)
        intro heq
        have hlength := congrArg List.length heq
        exact absurd hlength hbehind.ne

/-- The two builds do the same over a run exactly if every call of it agrees. -/
theorem same_iff (ops : List BuildOp) :
    (start.run comps ops).Same ↔ start.AlwaysAgrees comps ops := by
  rw [← run_calls_iff comps ops start (by decide) rfl]
  constructor
  · intro hsame
    exact hsame.1
  · intro hcalls
    refine ⟨hcalls, ?_⟩
    intro i
    rw [hcalls]

/-- Two users of the library in one process, and the first leaves: without threads the component is
initialised twice, and destroyed under the second. -/
theorem not_same_nested :
    ¬ (start.run [⟨true, true, 8, [], true, false⟩]
      [.init false fun _ => .none, .init false fun _ => .none, .destroy]).Same := by
  intro hsame
  exact absurd hsame.1 (by decide)

end Builds

end Statgrab
