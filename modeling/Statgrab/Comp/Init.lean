import Mathlib.Data.Set.Insert
import Statgrab.Comp.Code

/-!
# One initialisation

The first caller of `sg_comp_init` takes the lock, counts itself and goes through the components. It
gives the lock back only at the end of the function: the three returns in between, a component that
failed, the table's first block refused, a later block refused, leave the lock held and the counter
incremented. The two refusals are reported before the return, and a report that finds no record for
the thread does not come back. `sgCompInit_atomic_iff` says that the calls which return early are the
only ones that are not atomic.
-/

namespace Statgrab

/-! ### The mutex table -/

def lockNames (table : List NamedMutex) : Set CString := { name | ∃ m ∈ table, m.name = name }

theorem findLock_isSome {table : List NamedMutex} {name : CString} :
    (findLock table name).isSome ↔ name ∈ lockNames table := by
  simp [findLock, lockNames, List.find?_isSome]

theorem lockNames_sortLocks (table : List NamedMutex) :
    lockNames (sortLocks table) = lockNames table := by
  simp [lockNames, sortLocks, List.mem_mergeSort]

theorem lockNames_enterLocks (names : List CString) :
    ∀ table, lockNames (enterLocks table names) = lockNames table ∪ { name | name ∈ names } := by
  induction names with
  | nil =>
      intro table
      simp [enterLocks]
  | cons name names ih =>
      intro table
      by_cases hknown : name ∈ lockNames table
      · rw [enterLocks, if_pos (findLock_isSome.mpr hknown), ih]
        ext n
        simp only [Set.mem_union, Set.mem_ofPred_eq, List.mem_cons]
        constructor
        · rintro (hn | hn)
          · exact .inl hn
          · exact .inr (.inr hn)
        · rintro (hn | rfl | hn)
          · exact .inl hn
          · exact .inl hknown
          · exact .inr hn
      · rw [enterLocks, if_neg (fun h => hknown (findLock_isSome.mp h)), ih, lockNames_sortLocks]
        ext n
        simp only [lockNames, List.mem_append, Set.mem_union, Set.mem_ofPred_eq, List.mem_cons,
          List.not_mem_nil, or_false]
        constructor
        · rintro (⟨m, hm | rfl, hn⟩ | hn)
          · exact .inl ⟨m, hm, hn⟩
          · exact .inr (.inl hn.symm)
          · exact .inr (.inr hn)
        · rintro (⟨m, hm, hn⟩ | rfl | hn)
          · exact .inl ⟨m, .inl hm, hn⟩
          · exact .inl ⟨_, .inr rfl, rfl⟩
          · exact .inr hn

theorem newLocks_eq_nil {table : List NamedMutex} {names : List CString} :
    newLocks table names = [] ↔ ∀ name ∈ names, name ∈ lockNames table := by
  rw [newLocks, List.filter_eq_nil_iff]
  apply forall₂_congr
  intro name _
  rw [← findLock_isSome]
  cases findLock table name with
  | none => simp
  | some m => simp

theorem enterLocks_of_known {table : List NamedMutex} {names : List CString}
    (h : ∀ name ∈ names, name ∈ lockNames table) : enterLocks table names = table := by
  induction names with
  | nil => rfl
  | cons name names ih =>
      rw [enterLocks, if_pos (findLock_isSome.mpr (h name (by simp)))]
      exact ih fun n hn => h n (by simp [hn])

def locksAfter (table : List NamedMutex) (cs : List CompInit) : List NamedMutex :=
  cs.foldl (fun table c => enterLocks table c.requiredLocks) table

theorem lockNames_locksAfter (cs : List CompInit) :
    ∀ table, lockNames (locksAfter table cs)
      = lockNames table ∪ { name | ∃ c ∈ cs, name ∈ c.requiredLocks } := by
  induction cs with
  | nil =>
      intro table
      simp [locksAfter]
  | cons c cs ih =>
      intro table
      rw [locksAfter, List.foldl_cons, ← locksAfter, ih, lockNames_enterLocks]
      ext name
      simp [or_assoc]

/-! ### When the loop goes through -/

/-- Every `init_fn` from component `i` on succeeds, or its failure is to be ignored. -/
def InitFnsOk (env : InitEnv) (ignoreInitErrors : Bool) : Nat → List CompInit → Prop
  | _, [] => True
  | i, c :: cs =>
      (c.initFn = true → env.initFn i = .none ∨ (ignoreInitErrors && c.status) = true) ∧
        InitFnsOk env ignoreInitErrors (i + 1) cs

/-- Every component from `i` on that requires a mutex name not in `seen`, and not required by a
component before it, gets its block. -/
def ReallocsOk (env : InitEnv) : Set CString → Nat → List CompInit → Prop
  | _, _, [] => True
  | seen, i, c :: cs =>
      ((∃ name ∈ c.requiredLocks, name ∉ seen) → env.realloc i = true) ∧
        ReallocsOk env (seen ∪ { name | name ∈ c.requiredLocks }) (i + 1) cs

/-- The id the error functions use once component `i`'s `init_fn` was called. -/
def keptErrorId (c : CompInit) (i id : Nat) : Nat :=
  if c.initFn = true ∧ c.errorComp = true then (i + globMask) % unsignedBound else id

/-- The loop gets as far as a component that is refused its block, and the report of the refusal does
not end: the storage has `size` bytes for `count` components, and `id` is the id of the error
component. -/
def LoopNests (env : InitEnv) (ignoreInitErrors : Bool) (size count : Nat) :
    Set CString → Nat → Nat → List CompInit → Prop
  | _, _, _, [] => False
  | seen, i, id, c :: cs =>
      (c.initFn = true → env.initFn i = .none ∨ (ignoreInitErrors && c.status) = true) ∧
        (((∃ name ∈ c.requiredLocks, name ∉ seen) ∧ ¬ env.realloc i = true ∧
            ¬ (env.storage size (keptErrorId c i id) count).EndTwice env.depth) ∨
          (((∃ name ∈ c.requiredLocks, name ∉ seen) → env.realloc i = true) ∧
            LoopNests env ignoreInitErrors size count (seen ∪ { name | name ∈ c.requiredLocks })
              (i + 1) (keptErrorId c i id) cs))

/-- The calls of `init_fn` from component `i` on, in table order. -/
def initCalls : Nat → List CompInit → List CompCall
  | _, [] => []
  | i, c :: cs => (if c.initFn then [.init i] else []) ++ initCalls (i + 1) cs

/-- What the component loop leaves alone. -/
structure CompState.Kept (s s' : CompState) : Prop where
  initialized : s'.initialized = s.initialized
  globLock : s'.globLock = s.globLock
  globSize : s'.globSize = s.globSize
  globOfs : s'.globOfs = s.globOfs
  tableLive : s'.tableLive = s.tableLive

theorem CompState.Kept.trans {s s' s'' : CompState} (h : s.Kept s') (h' : s'.Kept s'') :
    s.Kept s'' :=
  ⟨h'.initialized.trans h.initialized, h'.globLock.trans h.globLock,
    h'.globSize.trans h.globSize, h'.globOfs.trans h.globOfs, h'.tableLive.trans h.tableLive⟩

section

variable {env : InitEnv} {ignoreInitErrors : Bool}

theorem callInitFn_ok {c : CompInit} {i : Nat} (errc : SgError) (s : CompState)
    (h : c.initFn = true → env.initFn i = .none ∨ (ignoreInitErrors && c.status) = true) :
    ∃ errc' s', callInitFn env ignoreInitErrors c i errc s = .ok (.inr errc', s') ∧ s.Kept s' ∧
      s'.requiredLocks = s.requiredLocks ∧
      s'.calls = s.calls ++ (if c.initFn then [.init i] else []) ∧
      s'.errorGlobId = keptErrorId c i s.errorGlobId := by
  by_cases hfn : c.initFn = true
  · by_cases hrc : env.initFn i = .none
    · refine ⟨errc, { s with
        calls := s.calls ++ [.init i]
        errorGlobId := if c.errorComp then (i + globMask) % unsignedBound else s.errorGlobId },
        ?_, ⟨rfl, rfl, rfl, rfl, rfl⟩, rfl, ?_, ?_⟩
      · simp [callInitFn, hfn, hrc, Prog.bind_run]
      · simp [hfn]
      · simp [keptErrorId, hfn]
    · have hign := (h hfn).resolve_left hrc
      refine ⟨.initialisation, { s with
        calls := s.calls ++ [.init i]
        errorGlobId := if c.errorComp then (i + globMask) % unsignedBound else s.errorGlobId
        initError := Function.update s.initError i (env.initFn i) },
        ?_, ⟨rfl, rfl, rfl, rfl, rfl⟩, rfl, ?_, ?_⟩
      · simp [callInitFn, hfn, hrc, hign, Prog.bind_run]
      · simp [hfn]
      · simp [keptErrorId, hfn]
  · refine ⟨errc, s, ?_, ⟨rfl, rfl, rfl, rfl, rfl⟩, rfl, ?_, ?_⟩
    · simp [callInitFn, hfn]
    · simp [hfn]
    · simp [keptErrorId, hfn]

theorem callInitFn_aborts {c : CompInit} {i : Nat} (errc : SgError) (s : CompState)
    (h : ¬ (c.initFn = true → env.initFn i = .none ∨ (ignoreInitErrors && c.status) = true)) :
    ∃ rc s', callInitFn env ignoreInitErrors c i errc s = .ok (.inl rc, s') ∧ s.Kept s' ∧
      s'.calls = s.calls ++ [.init i] := by
  rw [Classical.not_imp, not_or] at h
  obtain ⟨hfn, hrc, hign⟩ := h
  refine ⟨env.initFn i, { s with
    calls := s.calls ++ [.init i]
    errorGlobId := if c.errorComp then (i + globMask) % unsignedBound else s.errorGlobId },
    ?_, ⟨rfl, rfl, rfl, rfl, rfl⟩, rfl⟩
  simp [callInitFn, hfn, hrc, hign, Prog.bind_run]

/-! ### A refused allocation -/

theorem reportRefusal_iff (depth size : Nat) (st : Storage) :
    (∃ r, reportRefusal depth size st = .ok r) ↔ st.EndTwice depth :=
  ErrorCall.run_run_iff _ _ depth st

theorem abortMalloc_returns {size : Nat} {s : CompState}
    (h : (env.storage s.globSize s.errorGlobId s.globOfs.length).EndTwice env.depth) :
    abortMalloc env size s = .ok (.aborted .malloc, { s with reported := .malloc }) := by
  obtain ⟨r, hrun⟩ := (reportRefusal_iff env.depth size _).mpr h
  simp only [abortMalloc, hrun]

theorem abortMalloc_nests {size : Nat} {s : CompState}
    (h : ¬ (env.storage s.globSize s.errorGlobId s.globOfs.length).EndTwice env.depth) :
    abortMalloc env size s = .error .nested := by
  cases hrun : reportRefusal env.depth size
      (env.storage s.globSize s.errorGlobId s.globOfs.length) with
  | ok r => exact absurd ((reportRefusal_iff env.depth size _).mp ⟨r, hrun⟩) h
  | error e => simp only [abortMalloc, hrun]

theorem abortMalloc_ok {size : Nat} {s s' : CompState} {r : InitResult}
    (h : abortMalloc env size s = .ok (r, s')) :
    r = .aborted .malloc ∧ s' = { s with reported := .malloc } := by
  unfold abortMalloc at h
  split at h
  · cases h
    exact ⟨rfl, rfl⟩
  · cases h

theorem initLoop_step {c : CompInit} {i : Nat} {errc errc' : SgError} {s s' : CompState}
    (hcall : callInitFn env ignoreInitErrors c i errc s = .ok (.inr errc', s'))
    (hmem : (∃ name ∈ c.requiredLocks, name ∉ lockNames s'.requiredLocks) → env.realloc i = true)
    (cs : List CompInit) :
    ∃ t, initLoop env ignoreInitErrors (c :: cs) i errc s
        = initLoop env ignoreInitErrors cs (i + 1) errc' t ∧ s'.Kept t ∧ t.calls = s'.calls ∧
      t.requiredLocks = enterLocks s'.requiredLocks c.requiredLocks ∧
      t.errorGlobId = s'.errorGlobId := by
  by_cases hknown : ∀ name ∈ c.requiredLocks, name ∈ lockNames s'.requiredLocks
  · refine ⟨s', ?_, ⟨rfl, rfl, rfl, rfl, rfl⟩, rfl, (enterLocks_of_known hknown).symm, rfl⟩
    rw [initLoop, Prog.bind_of_ok hcall]
    simp [Prog.bind_run, newLocks_eq_nil.mpr hknown]
  · have hnew : newLocks s'.requiredLocks c.requiredLocks ≠ [] :=
      fun h => hknown (newLocks_eq_nil.mp h)
    have hre : env.realloc i = true := hmem (by simpa using hknown)
    refine ⟨{ s' with
      tableSlots := s'.requiredLocks.length + (newLocks s'.requiredLocks c.requiredLocks).length
      requiredLocks := enterLocks s'.requiredLocks c.requiredLocks }, ?_,
      ⟨rfl, rfl, rfl, rfl, rfl⟩, rfl, rfl, rfl⟩
    rw [initLoop, Prog.bind_of_ok hcall]
    simp [Prog.bind_run, hnew, hre]

theorem initLoop_refused {c : CompInit} {i : Nat} {errc errc' : SgError} {s s' : CompState}
    (hcall : callInitFn env ignoreInitErrors c i errc s = .ok (.inr errc', s'))
    (hnew : ∃ name ∈ c.requiredLocks, name ∉ lockNames s'.requiredLocks)
    (hre : ¬ env.realloc i = true) (cs : List CompInit) :
    ∃ size, initLoop env ignoreInitErrors (c :: cs) i errc s
      = (abortMalloc env size >>= fun r => pure (.inl r)) s' := by
  have hne : newLocks s'.requiredLocks c.requiredLocks ≠ [] := by
    intro h
    obtain ⟨name, hname, hnot⟩ := hnew
    exact hnot (newLocks_eq_nil.mp h name hname)
  refine ⟨namedMutexSize * (s'.requiredLocks.length +
    (newLocks s'.requiredLocks c.requiredLocks).length), ?_⟩
  rw [initLoop, Prog.bind_of_ok hcall]
  simp only [Prog.bind_run, Prog.gets_run, List.length_eq_zero_iff, hne, hre, if_false,
    Bool.false_eq_true]

/-- Where no failure stops it, the loop calls every `init_fn` in table order and enters every
required name. -/
theorem initLoop_finishes (cs : List CompInit) :
    ∀ (i : Nat) (errc : SgError) (s : CompState), InitFnsOk env ignoreInitErrors i cs →
      ReallocsOk env (lockNames s.requiredLocks) i cs →
      ∃ errc' s', initLoop env ignoreInitErrors cs i errc s = .ok (.inr errc', s') ∧ s.Kept s' ∧
        s'.requiredLocks = locksAfter s.requiredLocks cs ∧
        s'.calls = s.calls ++ initCalls i cs := by
  induction cs with
  | nil =>
      intro i errc s _ _
      exact ⟨errc, s, rfl, ⟨rfl, rfl, rfl, rfl, rfl⟩, rfl, by simp [initCalls]⟩
  | cons c cs ih =>
      intro i errc s hfns hres
      obtain ⟨hfn, hfns⟩ := hfns
      obtain ⟨hre, hres⟩ := hres
      obtain ⟨errc1, s1, hcall, hkept1, htable1, hcalls1, -⟩ := callInitFn_ok errc s hfn
      obtain ⟨t, hstep, hkept2, hcalls2, htable2, -⟩ :=
        initLoop_step hcall (by rwa [htable1]) cs
      obtain ⟨errc', s', hrun, hkept3, htable3, hcalls3⟩ :=
        ih (i + 1) errc1 t hfns (by rwa [htable2, htable1, lockNames_enterLocks])
      refine ⟨errc', s', by rw [hstep, hrun], (hkept1.trans hkept2).trans hkept3, ?_, ?_⟩
      · rw [htable3, htable2, htable1]
        rfl
      · rw [hcalls3, hcalls2, hcalls1, initCalls, List.append_assoc]

/-- Otherwise it stops early, with the lock held and the counter as it found it, or does not come
back from the report of a refusal. -/
theorem initLoop_aborts (cs : List CompInit) :
    ∀ (i : Nat) (errc : SgError) (s : CompState),
      ¬ (InitFnsOk env ignoreInitErrors i cs ∧ ReallocsOk env (lockNames s.requiredLocks) i cs) →
      (LoopNests env ignoreInitErrors s.globSize s.globOfs.length (lockNames s.requiredLocks) i
          s.errorGlobId cs ∧ initLoop env ignoreInitErrors cs i errc s = .error .nested) ∨
      (¬ LoopNests env ignoreInitErrors s.globSize s.globOfs.length (lockNames s.requiredLocks) i
          s.errorGlobId cs ∧
        ∃ rc s', initLoop env ignoreInitErrors cs i errc s = .ok (.inl (.aborted rc), s') ∧
          s.Kept s') := by
  induction cs with
  | nil =>
      intro i errc s h
      exact absurd ⟨trivial, trivial⟩ h
  | cons c cs ih =>
      intro i errc s h
      by_cases hfn : c.initFn = true → env.initFn i = .none ∨ (ignoreInitErrors && c.status) = true
      · obtain ⟨errc1, s1, hcall, hkept1, htable1, -, hid1⟩ := callInitFn_ok errc s hfn
        by_cases hre : (∃ name ∈ c.requiredLocks, name ∉ lockNames s.requiredLocks) →
            env.realloc i = true
        · obtain ⟨t, hstep, hkept2, -, htable2, hid2⟩ := initLoop_step hcall (by rwa [htable1]) cs
          have hkept := hkept1.trans hkept2
          have hrest := ih (i + 1) errc1 t (by
            rw [htable2, htable1, lockNames_enterLocks]
            intro hrest
            exact h ⟨⟨hfn, hrest.1⟩, hre, hrest.2⟩)
          have hsame : LoopNests env ignoreInitErrors t.globSize t.globOfs.length
                (lockNames t.requiredLocks) (i + 1) t.errorGlobId cs ↔
              LoopNests env ignoreInitErrors s.globSize s.globOfs.length
                (lockNames s.requiredLocks) i s.errorGlobId (c :: cs) := by
            rw [LoopNests, hkept.globSize, hkept.globOfs, hid2, hid1, htable2, htable1,
              lockNames_enterLocks]
            constructor
            · exact fun hnests => ⟨hfn, .inr ⟨hre, hnests⟩⟩
            · rintro ⟨-, ⟨hnew, hrefused, -⟩ | ⟨-, hnests⟩⟩
              · exact absurd (hre hnew) hrefused
              · exact hnests
          rw [hstep, ← hsame]
          refine hrest.imp id fun hstops => ⟨hstops.1, ?_⟩
          obtain ⟨rc, s', hrun, hkept3⟩ := hstops.2
          exact ⟨rc, s', hrun, hkept.trans hkept3⟩
        · rw [Classical.not_imp] at hre
          obtain ⟨size, hrefused⟩ := initLoop_refused hcall (by rw [htable1]; exact hre.1) hre.2 cs
          by_cases hends : (env.storage s1.globSize s1.errorGlobId s1.globOfs.length).EndTwice
              env.depth
          · rw [hkept1.globSize, hkept1.globOfs, hid1] at hends
            refine .inr ⟨?_, .malloc, { s1 with reported := .malloc }, ?_,
              hkept1.trans ⟨rfl, rfl, rfl, rfl, rfl⟩⟩
            · rintro ⟨-, ⟨-, -, hnot⟩ | ⟨hgets, -⟩⟩
              · exact hnot hends
              · exact hre.2 (hgets hre.1)
            · rw [hrefused]
              refine (Prog.bind_of_ok (abortMalloc_returns ?_) _).trans rfl
              rwa [hkept1.globSize, hkept1.globOfs, hid1]
          · refine .inl ⟨⟨hfn, .inl ⟨hre.1, hre.2, ?_⟩⟩, ?_⟩
            · rwa [hkept1.globSize, hkept1.globOfs, hid1] at hends
            · rw [hrefused]
              exact Prog.bind_of_error (abortMalloc_nests hends) _
      · obtain ⟨rc, s', hcall, hkept, -⟩ := callInitFn_aborts errc s hfn
        refine .inr ⟨fun hnests => hfn hnests.1, rc, s', ?_, hkept⟩
        rw [initLoop, Prog.bind_of_ok hcall]
        rfl

end

/-! ### `sg_comp_init` -/

section

variable (comps : List CompInit) (env : InitEnv) (tid : Tid) (ignoreInitErrors : Bool)

/-- Nothing stops an initialisation before its end. -/
def InitGoesThrough (s : CompState) : Prop :=
  env.malloc = true ∧ InitFnsOk env ignoreInitErrors 0 comps ∧
    ReallocsOk env {s.globLock.name} 0 comps

/-- A refused allocation stops it, and the report of that does not end. -/
def InitNests (s : CompState) : Prop :=
  (¬ env.malloc = true ∧
    ¬ (env.storage (layoutSize 0 comps) s.errorGlobId comps.length).EndTwice env.depth) ∨
  (env.malloc = true ∧ LoopNests env ignoreInitErrors (layoutSize 0 comps) comps.length
    {s.globLock.name} 0 s.errorGlobId comps)

/-- The state in which the component loop starts. -/
def CompState.laidOut (s : CompState) : CompState :=
  { s with
    globLock := { s.globLock with mutex := .held tid }
    initialized := 1
    globOfs := layoutFrom 0 comps
    globSize := layoutSize 0 comps
    tableLive := true
    tableSlots := 1
    requiredLocks := [{ s.globLock with mutex := .held tid }] }

variable {comps env tid ignoreInitErrors} {s : CompState}

theorem lockNames_laidOut :
    lockNames (s.laidOut comps tid).requiredLocks = {s.globLock.name} := by
  ext name
  simp [lockNames, CompState.laidOut, eq_comm]

theorem layoutFrom_length (comps : List CompInit) :
    ∀ size, (layoutFrom size comps).length = comps.length := by
  induction comps with
  | nil => exact fun _ => rfl
  | cons c cs ih => exact fun size => congrArg (· + 1) (ih _)

theorem sgCompInit_counted (hfree : s.globLock.mutex = .free) (hcount : s.initialized ≠ 0) :
    sgCompInit comps env tid ignoreInitErrors s
      = .ok (.finished .none, { s with initialized := (s.initialized + 1) % unsignedBound }) := by
  simp [sgCompInit, sgGlobalLock, sgGlobalUnlock, Prog.bind_run, hfree, hcount]
  rw [← hfree]

variable (comps tid ignoreInitErrors) in
theorem sgCompInit_refused (hfree : s.globLock.mutex = .free) (hcount : s.initialized = 0)
    (hmem : ¬ env.malloc = true) :
    ∃ s1, sgCompInit comps env tid ignoreInitErrors s = abortMalloc env namedMutexSize s1 ∧
      s1.globLock.mutex = .held tid ∧ s1.globSize = layoutSize 0 comps ∧
      s1.globOfs = layoutFrom 0 comps ∧ s1.errorGlobId = s.errorGlobId := by
  refine ⟨{ s with
    globLock := { s.globLock with mutex := .held tid }
    initialized := 1
    globOfs := layoutFrom 0 comps
    globSize := layoutSize 0 comps
    tableLive := false }, ?_, rfl, rfl, rfl, rfl⟩
  simp [sgCompInit, sgGlobalLock, Prog.bind_run, hfree, hcount, hmem, unsignedBound]

theorem sgCompInit_loop (hfree : s.globLock.mutex = .free) (hcount : s.initialized = 0)
    (hmem : env.malloc = true) :
    sgCompInit comps env tid ignoreInitErrors s
      = (initLoop env ignoreInitErrors comps 0 .none >>= afterLoop env) (s.laidOut comps tid) := by
  simp [sgCompInit, sgGlobalLock, Prog.bind_run, hfree, hcount, hmem, CompState.laidOut,
    unsignedBound]

theorem finishInit_unlocks (env : InitEnv) (errc : SgError) {s : CompState} :
    (∃ code, finishInit env errc s = .error (.exited code)) ∨
    (∃ s', finishInit env errc s = .ok (.finished errc, s') ∧ s'.globLock.mutex = .free ∧
      s'.globLock.name = s.globLock.name ∧ s'.initialized = s.initialized ∧
      s'.globSize = s.globSize ∧ s'.globOfs = s.globOfs ∧ s'.tableLive = s.tableLive ∧
      s'.calls = s.calls ∧ s'.requiredLocks = s.requiredLocks.map fun m =>
        if m.name = s.globLock.name then m else { m with mutex := .free }) := by
  by_cases hinit : env.mutexattrInit = 0
  · by_cases htype : env.mutexattrSettype = 0
    · refine .inr ⟨{ s with
        globLock := { s.globLock with mutex := .free }
        requiredLocks := s.requiredLocks.map fun m =>
          if m.name = s.globLock.name then m else { m with mutex := .free } }, ?_, rfl, rfl, rfl,
        rfl, rfl, rfl, rfl, rfl⟩
      simp [finishInit, sgGlobalUnlock, Prog.bind_run, hinit, htype]
    · exact .inl ⟨255, by simp [finishInit, hinit, htype]⟩
  · exact .inl ⟨255, by simp [finishInit, hinit]⟩

variable (tid) in
theorem sgCompInit_finishing (hfree : s.globLock.mutex = .free) (hcount : s.initialized = 0)
    (hok : InitGoesThrough comps env ignoreInitErrors s) :
    ∃ errc s', sgCompInit comps env tid ignoreInitErrors s = finishInit env errc s' ∧
      (s.laidOut comps tid).Kept s' ∧
      s'.requiredLocks = locksAfter [{ s.globLock with mutex := .held tid }] comps ∧
      s'.calls = s.calls ++ initCalls 0 comps := by
  obtain ⟨hmem, hfns, hres⟩ := hok
  obtain ⟨errc, s', hloop, hkept, htable, hcalls⟩ :=
    initLoop_finishes comps 0 .none (s.laidOut comps tid) hfns (by rwa [lockNames_laidOut])
  refine ⟨errc, s', ?_, hkept, htable, hcalls⟩
  rw [sgCompInit_loop hfree hcount hmem, Prog.bind_of_ok hloop, afterLoop]

variable (tid) in
theorem sgCompInit_first (hfree : s.globLock.mutex = .free) (hcount : s.initialized = 0)
    (hok : InitGoesThrough comps env ignoreInitErrors s) :
    (∃ code, sgCompInit comps env tid ignoreInitErrors s = .error (.exited code)) ∨
    (∃ rc s', sgCompInit comps env tid ignoreInitErrors s = .ok (.finished rc, s') ∧
      s'.globLock = s.globLock ∧ s'.initialized = 1 ∧ s'.globOfs = layoutFrom 0 comps ∧
      s'.globSize = layoutSize 0 comps ∧ s'.tableLive = true ∧
      s'.calls = s.calls ++ initCalls 0 comps ∧
      s'.requiredLocks = (locksAfter [{ s.globLock with mutex := .held tid }] comps).map fun m =>
        if m.name = s.globLock.name then m else { m with mutex := .free }) := by
  obtain ⟨errc, s1, hrun1, hkept, htable, hcalls⟩ :=
    sgCompInit_finishing tid hfree hcount hok
  have hlock1 : s1.globLock.name = s.globLock.name := by
    rw [hkept.globLock]
    rfl
  rw [hrun1]
  rcases finishInit_unlocks env errc (s := s1) with hexit |
    ⟨s', hrun, hmutex, hname, hinit, hsize, hofs, hlive, hcalls', htable'⟩
  · exact .inl hexit
  · refine .inr ⟨errc, s', hrun, ?_, hinit.trans hkept.initialized, hofs.trans hkept.globOfs,
      hsize.trans hkept.globSize, hlive.trans hkept.tableLive, hcalls'.trans hcalls, ?_⟩
    · have hlock : s'.globLock.name = s.globLock.name := hname.trans hlock1
      rcases hs : s.globLock with ⟨name, mutex⟩
      rcases hs' : s'.globLock with ⟨name', mutex'⟩
      simp_all
    · rw [htable', htable, hlock1]

variable (tid) in
/-- The first caller where something stops it: it does not come back from the report of a refused
allocation, or it returns with the lock held and itself counted. -/
theorem sgCompInit_stopped (hfree : s.globLock.mutex = .free) (hcount : s.initialized = 0)
    (hnot : ¬ InitGoesThrough comps env ignoreInitErrors s) :
    (InitNests comps env ignoreInitErrors s ∧
      sgCompInit comps env tid ignoreInitErrors s = .error .nested) ∨
    (¬ InitNests comps env ignoreInitErrors s ∧
      ∃ rc s', sgCompInit comps env tid ignoreInitErrors s = .ok (.aborted rc, s') ∧
        s'.globLock.mutex = .held tid) := by
  by_cases hmem : env.malloc = true
  · have hnames : lockNames (s.laidOut comps tid).requiredLocks = {s.globLock.name} := lockNames_laidOut
    have hlength : (s.laidOut comps tid).globOfs.length = comps.length := layoutFrom_length comps 0
    have hstops : ¬ (InitFnsOk env ignoreInitErrors 0 comps ∧
        ReallocsOk env (lockNames (s.laidOut comps tid).requiredLocks) 0 comps) := by
      rw [hnames]
      exact fun h => hnot ⟨hmem, h⟩
    have hloop := initLoop_aborts comps 0 .none (s.laidOut comps tid) hstops
    rw [hnames, hlength] at hloop
    rw [sgCompInit_loop hfree hcount hmem]
    rcases hloop with ⟨hnests, hrun⟩ | ⟨hnests, rc, s', hrun, hkept⟩
    · exact .inl ⟨.inr ⟨hmem, hnests⟩, Prog.bind_of_error hrun _⟩
    · refine .inr ⟨?_, rc, s', Prog.bind_of_ok hrun _, by rw [hkept.globLock]; rfl⟩
      rintro (⟨hrefused, -⟩ | ⟨-, hnests'⟩)
      · exact hrefused hmem
      · exact hnests hnests'
  · obtain ⟨s1, hrun, hheld, hsize, hofs, hid⟩ :=
      sgCompInit_refused comps tid ignoreInitErrors hfree hcount hmem
    have hlength : s1.globOfs.length = comps.length := by rw [hofs, layoutFrom_length]
    rw [hrun]
    by_cases hends : (env.storage (layoutSize 0 comps) s.errorGlobId comps.length).EndTwice
        env.depth
    · refine .inr ⟨?_, .malloc, _, abortMalloc_returns (by rwa [hsize, hid, hlength]), hheld⟩
      rintro (⟨-, hnests⟩ | ⟨hgot, -⟩)
      · exact hnests hends
      · exact hmem hgot
    · exact .inl ⟨.inl ⟨hmem, hends⟩, abortMalloc_nests (by rwa [hsize, hid, hlength])⟩

/-- A first caller that reaches the end was stopped by nothing. -/
theorem goesThrough_of_finished (hfree : s.globLock.mutex = .free) (hcount : s.initialized = 0)
    {rc : SgError} {s' : CompState}
    (hrun : sgCompInit comps env tid ignoreInitErrors s = .ok (.finished rc, s')) :
    InitGoesThrough comps env ignoreInitErrors s := by
  by_contra hnot
  rcases sgCompInit_stopped tid hfree hcount hnot with ⟨-, hstop⟩ | ⟨-, rc', s1, hstop, -⟩
  · rw [hstop] at hrun
    cases hrun
  · rw [hstop] at hrun
    cases hrun

end

/-- What a call of `sg_comp_init` owes when it returns: the caller does not hold the lock, and an
aborted initialisation has not been counted. -/
def InitAtomic (comps : List CompInit) (env : InitEnv) (tid : Tid) (ignoreInitErrors : Bool)
    (s : CompState) : Prop :=
  ∀ r s', sgCompInit comps env tid ignoreInitErrors s = .ok (r, s') →
    s'.globLock.mutex ≠ .held tid ∧ ((∃ rc, r = .aborted rc) → s'.initialized = s.initialized)

/-- An initialisation is atomic exactly if it is not the first one or nothing stops it, or if it stays
in the report of a refused allocation. -/
theorem sgCompInit_atomic_iff (comps : List CompInit) (env : InitEnv) (tid : Tid)
    (ignoreInitErrors : Bool) (s : CompState) (hfree : s.globLock.mutex = .free) :
    InitAtomic comps env tid ignoreInitErrors s ↔
      s.initialized ≠ 0 ∨ InitGoesThrough comps env ignoreInitErrors s ∨
        InitNests comps env ignoreInitErrors s := by
  by_cases hcount : s.initialized = 0
  · by_cases hok : InitGoesThrough comps env ignoreInitErrors s
    · refine iff_of_true ?_ (.inr (.inl hok))
      intro r s' hrun
      rcases sgCompInit_first tid hfree hcount hok with ⟨code, hexit⟩ |
        ⟨rc, s1, hrun', hlock, -⟩
      · rw [hexit] at hrun
        cases hrun
      · rw [hrun'] at hrun
        cases hrun
        refine ⟨?_, ?_⟩
        · rw [hlock, hfree]
          simp
        · rintro ⟨rc', hrc⟩
          cases hrc
    · rcases sgCompInit_stopped tid hfree hcount hok with
        ⟨hnests, hnested⟩ | ⟨hnests, rc, s', hrun, hheld⟩
      · refine iff_of_true ?_ (.inr (.inr hnests))
        intro r s' hrun
        rw [hnested] at hrun
        cases hrun
      · refine iff_of_false ?_ (by simp [hcount, hok, hnests])
        intro hatomic
        exact (hatomic _ s' hrun).1 hheld
  · refine iff_of_true ?_ (.inl hcount)
    intro r s' hrun
    rw [sgCompInit_counted hfree hcount] at hrun
    cases hrun
    refine ⟨?_, ?_⟩
    · simp [hfree]
    · rintro ⟨rc', hrc⟩
      cases hrc

theorem initFnsOk_of_none {env : InitEnv} (h : ∀ i, env.initFn i = .none) (ignoreInitErrors : Bool)
    (cs : List CompInit) : ∀ i, InitFnsOk env ignoreInitErrors i cs := by
  induction cs with
  | nil => exact fun _ => trivial
  | cons c cs ih => exact fun i => ⟨fun _ => .inl (h i), ih (i + 1)⟩

theorem reallocsOk_of_all {env : InitEnv} (h : ∀ i, env.realloc i = true) (cs : List CompInit) :
    ∀ seen i, ReallocsOk env seen i cs := by
  induction cs with
  | nil => exact fun _ _ => trivial
  | cons c cs ih => exact fun seen i => ⟨fun _ => h i, ih _ (i + 1)⟩

def calmEnv : InitEnv :=
  { initFn := fun _ => .none, malloc := true, realloc := fun _ => true
    mutexattrInit := 0, mutexattrSettype := 0
    thread := {
      block := some fun _ => .clear, globSize := 0, errorGlobId := 0, compCount := 0
      preInitErrs := .clear, mem := fun _ => true, keys := fun _ => true }
    depth := 0 }

theorem sgCompInit_atomic_calm : InitAtomic linuxComps calmEnv 1 false .start :=
  (sgCompInit_atomic_iff linuxComps calmEnv 1 false .start rfl).mpr
    (.inr (.inl
      ⟨rfl, initFnsOk_of_none (fun _ => rfl) false _ 0, reallocsOk_of_all (fun _ => rfl) _ _ 0⟩))

/-- The first `sg_comp_init` of a process is refused the block of its table: the storage is laid out and
the error component has no id, so the report never ends where the thread can keep a block. -/
theorem sgCompInit_start_nests {env : InitEnv} (hmalloc : ¬ env.malloc = true)
    (hkeys : env.thread.keys 0 = true) (tid : Tid) (ignoreInitErrors : Bool) :
    sgCompInit linuxComps env tid ignoreInitErrors .start = .error .nested := by
  have hid : ¬ (env.storage (layoutSize 0 linuxComps) 0 linuxComps.length).IdValid := by
    show ¬ compIndex 0 < linuxComps.length
    decide
  have hnests : InitNests linuxComps env ignoreInitErrors .start := by
    refine .inl ⟨hmalloc, fun hends => ?_⟩
    by_cases hb : env.thread.block = none
    · obtain ⟨k, -, -, -, hkey | hid'⟩ := hends.1.2 hb (by show layoutSize 0 linuxComps ≠ 0; decide)
      · exact Bool.false_ne_true (hkey.symm.trans hkeys)
      · exact hid hid'
    · exact hid (hends.1.1 (Option.isSome_iff_ne_none.mpr hb))
  have hfree : CompState.start.globLock.mutex = .free := rfl
  rcases sgCompInit_stopped tid hfree rfl (fun h => hmalloc h.1) with ⟨-, hrun⟩ | ⟨hnot, -⟩
  · exact hrun
  · exact absurd hnests hnot

/-- The process component finds no page size: the first `sg_comp_init` returns its error with the
lock held. -/
theorem sgCompInit_not_atomic :
    ¬ InitAtomic linuxComps { calmEnv with initFn := fun i => if i = 8 then .sysconf else .none } 1
      false .start := by
  intro h
  exact (h (.aborted .sysconf) _ rfl).1 rfl

end Statgrab
