import Mathlib.Data.List.Nodup
import Statgrab.Comp.Mutex
import Statgrab.Lib.Search
import Statgrab.Lib.Text

/-!
# The table of the mutexes

`sg_comp_init` keeps the table of the mutexes sorted while it grows: every name is looked up by `bsearch` before it
is entered, and the table is sorted by `qsort` behind every entry. Here the component loop and the two functions on
the mutexes run with any `bsearch` and `qsort` of a C library, where `findLock` and `sortLocks` stand for what these
do with a table that is sorted. It is: so both are one program.
-/

namespace Statgrab

open Text Search

/-! ### The code -/

/-- The sign of `cmp_named_locks`. -/
def cmpNamedLocks (a b : NamedMutex) : Ordering := strcmp a.name b.name

section Code

variable (bsearch : (NamedMutex → Ordering) → List NamedMutex → Option Nat)
  (qsort : (NamedMutex → NamedMutex → Ordering) → List NamedMutex → List NamedMutex)

/-- `bsearch(&name, required_locks, num_required_locks, .., cmp_named_locks)`. Of the key only the name is read. -/
def bsearchLock (table : List NamedMutex) (name : CString) : Option NamedMutex :=
  (bsearch (cmpNamedLocks ⟨name, .raw⟩) table).bind fun i => table[i]?

def newMtxCount (table : List NamedMutex) : List CString → Nat
  | [] => 0
  | name :: names =>
      if (bsearchLock bsearch table name).isSome then newMtxCount table names else newMtxCount table names + 1

def enterSorted (table : List NamedMutex) : List CString → List NamedMutex
  | [] => table
  | name :: names =>
      if (bsearchLock bsearch table name).isSome then enterSorted table names
      else enterSorted (qsort cmpNamedLocks (table ++ [⟨name, .raw⟩])) names

/-- The component loop of `sg_comp_init`, from component `i` on. -/
def initLoopWith (env : InitEnv) (ignoreInitErrors : Bool) :
    List CompInit → Nat → SgError → CompM (InitResult ⊕ SgError)
  | [], _, errc => return .inr errc
  | c :: cs, i, errc => do
      let called ← callInitFn env ignoreInitErrors c i errc
      match called with
      | .inl rc => return .inl (.aborted rc)
      | .inr errc =>
          let table ← Prog.gets CompState.requiredLocks
          let newCount := newMtxCount bsearch table c.requiredLocks
          if newCount = 0 then initLoopWith env ignoreInitErrors cs (i + 1) errc
          else if env.realloc i then
            Prog.modify fun s => { s with
              tableSlots := table.length + newCount
              requiredLocks := enterSorted bsearch qsort table c.requiredLocks }
            initLoopWith env ignoreInitErrors cs (i + 1) errc
          else
            let r ← abortMalloc env (namedMutexSize * (table.length + newCount))
            return .inl r

def sgCompInitWith (comps : List CompInit) (env : InitEnv) (tid : Tid) (ignoreInitErrors : Bool) :
    CompM InitResult := do
  sgGlobalLock tid
  let count ← Prog.gets CompState.initialized
  Prog.modify fun s => { s with initialized := (count + 1) % unsignedBound }
  if count ≠ 0 then
    let rc ← sgGlobalUnlock
    return .finished rc
  else
    Prog.modify fun s => { s with globOfs := layoutFrom 0 comps, globSize := layoutSize 0 comps }
    if env.malloc then
      Prog.modify fun s => { s with tableLive := true, tableSlots := 1, requiredLocks := [s.globLock] }
      let looped ← initLoopWith bsearch qsort env ignoreInitErrors comps 0 .none
      afterLoop env looped
    else
      Prog.modify fun s => { s with tableLive := false }
      abortMalloc env namedMutexSize

def sgLockMutexWith (mutexName : CString) (tid : Tid) : CompM SgError := do
  let table ← Prog.gets CompState.requiredLocks
  match bsearchLock bsearch table mutexName with
  | none => returnReported .invalidArgument
  | some found =>
      match pthreadMutexLock (found.name != globLockName) tid found.mutex with
      | none => Prog.fault .blocked
      | some mutex =>
          storeLock mutexName mutex
          return .none

def sgUnlockMutexWith (mutexName : CString) (tid : Tid) : CompM SgError := do
  let table ← Prog.gets CompState.requiredLocks
  match bsearchLock bsearch table mutexName with
  | none => returnReported .invalidArgument
  | some found =>
      match pthreadMutexUnlock tid found.mutex with
      | (0, mutex) =>
          storeLock mutexName mutex
          return .none
      | _ => returnReported .mutexLock

end Code

instance : Std.TransCmp cmpNamedLocks where
  eq_swap := (inferInstance : Std.OrientedCmp strcmp).eq_swap
  isLE_trans := (inferInstance : Std.TransCmp strcmp).isLE_trans

/-! ### A sorted table -/

/-- The names ascend strictly. -/
def SortedLocks (table : List NamedMutex) : Prop := table.Pairwise fun a b => cmpNamedLocks a b = .lt

theorem strcmpLe_eq (a b : CString) : strcmpLe a b = (strcmp a b).isLE := by
  induction a generalizing b with
  | nil =>
      cases b with
      | nil => rfl
      | cons b bs => rfl
  | cons a as ih =>
      cases b with
      | nil => rfl
      | cons b bs =>
          rw [strcmpLe, strcmp_cons, ih]
          cases hab : compare a b with
          | lt =>
              have hlt : a < b := Std.compare_eq_lt.mp hab
              simp [hlt]
          | eq =>
              have heq : a = b := Std.LawfulEqCmp.compare_eq_iff_eq.mp hab
              simp [heq]
          | gt =>
              have hgt : b < a := Std.compare_eq_gt.mp hab
              have hne : a ≠ b := fun hcon => absurd (hcon ▸ hgt) (by simp)
              have hnot : ¬ a < b := fun hcon => absurd (UInt8.lt_trans hcon hgt) (by simp)
              simp [hne, hnot]

section Sorted

variable {table : List NamedMutex} {name : CString}

theorem SortedLocks.nodup (h : SortedLocks table) : (table.map NamedMutex.name).Nodup := by
  rw [List.nodup_iff_pairwise_ne, List.pairwise_map]
  refine h.imp fun {a b} hlt heq => ?_
  rw [cmpNamedLocks, strcmp_eq_iff.mpr heq] at hlt
  cases hlt

theorem SortedLocks.monotone (h : SortedLocks table) (key : NamedMutex) :
    table.Pairwise (Monotone (cmpNamedLocks key)) := by
  refine h.imp fun {a b} hlt => monotone_of_isLE key ?_
  rw [hlt]
  rfl

theorem bsearchLock_eq {bsearch : (NamedMutex → Ordering) → List NamedMutex → Option Nat} (hsearch : Lawful bsearch)
    (h : SortedLocks table) (name : CString) : bsearchLock bsearch table name = findLock table name := by
  have hmono := h.monotone ⟨name, .raw⟩
  rw [bsearchLock]
  rcases Option.eq_none_or_eq_some (bsearch (cmpNamedLocks ⟨name, .raw⟩) table) with hnone | ⟨i, hi⟩
  · rw [hnone, Option.bind_none]
    refine (List.find?_eq_none.mpr fun m hm heq => ?_).symm
    refine hsearch.missed hmono hnone m hm (strcmp_eq_iff.mpr ?_)
    exact (eq_of_beq heq).symm
  · obtain ⟨m, hm, heq⟩ := hsearch.found hmono hi
    have hname : name = m.name := strcmp_eq_iff.mp heq
    rw [hi, Option.bind_some, hm, hname]
    refine (findLock_of_unique (List.mem_of_getElem? hm) fun m' hm' hsame => ?_).symm
    exact List.inj_on_of_nodup_map h.nodup hm' (List.mem_of_getElem? hm) hsame

theorem sortedLocks_of_perm {table table' : List NamedMutex} (hnodup : (table.map NamedMutex.name).Nodup)
    (hperm : table'.Perm table) (hsorted : table'.Pairwise fun a b => (cmpNamedLocks a b).isLE = true) :
    SortedLocks table' := by
  have hnodup' : (table'.map NamedMutex.name).Nodup := (hperm.map _).nodup_iff.mpr hnodup
  rw [List.nodup_iff_pairwise_ne, List.pairwise_map] at hnodup'
  refine (hsorted.and hnodup').imp ?_
  rintro a b ⟨hle, hne⟩
  cases hcmp : cmpNamedLocks a b with
  | lt => rfl
  | eq => exact absurd (strcmp_eq_iff.mp hcmp) hne
  | gt =>
      rw [hcmp] at hle
      cases hle

theorem SortedLocks.eq_of_perm {table table' : List NamedMutex} (h : SortedLocks table) (h' : SortedLocks table')
    (hperm : table.Perm table') : table = table' := by
  refine List.Perm.eq_of_pairwise ?_ h h' hperm
  intro a b _ _ hab hba
  have hswap : cmpNamedLocks a b = (cmpNamedLocks b a).swap := Std.OrientedCmp.eq_swap
  rw [hab, hba] at hswap
  cases hswap

theorem nodup_append_new (h : SortedLocks table) (hnew : name ∉ lockNames table) :
    (List.map NamedMutex.name (table ++ [⟨name, .raw⟩])).Nodup := by
  rw [List.map_append, List.map_singleton, List.nodup_append]
  refine ⟨h.nodup, List.nodup_singleton _, ?_⟩
  intro a ha b hb heq
  obtain ⟨m, hm, rfl⟩ := List.mem_map.mp ha
  exact hnew ⟨m, hm, heq.trans (List.mem_singleton.mp hb)⟩

theorem sortedLocks_sortLocks (h : SortedLocks table) (hnew : name ∉ lockNames table) :
    SortedLocks (sortLocks (table ++ [⟨name, .raw⟩])) := by
  refine sortedLocks_of_perm (nodup_append_new h hnew) (List.mergeSort_perm _ _) ?_
  have hsorted := (merging_sorts (α := NamedMutex)).sorted cmpNamedLocks (table ++ [⟨name, .raw⟩])
  have hsame : (fun a b : NamedMutex => strcmpLe a.name b.name) = fun a b => (cmpNamedLocks a b).isLE := by
    funext a b
    exact strcmpLe_eq a.name b.name
  rw [sortLocks, hsame]
  exact hsorted

theorem qsort_eq_sortLocks {qsort : (NamedMutex → NamedMutex → Ordering) → List NamedMutex → List NamedMutex}
    (hsort : Sorts qsort) (h : SortedLocks table) (hnew : name ∉ lockNames table) :
    qsort cmpNamedLocks (table ++ [⟨name, .raw⟩]) = sortLocks (table ++ [⟨name, .raw⟩]) := by
  have hsorted := sortedLocks_of_perm (nodup_append_new h hnew) (hsort.perm cmpNamedLocks _)
    (hsort.sorted cmpNamedLocks _)
  refine hsorted.eq_of_perm (sortedLocks_sortLocks h hnew) ?_
  exact (hsort.perm cmpNamedLocks _).trans (List.mergeSort_perm _ _).symm

end Sorted

/-! ### The loops -/

theorem enterLocks_length_le (table : List NamedMutex) (names : List CString) :
    (enterLocks table names).length ≤ table.length + (newLocks table names).length := by
  induction names generalizing table with
  | nil => simp [enterLocks]
  | cons name names ih =>
      by_cases hknown : name ∈ lockNames table
      · have hsome := findLock_isSome.mpr hknown
        have hrest : newLocks table (name :: names) = newLocks table names := by
          rw [newLocks, List.filter_cons_of_neg (by simpa using Option.isSome_iff_ne_none.mp hsome), newLocks]
        rw [enterLocks, if_pos hsome, hrest]
        exact ih table
      · have hnone : ¬ (findLock table name).isSome = true := fun h => hknown (findLock_isSome.mp h)
        have hrest : newLocks table (name :: names) = name :: newLocks table names := by
          rw [newLocks, List.filter_cons_of_pos (by simpa using hnone), newLocks]
        -- a name that is new behind the entry was new before it
        have hfewer : (newLocks (sortLocks (table ++ [⟨name, .raw⟩])) names).length
            ≤ (newLocks table names).length := by
          refine List.Sublist.length_le (List.monotone_filter_right names fun other hother => ?_)
          rw [Option.isNone_iff_eq_none] at hother ⊢
          by_contra hfound
          have hin : other ∈ lockNames (sortLocks (table ++ [⟨name, .raw⟩])) := by
            obtain ⟨m, hm, heq⟩ := findLock_isSome.mp (Option.isSome_iff_ne_none.mpr hfound)
            rw [lockNames_sortLocks]
            exact ⟨m, List.mem_append_left _ hm, heq⟩
          rw [← findLock_isSome, hother] at hin
          cases hin
        have hlength : (sortLocks (table ++ [⟨name, .raw⟩])).length = table.length + 1 := by
          rw [sortLocks, List.length_mergeSort, List.length_append, List.length_singleton]
        have hnext := ih (sortLocks (table ++ [⟨name, .raw⟩]))
        rw [enterLocks, if_neg hnone, hrest, List.length_cons]
        omega

theorem sortedLocks_enterLocks {table : List NamedMutex} (h : SortedLocks table) (names : List CString) :
    SortedLocks (enterLocks table names) := by
  induction names generalizing table with
  | nil => exact h
  | cons name names ih =>
      rw [enterLocks]
      split
      case isTrue => exact ih h
      case isFalse hnew => exact ih (sortedLocks_sortLocks h fun hin => hnew (findLock_isSome.mpr hin))

theorem sortedLocks_locksAfter {table : List NamedMutex} (h : SortedLocks table) (cs : List CompInit) :
    SortedLocks (locksAfter table cs) := by
  induction cs generalizing table with
  | nil => exact h
  | cons c cs ih => exact ih (sortedLocks_enterLocks h c.requiredLocks)

def requiredNames (cs : List CompInit) : Set CString := { name | ∃ c ∈ cs, name ∈ c.requiredLocks }

section Loops

variable {bsearch : (NamedMutex → Ordering) → List NamedMutex → Option Nat}
  {qsort : (NamedMutex → NamedMutex → Ordering) → List NamedMutex → List NamedMutex}

theorem newMtxCount_eq (hsearch : Lawful bsearch) {table : List NamedMutex} (h : SortedLocks table)
    (names : List CString) : newMtxCount bsearch table names = (newLocks table names).length := by
  induction names with
  | nil => rfl
  | cons name names ih =>
      rw [newMtxCount, bsearchLock_eq hsearch h, ih, newLocks, newLocks]
      cases hfind : findLock table name with
      | none => simp [hfind]
      | some m => simp [hfind]

theorem enterSorted_eq (hsearch : Lawful bsearch) (hsort : Sorts qsort) {table : List NamedMutex}
    (h : SortedLocks table) (names : List CString) :
    enterSorted bsearch qsort table names = enterLocks table names := by
  induction names generalizing table with
  | nil => rfl
  | cons name names ih =>
      rw [enterSorted, enterLocks, bsearchLock_eq hsearch h]
      split
      case isTrue => exact ih h
      case isFalse hnew =>
        have hnew' : name ∉ lockNames table := fun hin => hnew (findLock_isSome.mpr hin)
        rw [qsort_eq_sortLocks hsort h hnew']
        exact ih (sortedLocks_sortLocks h hnew')

variable {env : InitEnv} {ignoreInitErrors : Bool}

theorem callInitFn_table (c : CompInit) (i : Nat) (errc : SgError) (s : CompState) :
    ∃ r s', callInitFn env ignoreInitErrors c i errc s = .ok (r, s') ∧ s'.requiredLocks = s.requiredLocks ∧
      s'.tableSlots = s.tableSlots := by
  let s1 : CompState := { s with
    calls := s.calls ++ [.init i]
    errorGlobId := if c.errorComp then (i + globMask) % unsignedBound else s.errorGlobId }
  by_cases hfn : c.initFn = true
  · by_cases hrc : env.initFn i = .none
    · exact ⟨.inr errc, s1, by simp [callInitFn, hfn, hrc, Prog.bind_run, s1], rfl, rfl⟩
    · by_cases hign : (ignoreInitErrors && c.status) = true
      · refine ⟨.inr .initialisation, { s1 with
          initError := Function.update s.initError i (env.initFn i) }, ?_, rfl, rfl⟩
        simp [callInitFn, hfn, hrc, hign, Prog.bind_run, s1]
      · exact ⟨.inl (env.initFn i), s1, by simp [callInitFn, hfn, hrc, hign, Prog.bind_run, s1], rfl, rfl⟩
  · exact ⟨.inr errc, s, by simp [callInitFn, hfn], rfl, rfl⟩

/-- From a sorted table on the loop does what it does with `findLock` and `sortLocks`. -/
theorem initLoopWith_eq (hsearch : Lawful bsearch) (hsort : Sorts qsort) (cs : List CompInit) (i : Nat)
    (errc : SgError) {s : CompState} (h : SortedLocks s.requiredLocks) :
    initLoopWith bsearch qsort env ignoreInitErrors cs i errc s = initLoop env ignoreInitErrors cs i errc s := by
  induction cs generalizing i errc s with
  | nil => rfl
  | cons c cs ih =>
      obtain ⟨r, s1, hcall, htable, -⟩ := @callInitFn_table env ignoreInitErrors c i errc s
      have h1 : SortedLocks s1.requiredLocks := htable ▸ h
      rw [initLoopWith, initLoop, Prog.bind_of_ok hcall, Prog.bind_of_ok hcall]
      cases r with
      | inl rc => rfl
      | inr errc =>
          simp only
          rw [Prog.bind_of_ok (Prog.gets_run _ _), Prog.bind_of_ok (Prog.gets_run _ _),
            newMtxCount_eq hsearch h1, enterSorted_eq hsearch hsort h1]
          by_cases hzero : (newLocks s1.requiredLocks c.requiredLocks).length = 0
          · rw [if_pos hzero, if_pos hzero]
            exact ih (i + 1) errc h1
          · rw [if_neg hzero, if_neg hzero]
            by_cases hrealloc : env.realloc i = true
            · rw [if_pos hrealloc, if_pos hrealloc, Prog.bind_of_ok (Prog.modify_run _ _),
                Prog.bind_of_ok (Prog.modify_run _ _)]
              exact ih (i + 1) errc (sortedLocks_enterLocks h1 c.requiredLocks)
            · rw [if_neg hrealloc, if_neg hrealloc]

/-- One iteration: the initialisation is aborted with the table as it was, if the call returns at all, or the loop
goes on with the names of the component entered. -/
theorem initLoop_iteration (c : CompInit) (i : Nat) (errc : SgError) (s : CompState) :
    (∃ stopped, (∀ cs, initLoop env ignoreInitErrors (c :: cs) i errc s = stopped) ∧
      ∀ r s', stopped = .ok (r, s') → (∃ rc, r = .inl rc) ∧ s'.requiredLocks = s.requiredLocks ∧
        s'.tableSlots = s.tableSlots) ∨
    ∃ errc' s', (∀ cs, initLoop env ignoreInitErrors (c :: cs) i errc s
        = initLoop env ignoreInitErrors cs (i + 1) errc' s') ∧
      (s'.requiredLocks = s.requiredLocks ∧ s'.tableSlots = s.tableSlots ∨
        s'.requiredLocks = enterLocks s.requiredLocks c.requiredLocks ∧
        s'.tableSlots = s.requiredLocks.length + (newLocks s.requiredLocks c.requiredLocks).length) := by
  obtain ⟨called, s1, hcall, htable, hslots⟩ := @callInitFn_table env ignoreInitErrors c i errc s
  cases called with
  | inl rc =>
      refine .inl ⟨.ok (.inl (.aborted rc), s1), fun cs => ?_, ?_⟩
      · rw [initLoop, Prog.bind_of_ok hcall]
        rfl
      · intro r s' hstop
        cases hstop
        exact ⟨⟨_, rfl⟩, htable, hslots⟩
  | inr errc' =>
      have hgo : ∀ cs, initLoop env ignoreInitErrors (c :: cs) i errc s =
          (if (newLocks s1.requiredLocks c.requiredLocks).length = 0 then
            initLoop env ignoreInitErrors cs (i + 1) errc'
          else if env.realloc i then do
            Prog.modify fun s => { s with
              tableSlots := s1.requiredLocks.length + (newLocks s1.requiredLocks c.requiredLocks).length
              requiredLocks := enterLocks s1.requiredLocks c.requiredLocks }
            initLoop env ignoreInitErrors cs (i + 1) errc'
          else do
            let r ← abortMalloc env (namedMutexSize * (s1.requiredLocks.length +
              (newLocks s1.requiredLocks c.requiredLocks).length))
            return .inl r : CompM (InitResult ⊕ SgError)) s1 := by
        intro cs
        rw [initLoop, Prog.bind_of_ok hcall]
        rfl
      by_cases hzero : (newLocks s1.requiredLocks c.requiredLocks).length = 0
      · refine .inr ⟨errc', s1, fun cs => ?_, .inl ⟨htable, hslots⟩⟩
        rw [hgo, if_pos hzero]
      · by_cases hrealloc : env.realloc i = true
        · refine .inr ⟨errc', { s1 with
            tableSlots := s1.requiredLocks.length + (newLocks s1.requiredLocks c.requiredLocks).length
            requiredLocks := enterLocks s1.requiredLocks c.requiredLocks }, fun cs => ?_, .inr ?_⟩
          · rw [hgo, if_neg hzero, if_pos hrealloc, Prog.bind_of_ok (Prog.modify_run _ _)]
          · rw [htable]
            exact ⟨rfl, rfl⟩
        · refine .inl ⟨(do
            let r ← abortMalloc env (namedMutexSize * (s1.requiredLocks.length +
              (newLocks s1.requiredLocks c.requiredLocks).length))
            return .inl r : CompM (InitResult ⊕ SgError)) s1, fun cs => ?_, ?_⟩
          · rw [hgo, if_neg hzero, if_neg hrealloc]
          · intro r s' hstop
            obtain ⟨r', s2, habort, hpure⟩ := Prog.bind_eq_ok.mp hstop
            obtain ⟨-, rfl⟩ := abortMalloc_ok habort
            cases hpure
            exact ⟨⟨_, rfl⟩, htable, hslots⟩

/-- The table never has more entries than it was allocated for. -/
theorem initLoop_slots (cs : List CompInit) (i : Nat) (errc : SgError) {s s' : CompState}
    {r : InitResult ⊕ SgError} (hrun : initLoop env ignoreInitErrors cs i errc s = .ok (r, s'))
    (h : s.requiredLocks.length ≤ s.tableSlots) : s'.requiredLocks.length ≤ s'.tableSlots := by
  induction cs generalizing i errc s with
  | nil =>
      cases hrun
      exact h
  | cons c cs ih =>
      rcases @initLoop_iteration env ignoreInitErrors c i errc s with
        ⟨stopped, hstop, hsame⟩ | ⟨errc', s1, hgo, ⟨htable, hslots⟩ | ⟨htable, hslots⟩⟩
      · rw [hstop] at hrun
        obtain ⟨-, htable, hslots⟩ := hsame r s' hrun
        rwa [htable, hslots]
      · rw [hgo] at hrun
        exact ih (i + 1) errc' hrun (by rwa [htable, hslots])
      · rw [hgo] at hrun
        refine ih (i + 1) errc' hrun ?_
        rw [htable, hslots]
        exact enterLocks_length_le s.requiredLocks c.requiredLocks

/-- A run over some components goes on with the next ones. -/
theorem initLoop_append (pre post : List CompInit) (i : Nat) {errc errc' : SgError} {s s' : CompState}
    (hrun : initLoop env ignoreInitErrors pre i errc s = .ok (.inr errc', s')) :
    initLoop env ignoreInitErrors (pre ++ post) i errc s
      = initLoop env ignoreInitErrors post (i + pre.length) errc' s' := by
  induction pre generalizing i errc s with
  | nil =>
      cases hrun
      rfl
  | cons c cs ih =>
      have hlength : i + (c :: cs).length = i + 1 + cs.length := by
        rw [List.length_cons]
        omega
      rcases @initLoop_iteration env ignoreInitErrors c i errc s with
        ⟨stopped, hstop, hsame⟩ | ⟨errc1, s1, hgo, -⟩
      · rw [hstop] at hrun
        obtain ⟨⟨rc, hrc⟩, -⟩ := hsame _ s' hrun
        cases hrc
      · rw [hgo] at hrun
        rw [List.cons_append, hgo, hlength]
        exact ih (i + 1) hrun

end Loops

/-! ### The names that are found -/

/-- The table of the components up to some iteration. -/
structure TableBuilt (s : CompState) (cs : List CompInit) : Prop where
  sorted : SortedLocks s.requiredLocks
  names : lockNames s.requiredLocks = {globLockName} ∪ requiredNames cs
  slots : s.requiredLocks.length ≤ s.tableSlots

/-- The mutexes with these names, and no others, are found. -/
structure FindsLocks (bsearch : (NamedMutex → Ordering) → List NamedMutex → Option Nat) (s : CompState)
    (names : Set CString) : Prop where
  lock : ∀ name tid, (∃ s', sgLockMutexWith bsearch name tid s = .ok (.invalidArgument, s')) ↔ name ∉ names
  unlock : ∀ name tid, (∃ s', sgUnlockMutexWith bsearch name tid s = .ok (.invalidArgument, s')) ↔ name ∉ names

section Finds

variable {bsearch : (NamedMutex → Ordering) → List NamedMutex → Option Nat} {s : CompState}

theorem sgLockMutexWith_eq (hsearch : Lawful bsearch) (h : SortedLocks s.requiredLocks) (name : CString)
    (tid : Tid) : sgLockMutexWith bsearch name tid s = sgLockMutex name tid s := by
  have hfound := bsearchLock_eq hsearch h name
  cases hfind : findLock s.requiredLocks name with
  | none => simp [sgLockMutexWith, sgLockMutex, Prog.bind_run, hfound, hfind]
  | some found =>
      cases hlock : pthreadMutexLock (found.name != globLockName) tid found.mutex with
      | none => simp [sgLockMutexWith, sgLockMutex, Prog.bind_run, hfound, hfind, hlock]
      | some mutex => simp [sgLockMutexWith, sgLockMutex, Prog.bind_run, hfound, hfind, hlock]

theorem sgUnlockMutexWith_eq (hsearch : Lawful bsearch) (h : SortedLocks s.requiredLocks) (name : CString)
    (tid : Tid) : sgUnlockMutexWith bsearch name tid s = sgUnlockMutex name tid s := by
  have hfound := bsearchLock_eq hsearch h name
  cases hfind : findLock s.requiredLocks name with
  | none => simp [sgUnlockMutexWith, sgUnlockMutex, Prog.bind_run, hfound, hfind]
  | some found =>
      rcases hunlock : pthreadMutexUnlock tid found.mutex with ⟨code, mutex⟩
      by_cases hzero : code = 0
      · subst hzero
        simp [sgUnlockMutexWith, sgUnlockMutex, Prog.bind_run, hfound, hfind, hunlock]
      · simp [sgUnlockMutexWith, sgUnlockMutex, Prog.bind_run, hfound, hfind, hunlock, hzero]

theorem sgLockMutex_invalid_iff (name : CString) (tid : Tid) :
    (∃ s', sgLockMutex name tid s = .ok (.invalidArgument, s')) ↔ name ∉ lockNames s.requiredLocks := by
  rw [← findLock_isSome]
  cases hfind : findLock s.requiredLocks name with
  | none =>
      refine iff_of_true ⟨{ s with reported := .invalidArgument }, ?_⟩ (by simp)
      simp [sgLockMutex, Prog.bind_run, hfind, returnReported]
  | some found =>
      refine iff_of_false ?_ (by simp)
      rintro ⟨s', hrun⟩
      cases hlock : pthreadMutexLock (found.name != globLockName) tid found.mutex with
      | none => simp [sgLockMutex, Prog.bind_run, hfind, hlock] at hrun
      | some mutex => simp [sgLockMutex, Prog.bind_run, hfind, hlock, storeLock] at hrun

theorem sgUnlockMutex_invalid_iff (name : CString) (tid : Tid) :
    (∃ s', sgUnlockMutex name tid s = .ok (.invalidArgument, s')) ↔ name ∉ lockNames s.requiredLocks := by
  rw [← findLock_isSome]
  cases hfind : findLock s.requiredLocks name with
  | none =>
      refine iff_of_true ⟨{ s with reported := .invalidArgument }, ?_⟩ (by simp)
      simp [sgUnlockMutex, Prog.bind_run, hfind, returnReported]
  | some found =>
      refine iff_of_false ?_ (by simp)
      rintro ⟨s', hrun⟩
      rcases hunlock : pthreadMutexUnlock tid found.mutex with ⟨code, mutex⟩
      by_cases hzero : code = 0
      · subst hzero
        simp [sgUnlockMutex, Prog.bind_run, hfind, hunlock, storeLock] at hrun
      · simp [sgUnlockMutex, Prog.bind_run, hfind, hunlock, hzero, returnReported] at hrun

theorem TableBuilt.finds (hsearch : Lawful bsearch) {cs : List CompInit} (h : TableBuilt s cs) :
    FindsLocks bsearch s ({globLockName} ∪ requiredNames cs) := by
  rw [← h.names]
  constructor
  · intro name tid
    rw [sgLockMutexWith_eq hsearch h.sorted, sgLockMutex_invalid_iff]
  · intro name tid
    rw [sgUnlockMutexWith_eq hsearch h.sorted, sgUnlockMutex_invalid_iff]

end Finds

/-! ### The whole initialisation -/

section Init

variable {bsearch : (NamedMutex → Ordering) → List NamedMutex → Option Nat}
  {qsort : (NamedMutex → NamedMutex → Ordering) → List NamedMutex → List NamedMutex}
  {comps : List CompInit} {env : InitEnv} {tid : Tid} {ignoreInitErrors : Bool} {s : CompState}

theorem sgCompInitWith_loop (hfree : s.globLock.mutex = .free) (hcount : s.initialized = 0)
    (hmem : env.malloc = true) :
    sgCompInitWith bsearch qsort comps env tid ignoreInitErrors s
      = (initLoopWith bsearch qsort env ignoreInitErrors comps 0 .none >>= afterLoop env)
        (s.laidOut comps tid) := by
  simp [sgCompInitWith, sgGlobalLock, Prog.bind_run, hfree, hcount, hmem, CompState.laidOut, unsignedBound]

theorem sortedLocks_laidOut (comps : List CompInit) (tid : Tid) (s : CompState) :
    SortedLocks (s.laidOut comps tid).requiredLocks := List.pairwise_singleton _ _

theorem sgCompInitWith_eq (hsearch : Lawful bsearch) (hsort : Sorts qsort) (comps : List CompInit) (env : InitEnv)
    (tid : Tid) (ignoreInitErrors : Bool) (s : CompState) :
    sgCompInitWith bsearch qsort comps env tid ignoreInitErrors s = sgCompInit comps env tid ignoreInitErrors s := by
  by_cases hfree : s.globLock.mutex = .free
  · by_cases hcount : s.initialized = 0
    · by_cases hmem : env.malloc = true
      · rw [sgCompInitWith_loop hfree hcount hmem, sgCompInit_loop hfree hcount hmem, Prog.bind_run, Prog.bind_run,
          initLoopWith_eq hsearch hsort comps 0 .none (sortedLocks_laidOut comps tid s)]
      · simp [sgCompInitWith, sgCompInit, sgGlobalLock, Prog.bind_run, hfree, hcount, hmem]
    · simp [sgCompInitWith, sgCompInit, sgGlobalLock, Prog.bind_run, hfree, hcount]
  · simp [sgCompInitWith, sgCompInit, sgGlobalLock, Prog.bind_run, hfree]

theorem initLoop_built (hname : s.globLock.name = globLockName) (hrealloc : ∀ i, env.realloc i = true)
    {pre : List CompInit} (hfns : InitFnsOk env ignoreInitErrors 0 pre) :
    ∃ errc s', initLoop env ignoreInitErrors pre 0 .none (s.laidOut comps tid) = .ok (.inr errc, s') ∧
      TableBuilt s' pre := by
  obtain ⟨errc, s', hrun, -, htable, -⟩ := initLoop_finishes pre 0 .none (s.laidOut comps tid) hfns
    (reallocsOk_of_all hrealloc pre _ 0)
  refine ⟨errc, s', hrun, ?_, ?_, initLoop_slots pre 0 .none hrun (Nat.le_refl 1)⟩
  · rw [htable]
    exact sortedLocks_locksAfter (sortedLocks_laidOut comps tid s) pre
  · have hstart : lockNames (s.laidOut comps tid).requiredLocks = {globLockName} := by
      ext name
      simp [lockNames, CompState.laidOut, hname, eq_comm]
    rw [htable, lockNames_locksAfter, hstart]
    rfl

theorem TableBuilt.mapped {s' : CompState} {cs : List CompInit} (h : TableBuilt s cs) {f : NamedMutex → NamedMutex}
    (hf : ∀ m, (f m).name = m.name) (htable : s'.requiredLocks = s.requiredLocks.map f)
    (hslots : s'.tableSlots = s.tableSlots) : TableBuilt s' cs where
  sorted := by
    rw [htable, SortedLocks, List.pairwise_map]
    refine h.sorted.imp fun {a b} hlt => ?_
    rw [cmpNamedLocks, hf, hf]
    exact hlt
  names := by
    rw [← h.names, htable]
    ext name
    simp [lockNames, hf]
  slots := by
    rw [htable, List.length_map, hslots]
    exact h.slots

theorem TableBuilt.finished {s' : CompState} {cs : List CompInit} {errc : SgError} {r : InitResult}
    (h : TableBuilt s cs) (hrun : finishInit env errc s = .ok (r, s')) : TableBuilt s' cs := by
  by_cases hinit : env.mutexattrInit = 0
  · by_cases htype : env.mutexattrSettype = 0
    · simp [finishInit, sgGlobalUnlock, Prog.bind_run, hinit, htype] at hrun
      obtain ⟨-, rfl⟩ := hrun
      refine h.mapped (fun m => ?_) rfl rfl
      split <;> rfl
    · simp [finishInit, hinit, htype] at hrun
  · simp [finishInit, hinit] at hrun

/-- The mutex table, for any component table and any `bsearch` and `qsort`, with the memory that is asked for: after
every iteration of the component loop, and at the end. -/
theorem sgCompInit_mutexTable (hsearch : Lawful bsearch) (hsort : Sorts qsort) (comps : List CompInit)
    (tid : Tid) (ignoreInitErrors : Bool) (hname : s.globLock.name = globLockName)
    (hfree : s.globLock.mutex = .free) (hcount : s.initialized = 0) (hmalloc : env.malloc = true)
    (hrealloc : ∀ i, env.realloc i = true) :
    sgCompInitWith bsearch qsort comps env tid ignoreInitErrors s
      = (initLoopWith bsearch qsort env ignoreInitErrors comps 0 .none >>= afterLoop env)
        (s.laidOut comps tid) ∧
    (∀ pre post, comps = pre ++ post → InitFnsOk env ignoreInitErrors 0 pre → ∃ errc s',
      initLoopWith bsearch qsort env ignoreInitErrors pre 0 .none (s.laidOut comps tid) = .ok (.inr errc, s') ∧
      initLoopWith bsearch qsort env ignoreInitErrors comps 0 .none (s.laidOut comps tid)
        = initLoopWith bsearch qsort env ignoreInitErrors post pre.length errc s' ∧
      TableBuilt s' pre ∧ FindsLocks bsearch s' ({globLockName} ∪ requiredNames pre)) ∧
    ∀ rc s', sgCompInitWith bsearch qsort comps env tid ignoreInitErrors s = .ok (.finished rc, s') →
      TableBuilt s' comps ∧ FindsLocks bsearch s' ({globLockName} ∪ requiredNames comps) := by
  have hsame : ∀ cs, initLoopWith bsearch qsort env ignoreInitErrors cs 0 .none (s.laidOut comps tid)
      = initLoop env ignoreInitErrors cs 0 .none (s.laidOut comps tid) := fun cs =>
    initLoopWith_eq hsearch hsort cs 0 .none (sortedLocks_laidOut comps tid s)
  refine ⟨sgCompInitWith_loop hfree hcount hmalloc, ?_, ?_⟩
  · intro pre post hcomps hfns
    obtain ⟨errc, s', hrun, hbuilt⟩ := @initLoop_built comps env tid ignoreInitErrors s hname hrealloc pre hfns
    refine ⟨errc, s', (hsame pre).trans hrun, ?_, hbuilt, hbuilt.finds hsearch⟩
    have happend := initLoop_append pre post 0 hrun
    rw [Nat.zero_add, ← hcomps] at happend
    rw [hsame, happend, initLoopWith_eq hsearch hsort post pre.length errc hbuilt.sorted]
  · intro rc s' hrun
    rw [sgCompInitWith_eq hsearch hsort] at hrun
    have hfns := (goesThrough_of_finished hfree hcount hrun).2.1
    obtain ⟨errc, s1, hloop, hbuilt⟩ := @initLoop_built comps env tid ignoreInitErrors s hname hrealloc comps hfns
    rw [sgCompInit_loop hfree hcount hmalloc, Prog.bind_of_ok hloop] at hrun
    have hdone := hbuilt.finished hrun
    exact ⟨hdone, hdone.finds hsearch⟩

end Init

/-- After `sg_init` on Linux the table has "statgrab" and "utmp". -/
theorem mutexTable_linux :
    ∃ rc s', sgCompInitWith halves merging linuxComps calmEnv 1 false .start = .ok (.finished rc, s') ∧
      TableBuilt s' linuxComps ∧ FindsLocks halves s' ({globLockName} ∪ requiredNames linuxComps) := by
  obtain ⟨rc, s', hrun⟩ := sgCompInit_linux
  rw [← sgCompInitWith_eq halves_lawful merging_sorts] at hrun
  refine ⟨rc, s', hrun, ?_⟩
  exact (sgCompInit_mutexTable halves_lawful merging_sorts linuxComps 1 false rfl rfl rfl rfl fun _ => rfl).2.2 rc s'
    hrun

end Statgrab
