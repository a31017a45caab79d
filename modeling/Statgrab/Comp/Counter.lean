import Mathlib.Data.Finset.Card
import Statgrab.Comp.Init
import Statgrab.Lib.Run

/-!
# Counted initialisation

Any number of threads call `sg_comp_init` and `sg_comp_destroy`. A call begins, waits for the lock, and
runs under it to its return: beginning and running are the steps, and they interleave freely. The
library's promise is about the counter: every time it leaves 0 the `init_fn`s have run once each in
table order, every time it comes back to 0 the `destroy_fn`s have run once each in reverse order, and
in between the mutex table and the storage layout stay as they are.

The invariant ties the counter to the calls that went through. That a destroy never finds the counter
at 0 needs the destroys that have begun and wait for the lock to be counted, too.
-/

namespace Statgrab

open Function (update)

inductive CallState where
  | idle
  | init (ignoreInitErrors : Bool)
  | destroy
  deriving DecidableEq, Repr

/-- The library and the threads that use it, with the calls counted. -/
structure CompSystem where
  comp : CompState
  threads : Tid → CallState
  initsDone : Nat
  destroysBegun : Nat
  destroysDone : Nat

/-- A step: a thread begins a call, or gets the lock and runs its call to the end. -/
inductive CompEv where
  | beginInit (tid : Tid) (ignoreInitErrors : Bool)
  | beginDestroy (tid : Tid)
  | enter (tid : Tid) (env : InitEnv)

namespace CompSystem

def step (comps : List CompInit) : CompEv → Prog CompStop CompSystem Unit
  | .beginInit tid ignoreInitErrors => fun s =>
      if s.threads tid = .idle then
        .ok ((), { s with threads := update s.threads tid (.init ignoreInitErrors) })
      else .error .blocked
  | .beginDestroy tid => fun s =>
      if s.threads tid = .idle then
        .ok ((), { s with
          threads := update s.threads tid .destroy, destroysBegun := s.destroysBegun + 1 })
      else .error .blocked
  | .enter tid env => fun s =>
      match s.threads tid with
      | .idle => .error .blocked
      | .init ignoreInitErrors =>
          match sgCompInit comps env tid ignoreInitErrors s.comp with
          | .error e => .error e
          | .ok (_, comp) => .ok ((), { s with
              comp := comp, threads := update s.threads tid .idle, initsDone := s.initsDone + 1 })
      | .destroy =>
          match sgCompDestroy comps tid s.comp with
          | .error e => .error e
          | .ok (_, comp) => .ok ((), { s with
              comp := comp, threads := update s.threads tid .idle
              destroysDone := s.destroysDone + 1 })

def start : CompSystem :=
  { comp := .start, threads := fun _ => .idle, initsDone := 0, destroysBegun := 0, destroysDone := 0 }

/-- What the callers owe: no destroy begins without an init that is done, fewer than `2 ^ 32` inits
are outstanding, and no `init_fn` fails. -/
def Allowed (s : CompSystem) : CompEv → Prop
  | .beginInit _ _ => True
  | .beginDestroy _ => s.destroysBegun < s.initsDone
  | .enter tid env => ∀ ignoreInitErrors, s.threads tid = .init ignoreInitErrors →
      (∀ i, env.initFn i = .none) ∧ s.initsDone + 1 < s.destroysDone + unsignedBound

/-- A call that finds the counter at 0 gets the memory for the mutex table. -/
def GetsTable (comps : List CompInit) (s : CompSystem) : CompEv → Prop
  | .enter tid env => ∀ ignoreInitErrors, s.threads tid = .init ignoreInitErrors →
      s.comp.initialized = 0 → env.malloc = true ∧ ReallocsOk env {s.comp.globLock.name} 0 comps
  | _ => True

end CompSystem

/-- The mutex table and the storage layout are there. -/
structure CompState.Present (comps : List CompInit) (c : CompState) : Prop where
  tableLive : c.tableLive = true
  names : lockNames c.requiredLocks
    = {globLockName} ∪ { name | ∃ comp ∈ comps, name ∈ comp.requiredLocks }
  globOfs : c.globOfs = layoutFrom 0 comps
  globSize : c.globSize = layoutSize 0 comps

/-- What a step may do to the library: `init_fn`s at 0 to 1, `destroy_fn`s at 1 to 0, nothing
otherwise. -/
structure CompState.Transition (comps : List CompInit) (c c' : CompState) : Prop where
  up : c.initialized = 0 → c'.initialized ≠ 0 →
    c'.initialized = 1 ∧ c'.calls = c.calls ++ initCalls 0 comps
  down : c.initialized ≠ 0 → c'.initialized = 0 →
    c.initialized = 1 ∧ c'.calls = c.calls ++ destroyCalls comps
  quiet : (c.initialized = 0 ↔ c'.initialized = 0) → c'.calls = c.calls
  present : c'.initialized ≠ 0 → c'.Present comps
  unchanged : c.initialized ≠ 0 → c'.initialized ≠ 0 →
    c'.tableLive = c.tableLive ∧ c'.requiredLocks = c.requiredLocks ∧
      c'.globOfs = c.globOfs ∧ c'.globSize = c.globSize

def CompSystem.Counted (comps : List CompInit) (s : CompSystem) (ev : CompEv) : Prop :=
  ∀ s', CompSystem.step comps ev s = .ok ((), s') → s.comp.Transition comps s'.comp

/-! ### The invariant -/

/-- The states of a run. -/
structure CompSystem.Inv (comps : List CompInit) (s : CompSystem) : Prop where
  lock : s.comp.globLock = ⟨globLockName, .free⟩
  count : s.comp.initialized + s.destroysDone = s.initsDone
  present : s.comp.initialized ≠ 0 → s.comp.Present comps
  begun : s.destroysBegun ≤ s.initsDone
  pending : ∃ D : Finset Tid, (∀ tid, tid ∈ D ↔ s.threads tid = .destroy) ∧
    D.card + s.destroysDone = s.destroysBegun
  bound : s.comp.initialized < unsignedBound

theorem CompState.Transition.refl {comps : List CompInit} {c : CompState}
    (h : c.initialized ≠ 0 → c.Present comps) : c.Transition comps c :=
  ⟨fun h0 h1 => absurd h0 h1, fun h1 h0 => absurd h0 h1, fun _ => rfl, h,
    fun _ _ => ⟨rfl, rfl, rfl, rfl⟩⟩

theorem lockNames_initialised (table : List NamedMutex) (lock : CString) :
    lockNames (table.map fun m => if m.name = lock then m else { m with mutex := .free })
      = lockNames table := by
  ext name
  constructor
  · rintro ⟨m', hm', rfl⟩
    obtain ⟨m, hm, rfl⟩ := List.mem_map.mp hm'
    refine ⟨m, hm, ?_⟩
    split <;> rfl
  · rintro ⟨m, hm, rfl⟩
    refine ⟨_, List.mem_map_of_mem hm, ?_⟩
    split <;> rfl

/-! ### The functions at the counter -/

theorem unsigned_pred {n : Nat} (hpos : n ≠ 0) (hlt : n < unsignedBound) :
    (unsignedBound - 1 + n) % unsignedBound = n - 1 := by
  have heq : unsignedBound - 1 + n = n - 1 + unsignedBound := by omega
  rw [heq, Nat.add_mod_right, Nat.mod_eq_of_lt (by omega)]

section

variable {comps : List CompInit} {tid : Tid} {c : CompState}

theorem sgCompDestroy_counted (hfree : c.globLock.mutex = .free) (hcount : 1 < c.initialized)
    (hlt : c.initialized < unsignedBound) :
    sgCompDestroy comps tid c = .ok (.none, { c with initialized := c.initialized - 1 }) := by
  have hpred := unsigned_pred (by omega) hlt
  have hne : c.initialized - 1 ≠ 0 := by omega
  simp [sgCompDestroy, sgGlobalLock, sgGlobalUnlock, Prog.bind_run, hfree, hpred, hne]
  rw [← hfree]

theorem sgCompDestroy_last (hfree : c.globLock.mutex = .free) (hcount : c.initialized = 1) :
    sgCompDestroy comps tid c = .ok (.none, { c with
      initialized := 0
      globSize := 0
      calls := c.calls ++ destroyCalls comps
      tableLive := false
      requiredLocks := [] }) := by
  simp [sgCompDestroy, sgGlobalLock, sgGlobalUnlock, Prog.bind_run, hfree, hcount, unsignedBound]
  rw [← hfree]

/-- What an `sg_comp_init` that gets its memory does to the library. -/
theorem sgCompInit_transition {env : InitEnv} {ignoreInitErrors : Bool} {r : InitResult}
    {c' : CompState} (hlock : c.globLock = ⟨globLockName, .free⟩)
    (hpresent : c.initialized ≠ 0 → c.Present comps) (hlt : c.initialized + 1 < unsignedBound)
    (hfns : ∀ i, env.initFn i = .none)
    (htable : c.initialized = 0 → env.malloc = true ∧ ReallocsOk env {c.globLock.name} 0 comps)
    (hrun : sgCompInit comps env tid ignoreInitErrors c = .ok (r, c')) :
    c'.globLock = ⟨globLockName, .free⟩ ∧ c'.initialized = c.initialized + 1 ∧
      c.Transition comps c' := by
  have hfree : c.globLock.mutex = .free := by rw [hlock]
  by_cases hcount : c.initialized = 0
  · obtain ⟨hmem, hres⟩ := htable hcount
    rcases sgCompInit_first tid hfree hcount
        ⟨hmem, initFnsOk_of_none hfns ignoreInitErrors comps 0, hres⟩ with ⟨code, hexit⟩ |
      ⟨rc, s1, hrun', hlock', hone, hofs, hsize, hlive, hcalls, htable'⟩
    · rw [hexit] at hrun
      cases hrun
    · rw [hrun'] at hrun
      cases hrun
      have hthere : c'.Present comps := by
        refine ⟨hlive, ?_, hofs, hsize⟩
        rw [htable', lockNames_initialised, lockNames_locksAfter]
        congr 1
        ext name
        simp [lockNames, hlock, eq_comm]
      refine ⟨hlock'.trans hlock, by rw [hone, hcount], ?_⟩
      refine ⟨fun _ _ => ⟨hone, hcalls⟩, ?_, ?_, fun _ => hthere, ?_⟩
      · intro hne
        exact absurd hcount hne
      · intro hiff
        rw [hone] at hiff
        simp [hcount] at hiff
      · intro hne
        exact absurd hcount hne
  · rw [sgCompInit_counted hfree hcount, Nat.mod_eq_of_lt hlt] at hrun
    cases hrun
    refine ⟨hlock, rfl, ?_⟩
    refine ⟨fun h0 => absurd h0 hcount, ?_, fun _ => rfl, ?_, fun _ _ => ⟨rfl, rfl, rfl, rfl⟩⟩
    · intro _ h0
      exact absurd h0 (by simp)
    · intro _
      obtain ⟨hlive, hnames, hofs, hsize⟩ := hpresent hcount
      exact ⟨hlive, hnames, hofs, hsize⟩

theorem sgCompDestroy_transition {rc : SgError} {c' : CompState}
    (hlock : c.globLock = ⟨globLockName, .free⟩) (hpresent : c.initialized ≠ 0 → c.Present comps)
    (hpos : c.initialized ≠ 0) (hlt : c.initialized < unsignedBound)
    (hrun : sgCompDestroy comps tid c = .ok (rc, c')) :
    c'.globLock = ⟨globLockName, .free⟩ ∧ c'.initialized + 1 = c.initialized ∧
      c.Transition comps c' := by
  have hfree : c.globLock.mutex = .free := by rw [hlock]
  by_cases hone : c.initialized = 1
  · rw [sgCompDestroy_last hfree hone] at hrun
    cases hrun
    refine ⟨hlock, by simp [hone], ?_⟩
    refine ⟨fun h0 => absurd h0 hpos, fun _ _ => ⟨hone, rfl⟩, ?_, ?_, ?_⟩
    · intro hiff
      simp [hpos] at hiff
    · intro hne
      exact absurd rfl hne
    · intro _ hne
      exact absurd rfl hne
  · rw [sgCompDestroy_counted hfree (by omega) hlt] at hrun
    cases hrun
    have hne : c.initialized - 1 ≠ 0 := by omega
    refine ⟨hlock, Nat.sub_add_cancel (by omega), ?_⟩
    refine ⟨fun h0 => absurd h0 hpos, fun _ h0 => absurd h0 hne, fun _ => rfl, ?_,
      fun _ _ => ⟨rfl, rfl, rfl, rfl⟩⟩
    intro _
    obtain ⟨hlive, hnames, hofs, hsize⟩ := hpresent hpos
    exact ⟨hlive, hnames, hofs, hsize⟩

end

/-! ### One step, and a run -/

namespace CompSystem

variable {comps : List CompInit} {s s' : CompSystem}

/-- A step of a thread that is not in a destroy keeps the destroys that wait. -/
theorem pending_update {tid : Tid} {x : CallState} (hx : x ≠ .destroy)
    (hold : s.threads tid ≠ .destroy) {D : Finset Tid}
    (hD : ∀ t, t ∈ D ↔ s.threads t = .destroy) :
    ∀ t, t ∈ D ↔ update s.threads tid x t = .destroy := by
  intro t
  by_cases ht : t = tid
  · rw [ht, Function.update_self, hD]
    exact iff_of_false hold hx
  · rw [Function.update_of_ne ht, hD]

theorem step_inv {ev : CompEv} (h : s.Inv comps) (hallowed : s.Allowed ev)
    (htable : s.GetsTable comps ev) (hrun : step comps ev s = .ok ((), s')) :
    s'.Inv comps ∧ s.comp.Transition comps s'.comp := by
  obtain ⟨hlock, hcount, hpresent, hbegun, ⟨D, hD, hcard⟩, hbound⟩ := h
  cases ev with
  | beginInit tid ignoreInitErrors =>
      simp only [step] at hrun
      split at hrun
      · rename_i hidle
        cases hrun
        refine ⟨⟨hlock, hcount, hpresent, hbegun, ⟨D, ?_, hcard⟩, hbound⟩, .refl hpresent⟩
        exact pending_update (by simp) (by simp [hidle]) hD
      · cases hrun
  | beginDestroy tid =>
      simp only [step] at hrun
      split at hrun
      · rename_i hidle
        cases hrun
        have hnew : tid ∉ D := by
          rw [hD, hidle]
          simp
        refine ⟨⟨hlock, hcount, hpresent, hallowed, ⟨insert tid D, ?_, ?_⟩, hbound⟩,
          .refl hpresent⟩
        · intro t
          by_cases ht : t = tid
          · simp [ht]
          · simp [ht, hD]
        · show (insert tid D).card + s.destroysDone = s.destroysBegun + 1
          rw [Finset.card_insert_of_notMem hnew]
          omega
      · cases hrun
  | enter tid env =>
      simp only [step] at hrun
      cases hthread : s.threads tid with
      | idle => simp [hthread] at hrun
      | init ignoreInitErrors =>
          obtain ⟨hfns, hlt⟩ := hallowed ignoreInitErrors hthread
          simp only [hthread] at hrun
          cases hinit : sgCompInit comps env tid ignoreInitErrors s.comp with
          | error e => simp [hinit] at hrun
          | ok r =>
              simp only [hinit] at hrun
              cases hrun
              obtain ⟨hlock', hcount', htrans⟩ := sgCompInit_transition hlock hpresent
                (by omega) hfns (htable ignoreInitErrors hthread) hinit
              refine ⟨⟨hlock', ?_, htrans.present, ?_, ⟨D, ?_, hcard⟩, ?_⟩, htrans⟩
              · show r.2.initialized + s.destroysDone = s.initsDone + 1
                omega
              · show s.destroysBegun ≤ s.initsDone + 1
                omega
              · exact pending_update (by simp) (by simp [hthread]) hD
              · rw [hcount']
                omega
      | destroy =>
          have hmem : tid ∈ D := (hD tid).mpr hthread
          have hpos : 0 < D.card := Finset.card_pos.mpr ⟨tid, hmem⟩
          simp only [hthread] at hrun
          cases hdestroy : sgCompDestroy comps tid s.comp with
          | error e => simp [hdestroy] at hrun
          | ok r =>
              simp only [hdestroy] at hrun
              cases hrun
              obtain ⟨hlock', hcount', htrans⟩ := sgCompDestroy_transition hlock hpresent
                (by omega) hbound hdestroy
              refine ⟨⟨hlock', ?_, htrans.present, hbegun, ⟨D.erase tid, ?_, ?_⟩, ?_⟩, htrans⟩
              · show r.2.initialized + (s.destroysDone + 1) = s.initsDone
                omega
              · intro t
                by_cases ht : t = tid
                · simp [ht]
                · simp [ht, hD]
              · show (D.erase tid).card + (s.destroysDone + 1) = s.destroysBegun
                rw [Finset.card_erase_of_mem hmem]
                omega
              · show r.2.initialized < unsignedBound
                omega

theorem start_inv (comps : List CompInit) : start.Inv comps :=
  ⟨rfl, rfl, fun h => absurd rfl h, le_refl 0, ⟨∅, by simp [start], rfl⟩, by decide⟩

/-- In every interleaving in which the callers keep their side and the first of them gets the memory
for the mutex table, initialisation is counted: each step runs the `init_fn`s or `destroy_fn`s exactly
at its transition of the counter, and the table and the layout stay as they are in between. -/
theorem counted_run (comps : List CompInit) (evs : List CompEv)
    (hallowed : Prog.Always (step comps) Allowed start evs)
    (htable : Prog.Always (step comps) (GetsTable comps) start evs) :
    Prog.Always (step comps) (Counted comps) start evs := by
  refine Prog.Always.imp (I := Inv comps) ?_ ?_ (start_inv comps) (hallowed.and htable)
  · intro s ev hinv hev s' hrun
    exact (step_inv hinv hev.1 hev.2 hrun).2
  · intro s ev s' hinv hev hrun
    exact (step_inv hinv hev.1 hev.2 hrun).1

/-- Two threads initialise and shut down on Linux. -/
def twoThreads : List CompEv :=
  [.beginInit 1 false, .beginInit 2 true, .enter 2 calmEnv, .beginDestroy 2, .enter 1 calmEnv,
    .enter 2 calmEnv]

theorem counted_twoThreads :
    Prog.Always (step linuxComps) (Counted linuxComps) start twoThreads := by
  apply counted_run
  · simp only [twoThreads]
    rw [Prog.always_cons_of_ok rfl, Prog.always_cons_of_ok rfl, Prog.always_cons_of_ok rfl,
      Prog.always_cons_of_ok rfl, Prog.always_cons_of_ok rfl, Prog.always_cons_of_ok rfl]
    refine ⟨trivial, trivial, ?_, Nat.zero_lt_one, ?_, ?_, trivial⟩
    · exact fun _ _ => ⟨fun _ => rfl, by decide⟩
    · exact fun _ _ => ⟨fun _ => rfl, by decide⟩
    · intro ignoreInitErrors h
      cases h
  · simp only [twoThreads]
    rw [Prog.always_cons_of_ok rfl, Prog.always_cons_of_ok rfl, Prog.always_cons_of_ok rfl,
      Prog.always_cons_of_ok rfl, Prog.always_cons_of_ok rfl, Prog.always_cons_of_ok rfl]
    refine ⟨trivial, trivial, ?_, trivial, ?_, ?_, trivial⟩
    all_goals exact fun _ _ _ => ⟨rfl, reallocsOk_of_all (fun _ => rfl) _ _ 0⟩

/-- The users component is refused the block for its mutex "utmp": the counter goes to 1, every
`init_fn` has run, and the table lacks the mutex. -/
theorem not_counted_without_table :
    Prog.Always (step linuxComps) Allowed start
      [.beginInit 1 false, .enter 1 { calmEnv with realloc := fun _ => false }] ∧
    ¬ Prog.Always (step linuxComps) (Counted linuxComps) start
      [.beginInit 1 false, .enter 1 { calmEnv with realloc := fun _ => false }] := by
  constructor
  · rw [Prog.always_cons_of_ok rfl, Prog.always_cons_of_ok rfl]
    exact ⟨trivial, fun _ _ => ⟨fun _ => rfl, by decide⟩, trivial⟩
  · rw [Prog.always_cons_of_ok rfl]
    intro h
    have hpresent := (h.2.1 _ rfl).present (by decide)
    have hutmp : ([117, 116, 109, 112] : CString) ∈ lockNames [⟨globLockName, .held 1⟩] := by
      rw [show lockNames [⟨globLockName, .held 1⟩] = _ from hpresent.names]
      exact .inr ⟨_, List.mem_of_getLast? rfl, List.mem_singleton.mpr rfl⟩
    obtain ⟨m, hm, hname⟩ := hutmp
    rw [List.mem_singleton.mp hm] at hname
    exact absurd hname (by decide)

end CompSystem

end Statgrab
