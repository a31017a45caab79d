import Statgrab.Comp.Init
import Statgrab.Lib.Ranges

/-!
# The layout of the thread-local storage

`sg_comp_init` gives each component a part of the storage of a thread, behind the part of the component before
it. As long as the sum of the sizes is a `size_t`, the parts fill the storage without an overlap. Only the first
`sg_comp_init` and the last `sg_comp_destroy` touch the layout, and the latter leaves the places of the parts.
-/

namespace Statgrab

/-- `comp_info[i].glob_ofs`. -/
def CompState.ofs (c : CompState) (i : Nat) : Nat := c.globOfs.getD i 0

def bufSizes (comps : List CompInit) : List Nat := comps.map CompInit.staticBufSize

/-- `comp_info[i].init_comp->static_buf_size`. -/
def bufSize (comps : List CompInit) (i : Nat) : Nat := (bufSizes comps).getD i 0

/-- The storage is laid out for the table. -/
structure CompState.LaidOut (comps : List CompInit) (c : CompState) : Prop where
  globOfs : c.globOfs = layoutFrom 0 comps
  globSize : c.globSize = layoutSize 0 comps

def CompState.part (comps : List CompInit) (c : CompState) (i : Nat) : Set Nat :=
  Set.Ico (c.ofs i) (c.ofs i + bufSize comps i)

/-- The parts of the components do not overlap, and together they are the first `bytes` bytes. -/
structure CompState.Tiled (comps : List CompInit) (c : CompState) (bytes : Nat) : Prop where
  disjoint : ∀ i j, i < comps.length → j < comps.length → i ≠ j → Disjoint (c.part comps i) (c.part comps j)
  cover : ⋃ i ∈ Finset.range comps.length, c.part comps i = Set.Iio bytes

section Layout

variable {comps : List CompInit} {c : CompState}

@[simp] theorem bufSizes_length (comps : List CompInit) : (bufSizes comps).length = comps.length :=
  List.length_map _

theorem layoutSize_eq (base : Nat) (hfit : base + (bufSizes comps).sum < sizeBound) :
    layoutSize base comps = base + (bufSizes comps).sum := by
  induction comps generalizing base with
  | nil => rfl
  | cons c comps ih =>
      rw [bufSizes, List.map_cons, List.sum_cons, ← Nat.add_assoc] at hfit ⊢
      rw [layoutSize, Nat.mod_eq_of_lt (by omega)]
      exact ih _ hfit

theorem layoutFrom_getElem? (base : Nat) (hfit : base + (bufSizes comps).sum < sizeBound) {i : Nat}
    (hi : i < comps.length) :
    (layoutFrom base comps)[i]? = some (base + Ranges.start (bufSizes comps) i) := by
  induction comps generalizing base i with
  | nil => cases hi
  | cons c comps ih =>
      rw [bufSizes, List.map_cons] at hfit ⊢
      rw [List.sum_cons, ← Nat.add_assoc] at hfit
      cases i with
      | zero => rfl
      | succ i =>
          rw [layoutFrom, Nat.mod_eq_of_lt (by omega), List.getElem?_cons_succ,
            ih _ hfit (Nat.lt_of_succ_lt_succ hi), Ranges.start_cons_succ, Nat.add_assoc]
          rfl

variable (hofs : c.globOfs = layoutFrom 0 comps) (hsum : (bufSizes comps).sum < sizeBound)

include hofs hsum

theorem ofs_eq {i : Nat} (hi : i < comps.length) : c.ofs i = Ranges.start (bufSizes comps) i := by
  rw [CompState.ofs, List.getD_eq_getElem?_getD, hofs, layoutFrom_getElem? 0 (by omega) hi, Option.getD_some,
    Nat.zero_add]

theorem ofs_add_bufSize {i : Nat} (hi : i < comps.length) :
    c.ofs i + bufSize comps i = Ranges.start (bufSizes comps) (i + 1) := by
  have hlt : i < (bufSizes comps).length := by rwa [bufSizes_length]
  rw [ofs_eq hofs hsum hi, bufSize, List.getD_eq_getElem?_getD, List.getElem?_eq_getElem hlt, Option.getD_some,
    Ranges.start_succ hlt]

theorem part_eq {i : Nat} (hi : i < comps.length) : c.part comps i = Ranges.range (bufSizes comps) i := by
  rw [CompState.part, ofs_add_bufSize hofs hsum hi, ofs_eq hofs hsum hi, Ranges.range]

theorem tiled_of_layout : c.Tiled comps (layoutSize 0 comps) := by
  refine ⟨?_, ?_⟩
  · intro i j hi hj hij
    rw [part_eq hofs hsum hi, part_eq hofs hsum hj]
    exact Ranges.range_disjoint _ hij
  · have hparts := Ranges.iUnion_range (bufSizes comps)
    rw [bufSizes_length] at hparts
    rw [layoutSize_eq 0 (by omega), Nat.zero_add, ← hparts]
    apply Set.iUnion₂_congr
    intro i hi
    exact part_eq hofs hsum (Finset.mem_range.mp hi)

end Layout

/-! ### What `sg_comp_init` does to the layout -/

section Init

variable {comps : List CompInit} {env : InitEnv} {ignoreInitErrors : Bool} {c c' : CompState}

theorem initLoop_kept {i : Nat} {errc : SgError} {r : InitResult ⊕ SgError}
    (hrun : initLoop env ignoreInitErrors comps i errc c = .ok (r, c')) : c.Kept c' := by
  by_cases hok : InitFnsOk env ignoreInitErrors i comps ∧ ReallocsOk env (lockNames c.requiredLocks) i comps
  · obtain ⟨errc', c1, hrun', hkept, -⟩ := initLoop_finishes comps i errc c hok.1 hok.2
    rw [hrun'] at hrun
    cases hrun
    exact hkept
  · rcases initLoop_aborts comps i errc c hok with ⟨-, hrun'⟩ | ⟨-, rc, c1, hrun', hkept⟩
    · rw [hrun'] at hrun
      cases hrun
    · rw [hrun'] at hrun
      cases hrun
      exact hkept

theorem afterLoop_layout {looped : InitResult ⊕ SgError} {r : InitResult}
    (hrun : afterLoop env looped c = .ok (r, c')) : c'.globOfs = c.globOfs ∧ c'.globSize = c.globSize := by
  cases looped with
  | inl r =>
      cases hrun
      exact ⟨rfl, rfl⟩
  | inr errc =>
      rw [afterLoop] at hrun
      rcases finishInit_unlocks env errc (s := c) with
        ⟨code, hexit⟩ | ⟨c1, hrun', -, -, -, hsize, hofs, -⟩
      · rw [hexit] at hrun
        cases hrun
      · rw [hrun'] at hrun
        cases hrun
        exact ⟨hofs, hsize⟩

/-- Whether it succeeds or not, `sg_comp_init` leaves the storage laid out when it finds the counter at 0, and
the layout as it was otherwise. -/
theorem sgCompInit_layout {tid : Tid} {r : InitResult}
    (hrun : sgCompInit comps env tid ignoreInitErrors c = .ok (r, c')) :
    if c.initialized = 0 then c'.LaidOut comps
    else c'.globOfs = c.globOfs ∧ c'.globSize = c.globSize := by
  have hfree : c.globLock.mutex = .free := by
    by_contra hheld
    have hblocked : sgCompInit comps env tid ignoreInitErrors c = .error .blocked :=
      Prog.bind_of_error (by rw [sgGlobalLock, if_neg hheld]) _
    rw [hblocked] at hrun
    cases hrun
  by_cases hcount : c.initialized = 0
  · rw [if_pos hcount]
    by_cases hmem : env.malloc = true
    · rw [sgCompInit_loop hfree hcount hmem] at hrun
      obtain ⟨looped, c1, hloop, hafter⟩ := Prog.bind_eq_ok.mp hrun
      have hkept := initLoop_kept hloop
      obtain ⟨hofs, hsize⟩ := afterLoop_layout hafter
      exact ⟨hofs.trans hkept.globOfs, hsize.trans hkept.globSize⟩
    · obtain ⟨s1, hrefused, -, hsize, hofs, -⟩ :=
        sgCompInit_refused comps tid ignoreInitErrors hfree hcount hmem
      rw [hrefused] at hrun
      obtain ⟨-, rfl⟩ := abortMalloc_ok hrun
      exact ⟨hofs, hsize⟩
  · rw [if_neg hcount]
    rw [sgCompInit_counted hfree hcount] at hrun
    cases hrun
    exact ⟨rfl, rfl⟩

/-- The last `sg_comp_destroy` forgets the size of the storage, and no other one changes the layout. -/
theorem sgCompDestroy_layout {tid : Tid} {rc : SgError} (hrun : sgCompDestroy comps tid c = .ok (rc, c')) :
    c'.globOfs = c.globOfs ∧ (c'.globSize = c.globSize ∨ c'.initialized = 0 ∧ c'.globSize = 0) := by
  have hfree : c.globLock.mutex = .free := by
    by_contra hheld
    have hblocked : sgCompDestroy comps tid c = .error .blocked :=
      Prog.bind_of_error (by rw [sgGlobalLock, if_neg hheld]) _
    rw [hblocked] at hrun
    cases hrun
  by_cases hcount : (unsignedBound - 1 + c.initialized) % unsignedBound = 0
  · simp [sgCompDestroy, sgGlobalLock, sgGlobalUnlock, Prog.bind_run, hfree, hcount] at hrun
    obtain ⟨-, rfl⟩ := hrun
    exact ⟨rfl, .inr ⟨rfl, rfl⟩⟩
  · simp [sgCompDestroy, sgGlobalLock, sgGlobalUnlock, Prog.bind_run, hfree, hcount] at hrun
    obtain ⟨-, rfl⟩ := hrun
    exact ⟨rfl, .inl rfl⟩

end Init

end Statgrab
