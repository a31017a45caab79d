import Statgrab.Lib.Run
import Statgrab.Stats.ValidFs

/-!
# Runs over the set of valid file systems

The set stays settled over every call but three: a shutdown leaves the number behind, a start without
`/proc/filesystems` takes that number for the length of its own list, and a start that is refused memory
on that way, or for the first array, is left half done. `validFs_run_iff` says that these are all, over
whole runs. A settled set is searched inside its array, and the search is the `isValidFsType` of the
readers.
-/

namespace Statgrab

/-! ### The parts of the functions -/

section Parts

variable {s : FsTypes}

/-- The state after the allocator answered one request. -/
def FsTypes.answered (s : FsTypes) : FsTypes := { s with toThread := s.toThread.answered }

theorem onFsThread_run {β : Type} {x : ThreadM β} {b : β} {t : Thread} (hx : x s.toThread = .ok (b, t)) :
    onFsThread x s = .ok (b, { s with toThread := t }) :=
  Prog.zoom_of_ok hx

theorem onFsThread_calloc (s : FsTypes) : onFsThread calloc s = .ok (s.mem 0, s.answered) := rfl

theorem updateFsType_run {entries : List (Option CString)} {i : Nat} (name : CString)
    (hentries : s.validFileSystems = some entries) (hi : entries[i]? = some none) :
    ∃ t, t.mem = s.answered.mem ∧ updateFsType i name s = if s.mem 0 = true
      then .ok (.none, { s with toThread := t, validFileSystems := some (entries.set i (some name)) })
      else .ok (.malloc, { s with toThread := t, validFileSystems := some entries }) := by
  have hsame : entries.set i none = entries := by
    obtain ⟨hlt, hget⟩ := List.getElem?_eq_some_iff.mp hi
    rw [← hget, List.set_getElem_self]
  cases hmem : s.mem 0 with
  | true =>
      refine ⟨s.toThread.answered, rfl, ?_⟩
      have hupdate : sgUpdateString none (some name) s.toThread
          = .ok ((.none, some name), s.toThread.answered) := by
        rw [sgUpdateString, Prog.bind_of_ok (sgRealloc_of_mem (by omega) hmem)]
        rfl
      rw [updateFsType, Prog.bind_of_ok (Prog.gets_run _ _), hentries]
      simp only [hi]
      rw [Prog.bind_of_ok (onFsThread_run hupdate)]
      rfl
  | false =>
      refine ⟨{ s.toThread.answered with glob := reallocError (name.length + 1) }, rfl, ?_⟩
      have hupdate : sgUpdateString none (some name) s.toThread = .ok ((.malloc, none),
          { s.toThread.answered with glob := reallocError (name.length + 1) }) := by
        rw [sgUpdateString, Prog.bind_of_ok (sgRealloc_of_not_mem (by omega) hmem)]
        rfl
      rw [updateFsType, Prog.bind_of_ok (Prog.gets_run _ _), hentries]
      simp only [hi]
      rw [Prog.bind_of_ok (onFsThread_run hupdate)]
      simp only [hsame]
      rfl

theorem growFsTypes_run {names : List CString} {k : Nat}
    (hentries : s.validFileSystems = some (filled names k)) :
    ∃ t, t.mem = s.answered.mem ∧ growFsTypes names.length s = if s.mem 0 = true
      then .ok (true, ⟨t, some (filled names (s.numValidFileSystems + 17 - names.length)),
        s.numValidFileSystems + 16⟩)
      else .ok (false, ⟨t, some (filled names k), s.numValidFileSystems + 16⟩) := by
  let grown : FsTypes := { s with numValidFileSystems := s.numValidFileSystems + 16 }
  cases hmem : s.mem 0 with
  | true =>
      refine ⟨s.toThread.answered, rfl, ?_⟩
      have hrealloc : onFsThread (sgRealloc (8 * (s.numValidFileSystems + 16 + 1))) grown
          = .ok (true, grown.answered) := onFsThread_run (sgRealloc_of_mem (by omega) hmem)
      rw [growFsTypes, Prog.bind_of_ok (Prog.modify_run _ _), Prog.bind_of_ok (Prog.gets_run _ _),
        Prog.bind_of_ok hrealloc]
      simp [Prog.bind_run, grown, FsTypes.answered, hentries, filled]
  | false =>
      refine ⟨{ s.toThread.answered with
        glob := reallocError (8 * (s.numValidFileSystems + 16 + 1)) }, rfl, ?_⟩
      have hrealloc : onFsThread (sgRealloc (8 * (s.numValidFileSystems + 16 + 1))) grown
          = .ok (false, { grown with toThread := { s.toThread.answered with
              glob := reallocError (8 * (s.numValidFileSystems + 16 + 1)) } }) :=
        onFsThread_run (sgRealloc_of_not_mem (by omega) hmem)
      rw [growFsTypes, Prog.bind_of_ok (Prog.modify_run _ _), Prog.bind_of_ok (Prog.gets_run _ _),
        Prog.bind_of_ok hrealloc]
      simp [grown, hentries]

/-- The start gave up, and left nothing behind. -/
def GaveUp (result : Except Fault (Except SgError Nat × FsTypes)) : Prop :=
  ∃ rc s', result = .ok (.error rc, s') ∧ s'.validFileSystems = none ∧ s'.numValidFileSystems = 0

/-- The loop goes on with one name more, or the start gave up. -/
def Continues (done : List CString) (name : CString) (names : List CString)
    (result : Except Fault (Except SgError Nat × FsTypes)) : Prop :=
  (∃ s', result = readFsTypes (done.length + 1) names s' ∧
    s'.validFileSystems
      = some (filled (done ++ [name]) (s'.numValidFileSystems + 1 - (done.length + 1))) ∧
    done.length + 1 ≤ s'.numValidFileSystems) ∨ GaveUp result

theorem storeFsType_run {done : List CString} {k : Nat} (name : CString) (names : List CString)
    (hentries : s.validFileSystems = some (filled done (k + 1)))
    (hnum : s.numValidFileSystems = done.length + k) (hk : 0 < k) :
    Continues done name names ((do
      let rc ← updateFsType done.length name
      if rc = .none then readFsTypes (done.length + 1) names
      else do
        dropFsTypes
        return .error rc : FsTypesM (Except SgError Nat)) s) := by
  obtain ⟨t, -, hupdate⟩ := updateFsType_run name hentries (filled_getElem? _ _)
  cases hmem : s.mem 0 with
  | true =>
      rw [if_pos hmem, filled_set] at hupdate
      rw [Prog.bind_of_ok hupdate, if_pos rfl]
      refine .inl ⟨_, rfl, ?_, ?_⟩
      · simp only
        congr 2
        omega
      · simp only
        omega
  | false =>
      rw [if_neg (by simp [hmem])] at hupdate
      rw [Prog.bind_of_ok hupdate, if_neg (by decide)]
      exact .inr ⟨.malloc, _, rfl, rfl, rfl⟩

theorem readFsType_run {done : List CString} (name : CString) (names : List CString)
    (hentries : s.validFileSystems = some (filled done (s.numValidFileSystems + 1 - done.length)))
    (hlength : done.length ≤ s.numValidFileSystems) :
    Continues done name names (readFsTypes done.length (name :: names) s) := by
  by_cases hfull : s.numValidFileSystems ≤ done.length
  · obtain ⟨t, -, hgrow⟩ := growFsTypes_run hentries
    rw [readFsTypes, Prog.bind_of_ok (Prog.gets_run _ _), if_pos hfull]
    cases hmem : s.mem 0 with
    | true =>
        rw [if_pos hmem] at hgrow
        rw [Prog.bind_of_ok hgrow]
        apply storeFsType_run (k := 16) name names
        · simp only
          congr 2
          omega
        · simp only
          omega
        · omega
    | false =>
        rw [if_neg (by simp [hmem])] at hgrow
        rw [Prog.bind_of_ok hgrow]
        exact .inr ⟨_, _, rfl, rfl, rfl⟩
  · rw [readFsTypes, Prog.bind_of_ok (Prog.gets_run _ _), if_neg hfull,
      Prog.bind_of_ok (Prog.pure_run _ _)]
    apply storeFsType_run (k := s.numValidFileSystems - done.length) name names
    · rw [hentries]
      congr 2
      omega
    · omega
    · omega

theorem readFsTypes_run (names : List CString) {done : List CString}
    (hentries : s.validFileSystems = some (filled done (s.numValidFileSystems + 1 - done.length)))
    (hlength : done.length ≤ s.numValidFileSystems) :
    (∃ all s', readFsTypes done.length names s = .ok (.ok all.length, s') ∧
      s'.validFileSystems = some (filled all (s'.numValidFileSystems + 1 - all.length)) ∧
      all.length ≤ s'.numValidFileSystems) ∨
    GaveUp (readFsTypes done.length names s) := by
  induction names generalizing s done with
  | nil => exact .inl ⟨done, s, rfl, hentries, hlength⟩
  | cons name names ih =>
      rcases readFsType_run name names hentries hlength with ⟨s', hrun, hentries', hlength'⟩ | hfail
      · have hlen : (done ++ [name]).length = done.length + 1 := by simp
        rw [hrun, ← hlen]
        exact ih (by rwa [hlen]) (by rwa [hlen])
      · exact .inr hfail

/-- With memory a name is stored in an array that has room. -/
theorem storeFsType_plenty {done : List CString} {k : Nat} (name : CString) (hplenty : s.toThread.Plenty)
    (hentries : s.validFileSystems = some (filled done (k + 2))) :
    ∃ t : Thread, t.Plenty ∧ updateFsType done.length name s
      = .ok (.none, ⟨t, some (filled (done ++ [name]) (k + 1)), s.numValidFileSystems⟩) := by
  obtain ⟨t, ht, hupdate⟩ := updateFsType_run name hentries (filled_getElem? _ _)
  rw [if_pos (hplenty 0), filled_set] at hupdate
  refine ⟨t, ?_, hupdate⟩
  intro n
  rw [ht]
  exact hplenty (n + 1)

theorem roomFsType_plenty {done : List CString} (hplenty : s.toThread.Plenty)
    (hentries : s.validFileSystems = some (filled done (s.numValidFileSystems + 1 - done.length)))
    (hlength : done.length ≤ s.numValidFileSystems) :
    ∃ (u : FsTypes) (k : Nat), u.toThread.Plenty ∧ u.validFileSystems = some (filled done (k + 2)) ∧
      u.numValidFileSystems = done.length + (k + 1) ∧
      (if s.numValidFileSystems ≤ done.length then growFsTypes done.length else pure true) s
        = .ok (true, u) := by
  by_cases hfull : s.numValidFileSystems ≤ done.length
  · obtain ⟨t, ht, hgrow⟩ := growFsTypes_run hentries
    rw [if_pos (hplenty 0)] at hgrow
    refine ⟨_, 15, ?_, ?_, ?_, by rw [if_pos hfull, hgrow]⟩
    · intro n
      show t.mem n = true
      rw [ht]
      exact hplenty (n + 1)
    · simp only
      congr 2
      omega
    · simp only
      omega
  · refine ⟨s, s.numValidFileSystems - done.length - 1, hplenty, ?_, ?_, by rw [if_neg hfull]; rfl⟩
    · rw [hentries]
      congr 2
      omega
    · omega

theorem readFsTypes_plenty (names : List CString) {done : List CString} (hplenty : s.toThread.Plenty)
    (hentries : s.validFileSystems = some (filled done (s.numValidFileSystems + 1 - done.length)))
    (hlength : done.length ≤ s.numValidFileSystems) :
    ∃ s', readFsTypes done.length names s = .ok (.ok (done ++ names).length, s') ∧
      s'.validFileSystems
        = some (filled (done ++ names) (s'.numValidFileSystems + 1 - (done ++ names).length)) ∧
      (done ++ names).length ≤ s'.numValidFileSystems := by
  induction names generalizing s done with
  | nil =>
      rw [List.append_nil]
      exact ⟨s, rfl, hentries, hlength⟩
  | cons name names ih =>
      obtain ⟨u, k, hu, harray, hnum, hroom⟩ := roomFsType_plenty hplenty hentries hlength
      obtain ⟨t, ht, hstore⟩ := storeFsType_plenty name hu harray
      have hlen : (done ++ [name]).length = done.length + 1 := by simp
      have hrun : readFsTypes done.length (name :: names) s
          = readFsTypes (done ++ [name]).length names
            ⟨t, some (filled (done ++ [name]) (k + 1)), u.numValidFileSystems⟩ := by
        have hnext : (do
            let rc ← updateFsType done.length name
            if rc = .none then readFsTypes (done.length + 1) names
            else do
              dropFsTypes
              return .error rc : FsTypesM (Except SgError Nat)) u
            = readFsTypes (done ++ [name]).length names
              ⟨t, some (filled (done ++ [name]) (k + 1)), u.numValidFileSystems⟩ := by
          rw [Prog.bind_of_ok hstore, if_pos rfl, hlen]
        rw [readFsTypes, Prog.bind_of_ok (Prog.gets_run _ _)]
        by_cases hfull : s.numValidFileSystems ≤ done.length
        · rw [if_pos hfull] at hroom
          rw [if_pos hfull, Prog.bind_of_ok hroom]
          exact hnext
        · rw [if_neg hfull] at hroom
          rw [if_neg hfull, Prog.bind_of_ok hroom]
          exact hnext
      have happend : done ++ name :: names = done ++ [name] ++ names := by simp
      rw [hrun, happend]
      apply ih ht
      · simp only [hlen, hnum]
        congr 2
        omega
      · simp only
        omega

def FsTypes.names (s : FsTypes) : List CString :=
  ((s.validFileSystems.getD []).take s.numValidFileSystems).filterMap id

theorem sorted_done {names sorted : List CString} (k : Nat)
    (hentries : s.validFileSystems = some (filled sorted (k + 1)))
    (hnum : s.numValidFileSystems = sorted.length) (hperm : sorted.Perm names)
    (hsorted : (sorted.map some).Pairwise fun a b => fsTypeLE a b) :
    s.Settled ∧ s.names.Perm names := by
  refine ⟨settled_of_filled k hentries hnum hsorted, ?_⟩
  have hnames : s.names = sorted := by
    rw [FsTypes.names, hentries, hnum, Option.getD_some, filled_take]
    simp
  rwa [hnames]

/-- The end of a start leaves what the readers rely on. -/
theorem finishFsTypes_run (names : List CString)
    (hentries : s.validFileSystems = some (filled names (s.numValidFileSystems + 1 - names.length)))
    (hlength : names.length ≤ s.numValidFileSystems) :
    ∃ s', finishFsTypes names.length s = .ok ((), s') ∧ s'.Settled ∧ s'.names.Perm names := by
  obtain ⟨k, hk⟩ := Nat.exists_eq_add_of_le hlength
  have hcount : s.numValidFileSystems + 1 - names.length = k + 1 := by omega
  obtain ⟨sorted, hsort, hperm, hpair⟩ := mergeSort_filled names k
  have hlen := hperm.length_eq
  have harray : ((filled names (k + 1)).take s.numValidFileSystems).mergeSort fsTypeLE
      ++ (filled names (k + 1)).drop s.numValidFileSystems = filled sorted (k + 1) := by
    have hdrop : (filled names (k + 1)).drop s.numValidFileSystems = List.replicate 1 none := by
      rw [hk, filled, List.drop_append]
      simp
    rw [hdrop, hk, filled_take_add names (k + 1) k (by omega), hsort, filled_append]
  rw [finishFsTypes, Prog.bind_of_ok (Prog.gets_run _ _)]
  simp only [id, hentries, hcount]
  rw [if_neg (by rw [filled_length]; omega), harray, Prog.bind_of_ok (Prog.modify_run _ _)]
  by_cases hlt : names.length < s.numValidFileSystems
  · rw [if_pos hlt, Prog.bind_of_ok (Prog.modify_run _ _)]
    let cut : FsTypes := { s with
      validFileSystems := some (filled sorted (k + 1)), numValidFileSystems := names.length }
    cases hmem : s.mem 0 with
    | true =>
        have hrealloc : onFsThread (sgRealloc (8 * (names.length + 1))) cut = .ok (true, cut.answered) :=
          onFsThread_run (sgRealloc_of_mem (by omega) hmem)
        rw [Prog.bind_of_ok hrealloc, if_pos rfl, ← hlen,
          filled_take_add sorted (k + 1) 1 (by omega)]
        exact ⟨_, rfl, sorted_done _ rfl hlen.symm hperm hpair⟩
    | false =>
        have hrealloc : onFsThread (sgRealloc (8 * (names.length + 1))) cut
            = .ok (false, { cut with toThread := { s.toThread.answered with
                glob := reallocError (8 * (names.length + 1)) } }) :=
          onFsThread_run (sgRealloc_of_not_mem (by omega) hmem)
        rw [Prog.bind_of_ok hrealloc]
        exact ⟨_, rfl, sorted_done _ rfl hlen.symm hperm hpair⟩
  · rw [if_neg hlt]
    have hnum : s.numValidFileSystems = sorted.length := by omega
    exact ⟨_, rfl, sorted_done _ rfl hnum hperm hpair⟩

/-! ### The built-in list -/

/-- The list is copied where it is long enough and every copy gets its memory. -/
theorem fillFsTypes_run (fuel : Nat) (done : List CString)
    (hentries : s.validFileSystems = some (filled done (fuel + 1)))
    (hlength : done.length + fuel ≤ validFsTypes.length) (hmem : ∀ i, i < fuel → s.mem i = true) :
    ∃ names s', fillFsTypes fuel done.length s = .ok (.none, s') ∧
      s'.validFileSystems = some (filled names 1) ∧
      names = done ++ (validFsTypes.drop done.length).take fuel ∧
      s'.numValidFileSystems = s.numValidFileSystems := by
  induction fuel generalizing s done with
  | zero => exact ⟨done, s, rfl, hentries, by simp, rfl⟩
  | succ fuel ih =>
      have hname : validFsTypes[done.length]? = some validFsTypes[done.length] :=
        List.getElem?_eq_getElem (by omega)
      obtain ⟨t, ht, hupdate⟩ := updateFsType_run validFsTypes[done.length] hentries
        (filled_getElem? _ _)
      rw [if_pos (hmem 0 (Nat.succ_pos fuel)), filled_set] at hupdate
      obtain ⟨names, s', hrun, hfilled, hlen, hnum⟩ := ih (done ++ [validFsTypes[done.length]])
        (s := { s with
          toThread := t
          validFileSystems := some (filled (done ++ [validFsTypes[done.length]]) (fuel + 1)) })
        rfl (by simp only [List.length_append, List.length_singleton]; omega) (by
          intro i hi
          show t.mem i = true
          rw [ht]
          exact hmem (i + 1) (by omega))
      rw [List.length_append, List.length_singleton] at hrun hlen
      refine ⟨names, s', ?_, hfilled, ?_, hnum⟩
      · rw [fillFsTypes, hname]
        simp only
        rw [Prog.bind_of_ok hupdate, if_pos rfl, hrun]
      · have hlt : done.length < validFsTypes.length := by omega
        rw [hlen, List.append_assoc, List.drop_eq_getElem_cons hlt, List.take_succ_cons]
        rfl

/-- Otherwise the loop leaves its list, or returns with an array that is not full. -/
theorem fillFsTypes_short (fuel : Nat) (done : List CString)
    (hentries : s.validFileSystems = some (filled done (fuel + 1)))
    (hnum : s.numValidFileSystems = done.length + fuel) (hdone : done.length ≤ validFsTypes.length)
    (hshort : ¬ (done.length + fuel ≤ validFsTypes.length ∧ ∀ i, i < fuel → s.mem i = true))
    {rc : SgError} {s' : FsTypes} (hrun : fillFsTypes fuel done.length s = .ok (rc, s')) :
    rc ≠ .none ∧ ¬ s'.Settled := by
  induction fuel generalizing s done with
  | zero => exact absurd ⟨hdone, fun i hi => absurd hi (Nat.not_lt_zero i)⟩ hshort
  | succ fuel ih =>
      cases hname : validFsTypes[done.length]? with
      | none =>
          rw [fillFsTypes, hname] at hrun
          cases hrun
      | some name =>
          have hlt := (List.getElem?_eq_some_iff.mp hname).1
          obtain ⟨t, ht, hupdate⟩ := updateFsType_run name hentries (filled_getElem? _ _)
          rw [fillFsTypes, hname] at hrun
          simp only at hrun
          cases hmem : s.mem 0 with
          | true =>
              rw [if_pos hmem, filled_set] at hupdate
              rw [Prog.bind_of_ok hupdate, if_pos rfl] at hrun
              have hlen : (done ++ [name]).length = done.length + 1 := by simp
              rw [← hlen] at hrun
              refine ih (done ++ [name]) rfl (by simp only [hlen]; omega) (by omega) ?_ hrun
              rintro ⟨hfits, hrest⟩
              apply hshort
              refine ⟨by omega, ?_⟩
              intro i hi
              cases i with
              | zero => exact hmem
              | succ i =>
                  have hi' : t.mem i = true := hrest i (by omega)
                  rw [ht] at hi'
                  exact hi'
          | false =>
              rw [if_neg (by simp [hmem])] at hupdate
              rw [Prog.bind_of_ok hupdate, if_neg (by decide)] at hrun
              cases hrun
              exact ⟨by decide, not_settled_of_filled rfl (by simp only; omega)⟩

/-- The number left over from before is a length of the built-in list, and there is memory for it. -/
def FsTypes.Builtin (s : FsTypes) : Prop :=
  s.numValidFileSystems = 0 ∨
    (s.numValidFileSystems ≤ validFsTypes.length ∧
      ∀ i, i ≤ s.numValidFileSystems → s.mem i = true)

/-- The state in which `use_builtin_fs` starts to copy its list. -/
def FsTypes.cleared (s : FsTypes) : FsTypes :=
  { s.answered with validFileSystems := some (filled [] (s.numValidFileSystems + 1)) }

theorem useBuiltinFs_start (hmem : s.mem 0 = true) :
    useBuiltinFs s = (do
      let rc ← fillFsTypes s.numValidFileSystems 0
      if rc = .none then
        finishFsTypes s.numValidFileSystems
        return .none
      else return rc : FsTypesM SgError) s.cleared := by
  rw [useBuiltinFs, Prog.bind_of_ok (Prog.gets_run _ _), Prog.bind_of_ok (onFsThread_calloc s),
    if_pos hmem]
  rfl

/-- With memory the number says how many names of the list are taken. -/
theorem useBuiltinFs_run (hle : s.numValidFileSystems ≤ validFsTypes.length)
    (hmem : ∀ i, i ≤ s.numValidFileSystems → s.mem i = true) :
    ∃ s', useBuiltinFs s = .ok (.none, s') ∧ s'.Settled ∧
      s'.names.Perm (validFsTypes.take s.numValidFileSystems) := by
  obtain ⟨names, s', hfill, hfilled, hnames, hnum⟩ := fillFsTypes_run (s := s.cleared)
    s.numValidFileSystems [] rfl (by simpa using hle) fun i hi => hmem (i + 1) (by omega)
  rw [List.nil_append, List.length_nil, List.drop_zero] at hnames
  have hlength : names.length = s.numValidFileSystems := by
    rw [hnames, List.length_take, Nat.min_eq_left hle]
  have hnum' : s'.numValidFileSystems = names.length := hnum.trans hlength.symm
  obtain ⟨s'', hfinish, hsettled, hperm⟩ := finishFsTypes_run (s := s') names
    (by rw [hfilled, hnum', Nat.add_sub_cancel_left]) hnum'.ge
  refine ⟨s'', ?_, hsettled, hnames ▸ hperm⟩
  rw [hlength] at hfinish
  rw [List.length_nil] at hfill
  rw [useBuiltinFs_start (hmem 0 (Nat.zero_le _)), Prog.bind_of_ok hfill, if_pos rfl,
    Prog.bind_of_ok hfinish]
  rfl

/-- Otherwise it leaves its list, or returns with an array that is not full. -/
theorem useBuiltinFs_short (hmem : s.mem 0 = true)
    (hshort : ¬ (s.numValidFileSystems ≤ validFsTypes.length ∧
      ∀ i, i < s.numValidFileSystems → s.cleared.mem i = true))
    {rc : SgError} {s' : FsTypes} (hrun : useBuiltinFs s = .ok (rc, s')) :
    rc ≠ .none ∧ ¬ s'.Settled := by
  rw [useBuiltinFs_start hmem] at hrun
  obtain ⟨rc', s1, hfill, hrest⟩ := Prog.bind_eq_ok.mp hrun
  have hnot := fillFsTypes_short (s := s.cleared) s.numValidFileSystems [] rfl
    (by simp [FsTypes.cleared, FsTypes.answered]) (Nat.zero_le _) (by simpa using hshort) hfill
  rw [if_neg hnot.1] at hrest
  cases hrest
  exact hnot

theorem useBuiltinFs_iff (s : FsTypes) :
    (∃ rc s', useBuiltinFs s = .ok (rc, s') ∧ s'.Settled) ↔ s.Builtin := by
  cases hmem : s.mem 0 with
  | false =>
      have hrun : ∃ t, useBuiltinFs s
          = .ok (.malloc, ⟨t, none, s.numValidFileSystems⟩) := by
        rw [useBuiltinFs, Prog.bind_of_ok (Prog.gets_run _ _), Prog.bind_of_ok (onFsThread_calloc s),
          if_neg (by simp [hmem])]
        exact ⟨_, rfl⟩
      obtain ⟨t, hrun⟩ := hrun
      constructor
      · rintro ⟨rc, s', hrun', hsettled⟩
        rw [hrun] at hrun'
        cases hrun'
        exact .inl (hsettled.eq_zero rfl)
      · rintro (hzero | ⟨-, hall⟩)
        · exact ⟨_, _, hrun, hzero⟩
        · rw [hall 0 (Nat.zero_le _)] at hmem
          cases hmem
  | true =>
      by_cases hgood : s.numValidFileSystems ≤ validFsTypes.length ∧
          ∀ i, i < s.numValidFileSystems → s.cleared.mem i = true
      · have hall : ∀ i, i ≤ s.numValidFileSystems → s.mem i = true := by
          intro i hi
          cases i with
          | zero => exact hmem
          | succ i => exact hgood.2 i (by omega)
        obtain ⟨s', hrun, hsettled, -⟩ := useBuiltinFs_run hgood.1 hall
        exact iff_of_true ⟨.none, s', hrun, hsettled⟩ (.inr ⟨hgood.1, hall⟩)
      · refine iff_of_false ?_ ?_
        · rintro ⟨rc, s', hrun, hsettled⟩
          exact (useBuiltinFs_short hmem hgood hrun).2 hsettled
        · rintro (hzero | ⟨hle, hall⟩)
          · apply hgood
            rw [hzero]
            exact ⟨Nat.zero_le _, fun i hi => absurd hi (Nat.not_lt_zero i)⟩
          · exact hgood ⟨hle, fun i hi => hall (i + 1) (by omega)⟩

/-! ### The functions -/

/-- The state in which `init_valid_fs_types` looks at the regular expression. -/
def FsTypes.opened (s : FsTypes) : FsTypes :=
  { s.answered with
    numValidFileSystems := 15
    validFileSystems := if s.mem 0 then some (List.replicate 16 none) else none }

/-- What a start needs: memory for the first array where the file is read, and for the built-in list
where it is not. -/
def FsTypes.Starts (s : FsTypes) : Option ProcFilesystems → Prop
  | none => s.Builtin
  | some file => if file.compiles then s.mem 0 = true else s.opened.Builtin

theorem readInto_run (hmem : s.mem 0 = true) (names : List CString) :
    (∃ all s' s'', readFsTypes 0 names s.opened = .ok (.ok all, s') ∧
      finishFsTypes all s' = .ok ((), s'') ∧ s''.Settled) ∨
    GaveUp (readFsTypes 0 names s.opened) := by
  have hentries : s.opened.validFileSystems
      = some (filled [] (s.opened.numValidFileSystems + 1 - ([] : List CString).length)) := by
    simp [FsTypes.opened, hmem, filled]
  rcases readFsTypes_run names hentries (Nat.zero_le _) with
    ⟨all, s', hread, hfilled, hlength⟩ | hfail
  · obtain ⟨s'', hfinish, hsettled, -⟩ := finishFsTypes_run _ hfilled hlength
    exact .inl ⟨all.length, s', s'', hread, hfinish, hsettled⟩
  · exact .inr hfail

/-- Without a first array the start follows a null pointer. -/
theorem readInto_null (hmem : s.mem 0 = false) (names : List CString) :
    (do let r ← readFsTypes 0 names
        match r with
        | .error rc => return rc
        | .ok i => do
            finishFsTypes i
            return .none : FsTypesM SgError) s.opened = .error .nullPointer := by
  have hnone : s.opened.validFileSystems = none := by simp [FsTypes.opened, hmem]
  cases names with
  | nil =>
      have hfinish : finishFsTypes 0 s.opened = .error .nullPointer := by
        rw [finishFsTypes, Prog.bind_of_ok (Prog.gets_run _ _)]
        simp only [id, hnone]
        rfl
      rw [readFsTypes, Prog.bind_of_ok (Prog.pure_run _ _)]
      exact Prog.bind_of_error hfinish _
  | cons name names =>
      have hupdate : updateFsType 0 name s.opened = .error .nullPointer := by
        rw [updateFsType, Prog.bind_of_ok (Prog.gets_run _ _), hnone]
        rfl
      have hroom : ¬ s.opened.numValidFileSystems ≤ 0 := Nat.not_succ_le_zero 14
      apply Prog.bind_of_error
      rw [readFsTypes, Prog.bind_of_ok (Prog.gets_run _ _), if_neg hroom,
        Prog.bind_of_ok (Prog.pure_run _ _)]
      exact Prog.bind_of_error hupdate _

theorem initValidFsTypes_iff (s : FsTypes) (proc : Option ProcFilesystems) :
    (∃ rc s', initValidFsTypes proc s = .ok (rc, s') ∧ s'.Settled) ↔ s.Starts proc := by
  cases proc with
  | none => exact useBuiltinFs_iff s
  | some file =>
      obtain ⟨compiles, names⟩ := file
      cases compiles with
      | false =>
          have hrun : initValidFsTypes (some ⟨false, names⟩) s = useBuiltinFs s.opened := rfl
          rw [hrun]
          exact useBuiltinFs_iff s.opened
      | true =>
          have hrun : initValidFsTypes (some ⟨true, names⟩) s = (do
              let r ← readFsTypes 0 names
              match r with
              | .error rc => return rc
              | .ok i => do
                  finishFsTypes i
                  return .none : FsTypesM SgError) s.opened := rfl
          rw [hrun]
          show _ ↔ s.mem 0 = true
          cases hmem : s.mem 0 with
          | false =>
              rw [readInto_null hmem names]
              refine iff_of_false ?_ Bool.false_ne_true
              rintro ⟨rc, s', herror, -⟩
              cases herror
          | true =>
              refine iff_of_true ?_ rfl
              rcases readInto_run hmem names with
                ⟨i, s', s'', hread, hfinish, hsettled⟩ | ⟨rc, s', hread, hnone, hzero⟩
              · refine ⟨.none, s'', ?_, hsettled⟩
                rw [Prog.bind_of_ok hread]
                simp only
                rw [Prog.bind_of_ok hfinish]
                rfl
              · refine ⟨rc, s', ?_, ?_⟩
                · rw [Prog.bind_of_ok hread]
                  rfl
                · unfold FsTypes.Settled
                  rw [hnone]
                  exact hzero

theorem freeFsTypes_run (h : s.Settled) (u : FsTypes) :
    freeFsTypes s.validFileSystems s.numValidFileSystems u = .ok ((), u) := by
  cases hentries : s.validFileSystems with
  | none => rfl
  | some entries =>
      have hlt := h.lt hentries
      rw [freeFsTypes, if_neg (by omega)]
      rfl

theorem copyFsTypes_run (names : List CString) (t : Thread) :
    ∃ rc t', copyFsTypes names t = .ok (rc, t') := by
  induction names generalizing t with
  | nil => exact ⟨.none, t, rfl⟩
  | cons name names ih =>
      rcases sgUpdateString_cases none (some name) t with ⟨t1, h1, -⟩ | ⟨t1, h1, -⟩
      · obtain ⟨rc, t', hrest⟩ := ih t1
        refine ⟨rc, t', ?_⟩
        rw [copyFsTypes, Prog.bind_of_ok h1]
        exact hrest
      · refine ⟨.malloc, t1, ?_⟩
        rw [copyFsTypes, Prog.bind_of_ok h1]
        rfl

/-- A new set is settled, and a call that fails leaves the old one. -/
theorem sgSetValidFilesystems_run (h : s.Settled) (validFs : Option (List CString)) :
    ∃ rc s', sgSetValidFilesystems validFs s = .ok (rc, s') ∧ s'.Settled := by
  have hempty : ∃ s', (do
      dropFsTypes
      freeFsTypes s.validFileSystems s.numValidFileSystems
      return .none : FsTypesM SgError) s = .ok (.none, s') ∧ s'.Settled := by
    refine ⟨{ s with validFileSystems := none, numValidFileSystems := 0 }, ?_, rfl⟩
    rw [dropFsTypes, Prog.bind_of_ok (Prog.modify_run _ _), Prog.bind_of_ok (freeFsTypes_run h _)]
    rfl
  cases validFs with
  | none =>
      obtain ⟨s', hrun, hsettled⟩ := hempty
      exact ⟨.none, s', hrun, hsettled⟩
  | some names =>
      cases names with
      | nil =>
          obtain ⟨s', hrun, hsettled⟩ := hempty
          exact ⟨.none, s', hrun, hsettled⟩
      | cons name names =>
          rw [sgSetValidFilesystems, Prog.bind_of_ok (Prog.gets_run _ _)]
          simp only
          rw [Prog.bind_of_ok (onFsThread_calloc s)]
          cases hmem : s.mem 0 with
          | false =>
              rw [if_neg Bool.false_ne_true]
              exact ⟨_, _, rfl, h⟩
          | true =>
              obtain ⟨rc, t, hcopy⟩ := copyFsTypes_run (name :: names).reverse s.answered.toThread
              rw [if_pos rfl, Prog.bind_of_ok (onFsThread_run hcopy)]
              by_cases hrc : rc = .none
              · rw [if_pos hrc, Prog.bind_of_ok (Prog.modify_run _ _)]
                simp only [id]
                rw [Prog.bind_of_ok (freeFsTypes_run h _)]
                obtain ⟨sorted, hsort, hperm, hpair⟩ := mergeSort_filled (name :: names) 0
                refine ⟨.none, _, rfl, settled_of_filled 0 ?_ hperm.length_eq.symm hpair⟩
                have hnames : filled (name :: names) 0 = (name :: names).map some := by simp [filled]
                rw [hnames] at hsort
                rw [hsort]
                simp [filled]
              · rw [if_neg hrc]
                exact ⟨rc, _, rfl, h⟩

theorem sgDiskDestroyComp_run (h : s.Settled) :
    sgDiskDestroyComp s = .ok ((), { s with validFileSystems := none }) := by
  rw [sgDiskDestroyComp, Prog.bind_of_ok (Prog.gets_run _ _)]
  simp only [id]
  rw [Prog.bind_of_ok (freeFsTypes_run h s)]
  rfl

/-! ### The readers -/

theorem cmpValidFs_eq_iff (a b : CString) :
    cmpValidFs (some a) (some b) = .eq ↔ b.map lowerAscii = a.map lowerAscii := by
  rw [cmpValidFs, strcasecmp, Std.LawfulEqCmp.compare_eq_iff_eq]
  exact eq_comm

/-- The entry at an index below the number, in the array or among the names. -/
theorem found_iff {entries : List (Option CString)} {num : Nat} (type : Option CString) :
    Search.Found (cmpValidFs type) entries 0 num ↔
      ∃ x ∈ entries.take num, cmpValidFs type x = .eq := by
  constructor
  · rintro ⟨i, x, -, hi, hx, heq⟩
    refine ⟨x, List.mem_of_getElem? (i := i) ?_, heq⟩
    rw [List.getElem?_take_of_lt hi, hx]
  · rintro ⟨x, hx, heq⟩
    obtain ⟨i, hi, rfl⟩ := List.getElem_of_mem hx
    have hlt : i < num := by
      rw [List.length_take] at hi
      omega
    refine ⟨i, _, Nat.zero_le i, hlt, ?_, heq⟩
    rw [← List.getElem?_take_of_lt hlt, List.getElem?_eq_getElem hi]

/-- The binary search of a settled set reads inside the array, and finds what `is_valid_fs_type` is
for. -/
theorem searchFsType_run (h : s.Settled) (type : Option CString) :
    searchFsType type s = .ok (isValidFsType s.names type, s) := by
  cases hentries : s.validFileSystems with
  | none =>
      have hnames : s.names = [] := by simp [FsTypes.names, hentries]
      rw [searchFsType, Prog.bind_of_ok (Prog.gets_run _ _)]
      simp only [id, hentries]
      rw [if_pos (h.eq_zero hentries), hnames]
      cases type <;> rfl
  | some entries =>
      have hlt := h.lt hentries
      unfold FsTypes.Settled at h
      rw [hentries] at h
      obtain ⟨found, hsearch, hfound⟩ := Search.bsearch_found
        (h.2.2.imp (monotone_of_fsTypeLE type)) hlt.le s.numValidFileSystems 0 _ (Nat.sub_le _ _) le_rfl
      rw [found_iff] at hfound
      have hnames : s.names = (entries.take s.numValidFileSystems).filterMap id := by
        simp [FsTypes.names, hentries]
      have hvalid : isValidFsType s.names type = true ↔
          ∃ x ∈ entries.take s.numValidFileSystems, cmpValidFs type x = .eq := by
        rw [hnames]
        cases type with
        | none =>
            have hall : ∀ x ∈ entries.take s.numValidFileSystems, x ≠ none := by
              intro x hx hnone
              have htake : entries.take s.numValidFileSystems = entries.takeWhile Option.isSome := by
                rw [← h.1]
                exact (List.prefix_iff_eq_take.mp (List.takeWhile_prefix _)).symm
              rw [htake] at hx
              have := List.mem_takeWhile_imp hx
              simp [hnone] at this
            apply iff_of_false Bool.false_ne_true
            rintro ⟨x, hx, heq⟩
            cases x with
            | none => exact hall _ hx rfl
            | some x => cases heq
        | some t =>
            simp only [isValidFsType, List.any_eq_true, decide_eq_true_eq, List.mem_filterMap, id]
            constructor
            · rintro ⟨x, ⟨y, hy, rfl⟩, heq⟩
              exact ⟨some x, hy, (cmpValidFs_eq_iff t x).mpr heq⟩
            · rintro ⟨x, hx, heq⟩
              cases x with
              | none => cases heq
              | some x => exact ⟨x, ⟨some x, hx, rfl⟩, (cmpValidFs_eq_iff t x).mp heq⟩
      have hsame : found = isValidFsType s.names type :=
        Bool.eq_iff_iff.mpr (hfound.trans hvalid.symm)
      rw [searchFsType, Prog.bind_of_ok (Prog.gets_run _ _)]
      simp only [id, hentries, hsearch, hsame]
      rfl

end Parts

/-! ### Runs -/

/-- The search of `is_valid_fs_type` and the pair `sg_get_valid_filesystems` returns stay inside the
array. -/
def FsTypes.Readable (s : FsTypes) : Prop :=
  (∀ type, ∃ found, searchFsType type s = .ok (found, s)) ∧
  ∀ num entries, sgGetValidFilesystems s = .ok ((num, entries), s) →
    match entries with
    | none => num = 0
    | some entries => num < entries.length

inductive FsOp where
  | init (proc : Option ProcFilesystems)
  | set (validFs : Option (List CString))
  | destroy

namespace FsOp

/-- The call, with its result thrown away. -/
def run : FsOp → FsTypesM Unit
  | .init proc => do
      let _ ← initValidFsTypes proc
  | .set validFs => do
      let _ ← sgSetValidFilesystems validFs
  | .destroy => sgDiskDestroyComp

/-- The call returns, and leaves a set that is settled and can be read. -/
def Settles (s : FsTypes) (op : FsOp) : Prop :=
  ∃ s', op.run s = .ok ((), s') ∧ s'.Settled ∧ s'.Readable

/-- A start gets the memory it needs and, where it falls back on the built-in list, finds a number that
the list has; and a shutdown finds an empty set. -/
def Careful (s : FsTypes) : FsOp → Prop
  | .init proc => s.Starts proc
  | .set _ => True
  | .destroy => s.numValidFileSystems = 0

end FsOp

theorem FsTypes.Settled.readable {s : FsTypes} (h : s.Settled) : s.Readable := by
  refine ⟨fun type => ⟨_, searchFsType_run h type⟩, ?_⟩
  intro num entries hget
  cases hget
  cases hentries : s.validFileSystems with
  | none => exact h.eq_zero hentries
  | some entries => exact h.lt hentries

theorem FsOp.settles_iff {s : FsTypes} {op : FsOp} (h : s.Settled) :
    op.Settles s ↔ op.Careful s := by
  have hcall : ∀ f : FsTypesM SgError, (∃ s', (do let _ ← f : FsTypesM Unit) s = .ok ((), s') ∧
      s'.Settled ∧ s'.Readable) ↔ ∃ rc s', f s = .ok (rc, s') ∧ s'.Settled := by
    intro f
    constructor
    · rintro ⟨s', hrun, hsettled, -⟩
      obtain ⟨rc, s1, hf, hrest⟩ := Prog.bind_eq_ok.mp hrun
      cases hrest
      exact ⟨rc, _, hf, hsettled⟩
    · rintro ⟨rc, s', hf, hsettled⟩
      refine ⟨s', ?_, hsettled, hsettled.readable⟩
      rw [Prog.bind_of_ok hf]
      rfl
  cases op with
  | init proc => exact (hcall _).trans (initValidFsTypes_iff s proc)
  | set validFs =>
      refine iff_of_true ?_ trivial
      exact (hcall _).mpr (sgSetValidFilesystems_run h validFs)
  | destroy =>
      constructor
      · rintro ⟨s', hrun, hsettled, -⟩
        rw [run, sgDiskDestroyComp_run h] at hrun
        cases hrun
        exact hsettled.eq_zero rfl
      · intro hzero
        have hsettled : ({ s with validFileSystems := none } : FsTypes).Settled := hzero
        exact ⟨_, sgDiskDestroyComp_run h, hsettled, hsettled.readable⟩

/-- From the start of the program, every call of a run leaves a set that is settled and can be read
exactly if every call is careful. -/
theorem validFs_run_iff (t : Thread) (ops : List FsOp) :
    Prog.Always FsOp.run FsOp.Settles ⟨t, none, 0⟩ ops ↔
      Prog.Always FsOp.run FsOp.Careful ⟨t, none, 0⟩ ops := by
  refine Prog.Always.congr (I := FsTypes.Settled) (V := fun _ _ => True) ?_ ?_ rfl ?_
  · intro s op hs _
    exact FsOp.settles_iff hs
  · intro s op s' hs _ hcareful hrun
    obtain ⟨s'', hrun', hsettled, -⟩ := (FsOp.settles_iff hs).mpr hcareful
    rw [hrun] at hrun'
    cases hrun'
    exact hsettled
  · exact Prog.always_true ops _

/-- The state at the start of the program, with memory for every request. -/
def freshFsTypes : FsTypes := ⟨⟨.clear, fun _ => true⟩, none, 0⟩

/-- A start with one file system, and a shutdown: the number is left without an array, and the next
search follows a null pointer. -/
theorem validFs_run_shutdown :
    (∃ s s', initValidFsTypes (some ⟨true, [literal "ext4"]⟩) freshFsTypes = .ok (.none, s) ∧
      sgDiskDestroyComp s = .ok ((), s') ∧ s'.validFileSystems = none ∧
      s'.numValidFileSystems = 1 ∧ searchFsType (some (literal "ext4")) s' = .error .nullPointer) ∧
    ¬ Prog.Always FsOp.run FsOp.Settles freshFsTypes
      [.init (some ⟨true, [literal "ext4"]⟩), .destroy] := by
  obtain ⟨s, hinit, hnum⟩ : ∃ s, initValidFsTypes (some ⟨true, [literal "ext4"]⟩) freshFsTypes
      = .ok (.none, s) ∧ s.numValidFileSystems = 1 := ⟨_, rfl, rfl⟩
  obtain ⟨rc, s', hinit', hsettled⟩ :=
    (initValidFsTypes_iff freshFsTypes (some ⟨true, [literal "ext4"]⟩)).mpr rfl
  rw [hinit] at hinit'
  cases hinit'
  have hdestroy := sgDiskDestroyComp_run hsettled
  constructor
  · refine ⟨s, _, hinit, hdestroy, rfl, hnum, ?_⟩
    rw [searchFsType, Prog.bind_of_ok (Prog.gets_run _ _)]
    simp only [id]
    rw [if_neg (by rw [hnum]; decide)]
    rfl
  · have hrun : (FsOp.init (some ⟨true, [literal "ext4"]⟩)).run freshFsTypes = .ok ((), s) := by
      rw [FsOp.run, Prog.bind_of_ok hinit]
      rfl
    rw [Prog.always_cons_of_ok hrun]
    rintro ⟨-, ⟨s', hrun', hsettled', -⟩, -⟩
    rw [FsOp.run, hdestroy] at hrun'
    cases hrun'
    have hzero : s.numValidFileSystems = 0 := hsettled'.eq_zero rfl
    rw [hnum] at hzero
    cases hzero

end Statgrab
