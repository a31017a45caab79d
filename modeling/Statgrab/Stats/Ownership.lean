import Statgrab.Access.Ownership
import Statgrab.Process.Errors
import Statgrab.Stats.Disk
import Statgrab.Stats.NetIface
import Statgrab.Stats.Users

/-!
# What the readers do with their vectors

The `fn_int` functions of the statistics with many items hand their vector on, as the accessors rely on. The one
of the filesystems has a second vector, the list of all mounts, which it frees at its end. It leaves before that
where `VECTOR_UPDATE` is refused memory: the macro's cleanup was redefined to nothing, and the list is lost.
-/

namespace Statgrab

theorem sgGetNetworkIoStatsInt_tidy (file : NetworkFile) : (sgGetNetworkIoStatsInt file).Tidy := by
  intro x
  cases file with
  | unopened errno =>
      apply (onThread_hands _ _).bind
      intro rc
      exact .pure rfl
  | untitled errno =>
      apply (onThread_hands _ _).bind
      intro rc
      exact .pure rfl
  | titled lines => exact fillItems_tidy _ _ _ _ x

theorem sgGetNetworkIfaceStatsInt_tidy (speedHi : Bool) (now : Int) (file : IfaceFile) :
    (sgGetNetworkIfaceStatsInt speedHi now file).Tidy := by
  intro x
  cases file with
  | unopened errno =>
      apply (onThread_hands _ _).bind
      intro rc
      exact .pure rfl
  | socket errno =>
      apply (onThread_hands _ _).bind
      intro rc
      exact .pure rfl
  | untitled =>
      apply (onThread_hands _ _).bind
      intro rc
      exact .pure rfl
  | titled lines => exact fillItems_tidy _ _ _ _ x

theorem sgGetDiskIoStatsInt_tidy (file : DiskFile) : (sgGetDiskIoStatsInt file).Tidy := by
  intro x
  unfold sgGetDiskIoStatsInt
  cases x with
  | none =>
      apply (onThread_hands _ _).bind
      intro rc
      exact .pure rfl
  | some p =>
      cases file.lines with
      | error errno =>
          apply (onThread_hands _ _).bind
          intro rc
          exact .pure rfl
      | ok lines => exact fillItems_tidy _ _ _ _ (some p)

/-! ### Users -/

def UserReading.Keeps {β : Type} (x : Prog Fault UserReading β) : Prop := ∀ s b s',
  x s = .ok (b, s') → s.memory.Turns s'.memory (held s.vector) (held s'.vector)

namespace UserReading.Keeps

theorem pure {β : Type} (b : β) : Keeps (Pure.pure b : Prog Fault UserReading β) := by
  intro s c s' hrun
  cases hrun
  exact .refl _ _

theorem bind {β γ : Type} {x : Prog Fault UserReading β} {f : β → Prog Fault UserReading γ} (hx : Keeps x)
    (hf : ∀ b, Keeps (f b)) : Keeps (x >>= f) := by
  intro s c s'' hrun
  obtain ⟨b, s', hrun, hrest⟩ := Prog.bind_eq_ok.mp hrun
  exact (hx s b s' hrun).trans (hf b s' c s'' hrest)

theorem ite {β : Type} {c : Prop} [Decidable c] {x y : Prog Fault UserReading β} (hx : Keeps x) (hy : Keeps y) :
    Keeps (if c then x else y) := by
  by_cases hc : c
  · rw [if_pos hc]
    exact hx
  · rw [if_neg hc]
    exact hy

theorem call (event : LoginEvent) : Keeps (userVectorOps.call event) := by
  intro s u s' hrun
  cases hrun
  exact .refl _ _

theorem updateUsers (numUsers : Nat) : Keeps (userVectorOps.updateUsers numUsers) := by
  intro s b s' hrun
  obtain ⟨x, s1, hget, hrun⟩ := Prog.bind_eq_ok.mp hrun
  cases hget
  obtain ⟨r, s2, hzoom, hrun⟩ := Prog.bind_eq_ok.mp hrun
  obtain ⟨w, hupdate, rfl⟩ := Prog.zoom_eq_ok.mp hzoom
  have hturn := vectorUpdated_hands _ _ _ _ _ _ hupdate
  cases r with
  | error rc =>
      cases hrun
      exact hturn
  | ok y =>
      cases hrun
      exact hturn

theorem onUser (i : Nat) (fn : ItemFn UserStats) : Keeps (userVectorOps.onUser i fn) := by
  intro s b s' hrun
  obtain ⟨x, s1, hget, hrun⟩ := Prog.bind_eq_ok.mp hrun
  cases hget
  cases hvector : s.vector with
  | none =>
      rw [hvector] at hrun
      cases hrun
  | some p =>
      rw [hvector] at hrun
      obtain ⟨w, hitem, rfl⟩ := Prog.zoom_eq_ok.mp hrun
      rw [hvector]
      exact onItem_hands p i fn _ _ _ hitem

theorem previousError : Keeps userVectorOps.previousError := by
  intro s b s' hrun
  have hrun : onUserVectors (onThread returnFromPreviousError) s = .ok (b, s') := hrun
  obtain ⟨w, herror, rfl⟩ := Prog.zoom_eq_ok.mp hrun
  exact onThread_hands _ _ _ _ _ herror

theorem readLogins {β : Type} (source : LoginSource β) (records : List β) (numUsers : Nat) :
    Keeps (Statgrab.readLogins userVectorOps source records numUsers) := by
  induction records generalizing numUsers with
  | nil => exact (call _).bind fun _ => pure _
  | cons record records ih =>
      apply (call _).bind
      intro _
      apply ite (ih numUsers)
      apply (updateUsers numUsers).bind
      intro updated
      cases updated with
      | error rc => exact (call _).bind fun _ => (call _).bind fun _ => pure _
      | ok u =>
          apply (onUser _ _).bind
          intro rc
          apply ite
          · exact (call _).bind fun _ => (call _).bind fun _ => previousError.bind fun rc => pure _
          · exact (onUser _ _).bind fun _ => ih (numUsers + 1)

theorem readDatabase {β : Type} (source : LoginSource β) (records : List β) :
    Keeps (Statgrab.readDatabase userVectorOps source records) := by
  apply (call _).bind
  intro _
  apply (readLogins source records 0).bind
  intro result
  cases result with
  | error rc => exact pure _
  | ok numUsers => exact (call _).bind fun _ => pure _

theorem finishUsers (result : Except SgError Nat) : Keeps (Statgrab.finishUsers userVectorOps result) := by
  cases result with
  | error rc => exact pure _
  | ok numUsers => exact (call _).bind fun _ => pure _

theorem sgGetUserStatsInt (build : LoginBuild) (now : Int) (utmpx : List Utmpx) (utmp : List Utmp) :
    Keeps (Statgrab.sgGetUserStatsInt userVectorOps build now utmpx utmp) := by
  unfold Statgrab.sgGetUserStatsInt
  cases build.databases with
  | utmpOnly => exact (readDatabase _ _).bind finishUsers
  | utmpxOnly => exact (call _).bind fun _ => (readDatabase _ _).bind finishUsers
  | both =>
      apply (call _).bind
      intro _
      apply (readDatabase _ _).bind
      intro result
      split
      · exact (readDatabase _ _).bind finishUsers
      · exact finishUsers _

end UserReading.Keeps

theorem fillUserStats_tidy (build : LoginBuild) (now : Int) (utmpx : List Utmpx) (utmp : List Utmp) :
    (fillUserStats build now utmpx utmp).Tidy := by
  intro x w r w' hrun
  rw [fillUserStats] at hrun
  cases hread : sgGetUserStatsInt userVectorOps build now utmpx utmp ⟨w, x, []⟩ with
  | error e =>
      rw [hread] at hrun
      cases hrun
  | ok result =>
      rw [hread] at hrun
      cases hrun
      exact UserReading.Keeps.sgGetUserStatsInt build now utmpx utmp _ _ _ hread

/-! ### Processes -/

namespace Process

def Round.vector : Round → Option Ptr
  | .next s => s.vector
  | .returned _ vector => vector

theorem onSlot_hands {α β : Type} (p : Ptr) (i : Nat) (fn : α → ThreadM (β × α)) :
    Handing {p} (onSlot p i fn) fun _ => {p} := by
  apply (deref_hands _ p).bind
  intro v
  apply (touch_hands _ v _).bind
  intro _
  apply (onThread_hands _ _).bind
  intro r
  apply (put_hands p _).bind
  intro _
  exact .pure rfl

theorem nextPage_hands (s : Loop) (pages : List (List Int)) :
    Handing (held s.vector) (nextPage s pages) fun r => held r.vector := by
  cases pages with
  | nil => exact .pure rfl
  | cons page rest =>
      apply (vectorUpdated_hands _ _ _).bind
      intro r
      cases r with
      | error rc => exact .fault _
      | ok y => exact .pure rfl

theorem readProcess_hands (src : ProcessSource) (uptime : Int) (s : Loop) (files : ProcessFiles)
    (name : Option CString) :
    Handing (held s.vector) (readProcess src uptime s files name) fun r => held r.vector := by
  unfold readProcess
  cases files.stat with
  | none => exact .pure rfl
  | some stat =>
      apply (vectorUpdated_hands _ _ _).bind
      intro r
      match r with
      | .error rc => exact .pure rfl
      | .ok none => exact .fault _
      | .ok (some p) =>
          apply (onSlot_hands p _ _).bind
          intro fill
          cases fill with
          | skipped => exact .pure rfl
          | failed rc => exact .pure rfl
          | filled => exact .pure rfl

theorem round_hands (src : ProcessSource) (uptime : Int) (s : Loop) (page : List Int) (pages : List (List Int)) :
    Handing (held s.vector) (round src uptime s page pages) fun r => held r.vector := by
  unfold round
  cases page[s.pidItem]? with
  | none => exact nextPage_hands s pages
  | some pid =>
      cases hcomm : readComm (src.files pid).comm with
      | empty =>
          simp only [hcomm]
          exact .pure rfl
      | closed =>
          simp only [hcomm]
          exact readProcess_hands _ _ _ _ _
      | name name =>
          simp only [hcomm]
          exact readProcess_hands _ _ _ _ _

theorem processLoop_turns {src : ProcessSource} {uptime : Int} (fuel : Nat) {s s' : Loop}
    {left : Option SgError} {w w' : World ProcessStats}
    (hrun : processLoop src uptime fuel s w = .ok (some (left, s'), w')) :
    w.memory.Turns w'.memory (held s.vector) (held s'.vector) := by
  induction fuel generalizing s w with
  | zero =>
      cases hpages : s.pages with
      | nil =>
          rw [processLoop, hpages] at hrun
          cases hrun
          exact .refl _ _
      | cons page pages =>
          rw [processLoop, hpages] at hrun
          cases hrun
  | succ fuel ih =>
      cases hpages : s.pages with
      | nil =>
          rw [processLoop, hpages] at hrun
          cases hrun
          exact .refl _ _
      | cons page pages =>
          rw [processLoop, hpages] at hrun
          obtain ⟨r, w1, hround, hrun⟩ := Prog.bind_eq_ok.mp hrun
          have hturn := round_hands _ _ _ _ _ _ _ _ hround
          cases r with
          | next s1 => exact hturn.trans (ih hrun)
          | returned rc vector =>
              cases hrun
              exact hturn

theorem trimItems_hands (vector : Option Ptr) (n : Nat) :
    Handing (held vector) (trimItems vector n) fun r => held r.2 := by
  cases vector with
  | none => exact .pure rfl
  | some p =>
      apply (deref_hands _ p).bind
      intro v
      apply Prog.Hands.ite
      · intro _
        exact vectorUpdate_hands (some p) _ fun y => .pure rfl
      · intro _
        exact .pure rfl

theorem fillProcessStats_tidy (src : ProcessSource) (fuel : Nat) : (fillProcessStats src fuel).Tidy := by
  intro x w r w' hrun
  obtain ⟨done, w1, hread, hrun⟩ := Prog.bind_eq_ok.mp hrun
  cases done with
  | none => cases hrun
  | some result =>
      cases hrun
      obtain ⟨pids, w2, hpids, hread⟩ := Prog.bind_eq_ok.mp hread
      have hturn := onThread_hands (held x) _ _ _ _ hpids
      match pids with
      | .error rc =>
          cases hread
          exact hturn
      | .ok (uptime, chain) =>
          obtain ⟨grown, w3, hgrown, hread⟩ := Prog.bind_eq_ok.mp hread
          have hupdated := hturn.trans (vectorUpdated_hands _ _ _ _ _ _ hgrown)
          cases grown with
          | error rc => cases hread
          | ok y =>
              obtain ⟨done, w4, hloop, hread⟩ := Prog.bind_eq_ok.mp hread
              match done with
              | none => cases hread
              | some (some rc, s) =>
                  cases hread
                  exact hupdated.trans (processLoop_turns fuel hloop)
              | some (none, s) =>
                  obtain ⟨r, w5, htrim, hread⟩ := Prog.bind_eq_ok.mp hread
                  cases hread
                  exact (hupdated.trans (processLoop_turns fuel hloop)).trans
                    (trimItems_hands _ _ _ _ _ htrim)

end Process

/-! ### Filesystems -/

theorem sgGetFsListInt_tidy (table : MountTable) : (sgGetFsListInt table).Tidy := by
  intro x
  unfold sgGetFsListInt
  cases table.mounts with
  | error errno =>
      apply (onThread_hands _ _).bind
      intro rc
      exact .pure rfl
  | ok mounts =>
      apply (fillItems_tidy _ _ _ _ x).bind
      intro r
      apply Prog.Hands.ite
      · intro _
        exact .pure rfl
      · intro _
        apply Prog.Hands.ite
        · intro _
          apply (onThread_hands _ _).bind
          intro rc
          exact .pure rfl
        · intro _
          exact .pure rfl

theorem fillValid_hands (table : MountTable) (tmp : Ptr) (i : Nat) (found : BitTable × Nat) :
    Handing {tmp} (fillValid table tmp i found) fun _ => {tmp} := by
  induction i generalizing found with
  | zero => exact .pure rfl
  | succ i ih =>
      apply (deref_hands _ tmp).bind
      intro v
      apply (touch_hands _ v _).bind
      intro _
      apply Prog.Hands.ite
      · intro _
        apply (onItem_hands tmp i _).bind
        intro rc
        apply Prog.Hands.ite
        · intro _
          exact ih _
        · intro _
          exact ih _
      · intro _
        exact ih _

theorem validFs_hands (table : MountTable) (err : SgError) (tmp : Option Ptr) :
    Handing (held tmp) (validFs table err tmp) fun _ => held tmp := by
  cases tmp with
  | none => exact .pure rfl
  | some t =>
      apply Prog.Hands.ite
      · intro _
        apply (deref_hands _ t).bind
        intro v
        exact fillValid_hands table t _ _
      · intro _
        exact .pure rfl

theorem copyValid_hands (tmp items : Ptr) (valid : BitTable) (fuel i j : Nat) :
    Handing {items} (copyValid tmp items valid fuel i j) fun _ => {items} := by
  induction fuel generalizing i j with
  | zero => exact .pure rfl
  | succ fuel ih =>
      apply (deref_hands _ tmp).bind
      intro t
      cases bitScanFwd valid ((t.usedCount / 32 + 1) * 32 - i) i with
      | none => exact .fault _
      | some i =>
          apply Prog.Hands.ite
          · intro _
            exact .fault _
          · intro _
            apply (touch_hands _ t _).bind
            intro _
            apply (onItem_hands items j _).bind
            intro rc
            exact ih _ _

/-- The end of `sg_get_fs_stats_int`, once `VECTOR_UPDATE` has been passed. -/
theorem storeFs_rest_hands (err : SgError) (tmp : Option Ptr) (valid : BitTable) (n : Nat) (y : Option Ptr) :
    Handing (held y + held tmp) (do
      match tmp, y with
      | some t, some p => copyValid t p valid n 0 0
      | _, _ => pure ()
      sgVectorFree tmp
      return (err, y) : VecM FsStats (SgError × Option Ptr)) fun r => held r.2 := by
  have hfree : Handing (held y + held tmp) (do
      sgVectorFree tmp
      return (err, y) : VecM FsStats (SgError × Option Ptr)) fun r => held r.2 := by
    have hfree := (sgVectorFree_hands (α := FsStats) tmp).frame (held y)
    rw [add_comm] at hfree
    apply hfree.bind
    intro _
    exact .pure (zero_add _).symm
  cases tmp with
  | none => exact hfree
  | some t =>
      cases y with
      | none => exact hfree
      | some p =>
          apply ((copyValid_hands t p valid n 0 0).frame (held (some t))).bind
          intro _
          exact hfree

/-- A read of the filesystems that returned keeps the balance, but for the list of the mounts, which it
loses where `VECTOR_UPDATE` was refused the memory for the `n` valid ones, and only there. -/
theorem sgGetFsStatsInt_lost {table : MountTable} {w w' : World FsStats} {x y : Option Ptr} {rc : SgError}
    (hrun : sgGetFsStatsInt table x w = .ok ((rc, y), w')) :
    ∃ err tmp w1 valid n w2 z w3, sgGetFsListInt table none w = .ok ((err, tmp), w1) ∧
      validFs table err tmp w1 = .ok ((valid, n), w2) ∧
      vectorCreateOrResize FsStats.info x n w2 = .ok (z, w3) ∧
      w.memory.Turns w'.memory (held x) (held y + if z = none ∧ n ≠ 0 then held tmp else 0) := by
  obtain ⟨⟨err, tmp⟩, w1, hlist, hrun⟩ := Prog.bind_eq_ok.mp hrun
  obtain ⟨⟨valid, n⟩, w2, hvalid, hrun⟩ := Prog.bind_eq_ok.mp hrun
  obtain ⟨z, w3, hupdate, hrun⟩ := Prog.bind_eq_ok.mp hrun
  refine ⟨err, tmp, w1, valid, n, w2, z, w3, hlist, hvalid, hupdate, ?_⟩
  have h1 := (sgGetFsListInt_tidy table none).frame (held x) w _ w1 hlist
  have h2 := (validFs_hands table err tmp).frame (held x) w1 _ w2 hvalid
  have h3 := (vectorCreateOrResize_hands FsStats.info x n).frame (held tmp) w2 z w3 hupdate
  rw [held_none, zero_add] at h1
  rw [add_comm] at h3
  have hturn := (h1.trans h2).trans h3
  cases z with
  | some p =>
      rw [if_neg (by simp), add_zero]
      exact hturn.trans (storeFs_rest_hands err tmp valid n (some p) w3 _ w' hrun)
  | none =>
      by_cases hn : n = 0
      · subst hn
        rw [if_neg (by simp), add_zero]
        exact hturn.trans (storeFs_rest_hands err tmp valid 0 none w3 _ w' hrun)
      · have hcount : (CountArg.count n).negated = false := decide_eq_false hn
        simp only [hcount, Bool.false_eq_true, if_false] at hrun
        obtain ⟨rc', w4, hthread, hret⟩ := Prog.bind_eq_ok.mp hrun
        have hsame := onThread_hands (held none + held tmp) _ w3 rc' w4 hthread
        cases hret
        rw [if_pos ⟨rfl, hn⟩]
        exact hturn.trans hsame

theorem sgGetFsStatsInt_loses (table : MountTable) : (sgGetFsStatsInt table).Loses 1 := by
  intro x w r w' hrun
  obtain ⟨err, tmp, w1, valid, n, w2, z, w3, -, -, -, hturn⟩ := sgGetFsStatsInt_lost hrun
  refine ⟨_, ?_, hturn⟩
  split
  · cases tmp with
    | none => exact Nat.zero_le 1
    | some t => exact Nat.le_refl 1
  · exact Nat.zero_le 1

def oneMount : MountTable :=
  { mounts := .ok [⟨[100], [47], [101], []⟩], errnoAfter := 0, now := 0
    statvfs := fun _ => .ok ⟨1, 1, 1, 1, 1, 1, 1, 1⟩, statTime := fun _ => 0, validTypes := [[101]] }

/-- The vector of the list and the four strings of its item are granted, and nothing after them. -/
def fiveGranted : World FsStats :=
  { glob := .clear, mem := fun n => n < 5, store := fun _ => none, next := 0
    raw := fun _ _ => ⟨none, none, none, none, .unknown, 0, 0, 0, 0, 0, 0, 0, 0, 0, 0, 0, 0, 0, 0, 0⟩
    bounded := true, inits := 0, destroys := 0, frees := fun _ => 0 }

theorem oneMount_run :
    (sgGetFsStatsInt oneMount none fiveGranted).toOption.map
      (fun r => (r.1, r.2.frees 0, (r.2.store 0).isSome)) = some ((.malloc, none), 0, true) := by
  decide +kernel

theorem sgGetFsStatsInt_lost_oneMount :
    ∃ w' : World FsStats, sgGetFsStatsInt oneMount none fiveGranted = .ok ((.malloc, none), w') ∧
      w'.frees 0 = 0 ∧ (w'.store 0).isSome ∧ fiveGranted.memory.Turns w'.memory 0 {0} := by
  have hrun := oneMount_run
  generalize hread : sgGetFsStatsInt oneMount none fiveGranted = r at hrun
  cases r with
  | error e => cases hrun
  | ok r =>
      obtain ⟨⟨rc, y⟩, w'⟩ := r
      simp only [Except.toOption, Option.map_some, Option.some.injEq, Prod.mk.injEq] at hrun
      obtain ⟨⟨rfl, rfl⟩, hfrees, hstore⟩ := hrun
      refine ⟨w', rfl, hfrees, hstore, ?_⟩
      obtain ⟨err, tmp, w1, valid, n, w2, z, w3, -, -, -, hturn⟩ := sgGetFsStatsInt_lost hread
      have hempty : fiveGranted.memory.Accounts 0 fun _ => False := by
        refine ⟨Multiset.nodup_zero, fun p hp => absurd hp (Multiset.notMem_zero p),
          fun p hp => absurd hp (Multiset.notMem_zero p), fun p hp => hp.elim, fun p hp => ?_, fun p _ => ⟨rfl, rfl⟩⟩
        exact absurd hp (Nat.not_lt_zero p)
      -- the vector that is there is one that is held, so it is the list
      have hmem : 0 ∈ held none + if z = none ∧ n ≠ 0 then held tmp else 0 := by
        by_contra hnot
        have habsent : w'.store 0 = none := (hturn _ hempty).1.absent hnot id
        rw [habsent] at hstore
        cases hstore
      by_cases hlost : z = none ∧ n ≠ 0
      · rw [if_pos hlost, held_none, zero_add] at hturn hmem
        rw [mem_held.mp hmem] at hturn
        exact hturn
      · rw [if_neg hlost] at hmem
        exact absurd hmem (Multiset.notMem_zero 0)

end Statgrab
