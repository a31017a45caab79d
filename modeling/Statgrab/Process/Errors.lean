import Statgrab.Process.Count

/-!
# The error of a failed read of the processes

Every code with which `sg_get_process_stats_int` returns early has been taken from the error of the thread, and
nothing that follows changes that error. The loop need not end, so the read is a `fn_int` only together with a
bound on its rounds.
-/

namespace Statgrab.Process

/-- `sg_get_process_stats_int` where `fuel` rounds are enough for its loop. -/
def fillProcessStats (src : ProcessSource) (fuel : Nat) : FillFn ProcessStats := fun vector => do
  let done ← sgGetProcessStatsInt src fuel vector
  match done with
  | none => Prog.fault .unfinished
  | some result => return result

/-- The getter whose loop has these rounds is the getter over that reader. -/
theorem sgGetProcessStats_iff {src : ProcessSource} {fuel : Nat} {now now' : Option Ptr}
    {w w' : World ProcessStats} {result : Access} :
    sgGetProcessStats src fuel now w = .ok (some (result, now'), w') ↔
      multiCompAccess ProcessStats.info (fillProcessStats src fuel) now w = .ok ((result, now'), w') := by
  rw [sgGetProcessStats, multiCompAccess, Prog.bind_run, Prog.bind_run]
  cases multiTarget ProcessStats.info now w with
  | error e => simp
  | ok r =>
      obtain ⟨target, w1⟩ := r
      cases target with
      | none => simp
      | some p =>
          simp only
          rw [Prog.bind_run, Prog.bind_run, fillProcessStats, Prog.bind_run]
          cases sgGetProcessStatsInt src fuel (some p) w1 with
          | error e => simp
          | ok r =>
              obtain ⟨done, w2⟩ := r
              cases done with
              | none => simp
              | some left =>
                  obtain ⟨rc, x⟩ := left
                  by_cases hrc : rc = .none
                  · simp only [hrc, if_true, Prog.pure_run]
                    rw [Prog.bind_run, Prog.bind_run]
                    cases succeed x (some SgError.none) w2 with
                    | error e => simp
                    | ok r => simp
                  · simp [hrc]

/-! ### The exits -/

theorem processPids_error {proc : ProcFs} {t t' : Thread} {rc : SgError}
    (h : processPids proc t = .ok (.error rc, t')) : t'.error = rc := by
  match huptime : proc.uptime with
  | .error errno =>
      rw [processPids, huptime] at h
      cases h
      rfl
  | .ok none =>
      rw [processPids, huptime] at h
      cases h
      rfl
  | .ok (some uptime) =>
      rw [processPids, huptime] at h
      obtain ⟨pids, t1, -, hrest⟩ := Prog.bind_eq_ok.mp h
      cases pids with
      | none =>
          cases hrest
          rfl
      | some chain => cases hrest

theorem readChunks_error {raw : Nat → UInt8} (chunks : List (List UInt8)) {proctitle : Option Block} {len : Nat}
    {t t' : Thread} {rc : SgError} (h : readChunks raw chunks proctitle len t = .ok (.error rc, t')) :
    t'.error = rc ∧ rc = .malloc := by
  induction chunks generalizing proctitle len t with
  | nil => cases h
  | cons chunk chunks ih =>
      rw [readChunks] at h
      obtain ⟨ok, t1, hrealloc, h⟩ := Prog.bind_eq_ok.mp h
      cases ok with
      | false =>
          cases h
          exact ⟨rfl, sgRealloc_refused (Nat.succ_ne_zero _) hrealloc⟩
      | true =>
          rw [if_pos rfl] at h
          cases hcopy : ((proctitle.getD []).resize raw (len + chunk.length + 1)).memcpy len chunk with
          | none =>
              rw [hcopy] at h
              cases h
          | some proctitle =>
              rw [hcopy] at h
              exact ih h

theorem readCmdline_refused {raw : Nat → UInt8} {file : CmdlineFile} {proctitle : Option Block} {t t' : Thread}
    {rc : SgError} (h : readCmdline raw file proctitle t = .ok (.refused rc, t')) : t'.error = rc := by
  obtain ⟨read, t1, hread, h⟩ := Prog.bind_eq_ok.mp h
  match read with
  | .error rc' =>
      have herr := (readChunks_error _ hread).1
      cases h
      exact herr
  | .ok (proctitle, len) =>
      simp only at h
      by_cases hfails : file.fails = true
      · rw [if_pos hfails] at h
        cases h
      · rw [if_neg hfails] at h
        cases proctitle with
        | none => cases h
        | some proctitle =>
            cases hfinish : finishTitle proctitle len with
            | none =>
                simp only [hfinish] at h
                cases h
            | some proctitle =>
                simp only [hfinish] at h
                cases h

theorem fillTitle_failed {src : ProcessSource} {file : CmdlineFile} {item item' : ProcessStats} {t t' : Thread}
    {rc : SgError} (h : fillTitle src file item t = .ok ((.failed rc, item'), t')) : t'.error = rc := by
  obtain ⟨read, t1, hread, h⟩ := Prog.bind_eq_ok.mp h
  cases read with
  | refused rc' =>
      have herr := readCmdline_refused hread
      cases h
      exact herr
  | unreadable => cases h
  | title block =>
      cases htext : block.cstr 0 with
      | none =>
          simp only [htext] at h
          cases h
      | some title =>
          simp only [htext] at h
          cases h
  | empty =>
      cases hname : item.processName with
      | none =>
          simp only [hname] at h
          cases h
      | some name =>
          simp only [hname] at h
          obtain ⟨title, t2, -, h⟩ := Prog.bind_eq_ok.mp h
          cases title with
          | none => cases h
          | some title => cases h

theorem fillRest_failed {src : ProcessSource} {files : ProcessFiles} {item item' : ProcessStats} {t t' : Thread}
    {rc : SgError} (h : fillRest src files item t = .ok ((.failed rc, item'), t')) : t'.error = rc := by
  cases hstatus : files.status with
  | none =>
      rw [fillRest, hstatus] at h
      cases h
  | some f =>
      rw [fillRest, hstatus] at h
      obtain ⟨⟨found, item1⟩, t1, -, h⟩ := Prog.bind_eq_ok.mp h
      cases found with
      | false => cases h
      | true =>
          cases hcmdline : files.cmdline with
          | none =>
              simp only [hcmdline] at h
              cases h
          | some file =>
              simp only [hcmdline] at h
              exact fillTitle_failed h

theorem fillProcess_failed {src : ProcessSource} {uptime : Int} {files : ProcessFiles} {name : Option CString}
    {stat : Text.Stream} {item item' : ProcessStats} {t t' : Thread} {rc : SgError}
    (h : fillProcess src uptime files name stat item t = .ok ((.failed rc, item'), t')) : t'.error = rc := by
  unfold fillProcess at h
  simp only at h
  split at h
  · obtain ⟨⟨rc1, processName⟩, t1, -, h⟩ := Prog.bind_eq_ok.mp h
    by_cases hrc1 : rc1 = .none
    · simp only [hrc1, if_true] at h
      exact fillRest_failed h
    · simp only [hrc1, if_false] at h
      cases h
      rfl
  · cases h

/-! ### The loop -/

theorem onSlot_failed {p : Ptr} {i : Nat} {fn : ProcessStats → ThreadM (Fill × ProcessStats)}
    (hfn : ∀ item item' t t' rc, fn item t = .ok ((.failed rc, item'), t') → t'.error = rc)
    {w w' : World ProcessStats} {rc : SgError} (h : onSlot p i fn w = .ok (.failed rc, w')) :
    w'.error = rc := by
  obtain ⟨v, -, h⟩ := deref_bind_eq_ok h
  obtain ⟨⟨fill, item⟩, w1, hitem, h⟩ := Prog.bind_eq_ok.mp (touch_bind_eq_ok h)
  obtain ⟨t, hrun, rfl⟩ := Prog.zoom_eq_ok.mp hitem
  cases h
  exact hfn _ _ _ _ _ hrun

theorem readProcess_returned {src : ProcessSource} {uptime : Int} {s : Loop} {files : ProcessFiles}
    {name : Option CString} {w w' : World ProcessStats} {rc : SgError} {x : Option Ptr}
    (h : readProcess src uptime s files name w = .ok (.returned rc x, w')) : w'.error = rc := by
  cases hstat : files.stat with
  | none =>
      rw [readProcess, hstat] at h
      cases h
  | some stat =>
      rw [readProcess, hstat] at h
      obtain ⟨updated, w1, hupdated, h⟩ := Prog.bind_eq_ok.mp h
      rcases updated with rc' | _ | p
      · have herr := vectorUpdated_error hupdated
        cases h
        exact herr
      · cases h
      · obtain ⟨fill, w2, hfill, h⟩ := Prog.bind_eq_ok.mp h
        cases fill with
        | skipped => cases h
        | failed rc' =>
            have herr := onSlot_failed (fun _ _ _ _ _ => fillProcess_failed) hfill
            cases h
            exact herr
        | filled => cases h

theorem round_returned {src : ProcessSource} {uptime : Int} {s : Loop} {page : List Int} {pages : List (List Int)}
    {w w' : World ProcessStats} {rc : SgError} {x : Option Ptr}
    (h : round src uptime s page pages w = .ok (.returned rc x, w')) : w'.error = rc := by
  cases hpid : page[s.pidItem]? with
  | none =>
      -- the end of a page is no exit
      rw [round, hpid] at h
      cases pages with
      | nil => cases h
      | cons page pages =>
          obtain ⟨updated, w1, -, h⟩ := Prog.bind_eq_ok.mp h
          cases updated with
          | error rc' => cases h
          | ok y => cases h
  | some pid =>
      rw [round, hpid] at h
      cases hcomm : readComm (src.files pid).comm with
      | empty =>
          simp only [hcomm] at h
          cases h
      | closed =>
          simp only [hcomm] at h
          exact readProcess_returned h
      | name name =>
          simp only [hcomm] at h
          exact readProcess_returned h

theorem processLoop_returned {src : ProcessSource} {uptime : Int} (fuel : Nat) {s s' : Loop}
    {w w' : World ProcessStats} {rc : SgError}
    (h : processLoop src uptime fuel s w = .ok (some (some rc, s'), w')) : w'.error = rc := by
  induction fuel generalizing s w with
  | zero =>
      cases hpages : s.pages with
      | nil =>
          rw [processLoop, hpages] at h
          cases h
      | cons page pages =>
          rw [processLoop, hpages] at h
          cases h
  | succ fuel ih =>
      cases hpages : s.pages with
      | nil =>
          rw [processLoop, hpages] at h
          cases h
      | cons page pages =>
          rw [processLoop, hpages] at h
          obtain ⟨r, w1, hround, h⟩ := Prog.bind_eq_ok.mp h
          cases r with
          | next s1 => exact ih h
          | returned rc' x =>
              have herr := round_returned hround
              cases h
              exact herr

theorem trimItems_error {vector x : Option Ptr} {n : Nat} {w w' : World ProcessStats} {rc : SgError}
    (h : trimItems vector n w = .ok ((rc, x), w')) (hne : rc ≠ .none) : w'.error = rc := by
  cases vector with
  | none =>
      cases h
      exact absurd rfl hne
  | some p =>
      obtain ⟨v, -, h⟩ := deref_bind_eq_ok h
      by_cases hn : n = v.usedCount
      · rw [if_neg (not_not.mpr hn)] at h
        cases h
        exact absurd rfl hne
      · rw [if_pos hn, vectorUpdate_eq] at h
        obtain ⟨updated, w1, hupdated, h⟩ := Prog.bind_eq_ok.mp h
        cases updated with
        | error rc' =>
            have herr := vectorUpdated_error hupdated
            cases h
            exact herr
        | ok y =>
            cases h
            exact absurd rfl hne

theorem sgGetProcessStatsInt_error {src : ProcessSource} {fuel : Nat} {vector x : Option Ptr}
    {w w' : World ProcessStats} {rc : SgError}
    (h : sgGetProcessStatsInt src fuel vector w = .ok (some (rc, x), w')) (hne : rc ≠ .none) :
    w'.error = rc := by
  obtain ⟨pids, w1, hpids, h⟩ := Prog.bind_eq_ok.mp h
  match pids with
  | .error rc' =>
      obtain ⟨t, hrun, rfl⟩ := Prog.zoom_eq_ok.mp hpids
      cases h
      exact processPids_error hrun
  | .ok (uptime, chain) =>
      obtain ⟨grown, w2, -, h⟩ := Prog.bind_eq_ok.mp h
      cases grown with
      | error rc' => cases h
      | ok vector =>
          obtain ⟨done, w3, hloop, h⟩ := Prog.bind_eq_ok.mp h
          match done with
          | none => cases h
          | some (some rc', s) =>
              have herr := processLoop_returned fuel hloop
              cases h
              exact herr
          | some (none, s) =>
              obtain ⟨r, w4, htrim, h⟩ := Prog.bind_eq_ok.mp h
              cases h
              exact trimItems_error htrim hne

theorem fillProcessStats_error {src : ProcessSource} {fuel : Nat} {vector x : Option Ptr}
    {w w' : World ProcessStats} {rc : SgError}
    (h : fillProcessStats src fuel vector w = .ok ((rc, x), w')) (hne : rc ≠ .none) : w'.error = rc := by
  obtain ⟨done, w1, hread, h⟩ := Prog.bind_eq_ok.mp h
  cases done with
  | none => cases h
  | some result =>
      cases h
      exact sgGetProcessStatsInt_error hread hne

end Statgrab.Process
