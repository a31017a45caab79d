import Statgrab.Tools

/-!
# The pids of `/proc`

`scan_proc_dir` reads the names of `/proc` and keeps those that start with a number, in a chain of pages
that are allocated as they fill up. None of its allocations sets an error: where one is refused, the
caller gets NULL and whatever error the thread had before.
-/

namespace Statgrab

/-- What a scan of `/proc` meets: the errno of a failed `opendir`, or the names, and what `readdir_r`
returns after the last of them. A name is the pid that `sscanf` finds in it, if it finds one. -/
structure ProcDir where
  entries : Except Int (List (Option Int))
  readdirRc : Int

/-- The pages of pids: the full ones, and the one that is being filled. -/
structure PidChain where
  full : List (List Int)
  last : List Int
  deriving DecidableEq

/-- `PIPD_IS_FULL`: the header of a page has 16 bytes, and a pid has 4. -/
def pipdIsFull (pageSize nitems : Nat) : Bool := decide (pageSize < 16 + 4 * (nitems + 1))

/-- `add_pid_to_pids_in_proc_dir`: the chain with the pid, or NULL. -/
def addPid (pageSize : Nat) (pid : Int) (chain : PidChain) : ThreadM (Option PidChain) :=
  if pipdIsFull pageSize chain.last.length then do
    let ok ← calloc
    if ok then return some ⟨chain.full ++ [chain.last], [pid]⟩ else return none
  else return some { chain with last := chain.last ++ [pid] }

/-- The loop of `scan_proc_dir` over the names. -/
def readPids (pageSize : Nat) : List (Option Int) → PidChain → ThreadM (Option PidChain)
  | [], chain => return some chain
  | none :: entries, chain => readPids pageSize entries chain
  | some pid :: entries, chain => do
      let added ← addPid pageSize pid chain
      match added with
      | none => return none
      | some chain => readPids pageSize entries chain

def scanProcDir (pageSize : Nat) (dir : ProcDir) : ThreadM (Option PidChain) := do
  let cnt ← calloc
  if cnt then
    let dirEntry ← calloc
    if dirEntry then
      match dir.entries with
      | .error errno =>
          sgSetError .opendir errno "/proc"
          return none
      | .ok entries =>
          let chain ← readPids pageSize entries ⟨[], []⟩
          match chain with
          | none => return none
          | some chain =>
              if dir.readdirRc ≠ 0 then sgSetError .readdir dir.readdirRc "/proc"
              return some chain
    else return none
  else return none

/-- What `sg_get_process_stats_int` meets before its loop: the errno of a failed open of `/proc/uptime`
or the number that is read there, if one is; the pids; and the size of a page. -/
structure ProcFs where
  uptime : Except Int (Option Int)
  dir : ProcDir
  pageSize : Nat

/-- `sg_get_process_stats_int` up to its loop over the pids: the code it returns before, or the uptime and
the pids. -/
def processPids (proc : ProcFs) : ThreadM (Except SgError (Int × PidChain)) :=
  match proc.uptime with
  | .error errno => do
      let rc ← returnWithSetError .open errno "/proc/uptime"
      return .error rc
  | .ok none => do
      let rc ← returnWithSetError .parse 0 ""
      return .error rc
  | .ok (some uptime) => do
      let pids ← scanProcDir proc.pageSize proc.dir
      match pids with
      | none =>
          let rc ← returnFromPreviousError
          return .error rc
      | some chain => return .ok (uptime, chain)

/-! ### Where there are no pids -/

section

variable {pageSize : Nat} {t t' : Thread}

@[simp] theorem calloc_run (t : Thread) : calloc t = .ok (t.mem 0, t.answered) := rfl

theorem addPid_glob {pid : Int} {chain : PidChain} {added : Option PidChain}
    (h : addPid pageSize pid chain t = .ok (added, t')) : t'.glob = t.glob := by
  unfold addPid at h
  split at h
  · rw [Prog.bind_of_ok (calloc_run t)] at h
    cases hmem : t.mem 0 with
    | true =>
        rw [hmem] at h
        cases h
        rfl
    | false =>
        rw [hmem] at h
        cases h
        rfl
  · cases h
    rfl

theorem readPids_glob (entries : List (Option Int)) {chain : PidChain} {read : Option PidChain}
    (h : readPids pageSize entries chain t = .ok (read, t')) : t'.glob = t.glob := by
  induction entries generalizing chain t with
  | nil =>
      cases h
      rfl
  | cons entry entries ih =>
      cases entry with
      | none => exact ih h
      | some pid =>
          obtain ⟨added, t1, hadd, h⟩ := Prog.bind_eq_ok.mp h
          have hglob := addPid_glob hadd
          cases added with
          | none =>
              cases h
              exact hglob
          | some chain1 => exact (ih h).trans hglob

/-- Without pids the error is that of a failed `opendir`, or the one that was there before. -/
theorem scanProcDir_null {dir : ProcDir} (h : scanProcDir pageSize dir t = .ok (none, t')) :
    (t.mem 0 = true ∧ t.mem 1 = true ∧ ∃ errno, dir.entries = .error errno ∧ t'.error = .opendir) ∨
    (¬ (t.mem 0 = true ∧ t.mem 1 = true ∧ ∃ errno, dir.entries = .error errno) ∧
      t'.error = t.error) := by
  rw [scanProcDir, Prog.bind_of_ok (calloc_run t)] at h
  cases hcnt : t.mem 0 with
  | false =>
      rw [hcnt] at h
      cases h
      exact .inr ⟨by simp, rfl⟩
  | true =>
      rw [hcnt, if_pos rfl, Prog.bind_of_ok (calloc_run t.answered)] at h
      have hentry : t.answered.mem 0 = t.mem 1 := rfl
      rw [hentry] at h
      cases hdir : t.mem 1 with
      | false =>
          rw [hdir] at h
          cases h
          exact .inr ⟨by simp, rfl⟩
      | true =>
          rw [hdir, if_pos rfl] at h
          cases hopen : dir.entries with
          | error errno =>
              rw [hopen] at h
              cases h
              exact .inl ⟨rfl, rfl, errno, rfl, rfl⟩
          | ok entries =>
              rw [hopen] at h
              obtain ⟨chain, t1, hread, h⟩ := Prog.bind_eq_ok.mp h
              have hglob := readPids_glob entries hread
              cases chain with
              | none =>
                  cases h
                  refine .inr ⟨by simp, ?_⟩
                  rw [Thread.error, hglob]
                  rfl
              | some chain =>
                  simp only at h
                  split at h
                  · cases h
                  · cases h

end

end Statgrab
