import Statgrab.Process.PidPages

/-!
# The pids that a scan returns

A chain that `scan_proc_dir` returns has the pids of the names in their order, on pages that are full but for the
last one, and a drain gives every page back once; a scan that returns NULL has given everything back itself.

That holds of the directories without a blank name. For a blank name `sscanf` returns EOF, so the chain has one
pid more.
-/

namespace Statgrab

open Text Scanf

/-! ### The lists of pids -/

/-- The pages of a chain are full but for the last one, and none has more pids than fit behind its header. -/
structure PidChain.Sized (pageSize : Nat) (chain : PidChain) : Prop where
  full : ∀ pids ∈ chain.full, pipdIsFull pageSize pids.length = true
  fits : ∀ pids ∈ Process.pagesOf chain, 16 + 4 * pids.length ≤ pageSize

section

variable {pageSize : Nat} {chain chain' : PidChain} {t t' : Thread}

theorem addPid_sized (hpage : 20 ≤ pageSize) (h : chain.Sized pageSize) {pid : Int}
    (hrun : addPid pageSize pid chain t = .ok (some chain', t')) : chain'.Sized pageSize := by
  have hpages : ∀ pids, pids ∈ chain.full ++ [chain.last] → 16 + 4 * pids.length ≤ pageSize := h.fits
  rw [addPid] at hrun
  cases hfull : pipdIsFull pageSize chain.last.length with
  | true =>
      rw [hfull, if_pos rfl] at hrun
      obtain ⟨ok, t1, -, hrun⟩ := Prog.bind_eq_ok.mp hrun
      cases ok with
      | false => cases hrun
      | true =>
          cases hrun
          constructor
          · intro pids hmem
            rcases List.mem_append.mp hmem with hmem | hmem
            · exact h.full pids hmem
            · rw [List.mem_singleton.mp hmem]
              exact hfull
          · intro pids hmem
            rcases List.mem_append.mp hmem with hmem | hmem
            · exact hpages pids hmem
            · rw [List.mem_singleton.mp hmem, List.length_singleton]
              omega
  | false =>
      rw [hfull] at hrun
      cases hrun
      refine ⟨h.full, ?_⟩
      intro pids hmem
      rcases List.mem_append.mp hmem with hmem | hmem
      · exact hpages pids (List.mem_append_left _ hmem)
      · rw [pipdIsFull, decide_eq_false_iff_not] at hfull
        rw [List.mem_singleton.mp hmem, List.length_append, List.length_singleton]
        omega

theorem readPids_sized (hpage : 20 ≤ pageSize) (entries : List (Option Int)) (h : chain.Sized pageSize)
    (hrun : readPids pageSize entries chain t = .ok (some chain', t')) : chain'.Sized pageSize := by
  induction entries generalizing chain t with
  | nil =>
      cases hrun
      exact h
  | cons entry entries ih =>
      cases entry with
      | none => exact ih h hrun
      | some pid =>
          obtain ⟨added, t1, hadd, hrun⟩ := Prog.bind_eq_ok.mp hrun
          cases added with
          | none => cases hrun
          | some chain1 => exact ih (addPid_sized hpage h hadd) hrun

end

namespace PidMem

/-! ### The scan -/

/-- What a name adds to the chain: the number that `sscanf` stores, or what `pid` held, unless 0 is returned. -/
def entryOf (stale : Int) (name : CString) : Option Int :=
  if (scanPid name).1 ≠ 0 then some ((scanPid name).2.getD stale) else none

def entriesFrom (stale : Nat → Int) : Nat → List CString → List (Option Int)
  | _, [] => []
  | k, name :: names => entryOf (stale k) name :: entriesFrom stale (k + 1) names

section

variable {pageSize : Nat} (stale : Nat → Int)

/-- The loop does what `Statgrab.readPids` does to the lists of pids, or gives the chain back. -/
theorem scanLoop_run (hpage : 20 ≤ pageSize) (rc : Int) (names : List CString) {w : PidMem} {cnt wrk k : Nat}
    {chain : PidChain} {front : List (Nat × PidPage)} {page : PidPage}
    (h : w.Building cnt wrk chain front page) :
    (∃ (chain' : PidChain) (w' : PidMem) (wrk' : Nat) (front' : List (Nat × PidPage)) (page' : PidPage),
      readPids pageSize (entriesFrom stale k names) chain w.toThread = .ok (some chain', w'.toThread) ∧
      scanLoop pageSize stale rc cnt k names wrk w = .ok ((some cnt, rc), w') ∧
      w'.Building cnt wrk' chain' front' page' ∧ w'.frees = w.frees ∧ w'.refusals = w.refusals) ∨
    (∃ (chain' : PidChain) (w' : PidMem) (wrk' : Nat) (front' : List (Nat × PidPage)) (page' : PidPage),
      readPids pageSize (entriesFrom stale k names) chain w.toThread = .ok (none, w'.toThread) ∧
      scanLoop pageSize stale rc cnt k names wrk w
        = .ok ((none, 0), w'.gone (addrsFrom cnt front'.length)) ∧
      w'.Building cnt wrk' chain' front' page' ∧ w'.frees = w.frees ∧ w'.refusals = w.refusals + 1) := by
  induction names generalizing w wrk k chain front page with
  | nil => exact .inl ⟨chain, w, wrk, front, page, rfl, rfl, h, rfl, rfl⟩
  | cons name names ih =>
      rw [entriesFrom, entryOf, scanLoop]
      by_cases hnumber : (scanPid name).1 ≠ 0
      · rw [if_pos hnumber, if_pos hnumber, readPids]
        rcases addPidToPidsInProcDir_run hpage h ((scanPid name).2.getD (stale k)) with
          ⟨chain1, w1, wrk1, front1, page1, hpure, hadd, h1, hfrees, hrefusals⟩ |
          ⟨w1, hpure, hadd, h1, hfrees, hrefusals⟩
        · rw [Prog.bind_of_ok hpure, Prog.bind_of_ok hadd, ← hfrees, ← hrefusals]
          exact ih h1
        · refine .inr ⟨chain, w1, wrk, front, page, ?_, ?_, h1, hfrees, hrefusals⟩
          · rw [Prog.bind_of_ok hpure]
            rfl
          · rw [Prog.bind_of_ok hadd]
            exact Prog.bind_of_ok h1.freed _
      · rw [if_neg hnumber, if_neg hnumber, readPids]
        exact ih h

/-- Every block that was allocated between the two states was given back once, and no other one. -/
def FreedSince (w w' : PidMem) : Prop :=
  ∀ q, w'.frees q = w.frees q + if w.heap.next ≤ q ∧ q < w'.heap.next then 1 else 0

theorem Building.freedSince {w w' : PidMem} {cnt wrk : Nat} {chain : PidChain} {front : List (Nat × PidPage)}
    {page : PidPage} (h : w'.Building cnt wrk chain front page) (hcnt : w.heap.next = cnt)
    (hfrees : w'.frees = w.frees) : w.FreedSince (w'.gone (addrsFrom cnt front.length ++ [cnt + 1])) := by
  intro q
  show w'.frees q + _ = _
  rw [count_addrsFrom, hfrees, hcnt]
  show _ = w.frees q + if cnt ≤ q ∧ q < (w'.heap.dropAll _).next then 1 else 0
  rw [Heap.dropAll_next, h.next]

theorem Building.release_entry {w : PidMem} {cnt wrk : Nat} {chain : PidChain} {front : List (Nat × PidPage)}
    {page : PidPage} (h : w.Building cnt wrk chain front page) {ps : List Nat} (hps : cnt + 1 ∉ ps) :
    release (cnt + 1) (w.gone ps) = .ok ((), w.gone (ps ++ [cnt + 1])) := by
  have hat : (w.gone ps).heap.blocks (cnt + 1) = some .entry :=
    (Heap.dropAll_of_notMem hps).trans h.entry
  rw [release_run hat, gone_gone]

def opened (w : PidMem) : PidMem :=
  { w with
    toThread := w.toThread.answered.answered
    heap := (w.heap.place (.page ⟨0, none, w.raw w.heap.next⟩)).place .entry }

theorem opened_building (w : PidMem) :
    w.opened.Building w.heap.next w.heap.next ⟨[], []⟩ [] ⟨0, none, w.raw w.heap.next⟩ := by
  refine ⟨⟨rfl, ?_, rfl⟩, rfl, rfl, rfl, rfl, Heap.place_self _ _⟩
  show ((w.heap.place _).place _).blocks w.heap.next = _
  rw [Heap.place_of_ne (Nat.ne_of_lt (Nat.lt_succ_self _)), Heap.place_self]

end

/-! #### The lists of pids -/

section

variable {pageSize : Nat} {dir : ProcDir} {t t' : Thread}

theorem lists_first_refused (h0 : t.mem 0 = false) :
    Statgrab.scanProcDir pageSize dir t = .ok (none, t.answered) := by
  rw [Statgrab.scanProcDir, Prog.bind_of_ok (calloc_run t), h0]
  rfl

theorem lists_second_refused (h0 : t.mem 0 = true) (h1 : t.mem 1 = false) :
    Statgrab.scanProcDir pageSize dir t = .ok (none, t.answered.answered) := by
  have hnext : t.answered.mem 0 = false := h1
  rw [Statgrab.scanProcDir, Prog.bind_of_ok (calloc_run t), h0, if_pos rfl, Prog.bind_of_ok (calloc_run _), hnext]
  rfl

theorem lists_unopened (h0 : t.mem 0 = true) (h1 : t.mem 1 = true) {errno : Int}
    (hdir : dir.entries = .error errno) :
    Statgrab.scanProcDir pageSize dir t
      = .ok (none, { t.answered.answered with glob := ⟨.opendir, errno, "/proc"⟩ }) := by
  have hnext : t.answered.mem 0 = true := h1
  rw [Statgrab.scanProcDir, Prog.bind_of_ok (calloc_run t), h0, if_pos rfl, Prog.bind_of_ok (calloc_run _), hnext,
    if_pos rfl, hdir]
  rfl

def afterScan (rc : Int) (t : Thread) : Thread := if rc ≠ 0 then { t with glob := ⟨.readdir, rc, "/proc"⟩ } else t

theorem lists_read (h0 : t.mem 0 = true) (h1 : t.mem 1 = true) {entries : List (Option Int)}
    (hdir : dir.entries = .ok entries) {chain : Option PidChain}
    (hread : readPids pageSize entries ⟨[], []⟩ t.answered.answered = .ok (chain, t')) :
    Statgrab.scanProcDir pageSize dir t
      = .ok (chain, if chain.isSome then afterScan dir.readdirRc t' else t') := by
  have hnext : t.answered.mem 0 = true := h1
  rw [Statgrab.scanProcDir, Prog.bind_of_ok (calloc_run t), h0, if_pos rfl, Prog.bind_of_ok (calloc_run _), hnext,
    if_pos rfl, hdir]
  simp only
  rw [Prog.bind_of_ok hread]
  cases chain with
  | none => rfl
  | some chain =>
      rw [afterScan]
      by_cases hrc : dir.readdirRc ≠ 0
      · simp only [if_pos hrc]
        rfl
      · simp only [if_neg hrc]
        rfl

end

/-! #### The scan with its memory -/

section

variable {pageSize : Nat} (stale : Nat → Int) {dir : DirNames} {w : PidMem}

theorem scanProcDir_first_refused (h0 : w.mem 0 = false) :
    scanProcDir pageSize stale dir w = .ok (none, { w with
      toThread := w.toThread.answered, refusals := w.refusals + 1 }) := by
  rw [scanProcDir, Prog.bind_of_ok (allocPidsInProcDir_of_not_mem h0)]
  rfl

def started (w : PidMem) : PidMem :=
  { w with
    toThread := w.toThread.answered
    heap := w.heap.place (.page ⟨0, none, w.raw w.heap.next⟩) }

theorem scanProcDir_second_refused (hpage : 20 ≤ pageSize) (h0 : w.mem 0 = true) (h1 : w.mem 1 = false) :
    ∃ w', scanProcDir pageSize stale dir w = .ok (none, w') ∧ w'.toThread = w.toThread.answered.answered ∧
      w.FreedSince w' ∧ w'.refusals = w.refusals + 1 := by
  have h1 : w.started.mem 0 = false := h1
  let w1 : PidMem := { w.started with
    toThread := w.started.toThread.answered, refusals := w.started.refusals + 1 }
  have hpages : w1.Pages (some w.heap.next) [(w.heap.next, ⟨0, none, w.raw w.heap.next⟩)] none :=
    ⟨rfl, Heap.place_self _ _, rfl⟩
  have hfuel : 1 < w1.heap.next + 1 := Nat.succ_lt_succ (Nat.succ_pos _)
  have hfreed := @freeLoop_children w1 _ _ hpages (List.nodup_singleton _) _ hfuel none fun _ => rfl
  refine ⟨w1.gone [w.heap.next], ?_, rfl, ?_, rfl⟩
  · rw [scanProcDir, Prog.bind_of_ok (allocPidsInProcDir_of_mem (by omega) h0)]
    simp only
    rw [← started, Prog.bind_of_ok (alloc_of_not_mem h1 _)]
    simp only
    rw [freePidsInProcDir]
    exact Prog.bind_of_ok hfreed _
  · intro q
    have hnext : (w1.gone [w.heap.next]).heap.next = w.heap.next + 1 := rfl
    have hfrees : (w1.gone [w.heap.next]).frees q = w.frees q + [w.heap.next].count q := rfl
    have hmem : ∀ a, a ∈ [w.heap.next] ↔ w.heap.next ≤ a ∧ a < w.heap.next + 1 := by
      intro a
      rw [List.mem_singleton]
      omega
    rw [hnext, hfrees, count_eq_ite (List.nodup_singleton _) hmem]

theorem scanProcDir_opened (hpage : 20 ≤ pageSize) (h0 : w.mem 0 = true) (h1 : w.mem 1 = true) :
    scanProcDir pageSize stale dir w
      = scanEntries pageSize stale dir w.heap.next (w.heap.next + 1) w.opened := by
  have h1 : w.started.mem 0 = true := h1
  rw [scanProcDir, Prog.bind_of_ok (allocPidsInProcDir_of_mem (by omega) h0)]
  simp only
  rw [← started, Prog.bind_of_ok (alloc_of_mem h1 _)]
  rfl

theorem release_entry {cnt wrk : Nat} {chain : PidChain} {front : List (Nat × PidPage)} {page : PidPage}
    (h : w.Building cnt wrk chain front page) (n : Nat) :
    release (cnt + 1) (w.gone (addrsFrom cnt n)) = .ok ((), w.gone (addrsFrom cnt n ++ [cnt + 1])) :=
  h.release_entry fun hmem => (mem_addrsFrom hmem).1 rfl

theorem finishScan_run {cnt wrk : Nat} {chain : PidChain} {front : List (Nat × PidPage)} {page : PidPage}
    (h : w.Building cnt wrk chain front page) (rc : Int) :
    ∃ w' : PidMem, finishScan (cnt + 1) (some cnt, rc) w = .ok (some cnt, w'.gone [cnt + 1]) ∧
      w'.toThread = afterScan rc w.toThread ∧ w'.Building cnt wrk chain front page ∧ w'.frees = w.frees ∧
      w'.refusals = w.refusals := by
  have hdone : ∀ w' : PidMem, w'.Building cnt wrk chain front page →
      release (cnt + 1) w' = .ok ((), w'.gone [cnt + 1]) := fun w' h' => release_run h'.entry
  rw [finishScan, afterScan]
  by_cases hrc : rc ≠ 0
  · let w' : PidMem := { w with glob := ⟨.readdir, rc, "/proc"⟩ }
    have herror : onThread (sgSetError .readdir rc "/proc") w = .ok ((), w') :=
      Prog.zoom_of_ok (sgSetError_run _ _ _ _)
    refine ⟨w', ?_, ?_, h.congr rfl, rfl, rfl⟩
    · simp only [if_pos hrc]
      rw [Prog.bind_of_ok herror]
      exact Prog.bind_of_ok (hdone w' (h.congr rfl)) _
    · rw [if_pos hrc]
  · refine ⟨w, ?_, ?_, h, rfl, rfl⟩
    · simp only [if_neg hrc]
      exact Prog.bind_of_ok (hdone w h) _
    · rw [if_neg hrc]

/-- `scan_proc_dir` does what `Statgrab.scanProcDir` does to the lists of pids, with a chain for the lists;
without a chain everything that was allocated is given back. -/
theorem scanProcDir_run (hpage : 20 ≤ pageSize) (dir : DirNames) (w : PidMem) :
    (∃ (chain : PidChain) (w' : PidMem) (wrk : Nat) (front : List (Nat × PidPage)) (page : PidPage),
      Statgrab.scanProcDir pageSize ⟨dir.entries.map (entriesFrom stale 0), dir.readdirRc⟩ w.toThread
        = .ok (some chain, w'.toThread) ∧
      scanProcDir pageSize stale dir w = .ok (some w.heap.next, w'.gone [w.heap.next + 1]) ∧
      w'.Building w.heap.next wrk chain front page ∧ w'.frees = w.frees ∧ w'.refusals = w.refusals) ∨
    (∃ w' : PidMem,
      Statgrab.scanProcDir pageSize ⟨dir.entries.map (entriesFrom stale 0), dir.readdirRc⟩ w.toThread
        = .ok (none, w'.toThread) ∧
      scanProcDir pageSize stale dir w = .ok (none, w') ∧ w.FreedSince w' ∧
      (w'.refusals = w.refusals → ∃ errno, dir.entries = .error errno)) := by
  cases h0 : w.mem 0 with
  | false =>
      refine .inr ⟨{ w with toThread := w.toThread.answered, refusals := w.refusals + 1 },
        lists_first_refused h0, scanProcDir_first_refused stale h0, ?_, ?_⟩
      · intro q
        rw [if_neg fun hrange => Nat.not_lt.mpr hrange.1 hrange.2]
        rfl
      · intro hsame
        exact absurd hsame (Nat.succ_ne_self _)
  | true =>
      cases h1 : w.mem 1 with
      | false =>
          obtain ⟨w', hrun, hthread, hfreed, hrefusals⟩ :=
            @scanProcDir_second_refused _ stale dir w hpage h0 h1
          refine .inr ⟨w', ?_, hrun, hfreed, ?_⟩
          · rw [hthread]
            exact lists_second_refused h0 h1
          · intro hsame
            rw [hrefusals] at hsame
            exact absurd hsame (Nat.succ_ne_self _)
      | true =>
          have hopened := opened_building w
          rw [scanProcDir_opened stale hpage h0 h1, scanEntries]
          cases hdir : dir.entries with
          | error errno =>
              let w1 : PidMem := { w.opened with glob := ⟨.opendir, errno, "/proc"⟩ }
              have hw1 : w1.Building w.heap.next w.heap.next ⟨[], []⟩ [] ⟨0, none, w.raw w.heap.next⟩ :=
                hopened.congr rfl
              refine .inr ⟨w1.gone (addrsFrom w.heap.next 0 ++ [w.heap.next + 1]), ?_, ?_,
                hw1.freedSince rfl rfl, fun _ => ⟨errno, rfl⟩⟩
              · exact lists_unopened h0 h1 rfl
              · have herror : onThread (sgSetError .opendir errno "/proc") w.opened = .ok ((), w1) :=
                  Prog.zoom_of_ok (sgSetError_run _ _ _ _)
                simp only
                rw [Prog.bind_of_ok herror, Prog.bind_of_ok hw1.freed]
                exact Prog.bind_of_ok (release_entry hw1 0) _
          | ok names =>
              simp only
              rcases scanLoop_run stale hpage dir.readdirRc names hopened with
                ⟨chain, w1, wrk, front, page, hread, hscan, hw1, hfrees, hrefusals⟩ |
                ⟨chain, w1, wrk, front, page, hread, hscan, hw1, hfrees, hrefusals⟩
              · obtain ⟨w2, hfinish, hthread, hw2, hfrees2, hrefusals2⟩ := finishScan_run hw1 dir.readdirRc
                refine .inl ⟨chain, w2, wrk, front, page, ?_, ?_, hw2, hfrees2.trans hfrees,
                  hrefusals2.trans hrefusals⟩
                · rw [hthread]
                  exact lists_read h0 h1 rfl hread
                · rw [Prog.bind_of_ok hscan, hfinish]
              · refine .inr ⟨w1.gone (addrsFrom w.heap.next front.length ++ [w.heap.next + 1]),
                  lists_read h0 h1 rfl hread, ?_, hw1.freedSince rfl hfrees, ?_⟩
                · rw [Prog.bind_of_ok hscan]
                  exact Prog.bind_of_ok (release_entry hw1 _) _
                · intro hsame
                  exact absurd (hrefusals.symm.trans hsame) (Nat.succ_ne_self _)

end

/-! ### What a scan returns -/

/-- The name has nothing but white space, so `sscanf` comes to its end before there is a number. -/
def Blank (name : CString) : Prop := skipSpaces name = []

instance (name : CString) : Decidable (Blank name) := inferInstanceAs (Decidable (skipSpaces name = []))

def pidsOf (names : List CString) : List Int := names.filterMap fun name => (scanPid name).2

theorem scanPid_of_blank {name : CString} (h : Blank name) : scanPid name = (-1, none) := by
  rw [Blank] at h
  have hstop : convert .d none name = .error .eof := by
    rw [convert_numeric ⟨by decide, by decide⟩, if_pos h]
  have hscan : scanf (bytes "%d") name = ([], .eof, name) := by
    show scan [.convert false none .d] name = _
    rw [scan, hstop]
  rw [scanPid, hscan]
  rfl

theorem scanPid_of_not_blank {name : CString} (h : ¬ Blank name) :
    scanPid name = (0, none) ∨ ∃ pid, scanPid name = (1, some pid) := by
  have hparse : scanf (bytes "%d") name = scan [.convert false none .d] name := rfl
  have hconvert := @convert_numeric .d ⟨by decide, by decide⟩ none name
  rw [Blank] at h
  rw [if_neg h] at hconvert
  rw [scanPid, hparse, scan]
  cases hnumber : numberAt (skipSpaces name) with
  | none =>
      rw [hnumber] at hconvert
      rw [hconvert]
      exact .inl rfl
  | some found =>
      rw [hnumber] at hconvert
      rw [hconvert]
      exact .inr ⟨_, rfl⟩

theorem entryOf_of_blank {name : CString} (h : Blank name) (stale : Int) : entryOf stale name = some stale := by
  rw [entryOf, scanPid_of_blank h]
  rfl

theorem entryOf_of_not_blank {name : CString} (h : ¬ Blank name) (stale : Int) :
    entryOf stale name = (scanPid name).2 := by
  rcases scanPid_of_not_blank h with hscan | ⟨pid, hscan⟩
  · rw [entryOf, hscan]
    rfl
  · rw [entryOf, hscan]
    rfl

theorem entriesFrom_length (stale : Nat → Int) (k : Nat) (names : List CString) :
    ((entriesFrom stale k names).filterMap id).length
      = (pidsOf names).length + names.countP fun name => decide (Blank name) := by
  induction names generalizing k with
  | nil => rfl
  | cons name names ih =>
      rw [pidsOf] at ih
      rw [entriesFrom, pidsOf, List.filterMap_cons, List.filterMap_cons, List.countP_cons]
      by_cases h : Blank name
      · rw [entryOf_of_blank h, scanPid_of_blank h, if_pos (decide_eq_true h)]
        show (_ :: _).length = _
        rw [List.length_cons, ih, Nat.add_assoc]
      · have hcount : (if decide (Blank name) = true then 1 else 0) = 0 := if_neg (by simpa using h)
        rw [entryOf_of_not_blank h, hcount, Nat.add_zero]
        cases (scanPid name).2 with
        | none => exact ih (k + 1)
        | some pid =>
            exact (congrArg (· + 1) (ih (k + 1))).trans (Nat.add_right_comm _ _ _)

theorem entriesFrom_pids (stale : Nat → Int) (k : Nat) {names : List CString} (h : ∀ name ∈ names, ¬ Blank name) :
    (entriesFrom stale k names).filterMap id = pidsOf names := by
  induction names generalizing k with
  | nil => rfl
  | cons name names ih =>
      rw [List.forall_mem_cons] at h
      rw [entriesFrom, pidsOf, List.filterMap_cons, List.filterMap_cons, entryOf_of_not_blank h.1, ih (k + 1) h.2]
      rfl

/-- The pages from `p` on are those of a scan of these names, and a drain of them gives everything back that was
allocated since `w`. -/
structure Scanned (w w' : PidMem) (pageSize : Nat) (names : List CString) (p : Nat)
    (ns : List (Nat × PidPage)) : Prop where
  pages : w'.Pages (some p) ns none
  nodup : (ns.map Prod.fst).Nodup
  pids : (ns.map fun n => n.2.pids).flatten = pidsOf names
  full : ∀ n ∈ ns.dropLast, pipdIsFull pageSize n.2.nitems = true
  fits : ∀ n ∈ ns, 16 + 4 * n.2.nitems ≤ pageSize
  drained : ∃ w'' : PidMem, drain (w'.heap.next + 1) (some p) w' = .ok (ns.map fun n => (n.1, n.2.pids), w'') ∧
    w.FreedSince w''

/-- A scan comes to its end within its blocks, with the pages of the names and no refused request, or with NULL
and everything given back. -/
def ScansRight (pageSize : Nat) (stale : Nat → Int) (dir : DirNames) (w : PidMem) : Prop :=
  ∃ (r : Option Nat) (w' : PidMem), scanProcDir pageSize stale dir w = .ok (r, w') ∧
    match r with
    | some p => w'.refusals = w.refusals ∧
        ∃ names ns, dir.entries = .ok names ∧ w.Scanned w' pageSize names p ns
    | none => w.FreedSince w' ∧ (w'.refusals = w.refusals → ∃ errno, dir.entries = .error errno)

section

variable {pageSize : Nat} {stale : Nat → Int} {dir : DirNames} {w w' : PidMem}

theorem FreedSince.perm {ps qs : List Nat} (h : w.FreedSince (w'.gone ps)) (hperm : ps.Perm qs) :
    w.FreedSince (w'.gone qs) := by
  intro q
  have hq := h q
  have hframe : ∀ l, (w'.gone l).heap.next = w'.heap.next := fun l => Heap.dropAll_next _ _
  have hfrees : ∀ l, (w'.gone l).frees q = w'.frees q + l.count q := fun _ => rfl
  rw [hframe, hfrees] at hq ⊢
  rw [← hperm.count_eq q]
  exact hq

theorem Building.pagesOf {cnt wrk : Nat} {chain : PidChain} {front : List (Nat × PidPage)} {page : PidPage}
    (h : w.Building cnt wrk chain front page) :
    (front ++ [(wrk, page)]).map (fun n => n.2.pids) = Process.pagesOf chain := by
  rw [List.map_append, h.full, List.map_singleton, h.last]
  rfl

theorem Building.without_entry {cnt wrk : Nat} {chain : PidChain} {front : List (Nat × PidPage)} {page : PidPage}
    (h : w.Building cnt wrk chain front page) :
    (w.gone [cnt + 1]).Pages (some cnt) (front ++ [(wrk, page)]) none :=
  h.pages.gone fun hmem => (h.mem_addrs hmem).1 rfl

theorem Building.scanned {wrk : Nat} {chain : PidChain} {front : List (Nat × PidPage)} {page : PidPage}
    (h : w'.Building w.heap.next wrk chain front page) (hfrees : w'.frees = w.frees) {names : List CString}
    (hlists : Process.Lists chain (pidsOf names)) (hsized : chain.Sized pageSize) :
    w.Scanned (w'.gone [w.heap.next + 1]) pageSize names w.heap.next (front ++ [(wrk, page)]) := by
  have hlt : ∀ a ∈ (front ++ [(wrk, page)]).map Prod.fst, a < (w'.gone [w.heap.next + 1]).heap.next :=
    fun a ha => (h.mem_addrs ha).2
  refine ⟨h.without_entry, h.nodup, ?_, ?_, ?_, ?_⟩
  · rw [h.pagesOf, hlists.pids]
  · intro n hn
    rw [List.dropLast_concat] at hn
    rw [← pids_length]
    apply hsized.full
    rw [← h.full]
    exact List.mem_map_of_mem hn
  · intro n hn
    rw [← pids_length]
    apply hsized.fits
    rw [← h.pagesOf]
    exact List.mem_map_of_mem hn
  · have hfuel : (front ++ [(wrk, page)]).length < (w'.gone [w.heap.next + 1]).heap.next + 1 := by
      have hnext : (w'.gone [w.heap.next + 1]).heap.next = w.heap.next + 2 + front.length := h.next
      rw [hnext, List.length_append, List.length_singleton]
      omega
    refine ⟨_, drain_run h.without_entry h.nodup hlt hfuel, ?_⟩
    rw [gone_gone, h.addrs]
    exact (h.freedSince rfl hfrees).perm List.perm_append_comm

theorem scanned_lists (hpage : 20 ≤ pageSize) {t t' : Thread} {chain : PidChain}
    (h : Statgrab.scanProcDir pageSize ⟨dir.entries.map (entriesFrom stale 0), dir.readdirRc⟩ t
      = .ok (some chain, t')) :
    ∃ names, dir.entries = .ok names ∧ Process.Lists chain ((entriesFrom stale 0 names).filterMap id) ∧
      chain.Sized pageSize := by
  obtain ⟨entries, t1, hdir, hread⟩ := Process.scanProcDir_read h
  have hempty : (⟨[], []⟩ : PidChain).Sized pageSize := by
    refine ⟨fun pids hmem => absurd hmem List.not_mem_nil, ?_⟩
    intro pids hmem
    rw [List.mem_singleton.mp hmem, List.length_nil]
    omega
  cases hnames : dir.entries with
  | error errno =>
      rw [hnames] at hdir
      cases hdir
  | ok names =>
      rw [hnames] at hdir
      cases hdir
      exact ⟨names, rfl, Process.readPids_lists _ ⟨rfl, by simp [Process.pagesOf]⟩ hread,
        readPids_sized hpage _ hempty hread⟩

theorem scansRight_of_not_blank (hpage : 20 ≤ pageSize)
    (hnames : ∀ names, dir.entries = .ok names → ∀ name ∈ names, ¬ Blank name) (w : PidMem) :
    ScansRight pageSize stale dir w := by
  rcases scanProcDir_run stale hpage dir w with
    ⟨chain, w', wrk, front, page, hlists, hrun, hw', hfrees, hrefusals⟩ |
    ⟨w', hlists, hrun, hfreed, hrefused⟩
  · obtain ⟨names, hdir, hlists, hsized⟩ := scanned_lists hpage hlists
    rw [entriesFrom_pids stale 0 (hnames names hdir)] at hlists
    exact ⟨_, _, hrun, hrefusals, names, _, hdir, hw'.scanned hfrees hlists hsized⟩
  · exact ⟨none, w', hrun, hfreed, hrefused⟩

theorem lists_of_plenty {t : Thread} (hplenty : t.Plenty) {names : List CString} (hdir : dir.entries = .ok names) :
    ∃ chain t', Statgrab.scanProcDir pageSize ⟨dir.entries.map (entriesFrom stale 0), dir.readdirRc⟩ t
      = .ok (some chain, t') := by
  obtain ⟨chain, t', hread, -⟩ := @Process.readPids_run pageSize t.answered.answered (entriesFrom stale 0 names)
    ⟨[], []⟩ hplenty.answered.answered
  rw [hdir]
  exact ⟨chain, _, lists_read (hplenty 0) (hplenty 1) rfl hread⟩

/-- A world in which every request is granted. -/
def plenty : PidMem :=
  { glob := .clear, mem := fun _ => true, heap := ⟨fun _ => none, 0⟩, raw := fun _ _ => 0, frees := fun _ => 0,
    refusals := 0 }

/-- The pids of a scan with enough memory count the blank names too. -/
theorem not_blank_of_scansRight (hpage : 20 ≤ pageSize) (h : ScansRight pageSize stale dir plenty)
    {names : List CString} (hdir : dir.entries = .ok names) : ∀ name ∈ names, ¬ Blank name := by
  obtain ⟨r, w', hrun, hr⟩ := h
  rcases scanProcDir_run stale hpage dir plenty with
    ⟨chain, w1, wrk, front, page, hlists, hrun1, hw1, hfrees, hrefusals⟩ | ⟨w1, hlists, -, -, -⟩
  · rw [hrun1] at hrun
    cases hrun
    obtain ⟨-, names1, ns, hdir1, hscanned⟩ := hr
    rw [hdir] at hdir1
    cases hdir1
    obtain ⟨names2, hdir2, hlists, hsized⟩ := scanned_lists hpage hlists
    rw [hdir] at hdir2
    cases hdir2
    have hsame : ns = front ++ [(wrk, page)] := pageNodes_injective (hscanned.pages.unique hw1.without_entry)
    have hpids : pidsOf names = (entriesFrom stale 0 names).filterMap id := by
      rw [← hscanned.pids, hsame, hw1.pagesOf, hlists.pids]
    have hlength := entriesFrom_length stale 0 names
    rw [← hpids, Nat.left_eq_add, List.countP_eq_zero] at hlength
    intro name hname
    simpa using hlength name hname
  · obtain ⟨chain, t', hsome⟩ := @lists_of_plenty pageSize stale dir plenty.toThread (fun _ => rfl) names hdir
    rw [hsome] at hlists
    cases hlists

/-- The scan of a directory is right, whatever is refused, if and only if no name is blank. -/
theorem scansRight_iff (hpage : 20 ≤ pageSize) :
    (∀ w, ScansRight pageSize stale dir w) ↔
      ∀ names, dir.entries = .ok names → ∀ name ∈ names, ¬ Blank name := by
  constructor
  · intro h names hdir
    exact not_blank_of_scansRight hpage (h plenty) hdir
  · exact scansRight_of_not_blank hpage

/-- Two pids with a name between them that is none, with memory for both and without. -/
theorem scansRight_self :
    ScansRight 4096 (fun _ => 7) ⟨.ok [bytes "12", bytes "self", bytes "407"], 0⟩ plenty ∧
      ScansRight 4096 (fun _ => 7) ⟨.ok [bytes "12", bytes "self", bytes "407"], 0⟩
        { plenty with mem := fun _ => false } := by
  have hright : ∀ w, ScansRight 4096 (fun _ => 7) ⟨.ok [bytes "12", bytes "self", bytes "407"], 0⟩ w := by
    rw [scansRight_iff (by decide)]
    intro names hnames
    cases hnames
    decide +kernel
  exact ⟨hright _, hright _⟩

end

/-- With the names `12` and one space the chain has two pids. -/
theorem not_scansRight_blank : ¬ ScansRight 4096 (fun _ => 12) ⟨.ok [bytes "12", [32]], 0⟩ plenty := by
  intro h
  exact not_blank_of_scansRight (by decide) h rfl [32] (by simp) rfl

end PidMem

end Statgrab
