import Statgrab.Access.Refusals
import Statgrab.Process.Loop

/-!
# The list of processes

With enough memory, and a line in every name that can be opened, the vector is left with one item for each
pid whose files can be read, in the order of the scan. A slot that was partly filled for a process that
vanished is used for the next one, and all its fields are written again, but for the context switches: a
line of `/proc/PID/status` that announces them and has no number leaves what was there.
-/

namespace Statgrab.Process

open Text Scanf

/-! ### The pids -/

def pagesOf (chain : PidChain) : List (List Int) := chain.full ++ [chain.last]

/-- The chain holds these pids, and no page but the first one is empty. -/
structure Lists (chain : PidChain) (pids : List Int) : Prop where
  pids : (pagesOf chain).flatten = pids
  filled : ∀ page ∈ (pagesOf chain).tail, page ≠ []

theorem Lists.snoc {chain : PidChain} {pids : List Int} (h : Lists chain pids) (pid : Int) :
    Lists { chain with last := chain.last ++ [pid] } (pids ++ [pid]) := by
  obtain ⟨full, last⟩ := chain
  constructor
  · rw [← h.pids]
    simp [pagesOf]
  · intro page hpage
    cases full with
    | nil => cases hpage
    | cons first full =>
        rw [pagesOf, List.cons_append, List.tail_cons, List.mem_append] at hpage
        rcases hpage with hpage | hpage
        · exact h.filled page (by simp [pagesOf, hpage])
        · rw [List.mem_singleton.mp hpage]
          simp

theorem Lists.newPage {chain : PidChain} {pids : List Int} (h : Lists chain pids) (pid : Int) :
    Lists ⟨chain.full ++ [chain.last], [pid]⟩ (pids ++ [pid]) := by
  constructor
  · rw [← h.pids]
    simp [pagesOf]
  · intro page hpage
    rw [pagesOf, List.tail_append_of_ne_nil (by simp), List.mem_append] at hpage
    rcases hpage with hpage | hpage
    · exact h.filled page hpage
    · rw [List.mem_singleton.mp hpage]
      simp

section

variable {pageSize : Nat} {t t' : Thread} {chain chain' : PidChain} {pids : List Int}

theorem addPid_lists (h : Lists chain pids) {pid : Int}
    (hrun : addPid pageSize pid chain t = .ok (some chain', t')) : Lists chain' (pids ++ [pid]) := by
  rw [addPid] at hrun
  split at hrun
  · obtain ⟨ok, t1, -, hrun⟩ := Prog.bind_eq_ok.mp hrun
    cases ok with
    | true =>
        cases hrun
        exact h.newPage pid
    | false => cases hrun
  · cases hrun
    exact h.snoc pid

theorem readPids_lists (entries : List (Option Int)) (h : Lists chain pids)
    (hrun : readPids pageSize entries chain t = .ok (some chain', t')) :
    Lists chain' (pids ++ entries.filterMap id) := by
  induction entries generalizing chain pids t with
  | nil =>
      cases hrun
      rwa [List.filterMap_nil, List.append_nil]
  | cons entry entries ih =>
      cases entry with
      | none => exact ih h hrun
      | some pid =>
          obtain ⟨added, t1, hadd, hrun⟩ := Prog.bind_eq_ok.mp hrun
          cases added with
          | none => cases hrun
          | some chain1 =>
              have hlists := ih (addPid_lists h hadd) hrun
              rwa [List.append_assoc] at hlists

theorem readPids_run (entries : List (Option Int)) (chain : PidChain) (hplenty : t.Plenty) :
    ∃ chain' t', readPids pageSize entries chain t = .ok (some chain', t') ∧ t'.Plenty := by
  induction entries generalizing chain t with
  | nil => exact ⟨chain, t, rfl, hplenty⟩
  | cons entry entries ih =>
      cases entry with
      | none => exact ih chain hplenty
      | some pid =>
          have hadd : ∃ chain1 t1, addPid pageSize pid chain t = .ok (some chain1, t1) ∧ t1.Plenty := by
            rw [addPid]
            split
            · rw [Prog.bind_of_ok (calloc_run t), hplenty 0]
              exact ⟨_, _, rfl, hplenty.answered⟩
            · exact ⟨_, t, rfl, hplenty⟩
          obtain ⟨chain1, t1, hadd, hplenty1⟩ := hadd
          rw [readPids, Prog.bind_of_ok hadd]
          exact ih chain1 hplenty1

end

theorem scanProcDir_read {pageSize : Nat} {dir : ProcDir} {chain : PidChain} {t t' : Thread}
    (h : scanProcDir pageSize dir t = .ok (some chain, t')) :
    ∃ entries t1, dir.entries = .ok entries ∧
      readPids pageSize entries ⟨[], []⟩ t.answered.answered = .ok (some chain, t1) := by
  rw [scanProcDir, Prog.bind_of_ok (calloc_run t)] at h
  split at h
  · rw [Prog.bind_of_ok (calloc_run t.answered)] at h
    split at h
    · cases hdir : dir.entries with
      | error errno =>
          rw [hdir] at h
          cases h
      | ok entries =>
          rw [hdir] at h
          obtain ⟨read, t1, hread, h⟩ := Prog.bind_eq_ok.mp h
          cases read with
          | none => cases h
          | some chain1 =>
              refine ⟨entries, t1, rfl, ?_⟩
              simp only at h
              split at h
              · cases h
                exact hread
              · cases h
                exact hread
    · cases h
  · cases h

/-- The pages that the loop goes over hold the pids of the scan, whatever the allocator answers. -/
theorem processPids_lists {proc : ProcFs} {uptime : Int} {chain : PidChain} {t t' : Thread}
    (h : processPids proc t = .ok (.ok (uptime, chain), t')) :
    ∃ entries, proc.dir.entries = .ok entries ∧ Lists chain (entries.filterMap id) := by
  have hscan : ∃ t1, scanProcDir proc.pageSize proc.dir t = .ok (some chain, t1) := by
    rw [processPids] at h
    cases huptime : proc.uptime with
    | error errno =>
        rw [huptime] at h
        cases h
    | ok number =>
        rw [huptime] at h
        cases number with
        | none => cases h
        | some uptime' =>
            obtain ⟨pids, t1, hscan, h⟩ := Prog.bind_eq_ok.mp h
            cases pids with
            | none => cases h
            | some chain1 =>
                cases h
                exact ⟨_, hscan⟩
  obtain ⟨t1, hscan⟩ := hscan
  obtain ⟨entries, t2, hdir, hread⟩ := scanProcDir_read hscan
  exact ⟨entries, hdir, readPids_lists entries ⟨rfl, by simp [pagesOf]⟩ hread⟩

/-- What `sg_get_process_stats_int` meets before its loop, with enough memory. -/
theorem processPids_run {proc : ProcFs} {uptime : Int} (huptime : proc.uptime = .ok (some uptime))
    {entries : List (Option Int)} (hdir : proc.dir.entries = .ok entries) {t : Thread}
    (hplenty : t.Plenty) :
    ∃ chain t', processPids proc t = .ok (.ok (uptime, chain), t') ∧ t'.Plenty ∧
      Lists chain (entries.filterMap id) := by
  obtain ⟨chain, t1, hread, hplenty1⟩ :=
    @readPids_run proc.pageSize t.answered.answered entries ⟨[], []⟩ hplenty.answered.answered
  have hscan : ∃ t', scanProcDir proc.pageSize proc.dir t = .ok (some chain, t') ∧ t'.Plenty := by
    rw [scanProcDir, Prog.bind_of_ok (calloc_run t), hplenty 0, if_pos rfl,
      Prog.bind_of_ok (calloc_run t.answered), hplenty.answered 0, if_pos rfl, hdir]
    simp only
    rw [Prog.bind_of_ok hread]
    simp only
    split
    · exact ⟨_, rfl, hplenty1⟩
    · exact ⟨t1, rfl, hplenty1⟩
  obtain ⟨t', hscan, hplenty'⟩ := hscan
  have hrun : processPids proc t = .ok (.ok (uptime, chain), t') := by
    rw [processPids, huptime]
    simp only
    rw [Prog.bind_of_ok hscan]
    rfl
  obtain ⟨entries', hdir', hlists⟩ := processPids_lists hrun
  rw [hdir] at hdir'
  cases hdir'
  exact ⟨chain, t', hrun, hplenty', hlists⟩

/-! ### The whole loop -/

/-- With enough memory the loop comes to its end, and every pid has added its item. -/
theorem processLoop_run {src : ProcessSource} (uptime : Int) (fuel : Nat) {w : World ProcessStats}
    {s : Loop} {items : List ProcessStats} (h : At w s items)
    (hlines : ∀ pid ∈ s.remaining, CommLine src pid) (hfuel : s.measure ≤ fuel) :
    ∃ s' w' parts, processLoop src uptime fuel s w = .ok (some (none, s'), w') ∧
      List.Forall₂ (Adds src uptime) s.remaining parts ∧ At w' s' (items ++ parts.flatten) := by
  induction fuel generalizing w s items with
  | zero =>
      have hpages : s.pages = [] := by
        apply List.length_eq_zero_iff.mp
        rw [Loop.measure] at hfuel
        omega
      refine ⟨s, w, [], processLoop_done 0 hpages, ?_, ?_⟩
      · rw [Loop.remaining, hpages]
        exact .nil
      · rwa [List.flatten_nil, List.append_nil]
  | succ fuel ih =>
      cases hpages : s.pages with
      | nil =>
          refine ⟨s, w, [], processLoop_done _ hpages, ?_, ?_⟩
          · rw [Loop.remaining, hpages]
            exact .nil
          · rwa [List.flatten_nil, List.append_nil]
      | cons page pages =>
          obtain ⟨s1, w1, new, hround, hat, hrest⟩ := round_run uptime h hpages
            (fun pid hpid => hlines pid (mem_remaining hpages hpid))
          obtain ⟨hless, hsub⟩ := round_decreases hpages hlines hround
          obtain ⟨s2, w2, parts, hloop, hparts, hat2⟩ :=
            ih hat (fun pid hpid => hlines pid (hsub pid hpid)) (by omega)
          rw [processLoop_succ fuel hpages, Prog.bind_of_ok hround]
          rcases hrest with ⟨hsame, rfl⟩ | ⟨pid, hcons, -, hadds⟩
          · refine ⟨s2, w2, parts, hloop, hsame ▸ hparts, ?_⟩
            rwa [List.append_nil] at hat2
          · refine ⟨s2, w2, new :: parts, hloop, ?_, ?_⟩
            · rw [hcons]
              exact .cons hadds hparts
            · rwa [List.flatten_cons, ← List.append_assoc]

theorem Starts.items_eq {v : SgVector ProcessStats} {items : List ProcessStats} (h : Starts v items)
    (hused : v.usedCount = items.length) : v.items = items := by
  apply List.ext_getElem?
  intro i
  rw [SgVector.items, List.getElem?_map, hused]
  by_cases hi : i < items.length
  · rw [List.getElem?_range hi, List.getElem?_eq_getElem hi]
    exact congrArg some (h.cells i _ (List.getElem?_eq_getElem hi))
  · rw [List.getElem?_eq_none (by simpa using hi), List.getElem?_eq_none (not_lt.mp hi)]
    rfl

/-- The end of the function cuts off what is not complete. -/
theorem trimItems_run {w : World ProcessStats} (hw : Ready w) {vector : Option Ptr}
    {items : List ProcessStats} (hx : Holding w vector items) (hlimit : items.length ≤ itemLimit) :
    ∃ vector' w', trimItems vector items.length w = .ok ((.none, vector'), w') ∧
      w'.itemsAt vector' = items := by
  cases vector with
  | none =>
      have hnil : items = [] := hx
      exact ⟨none, w, rfl, hnil.symm⟩
  | some p =>
      obtain ⟨v, hv, hroomy, hstarts⟩ := hx
      rw [trimItems, Prog.bind_of_ok (deref_run hv)]
      by_cases hused : items.length = v.usedCount
      · refine ⟨some p, w, ?_, ?_⟩
        · rw [if_neg (by simpa using hused)]
          rfl
        · rw [itemsAt_some hv]
          exact hstarts.items_eq hused.symm
      · rw [if_pos hused]
        by_cases hzero : items.length = 0
        · have hresize : vectorCreateOrResize ProcessStats.info (some p)
              (CountArg.count items.length).value w
              = .ok (none, ((w.shrink p v 0).drop p).cleared) := by
            rw [CountArg.value, hzero]
            exact sgVectorResize_zero hv (fun _ => hroomy.within)
          refine ⟨none, _, vectorUpdate_null hresize (by simp [CountArg.negated, hzero]) _, ?_⟩
          exact (List.length_eq_zero_iff.mp hzero).symm
        · obtain ⟨q, w', v', hgrow, -, hq, -, hstarts', hused'⟩ :=
            @vectorUpdated_grow w hw (some p) items ⟨v, hv, hroomy, hstarts⟩ (.count items.length)
              hzero hlimit le_rfl
          refine ⟨some q, w', ?_, ?_⟩
          · rw [vectorUpdate_eq, Prog.bind_of_ok hgrow]
            rfl
          · rw [itemsAt_some hq]
            exact hstarts'.items_eq hused'

theorem firstUpdate_run {w : World ProcessStats} (hw : Ready w) {p : Ptr} {v : SgVector ProcessStats}
    (hv : w.store p = some v) (hroomy : Roomy v) (hempty : v.usedCount = 0) {n : Nat}
    (hn : n ≤ itemLimit) :
    ∃ vector w', vectorUpdated ProcessStats.info (some p) (.sum 0 n) w = .ok (.ok vector, w') ∧
      Ready w' ∧ Holding w' vector [] := by
  have hstarts : Starts v [] := by
    refine ⟨Nat.zero_le _, ?_, ?_⟩
    · intro i x hi
      cases hi
    · intro i _ hi
      omega
  by_cases hzero : n = 0
  · have hresize : vectorCreateOrResize ProcessStats.info (some p) (CountArg.sum 0 n).value w
        = .ok (none, ((w.shrink p v 0).drop p).cleared) := by
      rw [CountArg.value, hzero]
      exact sgVectorResize_zero hv (fun _ => hroomy.within)
    refine ⟨none, ((w.shrink p v 0).drop p).cleared, ?_, ⟨?_, hw.bounded, hw.plenty⟩, rfl⟩
    · rw [vectorUpdated, Prog.bind_of_ok hresize]
      simp only [CountArg.negated, hzero]
      rfl
    · exact (((World.Handover.own (hw.fresh.lt hv)).shrink v 0).drop.cleared).fresh hw.fresh
  · obtain ⟨q, w', v', hgrow, hw', hq, hroomy', hstarts', -⟩ :=
      @vectorUpdated_grow w hw (some p) [] ⟨v, hv, hroomy, hstarts⟩ (.sum 0 n)
        (by rw [CountArg.value]; omega) (by rw [CountArg.value]; omega) (Nat.zero_le _)
    exact ⟨some q, w', hgrow, hw', v', hq, hroomy', hstarts'⟩

/-- The pids bound the rounds: no page but the first one is empty. -/
theorem measure_le {pages : List (List Int)} (hfilled : ∀ page ∈ pages.tail, page ≠ [])
    (vector : Option Ptr) :
    (⟨pages, 0, 0, vector⟩ : Loop).measure ≤ 2 * pages.flatten.length + 1 := by
  have htail : ∀ rest : List (List Int), (∀ page ∈ rest, page ≠ []) → rest.length ≤ rest.flatten.length := by
    intro rest hrest
    induction rest with
    | nil => exact le_rfl
    | cons page rest ih =>
        have hpage := List.length_pos_iff.mpr (hrest page List.mem_cons_self)
        have ih := ih fun q hq => hrest q (List.mem_cons_of_mem page hq)
        rw [List.flatten_cons, List.length_append, List.length_cons]
        omega
  rw [Loop.measure, remaining_start]
  cases pages with
  | nil => simp
  | cons page rest =>
      have hrest := htail rest hfilled
      rw [List.flatten_cons, List.length_append, List.length_cons]
      omega

/-- `sg_get_process_stats_int` once the pids are listed, with enough memory from there on. -/
theorem sgGetProcessStatsInt_listed {src : ProcessSource} {uptime : Int} {chain : PidChain}
    {pids : List Int} (hlists : Lists chain pids) (hfew : pids.length ≤ itemLimit)
    (hlines : ∀ pid ∈ pids, CommLine src pid) {w : World ProcessStats} {t : Thread}
    (hpids : processPids src.toProcFs w.toThread = .ok (.ok (uptime, chain), t))
    (hw : Ready { w with toThread := t }) {p : Ptr} {v : SgVector ProcessStats} (hv : w.store p = some v)
    (hroomy : Roomy v) (hempty : v.usedCount = 0) {fuel : Nat} (hfuel : 2 * pids.length + 1 ≤ fuel) :
    ∃ vector' w' parts,
      sgGetProcessStatsInt src fuel (some p) w = .ok (some (.none, vector'), w') ∧
      List.Forall₂ (Adds src uptime) pids parts ∧ w'.itemsAt vector' = parts.flatten := by
  obtain ⟨hflat, hfilled⟩ := hlists
  have hfirst : ((pagesOf chain).headD []).length ≤ itemLimit := by
    have hle : ((pagesOf chain).headD []).length ≤ (pagesOf chain).flatten.length := by
      cases pagesOf chain with
      | nil => exact Nat.zero_le _
      | cons page pages => simp
    rw [hflat] at hle
    omega
  obtain ⟨vector, w2, hgrow, hw2, hholding⟩ := firstUpdate_run hw hv hroomy hempty hfirst
  have hleft : (⟨pagesOf chain, 0, 0, vector⟩ : Loop).remaining = pids :=
    (remaining_start _ _ _).trans hflat
  have hat : At w2 ⟨pagesOf chain, 0, 0, vector⟩ [] := by
    refine ⟨hw2, hholding, rfl, ?_, hfilled⟩
    rw [hleft, List.length_nil, Nat.zero_add]
    exact hfew
  obtain ⟨s', w3, parts, hloop, hparts, hat3⟩ :=
    processLoop_run uptime fuel hat (by rwa [hleft]) (by
      have hmeasure := measure_le hfilled vector
      rw [hflat] at hmeasure
      omega)
  rw [List.nil_append] at hat3
  have hroom := hat3.room
  obtain ⟨vector', w4, htrim, hitems⟩ := trimItems_run hat3.ready hat3.holding (by omega)
  rw [← hat3.count] at htrim
  refine ⟨vector', w4, parts, ?_, hleft ▸ hparts, hitems⟩
  rw [sgGetProcessStatsInt, Prog.bind_of_ok (onThread_run hpids)]
  simp only
  rw [← pagesOf, Prog.bind_of_ok hgrow]
  simp only
  rw [Prog.bind_of_ok hloop]
  simp only
  rw [Prog.bind_of_ok htrim]
  rfl

/-! ### The list is exact -/

/-- Numbers with a tab before each, and the end of the line. -/
def tabbed : List UInt32 → List UInt8
  | [] => [10]
  | n :: ns => 9 :: (decimalInt n.toNat ++ tabbed ns)

/-- The lines of the ids are in the format of the kernel: four ids, the real one and the effective one
first. -/
def StatusLines.KernelIds (lines : StatusLines) : Prop :=
  (∃ real effective saved fs, lines.uid = bytes "Uid:" ++ tabbed [real, effective, saved, fs]) ∧
    ∃ real effective saved fs, lines.gid = bytes "Gid:" ++ tabbed [real, effective, saved, fs]

/-- The directives of the formats of the ids behind the key. -/
def idsDirectives : List Directive :=
  [.space, .convert false none .u, .space, .convert false none .u, .space, .convert true none .d,
    .space, .convert true none .d, .space]

theorem zero_notMem_tabbed (ns : List UInt32) : 0 ∉ tabbed ns := by
  induction ns with
  | nil => decide
  | cons n ns ih =>
      rw [tabbed, List.mem_cons, List.mem_append, not_or, not_or]
      refine ⟨by decide, ?_, ih⟩
      intro hdigit
      exact absurd (@isDigit_of_mem_decimal n.toNat 0 hdigit) (by decide)

theorem noDigit_tabbed (ns : List UInt32) : NoDigit (tabbed ns) := by
  cases ns with
  | nil => exact noDigit_cons rfl _
  | cons n ns => exact noDigit_cons rfl _

/-- Both ids of a line of the kernel are read. -/
theorem idAt_tabbed {key fmt : String} (hkey : 0 ∉ bytes key)
    (hfmt : parse none (bytes fmt) = some ((bytes key).map .literal ++ idsDirectives))
    (real effective : UInt32) (others : List UInt32) :
    ∀ i < 2, (idAt (bytes key ++ tabbed (real :: effective :: others)) fmt i).isSome := by
  have htext : (bytes key ++ tabbed (real :: effective :: others)).takeWhile (· ≠ 0)
      = bytes key ++ tabbed (real :: effective :: others) := by
    rw [List.takeWhile_eq_self_iff]
    intro b hb
    rw [decide_eq_true_eq]
    rintro rfl
    rcases List.mem_append.mp hb with hb | hb
    · exact hkey hb
    · exact zero_notMem_tabbed _ hb
  intro i hi
  rw [idAt, sscanf, htext, scanf, hfmt]
  simp only
  rw [scan_literals, idsDirectives, tabbed,
    scan_number (by rfl) ⟨by simp, by simp⟩ real.toNat (noDigit_tabbed _), tabbed,
    scan_number (by rfl) ⟨by simp, by simp⟩ effective.toNat (noDigit_tabbed _)]
  obtain rfl | rfl : i = 0 ∨ i = 1 := by omega
  · rfl
  · rfl

theorem StatusLines.KernelIds.ids {lines : StatusLines} (h : lines.KernelIds) : lines.Ids := by
  obtain ⟨⟨ruid, euid, suid, fsuid, huid⟩, rgid, egid, sgid, fsgid, hgid⟩ := h
  constructor
  · rw [huid]
    exact idAt_tabbed (by decide) (by decide +kernel) ruid euid [suid, fsuid]
  · rw [hgid]
    exact idAt_tabbed (by decide) (by decide +kernel) rgid egid [sgid, fsgid]

def Listed (src : ProcessSource) (pid : Int) : Bool := (listing (src.files pid)).isSome

/-- Every field of the item is what the files of the process say. -/
def ItemOf (src : ProcessSource) (uptime pid : Int) (item : ProcessStats) : Prop :=
  ∃ l, listing (src.files pid) = some l ∧ l.Says src uptime item

/-- Whatever empty vector it starts with, `sg_get_process_stats_int` comes to its end and leaves one item
for each process whose files are all there, in the order of the pids, and every field of it is from these
files. -/
def ExactList (src : ProcessSource) (uptime : Int) (pids : List Int) : Prop :=
  ∀ (w : World ProcessStats) (p : Ptr) (v : SgVector ProcessStats) (fuel : Nat), Ready w →
    w.store p = some v → Roomy v → v.usedCount = 0 → 2 * pids.length + 1 ≤ fuel →
    ∃ vector' w', sgGetProcessStatsInt src fuel (some p) w = .ok (some (.none, vector'), w') ∧
      List.Forall₂ (ItemOf src uptime) (pids.filter (Listed src)) (w'.itemsAt vector')

theorem forall₂_listed {src : ProcessSource} {uptime : Int} {pids : List Int}
    {parts : List (List ProcessStats)} (h : List.Forall₂ (Adds src uptime) pids parts)
    (hids : ∀ pid ∈ pids, ∀ l, listing (src.files pid) = some l → l.lines.KernelIds)
    (hswitches : ∀ pid ∈ pids, ∀ l, listing (src.files pid) = some l → l.lines.Switches) :
    List.Forall₂ (ItemOf src uptime) (pids.filter (Listed src)) parts.flatten := by
  induction h with
  | nil => exact .nil
  | @cons pid new pids parts hadds _ ih =>
      have ih := ih (fun q hq => hids q (List.mem_cons_of_mem pid hq))
        (fun q hq => hswitches q (List.mem_cons_of_mem pid hq))
      rw [Adds] at hadds
      cases hfiles : listing (src.files pid) with
      | none =>
          rw [hfiles] at hadds
          have hnot : ¬ Listed src pid = true := by
            rw [Listed, hfiles]
            simp
          rw [List.filter_cons_of_neg hnot, List.flatten_cons, show new = [] from hadds, List.nil_append]
          exact ih
      | some l =>
          rw [hfiles] at hadds
          obtain ⟨old, hblank, rfl⟩ := hadds
          have hlisted : Listed src pid = true := by
            rw [Listed, hfiles]
            rfl
          rw [List.filter_cons_of_pos hlisted, List.flatten_cons, List.singleton_append]
          refine .cons ⟨l, hfiles, ?_⟩ ih
          exact Listing.says_of_numbers src uptime (listing_shapes hfiles)
            (hids pid List.mem_cons_self l hfiles).ids (hswitches pid List.mem_cons_self l hfiles) hblank

/-- What is met by a read: the uptime and the pids, no more than there can be, a line in every
`/proc/PID/comm` that can be opened, and the ids as the kernel writes them. -/
structure Scanned (src : ProcessSource) (uptime : Int) (pids : List Int) : Prop where
  uptime : src.uptime = .ok (some uptime)
  dir : ∃ entries, src.dir.entries = .ok entries ∧ entries.filterMap id = pids
  few : pids.length ≤ itemLimit
  comm : ∀ pid ∈ pids, CommLine src pid
  ids : ∀ pid ∈ pids, ∀ l, listing (src.files pid) = some l → l.lines.KernelIds

def noProcesses : SgVector ProcessStats :=
  ⟨0, 1, 0, ProcessStats.info, 1, fun _ => .zero⟩

def beforeRead : World ProcessStats := (emptyWorld ProcessStats).place noProcesses

theorem beforeRead_ready : Ready beforeRead := by
  refine ⟨?_, rfl, fun _ => rfl⟩
  intro p hp
  have hne : p ≠ 0 := Nat.one_le_iff_ne_zero.mp hp
  exact Function.update_of_ne hne _ _

theorem getElem?_snoc {α : Type} {pre : List α} {a b : α} {c : Nat}
    (h : (pre ++ [a])[c]? = some b) : (c < pre.length ∧ pre[c]? = some b) ∨ (c = pre.length ∧ a = b) := by
  rcases Nat.lt_or_ge c pre.length with hlt | hge
  · rw [List.getElem?_append_left hlt] at h
    exact .inl ⟨hlt, h⟩
  · rw [List.getElem?_append_right hge] at h
    rw [List.getElem?_singleton] at h
    split at h
    · exact .inr ⟨by omega, Option.some.inj h⟩
    · cases h

theorem exists_of_forall₂ {α β : Type} {r : α → β → Prop} {as : List α} {bs : List β}
    (h : List.Forall₂ r as bs) {a : α} (ha : a ∈ as) : ∃ b, r a b := by
  induction h with
  | nil => cases ha
  | @cons a' b as bs hab _ ih =>
      rcases List.mem_cons.mp ha with rfl | ha
      · exact ⟨b, hab⟩
      · exact ih ha

theorem ExactList.switches {src : ProcessSource} {uptime : Int} {pids : List Int}
    (h : ExactList src uptime pids) {pid : Int} (hpid : pid ∈ pids) {l : Listing}
    (hl : listing (src.files pid) = some l) : l.lines.Switches := by
  obtain ⟨vector', w', -, hitems⟩ := h beforeRead 0 noProcesses _ beforeRead_ready rfl
    ⟨rfl, by decide, by decide, by decide⟩ rfl le_rfl
  have hmem : pid ∈ pids.filter (Listed src) := by
    rw [List.mem_filter, Listed, hl]
    exact ⟨hpid, rfl⟩
  obtain ⟨item, l', hl', hfields⟩ := exists_of_forall₂ hitems hmem
  rw [hl] at hl'
  cases hl'
  exact hfields.numbers

/-- The list is exact if and only if every line that announces the context switches of a listed process has
their number. -/
theorem exactList_iff (src : ProcessSource) (uptime : Int) (pids : List Int)
    (h : Scanned src uptime pids) :
    ExactList src uptime pids ↔
      ∀ pid ∈ pids, ∀ l, listing (src.files pid) = some l → l.lines.Switches := by
  constructor
  · intro hexact pid hpid l hl
    exact hexact.switches hpid hl
  · intro hswitches w p v fuel hw hv hroomy hempty hfuel
    obtain ⟨entries, hdir, rfl⟩ := h.dir
    obtain ⟨chain, t, hpids, hplenty, hlists⟩ := processPids_run h.uptime hdir hw.plenty
    obtain ⟨vector', w', parts, hrun, hparts, hitems⟩ := sgGetProcessStatsInt_listed hlists h.few h.comm
      hpids ⟨hw.fresh, hw.bounded, hplenty⟩ hv hroomy hempty hfuel
    refine ⟨vector', w', hrun, ?_⟩
    rw [hitems]
    exact forall₂_listed hparts h.ids hswitches

/-- A `/proc/PID/status` with the ids and this line of context switches. -/
def statusText (voluntary : String) : Stream :=
  ⟨bytes ("Uid:\t0\t0\t0\t0\nGid:\t0\t0\t0\t0\n" ++ voluntary), none⟩

/-- Two processes. The first one has switched seven times and vanishes before its title is read, and the
second one has this line of context switches. -/
def ProcessSource.announcing (voluntary : String) : ProcessSource :=
  { ProcessSource.idle with
    dir := ⟨.ok [some 1, some 2], 0⟩
    files := fun pid =>
      if pid = 1 then { statOnly (bytes "sh") with status := some (statusText "voluntary_ctxt_switches:\t7\n") }
      else
        { statOnly (bytes "sh") with
          status := some (statusText voluntary)
          cmdline := some ⟨[], false, List.forall_mem_nil _⟩ } }

/-- The lines of this `/proc/PID/status`. -/
theorem statusLines_announcing :
    (∀ voluntary ∈ ["voluntary_ctxt_switches:\t7\n", "voluntary_ctxt_switches:\n"],
      statusLines (statusText voluntary) = some ⟨bytes "Uid:" ++ tabbed [0, 0, 0, 0],
        bytes "Gid:" ++ tabbed [0, 0, 0, 0], some (bytes voluntary), none⟩) := by
  decide +kernel

theorem listing_announcing {voluntary : String}
    (hv : voluntary ∈ ["voluntary_ctxt_switches:\t7\n", "voluntary_ctxt_switches:\n"]) {pid : Int}
    {l : Listing} (hl : listing ((ProcessSource.announcing voluntary).files pid) = some l) :
    ∃ line ∈ ["voluntary_ctxt_switches:\t7\n", voluntary], l.lines = ⟨bytes "Uid:" ++ tabbed [0, 0, 0, 0],
        bytes "Gid:" ++ tabbed [0, 0, 0, 0], some (bytes line), none⟩ := by
  have hlines := listing_lines hl
  rw [ProcessSource.announcing] at hlines
  simp only at hlines
  split at hlines
  · rw [Option.bind_some, statusLines_announcing _ (by simp)] at hlines
    exact ⟨_, by simp, (Option.some.inj hlines).symm⟩
  · rw [Option.bind_some, statusLines_announcing _ hv] at hlines
    exact ⟨_, by simp, (Option.some.inj hlines).symm⟩

theorem scanned_announcing {voluntary : String}
    (hv : voluntary ∈ ["voluntary_ctxt_switches:\t7\n", "voluntary_ctxt_switches:\n"]) :
    Scanned (.announcing voluntary) 1 [1, 2] := by
  refine ⟨rfl, ⟨_, rfl, rfl⟩, by decide, ?_, ?_⟩
  · intro pid _
    rw [CommLine, ProcessSource.announcing]
    simp only
    split
    · simp [readComm, statOnly]
    · simp [readComm, statOnly]
  · intro pid _ l hl
    obtain ⟨line, -, hlines⟩ := listing_announcing hv hl
    rw [hlines]
    exact ⟨⟨0, 0, 0, 0, rfl⟩, 0, 0, 0, 0, rfl⟩

theorem exactList_announcing : ExactList (.announcing "voluntary_ctxt_switches:\t7\n") 1 [1, 2] := by
  apply (exactList_iff _ 1 [1, 2] (scanned_announcing (by simp))).mpr
  intro pid _ l hl
  obtain ⟨line, hline, hlines⟩ := listing_announcing (by simp) hl
  obtain rfl : line = "voluntary_ctxt_switches:\t7\n" := by simpa using hline
  rw [hlines, StatusLines.Switches]
  decide +kernel

/-- The second process is listed with the context switches of the first one. -/
theorem not_exactList_announcing :
    Scanned (.announcing "voluntary_ctxt_switches:\n") 1 [1, 2] ∧
      (sgGetProcessStatsInt (.announcing "voluntary_ctxt_switches:\n") 4 (some 0) beforeRead).toOption.map
        (fun r => (r.2.itemsAt (r.1.bind Prod.snd)).map ProcessStats.voluntaryContextSwitches) = some [7] ∧
      ¬ ExactList (.announcing "voluntary_ctxt_switches:\n") 1 [1, 2] := by
  refine ⟨scanned_announcing (by simp), by decide +kernel, ?_⟩
  intro h
  obtain ⟨l, hl⟩ := Option.isSome_iff_exists.mp
    (show (listing ((ProcessSource.announcing "voluntary_ctxt_switches:\n").files 2)).isSome from by
      decide +kernel)
  have hswitches := h.switches (by simp) hl
  have hlines := listing_lines hl
  rw [show ((ProcessSource.announcing "voluntary_ctxt_switches:\n").files 2).status
    = some (statusText "voluntary_ctxt_switches:\n") from rfl, Option.bind_some,
    statusLines_announcing _ (by simp)] at hlines
  rw [← Option.some.inj hlines, StatusLines.Switches] at hswitches
  exact absurd hswitches (by decide +kernel)

end Statgrab.Process
