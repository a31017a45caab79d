import Statgrab.Lib.Chain
import Statgrab.Process.Listing

/-!
# The pages of pids

`scan_proc_dir` with its memory. The pids are kept in blocks of one page each, which are linked as they fill up;
the room of a page is what is left of `sys_page_size` behind its header. Where a page is refused, the chain is
given back from its start. A name that `sscanf` comes to the end of without a number makes it return EOF, which
is not 0: then a pid is added that was never stored.

The chain refines the one of `Statgrab.Stats.ProcDir`, which is a list of lists.
-/

namespace Statgrab

open Text Scanf

/-! ### The code -/

/-- `struct pids_in_proc_dir_t`. -/
structure PidPage where
  nitems : Nat
  next : Option Nat
  items : Nat → Int

def PidPage.pids (page : PidPage) : List Int := (List.range page.nitems).map page.items

def PidPage.append (page : PidPage) (pid : Int) : PidPage :=
  { page with nitems := page.nitems + 1, items := Function.update page.items page.nitems pid }

inductive ProcBlock where
  | page (page : PidPage)
  | entry

/-- The thread that scans and its memory. `raw` is what fresh memory holds; `frees` counts how often a block
was given back, and `refusals` the requests that were refused. -/
structure PidMem extends Thread where
  heap : Heap ProcBlock
  raw : Nat → Nat → Int
  frees : Nat → Nat
  refusals : Nat

abbrev PidMemM := Prog Fault PidMem

/-- What a scan meets: the errno of a failed `opendir`, or the names, and what `readdir_r` returns after the last
of them. -/
structure DirNames where
  entries : Except Int (List CString)
  readdirRc : Int

namespace PidMem

def onThread {β : Type} (x : ThreadM β) : PidMemM β :=
  Prog.zoom PidMem.toThread (fun w t => { w with toThread := t }) x

/-- `malloc` and `calloc`, with what the block holds at its address. -/
def alloc (block : Nat → ProcBlock) : PidMemM (Option Nat) := fun w =>
  if w.mem 0 then
    .ok (some w.heap.next, { w with
      toThread := w.toThread.answered
      heap := w.heap.place (block w.heap.next) })
  else .ok (none, { w with toThread := w.toThread.answered, refusals := w.refusals + 1 })

/-- `free(p)`. -/
def release (p : Nat) : PidMemM Unit := fun w =>
  match w.heap.blocks p with
  | some _ => .ok ((), { w with
      heap := w.heap.drop p
      frees := fun q => w.frees q + if q = p then 1 else 0 })
  | none => .error .released

/-- `*pipd`. -/
def loadPage (p : Nat) : PidMemM PidPage := fun w =>
  match w.heap.blocks p with
  | some (.page page) => .ok (page, w)
  | _ => .error .released

/-- `*pipd = page`. -/
def storePage (p : Nat) (page : PidPage) : PidMemM Unit :=
  Prog.modify fun w => { w with heap := w.heap.put p (.page page) }

/-- `alloc_pids_in_proc_dir`. The header of a page takes 16 bytes. -/
def allocPidsInProcDir (pageSize : Nat) : PidMemM (Option Nat) := do
  let raw ← Prog.gets PidMem.raw
  let pipd ← alloc fun p => .page ⟨0, none, raw p⟩
  if pipd.isSome ∧ pageSize < 16 then Prog.fault .outOfBlock else return pipd

/-- The loop of `free_pids_in_proc_dir`, which gives a block back in each round. -/
def freeLoop (includeChildren : Bool) : Nat → Option Nat → Option Nat → PidMemM (Option Nat)
  | 0, _, _ => Prog.fault .released
  | _ + 1, none, next => return next
  | fuel + 1, some p, _ => do
      let page ← loadPage p
      release p
      freeLoop includeChildren fuel (if includeChildren then page.next else none) page.next

def freePidsInProcDir (pipd : Option Nat) (includeChildren : Bool) : PidMemM (Option Nat) := do
  let blocks ← Prog.gets fun w => w.heap.next
  freeLoop includeChildren (blocks + 1) pipd none

/-- `pipd->items[pipd->nitems++] = pid`. -/
def appendPid (pageSize : Nat) (pid : Int) (pipd : Nat) : PidMemM Unit := do
  let page ← loadPage pipd
  if pageSize < 16 + 4 * page.nitems + 4 then Prog.fault .outOfBlock
  else storePage pipd (page.append pid)

def addPidToPidsInProcDir (pageSize : Nat) (pid : Int) (pipd : Nat) : PidMemM (Option Nat) := do
  let page ← loadPage pipd
  if pipdIsFull pageSize page.nitems then
    let new ← allocPidsInProcDir pageSize
    storePage pipd { page with next := new }
    match new with
    | none => return none
    | some q =>
        appendPid pageSize pid q
        return some q
  else
    appendPid pageSize pid pipd
    return some pipd

/-- `sscanf(d_name, FMT_PID_T, &pid)`: the returned number, and what is stored. -/
def scanPid (name : CString) : Int × Option Int :=
  let result := scanf (bytes "%d") name
  (returned result, Process.numberAt? result.1 0)

/-- The loop of `scan_proc_dir` from the `k`-th name on: the chain, and the code of the last `readdir_r`.
`stale k` is what `pid` holds in this round where nothing is stored to it. -/
def scanLoop (pageSize : Nat) (stale : Nat → Int) (readdirRc : Int) (cnt : Nat) :
    Nat → List CString → Nat → PidMemM (Option Nat × Int)
  | _, [], _ => return (some cnt, readdirRc)
  | k, name :: names, wrk =>
      if (scanPid name).1 ≠ 0 then do
        let added ← addPidToPidsInProcDir pageSize ((scanPid name).2.getD (stale k)) wrk
        match added with
        | none =>
            let _ ← freePidsInProcDir (some cnt) true
            return (none, 0)
        | some wrk => scanLoop pageSize stale readdirRc cnt (k + 1) names wrk
      else scanLoop pageSize stale readdirRc cnt (k + 1) names wrk

/-- The end of `scan_proc_dir`. -/
def finishScan (dirEntry : Nat) (scanned : Option Nat × Int) : PidMemM (Option Nat) := do
  if scanned.2 ≠ 0 then onThread (sgSetError .readdir scanned.2 "/proc")
  release dirEntry
  return scanned.1

/-- `scan_proc_dir` with the first page and the directory entry. -/
def scanEntries (pageSize : Nat) (stale : Nat → Int) (dir : DirNames) (cnt dirEntry : Nat) :
    PidMemM (Option Nat) :=
  match dir.entries with
  | .error errno => do
      onThread (sgSetError .opendir errno "/proc")
      let _ ← freePidsInProcDir (some cnt) true
      release dirEntry
      return none
  | .ok names => do
      let scanned ← scanLoop pageSize stale dir.readdirRc cnt 0 names cnt
      finishScan dirEntry scanned

def scanProcDir (pageSize : Nat) (stale : Nat → Int) (dir : DirNames) : PidMemM (Option Nat) := do
  let cnt ← allocPidsInProcDir pageSize
  match cnt with
  | none => return none
  | some cnt => do
      let dirEntry ← alloc fun _ => .entry
      match dirEntry with
      | none =>
          let _ ← freePidsInProcDir (some cnt) true
          return none
      | some dirEntry => scanEntries pageSize stale dir cnt dirEntry

/-- The loop of `sg_get_process_stats_int` over the pages, which gives a page back once its pids are done: the
pages it comes to, with their pids. -/
def drain : Nat → Option Nat → PidMemM (List (Nat × List Int))
  | 0, _ => Prog.fault .released
  | _ + 1, none => return []
  | fuel + 1, some p => do
      let page ← loadPage p
      let next ← freePidsInProcDir (some p) false
      let rest ← drain fuel next
      return (p, page.pids) :: rest

/-! ### Memory -/

def gone (w : PidMem) (ps : List Nat) : PidMem :=
  { w with heap := w.heap.dropAll ps, frees := fun q => w.frees q + ps.count q }

theorem gone_gone (w : PidMem) (ps qs : List Nat) : (w.gone ps).gone qs = w.gone (ps ++ qs) := by
  have hfrees : (fun q => w.frees q + ps.count q + qs.count q) = fun q => w.frees q + (ps ++ qs).count q := by
    funext q
    rw [List.count_append, Nat.add_assoc]
  have hheap : (w.heap.dropAll ps).dropAll qs = w.heap.dropAll (ps ++ qs) := by
    rw [Heap.dropAll, Heap.dropAll, Heap.dropAll, List.foldl_append]
  simp only [gone, hfrees, hheap]

section

variable {w w' : PidMem} {p q : Nat} {page : PidPage}

theorem loadPage_run (hp : w.heap.blocks p = some (.page page)) : loadPage p w = .ok (page, w) := by
  rw [loadPage, hp]

theorem release_run {block : ProcBlock} (hp : w.heap.blocks p = some block) :
    release p w = .ok ((), w.gone [p]) := by
  have hfrees : (fun q => w.frees q + if q = p then 1 else 0) = fun q => w.frees q + [p].count q := by
    funext q
    by_cases hq : q = p
    · rw [hq, if_pos rfl, List.count_singleton_self]
    · rw [if_neg hq, List.count_eq_zero_of_not_mem (by simpa using hq)]
  rw [release, hp]
  simp only [hfrees]
  rfl

theorem pids_length (page : PidPage) : page.pids.length = page.nitems := by
  rw [PidPage.pids, List.length_map, List.length_range]

theorem append_pids (page : PidPage) (pid : Int) : (page.append pid).pids = page.pids ++ [pid] := by
  have hnew : (page.append pid).items page.nitems = pid := Function.update_self _ _ _
  have hold : (List.range page.nitems).map (page.append pid).items = page.pids := by
    apply List.map_congr_left
    intro i hi
    exact Function.update_of_ne (Nat.ne_of_lt (List.mem_range.mp hi)) _ _
  have hcount : (page.append pid).nitems = page.nitems + 1 := rfl
  rw [PidPage.pids, hcount, List.range_succ, List.map_append, List.map_singleton, hnew, hold]

end

/-! ### Chains of pages -/

def link : ProcBlock → Option Nat
  | .page page => page.next
  | .entry => none

def pageNodes (ns : List (Nat × PidPage)) : List (Nat × ProcBlock) := ns.map fun n => (n.1, .page n.2)

/-- From `p` on, these pages are linked up to `q`. -/
def Pages (w : PidMem) (p : Option Nat) (ns : List (Nat × PidPage)) (q : Option Nat) : Prop :=
  w.heap.Chain link p (pageNodes ns) q

section

variable {w w' : PidMem} {p q : Option Nat} {ns : List (Nat × PidPage)}

theorem pageNodes_addrs (ns : List (Nat × PidPage)) : (pageNodes ns).map Prod.fst = ns.map Prod.fst := by
  rw [pageNodes, List.map_map]
  rfl

theorem pageNodes_injective : Function.Injective pageNodes := by
  apply List.map_injective_iff.mpr
  rintro ⟨a, page⟩ ⟨a', page'⟩ h
  cases h
  rfl

theorem pages_snoc {a : Nat} {page : PidPage} :
    w.Pages p (ns ++ [(a, page)]) q ↔
      w.Pages p ns (some a) ∧ w.heap.blocks a = some (.page page) ∧ page.next = q := by
  rw [Pages, pageNodes, List.map_append]
  exact Heap.chain_snoc

theorem Pages.frame (h : w.Pages p ns q) (hsame : ∀ a ∈ ns.map Prod.fst, w'.heap.blocks a = w.heap.blocks a) :
    w'.Pages p ns q := by
  apply Heap.Chain.frame h
  rw [pageNodes_addrs]
  exact hsame

theorem Pages.gone (h : w.Pages p ns q) {a : Nat} (ha : a ∉ ns.map Prod.fst) : (w.gone [a]).Pages p ns q := by
  apply h.frame
  intro b hb
  exact Heap.drop_of_ne fun hba => ha (hba ▸ hb)

/-- The loop of `free_pids_in_proc_dir` gives a whole chain back. -/
theorem freeLoop_children (h : w.Pages p ns none) (hnodup : (ns.map Prod.fst).Nodup) {fuel : Nat}
    (hfuel : ns.length < fuel) {next : Option Nat} (hnext : ns = [] → next = none) :
    freeLoop true fuel p next w = .ok (none, w.gone (ns.map Prod.fst)) := by
  induction ns generalizing w p fuel next with
  | nil =>
      have hp : p = none := h
      obtain ⟨fuel, rfl⟩ := Nat.exists_eq_succ_of_ne_zero (Nat.ne_zero_of_lt hfuel)
      rw [hp, freeLoop, hnext rfl]
      rfl
  | cons n ns ih =>
      obtain ⟨hp, hb, hrest⟩ := h
      obtain ⟨fuel, rfl⟩ := Nat.exists_eq_succ_of_ne_zero (Nat.ne_zero_of_lt hfuel)
      rw [List.map_cons, List.nodup_cons] at hnodup
      have hleft : (w.gone [n.1]).Pages n.2.next ns none := Pages.gone hrest hnodup.1
      have hlast : ns = [] → n.2.next = none := by
        rintro rfl
        exact hleft
      rw [hp, freeLoop, Prog.bind_of_ok (loadPage_run hb), Prog.bind_of_ok (release_run hb), if_pos rfl,
        ih hleft hnodup.2 (Nat.lt_of_succ_lt_succ hfuel) hlast, gone_gone, List.singleton_append, List.map_cons]

theorem freePidsInProcDir_one {a : Nat} {page : PidPage} (hlt : a < w.heap.next)
    (ha : w.heap.blocks a = some (.page page)) :
    freePidsInProcDir (some a) false w = .ok (page.next, w.gone [a]) := by
  obtain ⟨blocks, hblocks⟩ := Nat.exists_eq_succ_of_ne_zero (Nat.ne_zero_of_lt hlt)
  rw [freePidsInProcDir, Prog.bind_of_ok (Prog.gets_run _ w), hblocks, freeLoop,
    Prog.bind_of_ok (loadPage_run ha), Prog.bind_of_ok (release_run ha)]
  rfl

end

/-- The drain comes to every page of a chain once, and gives it back. -/
theorem drain_run {w : PidMem} {p : Option Nat} {ns : List (Nat × PidPage)} (h : w.Pages p ns none)
    (hnodup : (ns.map Prod.fst).Nodup) (hlt : ∀ a ∈ ns.map Prod.fst, a < w.heap.next) {fuel : Nat}
    (hfuel : ns.length < fuel) :
    drain fuel p w = .ok (ns.map fun n => (n.1, n.2.pids), w.gone (ns.map Prod.fst)) := by
  induction ns generalizing w p fuel with
  | nil =>
      have hp : p = none := h
      obtain ⟨fuel, rfl⟩ := Nat.exists_eq_succ_of_ne_zero (Nat.ne_zero_of_lt hfuel)
      rw [hp]
      rfl
  | cons n ns ih =>
      obtain ⟨hp, hb, hrest⟩ := h
      obtain ⟨fuel, rfl⟩ := Nat.exists_eq_succ_of_ne_zero (Nat.ne_zero_of_lt hfuel)
      rw [List.map_cons, List.nodup_cons] at hnodup
      rw [List.map_cons, List.forall_mem_cons] at hlt
      have hleft : (w.gone [n.1]).Pages n.2.next ns none := Pages.gone hrest hnodup.1
      have hrun := ih hleft hnodup.2 hlt.2 (Nat.lt_of_succ_lt_succ hfuel)
      rw [hp, drain, Prog.bind_of_ok (loadPage_run hb), Prog.bind_of_ok (freePidsInProcDir_one hlt.1 hb),
        Prog.bind_of_ok hrun, gone_gone]
      rfl

/-! ### A pid is added -/

section

variable {w : PidMem} {pageSize : Nat}

theorem alloc_of_mem (hmem : w.mem 0 = true) (block : Nat → ProcBlock) :
    alloc block w = .ok (some w.heap.next, { w with
      toThread := w.toThread.answered, heap := w.heap.place (block w.heap.next) }) := by
  rw [alloc, if_pos hmem]

theorem alloc_of_not_mem (hmem : w.mem 0 = false) (block : Nat → ProcBlock) :
    alloc block w = .ok (none, { w with
      toThread := w.toThread.answered, refusals := w.refusals + 1 }) := by
  rw [alloc, if_neg (by rw [hmem]; exact Bool.false_ne_true)]

theorem allocPidsInProcDir_of_mem (hpage : 16 ≤ pageSize) (hmem : w.mem 0 = true) :
    allocPidsInProcDir pageSize w = .ok (some w.heap.next, { w with
      toThread := w.toThread.answered
      heap := w.heap.place (.page ⟨0, none, w.raw w.heap.next⟩) }) := by
  rw [allocPidsInProcDir, Prog.bind_of_ok (Prog.gets_run _ w), Prog.bind_of_ok (alloc_of_mem hmem _),
    if_neg fun hsmall => Nat.not_lt.mpr hpage hsmall.2]
  rfl

theorem allocPidsInProcDir_of_not_mem (hmem : w.mem 0 = false) :
    allocPidsInProcDir pageSize w = .ok (none, { w with
      toThread := w.toThread.answered, refusals := w.refusals + 1 }) := by
  rw [allocPidsInProcDir, Prog.bind_of_ok (Prog.gets_run _ w), Prog.bind_of_ok (alloc_of_not_mem hmem _)]
  rfl

theorem appendPid_run {p : Nat} {page : PidPage} (hp : w.heap.blocks p = some (.page page))
    (hroom : 16 + 4 * page.nitems + 4 ≤ pageSize) (pid : Int) :
    appendPid pageSize pid p w = .ok ((), { w with heap := w.heap.put p (.page (page.append pid)) }) := by
  rw [appendPid, Prog.bind_of_ok (loadPage_run hp), if_neg (Nat.not_lt.mpr hroom)]
  rfl

end

/-- The chain is being built from its first page `cnt` on, up to its last one `wrk`. The directory entry lies
behind the first page, and the other pages behind the entry. -/
structure Building (w : PidMem) (cnt wrk : Nat) (chain : PidChain) (front : List (Nat × PidPage))
    (page : PidPage) : Prop where
  pages : w.Pages (some cnt) (front ++ [(wrk, page)]) none
  full : front.map (fun n => n.2.pids) = chain.full
  last : page.pids = chain.last
  addrs : (front ++ [(wrk, page)]).map Prod.fst = cnt :: List.range' (cnt + 2) front.length
  next : w.heap.next = cnt + 2 + front.length
  entry : w.heap.blocks (cnt + 1) = some .entry

def addrsFrom (cnt n : Nat) : List Nat := cnt :: List.range' (cnt + 2) n

theorem mem_addrsFrom {cnt n a : Nat} (ha : a ∈ addrsFrom cnt n) : a ≠ cnt + 1 ∧ a < cnt + 2 + n := by
  rcases List.mem_cons.mp ha with rfl | ha
  · omega
  · have hrange := List.mem_range'_1.mp ha
    omega

theorem addrsFrom_nodup (cnt n : Nat) : (addrsFrom cnt n).Nodup := by
  refine List.nodup_cons.mpr ⟨?_, List.nodup_range'⟩
  intro hmem
  have hrange := List.mem_range'_1.mp hmem
  omega

theorem addrsFrom_succ (cnt n : Nat) : addrsFrom cnt (n + 1) = addrsFrom cnt n ++ [cnt + 2 + n] := by
  rw [addrsFrom, List.range'_1_concat]
  rfl

section

variable {w w' : PidMem} {cnt wrk pageSize : Nat} {chain : PidChain} {front : List (Nat × PidPage)} {page : PidPage}

theorem Building.at_wrk (h : w.Building cnt wrk chain front page) :
    w.heap.blocks wrk = some (.page page) ∧ page.next = none := (pages_snoc.mp h.pages).2

theorem Building.nodup (h : w.Building cnt wrk chain front page) :
    ((front ++ [(wrk, page)]).map Prod.fst).Nodup := by
  rw [h.addrs]
  exact addrsFrom_nodup cnt front.length

theorem Building.wrk_notMem (h : w.Building cnt wrk chain front page) : wrk ∉ front.map Prod.fst := by
  have hnodup := h.nodup
  rw [List.map_append] at hnodup
  intro hmem
  exact (List.nodup_append.mp hnodup).2.2 wrk hmem wrk (by simp) rfl

theorem Building.mem_addrs (h : w.Building cnt wrk chain front page) {a : Nat}
    (ha : a ∈ (front ++ [(wrk, page)]).map Prod.fst) : a ≠ cnt + 1 ∧ a < w.heap.next := by
  rw [h.addrs] at ha
  rw [h.next]
  exact mem_addrsFrom ha

theorem Building.wrk_lt (h : w.Building cnt wrk chain front page) : wrk ≠ cnt + 1 ∧ wrk < w.heap.next :=
  h.mem_addrs (by simp)

theorem Building.nitems (h : w.Building cnt wrk chain front page) : page.nitems = chain.last.length := by
  rw [← h.last, pids_length]

theorem Building.append (h : w.Building cnt wrk chain front page) (pid : Int) (hw' : w'.heap =
    w.heap.put wrk (.page (page.append pid))) :
    w'.Building cnt wrk { chain with last := chain.last ++ [pid] } front (page.append pid) := by
  have hfront := (pages_snoc.mp h.pages).1
  refine ⟨pages_snoc.mpr ⟨?_, ?_, h.at_wrk.2⟩, h.full, ?_, ?_, ?_, ?_⟩
  · apply hfront.frame
    intro a ha
    rw [hw']
    exact Heap.put_of_ne fun heq => h.wrk_notMem (heq ▸ ha)
  · rw [hw']
    exact Heap.put_self _ _ _
  · rw [append_pids, h.last]
  · rw [List.map_append, ← h.addrs, List.map_append]
    rfl
  · rw [hw']
    exact h.next
  · rw [hw', Heap.put_of_ne h.wrk_lt.1.symm]
    exact h.entry

theorem Building.newPage (h : w.Building cnt wrk chain front page) {fresh : ProcBlock} {new : PidPage} {pid : Int}
    (hnew : new.pids = [pid]) (hend : new.next = none)
    (hw' : w'.heap = ((w.heap.place fresh).put wrk (.page { page with next := some w.heap.next })).put
      w.heap.next (.page new)) :
    w'.Building cnt w.heap.next ⟨chain.full ++ [chain.last], [pid]⟩
      (front ++ [(wrk, { page with next := some w.heap.next })]) new := by
  have hother : ∀ a, a < w.heap.next → a ≠ wrk → w'.heap.blocks a = w.heap.blocks a := by
    intro a ha hne
    rw [hw', Heap.put_of_ne (Nat.ne_of_lt ha), Heap.put_of_ne hne, Heap.place_of_ne (Nat.ne_of_lt ha)]
  have hwrk : w'.heap.blocks wrk = some (.page { page with next := some w.heap.next }) := by
    rw [hw', Heap.put_of_ne (Nat.ne_of_lt h.wrk_lt.2), Heap.put_self]
  have hlen : (front ++ [(wrk, { page with next := some w.heap.next })]).length = front.length + 1 := by
    rw [List.length_append, List.length_singleton]
  have hfront : w'.Pages (some cnt) front (some wrk) := by
    apply (pages_snoc.mp h.pages).1.frame
    intro a ha
    have hmem : a ∈ (front ++ [(wrk, page)]).map Prod.fst := by
      rw [List.map_append]
      exact List.mem_append_left _ ha
    exact hother a (h.mem_addrs hmem).2 fun heq => h.wrk_notMem (heq ▸ ha)
  refine ⟨pages_snoc.mpr ⟨pages_snoc.mpr ⟨hfront, hwrk, rfl⟩, ?_, hend⟩, ?_, hnew, ?_, ?_, ?_⟩
  · rw [hw']
    exact Heap.put_self _ _ _
  · rw [List.map_append, h.full, List.map_singleton, ← h.last]
    rfl
  · have haddrs : (front ++ [(wrk, { page with next := some w.heap.next })]).map Prod.fst
        = addrsFrom cnt front.length := by
      rw [addrsFrom, ← h.addrs, List.map_append, List.map_append]
      rfl
    rw [List.map_append, haddrs, hlen, ← addrsFrom, addrsFrom_succ, ← h.next]
    rfl
  · rw [hw', hlen, Heap.put_next, Heap.put_next, Heap.place_next, h.next]
    omega
  · have hlt : cnt + 1 < w.heap.next := by
      rw [h.next]
      omega
    rw [hother (cnt + 1) hlt h.wrk_lt.1.symm]
    exact h.entry

theorem Building.congr (h : w.Building cnt wrk chain front page) (hw' : w'.heap = w.heap) :
    w'.Building cnt wrk chain front page := by
  refine ⟨?_, h.full, h.last, h.addrs, hw' ▸ h.next, hw' ▸ h.entry⟩
  have hpages := h.pages
  rwa [Pages, ← hw'] at hpages

/-- `add_pid_to_pids_in_proc_dir` does what `Statgrab.addPid` does to the lists of pids. -/
theorem addPidToPidsInProcDir_run (hpage : 20 ≤ pageSize) (h : w.Building cnt wrk chain front page) (pid : Int) :
    (∃ chain' w' wrk' front' page', addPid pageSize pid chain w.toThread = .ok (some chain', w'.toThread) ∧
      addPidToPidsInProcDir pageSize pid wrk w = .ok (some wrk', w') ∧
      w'.Building cnt wrk' chain' front' page' ∧ w'.frees = w.frees ∧ w'.refusals = w.refusals) ∨
    (∃ w', addPid pageSize pid chain w.toThread = .ok (none, w'.toThread) ∧
      addPidToPidsInProcDir pageSize pid wrk w = .ok (none, w') ∧
      w'.Building cnt wrk chain front page ∧ w'.frees = w.frees ∧ w'.refusals = w.refusals + 1) := by
  obtain ⟨hwrk, hnext⟩ := h.at_wrk
  cases hfull : pipdIsFull pageSize page.nitems with
  | false =>
      have hroom : 16 + 4 * page.nitems + 4 ≤ pageSize := by
        rw [pipdIsFull, decide_eq_false_iff_not] at hfull
        omega
      let w' : PidMem := { w with heap := w.heap.put wrk (.page (page.append pid)) }
      refine .inl ⟨_, w', wrk, front, _, ?_, ?_, h.append pid rfl, rfl, rfl⟩
      · rw [addPid, ← h.nitems, hfull]
        rfl
      · rw [addPidToPidsInProcDir, Prog.bind_of_ok (loadPage_run hwrk), hfull]
        exact Prog.bind_of_ok (appendPid_run hwrk hroom pid) _
  | true =>
      have hload : addPidToPidsInProcDir pageSize pid wrk w = (do
          let new ← allocPidsInProcDir pageSize
          storePage wrk { page with next := new }
          match new with
          | none => return none
          | some q =>
              appendPid pageSize pid q
              return some q : PidMemM (Option Nat)) w := by
        rw [addPidToPidsInProcDir, Prog.bind_of_ok (loadPage_run hwrk), hfull, if_pos rfl]
      cases hmem : w.mem 0 with
      | true =>
          let new : PidPage := ⟨0, none, w.raw w.heap.next⟩
          let w1 : PidMem := { w with
            toThread := w.toThread.answered
            heap := (w.heap.place (.page new)).put wrk (.page { page with next := some w.heap.next }) }
          have hat : w1.heap.blocks w.heap.next = some (.page new) := by
            show ((w.heap.place (.page new)).put wrk _).blocks w.heap.next = _
            rw [Heap.put_of_ne (Nat.ne_of_gt h.wrk_lt.2), Heap.place_self]
          refine .inl ⟨⟨chain.full ++ [chain.last], [pid]⟩,
            { w1 with heap := w1.heap.put w.heap.next (.page (new.append pid)) }, w.heap.next, _, new.append pid,
            ?_, ?_, h.newPage (append_pids new pid) rfl rfl, rfl, rfl⟩
          · rw [addPid, ← h.nitems, hfull, if_pos rfl, Prog.bind_of_ok (calloc_run _), hmem]
            rfl
          · rw [hload, Prog.bind_of_ok (allocPidsInProcDir_of_mem (by omega) hmem)]
            exact Prog.bind_of_ok (appendPid_run hat hpage pid) _
      | false =>
          let w' : PidMem := { w with
            toThread := w.toThread.answered
            heap := w.heap.put wrk (.page { page with next := none })
            refusals := w.refusals + 1 }
          have hsame : w'.heap = w.heap := by
            apply Heap.put_eq_self
            rw [hwrk, ← hnext]
          refine .inr ⟨w', ?_, ?_, h.congr hsame, rfl, rfl⟩
          · rw [addPid, ← h.nitems, hfull, if_pos rfl, Prog.bind_of_ok (calloc_run _), hmem]
            rfl
          · rw [hload, Prog.bind_of_ok (allocPidsInProcDir_of_not_mem hmem)]
            rfl

theorem Building.freed (h : w.Building cnt wrk chain front page) :
    freePidsInProcDir (some cnt) true w = .ok (none, w.gone (addrsFrom cnt front.length)) := by
  have hfuel : (front ++ [(wrk, page)]).length < w.heap.next + 1 := by
    rw [h.next, List.length_append, List.length_singleton]
    omega
  have hrun := @freeLoop_children w _ _ h.pages h.nodup _ hfuel none fun _ => rfl
  rw [h.addrs, ← addrsFrom] at hrun
  rw [freePidsInProcDir, Prog.bind_of_ok (Prog.gets_run _ w), hrun]

theorem count_eq_ite {ps : List Nat} (hnodup : ps.Nodup) {lo hi : Nat}
    (hmem : ∀ q, q ∈ ps ↔ lo ≤ q ∧ q < hi) (q : Nat) :
    ps.count q = if lo ≤ q ∧ q < hi then 1 else 0 := by
  by_cases hq : lo ≤ q ∧ q < hi
  · rw [if_pos hq, List.count_eq_one_of_mem hnodup ((hmem q).mpr hq)]
  · rw [if_neg hq, List.count_eq_zero_of_not_mem fun hin => hq ((hmem q).mp hin)]

/-- The blocks of a scan are given back, all of them once and no others. -/
theorem count_addrsFrom (cnt n q : Nat) :
    (addrsFrom cnt n ++ [cnt + 1]).count q = if cnt ≤ q ∧ q < cnt + 2 + n then 1 else 0 := by
  apply count_eq_ite
  · rw [List.nodup_append]
    refine ⟨addrsFrom_nodup cnt n, List.nodup_singleton _, ?_⟩
    intro a ha b hb
    rw [List.mem_singleton.mp hb]
    exact (mem_addrsFrom ha).1
  · intro q
    rw [addrsFrom, List.mem_append, List.mem_cons, List.mem_range'_1, List.mem_singleton]
    omega

end

end PidMem

end Statgrab
