import Statgrab.Process.Bsd
import Statgrab.Process.Listing

/-!
# The records of the kernel

With enough memory the loops over the records of the kernel are assignments to the cells of a vector, and
`Proc2Cells` and `ProcCells` say what the cells hold after some of the records. On `KERN_PROC2` the strings
of an item are those of the record with its number, and the context switches are added up from a cell that
was not written where the two indices differ; on `KERN_PROC` only the name is from another record. Both are
right as long as no record was skipped.
-/

namespace Statgrab.Process

open Function (update)

/-! ### The cells -/

structure Filling (w : World ProcessStats) (p : Ptr) (n : Nat) (cells : Nat → ProcessStats) : Prop where
  ready : Ready w
  vector : ∃ v, w.store p = some v ∧ Roomy v ∧ v.usedCount = n ∧ v.cells = cells

section

variable {w : World ProcessStats} {p : Ptr} {n i : Nat} {cells : Nat → ProcessStats}

theorem Filling.onSlot {β : Type} (h : Filling w p n cells) (hi : i < n)
    {fn : ProcessStats → ThreadM (β × ProcessStats)} {b : β} {x : ProcessStats} {t : Thread}
    (hfn : fn (cells i) w.toThread = .ok ((b, x), t)) (ht : t.Plenty) :
    ∃ w', onSlot p i fn w = .ok (b, w') ∧ Filling w' p n (update cells i x) := by
  obtain ⟨v, hv, hroomy, rfl, rfl⟩ := h.vector
  have hwithin := hroomy.within
  refine ⟨_, onSlot_run hv (fun _ => by omega) hfn, h.ready.recopy hv ht, v.setCell i x, ?_, ?_, rfl, rfl⟩
  · rw [recopy_store, Function.update_self]
  · exact ⟨hroomy.info, hroomy.shift, hroomy.within, hroomy.record⟩

theorem setSlot_run (h : Filling w p n cells) (hi : i < n) (f : ProcessStats → ProcessStats) :
    ∃ w', setSlot p i f w = .ok ((), w') ∧ Filling w' p n (update cells i (f (cells i))) :=
  h.onSlot hi rfl h.ready.plenty

theorem getSlot_run (h : Filling w p n cells) (hi : i < n) : getSlot p i w = .ok (cells i, w) := by
  obtain ⟨v, hv, hroomy, rfl, rfl⟩ := h.vector
  have hwithin := hroomy.within
  rw [getSlot, Prog.bind_of_ok (deref_run hv),
    Prog.bind_of_ok (touch_run (fun _ => by omega : w.InBlock v (i + 1)))]
  rfl

theorem updateName_run (h : Filling w p n cells) (hi : i < n) (name : CString) :
    ∃ w', updateName p i name w = .ok (.none, w') ∧
      Filling w' p n (update cells i { cells i with processName := some name }) := by
  rcases sgUpdateString_cases (cells i).processName (some name) w.toThread with
    ⟨t, hrun, -, hplenty⟩ | ⟨t, -, -, hnot⟩
  · refine h.onSlot hi ?_ (hplenty h.ready.plenty)
    rw [Prog.bind_of_ok hrun]
    rfl
  · exact absurd h.ready.plenty hnot

theorem updateTitle_run (h : Filling w p n cells) (hi : i < n) (title : CString) :
    ∃ w', updateTitle p i title w = .ok (.none, w') ∧
      Filling w' p n (update cells i { cells i with proctitle := some title }) := by
  rcases sgUpdateString_cases (cells i).proctitle (some title) w.toThread with
    ⟨t, hrun, -, hplenty⟩ | ⟨t, -, -, hnot⟩
  · refine h.onSlot hi ?_ (hplenty h.ready.plenty)
    rw [Prog.bind_of_ok hrun]
    rfl
  · exact absurd h.ready.plenty hnot

theorem printKernelProctitle_run (h : Filling w p n cells) (hi : i < n) {name : CString}
    (hname : (cells i).processName = some name) :
    ∃ w', printKernelProctitle p i w = .ok (true, w') ∧
      Filling w' p n (update cells i { cells i with proctitle := some (91 :: (name ++ [93])) }) := by
  refine h.onSlot (t := w.toThread.answered) hi ?_ h.ready.plenty.answered
  simp only [hname]
  rw [Prog.bind_of_ok (asprintf_run _ w.toThread), h.ready.plenty 0]
  rfl

def Title.textFor (name : CString) : Title → Option CString
  | .skipped | .absent => none
  | .kernel => some (91 :: (name ++ [93]))
  | .text s => some s

def Title.onto (title : Title) (name : CString) (item : ProcessStats) : ProcessStats :=
  { item with proctitle := (title.textFor name).or item.proctitle }

def Title.fill (title : Title) : Fill := if title = .skipped then .skipped else .filled

theorem storeTitle_run (h : Filling w p n cells) (hi : i < n) {name : CString}
    (hname : (cells i).processName = some name) (title : Title) (arg : String) :
    ∃ w', storeTitle p i title arg w = .ok (title.fill, w') ∧
      Filling w' p n (update cells i (title.onto name (cells i))) := by
  cases title with
  | skipped =>
      refine ⟨w, rfl, ?_⟩
      rwa [show Title.skipped.onto name (cells i) = cells i from rfl, Function.update_eq_self]
  | absent =>
      refine ⟨w, rfl, ?_⟩
      rwa [show Title.absent.onto name (cells i) = cells i from rfl, Function.update_eq_self]
  | kernel =>
      obtain ⟨w', hrun, h'⟩ := printKernelProctitle_run h hi hname
      refine ⟨w', ?_, h'⟩
      rw [storeTitle, Prog.bind_of_ok hrun]
      rfl
  | text s =>
      obtain ⟨w', hrun, h'⟩ := updateTitle_run h hi s
      refine ⟨w', ?_, h'⟩
      rw [storeTitle, Prog.bind_of_ok hrun]
      rfl

end

/-! ### The vector around the loop -/

theorem trimItems_same {w : World ProcessStats} {p : Ptr} {v : SgVector ProcessStats}
    (hv : w.store p = some v) : trimItems (some p) v.usedCount w = .ok ((.none, some p), w) := by
  rw [trimItems, Prog.bind_of_ok (deref_run hv), if_neg (by simp)]
  rfl

theorem cutItems_run {w : World ProcessStats} {p : Ptr} {n k : Nat} {cells : Nat → ProcessStats}
    (h : Filling w p n cells) (hk : k ≤ n) (hn : n ≤ itemLimit) :
    ∃ x w', vectorUpdate ProcessStats.info (some p) (.count k) (fun vector => trimItems vector k) w
        = .ok ((.none, x), w') ∧ w'.itemsAt x = (List.range k).map cells := by
  obtain ⟨v, hv, hroomy, rfl, rfl⟩ := h.vector
  by_cases hzero : k = 0
  · have hresize : vectorCreateOrResize ProcessStats.info (some p) (CountArg.count k).value w
        = .ok (none, ((w.shrink p v 0).drop p).cleared) := by
      rw [CountArg.value, hzero]
      exact sgVectorResize_zero hv (fun _ => hroomy.within)
    refine ⟨none, _, vectorUpdate_null hresize (by simp [CountArg.negated, hzero]) _, ?_⟩
    rw [hzero]
    rfl
  · have hfit : Fits k v.blockShift v.info := hroomy.info ▸ info_fits (by omega) hroomy.shift
    obtain ⟨q, w', v', hrun, -, hq, hres, -, -⟩ :=
      sgVectorResize_run h.ready.fresh hzero hv (fun _ => hroomy.within) hfit
        (fun _ _ => by
          have := hroomy.within
          omega) (fun _ => h.ready.plenty 0)
    have hresize : vectorCreateOrResize ProcessStats.info (some p) (CountArg.count k).value w
        = .ok (some q, w') := hrun
    refine ⟨some q, w', ?_, ?_⟩
    · rw [vectorUpdate, Prog.bind_of_ok hresize]
      have hsame := trimItems_same hq
      rwa [hres.usedCount] at hsame
    · rw [itemsAt_some hq, SgVector.items, hres.usedCount]
      apply List.map_congr_left
      intro i hi
      have hlt := List.mem_range.mp hi
      exact hres.cells i hlt (by omega)

theorem fillFromRecords_zero {w : World ProcessStats} (hw : Ready w) {p : Ptr}
    {v : SgVector ProcessStats} (hv : w.store p = some v) (hroomy : Roomy v)
    (loop : Ptr → VecM ProcessStats (Except SgError Nat)) :
    ∃ x w', fillFromRecords 0 loop (some p) w = .ok ((.none, x), w') ∧ w'.itemsAt x = [] := by
  have hresize : vectorCreateOrResize ProcessStats.info (some p) (CountArg.count 0).value w
      = .ok (none, ((w.shrink p v 0).drop p).cleared) := sgVectorResize_zero hv (fun _ => hroomy.within)
  have hgrown : vectorUpdated ProcessStats.info (some p) (.count 0) w
      = .ok (.ok none, ((w.shrink p v 0).drop p).cleared) := by
    rw [vectorUpdated, Prog.bind_of_ok hresize]
    rfl
  obtain ⟨w', v', hrun, -, hv', hfor, -, -⟩ :=
    @sgVectorCreateInt_created ProcessStats ((w.shrink p v 0).drop p).cleared 0 0 0 ProcessStats.info
      (info_fits (by simp) (by omega)) (hw.plenty 0)
  refine ⟨some ((w.shrink p v 0).drop p).cleared.next, w', ?_, ?_⟩
  · rw [fillFromRecords, Prog.bind_of_ok hgrown]
    simp only [if_true]
    rw [vectorUpdate, Prog.bind_of_ok (show vectorCreateOrResize ProcessStats.info none
      (CountArg.count 0).value ((w.shrink p v 0).drop p).cleared = _ from hrun)]
    have hsame := trimItems_same hv'
    rwa [hfor.usedCount] at hsame
  · rw [itemsAt_some hv', SgVector.items, hfor.usedCount]
    rfl

theorem fillFromRecords_run {w : World ProcessStats} {p q : Ptr} {n k : Nat}
    {cells : Nat → ProcessStats} {loop : Ptr → VecM ProcessStats (Except SgError Nat)}
    {w1 w2 : World ProcessStats}
    (hgrown : vectorUpdated ProcessStats.info (some p) (.count n) w = .ok (.ok (some q), w1))
    (hloop : loop q w1 = .ok (.ok k, w2)) (h : Filling w2 q n cells) (hk : k ≤ n) (hn : n ≤ itemLimit) :
    ∃ x w', fillFromRecords n loop (some p) w = .ok ((.none, x), w') ∧
      w'.itemsAt x = (List.range k).map cells := by
  obtain ⟨x, w', hrun, hitems⟩ := cutItems_run h hk hn
  refine ⟨x, w', ?_, hitems⟩
  rw [fillFromRecords, Prog.bind_of_ok hgrown]
  simp only
  rw [Prog.bind_of_ok hloop]
  exact hrun

theorem forall₂_range {α β : Type} {r : α → β → Prop} {as : List α} {f : Nat → β} :
    List.Forall₂ r as ((List.range as.length).map f) ↔ ∀ k a, as[k]? = some a → r a (f k) := by
  rw [List.forall₂_iff_get]
  constructor
  · rintro ⟨-, h⟩ k a ha
    obtain ⟨hlt, rfl⟩ := List.getElem?_eq_some_iff.mp ha
    have hk := h k hlt (by simpa using hlt)
    simpa using hk
  · intro h
    refine ⟨by simp, ?_⟩
    intro k hlt _
    have hk := h k _ (List.getElem?_eq_getElem hlt)
    simpa using hk

/-! ### `KERN_PROC2` -/

def KinfoProc2.kept (r : KinfoProc2) : Bool := r.title ≠ .skipped

def keptOf (records : List KinfoProc2) : List (KinfoProc2 × Nat) := records.zipIdx.filter (·.1.kept)

/-- One element more, or none: an element was there before, or is the new one. -/
theorem getElem?_append_ite {α : Type} {pre : List α} {a b : α} {new : Bool} {k : Nat}
    (h : (pre ++ if new then [a] else [])[k]? = some b) :
    pre[k]? = some b ∨ (k = pre.length ∧ a = b ∧ new = true) := by
  cases new with
  | true =>
      rcases getElem?_snoc h with ⟨-, h⟩ | ⟨hlast, heq⟩
      · exact .inl h
      · exact .inr ⟨hlast, heq, rfl⟩
  | false =>
      rw [if_neg (by simp), List.append_nil] at h
      exact .inl h

theorem keptOf_append (pre : List KinfoProc2) (r : KinfoProc2) :
    keptOf (pre ++ [r]) = keptOf pre ++ if r.kept then [(r, pre.length)] else [] := by
  rw [keptOf, List.zipIdx_append, List.filter_append, ← keptOf, List.zipIdx_singleton, Nat.zero_add,
    List.filter_singleton, Bool.cond_eq_ite]

theorem length_keptOf_le (records : List KinfoProc2) : (keptOf records).length ≤ records.length := by
  have h := List.length_filter_le (fun x : KinfoProc2 × Nat => x.1.kept) records.zipIdx
  rwa [List.length_zipIdx] at h

theorem keptOf_fst (records : List KinfoProc2) :
    (keptOf records).map Prod.fst = records.filter KinfoProc2.kept := by
  rw [keptOf, ← Function.comp_def KinfoProc2.kept Prod.fst, ← List.filter_map, List.zipIdx_map_fst]

def proc2Step (sys : BsdSystem) (i j : Nat) (r : KinfoProc2) (cells : Nat → ProcessStats) :
    Nat → ProcessStats :=
  let cells := update cells i { cells i with processName := some r.comm }
  let cells := update cells j (r.onto sys (cells j))
  let cells := update cells j { cells j with
    contextSwitches := (cells i).voluntaryContextSwitches + (cells i).involuntaryContextSwitches }
  let cells := update cells i (r.title.onto r.comm (cells i))
  if r.title.fill = .filled then update cells j { cells j with systime := sys.now } else cells

/-- The time of the snapshot, for an item that is complete. -/
def stamp (sys : BsdSystem) (title : Title) (item : ProcessStats) : ProcessStats :=
  { item with systime := if title.fill = .filled then sys.now else item.systime }

section

variable (sys : BsdSystem) {i j c : Nat} (r : KinfoProc2) (cells : Nat → ProcessStats)

theorem proc2Step_other (hi : c ≠ i) (hj : c ≠ j) : proc2Step sys i j r cells c = cells c := by
  unfold proc2Step
  split_ifs
  · simp only [Function.update_of_ne hi, Function.update_of_ne hj]
  · simp only [Function.update_of_ne hi, Function.update_of_ne hj]

/-- The two indices are one: everything goes to one item. -/
theorem proc2Step_same : proc2Step sys i i r cells i
    = stamp sys r.title (r.title.onto r.comm { r.onto sys { cells i with processName := some r.comm } with
        contextSwitches := r.nvcsw + r.nivcsw }) := by
  unfold proc2Step stamp
  split_ifs
  · simp only [Function.update_self]
    rfl
  · simp only [Function.update_self]
    rfl

/-- The indices differ: the item `i` gets the strings. -/
theorem proc2Step_strings (h : i ≠ j) : proc2Step sys i j r cells i
    = r.title.onto r.comm { cells i with processName := some r.comm } := by
  unfold proc2Step
  split_ifs
  · simp only [Function.update_self, Function.update_of_ne h]
  · simp only [Function.update_self, Function.update_of_ne h]

/-- The indices differ: the item `proc_items` gets the rest. -/
theorem proc2Step_record (h : i ≠ j) : proc2Step sys i j r cells j
    = stamp sys r.title { r.onto sys (cells j) with
        contextSwitches := (cells i).voluntaryContextSwitches + (cells i).involuntaryContextSwitches } := by
  unfold proc2Step stamp
  split_ifs
  · simp only [Function.update_self, Function.update_of_ne h, Function.update_of_ne h.symm]
  · simp only [Function.update_self, Function.update_of_ne h, Function.update_of_ne h.symm]

/-- The strings of an item are those of the record with its number. -/
theorem proc2Step_at : (proc2Step sys i j r cells i).processName = some r.comm ∧
    (proc2Step sys i j r cells i).proctitle = (r.title.textFor r.comm).or (cells i).proctitle := by
  by_cases hij : i = j
  · subst hij
    rw [proc2Step_same]
    exact ⟨rfl, rfl⟩
  · rw [proc2Step_strings _ _ _ hij]
    exact ⟨rfl, rfl⟩

theorem proc2Step_kept (hc : c ≠ i) : (proc2Step sys i j r cells c).processName = (cells c).processName ∧
    (proc2Step sys i j r cells c).proctitle = (cells c).proctitle := by
  by_cases hcj : c = j
  · subst hcj
    rw [proc2Step_record _ _ _ hc.symm]
    exact ⟨rfl, rfl⟩
  · rw [proc2Step_other _ _ _ hc hcj]
    exact ⟨rfl, rfl⟩

end

/-- What the cell `k` holds of the record `r` with the number `i`: the context switches are added up from
the cell `i`. -/
structure KinfoProc2.In (raw : Nat → ProcessStats) (r : KinfoProc2) (i k : Nat) (item : ProcessStats) :
    Prop where
  pid : item.pid = r.pid
  parent : item.parent = r.ppid
  voluntary : item.voluntaryContextSwitches = r.nvcsw
  involuntary : item.involuntaryContextSwitches = r.nivcsw
  switches : item.contextSwitches =
    if i = k then r.nvcsw + r.nivcsw
    else (raw i).voluntaryContextSwitches + (raw i).involuntaryContextSwitches

/-- The cells after the records `pre`, where they held `raw` before. -/
structure Proc2Cells (raw : Nat → ProcessStats) (pre : List KinfoProc2) (cells : Nat → ProcessStats) :
    Prop where
  names : ∀ c r, pre[c]? = some r → (cells c).processName = some r.comm
  titles : ∀ c r, pre[c]? = some r →
    (cells c).proctitle = (r.title.textFor r.comm).or (raw c).proctitle
  untitled : ∀ c, pre.length ≤ c → (cells c).proctitle = (raw c).proctitle
  records : ∀ (k : Nat) (r : KinfoProc2) (i : Nat), (keptOf pre)[k]? = some (r, i) →
    r.In raw i k (cells k)
  uncounted : ∀ c, (keptOf pre).length < c →
    (cells c).voluntaryContextSwitches = (raw c).voluntaryContextSwitches ∧
    (cells c).involuntaryContextSwitches = (raw c).involuntaryContextSwitches

theorem Proc2Cells.start (raw : Nat → ProcessStats) : Proc2Cells raw [] raw := by
  refine ⟨?_, ?_, fun _ _ => rfl, ?_, fun _ _ => ⟨rfl, rfl⟩⟩
  · intro c r hr
    cases hr
  · intro c r hr
    cases hr
  · intro k r i hr
    cases hr

theorem Proc2Cells.step {raw : Nat → ProcessStats} {pre : List KinfoProc2}
    {cells : Nat → ProcessStats} (h : Proc2Cells raw pre cells) (sys : BsdSystem) (r : KinfoProc2) :
    Proc2Cells raw (pre ++ [r]) (proc2Step sys pre.length (keptOf pre).length r cells) := by
  have hle := length_keptOf_le pre
  generalize hj : (keptOf pre).length = j at hle
  refine ⟨?_, ?_, ?_, ?_, ?_⟩
  · intro c r' hr'
    rcases getElem?_snoc hr' with ⟨hlt, hr'⟩ | ⟨rfl, rfl⟩
    · rw [(proc2Step_kept sys r cells hlt.ne).1]
      exact h.names c r' hr'
    · exact (proc2Step_at sys r cells).1
  · intro c r' hr'
    rcases getElem?_snoc hr' with ⟨hlt, hr'⟩ | ⟨rfl, rfl⟩
    · rw [(proc2Step_kept sys r cells hlt.ne).2]
      exact h.titles c r' hr'
    · rw [← h.untitled pre.length le_rfl]
      exact (proc2Step_at sys r cells).2
  · intro c hc
    rw [List.length_append, List.length_singleton] at hc
    rw [proc2Step_other sys r cells (by omega) (by omega)]
    exact h.untitled c (by omega)
  · intro k r' i hk
    rw [keptOf_append] at hk
    rcases getElem?_append_ite hk with hk | ⟨hlast, heq, -⟩
    · have hlt : k < (keptOf pre).length := (List.getElem?_eq_some_iff.mp hk).1
      rw [proc2Step_other sys r cells (by omega) (by omega)]
      exact h.records k r' i hk
    · cases heq
      obtain rfl : k = j := hlast.trans hj
      by_cases hij : pre.length = k
      · subst hij
        rw [proc2Step_same]
        exact ⟨rfl, rfl, rfl, rfl, (if_pos rfl).symm⟩
      · -- the cell the counters are read from was not reached by the items
        obtain ⟨hvol, hinvol⟩ := h.uncounted pre.length (by omega)
        rw [proc2Step_record sys r cells hij]
        refine ⟨rfl, rfl, rfl, rfl, ?_⟩
        rw [if_neg hij, ← hvol, ← hinvol]
        rfl
  · intro c hc
    have hlen : j ≤ (keptOf (pre ++ [r])).length := by
      rw [keptOf_append, List.length_append, hj]
      omega
    have hcell := h.uncounted c (by omega)
    by_cases hci : c = pre.length
    · subst hci
      rw [proc2Step_strings sys r cells (by omega)]
      exact hcell
    · rw [proc2Step_other sys r cells hci (by omega)]
      exact hcell

theorem proc2Round_run {w : World ProcessStats} {p : Ptr} {n i j : Nat} {cells : Nat → ProcessStats}
    (h : Filling w p n cells) (hi : i < n) (hj : j ≤ i) (sys : BsdSystem) (r : KinfoProc2) :
    ∃ w', proc2Round sys p i j r w = .ok (r.title.fill, w') ∧
      Filling w' p n (proc2Step sys i j r cells) := by
  have hjn : j < n := by omega
  obtain ⟨w1, hrun1, h1⟩ := updateName_run h hi r.comm
  set cells1 := update cells i { cells i with processName := some r.comm } with hcells1
  obtain ⟨w2, hrun2, h2⟩ := setSlot_run h1 hjn (r.onto sys)
  set cells2 := update cells1 j (r.onto sys (cells1 j)) with hcells2
  obtain ⟨w3, hrun3, h3⟩ := setSlot_run h2 hjn fun item => { item with
    contextSwitches := (cells2 i).voluntaryContextSwitches + (cells2 i).involuntaryContextSwitches }
  set cells3 := update cells2 j { cells2 j with
    contextSwitches := (cells2 i).voluntaryContextSwitches + (cells2 i).involuntaryContextSwitches }
    with hcells3
  have hname : (cells3 i).processName = some r.comm := by
    by_cases hij : i = j
    · subst hij
      rw [hcells3, Function.update_self, hcells2, Function.update_self]
      show (cells1 i).processName = some r.comm
      rw [hcells1, Function.update_self]
    · rw [hcells3, Function.update_of_ne hij, hcells2, Function.update_of_ne hij, hcells1,
        Function.update_self]
  obtain ⟨w4, hrun4, h4⟩ := storeTitle_run h3 hi hname r.title ("pid=" ++ toString r.pid)
  have hstep : proc2Step sys i j r cells = if r.title.fill = .filled then
      update (update cells3 i (r.title.onto r.comm (cells3 i))) j
        { update cells3 i (r.title.onto r.comm (cells3 i)) j with systime := sys.now }
      else update cells3 i (r.title.onto r.comm (cells3 i)) := rfl
  have hround : proc2Round sys p i j r w = (do
      if r.title.fill = .filled then setSlot p j fun item => { item with systime := sys.now }
      return r.title.fill : VecM ProcessStats Fill) w4 := by
    rw [proc2Round, Prog.bind_of_ok hrun1, if_pos rfl, Prog.bind_of_ok hrun2,
      Prog.bind_of_ok (getSlot_run h2 hi), Prog.bind_of_ok hrun3, Prog.bind_of_ok hrun4]
  rw [hround, hstep]
  by_cases hfill : r.title.fill = .filled
  · obtain ⟨w5, hrun5, h5⟩ := setSlot_run h4 hjn fun item => { item with systime := sys.now }
    refine ⟨w5, ?_, ?_⟩
    · simp only [if_pos hfill]
      rw [Prog.bind_of_ok hrun5]
      rfl
    · rw [if_pos hfill]
      exact h5
  · refine ⟨w4, ?_, ?_⟩
    · simp only [if_neg hfill]
      rfl
    · rw [if_neg hfill]
      exact h4

theorem proc2Loop_run (sys : BsdSystem) {p : Ptr} {n : Nat} {raw : Nat → ProcessStats}
    (rest : List KinfoProc2) {pre : List KinfoProc2} {w : World ProcessStats}
    {cells : Nat → ProcessStats} (h : Filling w p n cells) (hcells : Proc2Cells raw pre cells)
    (hn : (pre ++ rest).length ≤ n) :
    ∃ w' cells', proc2Loop sys p rest pre.length (keptOf pre).length w
        = .ok (.ok (keptOf (pre ++ rest)).length, w') ∧
      Filling w' p n cells' ∧ Proc2Cells raw (pre ++ rest) cells' := by
  induction rest generalizing pre w cells with
  | nil =>
      rw [List.append_nil]
      exact ⟨w, cells, rfl, h, hcells⟩
  | cons r rest ih =>
      rw [List.length_append, List.length_cons] at hn
      obtain ⟨w1, hround, h1⟩ :=
        proc2Round_run h (show pre.length < n by omega) (length_keptOf_le pre) sys r
      obtain ⟨w2, cells', hloop, h2, hcells2⟩ := ih h1 (hcells.step sys r) (by
        rw [List.length_append, List.length_append, List.length_singleton]
        omega)
      rw [List.append_assoc, List.singleton_append] at hloop hcells2
      refine ⟨w2, cells', ?_, h2, hcells2⟩
      rw [← hloop, proc2Loop, Prog.bind_of_ok hround, keptOf_append, List.length_append,
        List.length_append, List.length_singleton, KinfoProc2.kept]
      by_cases hskip : r.title = .skipped
      · simp only [Title.fill, hskip, if_true]
        rfl
      · rw [Title.fill, if_neg hskip, if_pos (by simpa using hskip)]
        rfl

structure KinfoProc2.Gives (r : KinfoProc2) (item : ProcessStats) : Prop where
  pid : item.pid = r.pid
  parent : item.parent = r.ppid
  processName : item.processName = some r.comm
  proctitle : item.proctitle = r.title.textFor r.comm
  fromRecord : item.contextSwitches = r.nvcsw + r.nivcsw
  switches : item.contextSwitches = item.voluntaryContextSwitches + item.involuntaryContextSwitches

/-- Whatever empty vector it starts with, the read leaves one item for each record that is not skipped, in
the order of the records, and each is from one record. -/
def ExactProc2 (sys : BsdSystem) (records : List KinfoProc2) : Prop :=
  ∀ (w : World ProcessStats) (p : Ptr) (v : SgVector ProcessStats), Ready w → w.store p = some v →
    Roomy v → v.usedCount = 0 →
    ∃ x w', processStatsProc2 sys records (some p) w = .ok ((.none, x), w') ∧
      List.Forall₂ KinfoProc2.Gives (records.filter KinfoProc2.kept) (w'.itemsAt x)

theorem processStatsProc2_run (sys : BsdSystem) {records : List KinfoProc2}
    (hfew : records.length ≤ itemLimit) {w w1 : World ProcessStats} {p q : Ptr}
    {raw : Nat → ProcessStats}
    (hgrown : vectorUpdated ProcessStats.info (some p) (.count records.length) w = .ok (.ok (some q), w1))
    (h1 : Filling w1 q records.length raw) :
    ∃ x w' cells, processStatsProc2 sys records (some p) w = .ok ((.none, x), w') ∧
      Proc2Cells raw records cells ∧ w'.itemsAt x = (List.range (keptOf records).length).map cells := by
  obtain ⟨w2, cells, hloop, h2, hcells⟩ := proc2Loop_run sys records h1 (.start raw) le_rfl
  rw [List.nil_append] at hloop hcells
  obtain ⟨x, w', hrun, hitems⟩ := @fillFromRecords_run w p q records.length (keptOf records).length cells
    (fun p => proc2Loop sys p records 0 0) w1 w2 hgrown hloop h2 (length_keptOf_le records) hfew
  exact ⟨x, w', cells, hrun, hcells, hitems⟩

theorem mem_keptOf {records : List KinfoProc2} {r : KinfoProc2} {i : Nat} :
    (r, i) ∈ keptOf records ↔ records[i]? = some r ∧ r.title ≠ .skipped := by
  rw [keptOf, List.mem_filter, List.mk_mem_zipIdx_iff_getElem?, KinfoProc2.kept, decide_eq_true_eq]

theorem length_keptOf_of_all {records : List KinfoProc2} (h : ∀ r ∈ records, r.title ≠ .skipped) :
    (keptOf records).length = records.length := by
  rw [← List.length_map (f := Prod.fst), keptOf_fst, List.filter_eq_self.mpr]
  intro r hr
  rw [KinfoProc2.kept, decide_eq_true_eq]
  exact h r hr

theorem keptOf_index_iff (records : List KinfoProc2) :
    (∀ (k : Nat) (r : KinfoProc2) (i : Nat), (keptOf records)[k]? = some (r, i) → i = k) ↔
      records.Pairwise fun r r' => r.title = .skipped → r'.title = .skipped := by
  constructor
  · intro h
    rw [List.pairwise_iff_getElem]
    intro a b ha hb hab hskip
    by_contra hkept
    obtain ⟨k, hk⟩ := List.mem_iff_getElem?.mp
      (mem_keptOf.mpr ⟨List.getElem?_eq_getElem hb, hkept⟩)
    obtain rfl := h k _ b hk
    have hlt : a < (keptOf records).length := hab.trans (List.getElem?_eq_some_iff.mp hk).1
    have hget := List.getElem?_eq_getElem hlt
    generalize (keptOf records)[a] = x at hget
    obtain ⟨r, i⟩ := x
    obtain rfl := h a r i hget
    obtain ⟨hr, hnot⟩ := mem_keptOf.mp (List.mem_of_getElem? hget)
    rw [List.getElem?_eq_getElem ha] at hr
    cases hr
    exact hnot hskip
  · induction records using List.reverseRecOn with
    | nil =>
        intro _ k r i hk
        cases hk
    | append_singleton pre r ih =>
        intro h k r' i hk
        obtain ⟨hpre, -, hlast⟩ := List.pairwise_append.mp h
        rw [keptOf_append] at hk
        split at hk
        · rename_i hkept
          rcases getElem?_snoc hk with ⟨-, hk⟩ | ⟨rfl, heq⟩
          · exact ih hpre k r' i hk
          · cases heq
            rw [length_keptOf_of_all]
            intro x hx hskip
            rw [KinfoProc2.kept, decide_eq_true_eq] at hkept
            exact hkept (hlast x hx r (List.mem_singleton_self r) hskip)
        · rw [List.append_nil] at hk
          exact ih hpre k r' i hk

/-- `VECTOR_UPDATE` for the records: the items have no titles. -/
theorem grown_run {w : World ProcessStats} (hw : Ready w) {p : Ptr} {v : SgVector ProcessStats}
    (hv : w.store p = some v) (hroomy : Roomy v) (hempty : v.usedCount = 0) {n : Nat} (hn : n ≠ 0)
    (hfew : n ≤ itemLimit) :
    ∃ q w1 raw, vectorUpdated ProcessStats.info (some p) (.count n) w = .ok (.ok (some q), w1) ∧
      Filling w1 q n raw ∧ ∀ c < n, (raw c).proctitle = none := by
  have hstarts : Starts v [] := by
    refine ⟨Nat.zero_le _, ?_, ?_⟩
    · intro i x hi
      cases hi
    · intro i _ hi
      omega
  obtain ⟨q, w1, v1, hgrow, hw1, hq, hroomy1, hstarts1, hused⟩ :=
    @vectorUpdated_grow w hw (some p) [] ⟨v, hv, hroomy, hstarts⟩ (.count n) hn hfew (Nat.zero_le _)
  refine ⟨q, w1, v1.cells, hgrow, ⟨hw1, v1, hq, hroomy1, hused, rfl⟩, ?_⟩
  intro c hc
  exact (hstarts1.blank c (Nat.zero_le c) (hused.symm ▸ hc)).proctitle

/-- An empty vector with room for `n` items, which hold `old`. -/
def usedBefore (n : Nat) (old : Nat → ProcessStats) : SgVector ProcessStats :=
  ⟨0, n, 0, ProcessStats.info, n, old⟩

def heldBefore (n : Nat) (old : Nat → ProcessStats) : World ProcessStats :=
  (emptyWorld ProcessStats).place (usedBefore n old)

theorem heldBefore_ready (n : Nat) (old : Nat → ProcessStats) : Ready (heldBefore n old) := by
  refine ⟨?_, rfl, fun _ => rfl⟩
  intro p hp
  have hne : p ≠ 0 := Nat.one_le_iff_ne_zero.mp hp
  exact Function.update_of_ne hne _ _

theorem usedBefore_roomy (n : Nat) (old : Nat → ProcessStats) : Roomy (usedBefore n old) :=
  ⟨rfl, Nat.zero_le _, Nat.zero_le _, le_rfl⟩

theorem grown_old {n : Nat} (hn : n ≠ 0) (hfew : n ≤ itemLimit) (old : Nat → ProcessStats) :
    ∃ w1 raw, vectorUpdated ProcessStats.info (some 0) (.count n) (heldBefore n old)
        = .ok (.ok (some 0), w1) ∧ Filling w1 0 n raw ∧ ∀ c < n, raw c = (old c).init := by
  have hstore : (heldBefore n old).store 0 = some (usedBefore n old) := rfl
  have hround : nextPower2In n 0 = n := by
    have hfit : Fits n 0 ProcessStats.info := info_fits hfew (Nat.zero_le _)
    rw [hfit.nextPower2In_eq, roundUp_of_pos (Nat.pos_of_ne_zero hn), Nat.pow_zero, Nat.div_one,
      Nat.mul_one]
    omega
  have hkeep := sgVectorResize_keep hn hstore (fun _ => Nat.zero_le _) hround (fun _ => le_rfl)
  have hvector : ((usedBefore n old).destroyUnused n).initNew n
      = { usedBefore n old with usedCount := n, cells := mapRange ProcessStats.init 0 n old } :=
    if_pos (Nat.pos_of_ne_zero hn)
  refine ⟨((heldBefore n old).shrink 0 (usedBefore n old) n).grow 0 ((usedBefore n old).destroyUnused n) n,
    mapRange ProcessStats.init 0 n old, ?_, ⟨⟨?_, rfl, fun _ => rfl⟩,
    { usedBefore n old with usedCount := n, cells := mapRange ProcessStats.init 0 n old }, ?_, ?_, rfl,
    rfl⟩, ?_⟩
  · rw [vectorUpdated, Prog.bind_of_ok (show vectorCreateOrResize ProcessStats.info (some 0)
      (CountArg.count n).value (heldBefore n old) = _ from hkeep)]
    rfl
  · intro p hp
    have hne : p ≠ 0 := Nat.one_le_iff_ne_zero.mp hp
    show update (update (heldBefore n old).store 0 _) 0 _ p = none
    rw [Function.update_of_ne hne, Function.update_of_ne hne]
    exact (heldBefore_ready n old).fresh p hp
  · rw [← hvector, grow_store, Function.update_self]
  · exact ⟨rfl, Nat.zero_le _, le_rfl, le_rfl⟩
  · intro c hc
    exact if_pos ⟨Nat.zero_le c, hc⟩

theorem length_filter_kept (records : List KinfoProc2) :
    (keptOf records).length = (records.filter KinfoProc2.kept).length := by
  rw [← keptOf_fst, List.length_map]

theorem exists_keptOf {records : List KinfoProc2} {k : Nat} {r : KinfoProc2}
    (h : (records.filter KinfoProc2.kept)[k]? = some r) : ∃ i, (keptOf records)[k]? = some (r, i) := by
  rw [← keptOf_fst, List.getElem?_map, Option.map_eq_some_iff] at h
  obtain ⟨⟨r', i⟩, hget, rfl⟩ := h
  exact ⟨i, hget⟩

/-- Where the indices agree, every item is from one record. -/
theorem Proc2Cells.gives {raw cells : Nat → ProcessStats} {records : List KinfoProc2}
    (h : Proc2Cells raw records cells) (hraw : ∀ c < records.length, (raw c).proctitle = none)
    (hindex : ∀ (k : Nat) (r : KinfoProc2) (i : Nat), (keptOf records)[k]? = some (r, i) → i = k)
    {k : Nat} {r : KinfoProc2} (hr : (records.filter KinfoProc2.kept)[k]? = some r) :
    r.Gives (cells k) := by
  obtain ⟨i, hget⟩ := exists_keptOf hr
  obtain rfl := hindex k r i hget
  have hin := h.records i r i hget
  obtain ⟨hrec, -⟩ := mem_keptOf.mp (List.mem_of_getElem? hget)
  have hlt := (List.getElem?_eq_some_iff.mp hrec).1
  have hswitches := hin.switches
  rw [if_pos rfl] at hswitches
  refine ⟨hin.pid, hin.parent, h.names i r hrec, ?_, hswitches, ?_⟩
  · rw [h.titles i r hrec, hraw i hlt, Option.or_none]
  · rw [hswitches, hin.voluntary, hin.involuntary]

/-- On `KERN_PROC2` every item is from one record if and only if no record is skipped before one that is
not. -/
theorem exactProc2_pairwise (sys : BsdSystem) {records : List KinfoProc2}
    (hfew : records.length ≤ itemLimit) :
    ExactProc2 sys records ↔ records.Pairwise fun r r' => r.title = .skipped → r'.title = .skipped := by
  rw [← keptOf_index_iff]
  constructor
  · intro h k r i hget
    by_contra hik
    obtain ⟨hrec, -⟩ := mem_keptOf.mp (List.mem_of_getElem? hget)
    have hlt := (List.getElem?_eq_some_iff.mp hrec).1
    have hne : records.length ≠ 0 := by omega
    -- memory in which the cell of the record holds other counters
    obtain ⟨w1, raw, hgrown, h1, hraw⟩ := grown_old hne hfew fun _ =>
      { ProcessStats.zero with voluntaryContextSwitches := r.nvcsw + r.nivcsw + 1 }
    obtain ⟨x, w', cells, hrun, hcells, hitems⟩ := processStatsProc2_run sys hfew hgrown h1
    obtain ⟨x2, w2, hrun2, hgives⟩ := h _ 0 _ (heldBefore_ready _ _) rfl (usedBefore_roomy _ _) rfl
    rw [hrun] at hrun2
    cases hrun2
    rw [hitems, length_filter_kept, forall₂_range] at hgives
    have hkept : (records.filter KinfoProc2.kept)[k]? = some r := by
      rw [← keptOf_fst, List.getElem?_map, hget]
      rfl
    have hswitches := (hcells.records k r i hget).switches
    rw [if_neg hik, hraw i hlt, (hgives k r hkept).fromRecord] at hswitches
    simp [ProcessStats.init, ProcessStats.zero] at hswitches
  · intro hindex w p v hw hv hroomy hempty
    by_cases hne : records.length = 0
    · obtain rfl := List.length_eq_zero_iff.mp hne
      obtain ⟨x, w', hrun, hitems⟩ := fillFromRecords_zero hw hv hroomy fun p => proc2Loop sys p [] 0 0
      refine ⟨x, w', hrun, ?_⟩
      rw [hitems]
      exact .nil
    · obtain ⟨q, w1, raw, hgrown, h1, hraw⟩ := grown_run hw hv hroomy hempty hne hfew
      obtain ⟨x, w', cells, hrun, hcells, hitems⟩ := processStatsProc2_run sys hfew hgrown h1
      refine ⟨x, w', hrun, ?_⟩
      rw [hitems, length_filter_kept, forall₂_range]
      intro k r hr
      exact hcells.gives hraw hindex hr

/-! ### `KERN_PROC` -/

def KinfoBuild.kept (b : KinfoBuild) (r : KinfoProc) : Bool := r.stat ≠ .unset ∧ b.title r ≠ .skipped

/-- What an item holds of the record `r`, with the name of the record `named`. -/
structure KinfoBuild.In (b : KinfoBuild) (named r : KinfoProc) (item : ProcessStats) : Prop where
  processName : item.processName = some named.comm
  proctitle : item.proctitle = (b.title r).textFor named.comm
  pid : item.pid = r.pid
  parent : item.parent = b.parent r
  voluntary : item.voluntaryContextSwitches = (b.counters r).1
  involuntary : item.involuntaryContextSwitches = (b.counters r).2
  switches : item.contextSwitches = b.switches r

def KinfoBuild.filled (b : KinfoBuild) (sys : BsdSystem) (r named : KinfoProc) (item : ProcessStats) :
    ProcessStats :=
  stamp sys (b.title r) ((b.title r).onto named.comm
    (b.onto sys r named { item with processName := some named.comm }))

theorem KinfoBuild.onto_processName (b : KinfoBuild) (sys : BsdSystem) (r named : KinfoProc)
    (item : ProcessStats) : (b.onto sys r named item).processName = item.processName := by
  obtain ⟨layout, -, -⟩ := b
  cases layout with
  | kiStat => rfl
  | kpPid => rfl
  | kpThread => rfl
  | kpProc => rfl
  | darwin => rfl
  | pStat => rfl

theorem KinfoBuild.onto_proctitle (b : KinfoBuild) (sys : BsdSystem) (r named : KinfoProc)
    (item : ProcessStats) : (b.onto sys r named item).proctitle = item.proctitle := by
  obtain ⟨layout, -, -⟩ := b
  cases layout with
  | kiStat => rfl
  | kpPid => rfl
  | kpThread => rfl
  | kpProc => rfl
  | darwin => rfl
  | pStat => rfl

theorem KinfoBuild.filled_in (b : KinfoBuild) (sys : BsdSystem) (r named : KinfoProc)
    {item : ProcessStats} (hitem : item.proctitle = none) :
    b.In named r (b.filled sys r named item) := by
  refine ⟨b.onto_processName sys r named _, ?_, ?_, ?_, ?_, ?_, ?_⟩
  · show ((b.title r).textFor named.comm).or (b.onto sys r named _).proctitle = _
    rw [b.onto_proctitle, hitem, Option.or_none]
  all_goals
    obtain ⟨layout, args, args2⟩ := b
    cases layout <;> rfl

theorem procRound_run {w : World ProcessStats} {p : Ptr} {n j : Nat} {cells : Nat → ProcessStats}
    (h : Filling w p n cells) (hj : j < n) (b : KinfoBuild) (sys : BsdSystem) {kpStats : List KinfoProc}
    {named : KinfoProc} (hnamed : kpStats[j]? = some named) (r : KinfoProc) :
    ∃ w' item, procRound b sys kpStats p j r w
        = .ok (if b.kept r then .filled else .skipped, w') ∧
      Filling w' p n (update cells j item) ∧
      (b.kept r → item = b.filled sys r named (cells j)) ∧
      (b.kept r = false → item.proctitle = (cells j).proctitle) := by
  by_cases hstat : r.stat = .unset
  · have hkept : b.kept r = false := by simp [KinfoBuild.kept, hstat]
    refine ⟨w, cells j, ?_, by rwa [Function.update_eq_self], by simp [hkept], fun _ => rfl⟩
    rw [procRound, if_pos hstat, hkept]
    rfl
  · obtain ⟨w1, hrun1, h1⟩ := updateName_run h hj named.comm
    obtain ⟨w2, hrun2, h2⟩ := setSlot_run h1 hj (b.onto sys r named)
    rw [Function.update_self, Function.update_idem] at h2
    set item := b.onto sys r named { cells j with processName := some named.comm } with hitem
    have hname : (update cells j item j).processName = some named.comm := by
      rw [Function.update_self, hitem]
      exact b.onto_processName sys r named _
    obtain ⟨w3, hrun3, h3⟩ := storeTitle_run h2 hj hname (b.title r) ""
    rw [Function.update_self, Function.update_idem] at h3
    rw [procRound, if_neg hstat, hnamed]
    simp only
    rw [Prog.bind_of_ok hrun1, if_pos rfl, Prog.bind_of_ok hrun2, Prog.bind_of_ok hrun3]
    by_cases hskip : b.title r = .skipped
    · have hkept : b.kept r = false := by simp [KinfoBuild.kept, hskip]
      refine ⟨w3, _, ?_, h3, by simp [hkept], ?_⟩
      · rw [hkept, hskip]
        rfl
      · intro _
        rw [hskip]
        exact b.onto_proctitle sys r named _
    · have hkept : b.kept r = true := by simp [KinfoBuild.kept, hskip, hstat]
      have hfill : (b.title r).fill = .filled := by rw [Title.fill, if_neg hskip]
      obtain ⟨w4, hrun4, h4⟩ := setSlot_run h3 hj fun item => { item with systime := sys.now }
      rw [Function.update_self, Function.update_idem] at h4
      refine ⟨w4, _, ?_, h4, ?_, by simp [hkept]⟩
      · rw [hfill, if_pos rfl, Prog.bind_of_ok hrun4, hkept]
        rfl
      · intro _
        rw [KinfoBuild.filled, stamp, if_pos hfill]

/-- The first cells after the records `pre` of `kpStats`, and the cells behind them. -/
structure ProcCells (b : KinfoBuild) (kpStats pre : List KinfoProc) (n : Nat)
    (cells : Nat → ProcessStats) : Prop where
  records : ∀ (k : Nat) (r named : KinfoProc), (pre.filter b.kept)[k]? = some r →
    kpStats[k]? = some named → b.In named r (cells k)
  untitled : ∀ c, (pre.filter b.kept).length ≤ c → c < n → (cells c).proctitle = none

theorem filter_append_singleton {α : Type} (p : α → Bool) (pre : List α) (a : α) :
    (pre ++ [a]).filter p = pre.filter p ++ if p a then [a] else [] := by
  rw [List.filter_append, List.filter_singleton, Bool.cond_eq_ite]

theorem ProcCells.step {b : KinfoBuild} {kpStats pre : List KinfoProc} {cells : Nat → ProcessStats}
    (h : ProcCells b kpStats pre kpStats.length cells) (sys : BsdSystem)
    (hj : (pre.filter b.kept).length < kpStats.length) {r : KinfoProc} {item : ProcessStats}
    (hfilled : b.kept r = true →
      item = b.filled sys r kpStats[(pre.filter b.kept).length] (cells (pre.filter b.kept).length))
    (hskipped : b.kept r = false → item.proctitle = (cells (pre.filter b.kept).length).proctitle) :
    ProcCells b kpStats (pre ++ [r]) kpStats.length (update cells (pre.filter b.kept).length item) := by
  constructor
  · intro k r' named hk hnamed
    rw [filter_append_singleton] at hk
    rcases getElem?_append_ite hk with hk | ⟨rfl, rfl, hkept⟩
    · have hlt := (List.getElem?_eq_some_iff.mp hk).1
      rw [Function.update_of_ne (by omega)]
      exact h.records k r' named hk hnamed
    · rw [List.getElem?_eq_getElem hj, Option.some_inj] at hnamed
      rw [Function.update_self, hfilled hkept, hnamed]
      exact b.filled_in sys r named (h.untitled _ le_rfl hj)
  · intro c hc hcn
    rw [filter_append_singleton, List.length_append] at hc
    by_cases hcj : c = (pre.filter b.kept).length
    · subst hcj
      have hkept : b.kept r = false := by
        by_contra hkept
        rw [Bool.not_eq_false] at hkept
        rw [if_pos hkept, List.length_singleton] at hc
        omega
      rw [Function.update_self, hskipped hkept]
      exact h.untitled _ le_rfl hcn
    · rw [Function.update_of_ne hcj]
      exact h.untitled c (by omega) hcn

theorem procLoop_run (b : KinfoBuild) (sys : BsdSystem) {kpStats : List KinfoProc} {p : Ptr}
    (rest : List KinfoProc) {pre : List KinfoProc} (hall : kpStats = pre ++ rest)
    {w : World ProcessStats} {cells : Nat → ProcessStats} (h : Filling w p kpStats.length cells)
    (hcells : ProcCells b kpStats pre kpStats.length cells) :
    ∃ w' cells', procLoop b sys kpStats p rest (pre.filter b.kept).length w
        = .ok (.ok (kpStats.filter b.kept).length, w') ∧
      Filling w' p kpStats.length cells' ∧ ProcCells b kpStats kpStats kpStats.length cells' := by
  induction rest generalizing pre w cells with
  | nil =>
      rw [List.append_nil] at hall
      subst hall
      exact ⟨w, cells, rfl, h, hcells⟩
  | cons r rest ih =>
      have hle := List.length_filter_le b.kept pre
      have hj : (pre.filter b.kept).length < kpStats.length := by
        rw [hall, List.length_append, List.length_cons]
        omega
      obtain ⟨w1, item, hround, h1, hfilled, hskipped⟩ :=
        procRound_run h hj b sys (List.getElem?_eq_getElem hj) r
      obtain ⟨w2, cells', hloop, h2, hcells2⟩ :=
        ih (by rw [hall]; simp) h1 (hcells.step sys hj hfilled hskipped)
      refine ⟨w2, cells', ?_, h2, hcells2⟩
      rw [← hloop, procLoop, Prog.bind_of_ok hround, filter_append_singleton, List.length_append]
      cases b.kept r with
      | true => rfl
      | false => rfl

structure KinfoBuild.Gives (b : KinfoBuild) (r : KinfoProc) (item : ProcessStats) : Prop where
  pid : item.pid = r.pid
  parent : item.parent = b.parent r
  processName : item.processName = some r.comm
  proctitle : item.proctitle = (b.title r).textFor r.comm
  fromRecord : item.contextSwitches = b.switches r
  switches : item.contextSwitches = item.voluntaryContextSwitches + item.involuntaryContextSwitches

/-- Whatever empty vector it starts with, the read leaves one item for each record that is not skipped, in
the order of the records, and each is from one record. -/
def ExactProc (b : KinfoBuild) (sys : BsdSystem) (records : List KinfoProc) : Prop :=
  ∀ (w : World ProcessStats) (p : Ptr) (v : SgVector ProcessStats), Ready w → w.store p = some v →
    Roomy v → v.usedCount = 0 →
    ∃ x w', processStatsProc b sys records (some p) w = .ok ((.none, x), w') ∧
      List.Forall₂ b.Gives (records.filter b.kept) (w'.itemsAt x)

/-- The names and the counters that are stored for the records agree with theirs. -/
def KinfoBuild.Agree (b : KinfoBuild) (records : List KinfoProc) : Prop :=
  ∀ (k : Nat) (r named : KinfoProc), (records.filter b.kept)[k]? = some r → records[k]? = some named →
    named.comm = r.comm ∧ b.switches r = (b.counters r).1 + (b.counters r).2

theorem KinfoBuild.In.gives_iff {b : KinfoBuild} {named r : KinfoProc} {item : ProcessStats}
    (h : b.In named r item) :
    b.Gives r item ↔ named.comm = r.comm ∧ b.switches r = (b.counters r).1 + (b.counters r).2 := by
  constructor
  · intro hgives
    constructor
    · exact Option.some.inj (h.processName.symm.trans hgives.processName)
    · rw [← h.switches, ← h.voluntary, ← h.involuntary]
      exact hgives.switches
  · rintro ⟨hname, hswitches⟩
    refine ⟨h.pid, h.parent, ?_, ?_, h.switches, ?_⟩
    · rw [h.processName, hname]
    · rw [h.proctitle, hname]
    · rw [h.switches, h.voluntary, h.involuntary]
      exact hswitches

theorem processStatsProc_run (b : KinfoBuild) (sys : BsdSystem) {records : List KinfoProc}
    (hfew : records.length ≤ itemLimit) {w : World ProcessStats} (hw : Ready w) {p : Ptr}
    {v : SgVector ProcessStats} (hv : w.store p = some v) (hroomy : Roomy v) (hempty : v.usedCount = 0) :
    ∃ x w', processStatsProc b sys records (some p) w = .ok ((.none, x), w') ∧
      (List.Forall₂ b.Gives (records.filter b.kept) (w'.itemsAt x) ↔ b.Agree records) := by
  by_cases hne : records.length = 0
  · obtain rfl := List.length_eq_zero_iff.mp hne
    obtain ⟨x, w', hrun, hitems⟩ := fillFromRecords_zero hw hv hroomy fun p => procLoop b sys [] p [] 0
    refine ⟨x, w', hrun, ?_⟩
    rw [hitems]
    constructor
    · intro _ k r named hr
      cases hr
    · intro _
      exact .nil
  · obtain ⟨q, w1, raw, hgrown, h1, hraw⟩ := grown_run hw hv hroomy hempty hne hfew
    have hstart : ProcCells b records [] records.length raw := by
      constructor
      · intro k r named hr
        cases hr
      · intro c _ hc
        exact hraw c hc
    obtain ⟨w2, cells, hloop, h2, hcells⟩ := 
      @procLoop_run b sys records q records [] rfl w1 raw h1 hstart
    have hle := List.length_filter_le b.kept records
    obtain ⟨x, w', hrun, hitems⟩ := @fillFromRecords_run w p q records.length
      (records.filter b.kept).length cells (fun p => procLoop b sys records p records 0) w1 w2 hgrown
      hloop h2 hle hfew
    refine ⟨x, w', hrun, ?_⟩
    rw [hitems, forall₂_range]
    constructor
    · intro h k r named hr hnamed
      exact (hcells.records k r named hr hnamed).gives_iff.mp (h k r hr)
    · intro h k r hr
      have hlt : k < records.length := by
        have := (List.getElem?_eq_some_iff.mp hr).1
        omega
      have hnamed := List.getElem?_eq_getElem hlt
      exact (hcells.records k r _ hr hnamed).gives_iff.mpr (h k r _ hr hnamed)

/-- On `KERN_PROC` every item is from one record if and only if the names agree and so do the counters. -/
theorem exactProc_agree (b : KinfoBuild) (sys : BsdSystem) {records : List KinfoProc}
    (hfew : records.length ≤ itemLimit) : ExactProc b sys records ↔ b.Agree records := by
  constructor
  · intro h
    obtain ⟨x, w', hrun, hiff⟩ :=
      processStatsProc_run b sys hfew beforeRead_ready (p := 0) rfl ⟨rfl, by decide, by decide, by decide⟩
        (v := noProcesses) rfl
    obtain ⟨x2, w2, hrun2, hgives⟩ := h beforeRead 0 noProcesses beforeRead_ready rfl
      ⟨rfl, by decide, by decide, by decide⟩ rfl
    rw [hrun] at hrun2
    cases hrun2
    exact hiff.mp hgives
  · intro h w p v hw hv hroomy hempty
    obtain ⟨x, w', hrun, hiff⟩ := processStatsProc_run b sys hfew hw hv hroomy hempty
    exact ⟨x, w', hrun, hiff.mpr h⟩

/-! ### Both kinds of records -/

/-- With `kinfo_proc2` records every item is from one record if and only if no record is skipped before one
that is not; with `kinfo_proc` records, if and only if the name of the record with the number of the item is
the name of the record the item is from, and the counters of the record add up. -/
theorem oneRecord_iff (sys : BsdSystem) (b : KinfoBuild) (records2 : List KinfoProc2)
    (records : List KinfoProc) (hfew2 : records2.length ≤ itemLimit) (hfew : records.length ≤ itemLimit) :
    (ExactProc2 sys records2 ↔
      records2.Pairwise fun r r' => r.title = .skipped → r'.title = .skipped) ∧
    (ExactProc b sys records ↔ b.Agree records) :=
  ⟨exactProc2_pairwise sys hfew2, exactProc_agree b sys hfew⟩

def KinfoProc2.sample (pid : Int) (comm : CString) (argv : ArgvRead) : KinfoProc2 :=
  ⟨comm, pid, 1, 1, 1, 0, 0, 0, 0, 2, 3, 0, 0, 0, 0, 0, 0, 0, 0, .sleep, argv⟩

def KinfoProc.sample (stat : KernStat) (pid : Int) (comm : CString) : KinfoProc :=
  ⟨stat, .unset, comm, pid, 1, 1, 1, 0, 0, 0, 0, 0, none, 0, 0, 0, 0, 0, 0, 0, .read 1 []⟩

def KinfoBuild.sample : KinfoBuild := ⟨.kiStat, true, false⟩

theorem oneRecord_sample :
    ExactProc2 ⟨4096, 0⟩ [.sample 1 [97] (.read 2 [97]), .sample 2 [98] (.failed 3)] ∧
    ExactProc .sample ⟨4096, 0⟩ [.sample .sleep 1 [97], .sample .unset 2 [98]] := by
  have h := oneRecord_iff ⟨4096, 0⟩ .sample [.sample 1 [97] (.read 2 [97]), .sample 2 [98] (.failed 3)]
    [.sample .sleep 1 [97], .sample .unset 2 [98]] (by decide) (by decide)
  refine ⟨h.1.mpr (by decide), h.2.mpr ?_⟩
  intro k r named hr hnamed
  have hfilter : [KinfoProc.sample .sleep 1 [97], KinfoProc.sample .unset 2 [98]].filter
      KinfoBuild.sample.kept = [KinfoProc.sample .sleep 1 [97]] := rfl
  rw [hfilter] at hr
  cases k with
  | zero =>
      cases hr
      cases hnamed
      exact ⟨rfl, rfl⟩
  | succ k => cases hr

/-- The first process vanishes before its arguments are read, or its record is not in use, and the second
one gets its name. -/
theorem not_oneRecord_skipped :
    ¬ ExactProc2 ⟨4096, 0⟩ [.sample 1 [97] (.failed 3), .sample 2 [98] (.read 2 [98])] ∧
    ¬ ExactProc .sample ⟨4096, 0⟩ [.sample .unset 1 [97], .sample .sleep 2 [98]] := by
  constructor
  · rw [exactProc2_pairwise _ (by decide)]
    decide
  · rw [exactProc_agree _ _ (by decide)]
    intro h
    have hname := (h 0 (.sample .sleep 2 [98]) (.sample .unset 1 [97]) rfl rfl).1
    exact absurd hname (by decide)

end Statgrab.Process
