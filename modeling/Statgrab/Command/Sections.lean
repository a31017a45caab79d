import Mathlib.Data.List.Nodup
import Statgrab.Command.PrintStats

/-!
# The sections of the `statgrab` command

Only the sections that are asked for are fetched. The section of an argument is the first one whose name the
argument starts with, while an argument is looked up among the stats by its whole name, or by its start where
it ends in a dot. Both agree because the only dot in the name of a section is its last byte.
-/

namespace Statgrab

open Text

/-! ### The code -/

/-- `display_mode_type`. -/
inductive DisplayMode where
  | linux
  | bsd
  | graphite
  | mrtg
  | plain
  deriving DecidableEq, Repr

/-- The stats: `stat_items`, NULL until the first stat is added, with the `num_stats` items that are in use,
`alloc_stats`, and the time that is printed with the values. -/
structure StatTable where
  statItems : Option (List StatItem)
  allocStats : Nat
  graphiteTs : Int
  deriving DecidableEq, Repr

def incrementStats : Nat := 64

def clearStats (table : StatTable) : StatTable := { table with statItems := table.statItems.map fun _ => [] }

def skipped (mode : DisplayMode) (type : StatType) : Bool :=
  mode = .graphite && (type = .bool || type = .string || type = .duplex)

/-- `add_stat`, with the item that its arguments make. The command ends where an allocation fails. -/
def addStat (mode : DisplayMode) (item : StatItem) (table : StatTable) : StatTable :=
  if skipped mode item.type then table
  else
    let items := table.statItems.getD []
    { table with
      statItems := some (items ++ [item])
      allocStats := if table.allocStats ≤ items.length then table.allocStats + incrementStats
        else table.allocStats }

/-- `toplevel`, with the items that its function adds. -/
structure Toplevel where
  name : CString
  populate : List StatItem
  interesting : Bool
  deriving DecidableEq, Repr

structure Populate where
  const : List StatItem := []
  cpu : List StatItem := []
  mem : List StatItem := []
  load : List StatItem := []
  user : List StatItem := []
  swap : List StatItem := []
  general : List StatItem := []
  fs : List StatItem := []
  disk : List StatItem := []
  proc : List StatItem := []
  net : List StatItem := []
  page : List StatItem := []

def toplevels (populate : Populate) : List Toplevel :=
  [⟨bytes "const.", populate.const, false⟩,
    ⟨bytes "cpu.", populate.cpu, false⟩,
    ⟨bytes "mem.", populate.mem, false⟩,
    ⟨bytes "load.", populate.load, false⟩,
    ⟨bytes "user.", populate.user, false⟩,
    ⟨bytes "swap.", populate.swap, false⟩,
    ⟨bytes "general.", populate.general, false⟩,
    ⟨bytes "fs.", populate.fs, false⟩,
    ⟨bytes "disk.", populate.disk, false⟩,
    ⟨bytes "proc.", populate.proc, false⟩,
    ⟨bytes "net.", populate.net, false⟩,
    ⟨bytes "page.", populate.page, false⟩]

/-- The loop over the sections for one argument, which stops at the first that matches. -/
def selectSection (arg : CString) : List Toplevel → List Toplevel
  | [] => []
  | t :: ts =>
      if strncmp arg t.name t.name.length = .eq then { t with interesting := true } :: ts
      else t :: selectSection arg ts

def selectInteresting (argv : List CString) (ts : List Toplevel) : List Toplevel :=
  if argv = [] then ts.map fun t => { t with interesting := true }
  else argv.foldl (fun ts arg => selectSection arg ts) ts

def populateSections (mode : DisplayMode) : List Toplevel → StatTable → StatTable
  | [], table => table
  | t :: ts, table =>
      populateSections mode ts
        (if t.interesting then t.populate.foldl (fun table item => addStat mode item table) table else table)

/-- `get_stats`, with the `qsort` of the system and what `time` returns. -/
def getStats (qsort : (StatItem → StatItem → Ordering) → List StatItem → List StatItem) (now : Int)
    (mode : DisplayMode) (ts : List Toplevel) (table : StatTable) : StatTable :=
  let table := populateSections mode ts (clearStats table)
  let table := { table with statItems := table.statItems.map (qsort statsCompare) }
  if mode = .graphite then { table with graphiteTs := now } else table

/-! ### What is fetched -/

def fetched (mode : DisplayMode) (ts : List Toplevel) : List StatItem :=
  (ts.filter (·.interesting)).flatMap fun t => t.populate.filter fun item => !skipped mode item.type

theorem addStats_items (mode : DisplayMode) (items : List StatItem) (table : StatTable) :
    (items.foldl (fun table item => addStat mode item table) table).statItems.getD [] =
      table.statItems.getD [] ++ items.filter fun item => !skipped mode item.type := by
  induction items generalizing table with
  | nil => rw [List.foldl_nil, List.filter_nil, List.append_nil]
  | cons item items ih =>
      rw [List.foldl_cons, ih, addStat]
      cases hskip : skipped mode item.type with
      | true => rw [if_pos rfl, List.filter_cons_of_neg (by simp [hskip])]
      | false =>
          rw [if_neg Bool.false_ne_true, List.filter_cons_of_pos (by simp [hskip]), Option.getD_some,
            List.append_assoc, List.singleton_append]

theorem populateSections_items (mode : DisplayMode) (ts : List Toplevel) (table : StatTable) :
    (populateSections mode ts table).statItems.getD [] = table.statItems.getD [] ++ fetched mode ts := by
  induction ts generalizing table with
  | nil => rw [populateSections, fetched, List.filter_nil, List.flatMap_nil, List.append_nil]
  | cons t ts ih =>
      rw [populateSections, ih]
      cases hint : t.interesting with
      | false => rw [if_neg Bool.false_ne_true, fetched, fetched, List.filter_cons_of_neg (by simp [hint])]
      | true =>
          rw [if_pos rfl, addStats_items, fetched, fetched, List.filter_cons_of_pos (by simp [hint]),
            List.flatMap_cons, List.append_assoc]

theorem addStat_graphiteTs (mode : DisplayMode) (item : StatItem) (table : StatTable) :
    (addStat mode item table).graphiteTs = table.graphiteTs := by
  rw [addStat]
  split
  · rfl
  · rfl

theorem populateSections_graphiteTs (mode : DisplayMode) (ts : List Toplevel) (table : StatTable) :
    (populateSections mode ts table).graphiteTs = table.graphiteTs := by
  have hitems : ∀ (items : List StatItem) (table : StatTable),
      (items.foldl (fun table item => addStat mode item table) table).graphiteTs = table.graphiteTs := by
    intro items
    induction items with
    | nil =>
        intro table
        rfl
    | cons item items ih =>
        intro table
        rw [List.foldl_cons, ih, addStat_graphiteTs]
  induction ts generalizing table with
  | nil => rfl
  | cons t ts ih =>
      rw [populateSections, ih]
      split
      · exact hitems t.populate table
      · rfl

section Fetch

variable {qsort : (StatItem → StatItem → Ordering) → List StatItem → List StatItem}

theorem getStats_items (hsort : Search.Sorts qsort) (now : Int) (mode : DisplayMode) (ts : List Toplevel)
    (table : StatTable) :
    (getStats qsort now mode ts table).statItems.getD [] = qsort statsCompare (fetched mode ts) := by
  have hnil : qsort statsCompare [] = [] := (hsort.perm statsCompare []).eq_nil
  have hitems := populateSections_items mode ts (clearStats table)
  have hclear : (clearStats table).statItems.getD [] = [] := by
    rw [clearStats]
    cases table.statItems with
    | none => rfl
    | some items => rfl
  have hsorted : ((populateSections mode ts (clearStats table)).statItems.map (qsort statsCompare)).getD []
      = qsort statsCompare (fetched mode ts) := by
    rw [hclear, List.nil_append] at hitems
    cases hstats : (populateSections mode ts (clearStats table)).statItems with
    | none =>
        rw [hstats, Option.getD_none] at hitems
        rw [← hitems, hnil]
        rfl
    | some items =>
        rw [hstats, Option.getD_some] at hitems
        rw [← hitems]
        rfl
  rw [getStats]
  split
  · exact hsorted
  · exact hsorted

theorem getStats_graphiteTs (now : Int) (mode : DisplayMode) (ts : List Toplevel) (table : StatTable) :
    (getStats qsort now mode ts table).graphiteTs = if mode = .graphite then now else table.graphiteTs := by
  rw [getStats]
  split
  · rfl
  · exact populateSections_graphiteTs mode ts (clearStats table)

end Fetch

/-! ### The sections of an argument -/

/-- The one dot of the name is its last byte. -/
def EndsInDot (name : CString) : Prop := name.getLast? = some 46 ∧ 46 ∉ name.dropLast

instance (name : CString) : Decidable (EndsInDot name) := inferInstanceAs (Decidable (_ ∧ _))

theorem EndsInDot.eq_of_start {start name : CString} (hname : EndsInDot name)
    (hdot : start.getLast? = some 46) (hstart : start <+: name) : start = name := by
  obtain ⟨rest, rfl⟩ := hstart
  rcases rest.eq_nil_or_concat' with rfl | ⟨rest', b, rfl⟩
  · rw [List.append_nil]
  · have hmem : 46 ∈ (start ++ (rest' ++ [b])).dropLast := by
      rw [← List.append_assoc, List.dropLast_concat]
      exact List.mem_append_left rest' (List.mem_of_getLast? hdot)
    exact absurd hmem hname.2

theorem EndsInDot.eq_of_starts {name name' arg : CString} (hname : EndsInDot name) (hname' : EndsInDot name')
    (h : name <+: arg) (h' : name' <+: arg) : name = name' := by
  rcases List.prefix_or_prefix_of_prefix h h' with hle | hle
  · exact hname'.eq_of_start hname.1 hle
  · exact (hname.eq_of_start hname'.1 hle).symm

theorem EndsInDot.start_of_wanted {name request : CString} {item : StatItem} (hname : EndsInDot name)
    (hitem : name <+: item.name) (hwanted : Wanted request item) : name <+: request := by
  rcases hwanted with hsame | ⟨hdot, hstart⟩
  · rw [← hsame]
    exact hitem
  · rcases List.prefix_or_prefix_of_prefix hitem hstart with hle | hle
    · exact hle
    · obtain rfl := hname.eq_of_start hdot hle
      exact List.prefix_rfl

/-- The names of the sections can be told apart at the start of an argument. -/
structure Named (ts : List Toplevel) : Prop where
  dot : ∀ t ∈ ts, EndsInDot t.name
  nodup : (ts.map (·.name)).Nodup

theorem toplevels_named (populate : Populate) : Named (toplevels populate) := by
  have hdot : ∀ name ∈ (toplevels {}).map (·.name), EndsInDot name := by decide
  have hnodup : ((toplevels {}).map (·.name)).Nodup := by decide
  have hnames : (toplevels populate).map (·.name) = (toplevels {}).map (·.name) := rfl
  constructor
  · intro t ht
    apply hdot t.name
    rw [← hnames]
    exact List.mem_map_of_mem ht
  · exact hnodup

theorem Named.map {ts : List Toplevel} (h : Named ts) (flag : Toplevel → Bool) :
    Named (ts.map fun t => { t with interesting := flag t }) := by
  constructor
  · intro t ht
    obtain ⟨t', ht', rfl⟩ := List.mem_map.mp ht
    exact h.dot t' ht'
  · rw [List.map_map]
    exact h.nodup

theorem selectSection_eq (arg : CString) {ts : List Toplevel} (h : Named ts) :
    selectSection arg ts = ts.map fun t => { t with interesting := t.interesting || decide (t.name <+: arg) } := by
  induction ts with
  | nil => rfl
  | cons t ts ih =>
      obtain ⟨hfirst, hrest⟩ := List.nodup_cons.mp h.nodup
      have hmatch : strncmp arg t.name t.name.length = .eq ↔ t.name <+: arg := by
        rw [strncmp, List.take_length, strcmp_eq_iff, List.prefix_iff_eq_take, eq_comm]
      rw [selectSection, List.map_cons]
      by_cases hstart : t.name <+: arg
      · rw [if_pos (hmatch.mpr hstart)]
        -- no other section has a name that the argument starts with
        have hothers : ts.map (fun t => { t with interesting := t.interesting || decide (t.name <+: arg) }) = ts := by
          refine (List.map_congr_left ?_).trans (List.map_id ts)
          intro t' ht'
          have hno : ¬ t'.name <+: arg := by
            intro hstart'
            have hsame := (h.dot t List.mem_cons_self).eq_of_starts
              (h.dot t' (List.mem_cons_of_mem t ht')) hstart hstart'
            exact hfirst (List.mem_map.mpr ⟨t', ht', hsame.symm⟩)
          simp only [hno, decide_false, Bool.or_false, id_eq]
        simp only [hothers, hstart, decide_true, Bool.or_true]
      · rw [if_neg (mt hmatch.mp hstart), ih ⟨fun t' ht' => h.dot t' (List.mem_cons_of_mem t ht'), hrest⟩]
        simp only [hstart, decide_false, Bool.or_false]

theorem selectInteresting_eq {argv : List CString} (hargv : argv ≠ []) {ts : List Toplevel} (h : Named ts) :
    selectInteresting argv ts = ts.map fun t =>
      { t with interesting := t.interesting || argv.any fun arg => decide (t.name <+: arg) } := by
  rw [selectInteresting, if_neg hargv]
  clear hargv
  induction argv generalizing ts with
  | nil =>
      simp only [List.foldl_nil, List.any_nil, Bool.or_false]
      exact (List.map_id ts).symm
  | cons arg argv ih =>
      rw [List.foldl_cons, selectSection_eq arg h, ih (h.map _), List.map_map]
      apply List.map_congr_left
      intro t _
      simp only [Function.comp_apply, List.any_cons, Bool.or_assoc]

/-! ### The answers -/

theorem fetched_map (mode : DisplayMode) (ts : List Toplevel) (flag : Toplevel → Bool) :
    fetched mode (ts.map fun t => { t with interesting := flag t }) =
      ts.flatMap fun t => if flag t then t.populate.filter fun item => !skipped mode item.type else [] := by
  induction ts with
  | nil => rfl
  | cons t ts ih =>
      rw [fetched] at ih
      rw [fetched, List.map_cons, List.flatMap_cons, ← ih]
      cases hflag : flag t with
      | true => rw [List.filter_cons_of_pos rfl, List.flatMap_cons, if_pos rfl]
      | false => rw [List.filter_cons_of_neg Bool.false_ne_true, if_neg Bool.false_ne_true, List.nil_append]

theorem fetched_all (mode : DisplayMode) (ts : List Toplevel) :
    fetched mode (ts.map fun t => { t with interesting := true })
      = (ts.flatMap (·.populate)).filter fun item => !skipped mode item.type := by
  rw [fetched_map mode ts fun _ => true, List.filter_flatMap]
  rfl

theorem fetched_wanted (mode : DisplayMode) {ts : List Toplevel} (h : Named ts)
    (hnames : ∀ t ∈ ts, ∀ item ∈ t.populate, t.name <+: item.name) {argv : List CString} {request : CString}
    (hrequest : request ∈ argv) :
    (fetched mode (selectInteresting argv ts)).filter (Wanted request ·) =
      (fetched mode (selectInteresting [] ts)).filter (Wanted request ·) := by
  rw [selectInteresting_eq (List.ne_nil_of_mem hrequest) h, selectInteresting, if_pos rfl, fetched_map,
    fetched_map mode ts fun _ => true]
  have hdot := h.dot
  clear h
  induction ts with
  | nil => rfl
  | cons t ts ih =>
      rw [List.flatMap_cons, List.flatMap_cons, List.filter_append, List.filter_append,
        ih (fun t' ht' => hnames t' (List.mem_cons_of_mem t ht'))
          (fun t' ht' => hdot t' (List.mem_cons_of_mem t ht'))]
      apply congrArg (· ++ _)
      cases hflag : t.interesting || argv.any fun arg => decide (t.name <+: arg) with
      | true => rfl
      | false =>
          -- a section that is left out has nothing that is wanted
          rw [if_neg Bool.false_ne_true, if_pos rfl, List.filter_nil, eq_comm, List.filter_eq_nil_iff]
          intro item hitem
          rw [decide_eq_true_eq]
          intro hwanted
          have hstart : t.name <+: request :=
            (hdot t List.mem_cons_self).start_of_wanted
              (hnames t List.mem_cons_self item (List.mem_filter.mp hitem).1) hwanted
          have hany : argv.any (fun arg => decide (t.name <+: arg)) = true :=
            List.any_eq_true.mpr ⟨request, hrequest, decide_eq_true hstart⟩
          rw [hany, Bool.or_true] at hflag
          cases hflag

theorem mem_of_mem_fetched {mode : DisplayMode} {ts : List Toplevel} {flag : Toplevel → Bool} {item : StatItem}
    (h : item ∈ fetched mode (ts.map fun t => { t with interesting := flag t })) :
    item ∈ ts.flatMap (·.populate) := by
  rw [fetched_map] at h
  obtain ⟨t, ht, hitem⟩ := List.mem_flatMap.mp h
  refine List.mem_flatMap.mpr ⟨t, ht, ?_⟩
  split at hitem
  · exact (List.mem_filter.mp hitem).1
  · cases hitem

instance : Std.TransCmp statsCompare where
  eq_swap := (inferInstance : Std.OrientedCmp strcmp).eq_swap
  isLE_trans := (inferInstance : Std.TransCmp strcmp).isLE_trans

/-- Two sorted lists of stats that can be told apart by their names answer a request in the same way when
the same items are wanted. -/
theorem answer_congr {items items' : List StatItem} (hsorted : SortedStats items) (hsorted' : SortedStats items')
    (hdistinct : ∀ a ∈ items, ∀ b ∈ items', a.name = b.name → a = b) {request : CString}
    (hwanted : (items.filter (Wanted request ·)).Perm (items'.filter (Wanted request ·))) :
    answer items request = answer items' request := by
  have hsame : items.filter (Wanted request ·) = items'.filter (Wanted request ·) := by
    refine Search.sorted_unique hwanted (hsorted.filter _) (hsorted'.filter _) ?_
    intro a ha b hb heq
    exact hdistinct a (List.mem_filter.mp ha).1 b (List.mem_filter.mp hb).1 (strcmp_eq_iff.mp heq)
  rw [answer, answer, hsame]

section Interesting

variable {qsort : (StatItem → StatItem → Ordering) → List StatItem → List StatItem}
  {bsearch : (StatItem → Ordering) → List StatItem → Option Nat}

theorem getStats_sorted (hsort : Search.Sorts qsort) (now : Int) (mode : DisplayMode) (ts : List Toplevel)
    (table : StatTable) : SortedStats ((getStats qsort now mode ts table).statItems.getD []) := by
  rw [getStats_items hsort]
  exact hsort.sorted statsCompare _

theorem getStats_answer (hsort : Search.Sorts qsort) (now : Int) (mode : DisplayMode) (table : StatTable)
    {ts : List Toplevel} (hnamed : Named ts)
    (hnames : ∀ t ∈ ts, ∀ item ∈ t.populate, t.name <+: item.name)
    (hdistinct : ((ts.flatMap (·.populate)).map (·.name)).Nodup) {argv : List CString} {request : CString}
    (hrequest : request ∈ argv) :
    answer ((getStats qsort now mode (selectInteresting argv ts) table).statItems.getD []) request =
      answer ((getStats qsort now mode (selectInteresting [] ts) table).statItems.getD []) request := by
  have hsome := hsort.perm statsCompare (fetched mode (selectInteresting argv ts))
  have hall := hsort.perm statsCompare (fetched mode (selectInteresting [] ts))
  refine answer_congr (getStats_sorted hsort now mode _ table) (getStats_sorted hsort now mode _ table) ?_ ?_
  · intro a ha b hb hname
    rw [getStats_items hsort, hsome.mem_iff, selectInteresting_eq (List.ne_nil_of_mem hrequest) hnamed] at ha
    rw [getStats_items hsort, hall.mem_iff, selectInteresting, if_pos rfl] at hb
    exact List.inj_on_of_nodup_map hdistinct (mem_of_mem_fetched ha) (mem_of_mem_fetched hb) hname
  · rw [getStats_items hsort, getStats_items hsort]
    apply (hsome.filter _).trans
    rw [fetched_wanted mode hnamed hnames hrequest]
    exact (hall.filter _).symm

def answers (items : List StatItem) (argv : List CString) : List Printed :=
  if argv = [] then items.map .stat else argv.flatMap (answer items)

theorem printStats_answers (hsearch : Search.Lawful bsearch) {statItems : Option (List StatItem)}
    (hsorted : SortedStats (statItems.getD [])) {argv : List CString} (hargv : ∀ request ∈ argv, request ≠ []) :
    printStats bsearch statItems argv = some (answers (statItems.getD []) argv) := by
  rw [answers]
  by_cases hne : argv = []
  · subst hne
    rw [if_pos rfl, printStats_all]
  · rw [if_neg hne, printStats, if_neg hne]
    exact printRequests_answer hsearch hsorted hargv

/-- What is printed does not depend on whether only the sections that are asked for are fetched, or all: the
lines are the answers among all stats of the mode, sorted. -/
theorem printStats_interesting (hsort : Search.Sorts qsort) (hsearch : Search.Lawful bsearch) (now : Int)
    (mode : DisplayMode) (table : StatTable) {populate : Populate}
    (hnames : ∀ t ∈ toplevels populate, ∀ item ∈ t.populate, t.name <+: item.name)
    (hdistinct : (((toplevels populate).flatMap (·.populate)).map (·.name)).Nodup)
    {argv : List CString} (hargv : ∀ request ∈ argv, request ≠ []) :
    (printStats bsearch
        (getStats qsort now mode (selectInteresting argv (toplevels populate)) table).statItems argv
      = some (answers (qsort statsCompare
          (((toplevels populate).flatMap (·.populate)).filter fun item => !skipped mode item.type)) argv) ∧
      printStats bsearch
        (getStats qsort now mode ((toplevels populate).map fun t => { t with interesting := true })
          table).statItems argv
      = some (answers (qsort statsCompare
          (((toplevels populate).flatMap (·.populate)).filter fun item => !skipped mode item.type)) argv)) ∧
      (getStats qsort now mode (selectInteresting argv (toplevels populate)) table).graphiteTs =
        (getStats qsort now mode ((toplevels populate).map fun t => { t with interesting := true })
          table).graphiteTs := by
  have hall : (toplevels populate).map (fun t => { t with interesting := true })
      = selectInteresting [] (toplevels populate) := by
    rw [selectInteresting, if_pos rfl]
  have hitems := getStats_items hsort now mode (selectInteresting [] (toplevels populate)) table
  rw [← hall, fetched_all] at hitems
  rw [← hitems, getStats_graphiteTs, getStats_graphiteTs, hall]
  refine ⟨⟨?_, printStats_answers hsearch (getStats_sorted hsort now mode _ table) hargv⟩, rfl⟩
  rw [printStats_answers hsearch (getStats_sorted hsort now mode _ table) hargv]
  apply congrArg some
  rw [answers, answers]
  by_cases hne : argv = []
  · subst hne
    rfl
  · rw [if_neg hne, if_neg hne, List.flatMap_def, List.flatMap_def]
    refine congrArg List.flatten (List.map_congr_left ?_)
    intro request hrequest
    exact getStats_answer hsort now mode table (toplevels_named populate) hnames hdistinct hrequest

end Interesting

def cpuAndMem : Populate where
  cpu := [⟨bytes "cpu.user", .unsignedLongLong, 8⟩, ⟨bytes "cpu.idle", .unsignedLongLong, 0⟩]
  mem := [⟨bytes "mem.total", .bytes, 40⟩, ⟨bytes "mem.free", .bytes, 32⟩]

/-- A section, a name without its dot, a stat and a section that is not there. -/
theorem printStats_cpuAndMem :
    printStats Search.halves
        (getStats Search.merging 0 .linux
          (selectInteresting [bytes "cpu.", bytes "cpu", bytes "mem.free", bytes "c."] (toplevels cpuAndMem))
          ⟨none, 0, 0⟩).statItems
        [bytes "cpu.", bytes "cpu", bytes "mem.free", bytes "c."]
      = some [.stat ⟨bytes "cpu.idle", .unsignedLongLong, 0⟩, .stat ⟨bytes "cpu.user", .unsignedLongLong, 8⟩,
          .stderr (bytes "Unknown stat cpu\n"), .stat ⟨bytes "mem.free", .bytes, 32⟩,
          .stderr (bytes "Unknown stat c.\n")] ∧
      printStats Search.halves
        (getStats Search.merging 0 .linux
          ((toplevels cpuAndMem).map fun t => { t with interesting := true }) ⟨none, 0, 0⟩).statItems
        [bytes "cpu.", bytes "cpu", bytes "mem.free", bytes "c."]
      = some [.stat ⟨bytes "cpu.idle", .unsignedLongLong, 0⟩, .stat ⟨bytes "cpu.user", .unsignedLongLong, 8⟩,
          .stderr (bytes "Unknown stat cpu\n"), .stat ⟨bytes "mem.free", .bytes, 32⟩,
          .stderr (bytes "Unknown stat c.\n")] := by
  obtain ⟨hsome, hall⟩ := (@printStats_interesting _ _ Search.merging_sorts Search.halves_lawful 0 .linux
    ⟨none, 0, 0⟩ cpuAndMem (by decide) (by decide)
    [bytes "cpu.", bytes "cpu", bytes "mem.free", bytes "c."] (by decide)).1
  have hsorted : Search.merging statsCompare
      (((toplevels cpuAndMem).flatMap (·.populate)).filter fun item => !skipped .linux item.type)
        = [⟨bytes "cpu.idle", .unsignedLongLong, 0⟩, ⟨bytes "cpu.user", .unsignedLongLong, 8⟩,
          ⟨bytes "mem.free", .bytes, 32⟩, ⟨bytes "mem.total", .bytes, 40⟩] := by
    have hperm := Search.merging_sorts.perm statsCompare
      (((toplevels cpuAndMem).flatMap (·.populate)).filter fun item => !skipped .linux item.type)
    refine Search.sorted_unique (hperm.trans (by decide)) (Search.merging_sorts.sorted statsCompare _) (by decide) ?_
    intro x hx
    rw [hperm.mem_iff] at hx
    revert x
    decide
  rw [hsorted] at hsome hall
  exact ⟨hsome.trans (by decide +kernel), hall.trans (by decide +kernel)⟩

end Statgrab
