import Statgrab.Command.Populate

/-!
# The output of the `statgrab` command

The whole way of a stat: the functions of the sections that are asked for add it, the stats are sorted by name,
the ones that are asked for are found by `bsearch` and printed, each on a line. Read back, the output is the list
of the stats that were asked for, in order, with their names and values.
-/

namespace Statgrab

open Text

section Code

variable {F : Type} (s : Snapshot F)

/-- The calls of `add_stat` with the addresses of their values. An address stands for the section, of which there
are 12, and the number of the call in it. -/
def addressedFrom (k : Nat) (calls : List (ShownStat F)) : List (ShownStat F × Nat) :=
  calls.zipIdx.map fun call => (call.1, 12 * call.2 + k)

def ShownStat.item (call : ShownStat F) (stat : Nat) : StatItem := ⟨call.name, call.value.type, stat⟩

def itemsFrom (k : Nat) (calls : List (ShownStat F)) : List StatItem :=
  (addressedFrom k calls).map fun call => call.1.item call.2

/-- What the functions of `toplevels` add. -/
def populateOf : Populate where
  const := itemsFrom (F := F) 0 populateConst
  cpu := itemsFrom 1 (populateCpu s)
  mem := itemsFrom 2 (populateMem s)
  load := itemsFrom 3 (populateLoad s)
  user := itemsFrom 4 (populateUser s)
  swap := itemsFrom 5 (populateSwap s)
  general := itemsFrom 6 (populateGeneral s)
  fs := itemsFrom 7 (populateFs s)
  disk := itemsFrom 8 (populateDisk s)
  proc := itemsFrom 9 (populateProc s)
  net := itemsFrom 10 (populateNet s)
  page := itemsFrom 11 (populatePage s)

def valueAt (stat : Nat) : Option (StatValue F) :=
  ((sections s)[stat % 12]?).bind fun sec => (sec.2[stat / 12]?).map ShownStat.value

/-- What `print_stats` writes to `stdout`. -/
def printItems (o : PrintOptions) (floats : FloatText F) (graphiteTs : Int) : List Printed → Option (List UInt8)
  | [] => some []
  | .stderr _ :: printed => printItems o floats graphiteTs printed
  | .stat item :: printed => do
      let value ← valueAt s item.stat
      let rest ← printItems o floats graphiteTs printed
      return printStat o floats graphiteTs item.name value ++ rest

/-- What `main` prints behind the stats. -/
def trailer (mode : DisplayMode) : List UInt8 := if mode = .mrtg then bytes "\n" ++ bytes "statgrab\n" else []

/-- `main` with `REPEAT_NONE`, from the check of the mode on: the message it dies with, or what is written to
`stdout`. -/
def statgrab (qsort : (StatItem → StatItem → Ordering) → List StatItem → List StatItem)
    (bsearch : (StatItem → Ordering) → List StatItem → Option Nat) (o : PrintOptions) (floats : FloatText F)
    (now : Int) (argv : List CString) : Option (Except String (List UInt8)) :=
  if o.displayMode = .mrtg ∧ argv.length ≠ 2 then return .error "mrtg mode: must specify exactly two stats"
  else do
    let ts := selectInteresting argv (toplevels (populateOf s))
    let table := getStats qsort now o.displayMode ts ⟨none, 0, 0⟩
    let printed ← printStats bsearch table.statItems argv
    let output ← printItems s o floats table.graphiteTs printed
    return .ok (output ++ trailer o.displayMode)

end Code

/-! ### What is asked for -/

section Spec

variable {F : Type}

def sortCalls (calls : List (ShownStat F)) : List (ShownStat F) :=
  calls.mergeSort fun a b => (strcmp a.name b.name).isLE

def keptCalls (mode : DisplayMode) (s : Snapshot F) : List (ShownStat F) :=
  (populateCalls s).filter fun call => !skipped mode call.value.type

/-- The stats that are asked for: all of them, or for each argument those it names, sorted. -/
def askedCalls (mode : DisplayMode) (s : Snapshot F) (argv : List CString) : List (ShownStat F) :=
  if argv = [] then sortCalls (keptCalls mode s)
  else argv.flatMap fun request => sortCalls ((keptCalls mode s).filter fun call => Wanted request (call.item 0))

structure OneLine (s : Snapshot F) : Prop where
  part : ∀ call ∈ populateCalls s, ∀ part ∈ call.parts, 10 ∉ part
  value : ∀ call ∈ populateCalls s, ∀ text, call.value = .string text → 10 ∉ text

/-! ### The addresses -/

def addressed (s : Snapshot F) : List (ShownStat F × Nat) :=
  (sections s).zipIdx.flatMap fun sec => addressedFrom sec.2 sec.1.2

theorem addressedFrom_calls (k : Nat) (calls : List (ShownStat F)) : (addressedFrom k calls).map Prod.fst = calls := by
  rw [addressedFrom, List.map_map]
  exact List.zipIdx_map_fst 0 calls

theorem addressed_calls (s : Snapshot F) : (addressed s).map Prod.fst = populateCalls s := by
  have hall : ∀ (n : Nat) (secs : List (CString × List (ShownStat F))),
      ((secs.zipIdx n).flatMap fun sec => addressedFrom sec.2 sec.1.2).map Prod.fst
        = secs.flatMap fun sec => sec.2 := by
    intro n secs
    induction secs generalizing n with
    | nil => rfl
    | cons sec secs ih =>
        rw [List.zipIdx_cons, List.flatMap_cons, List.map_append, addressedFrom_calls, ih, List.flatMap_cons]
  exact hall 0 (sections s)

theorem valueAt_addressed (s : Snapshot F) : ∀ call ∈ addressed s, valueAt s call.2 = some call.1.value := by
  intro call hcall
  obtain ⟨⟨sec, k⟩, hsec, hmem⟩ := List.mem_flatMap.mp hcall
  obtain ⟨⟨c, i⟩, hc, rfl⟩ := List.mem_map.mp hmem
  have hsec : (sections s)[k]? = some sec := List.mem_zipIdx_iff_getElem?.mp hsec
  have hc : sec.2[i]? = some c := List.mem_zipIdx_iff_getElem?.mp hc
  have hk : k < 12 := (List.getElem?_eq_some_iff.mp hsec).1
  have hmod : (12 * i + k) % 12 = k := by omega
  have hdiv : (12 * i + k) / 12 = i := by omega
  simp only [valueAt, hmod, hdiv, hsec, Option.bind_some, hc, Option.map_some]

theorem populate_items (s : Snapshot F) :
    (toplevels (populateOf s)).flatMap (·.populate) = (addressed s).map fun call => call.1.item call.2 := by
  simp only [toplevels, populateOf, itemsFrom, addressed, sections, List.flatMap_cons, List.flatMap_nil,
    List.zipIdx_cons, List.zipIdx_nil, List.map_append, List.map_nil, Nat.zero_add, Nat.reduceAdd]

theorem populate_names (s : Snapshot F) :
    ((toplevels (populateOf s)).flatMap (·.populate)).map (·.name) = (populateCalls s).map ShownStat.name := by
  rw [populate_items, ← addressed_calls, List.map_map, List.map_map]
  rfl

theorem itemsFrom_starts {name : CString} {calls : List (ShownStat F)} (h : InSection name calls) (k : Nat) :
    ∀ item ∈ itemsFrom k calls, sanitise name ++ [46] <+: item.name := by
  intro item hitem
  obtain ⟨⟨c, a⟩, hmem, rfl⟩ := List.mem_map.mp hitem
  have hc : c ∈ calls := by
    rw [← addressedFrom_calls k calls]
    exact List.mem_map_of_mem hmem
  obtain ⟨part, rest, hparts⟩ := h c hc
  show _ <+: statName c.parts
  rw [hparts, statName, List.map_cons, List.map_cons, List.intercalate_cons_cons]
  exact List.prefix_append _ _

theorem toplevels_prefix (s : Snapshot F) :
    ∀ t ∈ toplevels (populateOf s), ∀ item ∈ t.populate, t.name <+: item.name := by
  have h := sections_inSection s
  simp only [sections, List.forall_mem_cons, List.not_mem_nil, IsEmpty.forall_iff, implies_true, and_true] at h
  obtain ⟨hconst, hcpu, hmem, hload, huser, hswap, hgeneral, hfs, hdisk, hproc, hnet, hpage⟩ := h
  simp only [toplevels, populateOf, List.forall_mem_cons, List.not_mem_nil, IsEmpty.forall_iff, implies_true,
    and_true]
  exact ⟨itemsFrom_starts hconst 0, itemsFrom_starts hcpu 1, itemsFrom_starts hmem 2, itemsFrom_starts hload 3,
    itemsFrom_starts huser 4, itemsFrom_starts hswap 5, itemsFrom_starts hgeneral 6, itemsFrom_starts hfs 7,
    itemsFrom_starts hdisk 8, itemsFrom_starts hproc 9, itemsFrom_starts hnet 10, itemsFrom_starts hpage 11⟩

/-! ### The items that are printed -/

def pairOf (s : Snapshot F) (item : StatItem) : Option (CString × StatValue F) :=
  (valueAt s item.stat).map fun value => (item.name, value)

def printedItems (printed : List Printed) : List StatItem :=
  printed.filterMap fun
    | .stat item => some item
    | .stderr _ => none

theorem printItems_eq (s : Snapshot F) (o : PrintOptions) (floats : FloatText F) (graphiteTs : Int)
    {printed : List Printed} (h : ∀ item ∈ printedItems printed, (pairOf s item).isSome) :
    printItems s o floats graphiteTs printed
      = some (printStatLines o floats graphiteTs ((printedItems printed).filterMap (pairOf s))) := by
  induction printed with
  | nil => rfl
  | cons line printed ih =>
      cases line with
      | stderr text => exact ih h
      | stat item =>
          obtain ⟨pair, hpair⟩ := Option.isSome_iff_exists.mp (h item List.mem_cons_self)
          obtain ⟨value, hvalue, hpairEq⟩ := Option.map_eq_some_iff.mp hpair
          have hrest := ih fun x hx => h x (List.mem_cons_of_mem item hx)
          have hitems : printedItems (.stat item :: printed) = item :: printedItems printed := rfl
          rw [printItems, hvalue, hrest, hitems, List.filterMap_cons, hpair, ← hpairEq]
          rfl

theorem printedItems_answer (items : List StatItem) (request : CString) :
    printedItems (answer items request) = items.filter (Wanted request ·) := by
  have hstats : ∀ found : List StatItem, printedItems (found.map .stat) = found := by
    intro found
    rw [printedItems, List.filterMap_map]
    exact List.filterMap_some
  rw [answer]
  by_cases hnone : items.filter (Wanted request ·) = []
  · simp only [hnone, if_true]
    rfl
  · simp only [if_neg hnone]
    exact hstats _

theorem printedItems_answers (items : List StatItem) (argv : List CString) :
    printedItems (argv.flatMap (answer items)) = argv.flatMap fun request => items.filter (Wanted request ·) := by
  induction argv with
  | nil => rfl
  | cons request argv ih =>
      rw [List.flatMap_cons, printedItems, List.filterMap_append, ← printedItems, ← printedItems,
        printedItems_answer, ih, List.flatMap_cons]

/-! ### Sorted stats -/

section Sorted

variable {qsort : (StatItem → StatItem → Ordering) → List StatItem → List StatItem} {s : Snapshot F}

def ShownStat.pair (call : ShownStat F) : CString × StatValue F := (call.name, call.value)

theorem pairOf_addressed {call : ShownStat F × Nat} (hcall : call ∈ addressed s) :
    pairOf s (call.1.item call.2) = some call.1.pair := by
  rw [pairOf]
  show (valueAt s call.2).map _ = _
  rw [valueAt_addressed s call hcall]
  rfl

def keptItems (mode : DisplayMode) (s : Snapshot F) : List StatItem :=
  ((addressed s).map fun call => call.1.item call.2).filter fun item => !skipped mode item.type

theorem fetched_kept (mode : DisplayMode) (s : Snapshot F) :
    fetched mode (selectInteresting [] (toplevels (populateOf s))) = keptItems mode s := by
  rw [selectInteresting, if_pos rfl, fetched_all, keptItems, ← populate_items]

theorem keptItems_pairs (mode : DisplayMode) (p : ShownStat F → Bool) {q : StatItem → Bool}
    (hq : ∀ (call : ShownStat F) (stat : Nat), q (call.item stat) = p call) :
    ((keptItems mode s).filter q).filterMap (pairOf s) = ((keptCalls mode s).filter p).map ShownStat.pair := by
  have hfilter : q ∘ (fun call : ShownStat F × Nat => call.1.item call.2) = p ∘ Prod.fst := by
    funext call
    exact hq call.1 call.2
  have hpairs : ∀ calls : List (ShownStat F × Nat), (∀ call ∈ calls, call ∈ addressed s) →
      calls.filterMap (pairOf s ∘ fun call => call.1.item call.2) = calls.map (ShownStat.pair ∘ Prod.fst) := by
    intro calls hcalls
    rw [← List.filterMap_eq_map]
    apply List.filterMap_congr
    intro call hcall
    exact pairOf_addressed (hcalls call hcall)
  rw [keptItems, keptCalls, ← addressed_calls, List.filter_map, List.filter_map, List.filter_map, List.filter_map,
    List.map_map, List.filterMap_map, hfilter, hpairs]
  · rfl
  · intro call hcall
    exact List.mem_of_mem_filter (List.mem_of_mem_filter hcall)

theorem pairOf_isSome {item : StatItem} {mode : DisplayMode} (h : item ∈ keptItems mode s) :
    (pairOf s item).isSome := by
  obtain ⟨call, hcall, rfl⟩ := List.mem_map.mp (List.mem_of_mem_filter h)
  rw [pairOf_addressed hcall]
  rfl

/-- Stats that are sorted by their names, which are all different, are in one order. -/
theorem sorted_pairs_unique {pairs pairs' : List (CString × StatValue F)} (hperm : pairs.Perm pairs')
    (hnodup : (pairs'.map Prod.fst).Nodup) (h : pairs.Pairwise fun a b => (strcmp a.1 b.1).isLE = true)
    (h' : pairs'.Pairwise fun a b => (strcmp a.1 b.1).isLE = true) : pairs = pairs' := by
  have horiented : Std.OrientedCmp fun a b : CString × StatValue F => strcmp a.1 b.1 := ⟨Std.OrientedCmp.eq_swap⟩
  refine Search.sorted_unique hperm h h' ?_
  intro a ha b hb heq
  exact List.inj_on_of_nodup_map hnodup (hperm.mem_iff.mp ha) hb (strcmp_eq_iff.mp heq)

theorem sortCalls_sorted (calls : List (ShownStat F)) :
    (sortCalls calls).Pairwise fun a b => (strcmp a.name b.name).isLE = true := by
  refine List.pairwise_mergeSort ?_ ?_ calls
  · intro a b c hab hbc
    exact Std.TransCmp.isLE_trans hab hbc
  · intro a b
    rw [Bool.or_eq_true]
    cases hcmp : strcmp a.name b.name with
    | lt => exact .inl rfl
    | eq => exact .inl rfl
    | gt => exact .inr (Std.OrientedCmp.isGE_iff_isLE.mp (by rw [hcmp]; rfl))

theorem pairOf_name {item : StatItem} {pair : CString × StatValue F} (h : pairOf s item = some pair) :
    pair.1 = item.name := by
  obtain ⟨value, -, rfl⟩ := Option.map_eq_some_iff.mp h
  rfl

/-- The items that are found among the sorted ones have the pairs of the stats that are asked for. -/
theorem found_pairs (hsort : Search.Sorts qsort) (hnames : Distinguishable s) (mode : DisplayMode)
    (p : ShownStat F → Bool) {q : StatItem → Bool}
    (hq : ∀ (call : ShownStat F) (stat : Nat), q (call.item stat) = p call) :
    ((qsort statsCompare (keptItems mode s)).filter q).filterMap (pairOf s)
      = (sortCalls ((keptCalls mode s).filter p)).map ShownStat.pair := by
  have hperm : (((qsort statsCompare (keptItems mode s)).filter q).filterMap (pairOf s)).Perm
      ((sortCalls ((keptCalls mode s).filter p)).map ShownStat.pair) := by
    refine (((hsort.perm statsCompare _).filter q).filterMap (pairOf s)).trans ?_
    rw [keptItems_pairs mode p hq]
    exact ((List.mergeSort_perm _ _).map ShownStat.pair).symm
  have hnodup : (((sortCalls ((keptCalls mode s).filter p)).map ShownStat.pair).map Prod.fst).Nodup := by
    rw [List.map_map]
    have hall := (names_nodup_iff (parts_ne_nil s)).mpr ((keys_nodup_iff s).mpr hnames)
    have hsub : ((keptCalls mode s).filter p).Sublist (populateCalls s) :=
      List.filter_sublist.trans List.filter_sublist
    exact ((List.mergeSort_perm _ _).map _).nodup_iff.mpr ((hsub.map ShownStat.name).nodup hall)
  apply sorted_pairs_unique hperm hnodup
  · rw [List.pairwise_filterMap]
    refine ((hsort.sorted statsCompare (keptItems mode s)).filter q).imp ?_
    intro a b hab x hx y hy
    rw [pairOf_name hx, pairOf_name hy]
    exact hab
  · rw [List.pairwise_map]
    exact sortCalls_sorted _

theorem mem_statName {parts : List CString} (hne : parts ≠ []) {b : UInt8} (hb : b ∈ statName parts) :
    b = 46 ∨ ∃ part ∈ parts, b ∈ sanitise part := by
  have hpasted : b ∈ pasted parts := by
    rw [pasted_eq hne]
    exact List.mem_append_left _ hb
  obtain ⟨part, hpart, hmem⟩ := List.mem_flatMap.mp hpasted
  rcases List.mem_append.mp hmem with hmem | hmem
  · exact .inr ⟨part, hpart, hmem⟩
  · exact .inl (List.mem_singleton.mp hmem)

theorem word_of_mem_sanitise {part : CString} (hline : 10 ∉ part) {b : UInt8} (hb : b ∈ sanitise part) :
    b ≠ 10 ∧ b ≠ 32 := by
  obtain ⟨c, hc, rfl⟩ := List.mem_map.mp hb
  by_cases hreplaced : c = 32 ∨ c = 46
  · rw [if_pos hreplaced]
    decide
  · rw [if_neg hreplaced]
    exact ⟨fun heq => hline (heq ▸ hc), fun heq => hreplaced (.inl heq)⟩

theorem printable_of_oneLine {o : PrintOptions} (h : OneLine s) {call : ShownStat F}
    (hcall : call ∈ keptCalls o.displayMode s) : Printable o call.name call.value := by
  obtain ⟨hmem, hkept⟩ := List.mem_filter.mp hcall
  refine ⟨?_, h.value call hmem, by simpa using hkept⟩
  intro b hb
  rcases mem_statName (parts_ne_nil s call hmem) hb with rfl | ⟨part, hpart, hb⟩
  · decide
  · exact word_of_mem_sanitise (h.part call hmem part hpart) hb

theorem askedCalls_kept {mode : DisplayMode} {argv : List CString} {call : ShownStat F}
    (h : call ∈ askedCalls mode s argv) : call ∈ keptCalls mode s := by
  rw [askedCalls] at h
  split at h
  · exact (List.mergeSort_perm _ _).mem_iff.mp h
  · obtain ⟨request, -, h⟩ := List.mem_flatMap.mp h
    exact List.mem_of_mem_filter ((List.mergeSort_perm _ _).mem_iff.mp h)

variable {bsearch : (StatItem → Ordering) → List StatItem → Option Nat}

def askedItems (sorted : List StatItem) (argv : List CString) : List StatItem :=
  if argv = [] then sorted else argv.flatMap fun request => sorted.filter (Wanted request ·)

theorem printStats_items (hsort : Search.Sorts qsort) (hsearch : Search.Lawful bsearch) (mode : DisplayMode)
    (now : Int) (hnames : Distinguishable s) {argv : List CString} (hargv : ∀ request ∈ argv, request ≠ []) :
    ∃ printed,
      printStats bsearch (getStats qsort now mode (selectInteresting argv (toplevels (populateOf s)))
        ⟨none, 0, 0⟩).statItems argv = some printed ∧
      printedItems printed = askedItems (qsort statsCompare (keptItems mode s)) argv := by
  have hall := getStats_items hsort now mode (selectInteresting [] (toplevels (populateOf s))) ⟨none, 0, 0⟩
  rw [fetched_kept] at hall
  by_cases hne : argv = []
  · subst hne
    refine ⟨_, printStats_all _, ?_⟩
    rw [hall, printedItems, List.filterMap_map, askedItems, if_pos rfl]
    exact List.filterMap_some
  · have hdistinct : (((toplevels (populateOf s)).flatMap (·.populate)).map (·.name)).Nodup := by
      rw [populate_names]
      exact (names_nodup_iff (parts_ne_nil s)).mpr ((keys_nodup_iff s).mpr hnames)
    have hsorted := getStats_sorted hsort now mode (selectInteresting argv (toplevels (populateOf s))) ⟨none, 0, 0⟩
    have hprinted := printRequests_answer hsearch hsorted hargv
    rw [printStats, if_neg hne]
    refine ⟨_, hprinted, ?_⟩
    rw [printedItems_answers, askedItems, if_neg hne, List.flatMap_def, List.flatMap_def]
    refine congrArg List.flatten (List.map_congr_left ?_)
    intro request hrequest
    have hanswer := getStats_answer hsort now mode ⟨none, 0, 0⟩ (toplevels_named (populateOf s))
      ( toplevels_prefix s) hdistinct hrequest
    rw [hall] at hanswer
    rw [← printedItems_answer, hanswer, printedItems_answer]

theorem askedItems_pairs (hsort : Search.Sorts qsort) (hnames : Distinguishable s) (mode : DisplayMode)
    (argv : List CString) :
    (askedItems (qsort statsCompare (keptItems mode s)) argv).filterMap (pairOf s)
      = (askedCalls mode s argv).map ShownStat.pair := by
  rw [askedItems, askedCalls]
  by_cases hne : argv = []
  · have hpairs := found_pairs hsort hnames mode (fun _ => true) (q := fun _ => true) fun _ _ => rfl
    rw [List.filter_true, List.filter_true] at hpairs
    rw [if_pos hne, if_pos hne, hpairs]
  · rw [if_neg hne, if_neg hne, List.filterMap_flatMap, List.map_flatMap, List.flatMap_def, List.flatMap_def]
    refine congrArg List.flatten (List.map_congr_left ?_)
    intro request _
    exact found_pairs hsort hnames mode (fun call => Wanted request (call.item 0))
      (q := fun item => Wanted request item) fun _ _ => rfl

/-- The time that is printed with the values: for Graphite only. -/
def shownTime (mode : DisplayMode) (now : Int) : Int := if mode = .graphite then now else 0

theorem statEntry_shownTime (o : PrintOptions) (floats : FloatText F) (now : Int) (name : CString)
    (value : StatValue F) :
    statEntry o floats (shownTime o.displayMode now) name value = statEntry o floats now name value := by
  by_cases hmode : o.displayMode = .graphite
  · rw [shownTime, if_pos hmode]
  · rw [statEntry, statEntry, if_neg hmode, if_neg hmode]

theorem statgrab_output (hsort : Search.Sorts qsort) (hsearch : Search.Lawful bsearch) (o : PrintOptions)
    (floats : FloatText F) (now : Int) (hnames : Distinguishable s) {argv : List CString}
    (hargv : ∀ request ∈ argv, request ≠ []) (hmode : o.displayMode = .mrtg → argv.length = 2) :
    statgrab s qsort bsearch o floats now argv
      = some (.ok (printStatLines o floats (shownTime o.displayMode now)
          ((askedCalls o.displayMode s argv).map ShownStat.pair) ++ trailer o.displayMode)) := by
  obtain ⟨printed, hprinted, hitems⟩ := printStats_items hsort hsearch o.displayMode now hnames hargv
  have hsome : ∀ item ∈ printedItems printed, (pairOf s item).isSome := by
    intro item hitem
    rw [hitems, askedItems] at hitem
    have hkept : item ∈ qsort statsCompare (keptItems o.displayMode s) := by
      split at hitem
      · exact hitem
      · obtain ⟨request, -, hitem⟩ := List.mem_flatMap.mp hitem
        exact List.mem_of_mem_filter hitem
    exact pairOf_isSome ((hsort.perm _ _).mem_iff.mp hkept)
  have hnot : ¬(o.displayMode = .mrtg ∧ argv.length ≠ 2) := fun h => h.2 (hmode h.1)
  rw [statgrab, if_neg hnot]
  simp only [Option.bind_eq_bind, hprinted, Option.bind_some, printItems_eq s o floats _ hsome, hitems,
    askedItems_pairs hsort hnames o.displayMode argv, getStats_graphiteTs]
  rfl

/-- The output of the command, read back, is the stats that were asked for: each once for each argument that
names it, sorted, with its name and its value. For MRTG there are two arguments, and a fixed text ends it. -/
theorem statgrab_readBack (hsort : Search.Sorts qsort) (hsearch : Search.Lawful bsearch) (o : PrintOptions)
    (floats : FloatText F) (now : Int) (hnames : Distinguishable s) (hlines : OneLine s)
    (hwords : o.WordPrefix) {argv : List CString} (hargv : ∀ request ∈ argv, request ≠ [])
    (hmode : o.displayMode = .mrtg → argv.length = 2) :
    ∃ output, statgrab s qsort bsearch o floats now argv = some (.ok (output ++ trailer o.displayMode)) ∧
      readStats o ((askedCalls o.displayMode s argv).map fun call => call.value.type) (linesOf output)
        = some ((askedCalls o.displayMode s argv).map fun call =>
            statEntry o floats now call.name call.value) := by
  have hprintable : ∀ pair ∈ (askedCalls o.displayMode s argv).map ShownStat.pair,
      Printable o pair.1 pair.2 := by
    intro pair hpair
    obtain ⟨call, hcall, rfl⟩ := List.mem_map.mp hpair
    exact printable_of_oneLine hlines (askedCalls_kept hcall)
  have hread := printStatLines_readBack floats hwords (shownTime o.displayMode now) hprintable
  rw [List.map_map, List.map_map] at hread
  refine ⟨_, statgrab_output hsort hsearch o floats now hnames hargv hmode, hread.trans ?_⟩
  refine congrArg some (List.map_congr_left ?_)
  intro call _
  exact statEntry_shownTime o floats now call.name call.value

end Sorted

end Spec

/-! ### An idle host -/

/-- The text of 0, the only number of an idle host. -/
def zeroText : FloatText Unit where
  fixed _ := bytes "0.000000"
  scaled _ _ := 0
  word _ := forall_mem_of_all (by decide)

/-- A host with no load and one interface that is down. -/
def idleHost : Snapshot Unit where
  useCpuPercent := false
  cpu := none
  cpuPercents := none
  mem := none
  load := some ⟨(), (), (), 0⟩
  users := some []
  swap := none
  host := none
  fs := none
  disk := none
  proc := none
  io := none
  iface := some [{ NetworkIfaceStats.initial with
    interfaceName := some (bytes "eth0"), name := bytes "eth0", stored := rfl }]
  page := none

def mrtgOptions : PrintOptions := ⟨.mrtg, 0, 0, none, by decide⟩

theorem idleHost_distinguishable : Distinguishable idleHost where
  users := by decide
  fs := by decide
  disk := by decide
  io := by decide
  iface := by decide
  same := by
    intro d hd
    cases hd

theorem idleHost_oneLine : OneLine idleHost where
  part := by decide
  value := by
    intro call hcall text htext
    have htexts : ∀ call ∈ populateCalls idleHost, call.value.type = .string →
        printStatValue mrtgOptions zeroText call.value ∈ [bytes "eth0", []] := by
      decide
    have hmem := htexts call hcall (by rw [htext]; rfl)
    rw [htext] at hmem
    have hplain : ∀ text ∈ [bytes "eth0", []], 10 ∉ text := by decide
    exact hplain text hmem

theorem statgrab_readBack_idle :
    ∃ output, statgrab idleHost Search.merging Search.halves mrtgOptions zeroText 0 [bytes "load.", bytes "net"]
        = some (.ok (output ++ bytes "\nstatgrab\n")) ∧
      readStats mrtgOptions ((askedCalls .mrtg idleHost [bytes "load.", bytes "net"]).map fun call =>
          call.value.type) (linesOf output)
        = some ((askedCalls .mrtg idleHost [bytes "load.", bytes "net"]).map fun call =>
            statEntry mrtgOptions zeroText 0 call.name call.value) :=
  statgrab_readBack Search.merging_sorts Search.halves_lawful mrtgOptions zeroText 0 idleHost_distinguishable
    idleHost_oneLine (by intro path hpath; cases hpath) (by decide) fun _ => rfl

end Statgrab
