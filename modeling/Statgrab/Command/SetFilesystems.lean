import Statgrab.Command.FsList

/-!
# The file systems of the `statgrab` command

`set_valid_filesystems` sets the valid file systems to those of a list, or, with a `!` before it, takes the
list out of the current set. In the second case the new list is made of the strings of the current set, which
`sg_set_valid_filesystems` copies before it gives them back. The command has its own comparison, and its own
sort and search with it.
-/

namespace Statgrab

open Text

/-! ### The code -/

/-- `fsnmcmp`: NULL is sorted to the end. -/
def fsnmcmp : Option CString → Option CString → Ordering
  | some a, some b => strcasecmp a b
  | some _, none => .lt
  | none, some _ => .gt
  | none, none => .eq

/-- `qsort(given_fs, given_items, sizeof(given_fs[0]), fsnmcmp)`. -/
def qsortGiven (sorter : Sorter) (array num : Nat) : FsMemM Unit := do
  let entries ← loadArray array
  let h ← Prog.gets FsMem.heap
  if entries.length < num then Prog.fault .outOfBlock
  else if (entries.take num).all (readable h) then
    onHeap fun h => h.put array
      (.array (sorter.sort (fun a b => (fsnmcmp (textAt h a) (textAt h b)).isLE) (entries.take num)
        ++ entries.drop num))
  else Prog.fault .released

section Command

variable (sorter : Sorter) (search : (Option Nat → Ordering) → List (Option Nat) → Option Nat)
  (garbage : Nat → Option Nat)

/-- `bsearch(old_valid_fs, given_fs, given_items, sizeof(given_fs[0]), fsnmcmp)`, with the string that is
looked up. -/
def bsearchGiven (given num key : Nat) : FsMemM (Option Nat) := do
  let entries ← loadArray given
  let h ← Prog.gets FsMem.heap
  if entries.length < num then Prog.fault .outOfBlock
  else if readable h (some key) && (entries.take num).all (readable h) then
    return search (fun x => fsnmcmp (textAt h (some key)) (textAt h x)) (entries.take num)
  else Prog.fault .released

/-- The loop over the current set from the index `i` on, with `fuel` slots of its array to go: the strings that
are not found among the given ones are pushed. -/
def keepOthers (old given num : Nat) : Nat → Nat → Option Nat → Nat → CommandM (Option Nat × Nat)
  | 0, _, _, _ => Prog.fault (.fault .outOfBlock)
  | fuel + 1, i, newfs, newItems => do
      let entry ← library (loadEntry old i)
      match entry with
      | none => return (newfs, newItems)
      | some p => do
          let found ← library (bsearchGiven search given num p)
          match found with
          | none => do
              let newfs ← pushItem garbage newfs (some p) newItems
              keepOthers old given num fuel (i + 1) (some newfs) (newItems + 1)
          | some _ => keepOthers old given num fuel (i + 1) newfs newItems

/-- The loop that gives the strings back, from the index `i` on and with `fuel` slots to go. -/
def freeStrings (array : Nat) : Nat → Nat → FsMemM Unit
  | 0, _ => Prog.fault .outOfBlock
  | fuel + 1, i => do
      let entry ← loadEntry array i
      match entry with
      | none => return ()
      | some p => do
          release (some p)
          freeStrings array fuel (i + 1)

/-- The branch for a list with a `!`: the array with the rest of the current set, and the given one. -/
def removeGiven (fslist : CString) : CommandM (Nat × Nat) := do
  let old ← Prog.gets FsMem.validFileSystems
  match old with
  | none => Prog.fault (.sgDie (bytes "sg_get_valid_filesystems()") 1)
  | some old => do
      let given ← splitList garbage ((fslist.drop 1).dropWhile isSpace)
      let entries ← library (loadArray given)
      match countEntries entries with
      | none => Prog.fault (.fault .outOfBlock)
      | some givenItems => do
          library (qsortGiven sorter given givenItems)
          let slots ← library (loadArray old)
          let (newfs, newItems) ← keepOthers search garbage old given givenItems slots.length 0 none 0
          let newfs ← pushItem garbage newfs none newItems
          return (newfs, given)

def setValidFilesystems (fslist : CString) : CommandM SgError := do
  let fslist := fslist.dropWhile isSpace
  let (newfs, given) ←
    if fslist.head? = some 33 then removeGiven sorter search garbage fslist
    else do
      let given ← splitList garbage fslist
      pure (given, given)
  let rc ← library (sgSetValidFilesystemsAt sorter (some newfs))
  if rc ≠ .none then Prog.fault (.sgDie (bytes "sg_set_valid_filesystems() failed") 1)
  else do
    let slots ← library (loadArray given)
    library (freeStrings given slots.length 0)
    return .none

end Command

/-! ### What the argument says -/

/-- The first byte that is no white space is a `!`. -/
def Negated (fslist : CString) : Prop := (fslist.dropWhile isSpace).head? = some 33

instance (fslist : CString) : Decidable (Negated fslist) := inferInstanceAs (Decidable (_ = _))

/-- The list of an argument, without the `!` and the white space around it. -/
def listPart (fslist : CString) : CString :=
  if Negated fslist then ((fslist.dropWhile isSpace).drop 1).dropWhile isSpace else fslist.dropWhile isSpace

/-- The name is in the list, whatever its case. -/
def NamedIn (names : List CString) (type : CString) : Prop :=
  ∃ name ∈ names, name.map lowerAscii = type.map lowerAscii

/-! ### Sorting and searching the given names -/

/-- The command sorts and searches with the comparison of the library. -/
theorem fsnmcmp_eq : fsnmcmp = cmpValidFs := by
  funext a b
  cases a with
  | none =>
      cases b with
      | none => rfl
      | some b => rfl
  | some a =>
      cases b with
      | none => rfl
      | some b => rfl

theorem qsortGiven_eq (sorter : Sorter) : qsortGiven sorter = qsortEntries sorter := by
  funext array num
  rw [qsortGiven, qsortEntries, fsnmcmp_eq]
  rfl

section Given

variable {sorter : Sorter} {search : (Option Nat → Ordering) → List (Option Nat) → Option Nat}
  {garbage : Nat → Option Nat} {h0 : Heap FsBlock} {s : FsMem} {given : Nat} {gptrs : List Nat}
  {names : List CString}

/-- The search finds the names of the sorted array, whatever their case. -/
theorem bsearchGiven_run (hsearch : Search.Lawful search) (hl : Lists s.heap given gptrs names)
    (hsorted : (names.map some).Pairwise fun a b => fsTypeLE a b) {p : Nat} {c : CString}
    (hp : s.heap.blocks p = some (.text c)) :
    ∃ found, bsearchGiven search given names.length p s = .ok (found, s) ∧
      (found = none ↔ ¬ NamedIn names c) := by
  obtain ⟨rest, harray⟩ := hl.array
  have htext : textAt s.heap (some p) = some c := by
    rw [textAt, Option.bind_some, hp]
  have htake : (gptrs.map some ++ none :: rest).take names.length = gptrs.map some := by
    rw [← hl.length_eq, List.take_append_of_le_length (by simp), List.take_of_length_le (by simp)]
  have hreadable : (readable s.heap (some p) && (gptrs.map some).all (readable s.heap)) = true := by
    rw [Bool.and_eq_true]
    exact ⟨by rw [readable, htext]; rfl, hl.all_readable⟩
  have hlength := hl.length_eq
  refine ⟨search (fun x => cmpValidFs (some c) (textAt s.heap x)) (gptrs.map some), ?_, ?_⟩
  · rw [bsearchGiven, Prog.bind_of_ok (loadArray_run harray), Prog.bind_of_ok (Prog.gets_run _ _),
      if_neg (by simp; omega), htake, if_pos hreadable, htext, fsnmcmp_eq]
    rfl
  · have hmono : (gptrs.map some).Pairwise (Search.Monotone fun x => cmpValidFs (some c) (textAt s.heap x)) := by
      rw [← hl.textAt_map, List.pairwise_map] at hsorted
      exact hsorted.imp fun hab => monotone_of_fsTypeLE (some c) hab
    -- the strings of the entries are the names
    have hmem : ∀ name, name ∈ names ↔ ∃ x ∈ gptrs.map some, textAt s.heap x = some name := by
      intro name
      rw [← List.mem_map, hl.textAt_map, List.mem_map]
      constructor
      · intro hname
        exact ⟨name, hname, rfl⟩
      · rintro ⟨name', hname', heq⟩
        exact Option.some.inj heq ▸ hname'
    cases hfound : search (fun x => cmpValidFs (some c) (textAt s.heap x)) (gptrs.map some) with
    | none =>
        apply iff_of_true rfl
        rintro ⟨name, hname, hsame⟩
        obtain ⟨x, hx, hxname⟩ := (hmem name).mp hname
        apply hsearch.missed hmono hfound x hx
        rw [hxname]
        exact (cmpValidFs_eq_iff _ _).mpr hsame
    | some i =>
        refine iff_of_false (Option.some_ne_none i) (not_not_intro ?_)
        obtain ⟨x, hx, heq⟩ := hsearch.found hmono hfound
        cases hxname : textAt s.heap x with
        | none =>
            rw [hxname] at heq
            cases heq
        | some name =>
            rw [hxname] at heq
            exact ⟨name, (hmem name).mpr ⟨x, List.mem_of_getElem? hx, hxname⟩, (cmpValidFs_eq_iff _ _).mp heq⟩

instance (names : List CString) (type : CString) : Decidable (NamedIn names type) :=
  inferInstanceAs (Decidable (∃ name ∈ names, _))

/-- The strings of the current set that are not among the given names are pushed, in their order. -/
theorem keepOthers_run (hsearch : Search.Lawful search) {old : Nat} {done todo kept : List Nat}
    {olds : List CString} {newfs : Option Nat} {fuel : Nat} (hold : Lists h0 old (done ++ todo) olds)
    (hfresh : h0.Fresh) (hl : Lists h0 given gptrs names)
    (hsorted : (names.map some).Pairwise fun a b => fsTypeLE a b) (hfuel : todo.length < fuel)
    (hplenty : s.toThread.Plenty) (hst : Stacked h0 s.heap newfs (kept.map some)) :
    ∃ newfs' t h', keepOthers search garbage old given names.length fuel done.length newfs kept.length s
        = .ok ((newfs', (kept ++ todo.filter fun p => ¬ NamedIn names (textOf h0 p)).length),
            { s with toThread := t, heap := h' }) ∧ t.Plenty ∧ t.glob = s.glob ∧
      Stacked h0 h' newfs' ((kept ++ todo.filter fun p => ¬ NamedIn names (textOf h0 p)).map some) := by
  obtain ⟨rest, harray⟩ := hold.array
  obtain ⟨hbelow, hptrs⟩ := hold.lt hfresh
  obtain ⟨hgiven, hgptrs⟩ := hl.lt hfresh
  induction todo generalizing done kept newfs fuel s with
  | nil =>
      cases fuel with
      | zero => omega
      | succ fuel =>
          have harray' : s.heap.blocks old = some (.array (done.map some ++ none :: rest)) := by
            rw [hst.same old hbelow, harray, List.append_nil]
          have hentry : loadEntry old done.length s = .ok (none, s) := loadEntry_run harray' (by simp)
          rw [keepOthers, Prog.bind_of_ok (library_of_ok hentry), List.filter_nil, List.append_nil]
          exact ⟨newfs, s.toThread, s.heap, rfl, hplenty, rfl, hst⟩
  | cons p todo ih =>
      cases fuel with
      | zero => omega
      | succ fuel =>
          have hsplit : done ++ p :: todo = done ++ [p] ++ todo := by simp
          have harray' : s.heap.blocks old = some (.array ((done ++ p :: todo).map some ++ none :: rest)) := by
            rw [hst.same old hbelow, harray]
          have hentry : loadEntry old done.length s = .ok (some p, s) := loadEntry_run harray' (by simp)
          have hpmem : p ∈ done ++ p :: todo := by simp
          have hp : s.heap.blocks p = some (.text (textOf h0 p)) := by
            rw [hst.same p (hptrs p hpmem)]
            exact (texts_iff.mp hold.texts).2 p hpmem
          have hl' : Lists s.heap given gptrs names :=
            hl.congr (hst.same given hgiven) fun q hq => hst.same q (hgptrs q hq)
          obtain ⟨found, hrun, hfound⟩ := bsearchGiven_run hsearch hl' hsorted hp
          have hlen : done.length + 1 = (done ++ [p]).length := by simp
          rw [hsplit] at hold harray hptrs
          rw [keepOthers, Prog.bind_of_ok (library_of_ok hentry)]
          simp only
          rw [Prog.bind_of_ok (library_of_ok hrun)]
          cases found with
          | some i =>
              have hin : ¬ ¬ NamedIn names (textOf h0 p) := mt hfound.mpr (Option.some_ne_none i)
              rw [List.filter_cons_of_neg (by simpa using hin), hlen]
              exact ih hold (by rw [List.length_cons] at hfuel; omega) hplenty hst harray hptrs
          | none =>
              have hout : ¬ NamedIn names (textOf h0 p) := hfound.mp rfl
              obtain ⟨sp, h1, hpush, hst1, -⟩ := @pushItem_run garbage h0 s newfs (kept.map some) hst (some p)
                (hplenty 0)
              rw [List.length_map] at hpush
              have hst1' : Stacked h0 h1 (some sp) ((kept ++ [p]).map some) := by
                rw [List.map_append]
                exact hst1
              obtain ⟨newfs', t, h', hnext, hplenty', hglob, hst'⟩ :=
                @ih { s with toThread := s.toThread.answered, heap := h1 } (done ++ [p]) (kept ++ [p]) (some sp)
                  fuel hold (by rw [List.length_cons] at hfuel; omega) hplenty.answered hst1' harray hptrs
              have hkept : kept ++ [p] ++ todo.filter (fun p => ¬ NamedIn names (textOf h0 p))
                  = kept ++ (p :: todo).filter fun p => ¬ NamedIn names (textOf h0 p) := by
                rw [List.filter_cons_of_pos (by simpa using hout), List.append_assoc, List.singleton_append]
              rw [hkept] at hnext hst'
              refine ⟨newfs', t, h', ?_, hplenty', hglob, hst'⟩
              simp only
              rw [Prog.bind_of_ok hpush, hlen]
              rw [show (kept ++ [p]).length = kept.length + 1 by simp] at hnext
              exact hnext

/-- What stands when the library is called: the array with the new names, and the given array with strings of
its own. What was there at the start is unchanged. -/
structure ReadyLists (s : FsMem) (h : Heap FsBlock) (newfs given : Nat) (names : List CString) : Prop where
  fresh : h.Fresh
  next : s.heap.next ≤ h.next
  same : ∀ p, p < s.heap.next → h.blocks p = s.heap.blocks p
  above : s.heap.next ≤ given
  strings : ∃ gptrs gnames, Lists h given gptrs gnames ∧ gptrs.Nodup ∧ ∀ p ∈ gptrs, s.heap.next ≤ p
  list : ∃ ptrs, Lists h newfs ptrs names

theorem namedIn_perm {names' : List CString} (hperm : names'.Perm names) (type : CString) :
    NamedIn names' type ↔ NamedIn names type := by
  simp only [NamedIn, hperm.mem_iff]

theorem removeGiven_run (hsearch : Search.Lawful search) (hinv : s.Inv) (hplenty : s.toThread.Plenty)
    {old : Nat} (hset : s.validFileSystems = some old) (fslist : CString) :
    ∃ newfs given t h', removeGiven sorter search garbage fslist s
        = .ok ((newfs, given), { s with toThread := t, heap := h' }) ∧ t.Plenty ∧ t.glob = s.glob ∧
      ReadyLists s h' newfs given (s.view.names.filter fun name =>
        ¬ NamedIn (pieces ((fslist.drop 1).dropWhile isSpace)) name) := by
  obtain ⟨optrs, onames, orest, hold, -, hoarray, hnum, -⟩ := hinv.entries hset
  obtain ⟨hobelow, hoptrs⟩ := hold.lt hinv.fresh
  -- the given names, sorted
  obtain ⟨given, ptrs, t1, h1, hsplit, hplenty1, hglob1, hstrings, hlists⟩ := @splitList_run garbage s
    ((fslist.drop 1).dropWhile isSpace) hplenty hinv.fresh
  generalize pieces ((fslist.drop 1).dropWhile isSpace) = names at hstrings hlists ⊢
  obtain ⟨hgiven, -⟩ := hstrings.array given rfl
  obtain ⟨rest, harray⟩ := hlists.array
  obtain ⟨ptrs', names', entries, hsort, hptrs, hperm, hlists', hsorted⟩ := @qsortEntries_lists
    { s with toThread := t1, heap := h1 } names sorter given ptrs hlists
  have hfresh2 : (h1.put given (.array entries)).Fresh := hstrings.fresh.put (hstrings.fresh.lt harray)
  have hsame2 : ∀ p, p < s.heap.next → (h1.put given (.array entries)).blocks p = s.heap.blocks p := by
    intro p hp
    rw [Heap.put_of_ne (by omega), hstrings.same p hp]
  have hnext2 : s.heap.next ≤ (h1.put given (.array entries)).next := hstrings.next
  -- the strings of the current set that stay
  have hold2 : Lists (h1.put given (.array entries)) old ([] ++ optrs) onames :=
    hold.congr (hsame2 old hobelow) fun p hp => hsame2 p (hoptrs p hp)
  have hkept : onames.filter (fun name => ¬ NamedIn names name)
      = (optrs.filter fun p => ¬ NamedIn names' (textOf (h1.put given (.array entries)) p)).map
          (textOf (h1.put given (.array entries))) := by
    rw [(texts_iff.mp hold2.texts).1, List.nil_append, List.filter_map]
    simp only [namedIn_perm hperm]
    rfl
  have hlen : names.length = names'.length := hperm.length_eq.symm
  obtain ⟨newfs, t3, h3, hkeep, hplenty3, hglob3, hst3⟩ := @keepOthers_run search garbage
    (h1.put given (.array entries)) { s with toThread := t1, heap := h1.put given (.array entries) } given ptrs'
    names' hsearch old [] optrs [] onames none (optrs.map some ++ none :: orest).length hold2 hfresh2 hlists'
    hsorted (by simp) hplenty1 (Stacked.start hfresh2)
  obtain ⟨sp, h4, hpush, hst4, -⟩ := @pushItem_run garbage (h1.put given (.array entries))
    { s with toThread := t3, heap := h3 } newfs _ hst3 none (hplenty3 0)
  generalize hkeptPtrs : optrs.filter (fun p => ¬ NamedIn names' (textOf (h1.put given (.array entries)) p)) = kept
    at hkept hkeep hst3 hpush hst4
  rw [List.nil_append] at hkeep hpush hst4
  refine ⟨sp, given, t3.answered, h4, ?_, hplenty3.answered, hglob3.trans hglob1, ?_⟩
  · have hload : loadArray given { s with toThread := t1, heap := h1 }
        = .ok (ptrs.map some ++ none :: rest, { s with toThread := t1, heap := h1 }) := loadArray_run harray
    have hloadOld : loadArray old { s with toThread := t1, heap := h1.put given (.array entries) }
        = .ok (optrs.map some ++ none :: orest, { s with
            toThread := t1
            heap := h1.put given (.array entries) }) :=
      loadArray_run ((hsame2 old hobelow).trans hoarray)
    rw [List.length_map] at hpush
    rw [← hlen, List.length_nil] at hkeep
    have hcurrent : (Prog.gets FsMem.validFileSystems : CommandM (Option Nat)) s = .ok (some old, s) := by
      rw [Prog.gets_run, hset]
    rw [removeGiven, Prog.bind_of_ok hcurrent]
    simp only
    rw [Prog.bind_of_ok hsplit, Prog.bind_of_ok (library_of_ok hload), countEntries_eq, hlists.length_eq]
    simp only
    rw [qsortGiven_eq, Prog.bind_of_ok (library_of_ok hsort), Prog.bind_of_ok (library_of_ok hloadOld),
      Prog.bind_of_ok hkeep]
    simp only
    rw [Prog.bind_of_ok hpush]
    rfl
  · obtain ⟨hgbelow, hgptrs⟩ := hlists'.lt hfresh2
    refine ⟨hst4.fresh, le_trans hnext2 hst4.next, ?_, hgiven, ⟨ptrs', names', ?_, hptrs.nodup_iff.mpr hstrings.nodup,
      fun p hp => hstrings.above p (hptrs.mem_iff.mp hp)⟩, kept, ?_⟩
    · intro p hp
      rw [hst4.same p (lt_of_lt_of_le hp hnext2), hsame2 p hp]
    · exact hlists'.congr (hst4.same given hgbelow) fun p hp => hst4.same p (hgptrs p hp)
    · obtain ⟨-, rest4, harray4⟩ := hst4.array sp rfl
      rw [List.append_assoc] at harray4
      refine ⟨⟨rest4, harray4⟩, ?_⟩
      rw [view_names hset hold hnum, hkept, List.map_map]
      apply List.map_congr_left
      intro p hp
      have hpmem : p ∈ optrs := by
        rw [← hkeptPtrs] at hp
        exact (List.mem_filter.mp hp).1
      rw [hst4.same p (lt_of_lt_of_le (hoptrs p hpmem) hnext2)]
      exact (texts_iff.mp hold2.texts).2 p hpmem

theorem FsMem.Inv.owned_lt (hinv : s.Inv) {h : Heap FsBlock} (t : Thread)
    (hsame : ∀ p, p < s.heap.next → h.blocks p = s.heap.blocks p) :
    ∀ p ∈ ({ s with toThread := t, heap := h } : FsMem).owned, p < s.heap.next := by
  intro p hp
  cases hset : s.validFileSystems with
  | none =>
      have hnil : ({ s with toThread := t, heap := h } : FsMem).owned = [] := by
        rw [FsMem.owned, hset]
      rw [hnil] at hp
      cases hp
  | some old =>
      obtain ⟨ptrs, names, -, hlists, -, -, hnum, -⟩ := hinv.entries hset
      obtain ⟨hbelow, hptrs⟩ := hlists.lt hinv.fresh
      have hlists' : Lists h old ptrs names :=
        hlists.congr (hsame old hbelow) fun p hp => hsame p (hptrs p hp)
      rw [@Lists.owned_eq { s with toThread := t, heap := h } _ _ _ hlists' hset hnum, List.mem_cons] at hp
      rcases hp with rfl | hp
      · exact hbelow
      · exact hptrs p hp

theorem FsMem.Inv.dropAll (hinv : s.Inv) {ps : List Nat} (hps : ∀ p ∈ s.owned, p ∉ ps) :
    ({ s with heap := s.heap.dropAll ps } : FsMem).Inv ∧
      ({ s with heap := s.heap.dropAll ps } : FsMem).view.names = s.view.names := by
  rcases Option.eq_none_or_eq_some s.validFileSystems with hset | ⟨old, hset⟩
  · refine ⟨⟨hinv.fresh.dropAll ps, hinv.empty, ?_⟩, ?_⟩
    · intro array harray
      exact absurd (hset.symm.trans harray).symm (Option.some_ne_none array)
    · simp only [FsTypes.names, FsMem.view, hset, Option.map_none, Option.getD_none, List.take_nil]
  · obtain ⟨ptrs, names, -, hlists, hnodup, -, hnum, hsorted⟩ := hinv.entries hset
    have howned := hlists.owned_eq hset hnum
    have hsame : ∀ p ∈ old :: ptrs, (s.heap.dropAll ps).blocks p = s.heap.blocks p := by
      intro p hp
      exact Heap.dropAll_of_notMem (hps p (howned ▸ hp))
    have hlists' : Lists (s.heap.dropAll ps) old ptrs names :=
      hlists.congr (hsame old List.mem_cons_self) fun p hp => hsame p (List.mem_cons_of_mem old hp)
    refine ⟨⟨hinv.fresh.dropAll ps, hinv.empty, ?_⟩, ?_⟩
    · intro array harray
      obtain rfl := Option.some.inj (hset.symm.trans harray)
      exact ⟨ptrs, names, hlists', hnodup, hnum.trans hlists'.length_eq.symm, hsorted⟩
    · rw [view_names hset hlists hnum,
        @view_names { s with heap := s.heap.dropAll ps } _ _ _ hset hlists' hnum]

theorem freeStrings_run {array fuel : Nat} {done todo : List Nat} {rest : List (Option Nat)}
    (harray : s.heap.blocks array = some (.array ((done ++ todo).map some ++ none :: rest)))
    (hnodup : todo.Nodup) (hlive : ∀ p ∈ todo, p ≠ array ∧ s.heap.blocks p ≠ none) (hfuel : todo.length < fuel) :
    freeStrings array fuel done.length s = .ok ((), { s with heap := s.heap.dropAll todo }) := by
  induction todo generalizing done fuel s with
  | nil =>
      cases fuel with
      | zero => omega
      | succ fuel =>
          have hentry : loadEntry array done.length s = .ok (none, s) := loadEntry_run harray (by simp)
          rw [freeStrings, Prog.bind_of_ok hentry]
          rfl
  | cons p todo ih =>
      cases fuel with
      | zero => omega
      | succ fuel =>
          have hentry : loadEntry array done.length s = .ok (some p, s) := loadEntry_run harray (by simp)
          obtain ⟨hp, hnodup'⟩ := List.nodup_cons.mp hnodup
          obtain ⟨hne, hblock⟩ := hlive p List.mem_cons_self
          obtain ⟨b, hb⟩ := Option.ne_none_iff_exists'.mp hblock
          have harray' : (s.heap.drop p).blocks array
              = some (.array ((done ++ [p] ++ todo).map some ++ none :: rest)) := by
            rw [Heap.drop_of_ne hne.symm, harray]
            simp
          have hlive' : ∀ q ∈ todo, q ≠ array ∧ (s.heap.drop p).blocks q ≠ none := by
            intro q hq
            obtain ⟨hqne, hqlive⟩ := hlive q (List.mem_cons_of_mem p hq)
            have hqp : q ≠ p := fun hcon => hp (hcon ▸ hq)
            exact ⟨hqne, by rwa [Heap.drop_of_ne hqp]⟩
          have hrest := @ih { s with heap := s.heap.drop p } fuel (done ++ [p]) harray' hnodup' hlive'
            (by rw [List.length_cons] at hfuel; omega)
          rw [List.length_append, List.length_singleton] at hrest
          rw [freeStrings, Prog.bind_of_ok hentry]
          simp only
          rw [Prog.bind_of_ok (release_run hb)]
          exact hrest

theorem copyFsTypes_plenty {t : Thread} (hplenty : t.Plenty) (names : List CString) :
    ∃ t', copyFsTypes names t = .ok (.none, t') := by
  induction names generalizing t with
  | nil => exact ⟨t, rfl⟩
  | cons name names ih =>
      rcases sgUpdateString_cases none (some name) t with ⟨t1, hupdate, -, hplenty1⟩ | ⟨-, -, -, hcon⟩
      · obtain ⟨t', hrest⟩ := ih (hplenty1 hplenty)
        refine ⟨t', ?_⟩
        rw [copyFsTypes, Prog.bind_of_ok hupdate]
        exact hrest
      · exact absurd hplenty hcon

/-- With memory for every request the library sets the names. -/
theorem sgSetValidFilesystems_plenty {u u' : FsTypes} (hplenty : u.toThread.Plenty) {names : List CString}
    {rc : SgError} (hrun : sgSetValidFilesystems (some names) u = .ok (rc, u')) (hsettled : u.Settled) :
    rc = .none := by
  rw [sgSetValidFilesystems, Prog.bind_of_ok (Prog.gets_run _ _)] at hrun
  simp only [id] at hrun
  cases names with
  | nil =>
      simp only [dropFsTypes] at hrun
      rw [Prog.bind_of_ok (Prog.modify_run _ _), Prog.bind_of_ok (freeFsTypes_run hsettled _)] at hrun
      cases hrun
      rfl
  | cons name names =>
      obtain ⟨t', hcopy⟩ := copyFsTypes_plenty hplenty.answered (name :: names).reverse
      simp only at hrun
      rw [Prog.bind_of_ok (onFsThread_calloc u), hplenty 0, if_pos rfl,
        Prog.bind_of_ok (@onFsThread_run u.answered _ _ _ _ hcopy), if_pos rfl,
        Prog.bind_of_ok (Prog.modify_run _ _), Prog.bind_of_ok (freeFsTypes_run hsettled _)] at hrun
      cases hrun
      rfl

/-- The end of `set_valid_filesystems`: the library takes the names over, and the given strings are given
back. -/
theorem setPrepared_run (hinv : s.Inv) {t : Thread} (hplenty : t.Plenty) {h : Heap FsBlock} {newfs : Nat}
    (hprep : ReadyLists s h newfs given names) :
    ∃ s', (do
        let rc ← library (sgSetValidFilesystemsAt sorter (some newfs))
        if rc ≠ .none then Prog.fault (.sgDie (bytes "sg_set_valid_filesystems() failed") 1)
        else do
          let slots ← library (loadArray given)
          library (freeStrings given slots.length 0)
          return .none : CommandM SgError) { s with toThread := t, heap := h } = .ok (.none, s') ∧
      s'.Inv ∧ s'.view.names.Perm names := by
  obtain ⟨ptrs, hlist⟩ := hprep.list
  obtain ⟨gptrs, gnames, hgiven, hnodup, habove⟩ := hprep.strings
  have hinv1 : ({ s with toThread := t, heap := h } : FsMem).Inv := hinv.kept rfl rfl hprep.fresh hprep.same
  have howned1 := hinv.owned_lt t hprep.same
  obtain ⟨rc, s2, u, hset, hdone, hview, -, hframed⟩ :=
    @sgSetValidFilesystemsAt_run _ names sorter hinv1 (some newfs) ⟨ptrs, hlist⟩
  obtain rfl := sgSetValidFilesystems_plenty hplenty hview hinv1.settled
  obtain ⟨hsame2, hnew2⟩ := hframed rfl
  -- the given array and its strings are neither of the old set nor of the new one
  obtain ⟨hgbelow, hgptrs⟩ := hgiven.lt hprep.fresh
  have hlists2 : Lists s2.heap given gptrs gnames := by
    refine hgiven.congr (hsame2 given hgbelow fun hcon => ?_) fun p hp => hsame2 p (hgptrs p hp) fun hcon => ?_
    · exact absurd (howned1 given hcon) (not_lt.mpr hprep.above)
    · exact absurd (howned1 p hcon) (not_lt.mpr (habove p hp))
  obtain ⟨rest, harray2⟩ := hlists2.array
  have hfree := @freeStrings_run s2 given (gptrs.map some ++ none :: rest).length [] gptrs rest harray2 hnodup
    (by
      intro p hp
      obtain ⟨name, hname⟩ := hlists2.live hp
      exact ⟨hlists2.ne hp, by rw [hname]; exact Option.some_ne_none _⟩)
    (by simp)
  obtain ⟨hinv', hnames'⟩ := hdone.inv.dropAll
    (show ∀ p ∈ s2.owned, p ∉ gptrs from fun p hp hcon => absurd (hgptrs p hcon) (not_lt.mpr (hnew2 p hp)))
  refine ⟨{ s2 with heap := s2.heap.dropAll gptrs }, ?_, hinv', ?_⟩
  · rw [Prog.bind_of_ok (library_of_ok hset), if_neg (by decide),
      Prog.bind_of_ok (library_of_ok (loadArray_run harray2))]
    rw [List.length_nil] at hfree
    rw [Prog.bind_of_ok (library_of_ok hfree)]
    rfl
  · rw [hnames']
    exact (hdone.names rfl).1

end Given

section Setting

variable {sorter : Sorter} {search : (Option Nat → Ordering) → List (Option Nat) → Option Nat}
  {garbage : Nat → Option Nat} {s : FsMem}

/-- The names that are set: those of the list, or what is left of the current ones. -/
theorem setValidFilesystems_run (hsearch : Search.Lawful search) (hinv : s.Inv) (hplenty : s.toThread.Plenty)
    {fslist : CString} (hset : Negated fslist → s.validFileSystems ≠ none) :
    ∃ s', setValidFilesystems sorter search garbage fslist s = .ok (.none, s') ∧ s'.Inv ∧
      s'.view.names.Perm (if Negated fslist then
        s.view.names.filter fun name => ¬ NamedIn (pieces (listPart fslist)) name
        else pieces (listPart fslist)) := by
  by_cases hneg : Negated fslist
  · obtain ⟨old, hold⟩ := Option.ne_none_iff_exists'.mp (hset hneg)
    obtain ⟨newfs, given, t, h', hremove, hplenty', -, hprep⟩ := @removeGiven_run sorter search garbage s hsearch
      hinv hplenty old hold (fslist.dropWhile isSpace)
    obtain ⟨s', hrun, hinv', hnames⟩ := @setPrepared_run sorter s given _ hinv t hplenty' h' newfs hprep
    refine ⟨s', ?_, hinv', ?_⟩
    · rw [setValidFilesystems]
      simp only [if_pos (show (fslist.dropWhile isSpace).head? = some 33 from hneg)]
      rw [Prog.bind_of_ok hremove]
      exact hrun
    · rw [if_pos hneg, listPart, if_pos hneg]
      exact hnames
  · obtain ⟨given, ptrs, t, h', hsplit, hplenty', -, hstrings, hlists⟩ := @splitList_run garbage s
      (fslist.dropWhile isSpace) hplenty hinv.fresh
    have hprep : ReadyLists s h' given given (pieces (fslist.dropWhile isSpace)) :=
      ⟨hstrings.fresh, hstrings.next, hstrings.same, (hstrings.array given rfl).1,
        ⟨ptrs, _, hlists, hstrings.nodup, hstrings.above⟩, ptrs, hlists⟩
    obtain ⟨s', hrun, hinv', hnames⟩ := @setPrepared_run sorter s given _ hinv t hplenty' h' given hprep
    refine ⟨s', ?_, hinv', ?_⟩
    · rw [setValidFilesystems]
      simp only [if_neg (show ¬ (fslist.dropWhile isSpace).head? = some 33 from hneg)]
      rw [Prog.bind_of_ok hsplit, Prog.bind_of_ok (Prog.pure_run _ _)]
      exact hrun
    · rw [if_neg hneg, listPart, if_neg hneg]
      exact hnames

theorem isValidFsType_iff (names : List CString) (type : CString) :
    isValidFsType names (some type) = true ↔ NamedIn names type := by
  simp only [isValidFsType, List.any_eq_true, decide_eq_true_eq, NamedIn]

theorem namedIn_filter (names given : List CString) (type : CString) :
    NamedIn (names.filter fun name => ¬ NamedIn given name) type ↔ NamedIn names type ∧ ¬ NamedIn given type := by
  constructor
  · rintro ⟨name, hname, hsame⟩
    obtain ⟨hmem, hout⟩ := List.mem_filter.mp hname
    refine ⟨⟨name, hmem, hsame⟩, ?_⟩
    rintro ⟨other, hother, hsame'⟩
    exact (of_decide_eq_true hout) ⟨other, hother, hsame'.trans hsame.symm⟩
  · rintro ⟨⟨name, hmem, hsame⟩, hout⟩
    refine ⟨name, List.mem_filter.mpr ⟨hmem, decide_eq_true ?_⟩, hsame⟩
    rintro ⟨other, hother, hsame'⟩
    exact hout ⟨other, hother, hsame'.trans hsame⟩

/-- Without a set there is nothing to take names out of, and the command ends. -/
theorem setValidFilesystems_sgDie {fslist : CString} (hneg : Negated fslist) (hset : s.validFileSystems = none) :
    setValidFilesystems sorter search garbage fslist s
      = .error (.sgDie (bytes "sg_get_valid_filesystems()") 1) := by
  have hremove : removeGiven sorter search garbage (fslist.dropWhile isSpace) s
      = .error (.sgDie (bytes "sg_get_valid_filesystems()") 1) := by
    rw [removeGiven, Prog.bind_of_ok (Prog.gets_run _ _), hset]
    rfl
  rw [setValidFilesystems]
  simp only [if_pos (show (fslist.dropWhile isSpace).head? = some 33 from hneg)]
  exact Prog.bind_of_error hremove _

/-- The `-F` option, with memory for every request: the valid file systems are those of the list, or, with a
`!`, those of before without them. With a `!` and no set at all the command ends. -/
theorem setValidFilesystems_valid (sorter : Sorter) (hsearch : Search.Lawful search)
    (garbage : Nat → Option Nat) (hinv : s.Inv) (hplenty : s.toThread.Plenty) (fslist : CString) :
    (Negated fslist ∧ s.validFileSystems = none → setValidFilesystems sorter search garbage fslist s
      = .error (.sgDie (bytes "sg_get_valid_filesystems()") 1)) ∧
    (¬ (Negated fslist ∧ s.validFileSystems = none) →
      ∃ sp s1 ptrs given s', splitList garbage (listPart fslist) s = .ok (sp, s1) ∧
        Lists s1.heap sp ptrs given ∧
        setValidFilesystems sorter search garbage fslist s = .ok (.none, s') ∧ s'.Inv ∧
        ∀ type, ∃ before after, isValidFsTypeAt type s = .ok (before, s) ∧
          isValidFsTypeAt type s' = .ok (after, s') ∧
          (after = true ↔ if Negated fslist then before = true ∧ ¬ NamedIn given type else NamedIn given type)) := by
  refine ⟨fun h => setValidFilesystems_sgDie h.1 h.2, ?_⟩
  intro hcurrent
  obtain ⟨s', hrun, hinv', hnames⟩ := @setValidFilesystems_run sorter search garbage s hsearch hinv hplenty fslist
    fun hneg hnone => hcurrent ⟨hneg, hnone⟩
  obtain ⟨sp, ptrs, t, h1, hsplit, -, -, -, hlists⟩ := @splitList_run garbage s (listPart fslist) hplenty hinv.fresh
  refine ⟨sp, _, ptrs, pieces (listPart fslist), s', hsplit, hlists, hrun, hinv', ?_⟩
  intro type
  refine ⟨_, _, isValidFsTypeAt_run hinv type, isValidFsTypeAt_run hinv' type, ?_⟩
  rw [isValidFsType_iff, isValidFsType_iff, namedIn_perm hnames]
  by_cases hneg : Negated fslist
  · rw [if_pos hneg, if_pos hneg, namedIn_filter]
  · rw [if_neg hneg, if_neg hneg]

end Setting

/-- `xfs` is taken out of `ext4` and `xfs`. -/
theorem setValidFilesystems_twoTypes :
    ∃ s', setValidFilesystems mergeSorter Search.halves (fun _ => none) (bytes " ! XFS") twoTypes
      = .ok (.none, s') ∧ s'.Inv ∧ isValidFsTypeAt (literal "ext4") s' = .ok (true, s') ∧
      isValidFsTypeAt (literal "xfs") s' = .ok (false, s') := by
  obtain ⟨-, hset⟩ := setValidFilesystems_valid mergeSorter Search.halves_lawful (fun _ => none) twoTypes_inv
    (fun _ => rfl) (bytes " ! XFS")
  obtain ⟨sp, s1, ptrs, given, s', hsplit, hlists, hrun, hinv', hvalid⟩ := hset fun h => Option.some_ne_none 2 h.2
  obtain ⟨sp', ptrs', t, h', hsplit', -, -, -, hlists'⟩ :=
    @splitList_run (fun _ => none) twoTypes (listPart (bytes " ! XFS")) (fun _ => rfl) twoTypes_inv.fresh
  rw [hsplit'] at hsplit
  cases hsplit
  obtain rfl := hlists'.unique hlists
  have hgiven : pieces (listPart (bytes " ! XFS")) = [bytes "XFS"] := by decide +kernel
  rw [hgiven] at hvalid
  refine ⟨s', hrun, hinv', ?_, ?_⟩
  · obtain ⟨before, after, hbefore, hafter, hiff⟩ := hvalid (literal "ext4")
    have hvalid' : (isValidFsTypeAt (literal "ext4") twoTypes).toOption.map Prod.fst = some true := by
      decide +kernel
    rw [hbefore] at hvalid'
    rw [hafter, hiff.mpr ((if_pos (by decide)).mpr ⟨Option.some.inj hvalid', by decide +kernel⟩)]
  · obtain ⟨before, after, -, hafter, hiff⟩ := hvalid (literal "xfs")
    have hnot : after ≠ true := fun h => ((if_pos (by decide)).mp (hiff.mp h)).2 (by decide +kernel)
    rw [hafter, Bool.eq_false_of_not_eq_true hnot]
def noTypes : FsMem := { twoTypes with validFileSystems := none, numValidFileSystems := 0 }

/-- A `!` while there is no set. -/
theorem setValidFilesystems_noTypes :
    noTypes.Inv ∧ noTypes.toThread.Plenty ∧
      ¬ ∃ rc s', setValidFilesystems mergeSorter Search.halves (fun _ => none) (bytes "!nfs") noTypes
        = .ok (rc, s') := by
  refine ⟨⟨twoTypes_inv.fresh, fun _ => rfl, ?_⟩, fun _ => rfl, ?_⟩
  · intro array harray
    exact absurd harray.symm (Option.some_ne_none array)
  · rintro ⟨rc, s', hrun⟩
    have hdie := @setValidFilesystems_sgDie mergeSorter Search.halves (fun _ => none) noTypes (bytes "!nfs")
      (by decide) rfl
    rw [hdie] at hrun
    cases hrun

end Statgrab
