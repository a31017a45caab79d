import Statgrab.Lib.Heap
import Statgrab.Stats.ValidFsRun

/-!
# The strings of the set of valid file systems

`sg_set_valid_filesystems` takes an array of strings that the caller may have got from
`sg_get_valid_filesystems`: the strings of the new set are then those of the old one, or the array is even
the current one. Here the array and its strings are blocks of memory. A block that was given back cannot
be read, written or given back again, and `sg_realloc` always moves.

The heap refines the set of `Statgrab.Stats.ValidFs`, whose entries are the strings themselves: `view`
forgets the addresses.
-/

namespace Statgrab

inductive FsBlock where
  | text (s : CString)
  | array (entries : List (Option Nat))

/-- The globals of the component with the memory they point to, and the thread that calls. -/
structure FsMem extends Thread where
  heap : Heap FsBlock
  validFileSystems : Option Nat
  numValidFileSystems : Nat

abbrev FsMemM := Prog Fault FsMem

/-- What `qsort` does: the entries in order, those that compare equal in any order. -/
structure Sorter where
  sort : (Option Nat → Option Nat → Bool) → List (Option Nat) → List (Option Nat)
  perm : ∀ le l, (sort le l).Perm l
  sorted : ∀ le l, (∀ a b c, le a b = true → le b c = true → le a c = true) →
    (∀ a b, (le a b || le b a) = true) → (sort le l).Pairwise fun a b => le a b = true

/-! ### Memory -/

def onMemThread {β : Type} (x : ThreadM β) : FsMemM β :=
  Prog.zoom FsMem.toThread (fun s t => { s with toThread := t }) x

def onHeap (f : Heap FsBlock → Heap FsBlock) : FsMemM Unit :=
  Prog.modify fun s => { s with heap := f s.heap }

def loadText (p : Nat) : FsMemM CString := fun s =>
  match s.heap.blocks p with
  | some (.text c) => .ok (c, s)
  | _ => .error .released

def loadArray (p : Nat) : FsMemM (List (Option Nat)) := fun s =>
  match s.heap.blocks p with
  | some (.array entries) => .ok (entries, s)
  | _ => .error .released

def loadEntry (array i : Nat) : FsMemM (Option Nat) := do
  let entries ← loadArray array
  match entries[i]? with
  | some entry => return entry
  | none => Prog.fault .outOfBlock

def storeEntry (array i : Nat) (entry : Option Nat) : FsMemM Unit := do
  let entries ← loadArray array
  if i < entries.length then onHeap fun h => h.put array (.array (entries.set i entry))
  else Prog.fault .outOfBlock

/-- `free(p)`. -/
def release : Option Nat → FsMemM Unit
  | none => return ()
  | some p => fun s =>
      match s.heap.blocks p with
      | some _ => .ok ((), { s with heap := s.heap.drop p })
      | none => .error .released

/-- `sg_update_string(&array[i], src)`. The string is measured before the old one is given back, and
copied after it. -/
def updateEntry (array i : Nat) (src : Option Nat) : FsMemM SgError :=
  match src with
  | none => do
      let old ← loadEntry array i
      release old
      storeEntry array i none
      return .none
  | some p => do
      let s ← loadText p
      let old ← loadEntry array i
      let ok ← onMemThread (sgRealloc (s.length + 1))
      if ok then
        release old
        let s ← loadText p
        let new ← Prog.gets fun m => m.heap.next
        onHeap fun h => h.place (.text s)
        storeEntry array i (some new)
        return .none
      else onMemThread returnFromPreviousError

/-! ### The functions -/

/-- The loop that counts the entries before the NULL. It has no answer where there is none. -/
def countEntries : List (Option Nat) → Option Nat
  | [] => none
  | none :: _ => some 0
  | some _ :: entries => (countEntries entries).map (· + 1)

/-- The loop that gives the copies back, with the entries of `valid_fs` from the index `tmp` on. -/
def freeCopies (new : Nat) : List (Option Nat) → Nat → FsMemM Unit
  | [], _ => Prog.fault .outOfBlock
  | none :: _, _ => return ()
  | some _ :: entries, tmp => do
      let entry ← loadEntry new tmp
      release entry
      freeCopies new entries (tmp + 1)

/-- The loop that copies the names, from the last to the first. -/
def copyEntries (new validFs : Nat) : Nat → FsMemM SgError
  | 0 => return .none
  | tmp + 1 => do
      let src ← loadEntry validFs tmp
      let errc ← updateEntry new tmp src
      if errc = .none then copyEntries new validFs tmp
      else
        let entries ← loadArray validFs
        freeCopies new (entries.drop tmp) tmp
        return errc

def textAt (h : Heap FsBlock) (entry : Option Nat) : Option CString :=
  entry.bind fun p => match h.blocks p with
    | some (.text s) => some s
    | _ => none

/-- The entry is NULL, or its string can be read. -/
def readable (h : Heap FsBlock) (entry : Option Nat) : Bool :=
  entry.isNone || (textAt h entry).isSome

/-- `qsort(array, num, sizeof(array[0]), cmp_valid_fs)`. -/
def qsortEntries (sorter : Sorter) (array num : Nat) : FsMemM Unit := do
  let entries ← loadArray array
  let h ← Prog.gets FsMem.heap
  if entries.length < num then Prog.fault .outOfBlock
  else if (entries.take num).all (readable h) then
    onHeap fun h => h.put array
      (.array (sorter.sort (fun a b => fsTypeLE (textAt h a) (textAt h b)) (entries.take num)
        ++ entries.drop num))
  else Prog.fault .released

/-- The loop that gives the old strings back, with `fuel` entries left from the index `i`. -/
def freeEntries (array : Nat) : Nat → Nat → FsMemM Unit
  | 0, _ => return ()
  | fuel + 1, i => do
      let entry ← loadEntry array i
      release entry
      freeEntries array fuel (i + 1)

/-- The end of `sg_set_valid_filesystems`: the new set takes the place of the old one, which is given
back. -/
def replaceEntries (new : Option Nat) (num : Nat) : FsMemM SgError := do
  let old ← Prog.gets id
  Prog.modify fun s => { s with validFileSystems := new, numValidFileSystems := num }
  match old.validFileSystems with
  | none => return .none
  | some array => do
      freeEntries array old.numValidFileSystems 0
      release (some array)
      return .none

/-- `sg_set_valid_filesystems`, with the address of its argument. -/
def sgSetValidFilesystemsAt (sorter : Sorter) (validFs : Option Nat) : FsMemM SgError :=
  match validFs with
  | none => replaceEntries none 0
  | some validFs => do
      let first ← loadEntry validFs 0
      match first with
      | none => replaceEntries none 0
      | some _ => do
          let entries ← loadArray validFs
          match countEntries entries with
          | none => Prog.fault .outOfBlock
          | some num => do
              let ok ← onMemThread calloc
              if ok then
                let new ← Prog.gets fun m => m.heap.next
                onHeap fun h => h.place (.array (List.replicate (num + 1) none))
                let errc ← copyEntries new validFs num
                if errc = .none then
                  qsortEntries sorter new num
                  replaceEntries (some new) num
                else return errc
              else onMemThread (returnWithSetError .malloc enomem "set_valid_filesystems")

def isValidFsTypeAt (type : CString) : FsMemM Bool := do
  let s ← Prog.gets id
  match s.validFileSystems with
  | none => if s.numValidFileSystems = 0 then return false else Prog.fault .nullPointer
  | some array => do
      let entries ← loadArray array
      if (entries.take s.numValidFileSystems).all (readable s.heap) then
        match Search.bsearch (fun x => cmpValidFs (some type) (textAt s.heap x)) entries
            s.numValidFileSystems 0 s.numValidFileSystems with
        | none => Prog.fault .outOfBlock
        | some found => return found
      else Prog.fault .released

/-! ### The invariant -/

/-- The array has these pointers to these strings, and a NULL behind them. -/
structure Lists (h : Heap FsBlock) (array : Nat) (ptrs : List Nat) (names : List CString) : Prop where
  array : ∃ rest, h.blocks array = some (.array (ptrs.map some ++ none :: rest))
  texts : ptrs.map h.blocks = names.map fun name => some (.text name)

/-- What the component keeps: without an array the number is 0; with one it is that of the strings, which
are sorted and belong to this array only. -/
structure FsMem.Inv (s : FsMem) : Prop where
  fresh : s.heap.Fresh
  empty : s.validFileSystems = none → s.numValidFileSystems = 0
  set : ∀ array, s.validFileSystems = some array → ∃ ptrs names, Lists s.heap array ptrs names ∧
    ptrs.Nodup ∧ s.numValidFileSystems = ptrs.length ∧
    (names.map some).Pairwise fun a b => fsTypeLE a b

namespace Lists

variable {h h' : Heap FsBlock} {array : Nat} {ptrs : List Nat} {names : List CString}

theorem length_eq (hl : Lists h array ptrs names) : ptrs.length = names.length := by
  have hlength := congrArg List.length hl.texts
  rwa [List.length_map, List.length_map] at hlength

theorem text (hl : Lists h array ptrs names) {i p : Nat} (hp : ptrs[i]? = some p) :
    ∃ name, names[i]? = some name ∧ h.blocks p = some (.text name) := by
  have hi := congrArg (·[i]?) hl.texts
  simp only [List.getElem?_map, hp, Option.map_some] at hi
  cases hname : names[i]? with
  | none =>
      rw [hname] at hi
      cases hi
  | some name =>
      rw [hname] at hi
      exact ⟨name, rfl, Option.some.inj hi⟩

theorem live (hl : Lists h array ptrs names) {p : Nat} (hp : p ∈ ptrs) :
    ∃ name, h.blocks p = some (.text name) := by
  obtain ⟨i, hi⟩ := List.getElem?_of_mem hp
  obtain ⟨name, -, hname⟩ := hl.text hi
  exact ⟨name, hname⟩

theorem ne (hl : Lists h array ptrs names) {p : Nat} (hp : p ∈ ptrs) : p ≠ array := by
  obtain ⟨name, hname⟩ := hl.live hp
  obtain ⟨rest, harray⟩ := hl.array
  intro hcon
  rw [hcon, harray] at hname
  cases hname

theorem lt (hl : Lists h array ptrs names) (hf : h.Fresh) : array < h.next ∧ ∀ p ∈ ptrs, p < h.next := by
  obtain ⟨rest, harray⟩ := hl.array
  refine ⟨hf.lt harray, ?_⟩
  intro p hp
  obtain ⟨name, hname⟩ := hl.live hp
  exact hf.lt hname

theorem congr (hl : Lists h array ptrs names) (harray : h'.blocks array = h.blocks array)
    (hptrs : ∀ p ∈ ptrs, h'.blocks p = h.blocks p) : Lists h' array ptrs names := by
  obtain ⟨rest, hrest⟩ := hl.array
  refine ⟨⟨rest, harray.trans hrest⟩, ?_⟩
  rw [← hl.texts]
  exact List.map_congr_left hptrs

theorem textAt_map (hl : Lists h array ptrs names) :
    (ptrs.map some).map (textAt h) = names.map some := by
  have htexts := congrArg (List.map fun b : Option FsBlock => match b with
    | some (.text s) => some s
    | _ => none) hl.texts
  rw [List.map_map, List.map_map] at htexts
  rw [List.map_map]
  exact htexts

theorem all_readable (hl : Lists h array ptrs names) : (ptrs.map some).all (readable h) = true := by
  rw [List.all_eq_true]
  intro x hx
  obtain ⟨p, hp, rfl⟩ := List.mem_map.mp hx
  obtain ⟨name, hname⟩ := hl.live hp
  simp [readable, textAt, hname]

end Lists

/-! ### Membership -/

def entriesAt (h : Heap FsBlock) (array : Nat) : List (Option Nat) :=
  match h.blocks array with
  | some (.array entries) => entries
  | _ => []

def FsMem.view (s : FsMem) : FsTypes :=
  { s with
    validFileSystems := s.validFileSystems.map fun array => (entriesAt s.heap array).map (textAt s.heap) }

section Membership

variable {s : FsMem}

theorem loadArray_run {array : Nat} {entries : List (Option Nat)}
    (harray : s.heap.blocks array = some (.array entries)) : loadArray array s = .ok (entries, s) := by
  rw [loadArray, harray]

theorem view_entries {array : Nat} {ptrs : List Nat} {names : List CString} {rest : List (Option Nat)}
    (hset : s.validFileSystems = some array) (hlists : Lists s.heap array ptrs names)
    (harray : s.heap.blocks array = some (.array (ptrs.map some ++ none :: rest))) :
    s.view.validFileSystems = some (names.map some ++ none :: rest.map (textAt s.heap)) := by
  rw [FsMem.view, hset, Option.map_some, entriesAt, harray]
  simp only
  rw [List.map_append, hlists.textAt_map]
  rfl

theorem FsMem.Inv.entries (h : s.Inv) {array : Nat} (hset : s.validFileSystems = some array) :
    ∃ ptrs names rest, Lists s.heap array ptrs names ∧ ptrs.Nodup ∧
      s.heap.blocks array = some (.array (ptrs.map some ++ none :: rest)) ∧
      s.numValidFileSystems = names.length ∧
      (names.map some).Pairwise fun a b => fsTypeLE a b := by
  obtain ⟨ptrs, names, hlists, hnodup, hnum, hsorted⟩ := h.set array hset
  obtain ⟨rest, harray⟩ := hlists.array
  exact ⟨ptrs, names, rest, hlists, hnodup, harray, hnum.trans hlists.length_eq, hsorted⟩

theorem FsMem.Inv.settled (h : s.Inv) : s.view.Settled := by
  unfold FsTypes.Settled
  cases hset : s.validFileSystems with
  | none =>
      have hnone : s.view.validFileSystems = none := by
        rw [FsMem.view, hset]
        rfl
      rw [hnone]
      exact h.empty hset
  | some array =>
      obtain ⟨ptrs, names, rest, hlists, -, harray, hnum, hsorted⟩ := h.entries hset
      have hnum' : s.view.numValidFileSystems = names.length := hnum
      rw [view_entries hset hlists harray, hnum']
      refine ⟨?_, ?_, ?_⟩
      · rw [List.takeWhile_append_of_pos (by simp)]
        simp
      · rw [List.getElem?_append_right (by simp)]
        simp
      · rw [List.take_append_of_le_length (by simp), List.take_of_length_le (by simp)]
        exact hsorted

theorem view_names {array : Nat} {ptrs : List Nat} {names : List CString}
    (hset : s.validFileSystems = some array) (hlists : Lists s.heap array ptrs names)
    (hnum : s.numValidFileSystems = names.length) : s.view.names = names := by
  obtain ⟨rest, harray⟩ := hlists.array
  have hnum' : s.view.numValidFileSystems = names.length := hnum
  rw [FsTypes.names, view_entries hset hlists harray, hnum', Option.getD_some,
    List.take_append_of_le_length (by simp), List.take_of_length_le (by simp)]
  simp

/-- `is_valid_fs_type` finds the names of the set, whatever their case. -/
theorem isValidFsTypeAt_run (h : s.Inv) (type : CString) :
    isValidFsTypeAt type s = .ok (isValidFsType s.view.names (some type), s) := by
  have hsearch := searchFsType_run h.settled (some type)
  rw [searchFsType, Prog.bind_of_ok (Prog.gets_run _ _)] at hsearch
  rw [isValidFsTypeAt, Prog.bind_of_ok (Prog.gets_run _ _)]
  simp only [id] at hsearch ⊢
  cases hset : s.validFileSystems with
  | none =>
      have hnone : s.view.validFileSystems = none := by
        rw [FsMem.view, hset]
        rfl
      have hnum : s.view.numValidFileSystems = 0 := h.empty hset
      have hnum' : s.numValidFileSystems = 0 := h.empty hset
      simp only [hnone, if_pos hnum, if_pos hnum'] at hsearch ⊢
      have hfound := congrArg (Except.map Prod.fst) hsearch
      have heq : false = isValidFsType s.view.names (some type) := Except.ok.inj hfound
      rw [← heq]
      rfl
  | some array =>
      obtain ⟨ptrs, names, rest, hlists, -, harray, hnum, -⟩ := h.entries hset
      have hmap : names.map some ++ none :: rest.map (textAt s.heap)
          = (ptrs.map some ++ none :: rest).map (textAt s.heap) := by
        rw [List.map_append, hlists.textAt_map]
        rfl
      have htake : (ptrs.map some ++ none :: rest).take s.numValidFileSystems = ptrs.map some := by
        rw [hnum, ← hlists.length_eq, List.take_append_of_le_length (by simp),
          List.take_of_length_le (by simp)]
      simp only [view_entries hset hlists harray, hmap, Search.bsearch_map] at hsearch
      simp only
      rw [Prog.bind_of_ok (loadArray_run harray), htake, if_pos hlists.all_readable]
      have hnum' : s.view.numValidFileSystems = s.numValidFileSystems := rfl
      rw [hnum'] at hsearch
      cases hfound : Search.bsearch (fun x => cmpValidFs (some type) (textAt s.heap x))
          (ptrs.map some ++ none :: rest) s.numValidFileSystems 0 s.numValidFileSystems with
      | none =>
          rw [hfound] at hsearch
          cases hsearch
      | some found =>
          rw [hfound] at hsearch
          have heq : found = isValidFsType s.view.names (some type) :=
            Except.ok.inj (congrArg (Except.map Prod.fst) hsearch)
          rw [heq]
          rfl

end Membership

/-! ### Copying the names -/

section Copying

variable {s : FsMem} {h0 : Heap FsBlock} {array new k : Nat} {ptrs done : List Nat}
  {names : List CString}

theorem loadEntry_run {entries : List (Option Nat)} {i : Nat} {entry : Option Nat}
    (harray : s.heap.blocks array = some (.array entries)) (hi : entries[i]? = some entry) :
    loadEntry array i s = .ok (entry, s) := by
  rw [loadEntry, Prog.bind_of_ok (loadArray_run harray), hi]
  rfl

theorem loadText_run {p : Nat} {c : CString} (hp : s.heap.blocks p = some (.text c)) :
    loadText p s = .ok (c, s) := by
  rw [loadText, hp]

theorem release_run {p : Nat} {b : FsBlock} (hp : s.heap.blocks p = some b) :
    release (some p) s = .ok ((), { s with heap := s.heap.drop p }) := by
  simp only [release, hp]

theorem freeEntries_run {pre post es : List (Option Nat)}
    (harray : s.heap.blocks array = some (.array (pre ++ es ++ post)))
    (hnodup : (es.filterMap id).Nodup)
    (hlive : ∀ p ∈ es.filterMap id, p ≠ array ∧ s.heap.blocks p ≠ none) :
    freeEntries array es.length pre.length s
      = .ok ((), { s with heap := s.heap.dropAll (es.filterMap id) }) := by
  induction es generalizing pre s with
  | nil => rfl
  | cons e es ih =>
      have hentry : loadEntry array pre.length s = .ok (e, s) := loadEntry_run harray (by simp)
      have hsplit : pre ++ e :: es ++ post = (pre ++ [e]) ++ es ++ post := by simp
      have hlength : (pre ++ [e]).length = pre.length + 1 := by simp
      rw [List.length_cons, freeEntries, Prog.bind_of_ok hentry]
      cases e with
      | none =>
          rw [hsplit] at harray
          have hrest := ih harray hnodup hlive
          rw [hlength] at hrest
          exact hrest
      | some p =>
          obtain ⟨hp, hnodup'⟩ := List.nodup_cons.mp hnodup
          obtain ⟨hne, hblock⟩ := hlive p List.mem_cons_self
          obtain ⟨b, hb⟩ := Option.ne_none_iff_exists'.mp hblock
          have hrelease := release_run hb
          have harray' : (s.heap.drop p).blocks array = some (.array ((pre ++ [some p]) ++ es ++ post)) := by
            rw [Heap.drop_of_ne hne.symm, harray, hsplit]
          have hlive' : ∀ q ∈ es.filterMap id, q ≠ array ∧ (s.heap.drop p).blocks q ≠ none := by
            intro q hq
            obtain ⟨hqne, hqlive⟩ := hlive q (List.mem_cons_of_mem p hq)
            have hqp : q ≠ p := fun hcon => hp (hcon ▸ hq)
            exact ⟨hqne, by rwa [Heap.drop_of_ne hqp]⟩
          have hrest := @ih { s with heap := s.heap.drop p } _ harray' hnodup' hlive'
          rw [hlength] at hrest
          rw [Prog.bind_of_ok hrelease]
          exact hrest

/-- The loop that gives the copies back stops at the NULL of the caller's array. -/
theorem freeCopies_eq (new : Nat) (vs : List Nat) (rest : List (Option Nat)) (tmp : Nat) :
    freeCopies new (vs.map some ++ none :: rest) tmp = freeEntries new vs.length tmp := by
  induction vs generalizing tmp with
  | nil => rfl
  | cons v vs ih =>
      rw [List.map_cons, List.cons_append, freeCopies, List.length_cons, freeEntries]
      simp only [ih]

/-- The copies of the names from `k` on are made, and nothing below the new array has changed. -/
structure Copied (h0 h : Heap FsBlock) (new k : Nat) (done : List Nat) (names : List CString) : Prop where
  fresh : h.Fresh
  same : ∀ p, p < new → h.blocks p = h0.blocks p
  array : h.blocks new = some (.array (List.replicate k none ++ done.map some ++ [none]))
  texts : done.map h.blocks = (names.drop k).map fun name => some (.text name)
  above : ∀ p ∈ done, new < p
  nodup : done.Nodup

theorem Copied.succ {h : Heap FsBlock} (hc : Copied h0 h new (k + 1) done names) {name : CString}
    (hname : names[k]? = some name) :
    Copied h0 ((h.place (.text name)).put new
      (.array (List.replicate k none ++ (h.next :: done).map some ++ [none]))) new k (h.next :: done)
      names := by
  have hnew : new < h.next := hc.fresh.lt hc.array
  have hlt : ∀ p ∈ done, p < h.next := by
    intro p hp
    obtain ⟨i, hi⟩ := List.getElem?_of_mem hp
    have htext := congrArg (·[i]?) hc.texts
    simp only [List.getElem?_map, hi, Option.map_some] at htext
    cases hdrop : (names.drop (k + 1))[i]? with
    | none =>
        rw [hdrop] at htext
        cases htext
    | some c =>
        rw [hdrop] at htext
        exact hc.fresh.lt (Option.some.inj htext)
  refine ⟨(hc.fresh.place).put (by simpa using Nat.lt_succ_of_lt hnew), ?_, Heap.put_self _ _ _, ?_, ?_, ?_⟩
  · intro p hp
    rw [Heap.put_of_ne (Nat.ne_of_lt hp), Heap.place_of_ne (by omega)]
    exact hc.same p hp
  · have hdrop : names.drop k = name :: names.drop (k + 1) := by
      obtain ⟨hk, hget⟩ := List.getElem?_eq_some_iff.mp hname
      rw [← hget, List.getElem_cons_drop]
    rw [hdrop, List.map_cons, List.map_cons, List.map_cons, ← hc.texts, Heap.put_of_ne (Nat.ne_of_gt hnew),
      Heap.place_self]
    congr 1
    apply List.map_congr_left
    intro p hp
    have hpnew := hc.above p hp
    have hpnext := hlt p hp
    rw [Heap.put_of_ne (Nat.ne_of_gt hpnew), Heap.place_of_ne (Nat.ne_of_lt hpnext)]
  · intro p hp
    rcases List.mem_cons.mp hp with rfl | hp
    · exact hnew
    · exact hc.above p hp
  · refine List.nodup_cons.mpr ⟨?_, hc.nodup⟩
    intro hmem
    exact absurd (hlt _ hmem) (lt_irrefl _)

theorem onMemThread_run {β : Type} {x : ThreadM β} {b : β} {t : Thread}
    (hx : x s.toThread = .ok (b, t)) : onMemThread x s = .ok (b, { s with toThread := t }) :=
  Prog.zoom_of_ok hx

/-- The memory after the copy of a name was stored to the entry `k`. -/
def FsMem.copying (s : FsMem) (new k : Nat) (done : List Nat) (name : CString) : FsMem :=
  { s with
    toThread := s.toThread.answered
    heap := (s.heap.place (.text name)).put new
      (.array (List.replicate k none ++ (s.heap.next :: done).map some ++ [none])) }

/-- `sg_update_string` into an empty entry: the copy is made, or the memory is refused. -/
theorem updateEntry_run {p : Nat} {name : CString} (hc : Copied h0 s.heap new (k + 1) done names)
    (hp : s.heap.blocks p = some (.text name)) (hname : names[k]? = some name) :
    (∃ s', updateEntry new k (some p) s = .ok (.none, s') ∧
      sgUpdateString none (some name) s.toThread = .ok ((.none, some name), s'.toThread) ∧
      Copied h0 s'.heap new k (s.heap.next :: done) names ∧ s'.validFileSystems = s.validFileSystems ∧
      s'.numValidFileSystems = s.numValidFileSystems) ∨
    (∃ t', updateEntry new k (some p) s = .ok (.malloc, { s with toThread := t' }) ∧
      sgUpdateString none (some name) s.toThread = .ok ((.malloc, none), t')) := by
  have hentry : loadEntry new k s = .ok (none, s) := by
    apply loadEntry_run hc.array
    rw [List.append_assoc, List.getElem?_append_left (by simp), List.getElem?_replicate]
    simp
  rw [updateEntry, Prog.bind_of_ok (loadText_run hp), Prog.bind_of_ok hentry]
  cases hmem : s.mem 0 with
  | true =>
      left
      have hrealloc : sgRealloc (name.length + 1) s.toThread = .ok (true, s.toThread.answered) :=
        sgRealloc_of_mem (by omega) hmem
      have hset : (List.replicate (k + 1) none ++ done.map some ++ [none]).set k (some s.heap.next)
          = List.replicate k none ++ (s.heap.next :: done).map some ++ [none] := by
        rw [List.replicate_succ', List.append_assoc, List.append_assoc, List.set_append_right _ _ (by simp)]
        simp
      have harray : (s.heap.place (.text name)).blocks new
          = some (.array (List.replicate (k + 1) none ++ done.map some ++ [none])) := by
        rw [Heap.place_of_ne (Nat.ne_of_lt (hc.fresh.lt hc.array)), hc.array]
      have hstore : storeEntry new k (some s.heap.next)
          { s with toThread := s.toThread.answered, heap := s.heap.place (.text name) }
          = .ok ((), s.copying new k done name) := by
        rw [storeEntry, Prog.bind_of_ok (loadArray_run harray), if_pos (by simp; omega), hset]
        rfl
      refine ⟨s.copying new k done name, ?_, ?_, hc.succ hname, rfl, rfl⟩
      · rw [Prog.bind_of_ok (onMemThread_run hrealloc), if_pos rfl]
        have htext : loadText p { s with toThread := s.toThread.answered }
            = .ok (name, { s with toThread := s.toThread.answered }) := loadText_run hp
        rw [release, Prog.bind_of_ok (Prog.pure_run _ _), Prog.bind_of_ok htext,
          Prog.bind_of_ok (Prog.gets_run _ _), onHeap, Prog.bind_of_ok (Prog.modify_run _ _),
          Prog.bind_of_ok hstore]
        rfl
      · rw [sgUpdateString, Prog.bind_of_ok hrealloc]
        rfl
  | false =>
      right
      have hrealloc := @sgRealloc_of_not_mem (name.length + 1) s.toThread (by omega) hmem
      refine ⟨{ s.toThread.answered with glob := reallocError (name.length + 1) }, ?_, ?_⟩
      · rw [Prog.bind_of_ok (onMemThread_run hrealloc)]
        rfl
      · rw [sgUpdateString, Prog.bind_of_ok hrealloc]
        rfl

/-- What the copy loop leaves: all the copies, or none of them. -/
structure CopyDone (h0 : Heap FsBlock) (s s' : FsMem) (new : Nat) (names : List CString) (rc : SgError) :
    Prop where
  globals : s'.validFileSystems = s.validFileSystems ∧ s'.numValidFileSystems = s.numValidFileSystems
  copied : rc = .none → ∃ done, Copied h0 s'.heap new 0 done names
  failed : rc ≠ .none → s'.heap.Fresh ∧ ∀ p, p < new → s'.heap.blocks p = h0.blocks p

theorem freeCopies_run {rest : List (Option Nat)} (hc : Copied h0 s.heap new (k + 1) done names)
    (hk : k < ptrs.length) (hlength : ptrs.length = names.length) :
    ∃ s', freeCopies new ((ptrs.map some ++ none :: rest).drop k) k s = .ok ((), s') ∧
      s'.toThread = s.toThread ∧ CopyDone h0 s s' new names .malloc := by
  have hdone : (ptrs.drop k).length = (none :: done.map some).length := by
    have htexts := congrArg List.length hc.texts
    simp only [List.length_map, List.length_drop] at htexts
    simp only [List.length_drop, List.length_cons, List.length_map]
    omega
  have harray : s.heap.blocks new
      = some (.array (List.replicate k none ++ (none :: done.map some) ++ [none])) := by
    rw [hc.array, List.replicate_succ']
    simp
  have hfilter : (none :: done.map some).filterMap id = done := by simp
  have hlive : ∀ p ∈ (none :: done.map some).filterMap id, p ≠ new ∧ s.heap.blocks p ≠ none := by
    rw [hfilter]
    intro p hp
    refine ⟨Nat.ne_of_gt (hc.above p hp), ?_⟩
    obtain ⟨i, hi⟩ := List.getElem?_of_mem hp
    have htext := congrArg (·[i]?) hc.texts
    simp only [List.getElem?_map, hi, Option.map_some] at htext
    obtain ⟨c, -, hblock⟩ := Option.map_eq_some_iff.mp htext.symm
    rw [← hblock]
    exact nofun
  have hfree := freeEntries_run harray (by rw [hfilter]; exact hc.nodup) hlive
  rw [hfilter, List.length_replicate, ← hdone] at hfree
  refine ⟨{ s with heap := s.heap.dropAll done }, ?_, rfl, ⟨rfl, rfl⟩, nofun, fun _ => ?_⟩
  · rw [List.drop_append_of_le_length (by simp; omega), ← List.map_drop, freeCopies_eq]
    exact hfree
  · refine ⟨hc.fresh.dropAll done, ?_⟩
    intro p hp
    rw [Heap.dropAll_of_notMem fun hmem => absurd (hc.above p hmem) (Nat.not_lt.mpr (Nat.le_of_lt hp))]
    exact hc.same p hp

/-- The copy loop runs through the caller's array, wherever its strings are, and does what the loop over
the strings themselves does. -/
theorem copyEntries_run (hlists : Lists h0 array ptrs names) (hfresh : h0.Fresh) (hnew : new = h0.next)
    (hc : Copied h0 s.heap new k done names) (hk : k ≤ names.length) :
    ∃ rc s', copyEntries new array k s = .ok (rc, s') ∧
      copyFsTypes (names.take k).reverse s.toThread = .ok (rc, s'.toThread) ∧
      CopyDone h0 s s' new names rc := by
  induction k generalizing s done with
  | zero => exact ⟨.none, s, rfl, rfl, ⟨rfl, rfl⟩, fun _ => ⟨done, hc⟩, fun hne => absurd rfl hne⟩
  | succ k ih =>
      obtain ⟨rest, harray⟩ := hlists.array
      obtain ⟨hbelow, hptrs⟩ := hlists.lt hfresh
      have hlength := hlists.length_eq
      obtain ⟨p, hp⟩ : ∃ p, ptrs[k]? = some p := ⟨_, List.getElem?_eq_getElem (by omega)⟩
      obtain ⟨name, hname, hblock⟩ := hlists.text hp
      -- what the caller's array leads to is below the new array, and so unchanged
      have harray' : s.heap.blocks array = some (.array (ptrs.map some ++ none :: rest)) := by
        rw [hc.same array (hnew ▸ hbelow), harray]
      have hblock' : s.heap.blocks p = some (.text name) := by
        rw [hc.same p (hnew ▸ hptrs p (List.mem_of_getElem? hp)), hblock]
      have hentry : loadEntry array k s = .ok (some p, s) := by
        apply loadEntry_run harray'
        rw [List.getElem?_append_left (by simp; omega), List.getElem?_map, hp]
        rfl
      have htake : (names.take (k + 1)).reverse = name :: (names.take k).reverse := by
        rw [List.take_add_one, hname]
        simp
      rw [copyEntries, Prog.bind_of_ok hentry, htake, copyFsTypes]
      rcases updateEntry_run hc hblock' hname with
        ⟨s1, hupdate, hvalue, hc1, hset, hnum⟩ | ⟨t1, hupdate, hvalue⟩
      · obtain ⟨rc, s', hrun, hvalues, hdone⟩ := ih hc1 (by omega)
        refine ⟨rc, s', ?_, ?_, ⟨hdone.globals.1.trans hset, hdone.globals.2.trans hnum⟩, hdone.copied,
          hdone.failed⟩
        · rw [Prog.bind_of_ok hupdate, if_pos rfl]
          exact hrun
        · rw [Prog.bind_of_ok hvalue]
          exact hvalues
      · have hcopied : Copied h0 ({ s with toThread := t1 } : FsMem).heap new (k + 1) done names := hc
        obtain ⟨s', hfree, hthread, hdone⟩ := @freeCopies_run _ _ _ _ _ _ _ rest hcopied
          (show k < ptrs.length by omega) hlength
        have hload : loadArray array { s with toThread := t1 }
            = .ok (ptrs.map some ++ none :: rest, { s with toThread := t1 }) := loadArray_run harray'
        refine ⟨.malloc, s', ?_, ?_, hdone.globals, hdone.copied, hdone.failed⟩
        · rw [Prog.bind_of_ok hupdate, if_neg (by decide), Prog.bind_of_ok hload, Prog.bind_of_ok hfree]
          rfl
        · rw [Prog.bind_of_ok hvalue]
          simp only [reduceCtorEq, if_false]
          rw [hthread]
          rfl

end Copying

/-! ### Sorting and replacing -/

/-- The blocks of the current set: its array and its strings. -/
def FsMem.owned (s : FsMem) : List Nat :=
  match s.validFileSystems with
  | none => []
  | some array => array :: ((entriesAt s.heap array).take s.numValidFileSystems).filterMap id

theorem Lists.owned_eq {s : FsMem} {array : Nat} {ptrs : List Nat} {names : List CString}
    (hl : Lists s.heap array ptrs names) (hset : s.validFileSystems = some array)
    (hnum : s.numValidFileSystems = names.length) : s.owned = array :: ptrs := by
  obtain ⟨rest, harray⟩ := hl.array
  rw [FsMem.owned, hset]
  simp only
  rw [entriesAt, harray, hnum, ← hl.length_eq]
  simp only
  rw [List.take_append_of_le_length (by simp), List.take_of_length_le (by simp)]
  simp

/-- What a call that replaces the set leaves of the memory of before: all but the blocks of the old set. The
new set has blocks of its own. -/
structure Framed (s s' : FsMem) : Prop where
  same : ∀ p, p < s.heap.next → p ∉ s.owned → s'.heap.blocks p = s.heap.blocks p
  new : ∀ p ∈ s'.owned, s.heap.next ≤ p

section Replacing

variable {s : FsMem} {h0 h : Heap FsBlock} {new k : Nat} {done : List Nat} {names : List CString}

def textOf (h : Heap FsBlock) (p : Nat) : CString := (textAt h (some p)).getD []

theorem textOf_of_block {p : Nat} {name : CString} (hp : h.blocks p = some (.text name)) :
    textOf h p = name := by
  rw [textOf, textAt, Option.bind_some, hp]
  rfl

theorem texts_iff : done.map h.blocks = names.map (fun name => some (.text name)) ↔
    names = done.map (textOf h) ∧ ∀ p ∈ done, h.blocks p = some (.text (textOf h p)) := by
  constructor
  · intro htexts
    have hblocks : ∀ p ∈ done, h.blocks p = some (.text (textOf h p)) := by
      intro p hp
      have hmem : h.blocks p ∈ names.map fun name => some (.text name) := by
        rw [← htexts]
        exact List.mem_map_of_mem hp
      obtain ⟨name, -, hname⟩ := List.mem_map.mp hmem
      rw [textOf_of_block hname.symm, ← hname]
    refine ⟨?_, hblocks⟩
    have hsame : done.map h.blocks = (done.map (textOf h)).map fun name => some (.text name) := by
      rw [List.map_map]
      exact List.map_congr_left hblocks
    rw [hsame] at htexts
    refine (List.map_injective_iff.mpr ?_ htexts).symm
    intro a b hab
    cases hab
    rfl
  · rintro ⟨rfl, hblocks⟩
    rw [List.map_map]
    exact List.map_congr_left hblocks

theorem map_some_filterMap {l : List (Option Nat)} (hl : ∀ x ∈ l, x ≠ none) : (l.filterMap id).map some = l := by
  induction l with
  | nil => rfl
  | cons x l ih =>
      cases x with
      | none => exact absurd rfl (hl none List.mem_cons_self)
      | some p =>
          exact congrArg (some p :: ·) (ih fun y hy => hl y (List.mem_cons_of_mem _ hy))

theorem qsortEntries_lists (sorter : Sorter) {array : Nat} {ptrs : List Nat} (hl : Lists s.heap array ptrs names) :
    ∃ ptrs' names' entries, qsortEntries sorter array names.length s
        = .ok ((), { s with heap := s.heap.put array (.array entries) }) ∧
      ptrs'.Perm ptrs ∧ names'.Perm names ∧ Lists (s.heap.put array (.array entries)) array ptrs' names' ∧
      (names'.map some).Pairwise fun a b => fsTypeLE a b := by
  obtain ⟨hnames, hblocks⟩ := texts_iff.mp hl.texts
  obtain ⟨rest, harray⟩ := hl.array
  have hlength := hl.length_eq
  have htake : (ptrs.map some ++ none :: rest).take names.length = ptrs.map some := by
    rw [← hlength, List.take_append_of_le_length (by simp), List.take_of_length_le (by simp)]
  have hdrop : (ptrs.map some ++ none :: rest).drop names.length = none :: rest := by
    rw [← hlength, List.drop_append_of_le_length (by simp), List.drop_of_length_le (by simp)]
    rfl
  let le : Option Nat → Option Nat → Bool := fun a b => fsTypeLE (textAt s.heap a) (textAt s.heap b)
  have hperm := sorter.perm le (ptrs.map some)
  have hsorted : (sorter.sort le (ptrs.map some)).Pairwise fun a b => le a b = true := by
    refine sorter.sorted le _ ?_ fun a b => fsTypeLE_total _ _
    intro a b c hab hbc
    have hab' : (cmpValidFs (textAt s.heap a) (textAt s.heap b)).isLE = true := hab
    exact Std.TransCmp.isLE_trans hab' hbc
  -- the sorted entries are pointers again
  have hsome : ∀ x ∈ sorter.sort le (ptrs.map some), x ≠ none := by
    intro x hx
    obtain ⟨p, -, rfl⟩ := List.mem_map.mp (hperm.mem_iff.mp hx)
    exact nofun
  have hptrs : (sorter.sort le (ptrs.map some)).filterMap id |>.Perm ptrs := by
    have hfilter := hperm.filterMap id
    rwa [List.filterMap_map, show (id ∘ some : Nat → Option Nat) = some from rfl, List.filterMap_some] at hfilter
  generalize hsort : (sorter.sort le (ptrs.map some)).filterMap id = ptrs' at hptrs
  have hentries : sorter.sort le (ptrs.map some) = ptrs'.map some := by
    rw [← hsort, map_some_filterMap hsome]
  have hne : ∀ p ∈ ptrs', p ≠ array := fun p hp => hl.ne (hptrs.mem_iff.mp hp)
  refine ⟨ptrs', ptrs'.map (textOf s.heap), ptrs'.map some ++ none :: rest, ?_, hptrs, ?_,
    ⟨⟨rest, Heap.put_self _ _ _⟩, ?_⟩, ?_⟩
  · rw [qsortEntries, Prog.bind_of_ok (loadArray_run harray), Prog.bind_of_ok (Prog.gets_run _ _),
      if_neg (by simp; omega), htake, hdrop, if_pos hl.all_readable, ← hentries]
    rfl
  · rw [hnames]
    exact hptrs.map _
  · rw [List.map_map]
    apply List.map_congr_left
    intro p hp
    rw [Heap.put_of_ne (hne p hp)]
    exact hblocks p (hptrs.mem_iff.mp hp)
  · rw [hentries, List.pairwise_map] at hsorted
    rw [List.map_map, List.pairwise_map]
    apply hsorted.imp_of_mem
    intro p q hp hq hle
    have htext : ∀ r ∈ ptrs', some (textOf s.heap r) = textAt s.heap (some r) := by
      intro r hr
      rw [textAt, Option.bind_some, hblocks r (hptrs.mem_iff.mp hr)]
    rw [Function.comp_apply, Function.comp_apply, htext p hp, htext q hq]
    exact hle

theorem qsortEntries_run (sorter : Sorter) (hc : Copied h0 s.heap new 0 done names) :
    ∃ done' names' h', qsortEntries sorter new names.length s = .ok ((), { s with heap := h' }) ∧
      h'.Fresh ∧ (∀ p, p < new → h'.blocks p = h0.blocks p) ∧ (∀ p ∈ done', new < p) ∧ done'.Nodup ∧
      Lists h' new done' names' ∧ names'.Perm names ∧
      (names'.map some).Pairwise fun a b => fsTypeLE a b := by
  have harray : s.heap.blocks new = some (.array (done.map some ++ [none])) := by
    rw [hc.array]
    rfl
  have hlists : Lists s.heap new done names := by
    refine ⟨⟨[], harray⟩, ?_⟩
    have htexts := hc.texts
    rwa [List.drop_zero] at htexts
  obtain ⟨done', names', entries, hrun, hdone, hperm, hlists', hsorted⟩ := qsortEntries_lists sorter hlists
  refine ⟨done', names', _, hrun, hc.fresh.put (hc.fresh.lt harray), ?_, ?_, hdone.nodup_iff.mpr hc.nodup, hlists',
    hperm, hsorted⟩
  · intro p hp
    rw [Heap.put_of_ne (Nat.ne_of_lt hp)]
    exact hc.same p hp
  · intro p hp
    exact hc.above p (hdone.mem_iff.mp hp)

/-- The old set is given back: nothing changes but below the address that bounds it. -/
theorem replaceEntries_run {s0 : FsMem} (hinv : s0.Inv) (hset : s.validFileSystems = s0.validFileSystems)
    (hnum : s.numValidFileSystems = s0.numValidFileSystems)
    (hsame : ∀ p, p < s0.heap.next → s.heap.blocks p = s0.heap.blocks p) (hfresh : s.heap.Fresh)
    (x : Option Nat) (num : Nat) :
    ∃ h', replaceEntries x num s = .ok (.none, { s with
        heap := h', validFileSystems := x, numValidFileSystems := num }) ∧ h'.Fresh ∧
      (∀ p, s0.heap.next ≤ p → h'.blocks p = s.heap.blocks p) ∧
      ∀ p, p ∉ s0.owned → h'.blocks p = s.heap.blocks p := by
  rw [replaceEntries, Prog.bind_of_ok (Prog.gets_run _ _), Prog.bind_of_ok (Prog.modify_run _ _)]
  simp only [id]
  cases harray : s0.validFileSystems with
  | none =>
      refine ⟨s.heap, ?_, hfresh, fun _ _ => rfl, fun _ _ => rfl⟩
      rw [hset, harray]
      rfl
  | some array =>
      obtain ⟨ptrs, names, rest, hlists0, hnodup, hblock0, hlen, -⟩ := hinv.entries harray
      obtain ⟨hbelow, hptrs⟩ := hlists0.lt hinv.fresh
      have hlists : Lists s.heap array ptrs names :=
        hlists0.congr (hsame array hbelow) fun p hp => hsame p (hptrs p hp)
      have hblock : s.heap.blocks array = some (.array ([] ++ ptrs.map some ++ none :: rest)) := by
        rw [hsame array hbelow, hblock0]
        rfl
      have hfilter : (ptrs.map some).filterMap id = ptrs := by simp
      have hlive : ∀ p ∈ (ptrs.map some).filterMap id, p ≠ array ∧ s.heap.blocks p ≠ none := by
        rw [hfilter]
        intro p hp
        obtain ⟨name, hname⟩ := hlists.live hp
        exact ⟨hlists.ne hp, by rw [hname]; exact nofun⟩
      have hfree := @freeEntries_run
        { s with validFileSystems := x, numValidFileSystems := num } array [] (none :: rest) (ptrs.map some)
        hblock (by rw [hfilter]; exact hnodup) hlive
      rw [hfilter, List.length_map, hlists.length_eq, ← hlen, ← hnum, List.length_nil] at hfree
      have hdropped : (s.heap.dropAll ptrs).blocks array
          = some (.array ([] ++ ptrs.map some ++ none :: rest)) := by
        rw [Heap.dropAll_of_notMem fun hmem => hlists.ne hmem rfl, hblock]
      refine ⟨(s.heap.dropAll ptrs).drop array, ?_, (hfresh.dropAll ptrs).drop, ?_, ?_⟩
      · rw [hset, harray]
        simp only
        rw [Prog.bind_of_ok hfree, Prog.bind_of_ok (release_run hdropped)]
        rfl
      · intro p hp
        rw [Heap.drop_of_ne (Nat.ne_of_gt (lt_of_lt_of_le hbelow hp)),
          Heap.dropAll_of_notMem fun hmem => absurd (hptrs p hmem) (not_lt.mpr hp)]
      · intro p hp
        rw [hlists0.owned_eq harray hlen, List.mem_cons, not_or] at hp
        rw [Heap.drop_of_ne hp.1, Heap.dropAll_of_notMem hp.2]

end Replacing

/-! ### Setting the valid file systems -/

/-- The argument of `sg_set_valid_filesystems`: NULL, or an array of these names. Its strings, and the array
itself, may be those of the current set. -/
def Argument (s : FsMem) (validFs : Option Nat) (names : List CString) : Prop :=
  match validFs with
  | none => names = []
  | some array => ∃ ptrs, Lists s.heap array ptrs names

/-- What a call leaves with the code `rc`: the new set, or the old one as it was. -/
structure SetDone (s s' : FsMem) (names : List CString) (rc : SgError) : Prop where
  inv : s'.Inv
  names : rc = .none → s'.view.names.Perm names ∧ s'.numValidFileSystems = names.length
  kept : rc ≠ .none → s'.validFileSystems = s.validFileSystems ∧
    s'.numValidFileSystems = s.numValidFileSystems ∧
    ∀ p, p < s.heap.next → s'.heap.blocks p = s.heap.blocks p

section Setting

variable {s : FsMem} {array : Nat} {ptrs : List Nat} {names : List CString}

theorem countEntries_eq (ptrs : List Nat) (rest : List (Option Nat)) :
    countEntries (ptrs.map some ++ none :: rest) = some ptrs.length := by
  induction ptrs with
  | nil => rfl
  | cons p ptrs ih =>
      rw [List.map_cons, List.cons_append, countEntries, ih]
      rfl

theorem FsMem.Inv.kept {s' : FsMem} (h : s.Inv) (hset : s'.validFileSystems = s.validFileSystems)
    (hnum : s'.numValidFileSystems = s.numValidFileSystems) (hfresh : s'.heap.Fresh)
    (hsame : ∀ p, p < s.heap.next → s'.heap.blocks p = s.heap.blocks p) : s'.Inv := by
  refine ⟨hfresh, ?_, ?_⟩
  · intro hnone
    rw [hnum]
    exact h.empty (hset ▸ hnone)
  · intro array harray
    obtain ⟨ptrs, names, hlists, hnodup, hlen, hsorted⟩ := h.set array (hset ▸ harray)
    obtain ⟨hbelow, hptrs⟩ := hlists.lt h.fresh
    exact ⟨ptrs, names, hlists.congr (hsame array hbelow) fun p hp => hsame p (hptrs p hp), hnodup,
      hnum.trans hlen, hsorted⟩

theorem replaceEntries_empty (h : s.Inv) :
    ∃ s', replaceEntries none 0 s = .ok (.none, s') ∧ s'.toThread = s.toThread ∧ SetDone s s' [] .none ∧
      Framed s s' := by
  obtain ⟨h', hrun, hfresh, -, hframe⟩ := replaceEntries_run h rfl rfl (fun _ _ => rfl) h.fresh none 0
  refine ⟨_, hrun, rfl, ⟨⟨hfresh, fun _ => rfl, nofun⟩, fun _ => ⟨?_, rfl⟩, fun hne => absurd rfl hne⟩, ?_, nofun⟩
  · exact List.Perm.refl []
  · intro p _ hp
    exact hframe p hp

theorem replaceEntries_copied (sorter : Sorter) {s1 : FsMem} (h : s.Inv)
    (hset : s1.validFileSystems = s.validFileSystems) (hnum : s1.numValidFileSystems = s.numValidFileSystems)
    {done : List Nat} (hc : Copied s.heap s1.heap s.heap.next 0 done names) :
    ∃ s', (do
        qsortEntries sorter s.heap.next names.length
        replaceEntries (some s.heap.next) names.length : FsMemM SgError) s1 = .ok (.none, s') ∧
      s'.toThread = s1.toThread ∧ SetDone s s' names .none ∧ Framed s s' := by
  obtain ⟨done', names', h2, hsort, hfresh2, hsame2, habove, hnodup, hlists2, hperm, hsorted⟩ :=
    qsortEntries_run sorter hc
  obtain ⟨h3, hreplace, hfresh3, hsame3, hframe3⟩ :=
    @replaceEntries_run { s1 with heap := h2 } s h hset hnum hsame2 hfresh2 (some s.heap.next) names.length
  have hlists3 : Lists h3 s.heap.next done' names' :=
    hlists2.congr (hsame3 _ (le_refl _)) fun p hp => hsame3 p (le_of_lt (habove p hp))
  have hlen : names.length = names'.length := hperm.length_eq.symm
  refine ⟨_, (Prog.bind_of_ok hsort _).trans hreplace, rfl,
    ⟨⟨hfresh3, nofun, ?_⟩, fun _ => ⟨?_, rfl⟩, fun hne => absurd rfl hne⟩, ?_, ?_⟩
  · intro array harray
    cases harray
    exact ⟨done', names', hlists3, hnodup, hlen.trans hlists3.length_eq.symm, hsorted⟩
  · rw [view_names rfl hlists3 hlen]
    exact hperm
  · intro p hlt hp
    exact (hframe3 p hp).trans (hsame2 p hlt)
  · intro p hp
    rw [hlists3.owned_eq rfl hlen, List.mem_cons] at hp
    rcases hp with rfl | hp
    · exact le_refl _
    · exact le_of_lt (habove p hp)

/-- The first entries of a sorted array are the names, in some order. -/
theorem sortedNames_perm (t : Thread) (names : List CString) :
    (FsTypes.names ⟨t, some ((names.map some).mergeSort fsTypeLE ++ [none]), names.length⟩).Perm names := by
  have hperm := List.mergeSort_perm (names.map some) fsTypeLE
  have hlength : ((names.map some).mergeSort fsTypeLE).length = names.length := by
    rw [hperm.length_eq, List.length_map]
  have htake : ((names.map some).mergeSort fsTypeLE ++ [none]).take names.length
      = (names.map some).mergeSort fsTypeLE := by
    rw [← hlength, List.take_left']
    rfl
  rw [FsTypes.names, Option.getD_some, htake]
  have hfilter := hperm.filterMap id
  rwa [List.filterMap_map, show (id ∘ some : CString → Option CString) = some from rfl,
    List.filterMap_some] at hfilter

/-- What the call on the strings leaves, where the call on the addresses leaves `s'`. -/
structure ViewDone (s s' : FsMem) (names : List CString) (rc : SgError) (u : FsTypes) : Prop where
  thread : u.toThread = s'.toThread
  names : rc = .none → u.names.Perm names ∧ u.numValidFileSystems = names.length
  kept : rc ≠ .none → u.validFileSystems = s.view.validFileSystems ∧
    u.numValidFileSystems = s.view.numValidFileSystems

theorem setEmpty_view (h : s.Inv) {s' : FsMem} (hthread : s'.toThread = s.toThread) :
    ∃ u, (do
        dropFsTypes
        freeFsTypes s.view.validFileSystems s.view.numValidFileSystems
        return .none : FsTypesM SgError) s.view = .ok (.none, u) ∧ ViewDone s s' [] .none u := by
  refine ⟨{ s.view with validFileSystems := none, numValidFileSystems := 0 }, ?_, hthread.symm,
    fun _ => ⟨List.Perm.refl [], rfl⟩, fun hne => absurd rfl hne⟩
  rw [dropFsTypes, Prog.bind_of_ok (Prog.modify_run _ _), Prog.bind_of_ok (freeFsTypes_run h.settled _)]
  rfl

/-- The part of the call for which there is a new array: it copies, sorts and replaces. -/
theorem setCopies_run (sorter : Sorter) (h : s.Inv) (hlists : Lists s.heap array ptrs names) :
    ∃ rc s' u, (do
        let new ← Prog.gets fun m => m.heap.next
        onHeap fun h => h.place (.array (List.replicate (names.length + 1) none))
        let errc ← copyEntries new array names.length
        if errc = .none then
          qsortEntries sorter new names.length
          replaceEntries (some new) names.length
        else return errc : FsMemM SgError) { s with toThread := s.toThread.answered } = .ok (rc, s') ∧
      SetDone s s' names rc ∧ (do
        let rc ← onFsThread (copyFsTypes names.reverse)
        if rc = .none then
          Prog.modify fun s => { s with
            validFileSystems := some ((names.map some).mergeSort fsTypeLE ++ [none])
            numValidFileSystems := names.length }
          freeFsTypes s.view.validFileSystems s.view.numValidFileSystems
          return .none
        else return rc : FsTypesM SgError) s.view.answered = .ok (rc, u) ∧
      ViewDone s s' names rc u ∧ (rc = .none → Framed s s') := by
  -- the new array is behind everything the caller or the component can point to
  have hc : Copied s.heap (s.heap.place (.array (List.replicate (names.length + 1) none))) s.heap.next
      names.length [] names := by
    refine ⟨h.fresh.place, ?_, ?_, ?_, nofun, List.nodup_nil⟩
    · intro q hq
      exact Heap.place_of_ne (Nat.ne_of_lt hq)
    · rw [Heap.place_self, List.replicate_succ']
      simp
    · simp
  obtain ⟨rc, s2, hcopy, hcopyView, hdone⟩ := @copyEntries_run
    { s with
      toThread := s.toThread.answered
      heap := s.heap.place (.array (List.replicate (names.length + 1) none)) }
    s.heap array s.heap.next _ ptrs [] names hlists h.fresh rfl hc (le_refl _)
  rw [List.take_length] at hcopyView
  have hcopyView' := @onFsThread_run s.view.answered _ _ _ _ hcopyView
  rw [Prog.bind_of_ok (Prog.gets_run _ _), onHeap, Prog.bind_of_ok (Prog.modify_run _ _),
    Prog.bind_of_ok hcopy, Prog.bind_of_ok hcopyView']
  by_cases hrc : rc = .none
  · obtain ⟨done, hcopied⟩ := hdone.copied hrc
    obtain ⟨s', hrun, hthread, hset, hframed⟩ :=
      replaceEntries_copied sorter h hdone.globals.1 hdone.globals.2 hcopied
    subst hrc
    rw [if_pos rfl, if_pos rfl, Prog.bind_of_ok (Prog.modify_run _ _),
      Prog.bind_of_ok (freeFsTypes_run h.settled _)]
    exact ⟨.none, s', _, hrun, hset, rfl, ⟨hthread.symm,
      fun _ => ⟨sortedNames_perm s2.toThread names, rfl⟩, fun hne => absurd rfl hne⟩, fun _ => hframed⟩
  · obtain ⟨hfresh, hsame⟩ := hdone.failed hrc
    rw [if_neg hrc, if_neg hrc]
    exact ⟨rc, s2, _, rfl, ⟨h.kept hdone.globals.1 hdone.globals.2 hfresh hsame,
      fun heq => absurd heq hrc, fun _ => ⟨hdone.globals.1, hdone.globals.2, hsame⟩⟩, rfl, ⟨rfl,
      fun heq => absurd heq hrc, fun _ => ⟨rfl, rfl⟩⟩, fun heq => absurd heq hrc⟩

/-- The call runs to its end, whatever its argument has in common with the current set, and it does what
the call on the strings themselves does. -/
theorem sgSetValidFilesystemsAt_run (sorter : Sorter) (h : s.Inv) {validFs : Option Nat}
    (harg : Argument s validFs names) :
    ∃ rc s' u, sgSetValidFilesystemsAt sorter validFs s = .ok (rc, s') ∧ SetDone s s' names rc ∧
      sgSetValidFilesystems (validFs.map fun _ => names) s.view = .ok (rc, u) ∧
      ViewDone s s' names rc u ∧ (rc = .none → Framed s s') := by
  cases validFs with
  | none =>
      obtain rfl : names = [] := harg
      obtain ⟨s', hrun, hthread, hdone, hframed⟩ := replaceEntries_empty h
      obtain ⟨u, hview, hudone⟩ := setEmpty_view h hthread
      exact ⟨.none, s', u, hrun, hdone, hview, hudone, fun _ => hframed⟩
  | some array =>
      obtain ⟨ptrs, hlists⟩ := harg
      obtain ⟨rest, harray⟩ := hlists.array
      cases ptrs with
      | nil =>
          obtain rfl : names = [] := List.length_eq_zero_iff.mp hlists.length_eq.symm
          have hfirst : loadEntry array 0 s = .ok (none, s) := loadEntry_run harray rfl
          obtain ⟨s', hrun, hthread, hdone, hframed⟩ := replaceEntries_empty h
          obtain ⟨u, hview, hudone⟩ := setEmpty_view h hthread
          refine ⟨.none, s', u, ?_, hdone, hview, hudone, fun _ => hframed⟩
          rw [sgSetValidFilesystemsAt, Prog.bind_of_ok hfirst]
          exact hrun
      | cons p ptrs =>
          have hlength := hlists.length_eq
          obtain ⟨name, names, rfl⟩ := List.exists_cons_of_length_eq_add_one hlength.symm
          have hfirst : loadEntry array 0 s = .ok (some p, s) := loadEntry_run harray rfl
          have hcalloc : calloc s.toThread = .ok (s.mem 0, s.toThread.answered) := rfl
          rw [sgSetValidFilesystemsAt, Prog.bind_of_ok hfirst]
          simp only
          rw [Prog.bind_of_ok (loadArray_run harray), countEntries_eq]
          simp only
          rw [Prog.bind_of_ok (onMemThread_run hcalloc), hlength, sgSetValidFilesystems,
            Prog.bind_of_ok (Prog.gets_run _ _)]
          simp only [id, Option.map_some]
          rw [Prog.bind_of_ok (onFsThread_calloc s.view), show s.view.mem 0 = s.mem 0 from rfl]
          cases hmem : s.mem 0 with
          | false =>
              have hcode : SgError.malloc ≠ .none := by decide
              exact ⟨.malloc, _, _, rfl, ⟨h.kept rfl rfl h.fresh fun _ _ => rfl, fun hcon => absurd hcon hcode,
                fun _ => ⟨rfl, rfl, fun _ _ => rfl⟩⟩, rfl, ⟨rfl, fun hcon => absurd hcon hcode,
                fun _ => ⟨rfl, rfl⟩⟩, fun hcon => absurd hcon hcode⟩
          | true => exact setCopies_run sorter h hlists

end Setting

/-- `sg_set_valid_filesystems` on every settled set, every list and every answer of the allocator: after a
success the valid types are the names of the list, whatever their case; after an error the array, the
number, what they lead to and the valid types are those of before. -/
theorem sgSetValidFilesystemsAt_valid (sorter : Sorter) (s : FsMem) (h : s.Inv) (validFs : Option Nat)
    (names : List CString) (harg : Argument s validFs names) :
    ∃ rc s', sgSetValidFilesystemsAt sorter validFs s = .ok (rc, s') ∧ s'.Inv ∧
      (rc = .none → ∀ type, ∃ valid, isValidFsTypeAt type s' = .ok (valid, s') ∧
        (valid = true ↔ ∃ name ∈ names, name.map lowerAscii = type.map lowerAscii)) ∧
      (rc ≠ .none → s'.validFileSystems = s.validFileSystems ∧
        s'.numValidFileSystems = s.numValidFileSystems ∧
        (∀ p, p < s.heap.next → s'.heap.blocks p = s.heap.blocks p) ∧
        ∀ type, ∃ valid, isValidFsTypeAt type s = .ok (valid, s) ∧
          isValidFsTypeAt type s' = .ok (valid, s')) := by
  obtain ⟨rc, s', -, hrun, hdone, -⟩ := sgSetValidFilesystemsAt_run sorter h harg
  refine ⟨rc, s', hrun, hdone.inv, ?_, ?_⟩
  · intro hrc type
    refine ⟨_, isValidFsTypeAt_run hdone.inv type, ?_⟩
    obtain ⟨hperm, -⟩ := hdone.names hrc
    simp only [isValidFsType, List.any_eq_true, decide_eq_true_eq, hperm.mem_iff]
  · intro hrc
    obtain ⟨hset, hnum, hsame⟩ := hdone.kept hrc
    refine ⟨hset, hnum, hsame, ?_⟩
    intro type
    have hnames : s'.view.names = s.view.names := by
      cases harray : s.validFileSystems with
      | none =>
          have hnone : s'.validFileSystems = none := hset.trans harray
          simp only [FsTypes.names, FsMem.view, harray, hnone, Option.map_none, Option.getD_none, List.take_nil]
      | some array =>
          obtain ⟨ptrs, names', rest, hlists, -, -, hlen, -⟩ := h.entries harray
          obtain ⟨hbelow, hptrs⟩ := hlists.lt h.fresh
          have hlists' : Lists s'.heap array ptrs names' :=
            hlists.congr (hsame array hbelow) fun p hp => hsame p (hptrs p hp)
          rw [view_names harray hlists hlen, view_names (hset.trans harray) hlists' (hnum.trans hlen)]
    refine ⟨_, isValidFsTypeAt_run h type, ?_⟩
    rw [isValidFsTypeAt_run hdone.inv type, hnames]

/-- `qsort` as a merge sort. -/
def mergeSorter : Sorter where
  sort := fun le l => l.mergeSort le
  perm := fun le l => List.mergeSort_perm l le
  sorted := fun _ l htrans htotal => List.pairwise_mergeSort htrans htotal l

def twoTypes : FsMem :=
  { glob := .clear
    mem := fun _ => true
    heap :=
      { blocks := fun p => [some (.text (literal "ext4")), some (.text (literal "xfs")),
          some (.array [some 0, some 1, none])].getD p none
        next := 3 }
    validFileSystems := some 2
    numValidFileSystems := 2 }

theorem twoTypes_lists : Lists twoTypes.heap 2 [0, 1] [literal "ext4", literal "xfs"] :=
  ⟨⟨[], rfl⟩, rfl⟩

theorem twoTypes_inv : twoTypes.Inv := by
  refine ⟨?_, nofun, ?_⟩
  · intro p hp
    exact List.getD_eq_default _ _ hp
  · intro array harray
    cases harray
    exact ⟨[0, 1], [literal "ext4", literal "xfs"], twoTypes_lists, by decide, rfl, by decide +kernel⟩

/-- The current array is set again. -/
theorem sgSetValidFilesystemsAt_current :
    ∃ s', sgSetValidFilesystemsAt mergeSorter (some 2) twoTypes = .ok (.none, s') ∧ s'.Inv ∧
      isValidFsTypeAt (literal "EXT4") s' = .ok (true, s') ∧ isValidFsTypeAt (literal "xfs") s' = .ok (true, s') ∧
      isValidFsTypeAt (literal "ext3") s' = .ok (false, s') := by
  obtain ⟨rc, s', hrun, hinv, hvalid, -⟩ := sgSetValidFilesystemsAt_valid mergeSorter twoTypes twoTypes_inv
    (some 2) [literal "ext4", literal "xfs"] ⟨[0, 1], twoTypes_lists⟩
  have hcode : (sgSetValidFilesystemsAt mergeSorter (some 2) twoTypes).toOption.map Prod.fst = some .none := by
    decide +kernel
  rw [hrun] at hcode
  obtain rfl : rc = .none := Option.some.inj hcode
  refine ⟨s', hrun, hinv, ?_, ?_, ?_⟩
  · obtain ⟨valid, hrun', hiff⟩ := hvalid rfl (literal "EXT4")
    rw [hrun', hiff.mpr (by decide +kernel)]
  · obtain ⟨valid, hrun', hiff⟩ := hvalid rfl (literal "xfs")
    rw [hrun', hiff.mpr (by decide +kernel)]
  · obtain ⟨valid, hrun', hiff⟩ := hvalid rfl (literal "ext3")
    have hnot : valid ≠ true := fun h => absurd (hiff.mp h) (by decide +kernel)
    rw [hrun', Bool.eq_false_of_not_eq_true hnot]

end Statgrab
