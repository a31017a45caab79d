import Statgrab.Command.StatNames

/-!
# The array of the stats

`add_stat` and `clear_stats` with their memory. A name is a block of its own, and the array has `alloc_stats`
slots, of which the first `num_stats` are in use. The names that live are those of the slots in use.

The array refines the one of `Statgrab.Command.Sections`, which has the stats themselves.
-/

namespace Statgrab

open Text

/-! ### The code -/

/-- Why a function does not return: a misuse of a block, the use of a name that was given back, an `alloc_stats`
that is no `int`, or an exit of the command through `die` with its text. -/
inductive StatStop where
  | misuse (m : Misuse)
  | released
  | overflow
  | die (text : List UInt8)
  deriving DecidableEq

/-- What a slot of `stat_items` holds, with the addresses of the name and of the value. -/
structure StatSlot where
  name : Nat
  type : StatType
  stat : Nat
  deriving DecidableEq

/-- The names, and `stat_items`, which is NULL at first; a slot that was not written has no value. `mem` has the
answers the allocator will give. -/
structure StatMem where
  heap : Heap Cells
  statItems : Option (List (Option StatSlot))
  numStats : Nat
  allocStats : Nat
  mem : Nat → Bool

abbrev StatMemM := Prog StatStop StatMem

/-- What `add_stat` is called with. -/
structure StatArgs where
  type : StatType
  stat : Nat
  parts : List CString
  deriving DecidableEq

namespace StatMem

def granted : StatMemM Bool := fun s => .ok (s.mem 0, { s with mem := fun n => s.mem (n + 1) })

def malloc (size : Nat) : StatMemM (Option Nat) := do
  let ok ← granted
  if ok then
    let new ← Prog.gets fun s => s.heap.next
    Prog.modify fun s => { s with heap := s.heap.place (List.replicate size none) }
    return some new
  else return none

def free (name : Nat) : StatMemM Unit := fun s =>
  match s.heap.blocks name with
  | some _ => .ok ((), { s with heap := s.heap.drop name })
  | none => .error .released

def outOfMemory {α : Type} : StatMemM α := Prog.fault (.die (bytes "out of memory"))

def paste (name : Nat) (parts : List CString) : StatMemM Unit := fun s =>
  match s.heap.blocks name with
  | none => .error .released
  | some block =>
      match pasteName parts block with
      | .error m => .error (.misuse m)
      | .ok block => .ok ((), { s with heap := s.heap.put name block })

/-- `realloc(stat_items, n * sizeof *stat_items)`. -/
def growSlots (slots : List (Option StatSlot)) (n : Nat) : List (Option StatSlot) :=
  slots.take n ++ List.replicate (n - slots.length) none

def stretch : StatMemM Unit := do
  let s ← Prog.gets id
  if s.allocStats ≤ s.numStats then
    if 2 ^ 31 ≤ s.allocStats + incrementStats then Prog.fault .overflow
    else do
      let ok ← granted
      if ok then
        Prog.modify fun s => { s with
          statItems := some (growSlots (s.statItems.getD []) (s.allocStats + incrementStats))
          allocStats := s.allocStats + incrementStats }
      else outOfMemory
  else return ()

/-- The slot at `num_stats` is written, and is in use then. -/
def storeSlot (slot : StatSlot) : StatMemM Unit := fun s =>
  match s.statItems with
  | none => .error (.misuse .null)
  | some slots =>
      if s.numStats < slots.length then
        .ok ((), { s with statItems := some (slots.set s.numStats (some slot)), numStats := s.numStats + 1 })
      else .error (.misuse .outside)

def loadSlot (i : Nat) : StatMemM StatSlot := fun s =>
  match s.statItems with
  | none => .error (.misuse .null)
  | some slots =>
      match slots[i]? with
      | none => .error (.misuse .outside)
      | some none => .error (.misuse .unset)
      | some (some slot) => .ok (slot, s)

def addStat (mode : DisplayMode) (args : StatArgs) : StatMemM Unit :=
  if skipped mode args.type then return ()
  else do
    let name ← malloc (toSize (nameLen args.parts))
    match name with
    | none => outOfMemory
    | some name => do
        paste name args.parts
        stretch
        storeSlot ⟨name, args.type, args.stat⟩

/-- The loop of `clear_stats` from `i` on. -/
def freeNames : Nat → Nat → StatMemM Unit
  | 0, _ => return ()
  | left + 1, i => do
      let slot ← loadSlot i
      free slot.name
      freeNames left (i + 1)

def clearStats : StatMemM Unit := do
  let numStats ← Prog.gets fun s => s.numStats
  freeNames numStats 0
  Prog.modify fun s => { s with numStats := 0 }

end StatMem

inductive StatCall where
  | add (args : StatArgs)
  | clear
  deriving DecidableEq

namespace StatMem

def call (mode : DisplayMode) : StatCall → StatMemM Unit
  | .add args => addStat mode args
  | .clear => clearStats

def calls (mode : DisplayMode) : List StatCall → StatMemM Unit
  | [] => return ()
  | c :: cs => do
      call mode c
      calls mode cs

def start (mem : Nat → Bool) : StatMem := ⟨⟨fun _ => none, 0⟩, none, 0, 0, mem⟩

/-! ### The array -/

/-- The slots that are in use, with those behind them. -/
structure Slots (s : StatMem) (slots : List StatSlot) : Prop where
  array : ∃ rest, s.statItems.getD [] = slots.map some ++ rest
  num : s.numStats = slots.length
  alloc : (s.statItems.getD []).length = s.allocStats
  unit : incrementStats ∣ s.allocStats
  int : s.allocStats < 2 ^ 31

section

variable {s : StatMem} {slots : List StatSlot}

theorem Slots.le (h : s.Slots slots) : s.numStats ≤ s.allocStats := by
  obtain ⟨rest, harray⟩ := h.array
  rw [← h.alloc, harray, h.num, List.length_append, List.length_map]
  exact Nat.le_add_right _ _

theorem growSlots_eq {array : List (Option StatSlot)} {n : Nat} (hn : array.length ≤ n) :
    growSlots array n = array ++ List.replicate (n - array.length) none := by
  rw [growSlots, List.take_of_length_le hn]

theorem granted_run (s : StatMem) : granted s = .ok (s.mem 0, { s with mem := fun n => s.mem (n + 1) }) := rfl

/-- The array has room behind its slots, the allocator refuses, or `alloc_stats` would be too large. -/
theorem stretch_run (h : s.Slots slots) :
    (∃ s', stretch s = .ok ((), s') ∧ s'.Slots slots ∧ s'.numStats < s'.allocStats ∧ s'.heap = s.heap ∧
      (s'.allocStats = if s.allocStats ≤ slots.length then s.allocStats + incrementStats else s.allocStats) ∧
      ∀ n, s'.mem n = false → ∃ m, s.mem m = false) ∨
    (stretch s = .error (.die (bytes "out of memory")) ∧ s.mem 0 = false) ∨
    (stretch s = .error .overflow ∧ slots.length = 2 ^ 31 - incrementStats) := by
  rw [stretch, Prog.bind_of_ok (Prog.gets_run id s), ← h.num]
  simp only [id]
  by_cases hfull : s.allocStats ≤ s.numStats
  · rw [if_pos hfull, if_pos hfull]
    have hsame : s.allocStats = s.numStats := Nat.le_antisymm hfull h.le
    by_cases hbig : 2 ^ 31 ≤ s.allocStats + incrementStats
    · -- the sizes are multiples of 64, so only the largest one comes here
      refine .inr (.inr ⟨?_, ?_⟩)
      · rw [if_pos hbig]
        rfl
      · obtain ⟨k, hk⟩ := h.unit
        have hint := h.int
        rw [← hsame]
        rw [incrementStats] at hk hbig ⊢
        omega
    · rw [if_neg hbig, Prog.bind_of_ok (granted_run s)]
      cases hmem : s.mem 0 with
      | false => exact .inr (.inl ⟨rfl, rfl⟩)
      | true =>
          have hgrown := @growSlots_eq (s.statItems.getD []) (s.allocStats + incrementStats)
            (h.alloc.le.trans (Nat.le_add_right _ _))
          refine .inl ⟨_, rfl, ⟨?_, h.num, ?_, ?_, ?_⟩, ?_, rfl, rfl, fun n hn => ⟨n + 1, hn⟩⟩
          · obtain ⟨rest, harray⟩ := h.array
            refine ⟨rest ++ List.replicate (s.allocStats + incrementStats - (s.statItems.getD []).length) none, ?_⟩
            show growSlots _ _ = _
            rw [hgrown, harray, List.append_assoc]
          · show (growSlots _ _).length = _
            rw [hgrown, List.length_append, List.length_replicate, h.alloc, Nat.add_sub_cancel_left]
          · exact Nat.dvd_add h.unit (Nat.dvd_refl _)
          · exact Nat.lt_of_not_le hbig
          · show s.numStats < s.allocStats + incrementStats
            rw [hsame]
            exact Nat.lt_add_of_pos_right (by decide)
  · rw [if_neg hfull, if_neg hfull]
    exact .inl ⟨s, rfl, h, Nat.lt_of_not_le hfull, rfl, rfl, fun n hn => ⟨n, hn⟩⟩

theorem storeSlot_run (h : s.Slots slots) (hroom : s.numStats < s.allocStats) (slot : StatSlot) :
    ∃ s', storeSlot slot s = .ok ((), s') ∧ s'.Slots (slots ++ [slot]) ∧ s'.heap = s.heap ∧ s'.mem = s.mem ∧
      s'.allocStats = s.allocStats ∧ s'.statItems.isSome = true := by
  obtain ⟨rest, harray⟩ := h.array
  have halloc := h.alloc
  cases hitems : s.statItems with
  | none =>
      rw [hitems, Option.getD_none, List.length_nil] at halloc
      omega
  | some array =>
      rw [hitems, Option.getD_some] at harray halloc
      have hlt : s.numStats < array.length := halloc ▸ hroom
      cases rest with
      | nil =>
          rw [h.num, harray, List.append_nil, List.length_map] at hlt
          exact absurd hlt (Nat.lt_irrefl _)
      | cons x rest =>
          have hset : array.set s.numStats (some slot) = (slots ++ [slot]).map some ++ rest := by
            rw [harray, h.num, ← List.length_map (f := some), List.set_append_right _ _ (Nat.le_refl _), Nat.sub_self,
              List.set_cons_zero, List.map_append, List.append_assoc]
            rfl
          refine ⟨{ s with statItems := some (array.set s.numStats (some slot)), numStats := s.numStats + 1 }, ?_,
            ⟨⟨rest, hset⟩, ?_, ?_, h.unit, h.int⟩, rfl, rfl, rfl, rfl⟩
          · simp only [storeSlot, hitems, if_pos hlt]
          · show s.numStats + 1 = _
            rw [h.num, List.length_append, List.length_singleton]
          · show (array.set s.numStats (some slot)).length = _
            rw [List.length_set]
            exact halloc

end

/-! ### The names -/

/-- The slot of a stat whose name is at this address. -/
def slotOf (n : Nat × StatArgs) : StatSlot := ⟨n.1, n.2.type, n.2.stat⟩

/-- The blocks are the names of these stats, each at its address. -/
structure Names (h : Heap Cells) (ns : List (Nat × StatArgs)) : Prop where
  name : ∀ n ∈ ns, h.blocks n.1 = some ((statName n.2.parts ++ [0]).map some)
  nodup : (ns.map Prod.fst).Nodup
  live : ∀ p, h.blocks p ≠ none → p ∈ ns.map Prod.fst
  fresh : h.Fresh

section

variable {h : Heap Cells} {ns : List (Nat × StatArgs)}

theorem Names.notMem (hn : Names h ns) : h.next ∉ ns.map Prod.fst := by
  intro hmem
  obtain ⟨n, hn', hnext⟩ := List.mem_map.mp hmem
  have hlt := hn.fresh.lt (hn.name n hn')
  exact Nat.lt_irrefl _ (hnext ▸ hlt)

theorem Names.add (hn : Names h ns) (raw : Cells) (args : StatArgs) :
    Names ((h.place raw).put h.next ((statName args.parts ++ [0]).map some)) (ns ++ [(h.next, args)]) := by
  have hother : ∀ p, p ≠ h.next →
      ((h.place raw).put h.next ((statName args.parts ++ [0]).map some)).blocks p = h.blocks p := by
    intro p hp
    rw [Heap.put_of_ne hp, Heap.place_of_ne hp]
  refine ⟨?_, ?_, ?_, hn.fresh.place.put (Nat.lt_succ_self _)⟩
  · intro n hmem
    rcases List.mem_append.mp hmem with hmem | hmem
    · rw [hother n.1 fun heq => hn.notMem (heq ▸ List.mem_map_of_mem hmem)]
      exact hn.name n hmem
    · rw [List.mem_singleton.mp hmem]
      exact Heap.put_self _ _ _
  · rw [List.map_append, List.nodup_append]
    refine ⟨hn.nodup, List.nodup_singleton _, ?_⟩
    intro p hp q hq heq
    have hnext : p = h.next := heq.trans (List.mem_singleton.mp hq)
    exact hn.notMem (hnext ▸ hp)
  · intro p hp
    rw [List.map_append, List.mem_append]
    by_cases hnext : p = h.next
    · exact .inr (List.mem_singleton.mpr hnext)
    · rw [hother p hnext] at hp
      exact .inl (hn.live p hp)

theorem Names.dropAll (hn : Names h ns) : Names (h.dropAll (ns.map Prod.fst)) [] := by
  refine ⟨fun n hmem => absurd hmem List.not_mem_nil, List.nodup_nil, ?_, hn.fresh.dropAll _⟩
  intro p hp
  by_cases hmem : p ∈ ns.map Prod.fst
  · exact absurd (Heap.dropAll_of_mem hmem) hp
  · rw [Heap.dropAll_of_notMem hmem] at hp
    exact absurd (hn.live p hp) hmem

end

/-- The stats that are stored, with the addresses of their names. -/
structure Stored (s : StatMem) (ns : List (Nat × StatArgs)) : Prop where
  slots : s.Slots (ns.map slotOf)
  names : Names s.heap ns

/-- What `add_stat` may be called with: some parts without NULs, with a name whose length is an `int`. -/
structure Named (parts : List CString) : Prop where
  some : parts ≠ []
  text : ∀ part ∈ parts, 0 ∉ part
  size : nameSize parts < 2 ^ 31

section

variable {s : StatMem} {ns : List (Nat × StatArgs)} {args : StatArgs}

theorem malloc_of_mem (hmem : s.mem 0 = true) (size : Nat) :
    malloc size s = .ok (some s.heap.next, { s with
      heap := s.heap.place (List.replicate size none), mem := fun n => s.mem (n + 1) }) := by
  rw [malloc, Prog.bind_of_ok (granted_run s), hmem]
  rfl

theorem malloc_of_not_mem (hmem : s.mem 0 = false) (size : Nat) :
    malloc size s = .ok (none, { s with mem := fun n => s.mem (n + 1) }) := by
  rw [malloc, Prog.bind_of_ok (granted_run s), hmem]
  rfl

theorem paste_run {name : Nat} {parts : List CString} (hparts : Named parts) {block : Cells}
    (hname : s.heap.blocks name = some block) (hsize : block.length = nameSize parts) :
    paste name parts s = .ok ((), { s with heap := s.heap.put name ((statName parts ++ [0]).map some) }) := by
  rw [paste, hname]
  simp only
  rw [pasteName_run hparts.some hsize hparts.size]

/-- A stat is stored behind the others, the allocator refuses, or the array is as large as it may be. -/
theorem addStat_run {mode : DisplayMode} (h : s.Stored ns) (hskip : skipped mode args.type = false)
    (hargs : Named args.parts) :
    (∃ s', addStat mode args s = .ok ((), s') ∧ s'.Stored (ns ++ [(s.heap.next, args)]) ∧
      s'.statItems.isSome = true ∧
      (s'.allocStats = if s.allocStats ≤ ns.length then s.allocStats + incrementStats else s.allocStats) ∧
      ∀ n, s'.mem n = false → ∃ m, s.mem m = false) ∨
    (addStat mode args s = .error (.die (bytes "out of memory")) ∧ ∃ n, s.mem n = false) ∨
    (addStat mode args s = .error .overflow ∧ ns.length = 2 ^ 31 - incrementStats) := by
  rw [addStat, if_neg (by simp [hskip]), nameLen_eq hargs.size, toSize_of_lt hargs.size]
  cases hmem : s.mem 0 with
  | false =>
      rw [Prog.bind_of_ok (malloc_of_not_mem hmem _)]
      exact .inr (.inl ⟨rfl, 0, hmem⟩)
  | true =>
      let raw : Cells := List.replicate (nameSize args.parts) none
      let s1 : StatMem := { s with
        heap := (s.heap.place raw).put s.heap.next ((statName args.parts ++ [0]).map some)
        mem := fun n => s.mem (n + 1) }
      have hpaste := @paste_run { s with heap := s.heap.place raw, mem := fun n => s.mem (n + 1) } s.heap.next
        args.parts hargs raw (Heap.place_self _ _) List.length_replicate
      have hslots : s1.Slots (ns.map slotOf) :=
        ⟨h.slots.array, h.slots.num, h.slots.alloc, h.slots.unit, h.slots.int⟩
      have hlen : (ns.map slotOf).length = ns.length := List.length_map _
      rw [Prog.bind_of_ok (malloc_of_mem hmem _)]
      simp only
      rw [Prog.bind_of_ok hpaste]
      rcases stretch_run hslots with
        ⟨s2, hstretch, hslots2, hroom, hheap2, halloc2, hmem2⟩ | ⟨hdie, hrefused⟩ | ⟨hover, hfull⟩
      · obtain ⟨s3, hstore, hslots3, hheap3, hmem3, halloc3, hsome3⟩ :=
          storeSlot_run hslots2 hroom (slotOf (s.heap.next, args))
        refine .inl ⟨s3, ?_, ⟨?_, ?_⟩, hsome3, ?_, ?_⟩
        · rw [Prog.bind_of_ok hstretch]
          exact hstore
        · rw [List.map_append, List.map_singleton]
          exact hslots3
        · rw [hheap3, hheap2]
          exact h.names.add raw args
        · rw [halloc3, halloc2, hlen]
        · intro n hn
          rw [hmem3] at hn
          obtain ⟨m, hm⟩ := hmem2 n hn
          exact ⟨m + 1, hm⟩
      · exact .inr (.inl ⟨Prog.bind_of_error hdie _, 1, hrefused⟩)
      · exact .inr (.inr ⟨Prog.bind_of_error hover _, hlen ▸ hfull⟩)

theorem freeNames_run {pre : List (Option StatSlot)}
    (harray : ∃ rest, s.statItems.getD [] = pre ++ (ns.map slotOf).map some ++ rest)
    (hlive : ∀ n ∈ ns, (s.heap.blocks n.1).isSome = true) (hnodup : (ns.map Prod.fst).Nodup) :
    freeNames ns.length pre.length s = .ok ((), { s with heap := s.heap.dropAll (ns.map Prod.fst) }) := by
  induction ns generalizing s pre with
  | nil => rfl
  | cons n ns ih =>
      obtain ⟨rest, harray⟩ := harray
      rw [List.forall_mem_cons] at hlive
      rw [List.map_cons, List.nodup_cons] at hnodup
      obtain ⟨block, hblock⟩ := Option.isSome_iff_exists.mp hlive.1
      have hslot : (s.statItems.getD [])[pre.length]? = some (some (slotOf n)) := by
        rw [harray, List.append_assoc, List.getElem?_append_right (Nat.le_refl _), Nat.sub_self]
        rfl
      have hload : loadSlot pre.length s = .ok (slotOf n, s) := by
        cases hitems : s.statItems with
        | none =>
            rw [hitems, Option.getD_none, List.getElem?_nil] at hslot
            cases hslot
        | some array =>
            rw [hitems, Option.getD_some] at hslot
            simp only [loadSlot, hitems, hslot]
      have hfree : free (slotOf n).name s = .ok ((), { s with heap := s.heap.drop n.1 }) := by
        rw [free, slotOf, hblock]
      have hrest : ∀ m ∈ ns, ((s.heap.drop n.1).blocks m.1).isSome = true := by
        intro m hm
        have hmem : m.1 ∈ ns.map Prod.fst := List.mem_map_of_mem hm
        have hne : m.1 ≠ n.1 := fun heq => hnodup.1 (heq ▸ hmem)
        rw [Heap.drop_of_ne hne]
        exact hlive.2 m hm
      have hnext := @ih { s with heap := s.heap.drop n.1 } (pre ++ [some (slotOf n)])
        ⟨rest, by rw [harray]; simp⟩ hrest hnodup.2
      rw [List.length_append, List.length_singleton] at hnext
      rw [List.length_cons, freeNames, Prog.bind_of_ok hload, Prog.bind_of_ok hfree, hnext]
      rfl

theorem clearStats_run (h : s.Stored ns) :
    ∃ s', clearStats s = .ok ((), s') ∧ s'.Stored [] ∧ s'.statItems = s.statItems ∧ s'.allocStats = s.allocStats ∧
      s'.mem = s.mem := by
  have harray : ∃ rest, s.statItems.getD [] = [] ++ (ns.map slotOf).map some ++ rest := h.slots.array
  have hlive : ∀ n ∈ ns, (s.heap.blocks n.1).isSome = true := by
    intro n hn
    rw [h.names.name n hn]
    rfl
  have hnum : s.numStats = ns.length := h.slots.num.trans (List.length_map _)
  have hfree : freeNames ns.length 0 s = .ok ((), { s with heap := s.heap.dropAll (ns.map Prod.fst) }) :=
    freeNames_run harray hlive h.names.nodup
  refine ⟨{ s with heap := s.heap.dropAll (ns.map Prod.fst), numStats := 0 }, ?_,
    ⟨⟨⟨_, rfl⟩, rfl, h.slots.alloc, h.slots.unit, h.slots.int⟩, h.names.dropAll⟩, rfl, rfl, rfl⟩
  rw [clearStats, Prog.bind_of_ok (Prog.gets_run _ s), hnum, Prog.bind_of_ok hfree]
  rfl

end

/-! ### Runs -/

def after (mode : DisplayMode) (stats : List StatArgs) : StatCall → List StatArgs
  | .add args => if skipped mode args.type then stats else stats ++ [args]
  | .clear => []

def sinceClear (mode : DisplayMode) (cs : List StatCall) : List StatArgs := cs.foldl (after mode) []

def ValidCall : StatCall → Prop
  | .add args => Named args.parts
  | .clear => True

/-- The stat as the rest of the command sees it. -/
def item (args : StatArgs) : StatItem := ⟨statName args.parts, args.type, args.stat⟩

def table (s : StatMem) (ns : List (Nat × StatArgs)) (graphiteTs : Int) : StatTable :=
  ⟨s.statItems.map fun _ => ns.map fun n => item n.2, s.allocStats, graphiteTs⟩

def tableCall (mode : DisplayMode) (table : StatTable) : StatCall → StatTable
  | .add args => Statgrab.addStat mode (item args) table
  | .clear => Statgrab.clearStats table

section

variable {mode : DisplayMode} {s s' : StatMem} {ns : List (Nat × StatArgs)} {graphiteTs : Int}

theorem table_add (h : s.Stored ns) {args : StatArgs} (hskip : skipped mode args.type = false) (name : Nat)
    (hsome : s'.statItems.isSome = true)
    (halloc : s'.allocStats = if s.allocStats ≤ ns.length then s.allocStats + incrementStats else s.allocStats) :
    s'.table (ns ++ [(name, args)]) graphiteTs = Statgrab.addStat mode (item args) (s.table ns graphiteTs) := by
  obtain ⟨array', harray'⟩ := Option.isSome_iff_exists.mp hsome
  have hitems : (s.table ns graphiteTs).statItems.getD [] = ns.map fun n => item n.2 := by
    obtain ⟨rest, harray⟩ := h.slots.array
    rw [table]
    cases hitems : s.statItems with
    | some array => rfl
    | none =>
        rw [hitems, Option.getD_none, eq_comm, List.append_eq_nil_iff, List.map_eq_nil_iff,
          List.map_eq_nil_iff] at harray
        rw [harray.1]
        rfl
  rw [Statgrab.addStat, if_neg (by simp [item, hskip])]
  simp only [hitems, List.length_map]
  rw [table, table, harray', halloc, List.map_append]
  rfl

/-- One call: what it stores, or why it does not return. -/
theorem call_run {c : StatCall} (h : s.Stored ns) (hc : ValidCall c) :
    (∃ s' ns', call mode c s = .ok ((), s') ∧ s'.Stored ns' ∧ ns'.map Prod.snd = after mode (ns.map Prod.snd) c ∧
      s'.table ns' graphiteTs = tableCall mode (s.table ns graphiteTs) c ∧
      ∀ n, s'.mem n = false → ∃ m, s.mem m = false) ∨
    (call mode c s = .error (.die (bytes "out of memory")) ∧ ∃ n, s.mem n = false) ∨
    (call mode c s = .error .overflow ∧ (ns.map Prod.snd).length = 2 ^ 31 - incrementStats) := by
  cases c with
  | add args =>
      rw [call, after, tableCall]
      cases hskip : skipped mode args.type with
      | true =>
          refine .inl ⟨s, ns, ?_, h, rfl, ?_, fun n hn => ⟨n, hn⟩⟩
          · rw [addStat, if_pos hskip]
            rfl
          · exact (if_pos hskip).symm
      | false =>
          rcases addStat_run h hskip hc with ⟨s', hrun, h', hsome, halloc, hmem⟩ | hdie | ⟨hover, hfull⟩
          · refine .inl ⟨s', _, hrun, h', ?_, table_add h hskip _ hsome halloc, hmem⟩
            rw [List.map_append]
            rfl
          · exact .inr (.inl hdie)
          · exact .inr (.inr ⟨hover, (List.length_map _).trans hfull⟩)
  | clear =>
      obtain ⟨s', hrun, h', hitems, halloc, hmem⟩ := clearStats_run h
      refine .inl ⟨s', [], hrun, h', rfl, ?_, fun n hn => ⟨n, hmem ▸ hn⟩⟩
      rw [table, hitems, halloc, tableCall, Statgrab.clearStats, table, Option.map_map]
      rfl

theorem calls_run {cs : List StatCall} (h : s.Stored ns) (hcs : ∀ c ∈ cs, ValidCall c) :
    (∃ s' ns', calls mode cs s = .ok ((), s') ∧ s'.Stored ns' ∧
      ns'.map Prod.snd = cs.foldl (after mode) (ns.map Prod.snd) ∧
      s'.table ns' graphiteTs = cs.foldl (tableCall mode) (s.table ns graphiteTs)) ∨
    (calls mode cs s = .error (.die (bytes "out of memory")) ∧ ∃ n, s.mem n = false) ∨
    (calls mode cs s = .error .overflow ∧
      ∃ front, front <+: cs ∧ (front.foldl (after mode) (ns.map Prod.snd)).length = 2 ^ 31 - incrementStats) := by
  induction cs generalizing s ns with
  | nil => exact .inl ⟨s, ns, rfl, h, rfl, rfl⟩
  | cons c cs ih =>
      rw [List.forall_mem_cons] at hcs
      rw [calls]
      rcases @call_run mode s ns graphiteTs c h hcs.1 with
        ⟨s1, ns1, hrun, h1, hstats, htable, hmem⟩ | ⟨hdie, hrefused⟩ | ⟨hover, hfull⟩
      · rw [Prog.bind_of_ok hrun, List.foldl_cons, List.foldl_cons, ← hstats, ← htable]
        rcases ih h1 hcs.2 with hok | ⟨hdie, n, hn⟩ | ⟨hover, front, hfront, hfull⟩
        · exact .inl hok
        · exact .inr (.inl ⟨hdie, hmem n hn⟩)
        · refine .inr (.inr ⟨hover, c :: front, List.cons_prefix_cons.mpr ⟨rfl, hfront⟩, ?_⟩)
          rw [List.foldl_cons, ← hstats]
          exact hfull
      · exact .inr (.inl ⟨Prog.bind_of_error hdie _, hrefused⟩)
      · exact .inr (.inr ⟨Prog.bind_of_error hover _, [], List.nil_prefix, hfull⟩)

theorem start_stored (mem : Nat → Bool) : (start mem).Stored [] := by
  refine ⟨⟨⟨[], rfl⟩, rfl, rfl, Nat.dvd_zero _, Nat.two_pow_pos 31⟩, ?_⟩
  refine ⟨fun n hmem => absurd hmem List.not_mem_nil, List.nodup_nil, ?_, fun _ _ => rfl⟩
  intro p hp
  exact absurd rfl hp

theorem calls_table {mem : Nat → Bool} {cs : List StatCall} (hcs : ∀ c ∈ cs, ValidCall c)
    (hrun : calls mode cs (start mem) = .ok ((), s)) :
    ∃ ns, s.Stored ns ∧ s.table ns graphiteTs = cs.foldl (tableCall mode) ⟨none, 0, graphiteTs⟩ := by
  rcases @calls_run mode _ _ graphiteTs cs (start_stored mem) hcs with
    ⟨s', ns, hok, h, -, htable⟩ | ⟨hdie, -⟩ | ⟨hover, -⟩
  · rw [hok] at hrun
    cases hrun
    exact ⟨ns, h, htable⟩
  · rw [hdie] at hrun
    cases hrun
  · rw [hover] at hrun
    cases hrun

end

/-! ### What a run stores -/

/-- The block is the name that is made of these parts: as large as it was allocated, every byte of it written,
and with the parts between the dots. -/
structure NameOf (block : Cells) (parts : List CString) : Prop where
  size : block.length = toSize (nameLen parts)
  text : block = (statName parts ++ [0]).map some
  strlen : block.strlen = .ok (statName parts).length
  fields : (statName parts).splitOn 46 = parts.map sanitise

/-- These stats are in use, in this order, within the slots that are allocated. -/
structure Holds (s : StatMem) (stats : List StatArgs) : Prop where
  le : s.numStats ≤ s.allocStats
  alloc : (s.statItems.getD []).length = s.allocStats
  num : s.numStats = stats.length
  stored : ∀ (i : Nat) (args : StatArgs), stats[i]? = some args → ∃ name block,
    (s.statItems.getD [])[i]? = some (some (⟨name, args.type, args.stat⟩ : StatSlot)) ∧
    s.heap.blocks name = some block ∧ NameOf block args.parts

/-- A run of the two functions holds what was added since the last `clear_stats`. It ends before only where the
allocator refuses, or where the array is as large as its `int` allows. -/
def RunsRight (mode : DisplayMode) (mem : Nat → Bool) (cs : List StatCall) : Prop :=
  match calls mode cs (start mem) with
  | .ok (_, s) => s.Holds (sinceClear mode cs)
  | .error stop =>
      (stop = .die (bytes "out of memory") ∧ ∃ n, mem n = false) ∨
      (stop = .overflow ∧ ∃ front, front <+: cs ∧ (sinceClear mode front).length = 2 ^ 31 - incrementStats)

theorem nameOf {parts : List CString} (h : Named parts) : NameOf ((statName parts ++ [0]).map some) parts := by
  refine ⟨?_, rfl, ?_, statName_fields h.some⟩
  · rw [List.length_map, List.length_append, List.length_singleton, statName_length h.some, nameLen_eq h.size,
      toSize_of_lt h.size]
  · rw [List.map_append]
    exact Cells.strlen_text (statName_no_nul h.some h.text) []

theorem Stored.holds {s : StatMem} {ns : List (Nat × StatArgs)} (h : s.Stored ns)
    (hparts : ∀ n ∈ ns, Named n.2.parts) : s.Holds (ns.map Prod.snd) := by
  refine ⟨h.slots.le, h.slots.alloc, ?_, ?_⟩
  · rw [h.slots.num, List.length_map, List.length_map]
  · intro i args hi
    rw [List.getElem?_map, Option.map_eq_some_iff] at hi
    obtain ⟨n, hn, rfl⟩ := hi
    have hmem : n ∈ ns := List.mem_of_getElem? hn
    refine ⟨n.1, _, ?_, h.names.name n hmem, nameOf (hparts n hmem)⟩
    obtain ⟨rest, harray⟩ := h.slots.array
    have hlt : i < ((ns.map slotOf).map some).length := by
      rw [List.length_map, List.length_map]
      exact (List.getElem?_eq_some_iff.mp hn).1
    rw [harray, List.getElem?_append_left hlt, List.getElem?_map, List.getElem?_map, hn]
    rfl

theorem mem_after {mode : DisplayMode} {stats : List StatArgs} {cs : List StatCall} {args : StatArgs}
    (h : args ∈ cs.foldl (after mode) stats) : args ∈ stats ∨ .add args ∈ cs := by
  induction cs generalizing stats with
  | nil => exact .inl h
  | cons c cs ih =>
      rcases ih h with hafter | hmem
      · cases c with
        | clear => cases hafter
        | add args' =>
            rw [after] at hafter
            split at hafter
            · exact .inl hafter
            · rcases List.mem_append.mp hafter with hstats | hnew
              · exact .inl hstats
              · rw [List.mem_singleton.mp hnew]
                exact .inr List.mem_cons_self
      · exact .inr (List.mem_cons_of_mem _ hmem)

section

variable {mode : DisplayMode} {mem : Nat → Bool} {cs : List StatCall}

/-- Every run of `add_stat` and `clear_stats` holds its stats under their names. -/
theorem calls_right (hcs : ∀ c ∈ cs, ValidCall c) : RunsRight mode mem cs := by
  rw [RunsRight]
  rcases @calls_run mode _ _ 0 cs (start_stored mem) hcs with
    ⟨s, ns, hok, h, hstats, -⟩ | ⟨hdie, hrefused⟩ | ⟨hover, hfull⟩
  · have hparts : ∀ n ∈ ns, Named n.2.parts := by
      intro n hn
      have hmem : n.2 ∈ cs.foldl (after mode) [] := by
        rw [List.map_nil] at hstats
        rw [← hstats]
        exact List.mem_map_of_mem hn
      rcases mem_after hmem with hnil | hcall
      · cases hnil
      · exact hcs _ hcall
    rw [hok]
    have hholds := h.holds hparts
    rw [hstats] at hholds
    exact hholds
  · rw [hdie]
    exact .inl ⟨rfl, hrefused⟩
  · rw [hover]
    exact .inr ⟨rfl, hfull⟩

theorem calls_right_three :
    RunsRight .graphite (fun _ => true)
      [.add ⟨.string, 1, [bytes "general", bytes "os_name"]⟩, .clear,
        .add ⟨.double, 2, [bytes "net", bytes "en 0.1", []]⟩] := by
  apply calls_right
  intro c hc
  simp only [List.mem_cons, List.not_mem_nil, or_false] at hc
  rcases hc with rfl | rfl | rfl
  · exact ⟨by decide, by decide, by decide⟩
  · trivial
  · exact ⟨by decide, by decide, by decide⟩

end

/-- For Graphite the name of the operating system is not stored. -/
theorem calls_graphite_string :
    ∃ s, calls .graphite [.add ⟨.string, 1, [bytes "general", bytes "os_name"]⟩] (start fun _ => true)
        = .ok ((), s) ∧
      ¬ s.Holds [⟨.string, 1, [bytes "general", bytes "os_name"]⟩] := by
  refine ⟨start fun _ => true, rfl, ?_⟩
  intro h
  cases h.num

end StatMem

end Statgrab
