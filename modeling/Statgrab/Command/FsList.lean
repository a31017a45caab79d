import Statgrab.Lib.Text
import Statgrab.Stats.ValidFsHeap

/-!
# The lists of names of the `statgrab` command

`split_list` cuts a text at white space and commas, and `push_item` appends the pieces to an array that is
reallocated on every call. The array and its strings are blocks of the same memory that the library works on.

The loop of `split_list` skips separators behind a word, not before the first one: a text that begins with a
separator has an empty word at its start.
-/

namespace Statgrab

open Text

/-! ### Memory -/

/-- Why a function of the command does not return: a fault, or an exit of the whole command through `die`
with its text, or through `sg_die` with its text and exit code. -/
inductive Stop where
  | fault (f : Fault)
  | die (text : List UInt8)
  | sgDie (text : List UInt8) (exitCode : Nat)
  deriving DecidableEq

abbrev CommandM := Prog Stop FsMem

def library {β : Type} (x : FsMemM β) : CommandM β := fun s =>
  match x s with
  | .error f => .error (.fault f)
  | .ok r => .ok r

def mallocBlock (b : FsBlock) : CommandM (Option Nat) := do
  let ok ← library (onMemThread calloc)
  if ok then
    let new ← Prog.gets fun m => m.heap.next
    library (onHeap fun h => h.place b)
    return some new
  else return none

/-- `strndup`, with the bytes that are copied. -/
def strndup (text : CString) : CommandM (Option Nat) := mallocBlock (.text text)

def stackUnit : Nat := 4

section Lists

/- What the slots of a new block hold before they are written. -/
variable (garbage : Nat → Option Nat)

/-- `realloc(stack, slots * sizeof(stack[0]))`. -/
def reallocStack (stack : Option Nat) (slots : Nat) : CommandM (Option Nat) := do
  let old ← match stack with
    | none => pure []
    | some p => library (loadArray p)
  let new ← mallocBlock (.array ((List.range slots).map fun i => old.getD i (garbage i)))
  match new with
  | none => return none
  | some new => do
      library (release stack)
      return some new

def pushItem (stack item : Option Nat) (items : Nat) : CommandM Nat := do
  let stackSize := items
  let desired := items / stackUnit * stackUnit
  let items := items + 1
  let s ←
    if desired < items then
      let desired := (items / stackUnit + 1) * stackUnit
      if stackSize ≤ desired then do
        let s ← reallocStack garbage stack desired
        if s = none then Prog.fault (.die (bytes "Out of memory")) else pure s
      else pure stack
    else pure stack
  match s with
  | none => Prog.fault (.fault .nullPointer)
  | some s => do
      library (storeEntry s stackSize item)
      return s

/-- What `split_list` cuts at. -/
def isSeparator (b : UInt8) : Bool := isSpace b || b = 44

/-- The loop of `split_list` from `list` on, in at most `fuel` rounds: the array and the number of items. -/
def splitLoop : Nat → CString → Option Nat → Nat → CommandM (Option Nat × Nat)
  | 0, _, sp, items => return (sp, items)
  | fuel + 1, list, sp, items =>
      if list = [] then return (sp, items)
      else do
        let l := list.dropWhile fun b => !isSeparator b
        let item ← strndup (list.takeWhile fun b => !isSeparator b)
        let sp ← pushItem garbage sp item items
        splitLoop fuel (l.dropWhile isSeparator) (some sp) (items + 1)

/-- `split_list`. Every round takes at least one byte. -/
def splitList (list : CString) : CommandM Nat := do
  let (sp, items) ← splitLoop garbage list.length list none 0
  pushItem garbage sp none items

end Lists

/-! ### The words of a text -/

/-- The words of a text: its longest runs of bytes without a separator. -/
noncomputable def words (list : CString) : List CString := (list.splitOnP isSeparator).filter (· ≠ [])

noncomputable def pieces (list : CString) : List CString :=
  if list.head?.any isSeparator then [] :: words list else words list

theorem words_cons_separator {b : UInt8} (hb : isSeparator b = true) (list : CString) :
    words (b :: list) = words list := by
  rw [words, words, List.splitOnP_cons_eq_if_modifyHead, if_pos hb, List.filter_cons_of_neg (by simp)]

theorem words_dropWhile (list : CString) : words (list.dropWhile isSeparator) = words list := by
  induction list with
  | nil => rfl
  | cons b list ih =>
      cases hb : isSeparator b with
      | true => rw [List.dropWhile_cons_of_pos hb, ih, words_cons_separator hb]
      | false => rw [List.dropWhile_cons_of_neg (by simp [hb])]

theorem words_word (list : CString) :
    words list = [list.takeWhile fun b => !isSeparator b].filter (· ≠ []) ++
      words ((list.dropWhile fun b => !isSeparator b).dropWhile isSeparator) := by
  have hword : ∀ b ∈ list.takeWhile (fun b => !isSeparator b), isSeparator b = false := by
    intro b hb
    simpa using List.mem_takeWhile_imp hb
  rw [words_dropWhile]
  conv => lhs; rw [← List.takeWhile_append_dropWhile (p := fun b => !isSeparator b) (l := list)]
  cases hrest : list.dropWhile fun b => !isSeparator b with
  | nil =>
      rw [List.append_nil, words, List.splitOnP_eq_singleton hword]
      exact (List.append_nil _).symm
  | cons b rest =>
      have hb : isSeparator b = true := by
        have hhead := List.head?_dropWhile_not (fun b => !isSeparator b) list
        simpa [hrest] using hhead
      rw [words, List.splitOnP_append_cons_of_forall_mem hword b hb, words_cons_separator hb,
        ← List.singleton_append, List.filter_append]
      rfl

theorem pieces_dropWhile (list : CString) :
    pieces (list.dropWhile isSeparator) = words (list.dropWhile isSeparator) := by
  rw [pieces, if_neg]
  have hhead := List.head?_dropWhile_not isSeparator list
  cases hfirst : (list.dropWhile isSeparator).head? with
  | none => exact Bool.false_ne_true
  | some b => simpa [hfirst] using hhead

theorem pieces_word {list : CString} (hne : list ≠ []) :
    pieces list = (list.takeWhile fun b => !isSeparator b) ::
      pieces ((list.dropWhile fun b => !isSeparator b).dropWhile isSeparator) := by
  obtain ⟨b, list, rfl⟩ := List.exists_cons_of_ne_nil hne
  rw [pieces_dropWhile, pieces]
  cases hb : isSeparator b with
  | true =>
      rw [if_pos (by simpa using hb), List.takeWhile_cons_of_neg (by simp [hb]),
        List.dropWhile_cons_of_neg (by simp [hb]), words_dropWhile]
  | false =>
      rw [if_neg (by simp [hb]), words_word, List.filter_cons_of_pos (by simp [hb])]
      rfl

theorem length_rest_lt {list : CString} (hne : list ≠ []) :
    ((list.dropWhile fun b => !isSeparator b).dropWhile isSeparator).length < list.length := by
  obtain ⟨b, list, rfl⟩ := List.exists_cons_of_ne_nil hne
  have hle : ∀ (p : UInt8 → Bool) (l : CString), (l.dropWhile p).length ≤ l.length :=
    fun p l => (List.dropWhile_sublist p).length_le
  cases hb : isSeparator b with
  | true =>
      rw [List.dropWhile_cons_of_neg (by simp [hb]), List.dropWhile_cons_of_pos hb]
      exact Nat.lt_succ_of_le (hle _ _)
  | false =>
      rw [List.dropWhile_cons_of_pos (by simp [hb])]
      exact Nat.lt_succ_of_le ((hle _ _).trans (hle _ _))

/-! ### The array -/

/-- The array of a list under construction starts with the items, NULL being the array without any. It lies
behind everything that was there at the start, and that is unchanged. -/
structure Stacked (h0 h : Heap FsBlock) (stack : Option Nat) (items : List (Option Nat)) : Prop where
  fresh : h.Fresh
  next : h0.next ≤ h.next
  same : ∀ p, p < h0.next → h.blocks p = h0.blocks p
  empty : stack = none → items = []
  array : ∀ p, stack = some p → h0.next ≤ p ∧ ∃ rest, h.blocks p = some (.array (items ++ rest))

theorem Stacked.start {h0 : Heap FsBlock} (hfresh : h0.Fresh) : Stacked h0 h0 none [] where
  fresh := hfresh
  next := le_refl _
  same := fun _ _ => rfl
  empty := fun _ => rfl
  array := fun _ hcon => absurd hcon.symm (Option.some_ne_none _)

section Push

variable {garbage : Nat → Option Nat} {h0 : Heap FsBlock} {s : FsMem} {stack : Option Nat}
  {items : List (Option Nat)}

theorem library_of_ok {β : Type} {x : FsMemM β} {r : β × FsMem} (hx : x s = .ok r) :
    library x s = .ok r := by
  rw [library, hx]

theorem mallocBlock_of_mem (b : FsBlock) (hmem : s.mem 0 = true) :
    mallocBlock b s = .ok (some s.heap.next,
      { s with toThread := s.toThread.answered, heap := s.heap.place b }) := by
  have hcalloc : library (onMemThread calloc) s
      = .ok (s.mem 0, { s with toThread := s.toThread.answered }) := rfl
  rw [mallocBlock, Prog.bind_of_ok hcalloc, hmem]
  rfl

theorem mallocBlock_of_not_mem (b : FsBlock) (hmem : s.mem 0 = false) :
    mallocBlock b s = .ok (none, { s with toThread := s.toThread.answered }) := by
  have hcalloc : library (onMemThread calloc) s
      = .ok (s.mem 0, { s with toThread := s.toThread.answered }) := rfl
  rw [mallocBlock, Prog.bind_of_ok hcalloc, hmem]
  rfl

/-- The items that are there are kept when the array grows. -/
theorem grown_eq (garbage : Nat → Option Nat) (items rest : List (Option Nat)) {slots : Nat}
    (hslots : items.length < slots) : ∃ x rest',
      (List.range slots).map (fun i => (items ++ rest).getD i (garbage i)) = items ++ x :: rest' := by
  generalize hgrown : (List.range slots).map (fun i => (items ++ rest).getD i (garbage i)) = grown
  have hlength : grown.length = slots := by
    rw [← hgrown, List.length_map, List.length_range]
  have htake : grown.take items.length = items := by
    apply List.ext_getElem (by rw [List.length_take, hlength]; omega)
    intro i _ hi
    have hget : (items ++ rest).getD i (garbage i) = items[i] := by
      rw [List.getD_eq_getElem?_getD, List.getElem?_append_left hi, List.getElem?_eq_getElem hi, Option.getD_some]
    subst hgrown
    rw [List.getElem_take, List.getElem_map, List.getElem_range, hget]
  have hdrop : grown.drop items.length ≠ [] := by
    rw [Ne, List.drop_eq_nil_iff, hlength]
    omega
  obtain ⟨x, rest', hrest⟩ := List.exists_cons_of_ne_nil hdrop
  have hsplit := List.take_append_drop items.length grown
  rw [htake, hrest] at hsplit
  exact ⟨x, rest', hsplit.symm⟩

/-- The number of slots that are asked for is above the index that is written. -/
theorem pushItem_eq (garbage : Nat → Option Nat) (stack item : Option Nat) (items : Nat) :
    items < ((items + 1) / stackUnit + 1) * stackUnit ∧
      pushItem garbage stack item items = (do
        let sp ← reallocStack garbage stack (((items + 1) / stackUnit + 1) * stackUnit)
        match sp with
        | none => Prog.fault (.die (bytes "Out of memory"))
        | some sp => do
            library (storeEntry sp items item)
            return sp) := by
  have hroom : items < ((items + 1) / stackUnit + 1) * stackUnit := by
    unfold stackUnit
    omega
  refine ⟨hroom, ?_⟩
  have hgrow : items / stackUnit * stackUnit < items + 1 := Nat.lt_succ_of_le (Nat.div_mul_le_self _ _)
  funext s
  rw [pushItem]
  simp only [if_pos hgrow, if_pos hroom.le]
  rw [Prog.bind_run, Prog.bind_run]
  cases reallocStack garbage stack (((items + 1) / stackUnit + 1) * stackUnit) s with
  | error e => rfl
  | ok r =>
      obtain ⟨sp, s'⟩ := r
      cases sp with
      | none => rfl
      | some sp => rfl

theorem reallocStack_run (hst : Stacked h0 s.heap stack items) {slots : Nat} (hslots : items.length < slots)
    (hmem : s.mem 0 = true) :
    ∃ new x rest h', reallocStack garbage stack slots s
        = .ok (some new, { s with toThread := s.toThread.answered, heap := h' }) ∧
      h'.Fresh ∧ new = s.heap.next ∧ h'.next = s.heap.next + 1 ∧
      h'.blocks new = some (.array (items ++ x :: rest)) ∧
      ∀ p, p ≠ new → stack ≠ some p → h'.blocks p = s.heap.blocks p := by
  cases stack with
  | none =>
      obtain rfl := hst.empty rfl
      obtain ⟨x, rest, hgrown⟩ := grown_eq garbage [] [] hslots
      refine ⟨s.heap.next, x, rest, s.heap.place (.array (x :: rest)), ?_, hst.fresh.place, rfl, rfl,
        Heap.place_self _ _, fun p hne _ => Heap.place_of_ne hne⟩
      rw [List.nil_append, List.nil_append] at hgrown
      rw [reallocStack, Prog.bind_of_ok (Prog.pure_run _ _)]
      simp only
      rw [Prog.bind_of_ok (mallocBlock_of_mem _ hmem), hgrown]
      rfl
  | some p =>
      obtain ⟨-, rest0, harray⟩ := hst.array p rfl
      obtain ⟨x, rest, hgrown⟩ := grown_eq garbage items rest0 hslots
      have hlt : p < s.heap.next := hst.fresh.lt harray
      have hold : (s.heap.place (.array (items ++ x :: rest))).blocks p = some (.array (items ++ rest0)) := by
        rw [Heap.place_of_ne hlt.ne, harray]
      refine ⟨s.heap.next, x, rest, (s.heap.place (.array (items ++ x :: rest))).drop p, ?_, hst.fresh.place.drop,
        rfl, rfl, ?_, ?_⟩
      · have hrelease := @release_run
          { s with toThread := s.toThread.answered, heap := s.heap.place (.array (items ++ x :: rest)) } p _ hold
        rw [reallocStack, Prog.bind_of_ok (library_of_ok (loadArray_run harray))]
        simp only
        rw [Prog.bind_of_ok (mallocBlock_of_mem _ hmem), hgrown]
        simp only
        rw [Prog.bind_of_ok (library_of_ok hrelease)]
        rfl
      · rw [Heap.drop_of_ne hlt.ne', Heap.place_self]
      · intro q hne hstack
        have hqp : q ≠ p := fun hcon => hstack (congrArg some hcon.symm)
        rw [Heap.drop_of_ne hqp, Heap.place_of_ne hne]

theorem pushItem_run (hst : Stacked h0 s.heap stack items) (item : Option Nat) (hmem : s.mem 0 = true) :
    ∃ sp h', pushItem garbage stack item items.length s
        = .ok (sp, { s with toThread := s.toThread.answered, heap := h' }) ∧
      Stacked h0 h' (some sp) (items ++ [item]) ∧
      ∀ p c, s.heap.blocks p = some (.text c) → h'.blocks p = some (.text c) := by
  obtain ⟨hroom, hpush⟩ := pushItem_eq garbage stack item items.length
  obtain ⟨new, x, rest, h1, hrun, hfresh, hnew, hnext, hblock, hothers⟩ :=
    @reallocStack_run garbage h0 s stack items hst _ hroom hmem
  have hset : (items ++ x :: rest).set items.length item = items ++ [item] ++ rest := by
    rw [List.set_append_right items.length item (Nat.le_refl _), Nat.sub_self, List.set_cons_zero,
      List.append_assoc, List.singleton_append]
  have hlt : new < h1.next := by omega
  have hstore : storeEntry new items.length item { s with toThread := s.toThread.answered, heap := h1 }
      = .ok ((), { s with
          toThread := s.toThread.answered
          heap := h1.put new (.array (items ++ [item] ++ rest)) }) := by
    have hload := @loadArray_run { s with toThread := s.toThread.answered, heap := h1 } _ _ hblock
    rw [storeEntry, Prog.bind_of_ok hload, if_pos (by simp), hset]
    rfl
  -- the old array is no string, and nothing was there before it at its new place
  refine ⟨new, h1.put new (.array (items ++ [item] ++ rest)), ?_, ⟨hfresh.put hlt, ?_, ?_, ?_, ?_⟩, ?_⟩
  · rw [hpush, Prog.bind_of_ok hrun]
    simp only
    rw [Prog.bind_of_ok (library_of_ok hstore)]
    rfl
  · have := hst.next
    rw [Heap.put_next]
    omega
  · intro p hp
    have hne : p ≠ new := by
      have := hst.next
      omega
    have hstack : stack ≠ some p := by
      intro hcon
      have := (hst.array p hcon).1
      omega
    rw [Heap.put_of_ne hne, hothers p hne hstack, hst.same p hp]
  · intro hcon
    cases hcon
  · intro p hp
    cases hp
    refine ⟨?_, rest, Heap.put_self _ _ _⟩
    rw [hnew]
    exact hst.next
  · intro p c hp
    have hne : p ≠ new := by
      have := hst.fresh.lt hp
      omega
    have hstack : stack ≠ some p := by
      intro hcon
      obtain ⟨-, rest0, harray⟩ := hst.array p hcon
      rw [hp] at harray
      cases harray
    rw [Heap.put_of_ne hne, hothers p hne hstack, hp]

theorem pushItem_die (hst : Stacked h0 s.heap stack items) (item : Option Nat) (hmem : s.mem 0 = false) :
    pushItem garbage stack item items.length s = .error (.die (bytes "Out of memory")) := by
  obtain ⟨-, hpush⟩ := pushItem_eq garbage stack item items.length
  have hrealloc : reallocStack garbage stack (((items.length + 1) / stackUnit + 1) * stackUnit) s
      = .ok (none, { s with toThread := s.toThread.answered }) := by
    cases stack with
    | none =>
        rw [reallocStack, Prog.bind_of_ok (Prog.pure_run _ _)]
        simp only
        rw [Prog.bind_of_ok (mallocBlock_of_not_mem _ hmem)]
        rfl
    | some p =>
        obtain ⟨-, rest0, harray⟩ := hst.array p rfl
        rw [reallocStack, Prog.bind_of_ok (library_of_ok (loadArray_run harray))]
        simp only
        rw [Prog.bind_of_ok (mallocBlock_of_not_mem _ hmem)]
        rfl
  rw [hpush, Prog.bind_of_ok hrealloc]
  rfl

end Push

/-! ### The loop -/

section Split

variable {garbage : Nat → Option Nat} {h0 h : Heap FsBlock} {s : FsMem} {stack : Option Nat}
  {items : List (Option Nat)} {ptrs : List Nat} {names : List CString}

theorem Stacked.place (hst : Stacked h0 h stack items) (b : FsBlock) : Stacked h0 (h.place b) stack items where
  fresh := hst.fresh.place
  next := Nat.le_succ_of_le hst.next
  same := by
    intro p hp
    rw [Heap.place_of_ne (Nat.ne_of_lt (Nat.lt_of_lt_of_le hp hst.next)), hst.same p hp]
  empty := hst.empty
  array := by
    intro p hp
    obtain ⟨hle, rest, harray⟩ := hst.array p hp
    refine ⟨hle, rest, ?_⟩
    rw [Heap.place_of_ne (Nat.ne_of_lt (hst.fresh.lt harray)), harray]

/-- Whatever the allocator answers, nothing is written or read outside the array: the loop ends, or the
command does. -/
theorem splitLoop_safe (fuel : Nat) (list : CString) (hst : Stacked h0 s.heap stack items) :
    splitLoop garbage fuel list stack items.length s = .error (.die (bytes "Out of memory")) ∨
      ∃ stack' items' s', splitLoop garbage fuel list stack items.length s
          = .ok ((stack', items'.length), s') ∧ Stacked h0 s'.heap stack' items' := by
  induction fuel generalizing list stack items s with
  | zero => exact .inr ⟨stack, items, s, rfl, hst⟩
  | succ fuel ih =>
      rw [splitLoop]
      by_cases hnil : list = []
      · rw [if_pos hnil]
        exact .inr ⟨stack, items, s, rfl, hst⟩
      · rw [if_neg hnil]
        obtain ⟨item, s1, hdup, hst1⟩ : ∃ item s1,
            strndup (list.takeWhile fun b => !isSeparator b) s = .ok (item, s1) ∧
              Stacked h0 s1.heap stack items := by
          cases hmem : s.mem 0 with
          | true => exact ⟨_, _, mallocBlock_of_mem _ hmem, hst.place _⟩
          | false => exact ⟨_, _, mallocBlock_of_not_mem _ hmem, hst⟩
        rw [Prog.bind_of_ok hdup]
        cases hmem : s1.mem 0 with
        | false =>
            rw [Prog.bind_of_error (pushItem_die hst1 item hmem)]
            exact .inl rfl
        | true =>
            obtain ⟨sp, h', hpush, hst', -⟩ := @pushItem_run garbage h0 s1 stack items hst1 item hmem
            rw [Prog.bind_of_ok hpush]
            have hnext := @ih { s1 with toThread := s1.toThread.answered, heap := h' } (some sp)
              (items ++ [item]) ((list.dropWhile fun b => !isSeparator b).dropWhile isSeparator) hst'
            rwa [List.length_append, List.length_singleton] at hnext

/-- The array with the strings that were copied so far. -/
structure Strings (h0 h : Heap FsBlock) (stack : Option Nat) (ptrs : List Nat) (names : List CString) :
    Prop extends Stacked h0 h stack (ptrs.map some) where
  texts : ptrs.map h.blocks = names.map fun name => some (.text name)
  above : ∀ p ∈ ptrs, h0.next ≤ p
  nodup : ptrs.Nodup

theorem Strings.text (hs : Strings h0 h stack ptrs names) {p : Nat} (hp : p ∈ ptrs) :
    ∃ c, h.blocks p = some (.text c) := by
  have hmem : h.blocks p ∈ names.map fun name => some (.text name) := by
    rw [← hs.texts]
    exact List.mem_map_of_mem hp
  obtain ⟨c, -, hc⟩ := List.mem_map.mp hmem
  exact ⟨c, hc.symm⟩

theorem splitRound_run (hplenty : s.toThread.Plenty) (hs : Strings h0 s.heap stack ptrs names) (word : CString) :
    ∃ sp p t h', (do
        let item ← strndup word
        pushItem garbage stack item ptrs.length : CommandM Nat) s
        = .ok (sp, { s with toThread := t, heap := h' }) ∧ t.Plenty ∧ t.glob = s.glob ∧
      Strings h0 h' (some sp) (ptrs ++ [p]) (names ++ [word]) := by
  have hnew : s.heap.blocks s.heap.next = none := hs.fresh _ (le_refl _)
  obtain ⟨sp, h', hpush, hst, hkeep⟩ := @pushItem_run garbage h0
    { s with toThread := s.toThread.answered, heap := s.heap.place (.text word) } stack (ptrs.map some)
    (hs.toStacked.place _) (some s.heap.next) (hplenty 1)
  refine ⟨sp, s.heap.next, s.toThread.answered.answered, h', ?_, hplenty.answered.answered, rfl, ?_, ?_, ?_, ?_⟩
  · rw [Prog.bind_of_ok (show strndup word s = _ from mallocBlock_of_mem _ (hplenty 0))]
    rw [List.length_map] at hpush
    exact hpush
  · rw [List.map_append]
    exact hst
  · rw [List.map_append, List.map_append, List.map_singleton, List.map_singleton]
    congr 1
    · rw [← hs.texts]
      apply List.map_congr_left
      intro p hp
      obtain ⟨c, hc⟩ := hs.text hp
      rw [hc]
      apply hkeep p c
      show (s.heap.place (.text word)).blocks p = some (.text c)
      rw [Heap.place_of_ne (Nat.ne_of_lt (hs.fresh.lt hc)), hc]
    · rw [hkeep s.heap.next word (Heap.place_self _ _)]
  · intro p hp
    rcases List.mem_append.mp hp with hp | hp
    · exact hs.above p hp
    · rw [List.mem_singleton.mp hp]
      exact hs.next
  · refine List.nodup_append.mpr ⟨hs.nodup, List.nodup_singleton _, ?_⟩
    intro p hp q hq heq
    obtain ⟨c, hc⟩ := hs.text hp
    rw [heq, List.mem_singleton.mp hq, hnew] at hc
    cases hc

theorem splitLoop_run {fuel : Nat} {list : CString} (hfuel : list.length ≤ fuel)
    (hplenty : s.toThread.Plenty) (hs : Strings h0 s.heap stack ptrs names) :
    ∃ stack' ptrs' t h', splitLoop garbage fuel list stack ptrs.length s
        = .ok ((stack', ptrs'.length), { s with toThread := t, heap := h' }) ∧ t.Plenty ∧ t.glob = s.glob ∧
      Strings h0 h' stack' ptrs' (names ++ pieces list) := by
  have hdone : pieces [] = [] := rfl
  induction fuel generalizing list stack ptrs names s with
  | zero =>
      obtain rfl := List.length_eq_zero_iff.mp (Nat.le_zero.mp hfuel)
      rw [hdone, List.append_nil]
      exact ⟨stack, ptrs, s.toThread, s.heap, rfl, hplenty, rfl, hs⟩
  | succ fuel ih =>
      rw [splitLoop]
      by_cases hnil : list = []
      · rw [if_pos hnil, hnil, hdone, List.append_nil]
        exact ⟨stack, ptrs, s.toThread, s.heap, rfl, hplenty, rfl, hs⟩
      · rw [if_neg hnil, pieces_word hnil]
        obtain ⟨sp, p, t, h1, hround, hplenty1, hglob1, hs1⟩ := @splitRound_run garbage h0 s stack ptrs names hplenty
          hs (list.takeWhile fun b => !isSeparator b)
        obtain ⟨stack', ptrs', t', h', hrun, hplenty', hglob', hs'⟩ := @ih { s with toThread := t, heap := h1 }
          (some sp) (ptrs ++ [p]) (names ++ [list.takeWhile fun b => !isSeparator b])
          ((list.dropWhile fun b => !isSeparator b).dropWhile isSeparator)
          (by have := length_rest_lt hnil; omega) hplenty1 hs1
        refine ⟨stack', ptrs', t', h', ?_, hplenty', hglob'.trans hglob1, ?_⟩
        · obtain ⟨item, s1, hdup, hpush⟩ := Prog.bind_eq_ok.mp hround
          rw [Prog.bind_of_ok hdup, Prog.bind_of_ok hpush]
          rw [List.length_append, List.length_singleton] at hrun
          exact hrun
        · rw [List.append_assoc, List.singleton_append] at hs'
          exact hs'

/-- `split_list` with memory for every request: the array has the pieces of the text and a NULL behind them. -/
theorem splitList_run (list : CString) (hplenty : s.toThread.Plenty) (hfresh : s.heap.Fresh) :
    ∃ sp ptrs t h', splitList garbage list s = .ok (sp, { s with toThread := t, heap := h' }) ∧ t.Plenty ∧
      t.glob = s.glob ∧ Strings s.heap h' (some sp) ptrs (pieces list) ∧ Lists h' sp ptrs (pieces list) := by
  obtain ⟨stack, ptrs, t, h1, hloop, hplenty1, hglob, hs⟩ := @splitLoop_run garbage s.heap s none [] []
    list.length list (le_refl _) hplenty ⟨Stacked.start hfresh, rfl, nofun, List.nodup_nil⟩
  obtain ⟨sp, h', hpush, hst, hkeep⟩ := @pushItem_run garbage s.heap { s with toThread := t, heap := h1 } stack
    (ptrs.map some) hs.toStacked none (hplenty1 0)
  rw [List.length_map] at hpush
  rw [List.nil_append] at hs
  have htexts : ptrs.map h'.blocks = (pieces list).map fun name => some (.text name) := by
    rw [← hs.texts]
    apply List.map_congr_left
    intro p hp
    obtain ⟨c, hc⟩ := hs.text hp
    rw [hc]
    exact hkeep p c hc
  obtain ⟨-, rest, harray⟩ := hst.array sp rfl
  rw [List.append_assoc] at harray
  refine ⟨sp, ptrs, t.answered, h', ?_, hplenty1.answered, hglob, ?_, ⟨rest, harray⟩, htexts⟩
  · rw [splitList, show (0 : Nat) = ([] : List Nat).length from rfl, Prog.bind_of_ok hloop]
    exact hpush
  · refine ⟨⟨hst.fresh, hst.next, hst.same, nofun, ?_⟩, htexts, hs.above, hs.nodup⟩
    intro p hp
    obtain rfl := Option.some.inj hp
    exact ⟨(hst.array sp rfl).1, none :: rest, harray⟩

theorem splitList_safe (list : CString) (hfresh : s.heap.Fresh) :
    splitList garbage list s = .error (.die (bytes "Out of memory")) ∨ ∃ r, splitList garbage list s = .ok r := by
  rw [splitList, show (0 : Nat) = ([] : List (Option Nat)).length from rfl]
  rcases @splitLoop_safe garbage s.heap s none [] list.length list (Stacked.start hfresh) with
    hdie | ⟨stack, items, s1, hloop, hst⟩
  · rw [Prog.bind_of_error hdie]
    exact .inl rfl
  · rw [Prog.bind_of_ok hloop]
    cases hmem : s1.mem 0 with
    | false => exact .inl (pushItem_die hst none hmem)
    | true =>
        obtain ⟨sp, h', hpush, -⟩ := @pushItem_run garbage s.heap s1 stack items hst none hmem
        exact .inr ⟨_, hpush⟩

end Split

theorem Lists.unique {h : Heap FsBlock} {array : Nat} {ptrs ptrs' : List Nat} {names names' : List CString}
    (hl : Lists h array ptrs names) (hl' : Lists h array ptrs' names') : names = names' := by
  obtain ⟨rest, harray⟩ := hl.array
  obtain ⟨rest', harray'⟩ := hl'.array
  rw [harray] at harray'
  have hentries := FsBlock.array.inj (Option.some.inj harray')
  have hfront : ∀ (ps : List Nat) (rest : List (Option Nat)),
      (ps.map some ++ none :: rest).takeWhile Option.isSome = ps.map some := by
    intro ps rest
    rw [List.takeWhile_append_of_pos (by simp), List.takeWhile_cons_of_neg (by simp), List.append_nil]
  have hptrs := congrArg (List.takeWhile Option.isSome) hentries
  rw [hfront, hfront] at hptrs
  obtain rfl := List.map_injective_iff.mpr (Option.some_injective Nat) hptrs
  have htexts := hl.texts.symm.trans hl'.texts
  refine List.map_injective_iff.mpr ?_ htexts
  intro a b hab
  cases hab
  rfl

theorem pieces_eq_words_iff (list : CString) : pieces list = words list ↔ list.head?.any isSeparator = false := by
  rw [pieces]
  cases list.head?.any isSeparator with
  | false => exact iff_of_true (if_neg Bool.false_ne_true) rfl
  | true =>
      rw [if_pos rfl]
      exact iff_of_false (fun h => absurd (congrArg List.length h) (by simp)) (by decide)

theorem splitList_lists_iff (garbage : Nat → Option Nat) (list : CString) {s : FsMem} (hfresh : s.heap.Fresh)
    (hplenty : s.toThread.Plenty) :
    (∃ sp s' ptrs, splitList garbage list s = .ok (sp, s') ∧ Lists s'.heap sp ptrs (words list)) ↔
      list.head?.any isSeparator = false := by
  obtain ⟨sp, ptrs, t, h', hrun, -, -, -, hlists⟩ := @splitList_run garbage s list hplenty hfresh
  rw [← pieces_eq_words_iff]
  constructor
  · rintro ⟨sp', s', ptrs', hrun', hlists'⟩
    rw [hrun] at hrun'
    cases hrun'
    exact hlists.unique hlists'
  · intro hwords
    rw [hwords] at hlists
    exact ⟨sp, _, ptrs, hrun, hlists⟩

/-- `split_list` of every text: no item is written outside the array, whatever the allocator answers, and with
memory for every request the array has exactly the words of the text where this does not begin with a
separator. -/
theorem splitList_words_iff (garbage : Nat → Option Nat) (list : CString) {s : FsMem} (hfresh : s.heap.Fresh) :
    (∀ f, splitList garbage list s ≠ .error (.fault f)) ∧ (s.toThread.Plenty →
      ((∃ sp s' ptrs, splitList garbage list s = .ok (sp, s') ∧ Lists s'.heap sp ptrs (words list)) ↔
        list.head?.any isSeparator = false)) := by
  refine ⟨?_, splitList_lists_iff garbage list hfresh⟩
  intro f hfault
  rcases @splitList_safe garbage s list hfresh with hdie | ⟨r, hok⟩
  · rw [hdie] at hfault
    cases hfault
  · rw [hok] at hfault
    cases hfault

theorem splitList_nfs : twoTypes.heap.Fresh ∧
    ∃ sp s' ptrs, splitList (fun _ => none) (bytes "nfs, cifs") twoTypes = .ok (sp, s') ∧
      Lists s'.heap sp ptrs (words (bytes "nfs, cifs")) :=
  ⟨twoTypes_inv.fresh,
    ((splitList_words_iff (fun _ => none) (bytes "nfs, cifs") twoTypes_inv.fresh).2 fun _ => rfl).mpr
      (by decide)⟩

/-- A text that begins with a comma. -/
theorem splitList_comma : ¬ ∃ sp s' ptrs, splitList (fun _ => none) (bytes ",nfs") twoTypes = .ok (sp, s') ∧
    Lists s'.heap sp ptrs (words (bytes ",nfs")) := by
  rw [splitList_lists_iff (fun _ => none) (bytes ",nfs") twoTypes_inv.fresh fun _ => rfl]
  decide

end Statgrab
