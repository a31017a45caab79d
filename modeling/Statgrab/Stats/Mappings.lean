import Mathlib.Data.List.Perm.Subperm
import Statgrab.Lib.Chain
import Statgrab.Lib.Run
import Statgrab.Lib.Text
import Statgrab.Tools

/-!
# The device names of Solaris

`tools.c` keeps which disk name of the system stands for which name of the kernel, in a list that
`add_mapping` appends to and `sg_get_svr_from_bsd` searches. A mapping is added only where neither of its
names is in the list, and nothing is ever removed. Where the memory for one of the two strings is refused
the new node stays in the list with a NULL name, and a search that comes to it follows the NULL pointer.

`NameTable` is the list as a table, with the torn node at its end. The code refines it: `Represents`.
-/

namespace Statgrab

open Text

/-! ### The code -/

structure MappingNode where
  bsd : Option CString
  svr : Option CString
  next : Option Nat
  deriving DecidableEq

/-- The thread that reads the disks, and the list `mapping`. -/
structure Mappings extends Thread where
  heap : Heap MappingNode
  mapping : Option Nat

abbrev MappingM := Prog Fault Mappings

namespace Mappings

def onThread {β : Type} (x : ThreadM β) : MappingM β :=
  Prog.zoom Mappings.toThread (fun w t => { w with toThread := t }) x

/-- `sizeof(mapping_t)`. -/
def nodeSize : Nat := 24

/-- `sg_malloc(sizeof(mapping_t))`. Before anything reads the node its fields are set to NULL. -/
def newNode : MappingM (Option Nat) := do
  let ok ← onThread (sgRealloc nodeSize)
  if ok then
    let p ← Prog.gets fun w => w.heap.next
    Prog.modify fun w => { w with heap := w.heap.place ⟨none, none, none⟩ }
    return some p
  else return none

/-- `*map_ptr`. -/
def load (p : Nat) : MappingM MappingNode := fun w =>
  match w.heap.blocks p with
  | some node => .ok (node, w)
  | none => .error .released

/-- `*map_ptr = node`. -/
def store (p : Nat) (node : MappingNode) : MappingM Unit :=
  Prog.modify fun w => { w with heap := w.heap.put p node }

/-- The loop of `sg_get_svr_from_bsd`. -/
def getLoop (bsd : CString) : Nat → Option Nat → MappingM (Option CString)
  | 0, _ => Prog.fault .released
  | _ + 1, none => return some bsd
  | fuel + 1, some p => do
      let node ← load p
      match node.bsd with
      | none => Prog.fault .nullPointer
      | some b => if strcmp b bsd = .eq then return node.svr else getLoop bsd fuel node.next

def sgGetSvrFromBsd (bsd : CString) : MappingM (Option CString) := do
  let blocks ← Prog.gets fun w => w.heap.next
  let mapping ← Prog.gets Mappings.mapping
  getLoop bsd (blocks + 1) mapping

/-- The search of `add_mapping` from the node `p`: nothing where one of the names is in the list, and
else the last node. -/
def endLoop (bsd svr : CString) : Nat → Nat → MappingM (Option Nat)
  | 0, _ => Prog.fault .released
  | fuel + 1, p => do
      let node ← load p
      match node.bsd with
      | none => Prog.fault .nullPointer
      | some b =>
          if strcmp b bsd = .eq then return none
          else
            match node.svr with
            | none => Prog.fault .nullPointer
            | some s =>
                if strcmp s svr = .eq then return none
                else
                  match node.next with
                  | none => return some p
                  | some q => endLoop bsd svr fuel q

/-- `sg_update_string(&map_ptr->name, src)` for one of the names of a new node. -/
def updateName (f : Option CString → MappingNode → MappingNode) (src : CString) (p : Nat) :
    MappingM SgError := do
  let (rc, name) ← onThread (sgUpdateString none (some src))
  let node ← load p
  store p (f name node)
  return rc

def fillNode (bsd svr : CString) (p : Nat) : MappingM Unit := do
  let rc ← updateName (fun name node => { node with bsd := name }) bsd p
  if rc = .none then
    let _ ← updateName (fun name node => { node with svr := name }) svr p
    return ()
  else return ()

def addMapping (bsd svr : CString) : MappingM Unit := do
  let blocks ← Prog.gets fun w => w.heap.next
  let mapping ← Prog.gets Mappings.mapping
  match mapping with
  | none => do
      let p ← newNode
      Prog.modify fun w => { w with mapping := p }
      match p with
      | none => return ()
      | some p => fillNode bsd svr p
  | some head => do
      let last ← endLoop bsd svr (blocks + 1) head
      match last with
      | none => return ()
      | some last => do
          let p ← newNode
          let node ← load last
          store last { node with next := p }
          match p with
          | none => return ()
          | some p => fillNode bsd svr p

inductive Command where
  | add (bsd svr : CString)
  | get (bsd : CString)

def step : Command → MappingM Unit
  | .add bsd svr => addMapping bsd svr
  | .get bsd => do
      let _ ← sgGetSvrFromBsd bsd
      return ()

end Mappings

/-! ### The table -/

/-- The mappings that were added, in order, and at the end the node that was left without its names:
with neither of them, or with the first one only. -/
structure NameTable where
  entries : List (CString × CString)
  torn : Option (Option CString)

namespace NameTable

def nodes (t : NameTable) : List (Option CString × Option CString) :=
  t.entries.map (fun e => (some e.1, some e.2)) ++ t.torn.toList.map fun b => (b, none)

/-- Neither name is in the table twice. -/
structure OneToOne (t : NameTable) : Prop where
  bsd : (t.entries.map Prod.fst).Nodup
  svr : (t.entries.map Prod.snd).Nodup

def find (t : NameTable) (bsd : CString) : Option CString :=
  (t.entries.find? fun e => e.1 = bsd).map Prod.snd

def has (t : NameTable) (bsd svr : CString) : Bool := t.entries.any fun e => e.1 == bsd || e.2 == svr

/-- What is answered for a disk: its name in the table, or its own where there is none. The search comes
to the torn node, and may follow its first name. -/
def answer (t : NameTable) (bsd : CString) : Except Fault (Option CString) :=
  match t.find bsd, t.torn with
  | some svr, _ => .ok (some svr)
  | none, none => .ok (some bsd)
  | none, some none => .error .nullPointer
  | none, some (some b) => .ok (if b = bsd then none else some bsd)

/-- Whether a mapping is not added. The search compares both names of a node. -/
def known (t : NameTable) (bsd svr : CString) : Except Fault Bool :=
  match t.has bsd svr, t.torn with
  | true, _ => .ok true
  | false, none => .ok false
  | false, some none => .error .nullPointer
  | false, some (some b) => if b = bsd then .ok true else .error .nullPointer

/-- The table with a mapping added, as the allocator answers for the node and its two strings. -/
def add (t : NameTable) (bsd svr : CString) (mem : Nat → Bool) : NameTable :=
  if mem 0 = false then t
  else if mem 1 = false then { t with torn := some none }
  else if mem 2 = false then { t with torn := some (some bsd) }
  else { t with entries := t.entries ++ [(bsd, svr)] }

/-- The table after a call to which all memory was granted: the first mapping of a name stays. -/
def learn (t : NameTable) : Mappings.Command → NameTable
  | .add bsd svr => if t.has bsd svr then t else { t with entries := t.entries ++ [(bsd, svr)] }
  | .get _ => t

def learned (cs : List Mappings.Command) : NameTable := cs.foldl learn ⟨[], none⟩

end NameTable

/-! ### Searches -/

def MappingNode.names (node : MappingNode) : Option CString × Option CString := (node.bsd, node.svr)

/-- The loop of `sg_get_svr_from_bsd` over the names of the nodes. -/
def answerNodes (bsd : CString) : List (Option CString × Option CString) → Except Fault (Option CString)
  | [] => .ok (some bsd)
  | (none, _) :: _ => .error .nullPointer
  | (some b, s) :: rest => if b = bsd then .ok s else answerNodes bsd rest

/-- The search of `add_mapping` over the names of the nodes. -/
def knownNodes (bsd svr : CString) : List (Option CString × Option CString) → Except Fault Bool
  | [] => .ok false
  | (none, _) :: _ => .error .nullPointer
  | (some b, s) :: rest =>
      if b = bsd then .ok true
      else
        match s with
        | none => .error .nullPointer
        | some s => if s = svr then .ok true else knownNodes bsd svr rest

theorem answerNodes_nodes (t : NameTable) (bsd : CString) : answerNodes bsd t.nodes = t.answer bsd := by
  obtain ⟨entries, torn⟩ := t
  induction entries with
  | nil =>
      cases torn with
      | none => rfl
      | some first =>
          cases first with
          | none => rfl
          | some b =>
              by_cases hb : b = bsd
              · simp [NameTable.nodes, NameTable.answer, NameTable.find, answerNodes, hb]
              · simp [NameTable.nodes, NameTable.answer, NameTable.find, answerNodes, hb]
  | cons e entries ih =>
      by_cases he : e.1 = bsd
      · simp [NameTable.nodes, NameTable.answer, NameTable.find, answerNodes, he]
      · have hfind : NameTable.answer ⟨e :: entries, torn⟩ bsd = NameTable.answer ⟨entries, torn⟩ bsd := by
          simp [NameTable.answer, NameTable.find, he]
        rw [hfind, ← ih]
        simp [NameTable.nodes, answerNodes, he]

theorem knownNodes_nodes (t : NameTable) (bsd svr : CString) :
    knownNodes bsd svr t.nodes = t.known bsd svr := by
  obtain ⟨entries, torn⟩ := t
  induction entries with
  | nil =>
      cases torn with
      | none => rfl
      | some first =>
          cases first with
          | none => rfl
          | some b => rfl
  | cons e entries ih =>
      by_cases hb : e.1 = bsd
      · simp [NameTable.nodes, NameTable.known, NameTable.has, knownNodes, hb]
      · by_cases hs : e.2 = svr
        · simp [NameTable.nodes, NameTable.known, NameTable.has, knownNodes, hb, hs]
        · have hhas : NameTable.has ⟨e :: entries, torn⟩ bsd svr = NameTable.has ⟨entries, torn⟩ bsd svr := by
            simp only [NameTable.has, List.any_cons, beq_false_of_ne hb, beq_false_of_ne hs,
              Bool.or_false, Bool.false_or]
          have hknown : NameTable.known ⟨e :: entries, torn⟩ bsd svr
              = NameTable.known ⟨entries, torn⟩ bsd svr := by
            unfold NameTable.known
            rw [hhas]
          rw [hknown, ← ih]
          simp [NameTable.nodes, knownNodes, hb, hs]

namespace Mappings

variable {w w' : Mappings} {ns : List (Nat × MappingNode)} {p q : Nat} {node m : MappingNode}
  {bsd svr : CString}

theorem load_run (hp : w.heap.blocks p = some node) : load p w = .ok (node, w) := by
  unfold load
  rw [hp]

theorem getLoop_run {x : Option Nat} (hc : w.heap.Chain MappingNode.next x ns none) {fuel : Nat}
    (hfuel : ns.length < fuel) :
    getLoop bsd fuel x w = (answerNodes bsd (ns.map fun n => n.2.names)).map fun a => (a, w) := by
  induction ns generalizing x fuel with
  | nil =>
      obtain ⟨fuel, rfl⟩ := Nat.exists_eq_succ_of_ne_zero (Nat.ne_of_gt hfuel)
      rw [show x = none from hc]
      rfl
  | cons n ns ih =>
      obtain ⟨fuel, rfl⟩ := Nat.exists_eq_succ_of_ne_zero (Nat.ne_of_gt (Nat.zero_lt_of_lt hfuel))
      obtain ⟨rfl, hb, hrest⟩ := hc
      rw [getLoop, Prog.bind_of_ok (load_run hb), List.map_cons, MappingNode.names]
      cases hbsd : n.2.bsd with
      | none => rfl
      | some b =>
          rw [answerNodes]
          by_cases heq : b = bsd
          · simp only [if_pos (strcmp_eq_iff.mpr heq), if_pos heq]
            rfl
          · simp only [if_neg fun h => heq (strcmp_eq_iff.mp h), if_neg heq]
            exact ih hrest (Nat.lt_of_succ_lt_succ hfuel)

/-- The search of `add_mapping` at a node. -/
theorem endLoop_node (hp : w.heap.blocks p = some node) (fuel : Nat) :
    endLoop bsd svr (fuel + 1) p w
      = match knownNodes bsd svr [node.names] with
        | .error e => .error e
        | .ok true => .ok (none, w)
        | .ok false =>
            match node.next with
            | none => .ok (some p, w)
            | some q => endLoop bsd svr fuel q w := by
  obtain ⟨b, s, next⟩ := node
  rw [endLoop, Prog.bind_of_ok (load_run hp), MappingNode.names]
  cases b with
  | none => rfl
  | some b =>
      by_cases hb : b = bsd
      · simp [hb, knownNodes, strcmp_eq_iff]
      · cases s with
        | none => simp [hb, knownNodes, strcmp_eq_iff]
        | some s =>
            by_cases hs : s = svr
            · simp [hb, hs, knownNodes, strcmp_eq_iff]
            · cases next with
              | none => simp [hb, hs, knownNodes, strcmp_eq_iff]
              | some q => simp [hb, hs, knownNodes, strcmp_eq_iff]

theorem knownNodes_cons (bsd svr : CString) (names : Option CString × Option CString)
    (rest : List (Option CString × Option CString)) :
    knownNodes bsd svr (names :: rest)
      = match knownNodes bsd svr [names] with
        | .error e => .error e
        | .ok true => .ok true
        | .ok false => knownNodes bsd svr rest := by
  obtain ⟨b, s⟩ := names
  cases b with
  | none => rfl
  | some b =>
      by_cases hb : b = bsd
      · simp [hb, knownNodes]
      · cases s with
        | none => simp [hb, knownNodes]
        | some s =>
            by_cases hs : s = svr
            · simp [hb, hs, knownNodes]
            · simp [hb, hs, knownNodes]

theorem endLoop_run (bsd svr : CString) {a : Nat} {n : MappingNode}
    (hc : w.heap.Chain MappingNode.next (some p) (ns ++ [(a, n)]) none) {fuel : Nat}
    (hfuel : (ns ++ [(a, n)]).length ≤ fuel) :
    endLoop bsd svr fuel p w
      = (knownNodes bsd svr ((ns ++ [(a, n)]).map fun n => n.2.names)).map fun known =>
          (if known then none else some a, w) := by
  induction ns generalizing p fuel with
  | nil =>
      obtain ⟨fuel, rfl⟩ := Nat.exists_eq_succ_of_ne_zero (Nat.ne_of_gt hfuel)
      obtain ⟨hp, hb, hnext⟩ := hc
      cases hp
      have hend : n.next = none := hnext
      rw [endLoop_node hb, hend]
      show _ = (knownNodes bsd svr [n.names]).map _
      cases knownNodes bsd svr [n.names] with
      | error e => rfl
      | ok known => cases known <;> rfl
  | cons m ns ih =>
      obtain ⟨fuel, rfl⟩ := Nat.exists_eq_succ_of_ne_zero (Nat.ne_of_gt (Nat.zero_lt_of_lt hfuel))
      obtain ⟨hp, hb, hrest⟩ := hc
      cases hp
      have hcons := knownNodes_cons bsd svr m.2.names ((ns ++ [(a, n)]).map fun n => n.2.names)
      rw [endLoop_node hb, List.cons_append, List.map_cons, hcons]
      cases knownNodes bsd svr [m.2.names] with
      | error e => rfl
      | ok known =>
          cases known with
          | true => rfl
          | false =>
              -- the last node is behind this one
              cases hnext : m.2.next with
              | none =>
                  rw [hnext] at hrest
                  cases ns with
                  | nil => cases hrest.1
                  | cons m' ns => cases hrest.1
              | some q =>
                  rw [hnext] at hrest
                  exact ih hrest (Nat.le_of_succ_le_succ hfuel)

/-! ### The list -/

structure Lists (w : Mappings) (ns : List (Nat × MappingNode)) : Prop where
  fresh : w.heap.Fresh
  chain : w.heap.Chain MappingNode.next w.mapping ns none
  nodup : (ns.map Prod.fst).Nodup

theorem Lists.block (h : Lists w ns) {n : Nat × MappingNode} (hn : n ∈ ns) :
    w.heap.blocks n.1 = some n.2 := by
  obtain ⟨front, back, rfl⟩ := List.append_of_mem hn
  obtain ⟨r, -, hr, hb, -⟩ := Heap.chain_append.mp h.chain
  exact hb

theorem Lists.lt (h : Lists w ns) {a : Nat} (ha : a ∈ ns.map Prod.fst) : a < w.heap.next := by
  obtain ⟨n, hn, rfl⟩ := List.mem_map.mp ha
  exact h.fresh.lt (h.block hn)

theorem Lists.length_le (h : Lists w ns) : ns.length ≤ w.heap.next := by
  have hsub : (ns.map Prod.fst) ⊆ List.range w.heap.next := by
    intro a ha
    exact List.mem_range.mpr (h.lt ha)
  have hle := (List.subperm_of_subset h.nodup hsub).length_le
  rwa [List.length_map, List.length_range] at hle

theorem Lists.thread (h : Lists w ns) (t : Thread) : Lists { w with toThread := t } ns :=
  ⟨h.fresh, h.chain, h.nodup⟩

theorem Lists.putLast (h : Lists w (ns ++ [(q, node)])) (m : MappingNode) (hnext : m.next = node.next) :
    Lists { w with heap := w.heap.put q m } (ns ++ [(q, m)]) := by
  have hnodup := h.nodup
  rw [List.map_append, List.nodup_append] at hnodup
  obtain ⟨hchain, hb, hlink⟩ := Heap.chain_snoc.mp h.chain
  refine ⟨h.fresh.put (h.fresh.lt hb), Heap.chain_snoc.mpr ⟨?_, Heap.put_self _ _ _, hnext.trans hlink⟩,
    by simpa using h.nodup⟩
  apply hchain.frame
  intro a ha
  apply Heap.put_of_ne
  exact hnodup.2.2 a ha q (by simp)

/-- A node is linked to the end of an empty list. -/
theorem Lists.first (h : Lists w []) (hnext : m.next = none) :
    Lists { w with heap := w.heap.place m, mapping := some w.heap.next } [(w.heap.next, m)] :=
  ⟨h.fresh.place, ⟨rfl, Heap.place_self _ _, hnext⟩, List.nodup_singleton _⟩

theorem Lists.grow (h : Lists w (ns ++ [(q, node)])) (hnext : m.next = none) :
    Lists { w with heap := (w.heap.place m).put q { node with next := some w.heap.next } }
      (ns ++ [(q, { node with next := some w.heap.next }), (w.heap.next, m)]) := by
  have hnodup := h.nodup
  rw [List.map_append, List.nodup_append] at hnodup
  obtain ⟨hchain, hb, hlink⟩ := Heap.chain_snoc.mp h.chain
  have hq : q < w.heap.next := h.fresh.lt hb
  have hlt : ∀ a ∈ ns.map Prod.fst, a < w.heap.next := by
    intro a ha
    apply h.lt
    rw [List.map_append]
    exact List.mem_append_left _ ha
  refine ⟨h.fresh.place.put (Nat.lt_succ_of_lt hq), ?_, ?_⟩
  · apply Heap.chain_append.mpr
    refine ⟨some q, ?_, rfl, Heap.put_self _ _ _, rfl, ?_, hnext⟩
    · apply hchain.frame
      intro a ha
      rw [Heap.put_of_ne (hnodup.2.2 a ha q (by simp)), Heap.place_of_ne (Nat.ne_of_lt (hlt a ha))]
    · rw [Heap.put_of_ne (Nat.ne_of_gt hq)]
      exact Heap.place_self _ _
  · have hall : ((ns ++ [(q, node)]).map Prod.fst ++ [w.heap.next]).Nodup := by
      refine List.nodup_append.mpr ⟨h.nodup, List.nodup_singleton _, ?_⟩
      intro a ha b hb
      rw [List.mem_singleton.mp hb]
      exact Nat.ne_of_lt (h.lt ha)
    simpa using hall

/-- What is in the node of a new mapping, as the allocator answers for its strings. -/
def filled (bsd svr : CString) (mem : Nat → Bool) : Option CString × Option CString :=
  if mem 0 = false then (none, none) else if mem 1 = false then (some bsd, none) else (some bsd, some svr)

theorem onThread_of_ok {β : Type} {x : ThreadM β} {b : β} {t : Thread} (h : x w.toThread = .ok (b, t)) :
    onThread x w = .ok (b, { w with toThread := t }) :=
  Prog.zoom_of_ok h

theorem filled_of_mem {mem : Nat → Bool} (h : mem 0 = true) :
    filled bsd svr mem = (some bsd, if mem 1 then some svr else none) := by
  rw [filled, h]
  cases mem 1 with
  | false => rfl
  | true => rfl

theorem onThread_update (w : Mappings) (s : CString) :
    ∃ rc t, onThread (sgUpdateString none (some s)) w
        = .ok ((rc, if w.mem 0 then some s else none), { w with toThread := t }) ∧
      (rc = .none ↔ w.mem 0 = true) ∧ t.mem = w.answered.mem := by
  cases hmem : w.mem 0 with
  | true =>
      refine ⟨.none, w.answered, onThread_of_ok ?_, by simp, rfl⟩
      rw [sgUpdateString, Prog.bind_of_ok (sgRealloc_of_mem (by omega) hmem)]
      rfl
  | false =>
      refine ⟨.malloc, { w.answered with glob := reallocError (s.length + 1) }, onThread_of_ok ?_, by simp,
        rfl⟩
      rw [sgUpdateString, Prog.bind_of_ok (sgRealloc_of_not_mem (by omega) hmem)]
      rfl

theorem Lists.load (h : Lists w (ns ++ [(q, node)])) : load q w = .ok (node, w) :=
  load_run (h.block (List.mem_append_right _ List.mem_cons_self))

theorem updateName_run {f : Option CString → MappingNode → MappingNode} (src : CString)
    (h : Lists w (ns ++ [(q, node)])) (hf : ∀ name, (f name node).next = node.next) :
    ∃ rc w', updateName f src q w = .ok (rc, w') ∧
      Lists w' (ns ++ [(q, f (if w.mem 0 then some src else none) node)]) ∧
      (rc = .none ↔ w.mem 0 = true) ∧ w'.mem = w.answered.mem := by
  obtain ⟨rc, t, hupdate, hrc, hmem⟩ := onThread_update w src
  have h1 := h.thread t
  rw [updateName, Prog.bind_of_ok hupdate]
  simp only
  rw [Prog.bind_of_ok h1.load]
  exact ⟨rc, _, rfl, h1.putLast _ (hf _), hrc, hmem⟩

/-- The strings of a new node are stored as far as they are granted. -/
theorem fillNode_run (bsd svr : CString) {ns : List (Nat × MappingNode)} (h : Lists w (ns ++ [(q, ⟨none, none, none⟩)])) {mem : Nat → Bool}
    (hmem : w.mem = mem) :
    ∃ w' n, fillNode bsd svr q w = .ok ((), w') ∧ Lists w' (ns ++ [(q, n)]) ∧
      n.names = filled bsd svr mem ∧ (w.toThread.Plenty → w'.toThread.Plenty) := by
  cases hmem
  obtain ⟨rc, w1, hfirst, h1, hrc, hmem1⟩ :=
    updateName_run (f := fun name node => { node with bsd := name }) bsd h fun _ => rfl
  rw [fillNode, Prog.bind_of_ok hfirst]
  cases hgranted : w.mem 0 with
  | false =>
      have hne : rc ≠ .none := fun heq => by simp [hrc.mp heq] at hgranted
      rw [hgranted] at h1
      rw [if_neg hne, filled, if_pos hgranted]
      refine ⟨w1, _, rfl, h1, rfl, ?_⟩
      intro hplenty
      rw [hplenty 0] at hgranted
      cases hgranted
  | true =>
      obtain ⟨rc', w2, hsecond, h2, -, hmem2⟩ :=
        updateName_run (f := fun name node => { node with svr := name }) svr h1 fun _ => rfl
      have hanswer : w1.mem 0 = w.mem 1 := by
        rw [hmem1]
        rfl
      rw [hgranted, hanswer] at h2
      rw [if_pos (hrc.mpr hgranted), Prog.bind_of_ok hsecond, filled_of_mem hgranted]
      refine ⟨w2, _, rfl, h2, rfl, ?_⟩
      intro hplenty n
      rw [hmem2]
      show w1.mem (n + 1) = true
      rw [hmem1]
      exact hplenty (n + 2)

theorem newNode_of_mem (hmem : w.mem 0 = true) :
    newNode w = .ok (some w.heap.next,
      { w with toThread := w.answered, heap := w.heap.place ⟨none, none, none⟩ }) := by
  have hpos : nodeSize ≠ 0 := by decide
  rw [newNode, Prog.bind_of_ok (onThread_of_ok (sgRealloc_of_mem hpos hmem))]
  rfl

theorem newNode_of_not_mem (hmem : w.mem 0 = false) :
    ∃ t : Thread, newNode w = .ok (none, { w with toThread := t }) := by
  have hpos : nodeSize ≠ 0 := by decide
  refine ⟨{ w.answered with glob := reallocError nodeSize }, ?_⟩
  rw [newNode, Prog.bind_of_ok (onThread_of_ok (sgRealloc_of_not_mem hpos hmem))]
  rfl

/-! ### The list is the table -/

/-- The list has the names of the table in its nodes. -/
structure Represents (w : Mappings) (t : NameTable) : Prop where
  names : ∃ ns, Lists w ns ∧ ns.map (fun n => n.2.names) = t.nodes
  oneToOne : t.OneToOne

variable {t : NameTable}

theorem sgGetSvrFromBsd_run (h : Represents w t) (bsd : CString) :
    sgGetSvrFromBsd bsd w = (t.answer bsd).map fun a => (a, w) := by
  obtain ⟨ns, hns, hnames⟩ := h.names
  rw [sgGetSvrFromBsd, Prog.bind_of_ok (Prog.gets_run _ _), Prog.bind_of_ok (Prog.gets_run _ _),
    getLoop_run hns.chain (Nat.lt_succ_of_le hns.length_le), hnames, answerNodes_nodes]

theorem add_of_not_mem {mem : Nat → Bool} (hmem : mem 0 = false) : t.add bsd svr mem = t := by
  rw [NameTable.add, if_pos hmem]

theorem nodes_add (ht : t.torn = none) {mem : Nat → Bool} (hmem : mem 0 = true) :
    (t.add bsd svr mem).nodes = t.nodes ++ [filled bsd svr fun n => mem (n + 1)] := by
  obtain ⟨entries, torn⟩ := t
  cases ht
  rw [NameTable.add, if_neg (by simp [hmem]), filled]
  cases mem 1 with
  | false => simp [NameTable.nodes]
  | true =>
      cases mem 2 with
      | false => simp [NameTable.nodes]
      | true => simp [NameTable.nodes]

theorem add_oneToOne (ht : t.OneToOne) (hnew : t.has bsd svr = false) (mem : Nat → Bool) :
    (t.add bsd svr mem).OneToOne := by
  have hnone : ∀ e ∈ t.entries, e.1 ≠ bsd ∧ e.2 ≠ svr := by
    simpa [NameTable.has] using hnew
  unfold NameTable.add
  split
  · exact ht
  · split
    · exact ⟨ht.bsd, ht.svr⟩
    · split
      · exact ⟨ht.bsd, ht.svr⟩
      · refine ⟨?_, ?_⟩
        · rw [List.map_append, List.nodup_append]
          refine ⟨ht.bsd, List.nodup_singleton _, ?_⟩
          intro b hb b' hb'
          obtain ⟨e, he, rfl⟩ := List.mem_map.mp hb
          rw [List.mem_singleton.mp hb']
          exact (hnone e he).1
        · rw [List.map_append, List.nodup_append]
          refine ⟨ht.svr, List.nodup_singleton _, ?_⟩
          intro s hs s' hs'
          obtain ⟨e, he, rfl⟩ := List.mem_map.mp hs
          rw [List.mem_singleton.mp hs']
          exact (hnone e he).2

/-- A mapping is added only where neither name is there and no node is torn. -/
theorem known_false (h : t.known bsd svr = .ok false) : t.has bsd svr = false ∧ t.torn = none := by
  unfold NameTable.known at h
  split at h
  · cases h
  · exact ⟨‹_›, ‹_›⟩
  · cases h
  · split at h
    · cases h
    · cases h

/-- The names of the nodes after a mapping was added to a list with these. -/
def grown (names : List (Option CString × Option CString)) (bsd svr : CString) (mem : Nat → Bool) :
    List (Option CString × Option CString) :=
  if mem 0 then names ++ [filled bsd svr fun n => mem (n + 1)] else names

theorem grown_nodes (ht : t.torn = none) (mem : Nat → Bool) :
    grown t.nodes bsd svr mem = (t.add bsd svr mem).nodes := by
  cases hmem : mem 0 with
  | false =>
      rw [grown, if_neg (by simp [hmem]), add_of_not_mem hmem]
  | true =>
      rw [grown, if_pos hmem, nodes_add ht hmem]

theorem addMapping_first (h : Lists w []) (bsd svr : CString) :
    ∃ w' ns', addMapping bsd svr w = .ok ((), w') ∧ Lists w' ns' ∧
      ns'.map (fun n => n.2.names) = grown [] bsd svr w.mem ∧
      (w.toThread.Plenty → w'.toThread.Plenty) := by
  have hnone : w.mapping = none := h.chain
  rw [addMapping, Prog.bind_of_ok (Prog.gets_run _ _), Prog.bind_of_ok (Prog.gets_run _ _), hnone]
  simp only
  cases hgranted : w.mem 0 with
  | false =>
      obtain ⟨t, hnew⟩ := newNode_of_not_mem hgranted
      rw [Prog.bind_of_ok hnew, Prog.bind_of_ok (Prog.modify_run _ _), grown, if_neg (by simp [hgranted])]
      refine ⟨_, [], rfl, ⟨h.fresh, rfl, h.nodup⟩, rfl, ?_⟩
      intro hplenty
      rw [hplenty 0] at hgranted
      cases hgranted
  | true =>
      have h1 := (h.first (m := ⟨none, none, none⟩) rfl).thread w.answered
      obtain ⟨w', n, hfill, h2, hnames, hplenty⟩ := @fillNode_run _ _ bsd svr [] h1 _ rfl
      rw [Prog.bind_of_ok (newNode_of_mem hgranted), Prog.bind_of_ok (Prog.modify_run _ _), grown,
        if_pos hgranted]
      refine ⟨w', _, hfill, h2, ?_, ?_⟩
      · rw [List.nil_append, List.map_singleton, hnames]
        rfl
      · intro hw
        exact hplenty hw.answered

theorem addMapping_next (h : Lists w (ns ++ [(q, node)])) (bsd svr : CString) :
    match knownNodes bsd svr ((ns ++ [(q, node)]).map fun n => n.2.names) with
    | .error e => addMapping bsd svr w = .error e
    | .ok true => addMapping bsd svr w = .ok ((), w)
    | .ok false =>
        ∃ w' ns', addMapping bsd svr w = .ok ((), w') ∧ Lists w' ns' ∧
          ns'.map (fun n => n.2.names)
            = grown ((ns ++ [(q, node)]).map fun n => n.2.names) bsd svr w.mem ∧
          (w.toThread.Plenty → w'.toThread.Plenty) := by
  obtain ⟨head, hhead⟩ : ∃ head, w.mapping = some head := by
    cases hmap : w.mapping with
    | none =>
        have hchain := h.chain
        rw [hmap] at hchain
        cases ns with
        | nil => cases hchain.1
        | cons n ns => cases hchain.1
    | some head => exact ⟨head, rfl⟩
  have hchain := h.chain
  rw [hhead] at hchain
  have hend := endLoop_run bsd svr hchain (Nat.le_succ_of_le h.length_le)
  have hlink : node.next = none := (Heap.chain_snoc.mp h.chain).2.2
  rw [addMapping, Prog.bind_of_ok (Prog.gets_run _ _), Prog.bind_of_ok (Prog.gets_run _ _), hhead]
  simp only
  cases hknown : knownNodes bsd svr ((ns ++ [(q, node)]).map fun n => n.2.names) with
  | error e =>
      rw [hknown] at hend
      exact Prog.bind_of_error hend _
  | ok known =>
      rw [hknown] at hend
      cases known with
      | true =>
          simp only
          rw [Prog.bind_of_ok hend]
          rfl
      | false =>
          have hlast : endLoop bsd svr (w.heap.next + 1) head w = .ok (some q, w) := hend
          simp only
          rw [Prog.bind_of_ok hlast]
          simp only
          cases hgranted : w.mem 0 with
          | false =>
              obtain ⟨t, hnew⟩ := newNode_of_not_mem hgranted
              have h1 := h.thread t
              have h2 := h1.putLast { node with next := none } hlink.symm
              rw [Prog.bind_of_ok hnew, Prog.bind_of_ok h1.load, store,
                Prog.bind_of_ok (Prog.modify_run _ _), grown, if_neg (by simp [hgranted])]
              refine ⟨_, _, rfl, h2, ?_, ?_⟩
              · rw [List.map_append, List.map_append]
                rfl
              · intro hplenty
                rw [hplenty 0] at hgranted
                cases hgranted
          | true =>
              have hload : load q { w with toThread := w.answered, heap := w.heap.place ⟨none, none, none⟩ }
                  = .ok (node, { w with toThread := w.answered, heap := w.heap.place ⟨none, none, none⟩ }) := by
                apply load_run
                have hq := h.block (List.mem_append_right _ List.mem_cons_self)
                rw [← hq]
                exact Heap.place_of_ne (Nat.ne_of_lt (h.fresh.lt hq))
              have h1 := (h.grow (m := ⟨none, none, none⟩) rfl).thread w.answered
              rw [List.append_cons] at h1
              obtain ⟨w', n, hfill, h2, hnames, hplenty⟩ := fillNode_run bsd svr h1 rfl
              rw [Prog.bind_of_ok (newNode_of_mem hgranted), Prog.bind_of_ok hload, store,
                Prog.bind_of_ok (Prog.modify_run _ _), grown, if_pos hgranted]
              refine ⟨w', _, hfill, h2, ?_, ?_⟩
              · rw [List.map_append, List.map_singleton, hnames, List.map_append, List.map_append]
                rfl
              · intro hw
                exact hplenty hw.answered

theorem addMapping_run (h : Represents w t) (bsd svr : CString) :
    match t.known bsd svr with
    | .error e => addMapping bsd svr w = .error e
    | .ok true => addMapping bsd svr w = .ok ((), w)
    | .ok false => ∃ w', addMapping bsd svr w = .ok ((), w') ∧ Represents w' (t.add bsd svr w.mem) ∧
        (w.toThread.Plenty → w'.toThread.Plenty) := by
  obtain ⟨ns, hns, hnames⟩ := h.names
  have hadded : t.known bsd svr = .ok false →
      (∃ w' ns', addMapping bsd svr w = .ok ((), w') ∧ Lists w' ns' ∧
        ns'.map (fun n => n.2.names) = grown (ns.map fun n => n.2.names) bsd svr w.mem ∧
        (w.toThread.Plenty → w'.toThread.Plenty)) →
      ∃ w', addMapping bsd svr w = .ok ((), w') ∧ Represents w' (t.add bsd svr w.mem) ∧
        (w.toThread.Plenty → w'.toThread.Plenty) := by
    rintro hknown ⟨w', ns', hrun, hns', hnames', hplenty⟩
    obtain ⟨hnew, htorn⟩ := known_false hknown
    refine ⟨w', hrun, ⟨⟨ns', hns', ?_⟩, add_oneToOne h.oneToOne hnew _⟩, hplenty⟩
    rw [hnames', hnames, grown_nodes htorn]
  have hnodes := knownNodes_nodes t bsd svr
  rw [← hnames] at hnodes
  rcases List.eq_nil_or_concat ns with rfl | ⟨front, ⟨q, node⟩, rfl⟩
  · rw [← hnodes]
    exact hadded hnodes.symm (addMapping_first hns bsd svr)
  · rw [List.concat_eq_append] at *
    have hnext := addMapping_next hns bsd svr
    rw [hnodes] at hnext
    cases hknown : t.known bsd svr with
    | error e =>
        rw [hknown] at hnext
        exact hnext
    | ok known =>
        rw [hknown] at hnext
        cases known with
        | true => exact hnext
        | false => exact hadded hknown hnext

/-! ### Runs -/

/-- Nothing was added so far. -/
structure Empty (w : Mappings) : Prop where
  fresh : w.heap.Fresh
  mapping : w.mapping = none

theorem Empty.represents (h : Empty w) : Represents w ⟨[], none⟩ :=
  ⟨⟨[], ⟨h.fresh, h.mapping, List.nodup_nil⟩, rfl⟩, ⟨List.nodup_nil, List.nodup_nil⟩⟩

variable {c : Command}

theorem add_entries (t : NameTable) (bsd svr : CString) (mem : Nat → Bool) :
    t.entries <+: (t.add bsd svr mem).entries := by
  unfold NameTable.add
  split
  · exact List.prefix_refl _
  · split
    · exact List.prefix_refl _
    · split
      · exact List.prefix_refl _
      · exact List.prefix_append _ _

theorem step_kept (h : Represents w t) (hrun : step c w = .ok ((), w')) :
    ∃ t', Represents w' t' ∧ t.entries <+: t'.entries := by
  cases c with
  | get bsd =>
      obtain ⟨a, w1, hget, hpure⟩ := Prog.bind_eq_ok.mp hrun
      rw [sgGetSvrFromBsd_run h] at hget
      cases hanswer : t.answer bsd with
      | error e =>
          rw [hanswer] at hget
          cases hget
      | ok a =>
          rw [hanswer] at hget
          cases hget
          cases hpure
          exact ⟨t, h, List.prefix_refl _⟩
  | add bsd svr =>
      have hadd := addMapping_run h bsd svr
      have hrun' : addMapping bsd svr w = .ok ((), w') := hrun
      cases hknown : t.known bsd svr with
      | error e =>
          rw [hknown] at hadd
          rw [show addMapping bsd svr w = .error e from hadd] at hrun'
          cases hrun'
      | ok known =>
          rw [hknown] at hadd
          cases known with
          | true =>
              rw [show addMapping bsd svr w = .ok ((), w) from hadd] at hrun'
              cases hrun'
              exact ⟨t, h, List.prefix_refl _⟩
          | false =>
              obtain ⟨w1, hw1, hrep, -⟩ := hadd
              rw [hw1] at hrun'
              cases hrun'
              exact ⟨_, hrep, add_entries t bsd svr w.mem⟩

theorem run_kept {cs : List Command} (h : Represents w t)
    (hrun : Prog.sequence step cs w = .ok ((), w')) : ∃ t', Represents w' t' ∧ t.entries <+: t'.entries := by
  refine Prog.Always.final (I := fun w' => ∃ t', Represents w' t' ∧ t.entries <+: t'.entries) ?_
    ⟨t, h, List.prefix_refl _⟩ (Prog.always_true cs w) hrun
  rintro w1 c w2 ⟨t1, h1, hpre⟩ - hstep
  obtain ⟨t2, h2, hpre'⟩ := step_kept h1 hstep
  exact ⟨t2, h2, hpre.trans hpre'⟩

theorem find_iff (ht : t.OneToOne) : t.find bsd = some svr ↔ (bsd, svr) ∈ t.entries := by
  constructor
  · intro h
    obtain ⟨e, he, rfl⟩ := Option.map_eq_some_iff.mp h
    have hfound := List.find?_some he
    have hname : e.1 = bsd := of_decide_eq_true hfound
    rw [← hname]
    exact List.mem_of_find?_eq_some he
  · intro h
    have hsome : (t.entries.find? fun e => e.1 = bsd).isSome := by
      apply List.find?_isSome.mpr
      exact ⟨(bsd, svr), h, decide_eq_true rfl⟩
    obtain ⟨e, he⟩ := Option.isSome_iff_exists.mp hsome
    have hfound := List.find?_some he
    have hname : e.1 = bsd := of_decide_eq_true hfound
    have hsame : e = (bsd, svr) :=
      List.inj_on_of_nodup_map ht.bsd (List.mem_of_find?_eq_some he) h hname
    rw [NameTable.find, he, hsame]
    rfl

theorem get_mapped (h : Represents w t) (hne : svr ≠ bsd) :
    sgGetSvrFromBsd bsd w = .ok (some svr, w) ↔ (bsd, svr) ∈ t.entries := by
  rw [sgGetSvrFromBsd_run h, ← find_iff h.oneToOne]
  unfold NameTable.answer
  cases hfind : t.find bsd with
  | some s =>
      constructor
      · intro hget
        cases hget
        rfl
      · intro hs
        cases hs
        rfl
  | none =>
      refine ⟨?_, fun hs => by cases hs⟩
      intro hget
      cases htorn : t.torn with
      | none =>
          rw [htorn] at hget
          cases hget
          exact absurd rfl hne
      | some first =>
          rw [htorn] at hget
          cases first with
          | none => cases hget
          | some b =>
              by_cases hb : b = bsd
              · simp only [if_pos hb] at hget
                cases hget
              · simp only [if_neg hb] at hget
                cases hget
                exact absurd rfl hne

theorem answer_of_whole (ht : t.torn = none) (bsd : CString) :
    t.answer bsd = .ok (some ((t.find bsd).getD bsd)) := by
  unfold NameTable.answer
  rw [ht]
  cases t.find bsd with
  | none => rfl
  | some s => rfl

theorem known_of_whole (ht : t.torn = none) (bsd svr : CString) :
    t.known bsd svr = .ok (t.has bsd svr) := by
  unfold NameTable.known
  rw [ht]
  cases t.has bsd svr with
  | false => rfl
  | true => rfl

theorem add_of_plenty {x : Thread} (hx : x.Plenty) :
    t.add bsd svr x.mem = { t with entries := t.entries ++ [(bsd, svr)] } := by
  rw [NameTable.add, if_neg (by simp [hx 0]), if_neg (by simp [hx 1]), if_neg (by simp [hx 2])]

theorem learn_torn (t : NameTable) (c : Command) : (t.learn c).torn = t.torn := by
  cases c with
  | get bsd => rfl
  | add bsd svr =>
      rw [NameTable.learn]
      split
      · rfl
      · rfl

theorem step_learn (h : Represents w t) (ht : t.torn = none) (hplenty : w.toThread.Plenty) (c : Command) :
    ∃ w', step c w = .ok ((), w') ∧ Represents w' (t.learn c) ∧ w'.toThread.Plenty := by
  cases c with
  | get bsd =>
      refine ⟨w, ?_, h, hplenty⟩
      have hget : sgGetSvrFromBsd bsd w = .ok (some ((t.find bsd).getD bsd), w) := by
        rw [sgGetSvrFromBsd_run h, answer_of_whole ht]
        rfl
      rw [step, Prog.bind_of_ok hget]
      rfl
  | add bsd svr =>
      have hadd := addMapping_run h bsd svr
      rw [known_of_whole ht] at hadd
      cases hhas : t.has bsd svr with
      | true =>
          rw [hhas] at hadd
          rw [NameTable.learn, if_pos hhas]
          exact ⟨w, hadd, h, hplenty⟩
      | false =>
          rw [hhas] at hadd
          obtain ⟨w', hrun, hrep, hkeep⟩ := hadd
          rw [add_of_plenty hplenty] at hrep
          rw [NameTable.learn, if_neg (by simp [hhas])]
          exact ⟨w', hrun, hrep, hkeep hplenty⟩

theorem run_learn (h : Represents w t) (ht : t.torn = none) (hplenty : w.toThread.Plenty)
    (cs : List Command) :
    ∃ w', Prog.sequence step cs w = .ok ((), w') ∧ Represents w' (cs.foldl NameTable.learn t) ∧
      (cs.foldl NameTable.learn t).torn = none ∧ w'.toThread.Plenty := by
  induction cs generalizing w t with
  | nil => exact ⟨w, rfl, h, ht, hplenty⟩
  | cons c cs ih =>
      obtain ⟨w1, hrun, h1, hplenty1⟩ := step_learn h ht hplenty c
      rw [Prog.sequence_cons hrun]
      exact ih h1 ((learn_torn t c).trans ht) hplenty1

/-- The list of a program that has just started. -/
def noMappings : Mappings := { glob := .clear, mem := fun _ => true, heap := ⟨fun _ => none, 0⟩, mapping := none }

theorem noMappings_empty : Empty noMappings := ⟨fun _ _ => rfl, rfl⟩

/-- What was once answered from the list is answered ever after, and for no other disk: over any run of
calls and whatever memory is refused. -/
theorem mapping_kept {w0 w1 w2 : Mappings} {cs ds : List Command} (h0 : Empty w0)
    (hrun1 : Prog.sequence step cs w0 = .ok ((), w1))
    (hget : sgGetSvrFromBsd bsd w1 = .ok (some svr, w1)) (hne : svr ≠ bsd)
    (hrun2 : Prog.sequence step ds w1 = .ok ((), w2)) :
    sgGetSvrFromBsd bsd w2 = .ok (some svr, w2) ∧
      ∀ other, other ≠ bsd → other ≠ svr → sgGetSvrFromBsd other w2 ≠ .ok (some svr, w2) := by
  obtain ⟨t1, h1, -⟩ := run_kept h0.represents hrun1
  obtain ⟨t2, h2, hpre⟩ := run_kept h1 hrun2
  have hmem : (bsd, svr) ∈ t2.entries := hpre.subset ((get_mapped h1 hne).mp hget)
  refine ⟨(get_mapped h2 hne).mpr hmem, ?_⟩
  intro other hother hself hanswer
  have hmem' := (get_mapped h2 hself.symm).mp hanswer
  have hsame := List.inj_on_of_nodup_map h2.oneToOne.svr hmem' hmem rfl
  exact hother (congrArg Prod.fst hsame)

theorem mapping_kept_secondName :
    ∃ w, Prog.sequence step [.add (bytes "sd0") (bytes "c0t0d0"), .add (bytes "sd0") (bytes "c0t1d0")]
        noMappings = .ok ((), w) ∧
      sgGetSvrFromBsd (bytes "sd0") w = .ok (some (bytes "c0t0d0"), w) := by
  obtain ⟨w1, hrun1, h1, htorn1, hplenty1⟩ :=
    run_learn noMappings_empty.represents rfl (fun _ => rfl) [.add (bytes "sd0") (bytes "c0t0d0")]
  obtain ⟨w2, hrun2, -, -, -⟩ := run_learn h1 htorn1 hplenty1 [.add (bytes "sd0") (bytes "c0t1d0")]
  have hget : sgGetSvrFromBsd (bytes "sd0") w1 = .ok (some (bytes "c0t0d0"), w1) :=
    (get_mapped h1 (by decide)).mpr (by decide)
  refine ⟨w2, ?_, (mapping_kept noMappings_empty hrun1 hget (by decide) hrun2).1⟩
  obtain ⟨u, w, hstep, hpure⟩ := Prog.bind_eq_ok.mp hrun1
  cases hpure
  rw [Prog.sequence_cons hstep]
  exact hrun2

/-- Where all memory is granted no run faults, and each disk is answered the first name that was added
for it while that name was still free. -/
theorem run_learned (h0 : Empty w) (hplenty : w.toThread.Plenty) (cs : List Command) :
    ∃ w', Prog.sequence step cs w = .ok ((), w') ∧
      ∀ bsd, sgGetSvrFromBsd bsd w' = .ok (some (((NameTable.learned cs).find bsd).getD bsd), w') := by
  obtain ⟨w', hrun, hrep, htorn, -⟩ := run_learn h0.represents rfl hplenty cs
  refine ⟨w', hrun, ?_⟩
  intro bsd
  rw [sgGetSvrFromBsd_run hrep, answer_of_whole htorn]
  rfl

theorem run_learned_firstName :
    ∃ w, Prog.sequence step [.add (bytes "sd0") (bytes "c0t0d0"), .add (bytes "sd1") (bytes "c0t0d0")]
        noMappings = .ok ((), w) ∧
      sgGetSvrFromBsd (bytes "sd0") w = .ok (some (bytes "c0t0d0"), w) ∧
      sgGetSvrFromBsd (bytes "sd1") w = .ok (some (bytes "sd1"), w) := by
  obtain ⟨w, hrun, hget⟩ := run_learned noMappings_empty (fun _ => rfl)
    [.add (bytes "sd0") (bytes "c0t0d0"), .add (bytes "sd1") (bytes "c0t0d0")]
  exact ⟨w, hrun, hget (bytes "sd0"), hget (bytes "sd1")⟩

end Mappings

end Statgrab
