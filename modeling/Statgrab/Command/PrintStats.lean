import Statgrab.Lib.Search
import Statgrab.Lib.Text
import Statgrab.Tools

/-!
# `print_stats` of the `statgrab` command

The stats are sorted by name. A request is looked up by `bsearch`, and from the item it returns the range of
the items that match is found by two loops, one down to the start of the array and one up to its end. Which
item `bsearch` returns makes no difference: the items that match stand side by side.
-/

namespace Statgrab

open Text

/-! ### The code -/

inductive StatType where
  | longLong
  | unsignedLongLong
  | bytes
  | timeT
  | float
  | double
  | string
  | int
  | unsigned
  | bool
  | duplex
  deriving DecidableEq, Repr

structure StatItem where
  name : CString
  type : StatType
  stat : Nat
  deriving DecidableEq, Repr

def statsCompare (a b : StatItem) : Ordering := strcmp a.name b.name

def statsComparePrefix (key item : StatItem) : Ordering := strncmp key.name item.name key.name.length

/-- What is written: the line of a stat by `print_stat` to `stdout`, or a text to `stderr`. -/
inductive Printed where
  | stat (item : StatItem)
  | stderr (text : List UInt8)
  deriving DecidableEq, Repr

/-- The message about a request without a match. -/
def unknownStat (name : CString) : Printed := .stderr (format name (bytes "Unknown stat %s\n"))

section Range

variable (compare : StatItem → Ordering) (items : List StatItem)

/-- The loop down from `s`, and the `s++` behind it. The argument is `s + 1`, so 0 is the `s` before the
array. Nothing may be read outside the array. -/
def rangeStart : Nat → Option Nat
  | 0 => some 0
  | s + 1 =>
      match items[s]? with
      | none => none
      | some x => if compare x ≠ .eq then some (s + 1) else rangeStart s

/-- The loop up from `end`, with that many items to the end of the array. -/
def rangeEnd : Nat → Nat → Option Nat
  | 0, stop => some stop
  | left + 1, stop =>
      match items[stop]? with
      | none => none
      | some x => if compare x ≠ .eq then some stop else rangeEnd left (stop + 1)

end Range

/-- The loop that prints the items from `s` on, with that many of them to go. -/
def printRange (items : List StatItem) : Nat → Nat → Option (List Printed)
  | 0, _ => some []
  | left + 1, s => do
      let x ← items[s]?
      let rest ← printRange items left (s + 1)
      return .stat x :: rest

section Requests

variable (bsearch : (StatItem → Ordering) → List StatItem → Option Nat) (statItems : Option (List StatItem))

/-- One round of the loop over the arguments. The name may not be empty: its last byte is read. The fields
of `key` other than the name are not read. -/
def printRequest (name : CString) : Option (List Printed) := do
  let last ← name.getLast?
  let key : StatItem := ⟨name, .longLong, 0⟩
  let compare := if last = 46 then statsComparePrefix key else statsCompare key
  match statItems with
  | none => return [unknownStat name]
  | some items =>
      match bsearch compare items with
      | none => return [unknownStat name]
      | some s =>
          let s ← rangeStart compare items (s + 1)
          let stop ← rangeEnd compare items (items.length - s) s
          printRange items (stop - s) s

def printRequests : List CString → Option (List Printed)
  | [] => some []
  | name :: names => do
      let printed ← printRequest bsearch statItems name
      let rest ← printRequests names
      return printed ++ rest

/-- `print_stats`, with the array, which is NULL until the first stat is added, and the arguments behind
the options. -/
def printStats (argv : List CString) : Option (List Printed) :=
  if argv = [] then printRange (statItems.getD []) (statItems.getD []).length 0
  else printRequests bsearch statItems argv

end Requests

/-! ### What is asked for -/

/-- The item has the name that is asked for, or, where that ends in a dot, a name that starts with it. -/
def Wanted (request : CString) (item : StatItem) : Prop :=
  item.name = request ∨ request.getLast? = some 46 ∧ request <+: item.name

instance (request : CString) (item : StatItem) : Decidable (Wanted request item) :=
  inferInstanceAs (Decidable (_ ∨ _))

/-- The answer to a request: the items that are wanted, in the order of the list, or the message. -/
def answer (items : List StatItem) (request : CString) : List Printed :=
  let found := items.filter (Wanted request ·)
  if found = [] then [unknownStat request] else found.map .stat

def SortedStats (items : List StatItem) : Prop :=
  items.Pairwise fun a b => (statsCompare a b).isLE = true

/-! ### The range of the items that match -/

section Block

variable {compare : StatItem → Ordering} {front block back : List StatItem}

theorem rangeStart_block (hfront : ∀ x ∈ front, compare x = .gt) (hblock : ∀ x ∈ block, compare x = .eq)
    {s : Nat} (hlo : front.length ≤ s) (hhi : s ≤ (front ++ block).length) :
    rangeStart compare (front ++ block ++ back) s = some front.length := by
  induction s with
  | zero =>
      obtain hnil : front.length = 0 := Nat.le_zero.mp hlo
      rw [hnil]
      rfl
  | succ s ih =>
      have hget : (front ++ block ++ back)[s]? = some (front ++ block)[s] := by
        rw [List.getElem?_append_left hhi, List.getElem?_eq_getElem hhi]
      rw [rangeStart, hget]
      by_cases hlast : front.length = s + 1
      · have hs : s < front.length := by omega
        have hgt : compare (front ++ block)[s] = .gt := by
          rw [List.getElem_append_left hs]
          exact hfront _ (List.getElem_mem hs)
        simp only [hgt]
        rw [if_pos (by decide), hlast]
      · have hle : front.length ≤ s := by omega
        have heq : compare (front ++ block)[s] = .eq := by
          rw [List.getElem_append_right hle]
          exact hblock _ (List.getElem_mem _)
        simp only [heq]
        rw [if_neg (by decide)]
        exact ih hle (by omega)

theorem rangeEnd_block (hblock : ∀ x ∈ block, compare x = .eq) (hback : ∀ x ∈ back, compare x = .lt)
    {left stop : Nat} (hlo : front.length ≤ stop) (hhi : stop ≤ (front ++ block).length)
    (hleft : stop + left = (front ++ block ++ back).length) :
    rangeEnd compare (front ++ block ++ back) left stop = some (front ++ block).length := by
  induction left generalizing stop with
  | zero =>
      rw [List.length_append] at hleft
      rw [rangeEnd]
      exact congrArg some (by omega)
  | succ left ih =>
      have hlt : stop < (front ++ block ++ back).length := by omega
      rw [rangeEnd, List.getElem?_eq_getElem hlt]
      by_cases hin : stop < (front ++ block).length
      · have heq : compare (front ++ block ++ back)[stop] = .eq := by
          rw [List.getElem_append_left hin, List.getElem_append_right hlo]
          exact hblock _ (List.getElem_mem _)
        simp only [heq]
        rw [if_neg (by decide)]
        exact ih (by omega) hin (by omega)
      · have hlast : stop = (front ++ block).length := by omega
        have hlt' : compare (front ++ block ++ back)[stop] = .lt := by
          rw [List.getElem_append_right (by omega)]
          exact hback _ (List.getElem_mem _)
        simp only [hlt']
        rw [if_pos (by decide), hlast]

end Block

theorem printRange_eq {items : List StatItem} {left s : Nat} (h : s + left ≤ items.length) :
    printRange items left s = some (((items.drop s).take left).map .stat) := by
  induction left generalizing s with
  | zero => rfl
  | succ left ih =>
      have hs : s < items.length := by omega
      rw [printRange, List.getElem?_eq_getElem hs, Option.bind_eq_bind, Option.bind_some, ih (by omega),
        List.drop_eq_getElem_cons hs]
      rfl

/-! ### The two comparisons -/

def requestCompare (request : CString) : StatItem → Ordering :=
  if request.getLast? = some 46 then statsComparePrefix ⟨request, .longLong, 0⟩
  else statsCompare ⟨request, .longLong, 0⟩

theorem requestCompare_eq_iff (request : CString) (item : StatItem) :
    requestCompare request item = .eq ↔ Wanted request item := by
  rw [requestCompare, Wanted]
  by_cases hdot : request.getLast? = some 46
  · rw [if_pos hdot, statsComparePrefix, strncmp_eq_iff]
    constructor
    · intro hstart
      exact .inr ⟨hdot, hstart⟩
    · rintro (hname | ⟨-, hstart⟩)
      · subst hname
        exact List.prefix_rfl
      · exact hstart
  · rw [if_neg hdot, statsCompare, strcmp_eq_iff]
    constructor
    · intro hname
      exact .inl hname.symm
    · rintro (hname | ⟨hdot', -⟩)
      · exact hname.symm
      · exact absurd hdot' hdot

theorem requestCompare_monotone (request : CString) {items : List StatItem} (hsorted : SortedStats items) :
    items.Pairwise (Search.Monotone (requestCompare request)) := by
  refine List.Pairwise.imp ?_ hsorted
  intro a b hab
  rw [requestCompare]
  by_cases hdot : request.getLast? = some 46
  · rw [if_pos hdot]
    exact Search.monotone_of_isLE (request.take request.length) (strncmp_isLE hab request.length)
  · rw [if_neg hdot]
    exact Search.monotone_of_isLE request hab

/-! ### The requests -/

theorem filter_wanted {request : CString} {front block back : List StatItem}
    (hfront : ∀ x ∈ front, requestCompare request x = .gt)
    (hblock : ∀ x ∈ block, requestCompare request x = .eq)
    (hback : ∀ x ∈ back, requestCompare request x = .lt) :
    (front ++ block ++ back).filter (Wanted request ·) = block := by
  have hnone : ∀ {part : List StatItem}, (∀ x ∈ part, requestCompare request x ≠ .eq) →
      part.filter (Wanted request ·) = [] := by
    intro part hpart
    rw [List.filter_eq_nil_iff]
    intro x hx
    rw [decide_eq_true_eq, ← requestCompare_eq_iff]
    exact hpart x hx
  have hall : block.filter (Wanted request ·) = block := by
    rw [List.filter_eq_self]
    intro x hx
    rw [decide_eq_true_eq, ← requestCompare_eq_iff]
    exact hblock x hx
  rw [List.filter_append, List.filter_append, hall, hnone fun x hx => by rw [hfront x hx]; decide,
    hnone fun x hx => by rw [hback x hx]; decide, List.nil_append, List.append_nil]

section Requests

variable {bsearch : (StatItem → Ordering) → List StatItem → Option Nat}

theorem printRequest_some {request : CString} (hne : request ≠ []) (items : List StatItem) :
    printRequest bsearch (some items) request =
      match bsearch (requestCompare request) items with
      | none => some [unknownStat request]
      | some s =>
          (rangeStart (requestCompare request) items (s + 1)).bind fun s =>
            (rangeEnd (requestCompare request) items (items.length - s) s).bind fun stop =>
              printRange items (stop - s) s := by
  have hlast := List.getLast?_eq_some_getLast hne
  have hcompare : requestCompare request
      = if request.getLast hne = 46 then statsComparePrefix ⟨request, .longLong, 0⟩
        else statsCompare ⟨request, .longLong, 0⟩ := by
    rw [requestCompare, hlast]
    simp only [Option.some.injEq]
  rw [printRequest, hlast, hcompare]
  rfl

theorem printRequest_none {request : CString} (hne : request ≠ []) :
    printRequest bsearch none request = some [unknownStat request] := by
  rw [printRequest, List.getLast?_eq_some_getLast hne]
  rfl

/-- A request is answered, whichever of the items that match is returned by `bsearch`. -/
theorem printRequest_answer (hsearch : Search.Lawful bsearch) {statItems : Option (List StatItem)}
    (hsorted : SortedStats (statItems.getD [])) {request : CString} (hne : request ≠ []) :
    printRequest bsearch statItems request = some (answer (statItems.getD []) request) := by
  cases statItems with
  | none =>
      rw [printRequest_none hne]
      rfl
  | some items =>
      have hmono := requestCompare_monotone request hsorted
      rw [Option.getD_some] at hmono ⊢
      obtain ⟨front, block, back, rfl, hfront, hblock, hback⟩ := Search.exists_block hmono
      have hfilter := filter_wanted hfront hblock hback
      rw [printRequest_some hne]
      cases hfound : bsearch (requestCompare request) (front ++ block ++ back) with
      | none =>
          have hnil : block = [] := by
            rw [List.eq_nil_iff_forall_not_mem]
            intro x hx
            exact hsearch.missed hmono hfound x (by simp [hx]) (hblock x hx)
          simp only [answer, hfilter]
          rw [if_pos hnil]
      | some s =>
          obtain ⟨x, hx, heq⟩ := hsearch.found hmono hfound
          -- the item is neither before nor behind the block
          have hlo : front.length ≤ s := by
            by_contra hlt
            rw [List.append_assoc, List.getElem?_append_left (by omega)] at hx
            rw [hfront x (List.mem_of_getElem? hx)] at heq
            cases heq
          have hhi : s < (front ++ block).length := by
            by_contra hge
            rw [List.getElem?_append_right (by omega)] at hx
            rw [hback x (List.mem_of_getElem? hx)] at heq
            cases heq
          have hne' : block ≠ [] := by
            rintro rfl
            rw [List.append_nil] at hhi
            omega
          have hlen : (front ++ block ++ back).length = (front ++ block).length + back.length :=
            List.length_append
          have hlen' : (front ++ block).length = front.length + block.length := List.length_append
          simp only [answer, hfilter]
          rw [if_neg hne', rangeStart_block hfront hblock (by omega) hhi, Option.bind_some,
            rangeEnd_block hblock hback (Nat.le_refl _) (by omega) (by omega), Option.bind_some,
            printRange_eq (by omega), hlen', Nat.add_sub_cancel_left, List.append_assoc, List.drop_left,
            List.take_left]

theorem printRequests_answer (hsearch : Search.Lawful bsearch) {statItems : Option (List StatItem)}
    (hsorted : SortedStats (statItems.getD [])) {argv : List CString} (hargv : ∀ request ∈ argv, request ≠ []) :
    printRequests bsearch statItems argv = some (argv.flatMap (answer (statItems.getD []))) := by
  induction argv with
  | nil => rfl
  | cons request argv ih =>
      rw [printRequests, printRequest_answer hsearch hsorted (hargv request List.mem_cons_self),
        Option.bind_eq_bind, Option.bind_some, ih fun r hr => hargv r (List.mem_cons_of_mem request hr)]
      rfl

/-- The command prints what it is asked for, each item once and in the order of the list, and reports the
requests without a match. -/
theorem printStats_answer (hsearch : Search.Lawful bsearch) {statItems : Option (List StatItem)}
    (hsorted : SortedStats (statItems.getD [])) {argv : List CString} (hne : argv ≠ [])
    (hargv : ∀ request ∈ argv, request ≠ []) :
    printStats bsearch statItems argv = some (argv.flatMap (answer (statItems.getD []))) := by
  rw [printStats, if_neg hne]
  exact printRequests_answer hsearch hsorted hargv

theorem printStats_all (statItems : Option (List StatItem)) :
    printStats bsearch statItems [] = some ((statItems.getD []).map .stat) := by
  rw [printStats, if_pos rfl, printRange_eq (by omega), List.drop_zero, List.take_length]

end Requests

def cpuStats : List StatItem :=
  [⟨bytes "cpu.idle", .unsignedLongLong, 0⟩, ⟨bytes "cpu.user", .unsignedLongLong, 8⟩,
    ⟨bytes "cpu.user", .unsignedLongLong, 16⟩, ⟨bytes "cpuinfo", .string, 24⟩, ⟨bytes "mem.free", .bytes, 32⟩]

/-- A section, a name and a section that is not there, looked up by halves. -/
theorem printStats_cpu :
    printStats Search.halves (some cpuStats) [bytes "cpu.", bytes "cpu.user", bytes "swap."]
      = some ((cpuStats.take 3).map .stat ++ ((cpuStats.drop 1).take 2).map .stat ++
          [.stderr (bytes "Unknown stat swap.\n")]) := by
  have hsorted : SortedStats ((some cpuStats).getD []) := by
    unfold SortedStats
    decide
  have hrequests : ∀ request ∈ [bytes "cpu.", bytes "cpu.user", bytes "swap."], request ≠ [] := by
    decide
  rw [printStats_answer Search.halves_lawful hsorted (by simp) hrequests]
  decide

end Statgrab
