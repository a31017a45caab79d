import Statgrab.Lib.Regex
import Statgrab.Lib.Rows
import Statgrab.Stats.CpuPage
import Statgrab.Stats.Meminfo
import Statgrab.Stats.NetDev

/-!
# `/proc/stat` and `/proc/meminfo`

Two readers go through a table of words and numbers line by line, with `fgets` into a buffer and `sscanf`
on what it got, and pick the rows they know. On a table that has no word twice each of them gets what a
search for its words finds, in whatever order the rows stand and however long the rows that follow their
numbers are: the `intr` row of a machine with many interrupts does not fit into the buffer.
-/

namespace Statgrab

open Text

/-! ### CPU -/

/-- `strncmp(line, word, strlen(word)) == 0 && isblank(line[strlen(word)])`. -/
def startsWord (buf word : List UInt8) : Bool :=
  strncmp buf word word.length = .eq && (buf[word.length]?).any Regex.isBlank

def sscanfNumbers (fmt : String) (line : List UInt8) : List UInt64 :=
  (Scanf.scanf (bytes fmt) line).1.filterMap fun value =>
    match value with
    | .number n => some (UInt64.ofInt n)
    | _ => none

/-- One round of the loop over `/proc/stat`, with the bytes that `fgets` got. -/
def statLine (buf : List UInt8) : StatLine :=
  let line := upToNul buf
  if startsWord line (bytes "cpu") then .cpu (sscanfNumbers "cpu %llu %llu %llu %llu %llu" line)
  else if startsWord line (bytes "intr") then .intr (sscanfNumbers "intr %llu" line)[0]?
  else if startsWord line (bytes "ctxt") then .ctxt (sscanfNumbers "ctxt %llu" line)[0]?
  else if startsWord line (bytes "softirq") then .softirq (sscanfNumbers "softirq %llu" line)[0]?
  else .other

/-- What the CPU reader meets: `/proc/stat` unless it cannot be opened, and the time. -/
def procStat (file : Except Int Stream) (now : Int) : StatFile :=
  ⟨file.map fun f => (readLines 1024 f).map statLine, now⟩

def statWords : List (List UInt8) := [bytes "cpu", bytes "intr", bytes "ctxt", bytes "softirq"]

/-- A row as the kernel writes it to `/proc/stat`: one that the reader looks for has the numbers it needs, and
they are not too far to the right. -/
structure StatRow (row : Row) : Prop where
  word : row.word.length < 1024
  pad : row.word ∈ statWords → row.pad < 900
  values : row.word ∈ statWords → ∀ n ∈ row.values, n < 2 ^ 64
  enough : row.word ∈ statWords → (if row.word = bytes "cpu" then 4 else 1) ≤ row.values.length

/-- The number at a place of the row of a word, and zero where there is none. -/
def tableNumber (rows : List Row) (word : List UInt8) (i : Nat) : UInt64 :=
  (Row.rowOf rows word).elim 0 fun row => UInt64.ofNat (row.values.getD i 0)

def CpuStats.ofTable (rows : List Row) (now : Int) : CpuStats :=
  { CpuStats.zero with
    user := tableNumber rows (bytes "cpu") 0
    nice := tableNumber rows (bytes "cpu") 1
    kernel := tableNumber rows (bytes "cpu") 2
    idle := tableNumber rows (bytes "cpu") 3
    iowait := tableNumber rows (bytes "cpu") 4
    interrupts := tableNumber rows (bytes "intr") 0
    contextSwitches := tableNumber rows (bytes "ctxt") 0
    softInterrupts := tableNumber rows (bytes "softirq") 0
    total := tableNumber rows (bytes "cpu") 0 + tableNumber rows (bytes "cpu") 1 + tableNumber rows (bytes "cpu") 2
      + tableNumber rows (bytes "cpu") 3
    systime := now }

theorem startsWord_iff {line word : List UInt8} :
    startsWord line word = true ↔ ∃ c, Regex.isBlank c = true ∧ word ++ [c] <+: line := by
  rw [startsWord, Bool.and_eq_true, decide_eq_true_eq, Option.any_eq_true]
  constructor
  · rintro ⟨hcmp, c, hc, hblank⟩
    rw [strncmp, List.take_length, strcmp_eq_iff] at hcmp
    refine ⟨c, hblank, ?_⟩
    rw [List.prefix_iff_eq_take, List.length_append, List.length_singleton, List.take_add_one, hcmp, hc]
    rfl
  · rintro ⟨c, hblank, rest, rfl⟩
    refine ⟨?_, c, ?_, hblank⟩
    · rw [strncmp, List.take_length, List.append_assoc, List.take_left, strcmp_eq_iff]
    · rw [List.append_assoc, List.getElem?_append_right (Nat.le_refl _), Nat.sub_self]
      rfl

theorem ofInt_strtoul {n : Nat} (hn : n < 2 ^ 64) : UInt64.ofInt (Scanf.storedNumber .llu n) = UInt64.ofNat n := by
  have hstored : Scanf.storedNumber .llu n = n := by
    simp only [Scanf.storedNumber, Scanf.strtoul]
    omega
  have hnat : ((n : Int) % 2 ^ 64).toNat = n := by omega
  rw [hstored, UInt64.ofInt, hnat]

/-- The numbers of a row, converted by a format that starts with its word. -/
theorem sscanfNumbers_line {row : Row} {k : Nat} (hk : 0 < k) {fmt : String}
    (hfmt : Scanf.parse none (bytes fmt) = some (row.word.map .literal ++ (Row.reads .llu k ++ [])))
    (hvalues : ∀ n ∈ row.values, n < 2 ^ 64) (hfits : row.word.length + row.pad + 21 * k < 1024) :
    sscanfNumbers fmt (row.line 1024) = (row.values.take k).map UInt64.ofNat := by
  have hnumeric : Scanf.Conversion.Numeric .llu := ⟨nofun, nofun⟩
  have hread : (Scanf.scan (row.word.map .literal ++ (Row.reads .llu k ++ [])) (row.line 1024)).1
      = (row.values.take k).map fun n => .number (Scanf.storedNumber .llu n) :=
    Row.scan_word hnumeric rfl hk hvalues hfits
  rw [sscanfNumbers, Scanf.scanf, hfmt]
  simp only
  rw [hread, List.filterMap_map, ← List.filterMap_eq_map]
  apply List.filterMap_congr
  intro n hn
  exact congrArg some (ofInt_strtoul (hvalues n (List.mem_of_mem_take hn)))

theorem startsWord_own {row : Row} {size : Nat} (hvalues : ∀ n ∈ row.values, n < 2 ^ 64)
    (hfits : row.word.length + row.pad + 21 * 1 < size) (hne : row.values ≠ []) :
    startsWord (row.line size) row.word = true := by
  obtain ⟨rest, -, hline, -⟩ := Row.line_numbers hvalues hfits
  obtain ⟨n, values, hcons⟩ := List.exists_cons_of_ne_nil hne
  rw [startsWord_iff]
  refine ⟨32, rfl, ?_⟩
  rw [hline, List.prefix_append_right_inj, hcons]
  cases row.pad with
  | zero => exact List.prefix_append [32] _
  | succ pad => exact List.prefix_append [32] _

theorem startsWord_other {row : Row} {size : Nat} (hfits : row.word.length < size) {word : List UInt8}
    (hplain : ∀ b ∈ word, isSpace b = false) (hne : row.word ≠ word) :
    startsWord (row.line size) word = false := by
  rw [Bool.eq_false_iff]
  intro hstart
  obtain ⟨c, hblank, hprefix⟩ := startsWord_iff.mp hstart
  exact hne (Row.word_of_prefix hfits hplain (isSpace_of_isBlank hblank) hprefix)

theorem statWords_plain {word : List UInt8} (h : word ∈ statWords) : ∀ b ∈ word, isSpace b = false := by
  have hall : statWords.all (fun word => word.all fun b => !isSpace b) = true := by decide
  intro b hb
  simpa using List.all_eq_true.mp (List.all_eq_true.mp hall word h) b hb

def CpuStats.storeRow (buf : CpuStats) (row : Row) : CpuStats :=
  if row.word = bytes "cpu" then buf.storeCpu ((row.values.take 5).map UInt64.ofNat)
  else if row.word = bytes "intr" then { buf with interrupts := UInt64.ofNat (row.values.getD 0 0) }
  else if row.word = bytes "ctxt" then { buf with contextSwitches := UInt64.ofNat (row.values.getD 0 0) }
  else if row.word = bytes "softirq" then { buf with softInterrupts := UInt64.ofNat (row.values.getD 0 0) }
  else buf

def rowLine (row : Row) : StatLine :=
  if row.word = bytes "cpu" then .cpu ((row.values.take 5).map UInt64.ofNat)
  else if row.word = bytes "intr" then .intr (some (UInt64.ofNat (row.values.getD 0 0)))
  else if row.word = bytes "ctxt" then .ctxt (some (UInt64.ofNat (row.values.getD 0 0)))
  else if row.word = bytes "softirq" then .softirq (some (UInt64.ofNat (row.values.getD 0 0)))
  else .other

namespace StatRow

variable {row : Row} (h : StatRow row)

include h

theorem values_ne (hword : row.word ∈ statWords) : row.values ≠ [] := by
  intro hnil
  have henough := h.enough hword
  rw [hnil] at henough
  split at henough <;> cases henough

theorem fits (hword : row.word ∈ statWords) {k : Nat} (hk : k ≤ 5) :
    row.word.length + row.pad + 21 * k < 1024 := by
  have hshort : ∀ word ∈ statWords, word.length ≤ 7 := by decide
  have hlen := hshort row.word hword
  have hpad := h.pad hword
  omega

theorem startsWord {word : List UInt8} (hword : word ∈ statWords) :
    Statgrab.startsWord (row.line 1024) word = decide (row.word = word) := by
  by_cases hsame : row.word = word
  · subst hsame
    rw [startsWord_own (h.values hword) (h.fits hword (by decide)) (h.values_ne hword), decide_eq_true rfl]
  · rw [startsWord_other h.word (statWords_plain hword) hsame, decide_eq_false hsame]

theorem first {fmt : String} (hword : row.word ∈ statWords)
    (hfmt : Scanf.parse none (bytes fmt) = some (row.word.map .literal ++ (Row.reads .llu 1 ++ []))) :
    (sscanfNumbers fmt (row.line 1024))[0]? = some (UInt64.ofNat (row.values.getD 0 0)) := by
  rw [sscanfNumbers_line (by decide) hfmt (h.values hword) (h.fits hword (by decide))]
  obtain ⟨n, values, hcons⟩ := List.exists_cons_of_ne_nil (h.values_ne hword)
  rw [hcons]
  rfl

theorem statLine : Statgrab.statLine (row.line 1024) = rowLine row := by
  rw [Statgrab.statLine, rowLine]
  simp only [Row.upToNul_line]
  rw [h.startsWord (by decide), h.startsWord (by decide), h.startsWord (by decide), h.startsWord (by decide)]
  simp only [decide_eq_true_eq]
  by_cases hcpu : row.word = bytes "cpu"
  · rw [if_pos hcpu, if_pos hcpu, sscanfNumbers_line (k := 5) (by decide) (by rw [hcpu]; rfl)
      (h.values (by rw [hcpu]; decide)) (h.fits (by rw [hcpu]; decide) (by decide))]
  rw [if_neg hcpu, if_neg hcpu]
  by_cases hintr : row.word = bytes "intr"
  · rw [if_pos hintr, if_pos hintr, h.first (by rw [hintr]; decide) (by rw [hintr]; rfl)]
  rw [if_neg hintr, if_neg hintr]
  by_cases hctxt : row.word = bytes "ctxt"
  · rw [if_pos hctxt, if_pos hctxt, h.first (by rw [hctxt]; decide) (by rw [hctxt]; rfl)]
  rw [if_neg hctxt, if_neg hctxt]
  by_cases hsoftirq : row.word = bytes "softirq"
  · rw [if_pos hsoftirq, if_pos hsoftirq, h.first (by rw [hsoftirq]; decide) (by rw [hsoftirq]; rfl)]
  · rw [if_neg hsoftirq, if_neg hsoftirq]

end StatRow

def StatLine.wanted : StatLine → Bool
  | .other => false
  | _ => true

theorem scanStat_stop {matched : Nat} (h : 4 ≤ matched) (lines : List StatLine) (buf : CpuStats) :
    scanStat lines matched buf = return (.none, buf, matched) := by
  cases lines with
  | nil => rfl
  | cons line lines =>
      rw [scanStat.eq_def]
      exact if_pos h

theorem scanStat_other (lines : List StatLine) (matched : Nat) (buf : CpuStats) :
    scanStat (.other :: lines) matched buf = scanStat lines matched buf := by
  rw [scanStat]
  split
  · next hmatched => rw [scanStat_stop hmatched]
  · rfl

theorem scanStat_congr {lines lines' : List StatLine}
    (h : ∀ matched buf, scanStat lines matched buf = scanStat lines' matched buf) (line : StatLine)
    (matched : Nat) (buf : CpuStats) :
    scanStat (line :: lines) matched buf = scanStat (line :: lines') matched buf := by
  cases line with
  | cpu values => simp only [scanStat, h]
  | intr value => cases value <;> simp only [scanStat, h]
  | ctxt value => cases value <;> simp only [scanStat, h]
  | softirq value => cases value <;> simp only [scanStat, h]
  | other => simp only [scanStat, h]

/-- The loop skips the lines it does not look for. -/
theorem scanStat_filter (lines : List StatLine) (matched : Nat) (buf : CpuStats) :
    scanStat (lines.filter StatLine.wanted) matched buf = scanStat lines matched buf := by
  induction lines generalizing matched buf with
  | nil => rfl
  | cons line lines ih =>
      cases hwanted : line.wanted with
      | true =>
          rw [List.filter_cons_of_pos hwanted]
          exact scanStat_congr ih line matched buf
      | false =>
          obtain rfl : line = .other := by
            cases line with
            | other => rfl
            | _ => cases hwanted
          rw [List.filter_cons_of_neg (by decide), scanStat_other]
          exact ih matched buf

theorem rowLine_wanted (row : Row) : (rowLine row).wanted = decide (row.word ∈ statWords) := by
  have hmem : row.word ∈ statWords ↔ row.word = bytes "cpu" ∨ row.word = bytes "intr" ∨
      row.word = bytes "ctxt" ∨ row.word = bytes "softirq" := by
    simp only [statWords, List.mem_cons, List.not_mem_nil, or_false]
  rw [Bool.eq_iff_iff, decide_eq_true_eq, hmem, rowLine]
  split_ifs <;> simp_all [StatLine.wanted]

theorem scanStat_rows {rows : List Row} (hrows : ∀ row ∈ rows, StatRow row ∧ row.word ∈ statWords)
    {matched : Nat} (hmatched : matched + rows.length ≤ 4) (buf : CpuStats) :
    scanStat (rows.map rowLine) matched buf
      = return (.none, rows.foldl CpuStats.storeRow buf, matched + rows.length) := by
  induction rows generalizing matched buf with
  | nil => rfl
  | cons row rows ih =>
      obtain ⟨hrow, hword⟩ := hrows row List.mem_cons_self
      rw [List.length_cons] at hmatched
      have hgo : ¬ 4 ≤ matched := by omega
      have hfew : matched + 1 + rows.length ≤ 4 := by omega
      have hrest := ih (fun r hr => hrows r (List.mem_cons_of_mem row hr)) hfew (buf.storeRow row)
      rw [List.length_cons, List.foldl_cons, ← Nat.add_assoc, Nat.add_right_comm, ← hrest, List.map_cons]
      by_cases hcpu : row.word = bytes "cpu"
      · have henough := hrow.enough hword
        rw [if_pos hcpu] at henough
        have hlen : ¬ ((row.values.take 5).map UInt64.ofNat).length < 4 := by
          rw [List.length_map, List.length_take]
          omega
        have htake : ((row.values.take 5).map UInt64.ofNat).take 5 = (row.values.take 5).map UInt64.ofNat := by
          rw [← List.map_take, List.take_take, Nat.min_self]
        rw [rowLine, if_pos hcpu, CpuStats.storeRow, if_pos hcpu]
        simp only [scanStat, hgo, hlen, if_false, htake]
      · have hmem : row.word = bytes "intr" ∨ row.word = bytes "ctxt" ∨ row.word = bytes "softirq" := by
          simpa [statWords, hcpu] using hword
        rcases hmem with hword | hword | hword
        · have hline : rowLine row = .intr (some (UInt64.ofNat (row.values.getD 0 0))) := by
            rw [rowLine, if_neg hcpu, if_pos hword]
          rw [hline, scanStat, if_neg hgo, CpuStats.storeRow, if_neg hcpu, if_pos hword]
        · have hintr : row.word ≠ bytes "intr" := by
            rw [hword]
            decide
          have hline : rowLine row = .ctxt (some (UInt64.ofNat (row.values.getD 0 0))) := by
            rw [rowLine, if_neg hcpu, if_neg hintr, if_pos hword]
          rw [hline, scanStat, if_neg hgo, CpuStats.storeRow, if_neg hcpu, if_neg hintr, if_pos hword]
        · have hintr : row.word ≠ bytes "intr" := by
            rw [hword]
            decide
          have hctxt : row.word ≠ bytes "ctxt" := by
            rw [hword]
            decide
          have hline : rowLine row = .softirq (some (UInt64.ofNat (row.values.getD 0 0))) := by
            rw [rowLine, if_neg hcpu, if_neg hintr, if_neg hctxt, if_pos hword]
          rw [hline, scanStat, if_neg hgo, CpuStats.storeRow, if_neg hcpu, if_neg hintr, if_neg hctxt,
            if_pos hword]

theorem foldl_number {rows : List Row} (hdistinct : (rows.map Row.word).Nodup) {get : CpuStats → UInt64}
    {word : List UInt8} {i : Nat} {val : Row → UInt64 → UInt64}
    (hsame : ∀ buf row, row.word = word → get (CpuStats.storeRow buf row) = val row (get buf))
    (hother : ∀ buf row, row.word ≠ word → get (CpuStats.storeRow buf row) = get buf)
    (hval : ∀ row, val row (get .zero) = UInt64.ofNat (row.values.getD i 0)) (hzero : get .zero = 0) :
    get (rows.foldl CpuStats.storeRow .zero) = tableNumber rows word i := by
  rw [Row.foldl_rowOf (fun buf row _ => hsame buf row) (fun buf row _ => hother buf row) hdistinct,
    tableNumber, hzero]
  congr 1
  funext row
  rw [← hval row, hzero]

theorem getD_take_map {values : List Nat} {i : Nat} (hi : i < 5) :
    ((values.take 5).map UInt64.ofNat).getD i 0 = UInt64.ofNat (values.getD i 0) := by
  rw [List.getD_eq_getElem?_getD, List.getElem?_map, List.getElem?_take_of_lt hi, List.getD_eq_getElem?_getD]
  cases values[i]? with
  | none => rfl
  | some n => rfl

theorem foldl_storeRow {rows : List Row} (hdistinct : (rows.map Row.word).Nodup) :
    rows.foldl CpuStats.storeRow .zero
      = { CpuStats.zero with
          user := tableNumber rows (bytes "cpu") 0
          nice := tableNumber rows (bytes "cpu") 1
          kernel := tableNumber rows (bytes "cpu") 2
          idle := tableNumber rows (bytes "cpu") 3
          iowait := tableNumber rows (bytes "cpu") 4
          interrupts := tableNumber rows (bytes "intr") 0
          contextSwitches := tableNumber rows (bytes "ctxt") 0
          softInterrupts := tableNumber rows (bytes "softirq") 0 } := by
  -- a field of the `cpu` row, which the three other assignments leave alone
  have hcpu : ∀ {get : CpuStats → UInt64} {i : Nat}, i < 5 → get .zero = 0 →
      (∀ buf values, get (CpuStats.storeCpu buf values) = values.getD i (get buf)) →
      (∀ buf v, get { buf with interrupts := v } = get buf) →
      (∀ buf v, get { buf with contextSwitches := v } = get buf) →
      (∀ buf v, get { buf with softInterrupts := v } = get buf) →
      get (rows.foldl CpuStats.storeRow .zero) = tableNumber rows (bytes "cpu") i := by
    intro get i hi hzero hstore hintr hctxt hsoftirq
    have hsame : ∀ buf row, row.word = bytes "cpu" → get (CpuStats.storeRow buf row)
        = ((row.values.take 5).map UInt64.ofNat).getD i (get buf) := by
      intro buf row hword
      rw [CpuStats.storeRow, if_pos hword, hstore]
    have hother : ∀ buf row, row.word ≠ bytes "cpu" → get (CpuStats.storeRow buf row) = get buf := by
      intro buf row hne
      rw [CpuStats.storeRow, if_neg hne]
      split_ifs
      · exact hintr _ _
      · exact hctxt _ _
      · exact hsoftirq _ _
      · rfl
    apply foldl_number hdistinct hsame hother _ hzero
    intro row
    rw [hzero, getD_take_map hi]
  have huser : (rows.foldl CpuStats.storeRow .zero).user = tableNumber rows (bytes "cpu") 0 :=
    hcpu (by decide) rfl (fun _ _ => rfl) (fun _ _ => rfl) (fun _ _ => rfl) fun _ _ => rfl
  have hnice : (rows.foldl CpuStats.storeRow .zero).nice = tableNumber rows (bytes "cpu") 1 :=
    hcpu (by decide) rfl (fun _ _ => rfl) (fun _ _ => rfl) (fun _ _ => rfl) fun _ _ => rfl
  have hkernel : (rows.foldl CpuStats.storeRow .zero).kernel = tableNumber rows (bytes "cpu") 2 :=
    hcpu (by decide) rfl (fun _ _ => rfl) (fun _ _ => rfl) (fun _ _ => rfl) fun _ _ => rfl
  have hidle : (rows.foldl CpuStats.storeRow .zero).idle = tableNumber rows (bytes "cpu") 3 :=
    hcpu (by decide) rfl (fun _ _ => rfl) (fun _ _ => rfl) (fun _ _ => rfl) fun _ _ => rfl
  have hiowait : (rows.foldl CpuStats.storeRow .zero).iowait = tableNumber rows (bytes "cpu") 4 :=
    hcpu (by decide) rfl (fun _ _ => rfl) (fun _ _ => rfl) (fun _ _ => rfl) fun _ _ => rfl
  have hfirst : ∀ {get : CpuStats → UInt64} {word : List UInt8}, get .zero = 0 →
      (∀ buf row, row.word = word → get (CpuStats.storeRow buf row) = UInt64.ofNat (row.values.getD 0 0)) →
      (∀ buf row, row.word ≠ word → get (CpuStats.storeRow buf row) = get buf) →
      get (rows.foldl CpuStats.storeRow .zero) = tableNumber rows word 0 := by
    intro get word hzero hsame hother
    exact @foldl_number rows hdistinct get word 0 (fun row _ => UInt64.ofNat (row.values.getD 0 0)) hsame hother
      (fun _ => rfl) hzero
  have hinterrupts : (rows.foldl CpuStats.storeRow .zero).interrupts = tableNumber rows (bytes "intr") 0 := by
    apply hfirst rfl
    · intro buf row hword
      rw [CpuStats.storeRow, if_neg (by rw [hword]; decide), if_pos hword]
    · intro buf row hne
      rw [CpuStats.storeRow, if_neg hne]
      split_ifs <;> rfl
  have hswitches : (rows.foldl CpuStats.storeRow .zero).contextSwitches = tableNumber rows (bytes "ctxt") 0 := by
    apply hfirst rfl
    · intro buf row hword
      rw [CpuStats.storeRow, if_neg (by rw [hword]; decide), if_neg (by rw [hword]; decide), if_pos hword]
    · intro buf row hne
      rw [CpuStats.storeRow, if_neg hne]
      split_ifs <;> rfl
  have hsoft : (rows.foldl CpuStats.storeRow .zero).softInterrupts = tableNumber rows (bytes "softirq") 0 := by
    apply hfirst rfl
    · intro buf row hword
      rw [CpuStats.storeRow, if_neg (by rw [hword]; decide), if_neg (by rw [hword]; decide),
        if_neg (by rw [hword]; decide), if_pos hword]
    · intro buf row hne
      rw [CpuStats.storeRow, if_neg hne]
      split_ifs <;> rfl
  have hkept := List.foldlRecOn rows CpuStats.storeRow
    (motive := fun buf => buf.swap = 0 ∧ buf.total = 0 ∧ buf.voluntaryContextSwitches = 0 ∧
      buf.involuntaryContextSwitches = 0 ∧ buf.syscalls = 0 ∧ buf.systime = 0)
    (⟨rfl, rfl, rfl, rfl, rfl, rfl⟩ : CpuStats.zero.swap = 0 ∧ _) fun buf hbuf row _ => by
      rw [CpuStats.storeRow]
      split_ifs <;> exact hbuf
  obtain ⟨hswap, htotal, hvoluntary, hinvoluntary, hsyscalls, hsystime⟩ := hkept
  generalize rows.foldl CpuStats.storeRow .zero = buf at *
  obtain ⟨⟩ := buf
  rw [CpuStats.mk.injEq]
  exact ⟨huser, hkernel, hidle, hiowait, hswap, hnice, htotal, hswitches, hvoluntary, hinvoluntary, hsyscalls,
    hinterrupts, hsoft, hsystime⟩

theorem statLine_behind {b : UInt8} (hb : Row.Behind b) (line : List UInt8) :
    (statLine (b :: line)).wanted = false := by
  have hnul : b ≠ 0 ∧ b ≠ 99 ∧ b ≠ 105 ∧ b ≠ 115 := by
    rcases hb with hdigit | rfl | rfl | rfl | rfl
    · refine ⟨?_, ?_, ?_, ?_⟩ <;> (rintro rfl; cases hdigit)
    · decide
    · decide
    · decide
    · decide
  have hline : upToNul (b :: line) = b :: upToNul line := by
    rw [upToNul, List.takeWhile_cons_of_pos (by simpa using hnul.1)]
    rfl
  have hno : ∀ {c : UInt8} {word : List UInt8}, b ≠ c → startsWord (b :: upToNul line) (c :: word) = false := by
    intro c word hne
    rw [Bool.eq_false_iff]
    intro hstart
    obtain ⟨d, -, hprefix⟩ := startsWord_iff.mp hstart
    exact hne (List.cons_prefix_cons.mp hprefix).1.symm
  rw [statLine]
  simp only [hline]
  rw [show bytes "cpu" = 99 :: bytes "pu" from rfl, show bytes "intr" = 105 :: bytes "ntr" from rfl,
    show bytes "ctxt" = 99 :: bytes "txt" from rfl, show bytes "softirq" = 115 :: bytes "oftirq" from rfl,
    hno hnul.2.1, hno hnul.2.2.1, hno hnul.2.1, hno hnul.2.2.2]
  rfl

/-- A row that the reader does not look for changes nothing. -/
theorem storeRow_other {row : Row} (h : row.word ∉ statWords) (buf : CpuStats) : buf.storeRow row = buf := by
  simp only [statWords, List.mem_cons, List.not_mem_nil, or_false, not_or] at h
  rw [CpuStats.storeRow, if_neg h.1, if_neg h.2.1, if_neg h.2.2.1, if_neg h.2.2.2]

/-- A table as the kernel writes it to `/proc/stat`: no word is there twice, and one of the four is there. It
may be that the file cannot be read to its end. -/
structure StatReading where
  rows : List Row
  failure : Option Int
  now : Int
  distinct : (rows.map Row.word).Nodup
  row : ∀ row ∈ rows, StatRow row
  found : ∃ row ∈ rows, row.word ∈ statWords

namespace StatReading

def file (r : StatReading) : StatFile := procStat (.ok ⟨Row.file r.rows, r.failure⟩) r.now

def stats (r : StatReading) : CpuStats := .ofTable r.rows r.now

theorem read (r : StatReading) (buf : CpuStats) (t : Thread) :
    sgGetCpuStatsInt r.file buf t = .ok ((.none, r.stats), t) := by
  obtain ⟨rows, failure, now, hdistinct, hrows, hsome⟩ := r
  have hlines : ((readLines 1024 ⟨Row.file rows, failure⟩).map statLine).filter StatLine.wanted
      = (rows.filter fun row => row.word ∈ statWords).map rowLine := by
    have hread := Row.filter_readLines (by decide) (fun row hr => (hrows row hr).word) failure
      fun b line hb => statLine_behind hb line
    have hlines : rows.map (fun row => statLine (row.line 1024)) = rows.map rowLine :=
      List.map_congr_left fun row hr => (hrows row hr).statLine
    rw [hread, hlines, List.filter_map]
    congr 1
    apply List.filter_congr
    intro row _
    exact rowLine_wanted row
  have hfew : (rows.filter fun row => row.word ∈ statWords).length ≤ 4 := by
    have hsub : (rows.filter fun row => row.word ∈ statWords).map Row.word ⊆ statWords := by
      intro word hword
      obtain ⟨row, hrow, rfl⟩ := List.mem_map.mp hword
      exact of_decide_eq_true (List.mem_filter.mp hrow).2
    have hnodup : ((rows.filter fun row => row.word ∈ statWords).map Row.word).Nodup :=
      hdistinct.sublist (List.filter_sublist.map Row.word)
    simpa [statWords] using (List.subperm_of_subset hnodup hsub).length_le
  have hfound : (rows.filter fun row => row.word ∈ statWords).length ≠ 0 := by
    obtain ⟨row, hrow, hword⟩ := hsome
    apply List.length_pos_iff.mpr (List.ne_nil_of_mem _) |>.ne'
    exact row
    exact List.mem_filter.mpr ⟨hrow, by simpa using hword⟩
  have hfold : (rows.filter fun row => row.word ∈ statWords).foldl CpuStats.storeRow .zero
      = rows.foldl CpuStats.storeRow .zero := by
    rw [List.foldl_filter]
    congr 1
    funext buf row
    split
    · rfl
    · next hword => exact (storeRow_other (by simpa using hword) buf).symm
  have hscan : scanStat ((readLines 1024 ⟨Row.file rows, failure⟩).map statLine) 0 .zero t
      = .ok ((.none, rows.foldl CpuStats.storeRow .zero,
          (rows.filter fun row => row.word ∈ statWords).length), t) := by
    rw [← scanStat_filter, hlines, scanStat_rows _ (by omega), hfold, Nat.zero_add]
    · rfl
    · intro row hrow
      rw [List.mem_filter] at hrow
      exact ⟨hrows row hrow.1, of_decide_eq_true hrow.2⟩
  rw [sgGetCpuStatsInt, file, procStat]
  simp only [Except.map]
  rw [Prog.bind_of_ok hscan]
  simp only [ne_eq, not_true_eq_false, if_false, if_neg hfound, foldl_storeRow hdistinct]
  rfl

end StatReading

/-! ### Memory -/

/-- A row as the kernel writes it to `/proc/meminfo`: there is a colon at the end of the word and nowhere else
in it, and a row that the reader looks for has a number that is not too far to the right. -/
structure MemRow (row : Row) : Prop where
  colon : ∃ name, row.word = name ++ [58] ∧ 58 ∉ name
  word : row.word.length < 256
  pad : ∀ field : MemField, row.word = field.label → row.pad < 200
  values : ∀ field : MemField, row.word = field.label → ∀ n ∈ row.values, n < 2 ^ 63
  enough : ∀ field : MemField, row.word = field.label → row.values ≠ []

def MemStats.ofTable (rows : List Row) : MemStats :=
  { total := tableNumber rows MemField.total.label 0
    free := tableNumber rows MemField.free.label 0
    used := 0
    cache := tableNumber rows MemField.cache.label 0
    systime := 0 }

theorem startsWith_iff {line label : List UInt8} : startsWith line label = true ↔ label <+: line := by
  rw [startsWith, decide_eq_true_eq, List.prefix_iff_eq_take, eq_comm]

theorem prefix_colon {name name' rest : List UInt8} (hname : 58 ∉ name) (hname' : 58 ∉ name')
    (h : name ++ [58] <+: name' ++ [58] ++ rest) : name = name' := by
  obtain ⟨behind, hbehind⟩ := h
  have hcut : ∀ {l r : List UInt8}, 58 ∉ l → (l ++ [58] ++ r).takeWhile (· ≠ 58) = l := by
    intro l r hl
    rw [List.append_assoc, List.takeWhile_append_of_pos, List.singleton_append,
      List.takeWhile_cons_of_neg (by simp), List.append_nil]
    intro b hb
    have hne : b ≠ 58 := fun hcon => hl (hcon ▸ hb)
    simpa using hne
  rw [← hcut hname, hbehind, hcut hname']

namespace MemRow

variable {row : Row} (h : MemRow row)

include h

theorem memFieldOf_eq {field : MemField} :
    memFieldOf (row.line 256) = some field ↔ row.word = field.label := by
  have hstart : ∀ field : MemField, startsWith (row.line 256) field.label = true ↔ row.word = field.label := by
    intro field
    rw [startsWith_iff]
    obtain ⟨rest, hline, -⟩ := Row.line_word h.word
    constructor
    · intro hprefix
      obtain ⟨name, hword, hname⟩ := h.colon
      obtain ⟨name', hlabel, hname'⟩ : ∃ name', field.label = name' ++ [58] ∧ 58 ∉ name' := by
        cases field with
        | total => exact ⟨bytes "MemTotal", rfl, by decide⟩
        | free => exact ⟨bytes "MemFree", rfl, by decide⟩
        | cache => exact ⟨bytes "Cached", rfl, by decide⟩
      rw [hline, hword, hlabel] at hprefix
      rw [hword, hlabel, prefix_colon hname' hname hprefix]
    · intro hword
      rw [hline, hword]
      exact List.prefix_append _ _
  rw [memFieldOf]
  simp only [hstart]
  constructor
  · intro hfield
    split_ifs at hfield with htotal hfree hcache
    · cases hfield
      exact htotal
    · cases hfield
      exact hfree
    · cases hfield
      exact hcache
  · intro hword
    cases field with
    | total => rw [if_pos hword]
    | free => rw [if_neg (by rw [hword]; decide), if_pos hword]
    | cache => rw [if_neg (by rw [hword]; decide), if_neg (by rw [hword]; decide), if_pos hword]

theorem memLine_own {field : MemField} (hword : row.word = field.label) :
    memLine (row.line 256) = some (field, UInt64.ofNat (row.values.getD 0 0)) := by
  obtain ⟨n, values, hcons⟩ := List.exists_cons_of_ne_nil (h.enough field hword)
  have hn : n < 2 ^ 63 := h.values field hword n (hcons ▸ List.mem_cons_self)
  have hshort : field.label.length ≤ 9 := by cases field <;> decide
  have hpad := h.pad field hword
  have hnumeric : Scanf.Conversion.Numeric .ld := ⟨nofun, nofun⟩
  have hread : (Scanf.scan (.convert true none .s :: (Row.reads .ld 1 ++ [.space, .literal 107, .literal 66]))
      (row.line 256)).1 = (row.values.take 1).map fun n => .number (Scanf.storedNumber .ld n) := by
    apply Row.scan_skipped hnumeric rfl (by decide)
    · rw [hword]
      cases field <;> decide
    · intro m hm
      exact Nat.lt_trans (h.values field hword m hm) (by decide)
    · rw [hword]
      omega
  have hstored : UInt64.ofInt (Scanf.storedNumber .ld n) = UInt64.ofNat n := by
    have hlong : Scanf.storedNumber .ld n = n := by
      simp only [Scanf.storedNumber, Scanf.strtol]
      omega
    have hnat : ((n : Int) % 2 ^ 64).toNat = n := by omega
    rw [hlong, UInt64.ofInt, hnat]
  have hparse : Scanf.parse none (bytes "%*s %lld kB")
      = some (.convert true none .s :: (Row.reads .ld 1 ++ [.space, .literal 107, .literal 66])) := rfl
  rw [memLine, Row.upToNul_line, Scanf.scanf, hparse]
  simp only [hread, hcons, List.take_succ_cons, List.take_zero, List.map_cons, List.map_nil,
    h.memFieldOf_eq.mpr hword, Option.map_some, hstored]
  rfl

theorem memLine_other (hword : ∀ field : MemField, row.word ≠ field.label) : memLine (row.line 256) = none := by
  have hfield : memFieldOf (row.line 256) = none := by
    cases hfield : memFieldOf (row.line 256) with
    | none => rfl
    | some field => exact absurd (h.memFieldOf_eq.mp hfield) (hword field)
  rw [memLine, Row.upToNul_line, hfield]
  split <;> rfl

end MemRow

theorem memLine_behind {b : UInt8} (hb : Row.Behind b) (line : List UInt8) : memLine (b :: line) = none := by
  have hother : b ≠ 0 ∧ b ≠ 77 ∧ b ≠ 67 := by
    rcases hb with hdigit | rfl | rfl | rfl | rfl
    · refine ⟨?_, ?_, ?_⟩ <;> (rintro rfl; cases hdigit)
    · decide
    · decide
    · decide
    · decide
  have hline : upToNul (b :: line) = b :: upToNul line := by
    rw [upToNul, List.takeWhile_cons_of_pos (by simpa using hother.1)]
    rfl
  have hno : ∀ field : MemField, startsWith (b :: upToNul line) field.label = false := by
    intro field
    rw [Bool.eq_false_iff, ne_eq, startsWith_iff]
    intro hprefix
    cases field with
    | total => exact hother.2.1 (List.cons_prefix_cons.mp hprefix).1.symm
    | free => exact hother.2.1 (List.cons_prefix_cons.mp hprefix).1.symm
    | cache => exact hother.2.2 (List.cons_prefix_cons.mp hprefix).1.symm
  have hfield : memFieldOf (b :: upToNul line) = none := by
    rw [memFieldOf, hno, hno, hno]
    rfl
  rw [memLine, hline, hfield]
  split <;> rfl

/-- The memory statistics are those of the rows, whatever the buffer had, if the table has all three. -/
theorem meminfo_table {rows : List Row} (hdistinct : (rows.map Row.word).Nodup)
    (hrows : ∀ row ∈ rows, MemRow row) (hall : ∀ field : MemField, field.label ∈ rows.map Row.word)
    (failure : Option Int) (now : Int) (buf : MemStats) (t : Thread) :
    sgGetMemStatsInt (.ok ⟨Row.file rows, failure⟩) now buf t
      = .ok ((.none, scaleMem now (MemStats.ofTable rows)), t) := by
  have hread : readMeminfo (readLines 256 ⟨Row.file rows, failure⟩) buf
      = rows.foldl (fun buf row => storeMemLine buf (row.line 256)) buf := by
    apply Row.foldl_readLines (by decide) fun row hr => (hrows row hr).word
    intro buf b line hb
    rw [storeMemLine, memLine_behind hb line]
  have hfields : ∀ field : MemField,
      (readMeminfo (readLines 256 ⟨Row.file rows, failure⟩) buf).get field = tableNumber rows field.label 0 := by
    intro field
    have hsame : ∀ buf row, row ∈ rows → row.word = field.label →
        (storeMemLine buf (row.line 256)).get field = UInt64.ofNat (row.values.getD 0 0) := by
      intro buf row hrow hword
      exact storeMemLine_get ((hrows row hrow).memLine_own hword) buf
    have hother : ∀ buf row, row ∈ rows → row.word ≠ field.label →
        (storeMemLine buf (row.line 256)).get field = buf.get field := by
      intro buf row hrow hword
      apply storeMemLine_keep
      rintro ⟨value, hvalue⟩
      by_cases hwanted : ∃ field' : MemField, row.word = field'.label
      · obtain ⟨field', hword'⟩ := hwanted
        rw [(hrows row hrow).memLine_own hword'] at hvalue
        cases hvalue
        exact hword hword'
      · rw [(hrows row hrow).memLine_other fun field' hcon => hwanted ⟨field', hcon⟩] at hvalue
        cases hvalue
    have hfind := @Row.foldl_rowOf _ _ (fun buf row => storeMemLine buf (row.line 256))
      (fun buf => buf.get field) field.label (fun row _ => UInt64.ofNat (row.values.getD 0 0)) rows hsame hother
      hdistinct buf
    obtain ⟨row, hrow⟩ : ∃ row, Row.rowOf rows field.label = some row := by
      obtain ⟨row, hrow, hword⟩ := List.mem_map.mp (hall field)
      apply Option.isSome_iff_exists.mp
      rw [Row.rowOf, List.find?_isSome]
      exact ⟨row, hrow, by simpa using hword⟩
    rw [hread, hfind, tableNumber, hrow]
    rfl
  have hscale : ∀ a b : MemStats, (∀ field, a.get field = b.get field) → scaleMem now a = scaleMem now b := by
    intro a b hab
    rw [scaleMem, scaleMem, show a.total = b.total from hab .total, show a.free = b.free from hab .free,
      show a.cache = b.cache from hab .cache]
  have hend := hscale (readMeminfo (readLines 256 ⟨Row.file rows, failure⟩) buf) (MemStats.ofTable rows)
    fun field => by
      rw [hfields]
      cases field <;> rfl
  rw [← hend]
  rfl

/-- Other rows have the words in the middle of theirs. -/
def sampleMeminfo : List Row :=
  [⟨bytes "SwapCached:", forall_mem_of_all (by decide), 5, [77], true⟩,
    ⟨bytes "MemTotal:", forall_mem_of_all (by decide), 7, [16384], true⟩,
    ⟨bytes "Cached:", forall_mem_of_all (by decide), 9, [100], true⟩,
    ⟨bytes "HugePages_Total:", forall_mem_of_all (by decide), 3, [0], false⟩,
    ⟨bytes "MemFree:", forall_mem_of_all (by decide), 8, [600], true⟩]

theorem meminfo_table_swapCached :
    scaleMem 5 (MemStats.ofTable sampleMeminfo) = ⟨16777216, 716800, 16060416, 102400, 5⟩ ∧
      sgGetMemStatsInt (.ok ⟨Row.file sampleMeminfo, none⟩) 5 ⟨1, 2, 3, 4, 0⟩ ⟨.clear, fun _ => true⟩
        = .ok ((.none, scaleMem 5 (MemStats.ofTable sampleMeminfo)), ⟨.clear, fun _ => true⟩) := by
  refine ⟨by decide, meminfo_table (by decide) ?_ ?_ none 5 ⟨1, 2, 3, 4, 0⟩ _⟩
  · intro row hrow
    simp only [sampleMeminfo, List.mem_cons, List.not_mem_nil, or_false] at hrow
    rcases hrow with rfl | rfl | rfl | rfl | rfl
    · exact ⟨⟨bytes "SwapCached", rfl, by decide⟩, by decide, fun _ _ => by decide, fun _ _ => by decide,
        fun _ _ => by decide⟩
    · exact ⟨⟨bytes "MemTotal", rfl, by decide⟩, by decide, fun _ _ => by decide, fun _ _ => by decide,
        fun _ _ => by decide⟩
    · exact ⟨⟨bytes "Cached", rfl, by decide⟩, by decide, fun _ _ => by decide, fun _ _ => by decide,
        fun _ _ => by decide⟩
    · exact ⟨⟨bytes "HugePages_Total", rfl, by decide⟩, by decide, fun _ _ => by decide, fun _ _ => by decide,
        fun _ _ => by decide⟩
    · exact ⟨⟨bytes "MemFree", rfl, by decide⟩, by decide, fun _ _ => by decide, fun _ _ => by decide,
        fun _ _ => by decide⟩
  · intro field
    cases field <;> decide

end Statgrab
