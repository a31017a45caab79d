import Statgrab.Command.Sections
import Statgrab.Lib.Lines
import Statgrab.Lib.Scanf
import Statgrab.Stats.Network

/-!
# The lines of the `statgrab` command

A stat is printed as one line: its name, a separator and its value. Nothing is escaped, but the name of a stat has
no space in it, so the separator is found again, and a value may hold anything but a newline. What is printed can
be read back: each line has the name and the value of its stat.

The text of a floating point number is left to the system.
-/

namespace Statgrab

open Text Scanf

/-! ### The code -/

/-- What the system makes of a floating point number: the text of `printf("%f", v)`, which is one word, and
`(long)(factor * v)`. -/
structure FloatText (F : Type) where
  fixed : F → List UInt8
  scaled : Int → F → Int
  word : ∀ v, ∀ b ∈ fixed v, b ≠ 10 ∧ b ≠ 32

/-- The settings that `print_stat` reads. Bytes are counted as they are, or in KiB, MiB or GiB. -/
structure PrintOptions where
  displayMode : DisplayMode
  floatScaleFactor : Int
  bytesScaleFactor : Nat
  graphitePrefix : Option CString
  units : bytesScaleFactor ∈ [0, 10, 20, 30]

/-- What the address of a stat points to. The string is not NULL. -/
inductive StatValue (F : Type) where
  | longLong (v : Int64)
  | unsignedLongLong (v : UInt64)
  | bytes (v : UInt64)
  | timeT (v : Int)
  | float (v : F)
  | double (v : F)
  | string (s : CString)
  | int (v : Int32)
  | unsigned (v : UInt32)
  | bool (v : Int32)
  | duplex (d : IfaceDuplex)

def StatValue.type {F : Type} : StatValue F → StatType
  | .longLong _ => .longLong
  | .unsignedLongLong _ => .unsignedLongLong
  | .bytes _ => .bytes
  | .timeT _ => .timeT
  | .float _ => .float
  | .double _ => .double
  | .string _ => .string
  | .int _ => .int
  | .unsigned _ => .unsigned
  | .bool _ => .bool
  | .duplex _ => .duplex

/-- The case `STAT_TYPE_BYTES`: the number is shifted but for one place, and rounded by the last one. -/
def scaleBytes (factor : Nat) (v : UInt64) : UInt64 :=
  if factor ≠ 0 then (v >>> (factor - 1).toUInt64 + 1) >>> 1 else v

section Code

variable {F : Type} (o : PrintOptions) (floats : FloatText F)

/-- The cases `STAT_TYPE_FLOAT` and `STAT_TYPE_DOUBLE`. -/
def printFloat (v : F) : List UInt8 :=
  if o.floatScaleFactor ≠ 0 then decimalInt (floats.scaled o.floatScaleFactor v) else floats.fixed v

def printStatValue : StatValue F → List UInt8
  | .longLong v => decimalInt v.toInt
  | .unsignedLongLong v => decimal v.toNat
  | .bytes v => decimal (scaleBytes o.bytesScaleFactor v).toNat
  | .timeT v => decimalInt v
  | .float v => printFloat o floats v
  | .double v => printFloat o floats v
  | .string s => s
  | .int v => decimalInt v.toInt
  | .unsigned v => decimal v.toNat
  | .bool v => if v ≠ 0 then bytes "true" else bytes "false"
  | .duplex .full => bytes "full"
  | .duplex .half => bytes "half"
  | .duplex .unknown => bytes "unknown"

def printName (name : CString) : List UInt8 :=
  match o.displayMode with
  | .linux => name ++ bytes " = "
  | .bsd => name ++ bytes ": "
  | .graphite =>
      match o.graphitePrefix with
      | none => name ++ bytes " "
      | some path => path ++ bytes "." ++ name ++ bytes " "
  | .mrtg => []
  | .plain => []

def printStat (graphiteTs : Int) (name : CString) (value : StatValue F) : List UInt8 :=
  printName o name ++ printStatValue o floats value ++
    (if o.displayMode = .graphite then bytes " " ++ decimalInt graphiteTs else []) ++ bytes "\n"

def printStatLines (graphiteTs : Int) (stats : List (CString × StatValue F)) : List UInt8 :=
  stats.flatMap fun s => printStat o floats graphiteTs s.1 s.2

end Code

/-! ### What is shown -/

/-- What a value is shown as: a number, or a text. -/
inductive Reading where
  | number (n : Int)
  | text (t : List UInt8)
  deriving DecidableEq

/-- The number of units of `2 ^ k` that is nearest to `n`, the larger one of two. -/
def nearest (k n : Nat) : Nat := (n + 2 ^ k / 2) / 2 ^ k

structure Entry where
  name : Option CString
  value : Reading
  time : Option Int
  deriving DecidableEq

section Shown

variable {F : Type} (o : PrintOptions) (floats : FloatText F)

def shownFloat (v : F) : Reading :=
  if o.floatScaleFactor ≠ 0 then .number (floats.scaled o.floatScaleFactor v) else .text (floats.fixed v)

def StatValue.shown : StatValue F → Reading
  | .longLong v => .number v.toInt
  | .unsignedLongLong v => .number v.toNat
  | .bytes v => .number (nearest o.bytesScaleFactor v.toNat)
  | .timeT v => .number v
  | .float v => shownFloat o floats v
  | .double v => shownFloat o floats v
  | .string s => .text s
  | .int v => .number v.toInt
  | .unsigned v => .number v.toNat
  | .bool v => .text (if v ≠ 0 then Text.bytes "true" else Text.bytes "false")
  | .duplex .full => .text (Text.bytes "full")
  | .duplex .half => .text (Text.bytes "half")
  | .duplex .unknown => .text (Text.bytes "unknown")

def PrintOptions.named : Bool := o.displayMode ≠ .mrtg && o.displayMode ≠ .plain

def statEntry (graphiteTs : Int) (name : CString) (value : StatValue F) : Entry where
  name := if o.named then some name else none
  value := value.shown o floats
  time := if o.displayMode = .graphite then some graphiteTs else none

/-! ### Reading a line -/

def PrintOptions.numeric : StatType → Bool
  | .string => false
  | .bool => false
  | .duplex => false
  | .float => o.floatScaleFactor ≠ 0
  | .double => o.floatScaleFactor ≠ 0
  | _ => true

def readNumber (text : List UInt8) : Option Int :=
  match numberAt text with
  | some (n, []) => some n
  | _ => none

def readValue (type : StatType) (text : List UInt8) : Option Reading :=
  if o.numeric type then (readNumber text).map .number else some (.text text)

def readPath (path : List UInt8) : Option CString :=
  match o.graphitePrefix with
  | none => some path
  | some start => if start ++ bytes "." <+: path then some (path.drop (start ++ bytes ".").length) else none

def readLine (type : StatType) (line : List UInt8) : Option Entry :=
  match o.displayMode with
  | .linux => do
      let (name, text) ← cut (bytes " = ") line
      let value ← readValue o type text
      return ⟨some name, value, none⟩
  | .bsd => do
      let (name, text) ← cut (bytes ": ") line
      let value ← readValue o type text
      return ⟨some name, value, none⟩
  | .graphite => do
      let (path, rest) ← cut (bytes " ") line
      let name ← readPath o path
      let (text, time) ← cut (bytes " ") rest
      let value ← readValue o type text
      let time ← readNumber time
      return ⟨some name, value, some time⟩
  | .mrtg => do
      let value ← readValue o type line
      return ⟨none, value, none⟩
  | .plain => do
      let value ← readValue o type line
      return ⟨none, value, none⟩

def readStats : List StatType → List (List UInt8) → Option (List Entry)
  | [], [] => some []
  | type :: types, line :: lines => do
      let entry ← readLine o type line
      let entries ← readStats types lines
      return entry :: entries
  | _, _ => none

/-- What is needed to print a stat: its name is one word, its text one line, and the values that are no numbers
are skipped for Graphite. -/
structure Printable (name : CString) (value : StatValue F) : Prop where
  name_word : ∀ b ∈ name, b ≠ 10 ∧ b ≠ 32
  value_line : ∀ s, value = .string s → 10 ∉ s
  kept : skipped o.displayMode value.type = false

def PrintOptions.WordPrefix : Prop := ∀ path, o.graphitePrefix = some path → ∀ b ∈ path, b ≠ 10 ∧ b ≠ 32

end Shown

/-! ### The value -/

theorem nearest_succ (k n : Nat) : nearest (k + 1) n = (n / 2 ^ k + 1) / 2 := by
  have hpos : 0 < 2 ^ k := Nat.two_pow_pos k
  rw [nearest, Nat.pow_succ, Nat.mul_div_cancel _ (by decide), ← Nat.div_div_eq_div_mul,
    Nat.add_div_right _ hpos]

/-- The shifts round to the nearest unit, and nothing overflows. -/
theorem scaleBytes_toNat {factor : Nat} (hfactor : factor ∈ [0, 10, 20, 30]) (v : UInt64) :
    (scaleBytes factor v).toNat = nearest factor v.toNat := by
  have hshift : ∀ k, 0 < k → k < 64 → (scaleBytes (k + 1) v).toNat = nearest (k + 1) v.toNat := by
    intro k hpos hk
    have hv : v.toNat < 2 ^ 64 := v.toNat_lt
    have hsmall : v.toNat / 2 ^ k + 1 < 2 ^ 64 := by
      have htwo : 2 ^ 1 ≤ 2 ^ k := Nat.pow_le_pow_right (by decide) hpos
      have hhalf : v.toNat / 2 ^ k ≤ v.toNat / 2 ^ 1 := Nat.div_le_div_left htwo (by decide)
      omega
    have hcount : k.toUInt64.toNat % 64 = k := by
      rw [Nat.toUInt64, UInt64.toNat_ofNat']
      omega
    have hbits : (v >>> k.toUInt64).toNat = v.toNat / 2 ^ k := by
      rw [UInt64.toNat_shiftRight, hcount, Nat.shiftRight_eq_div_pow]
    rw [scaleBytes, if_pos (Nat.succ_ne_zero k), Nat.add_sub_cancel, UInt64.toNat_shiftRight, UInt64.toNat_add,
      hbits, nearest_succ]
    show ((v.toNat / 2 ^ k + 1) % 2 ^ 64) >>> 1 = _
    rw [Nat.mod_eq_of_lt hsmall, Nat.shiftRight_eq_div_pow]
  simp only [List.mem_cons, List.not_mem_nil, or_false] at hfactor
  rcases hfactor with rfl | rfl | rfl | rfl
  · rw [scaleBytes, if_neg (by simp), nearest]
    omega
  · exact hshift 9 (by decide) (by decide)
  · exact hshift 19 (by decide) (by decide)
  · exact hshift 29 (by decide) (by decide)

section Read

variable {F : Type} {o : PrintOptions} {floats : FloatText F}

theorem readNumber_decimalInt (n : Int) : readNumber (decimalInt n) = some n := by
  have hread : numberAt (decimalInt n ++ []) = some (n, []) := numberAt_decimalInt n fun b hb => by cases hb
  rw [List.append_nil] at hread
  rw [readNumber, hread]

theorem readNumber_decimal (n : Nat) : readNumber (decimal n) = some (n : Int) := readNumber_decimalInt n

theorem readValue_printStatValue (o : PrintOptions) (floats : FloatText F) (value : StatValue F) :
    readValue o value.type (printStatValue o floats value) = some (value.shown o floats) := by
  have hfloat : ∀ (v : F) (numeric : Bool), numeric = decide (o.floatScaleFactor ≠ 0) →
      (if numeric then (readNumber (printFloat o floats v)).map Reading.number
        else some (.text (printFloat o floats v))) = some (shownFloat o floats v) := by
    rintro v numeric rfl
    by_cases hscale : o.floatScaleFactor ≠ 0
    · rw [if_pos (decide_eq_true hscale), printFloat, if_pos hscale, readNumber_decimalInt, shownFloat, if_pos hscale]
      rfl
    · rw [if_neg (by simp [hscale]), printFloat, if_neg hscale, shownFloat, if_neg hscale]
  cases value with
  | longLong v => exact congrArg (Option.map Reading.number) (readNumber_decimalInt v.toInt)
  | unsignedLongLong v => exact congrArg (Option.map Reading.number) (readNumber_decimal v.toNat)
  | bytes v =>
      rw [StatValue.shown, ← scaleBytes_toNat o.units]
      exact congrArg (Option.map Reading.number) (readNumber_decimal _)
  | timeT v => exact congrArg (Option.map Reading.number) (readNumber_decimalInt v)
  | float v => exact hfloat v _ rfl
  | double v => exact hfloat v _ rfl
  | string s => rfl
  | int v => exact congrArg (Option.map Reading.number) (readNumber_decimalInt v.toInt)
  | unsigned v => exact congrArg (Option.map Reading.number) (readNumber_decimal v.toNat)
  | bool v =>
      rw [readValue, if_neg (by simp [PrintOptions.numeric, StatValue.type]), printStatValue, StatValue.shown]
  | duplex d =>
      cases d with
      | full => rfl
      | half => rfl
      | unknown => rfl

/-! ### The line -/

theorem word_of_mem_decimal {n : Nat} {b : UInt8} (hb : b ∈ decimal n) : b ≠ 10 ∧ b ≠ 32 := by
  have hdigit := isDigit_of_mem_decimal hb
  constructor
  · rintro rfl
    cases hdigit
  · rintro rfl
    cases hdigit

theorem word_of_mem_decimalInt {n : Int} {b : UInt8} (hb : b ∈ decimalInt n) : b ≠ 10 ∧ b ≠ 32 := by
  cases n with
  | ofNat n => exact word_of_mem_decimal hb
  | negSucc n =>
      rcases List.mem_cons.mp hb with rfl | hb
      · decide
      · exact word_of_mem_decimal hb

theorem word_of_mem_printFloat {v : F} {b : UInt8} (hb : b ∈ printFloat o floats v) : b ≠ 10 ∧ b ≠ 32 := by
  rw [printFloat] at hb
  split at hb
  · exact word_of_mem_decimalInt hb
  · exact floats.word v b hb

theorem word_of_mem_value {value : StatValue F} (hvalue : value.type ≠ .string) {b : UInt8}
    (hb : b ∈ printStatValue o floats value) : b ≠ 10 ∧ b ≠ 32 := by
  have htext : ∀ text : List UInt8, (text.all fun b => decide (b ≠ 10 ∧ b ≠ 32)) = true → b ∈ text →
      b ≠ 10 ∧ b ≠ 32 := fun _ h hb => forall_mem_of_all h b hb
  cases value with
  | longLong v => exact word_of_mem_decimalInt hb
  | unsignedLongLong v => exact word_of_mem_decimal hb
  | bytes v => exact word_of_mem_decimal hb
  | timeT v => exact word_of_mem_decimalInt hb
  | float v => exact word_of_mem_printFloat hb
  | double v => exact word_of_mem_printFloat hb
  | string s => exact absurd rfl hvalue
  | int v => exact word_of_mem_decimalInt hb
  | unsigned v => exact word_of_mem_decimal hb
  | bool v =>
      rw [printStatValue] at hb
      split at hb
      · exact htext (bytes "true") (by decide) hb
      · exact htext (bytes "false") (by decide) hb
  | duplex d =>
      cases d with
      | full => exact htext (bytes "full") (by decide) hb
      | half => exact htext (bytes "half") (by decide) hb
      | unknown => exact htext (bytes "unknown") (by decide) hb

variable {name : CString} {value : StatValue F}

theorem Printable.newline_value (h : Printable o name value) : 10 ∉ printStatValue o floats value := by
  intro hmem
  by_cases hstring : value.type = .string
  · cases value with
    | string s => exact h.value_line s rfl hmem
    | _ => cases hstring
  · exact (word_of_mem_value hstring hmem).1 rfl

def lineText (o : PrintOptions) (floats : FloatText F) (graphiteTs : Int) (name : CString) (value : StatValue F) :
    List UInt8 :=
  printName o name ++ printStatValue o floats value ++
    (if o.displayMode = .graphite then bytes " " ++ decimalInt graphiteTs else [])

theorem newline_printName (hwords : o.WordPrefix) (hname : ∀ b ∈ name, b ≠ 10 ∧ b ≠ 32) :
    10 ∉ printName o name := by
  have hname' : 10 ∉ name := fun hmem => (hname 10 hmem).1 rfl
  rw [printName]
  cases o.displayMode with
  | linux => simp [hname', bytes]
  | bsd => simp [hname', bytes]
  | mrtg => simp
  | plain => simp
  | graphite =>
      cases hpath : o.graphitePrefix with
      | none => simp [hname', bytes]
      | some path =>
          have hpath' : 10 ∉ path := fun hmem => (hwords path hpath 10 hmem).1 rfl
          simp [hname', hpath', bytes]

theorem newline_lineText (hwords : o.WordPrefix) (h : Printable o name value) (graphiteTs : Int) :
    10 ∉ lineText o floats graphiteTs name value := by
  rw [lineText, List.mem_append, List.mem_append, not_or, not_or]
  refine ⟨⟨newline_printName hwords h.name_word, h.newline_value⟩, ?_⟩
  split
  · intro hmem
    rcases List.mem_append.mp hmem with hspace | hdigits
    · revert hspace
      decide
    · exact (word_of_mem_decimalInt hdigits).1 rfl
  · exact List.not_mem_nil

def pathOf (o : PrintOptions) (name : CString) : List UInt8 :=
  match o.graphitePrefix with
  | none => name
  | some path => path ++ bytes "." ++ name

theorem readPath_pathOf : readPath o (pathOf o name) = some name := by
  rw [readPath, pathOf]
  cases o.graphitePrefix with
  | none => rfl
  | some path =>
      simp only
      rw [if_pos (List.prefix_append _ _), List.drop_left]

theorem space_pathOf (hwords : o.WordPrefix) (hname : ∀ b ∈ name, b ≠ 10 ∧ b ≠ 32) : 32 ∉ pathOf o name := by
  have hname' : 32 ∉ name := fun hmem => (hname 32 hmem).2 rfl
  rw [pathOf]
  cases hpath : o.graphitePrefix with
  | none => exact hname'
  | some path =>
      have hpath' : 32 ∉ path := fun hmem => (hwords path hpath 32 hmem).2 rfl
      simp [hname', hpath', bytes]

theorem lineText_graphite (hmode : o.displayMode = .graphite) (graphiteTs : Int) :
    lineText o floats graphiteTs name value
      = pathOf o name ++ ([32] ++ (printStatValue o floats value ++ ([32] ++ decimalInt graphiteTs))) := by
  have hsep : bytes " " = [32] := rfl
  rw [lineText, printName, hmode, if_pos rfl, pathOf, hsep]
  cases o.graphitePrefix with
  | none => simp only [List.append_assoc]
  | some path => simp only [List.append_assoc]

theorem lineText_of_ne (hmode : o.displayMode ≠ .graphite) (graphiteTs : Int) :
    lineText o floats graphiteTs name value = printName o name ++ printStatValue o floats value := by
  rw [lineText, if_neg hmode, List.append_nil]

theorem readLine_lineText (floats : FloatText F) (hwords : o.WordPrefix) (h : Printable o name value)
    (graphiteTs : Int) :
    readLine o value.type (lineText o floats graphiteTs name value)
      = some (statEntry o floats graphiteTs name value) := by
  have hvalue := readValue_printStatValue o floats value
  have hspace : 32 ∉ name := fun hmem => (h.name_word 32 hmem).2 rfl
  rw [readLine, statEntry, PrintOptions.named]
  cases hmode : o.displayMode with
  | linux =>
      have hcut := cut_first hspace [61, 32] (printStatValue o floats value)
      have hsep : bytes " = " = [32, 61, 32] := rfl
      simp only
      rw [lineText_of_ne (by simp [hmode]), printName, hmode, hsep, List.append_assoc, hcut]
      simp only [Option.bind_eq_bind, Option.bind_some, hvalue]
      rfl
  | bsd =>
      have hcut := cut_second (c := 58) (by decide) hspace (printStatValue o floats value)
      have hsep : bytes ": " = [58, 32] := rfl
      simp only
      rw [lineText_of_ne (by simp [hmode]), printName, hmode, hsep, List.append_assoc, hcut]
      simp only [Option.bind_eq_bind, Option.bind_some, hvalue]
      rfl
  | graphite =>
      have hstring : value.type ≠ .string := by
        have hkept := h.kept
        rw [skipped, hmode] at hkept
        intro hcon
        simp [hcon] at hkept
      have hword : 32 ∉ printStatValue o floats value := fun hmem => (word_of_mem_value hstring hmem).2 rfl
      have hpath := cut_first (space_pathOf hwords h.name_word) []
        (printStatValue o floats value ++ ([32] ++ decimalInt graphiteTs))
      have htext := cut_first hword [] (decimalInt graphiteTs)
      have hsep : bytes " " = [32] := rfl
      simp only
      rw [lineText_graphite hmode, hsep, hpath]
      simp only [Option.bind_eq_bind, Option.bind_some, readPath_pathOf, htext, hvalue, readNumber_decimalInt]
      rfl
  | mrtg =>
      simp only
      rw [lineText_of_ne (by simp [hmode]), printName, hmode, List.nil_append, hvalue]
      rfl
  | plain =>
      simp only
      rw [lineText_of_ne (by simp [hmode]), printName, hmode, List.nil_append, hvalue]
      rfl

/-! ### The output -/

theorem printStatLines_eq (graphiteTs : Int) (stats : List (CString × StatValue F)) :
    printStatLines o floats graphiteTs stats
      = unlines (stats.map fun s => lineText o floats graphiteTs s.1 s.2) := by
  rw [printStatLines, unlines, List.flatMap_map]
  rfl

theorem readStats_lines (floats : FloatText F) (hwords : o.WordPrefix) (graphiteTs : Int) {stats : List (CString × StatValue F)}
    (h : ∀ s ∈ stats, Printable o s.1 s.2) :
    readStats o (stats.map fun s => s.2.type) (stats.map fun s => lineText o floats graphiteTs s.1 s.2)
      = some (stats.map fun s => statEntry o floats graphiteTs s.1 s.2) := by
  induction stats with
  | nil => rfl
  | cons s stats ih =>
      have hline := readLine_lineText floats hwords (h s List.mem_cons_self) graphiteTs
      have hrest := ih fun s' hs' => h s' (List.mem_cons_of_mem s hs')
      rw [List.map_cons, List.map_cons, List.map_cons, readStats, hline, hrest]
      rfl

/-- What is printed can be read back: one line for each stat, in order, with its name and its value. -/
theorem printStatLines_readBack (floats : FloatText F) (hwords : o.WordPrefix) (graphiteTs : Int)
    {stats : List (CString × StatValue F)} (h : ∀ s ∈ stats, Printable o s.1 s.2) :
    readStats o (stats.map fun s => s.2.type) (linesOf (printStatLines o floats graphiteTs stats))
      = some (stats.map fun s => statEntry o floats graphiteTs s.1 s.2) := by
  have hlines : ∀ line ∈ stats.map (fun s => lineText o floats graphiteTs s.1 s.2), 10 ∉ line := by
    intro line hline
    obtain ⟨s, hs, rfl⟩ := List.mem_map.mp hline
    exact newline_lineText hwords (h s hs) graphiteTs
  rw [printStatLines_eq, linesOf_unlines hlines]
  exact readStats_lines floats hwords graphiteTs h

end Read

end Statgrab
