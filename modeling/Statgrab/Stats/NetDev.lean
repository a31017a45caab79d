import Statgrab.Lib.Regex
import Statgrab.Lib.Scanf
import Statgrab.Stats.FailedReads

/-!
# `/proc/net/dev`

The lines of the file are matched against a regular expression with eight groups, the name and seven of the
sixteen counters, and the groups are copied to the fields of an item. A row that the kernel writes is read
back: the name and the counters 1, 2, 3, 9, 10, 11 and 14.
-/

namespace Statgrab

open Text

/-! ### The code -/

/-- The pattern that `sg_network_init_comp` compiles to `network_io_rx`. -/
def networkIoRx : List UInt8 :=
  bytes ("^[[:space:]]*([^:]+):[[:space:]]*" ++
    "([0-9]+)[[:space:]]+" ++
    "([0-9]+)[[:space:]]+" ++
    "([0-9]+)[[:space:]]+" ++
    "[0-9]+[[:space:]]+" ++
    "[0-9]+[[:space:]]+" ++
    "[0-9]+[[:space:]]+" ++
    "[0-9]+[[:space:]]+" ++
    "[0-9]+[[:space:]]+" ++
    "([0-9]+)[[:space:]]+" ++
    "([0-9]+)[[:space:]]+" ++
    "([0-9]+)[[:space:]]+" ++
    "[0-9]+[[:space:]]+" ++
    "[0-9]+[[:space:]]+" ++
    "([0-9]+)")

/-- `line_match` from its second entry on, each as a pointer into the line and a length. -/
def lineMatch (line : List UInt8) : Option (List (Option (List UInt8 × Nat))) :=
  ((Regex.regcomp networkIoRx).bind fun re => Regex.regexec re (upToNul line)).map
    (List.map (Option.map (Regex.placeIn (upToNul line))))

/-- `sg_get_ll_match`, once it is stored. -/
def sgGetLlMatch (m : List UInt8 × Nat) : UInt64 := UInt64.ofInt (Scanf.atoll m.1)

def networkLineOf (now : Int) (line : List UInt8) : Option NetworkLine := do
  let found ← lineMatch line
  let group := fun i : Nat => (found[i - 1]?).join
  let name ← group 1
  return {
    name := name.1.take name.2
    rx := sgGetLlMatch (← group 2)
    tx := sgGetLlMatch (← group 5)
    ipackets := sgGetLlMatch (← group 3)
    opackets := sgGetLlMatch (← group 6)
    ierrors := sgGetLlMatch (← group 4)
    oerrors := sgGetLlMatch (← group 7)
    collisions := sgGetLlMatch (← group 8)
    systime := now }

/-- The lines behind the title, with the time at which each is read. -/
def networkLines (clock : Nat → Int) : Nat → List (List UInt8) → List (Option NetworkLine)
  | _, [] => []
  | i, line :: lines => networkLineOf (clock i) line :: networkLines clock (i + 1) lines

/-- What a read meets, from the text of `/proc/net/dev` unless it cannot be opened, and the errno that is
left where it ends within the title. -/
def networkFileOf (clock : Nat → Int) (errnoLeft : Int) : Except Int Stream → NetworkFile
  | .error errno => .unopened errno
  | .ok f =>
      match readLines 1024 f with
      | _ :: _ :: lines => .titled (networkLines clock 0 lines)
      | _ => .untitled (f.failure.getD errnoLeft)

/-! ### The file -/

/-- A row of the file: the name of an interface and its counters, with what stands before them. -/
structure NetDevRow where
  lead : List UInt8
  name : CString
  gap : Fin 16 → List UInt8
  counter : Fin 16 → Nat
  lead_blank : ∀ b ∈ lead, Regex.isBlank b = true
  name_ne : name ≠ []
  name_bytes : ∀ b ∈ name, b ≠ 0 ∧ b ≠ 58 ∧ isSpace b = false
  gap_blank : ∀ i, ∀ b ∈ gap i, Regex.isBlank b = true
  gap_ne : ∀ i, i ≠ 0 → gap i ≠ []
  counter_lt : ∀ i, counter i < 2 ^ 63

namespace NetDevRow

def columns (row : NetDevRow) (is : List (Fin 16)) : List UInt8 :=
  is.flatMap fun i => row.gap i ++ Scanf.decimal (row.counter i)

def text (row : NetDevRow) : List UInt8 := row.lead ++ (row.name ++ 58 :: row.columns (List.finRange 16))

/-- An item has the name and the counters of the row. -/
structure Reported (row : NetDevRow) (item : NetworkIoStats) : Prop where
  interfaceName : item.interfaceName = some row.name
  rx : item.rx.toNat = row.counter 0
  ipackets : item.ipackets.toNat = row.counter 1
  ierrors : item.ierrors.toNat = row.counter 2
  tx : item.tx.toNat = row.counter 8
  opackets : item.opackets.toNat = row.counter 9
  oerrors : item.oerrors.toNat = row.counter 10
  collisions : item.collisions.toNat = row.counter 13

end NetDevRow

inductive NetDevLine where
  | row (r : NetDevRow)
  | other (text : List UInt8) (hline : 10 ∉ text) (hmatch : lineMatch (text ++ [10]) = none)

namespace NetDevLine

def text : NetDevLine → List UInt8
  | .row r => r.text
  | .other text _ _ => text

def row? : NetDevLine → Option NetDevRow
  | .row r => some r
  | .other _ _ _ => none

end NetDevLine

def netDevFile (title1 title2 : List UInt8) (lines : List NetDevLine) : Stream :=
  ⟨title1 ++ 10 :: (title2 ++ 10 :: lines.flatMap fun l => l.text ++ [10]), none⟩

/-! ### One row -/

/-- The pieces of the pattern. -/
def rxSpaces : Regex.Piece := ⟨⟨false, [.space]⟩, 0, true, false⟩
def rxName : Regex.Piece := ⟨⟨true, [.byte 58]⟩, 1, true, true⟩
def rxColon : Regex.Piece := ⟨⟨false, [.byte 58]⟩, 1, false, false⟩
def rxGap : Regex.Piece := ⟨⟨false, [.space]⟩, 1, true, false⟩
def rxNumber (group : Bool) : Regex.Piece := ⟨⟨false, [.range 48 57]⟩, 1, true, group⟩

def rxColumns (groups : List Bool) : List Regex.Piece := groups.flatMap fun g => [rxGap, rxNumber g]

def rxRow : List Regex.Piece :=
  rxColumns [true, true, false, false, false, false, false, true, true, true, false, false, true]

theorem regcomp_networkIoRx :
    Regex.regcomp networkIoRx
      = some (rxSpaces :: rxName :: rxColon :: rxSpaces :: rxNumber true :: rxRow) := by
  rw [networkIoRx]
  simp only [bytes_append]
  decide +kernel

@[simp] theorem rxSpaces_has (b : UInt8) : rxSpaces.set.has b = isSpace b := by
  simp [rxSpaces, Regex.ByteSet.has, Regex.Item.has]

@[simp] theorem rxGap_has (b : UInt8) : rxGap.set.has b = isSpace b := by
  simp [rxGap, Regex.ByteSet.has, Regex.Item.has]

@[simp] theorem rxNumber_has (group : Bool) (b : UInt8) : (rxNumber group).set.has b = isDigit b := by
  simp [rxNumber, Regex.ByteSet.has, Regex.Item.has, isDigit]

@[simp] theorem rxName_has (b : UInt8) : rxName.set.has b = decide (b ≠ 58) := by
  by_cases hb : b = 58 <;> simp [rxName, Regex.ByteSet.has, Regex.Item.has, hb]

theorem isSpace_of_isBlank {b : UInt8} (hb : Regex.isBlank b = true) : isSpace b = true := by
  rw [Regex.isBlank, Bool.or_eq_true, decide_eq_true_eq, decide_eq_true_eq] at hb
  rcases hb with rfl | rfl
  · rfl
  · rfl

theorem run_rxNumber (group : Bool) (n : Nat) {rest : List UInt8} (hrest : Scanf.NoDigit rest) :
    Regex.run (rxNumber group) (Scanf.decimal n ++ rest) = (Scanf.decimal n).length := by
  refine Regex.run_append ?_ ?_
  · intro b hb
    rw [rxNumber_has]
    exact Scanf.isDigit_of_mem_decimal hb
  · intro b hb
    rw [rxNumber_has]
    exact hrest b hb

theorem rxNumber_least_le (group : Bool) (n : Nat) :
    (rxNumber group).least ≤ (Scanf.decimal n).length :=
  List.length_pos_iff.mpr (Scanf.decimal_ne_nil n)

theorem run_spaces {p : Regex.Piece} (hp : ∀ b, p.set.has b = isSpace b) {gap : List UInt8}
    (hgap : ∀ b ∈ gap, Regex.isBlank b = true) (n : Nat) (rest : List UInt8) :
    Regex.run p (gap ++ (Scanf.decimal n ++ rest)) = gap.length := by
  refine Regex.run_append ?_ ?_
  · intro b hb
    rw [hp]
    exact isSpace_of_isBlank (hgap b hb)
  · intro b hb
    rw [hp]
    obtain ⟨c, digits, hdigits⟩ := List.exists_cons_of_ne_nil (Scanf.decimal_ne_nil n)
    rw [hdigits] at hb
    cases hb
    apply Scanf.not_isSpace_of_isDigit
    apply @Scanf.isDigit_of_mem_decimal n
    rw [hdigits]
    exact List.mem_cons_self

namespace NetDevRow

variable (row : NetDevRow)

theorem columns_cons (i : Fin 16) (is : List (Fin 16)) :
    row.columns (i :: is) = row.gap i ++ (Scanf.decimal (row.counter i) ++ row.columns is) := by
  rw [columns, List.flatMap_cons, List.append_assoc]
  rfl

theorem noDigit_columns {is : List (Fin 16)} (his : ∀ i ∈ is, i ≠ 0) {rest : List UInt8}
    (hrest : Scanf.NoDigit rest) : Scanf.NoDigit (row.columns is ++ rest) := by
  cases is with
  | nil => exact hrest
  | cons i is =>
      obtain ⟨b, gap, hgap⟩ := List.exists_cons_of_ne_nil (row.gap_ne i (his i List.mem_cons_self))
      have hblank : Regex.isBlank b = true := row.gap_blank i b (hgap ▸ List.mem_cons_self)
      rw [columns_cons, hgap]
      exact Scanf.noDigit_cons (Scanf.not_isDigit_of_isSpace (isSpace_of_isBlank hblank)) _

def columnParts (is : List (Fin 16)) : List (List UInt8) :=
  is.flatMap fun i => [row.gap i, Scanf.decimal (row.counter i)]

/-- The columns are matched one after the other: each number ends where the blanks of the next column
begin, and those where its number does. -/
theorem exec_columns (groups : List Bool) {is : List (Fin 16)} (hlen : is.length = groups.length)
    (his : ∀ i ∈ is, i ≠ 0) (group : Bool) (n : Nat) {rest : List UInt8} (hrest : Scanf.NoDigit rest) :
    Regex.exec (rxNumber group :: rxColumns groups) (Scanf.decimal n ++ (row.columns is ++ rest))
      = some (Scanf.decimal n :: row.columnParts is) := by
  have hrun := run_rxNumber group n (row.noDigit_columns his hrest)
  induction groups generalizing is group n with
  | nil =>
      obtain rfl : is = [] := List.length_eq_zero_iff.mp hlen
      rw [rxColumns, List.flatMap_nil, Regex.exec_last rfl, hrun, if_pos (rxNumber_least_le group n),
        List.take_left]
      rfl
  | cons g groups ih =>
      obtain ⟨i, is, rfl⟩ : ∃ i is', is = i :: is' := List.exists_cons_of_length_eq_add_one hlen
      have hnext : ∀ j ∈ is, j ≠ 0 := fun j hj => his j (List.mem_cons_of_mem _ hj)
      have hdigits : ∀ b, (rxNumber group).set.has b = true → rxGap.set.has b = false := by
        intro b hb
        rw [rxNumber_has] at hb
        rw [rxGap_has]
        exact Scanf.not_isSpace_of_isDigit hb
      have hspaces : ∀ b, rxGap.set.has b = true → (rxNumber g).set.has b = false := by
        intro b hb
        rw [rxGap_has] at hb
        rw [rxNumber_has]
        exact Scanf.not_isDigit_of_isSpace hb
      have hgap : rxGap.least ≤ (row.gap i).length :=
        List.length_pos_iff.mpr (row.gap_ne i (his i List.mem_cons_self))
      have hrest' : row.columns (i :: is) ++ rest
          = row.gap i ++ (Scanf.decimal (row.counter i) ++ (row.columns is ++ rest)) := by
        rw [columns_cons]
        simp
      have hcolumns : rxColumns (g :: groups) = rxGap :: rxNumber g :: rxColumns groups := rfl
      rw [hcolumns, Regex.exec_forced rfl rfl hdigits, hrun, if_pos (rxNumber_least_le group n),
        List.take_left, List.drop_left, hrest', Regex.exec_forced rfl rfl hspaces,
        run_spaces rxGap_has (row.gap_blank i), if_pos hgap, List.take_left, List.drop_left,
        ih (by simpa using hlen) hnext g (row.counter i)
          (run_rxNumber g (row.counter i) (row.noDigit_columns hnext hrest))]
      rfl

/-- The columns that the pattern has behind the first one, and those it does not get to. -/
def matched : List (Fin 16) := [1, 2, 3, 4, 5, 6, 7, 8, 9, 10, 11, 12, 13]
def unmatched : List (Fin 16) := [14, 15]

def parts : List (List UInt8) :=
  row.lead :: row.name :: [58] :: row.gap 0 :: Scanf.decimal (row.counter 0) :: row.columnParts matched

theorem columnParts_flatten (is : List (Fin 16)) : (row.columnParts is).flatten = row.columns is := by
  induction is with
  | nil => rfl
  | cons i is ih =>
      rw [columns_cons, ← ih]
      rfl

theorem text_eq (rest : List UInt8) :
    row.text ++ rest = row.lead ++ (row.name ++ 58 :: (row.gap 0 ++ (Scanf.decimal (row.counter 0) ++
      (row.columns matched ++ (row.columns unmatched ++ rest))))) := by
  have hcolumns : row.columns (List.finRange 16)
      = row.gap 0 ++ (Scanf.decimal (row.counter 0) ++ (row.columns matched ++ row.columns unmatched)) := by
    have hrange : List.finRange 16 = 0 :: (matched ++ unmatched) := by decide
    rw [hrange, columns_cons, columns, columns, columns, List.flatMap_append]
  rw [text, hcolumns]
  simp

theorem noDigit_unmatched {rest : List UInt8} (hrest : Scanf.NoDigit rest) :
    Scanf.NoDigit (row.columns unmatched ++ rest) := row.noDigit_columns (by decide) hrest

theorem exec_text {rest : List UInt8} (hrest : Scanf.NoDigit rest) :
    Regex.exec (rxSpaces :: rxName :: rxColon :: rxSpaces :: rxNumber true :: rxRow) (row.text ++ rest)
      = some row.parts := by
  have hspaces : ∀ b, rxSpaces.set.has b = true → (rxNumber true).set.has b = false := by
    intro b hb
    rw [rxSpaces_has] at hb
    rw [rxNumber_has]
    exact Scanf.not_isDigit_of_isSpace hb
  have hcolumns := row.exec_columns [true, true, false, false, false, false, false, true, true, true, false,
    false, true] (show matched.length = 13 from rfl) (by decide) true (row.counter 0)
    (row.noDigit_unmatched hrest)
  have hnumbers : Regex.exec (rxSpaces :: rxNumber true :: rxRow)
      (row.gap 0 ++ (Scanf.decimal (row.counter 0) ++ (row.columns matched ++ (row.columns unmatched ++ rest))))
      = some (row.gap 0 :: Scanf.decimal (row.counter 0) :: row.columnParts matched) := by
    rw [Regex.exec_forced rfl rfl hspaces, run_spaces rxSpaces_has (row.gap_blank 0),
      if_pos (show rxSpaces.least ≤ _ from Nat.zero_le _), List.take_left, List.drop_left, rxRow, hcolumns]
    rfl
  rw [text_eq]
  refine Regex.exec_lead rfl rfl rfl rfl (by decide) false ?_ row.name_ne ?_ ?_ hnumbers
  · intro b hb
    have hblank := row.lead_blank b hb
    refine ⟨by rw [rxSpaces_has]; exact isSpace_of_isBlank hblank, ?_⟩
    have hne : b ≠ 58 := by
      rintro rfl
      revert hblank
      decide
    rw [rxName_has]
    simpa using hne
  · intro b hb
    rw [rxName_has]
    simpa using (row.name_bytes b hb).2.1
  · intro b hb
    rw [rxSpaces_has]
    exact (row.name_bytes b (List.mem_of_mem_head? hb)).2.2

theorem plain {b : UInt8} (hb : b ∈ row.text) : b ≠ 0 ∧ b ≠ 10 := by
  have hblank : ∀ b, Regex.isBlank b = true → b ≠ 0 ∧ b ≠ 10 := by
    intro b hb
    constructor
    · rintro rfl
      cases hb
    · rintro rfl
      cases hb
  rw [text, List.mem_append, List.mem_append, List.mem_cons] at hb
  rcases hb with hb | hb | rfl | hb
  · exact hblank b (row.lead_blank b hb)
  · obtain ⟨hzero, -, hspace⟩ := row.name_bytes b hb
    refine ⟨hzero, ?_⟩
    rintro rfl
    cases hspace
  · decide
  · obtain ⟨i, -, hi⟩ := List.mem_flatMap.mp hb
    rcases List.mem_append.mp hi with hgap | hnumber
    · exact hblank b (row.gap_blank i b hgap)
    · exact Scanf.plain_of_mem_decimal hnumber

end NetDevRow

theorem sgGetLlMatch_decimal {n : Nat} (hn : n < 2 ^ 63) {rest : List UInt8} (hrest : Scanf.NoDigit rest)
    (len : Nat) : (sgGetLlMatch (Scanf.decimal n ++ rest, len)).toNat = n := by
  rw [sgGetLlMatch, Scanf.atoll_decimal hn hrest, UInt64.ofInt, UInt64.toNat_ofNat']
  omega

namespace NetDevRow

variable (row : NetDevRow)

def behind (is : List (Fin 16)) : List UInt8 :=
  (row.columnParts is).flatten ++ (row.columns unmatched ++ [10])

theorem noDigit_behind {is : List (Fin 16)} (his : ∀ i ∈ is, i ≠ 0) : Scanf.NoDigit (row.behind is) := by
  rw [behind, columnParts_flatten]
  exact row.noDigit_columns his (row.noDigit_unmatched (Scanf.noDigit_cons (by decide) []))

theorem groupsOf_columns (group : Bool) (groups : List Bool) (i : Fin 16) (is : List (Fin 16)) :
    Regex.groupsOf (rxColumns (group :: groups)) (row.columnParts (i :: is)) (row.columns unmatched ++ [10])
      = (if group then
          [some (Scanf.decimal (row.counter i) ++ row.behind is, (Scanf.decimal (row.counter i)).length)]
        else []) ++
        Regex.groupsOf (rxColumns groups) (row.columnParts is) (row.columns unmatched ++ [10]) := by
  cases group with
  | false => rfl
  | true => rfl

theorem lineMatch_text :
    lineMatch (row.text ++ [10]) = some
      [some (row.name ++ 58 :: (row.gap 0 ++ (Scanf.decimal (row.counter 0) ++ row.behind matched)),
          row.name.length),
        some (Scanf.decimal (row.counter 0) ++ row.behind matched, (Scanf.decimal (row.counter 0)).length),
        some (Scanf.decimal (row.counter 1) ++ row.behind (matched.drop 1),
          (Scanf.decimal (row.counter 1)).length),
        some (Scanf.decimal (row.counter 2) ++ row.behind (matched.drop 2),
          (Scanf.decimal (row.counter 2)).length),
        some (Scanf.decimal (row.counter 8) ++ row.behind (matched.drop 8),
          (Scanf.decimal (row.counter 8)).length),
        some (Scanf.decimal (row.counter 9) ++ row.behind (matched.drop 9),
          (Scanf.decimal (row.counter 9)).length),
        some (Scanf.decimal (row.counter 10) ++ row.behind (matched.drop 10),
          (Scanf.decimal (row.counter 10)).length),
        some (Scanf.decimal (row.counter 13) ++ row.behind [], (Scanf.decimal (row.counter 13)).length)] := by
  have hnul : 0 ∉ row.text ++ [10] := nul_notMem_line fun hmem => (row.plain hmem).1 rfl
  have hline : row.text ++ [10] = row.parts.flatten ++ (row.columns unmatched ++ [10]) := by
    rw [text_eq, ← columnParts_flatten]
    simp [parts]
  have hexec := row.exec_text (Scanf.noDigit_cons (by decide) [] : Scanf.NoDigit [10])
  rw [hline] at hexec
  have hplaces := Regex.regexec_places hexec
  have hgroups : Regex.groupsOf (rxSpaces :: rxName :: rxColon :: rxSpaces :: rxNumber true :: rxRow)
      row.parts (row.columns unmatched ++ [10])
      = some (row.name ++ (58 :: row.gap 0 ++ (Scanf.decimal (row.counter 0) ++
            (row.columnParts matched).flatten) ++ (row.columns unmatched ++ [10])), row.name.length) ::
        some (Scanf.decimal (row.counter 0) ++ row.behind matched,
          (Scanf.decimal (row.counter 0)).length) ::
        Regex.groupsOf rxRow (row.columnParts matched) (row.columns unmatched ++ [10]) := rfl
  rw [lineMatch, regcomp_networkIoRx, Option.bind_some, upToNul_eq hnul, hline, hplaces, hgroups]
  simp only [rxRow, matched, groupsOf_columns, if_true, Bool.false_eq_true, if_false, List.nil_append,
    List.cons_append, List.append_assoc, List.drop_succ_cons, List.drop_zero, behind]
  rfl

theorem networkLineOf_text (now : Int) :
    ∃ line, networkLineOf now (row.text ++ [10]) = some line ∧ row.Reported (networkItem line) := by
  rw [networkLineOf, lineMatch_text]
  refine ⟨_, rfl, ?_, ?_, ?_, ?_, ?_, ?_, ?_, ?_⟩
  · exact congrArg some List.take_left
  · exact sgGetLlMatch_decimal (row.counter_lt 0) (row.noDigit_behind (by decide)) _
  · exact sgGetLlMatch_decimal (row.counter_lt 1) (row.noDigit_behind (by decide)) _
  · exact sgGetLlMatch_decimal (row.counter_lt 2) (row.noDigit_behind (by decide)) _
  · exact sgGetLlMatch_decimal (row.counter_lt 8) (row.noDigit_behind (by decide)) _
  · exact sgGetLlMatch_decimal (row.counter_lt 9) (row.noDigit_behind (by decide)) _
  · exact sgGetLlMatch_decimal (row.counter_lt 10) (row.noDigit_behind (by decide)) _
  · exact sgGetLlMatch_decimal (row.counter_lt 13) (row.noDigit_behind (by decide)) _

end NetDevRow

/-! ### The whole file -/

theorem NetDevLine.newline_notMem (l : NetDevLine) : 10 ∉ l.text := by
  cases l with
  | row r => exact fun hmem => (r.plain hmem).2 rfl
  | other text hline hmatch => exact hline

theorem readLines_netDev {lines : List NetDevLine} (hfit : ∀ l ∈ lines, l.text.length < 1023) :
    readLines 1024 ⟨lines.flatMap fun l => l.text ++ [10], none⟩ = lines.map fun l => l.text ++ [10] := by
  induction lines with
  | nil => rfl
  | cons l lines ih =>
      have htext : ((l :: lines).flatMap fun l => l.text ++ [10])
          = l.text ++ 10 :: lines.flatMap fun l => l.text ++ [10] := by simp
      rw [htext, readLines_line (hfit l List.mem_cons_self) l.newline_notMem,
        ih fun l' hl' => hfit l' (List.mem_cons_of_mem _ hl'), List.map_cons]

theorem networkLines_rows (clock : Nat → Int) (lines : List NetDevLine) (i : Nat) :
    List.Forall₂ (fun row line => NetDevRow.Reported row (networkItem line)) (lines.filterMap NetDevLine.row?)
      ((networkLines clock i (lines.map fun l => l.text ++ [10])).filterMap id) := by
  induction lines generalizing i with
  | nil => exact .nil
  | cons l lines ih =>
      rw [List.map_cons, networkLines]
      cases l with
      | row r =>
          obtain ⟨line, hline, hreported⟩ := r.networkLineOf_text (clock i)
          rw [show NetDevLine.text (.row r) = r.text from rfl, hline]
          exact .cons hreported (ih (i + 1))
      | other text hnewline hmatch =>
          have hnone : networkLineOf (clock i) (text ++ [10]) = none := by
            rw [networkLineOf, hmatch]
            rfl
          rw [show NetDevLine.text (.other text hnewline hmatch) = text from rfl, hnone]
          exact ih (i + 1)

/-- A file with rows of interfaces is read back: one item for each row, in order, whatever other lines
stand between them. -/
theorem sgGetNetworkIoStatsInt_rows (clock : Nat → Int) (errnoLeft : Int) {title1 title2 : List UInt8}
    (htitle1 : 10 ∉ title1 ∧ title1.length < 1023) (htitle2 : 10 ∉ title2 ∧ title2.length < 1023)
    {lines : List NetDevLine} (hfit : ∀ l ∈ lines, l.text.length < 1023) {w : World NetworkIoStats} {p : Ptr}
    (hw : w.Sound) (hp : w.Takes NetworkIoStats.info (some p) [] (lines.filterMap NetDevLine.row?).length) :
    ∃ y w', sgGetNetworkIoStatsInt (networkFileOf clock errnoLeft (.ok (netDevFile title1 title2 lines)))
        (some p) w = .ok ((.none, y), w') ∧
      List.Forall₂ NetDevRow.Reported (lines.filterMap NetDevLine.row?) (w'.itemsAt y) := by
  have hread : readLines 1024 (netDevFile title1 title2 lines)
      = (title1 ++ [10]) :: (title2 ++ [10]) :: lines.map fun l => l.text ++ [10] := by
    rw [netDevFile, readLines_line htitle1.2 htitle1.1, readLines_line htitle2.2 htitle2.1,
      readLines_netDev hfit]
  have hrows := networkLines_rows clock lines 0
  rw [hrows.length_eq] at hp
  obtain ⟨y, w', hrun, hitems⟩ := fillItems_items NetworkIoStats.regular.full fillNetworkIo_lawful _ hw hp
  refine ⟨y, w', ?_, ?_⟩
  · rw [networkFileOf, hread]
    exact hrun
  · rw [hitems, List.forall₂_map_right_iff]
    exact hrows

def loopbackRow : NetDevRow where
  lead := [32, 32]
  name := bytes "lo"
  gap := fun _ => [32]
  counter := fun i => i.val + 1
  lead_blank := by decide +kernel
  name_ne := by decide
  name_bytes := by decide +kernel
  gap_blank := by decide +kernel
  gap_ne := by decide
  counter_lt := by decide

/-- A card right before its colon, with larger counters. -/
def cardRow : NetDevRow where
  lead := []
  name := bytes "eth0"
  gap := fun _ => [32, 32]
  counter := fun i => 1000000 * i.val
  lead_blank := List.forall_mem_nil _
  name_ne := by decide
  name_bytes := by decide +kernel
  gap_blank := by decide +kernel
  gap_ne := by decide
  counter_lt := by decide

theorem lineMatch_nothing : lineMatch (bytes "nothing" ++ [10]) = none := by
  rw [lineMatch, regcomp_networkIoRx]
  decide

/-- A file with the two interfaces and a line without a colon between them. -/
theorem sgGetNetworkIoStatsInt_loopback :
    ∃ y w', sgGetNetworkIoStatsInt (networkFileOf (fun _ => 0) 0
        (.ok (netDevFile (bytes "Inter-|   Receive") (bytes " face |bytes")
          [.row loopbackRow, .other (bytes "nothing") (by decide) lineMatch_nothing, .row cardRow])))
        (some 0) (cachedWorld NetworkIoStats.info 0 ⟨none, 0, 0, 0, 0, 0, 0, 0, 0⟩) = .ok ((.none, y), w') ∧
      List.Forall₂ NetDevRow.Reported [loopbackRow, cardRow] (w'.itemsAt y) := by
  obtain ⟨hsound, htakes⟩ := cachedWorld_takes NetworkIoStats.regular ⟨none, 0, 0, 0, 0, 0, 0, 0, 0⟩
    (show 2 ≤ itemLimit by decide)
  refine sgGetNetworkIoStatsInt_rows (fun _ => 0) 0 (by decide) (by decide) ?_ hsound htakes
  decide +kernel

end Statgrab
