import Mathlib.Data.List.DropRight
import Mathlib.Algebra.Order.Ring.Int
import Statgrab.Lib.Text

/-!
# Formatted input

The `scanf` family: a format is read into directives, and the directives are matched against the input
one after the other, up to the first that does not match. A number is converted as `strtol` and `strtoul`
do it, which stop at the bounds of their 64 bits, and cut to the width of what it is stored to.
-/

namespace Scanf

open Text

inductive Conversion where
  | d
  | ld
  | u
  | lu
  | llu
  | c
  | s
  deriving DecidableEq, Repr

/-- A directive: white space, a byte that has to be there, or a conversion, with its `*` and its width. -/
inductive Directive where
  | space
  | literal (b : UInt8)
  | convert (suppress : Bool) (width : Option Nat) (kind : Conversion)
  deriving DecidableEq, Repr

/-- The part of a conversion that has been read: its `*`, its width and the number of its `l`. -/
structure Spec where
  suppress : Bool
  width : Option Nat
  longs : Nat
  deriving DecidableEq

def conversionOf (longs : Nat) (b : UInt8) : Option Conversion :=
  if b = 100 then (if longs = 0 then some .d else some .ld)
  else if b = 117 then (if longs = 0 then some .u else if longs = 1 then some .lu else some .llu)
  else if b = 99 then some .c
  else if b = 115 then some .s
  else none

/-- The directives of a format, from within the conversion `spec` on, if there is one. -/
def parse : Option Spec → List UInt8 → Option (List Directive)
  | none, [] => some []
  | some _, [] => none
  | none, b :: rest =>
      if b = 37 then parse (some ⟨false, none, 0⟩) rest
      else if isSpace b then (parse none rest).map (.space :: ·)
      else (parse none rest).map (.literal b :: ·)
  | some spec, b :: rest =>
      if b = 42 then parse (some { spec with suppress := true }) rest
      else if isDigit b then
        parse (some { spec with width := some (spec.width.getD 0 * 10 + (b.toNat - 48)) }) rest
      else if b = 108 then parse (some { spec with longs := spec.longs + 1 }) rest
      else
        match conversionOf spec.longs b with
        | none => none
        | some kind => (parse none rest).map (.convert spec.suppress spec.width kind :: ·)

inductive Value where
  | number (n : Int)
  | byte (b : UInt8)
  | text (s : List UInt8)
  deriving DecidableEq, Repr

/-- What ends a call: the format, an input that does not match, or the end of the input. -/
inductive Stop where
  | done
  | mismatch
  | eof
  deriving DecidableEq, Repr

/-- The white space at the start of the input is skipped. -/
def skipSpaces (input : List UInt8) : List UInt8 := input.dropWhile isSpace

def natOf (digits : List UInt8) : Nat :=
  Nat.ofDigitChars 10 (digits.map fun b => Char.ofNat b.toNat) 0

/-- A decimal number at the start of the input, and what is behind it. -/
def numberAt : List UInt8 → Option (Int × List UInt8)
  | [] => none
  | b :: rest =>
      let digits := if b = 45 ∨ b = 43 then rest.takeWhile isDigit else (b :: rest).takeWhile isDigit
      let behind := if b = 45 ∨ b = 43 then rest.dropWhile isDigit else (b :: rest).dropWhile isDigit
      if digits = [] then none
      else some (if b = 45 then - (natOf digits : Int) else natOf digits, behind)

/-- `strtol` stops at the bounds of a `long`. -/
def strtol (n : Int) : Int := max (-2 ^ 63) (min (2 ^ 63 - 1) n)

/-- `strtoul` negates in an `unsigned long`, and stops at its bound. -/
def strtoul (n : Int) : Int := if 2 ^ 64 ≤ n.natAbs then 2 ^ 64 - 1 else n % 2 ^ 64

def storedNumber (kind : Conversion) (n : Int) : Int :=
  match kind with
  | .d => (strtol n).bmod (2 ^ 32)
  | .ld => strtol n
  | .u => strtoul n % 2 ^ 32
  | _ => strtoul n

def convert (kind : Conversion) (width : Option Nat) (input : List UInt8) :
    Except Stop (Value × List UInt8) :=
  match kind with
  | .c =>
      match input with
      | [] => .error .eof
      | b :: rest => .ok (.byte b, rest)
  | .s =>
      let input := skipSpaces input
      if input = [] then .error .eof
      else
        let field := (input.take (width.getD input.length)).takeWhile fun b => !isSpace b
        .ok (.text field, input.drop field.length)
  | kind =>
      let input := skipSpaces input
      if input = [] then .error .eof
      else
        match numberAt input with
        | none => .error .mismatch
        | some (n, rest) => .ok (.number (storedNumber kind n), rest)

/-- The directives against the input: what is stored, what ended the call, and what is left. -/
def scan : List Directive → List UInt8 → List Value × Stop × List UInt8
  | [], input => ([], .done, input)
  | .space :: ds, input => scan ds (skipSpaces input)
  | .literal b :: ds, input =>
      match input with
      | [] => ([], .eof, [])
      | c :: rest => if c = b then scan ds rest else ([], .mismatch, input)
  | .convert suppress width kind :: ds, input =>
      match convert kind width input with
      | .error stop => ([], stop, input)
      | .ok (v, rest) =>
          let (values, stop, left) := scan ds rest
          (if suppress then values else v :: values, stop, left)

/-- The returned number: `EOF` where the input ends before anything is stored. -/
def returned (result : List Value × Stop × List UInt8) : Int :=
  if result.1 = [] ∧ result.2.1 = .eof then -1 else result.1.length

/-- `fscanf(f, fmt, ..)` and `sscanf(s, fmt, ..)`: what is stored. A format that is not one stores nothing. -/
def scanf (fmt input : List UInt8) : List Value × Stop × List UInt8 :=
  match parse none fmt with
  | none => ([], .mismatch, input)
  | some ds => scan ds input

/-! ### Decimal numbers -/

/-- A number as `printf` writes it. -/
def decimal (n : Nat) : List UInt8 := (Nat.toDigits 10 n).map fun c => c.toNat.toUInt8

def decimalInt : Int → List UInt8
  | .ofNat n => decimal n
  | .negSucc n => 45 :: decimal (n + 1)

theorem digit_bounds {c : Char} (hc : c.isDigit = true) : 48 ≤ c.toNat ∧ c.toNat ≤ 57 := by
  rw [Char.isDigit, Bool.and_eq_true, decide_eq_true_eq, decide_eq_true_eq] at hc
  exact ⟨UInt32.le_iff_toNat_le.mp hc.1, UInt32.le_iff_toNat_le.mp hc.2⟩

theorem isDigit_of_mem_decimal {n : Nat} {b : UInt8} (hb : b ∈ decimal n) : isDigit b = true := by
  obtain ⟨c, hc, rfl⟩ := List.mem_map.mp hb
  obtain ⟨hlo, hhi⟩ := digit_bounds (Nat.isDigit_of_mem_toDigits (by omega) le_rfl hc)
  simp only [isDigit, Bool.and_eq_true, decide_eq_true_eq, UInt8.le_iff_toNat_le]
  have hnat : c.toNat.toUInt8.toNat = c.toNat := by
    rw [Nat.toUInt8, UInt8.toNat_ofNat']
    omega
  rw [hnat]
  exact ⟨hlo, hhi⟩

/-- There is no NUL and no newline in a number. -/
theorem plain_of_mem_decimal {n : Nat} {b : UInt8} (hb : b ∈ decimal n) : b ≠ 0 ∧ b ≠ 10 := by
  have hdigit := isDigit_of_mem_decimal hb
  constructor
  · rintro rfl
    cases hdigit
  · rintro rfl
    cases hdigit

theorem decimal_ne_nil (n : Nat) : decimal n ≠ [] := by
  intro h
  exact Nat.toDigits_ne_nil (List.map_eq_nil_iff.mp h)

theorem decimal_length_le {n e : Nat} (he : 0 < e) (hn : n < 10 ^ e) : (decimal n).length ≤ e := by
  rw [decimal, List.length_map]
  exact (Nat.length_toDigits_le_iff (by omega) he).mpr hn

theorem natOf_decimal (n : Nat) : natOf (decimal n) = n := by
  have hback : (decimal n).map (fun b => Char.ofNat b.toNat) = Nat.toDigits 10 n := by
    rw [decimal, List.map_map]
    refine (List.map_congr_left ?_).trans (List.map_id _)
    intro c hc
    obtain ⟨hlo, hhi⟩ := digit_bounds (Nat.isDigit_of_mem_toDigits (by omega) le_rfl hc)
    have hnat : c.toNat.toUInt8.toNat = c.toNat := by
      rw [Nat.toUInt8, UInt8.toNat_ofNat']
      omega
    rw [Function.comp_apply, hnat, Char.ofNat_toNat]
    rfl
  rw [natOf, hback, Nat.ofDigitChars_ten_toDigits]

def NoDigit (text : List UInt8) : Prop := ∀ b, text.head? = some b → isDigit b = false

theorem noDigit_cons {b : UInt8} (hb : isDigit b = false) (text : List UInt8) :
    NoDigit (b :: text) := by
  intro c hc
  cases hc
  exact hb

section Digits

variable {digits rest : List UInt8} (hdigits : ∀ b ∈ digits, isDigit b = true) (hrest : NoDigit rest)

include hdigits hrest

theorem takeWhile_digits : (digits ++ rest).takeWhile isDigit = digits := by
  rw [List.takeWhile_append_of_pos hdigits]
  cases rest with
  | nil => simp
  | cons b rest =>
      rw [List.takeWhile_cons_of_neg (by simp [hrest b rfl]), List.append_nil]

theorem dropWhile_digits : (digits ++ rest).dropWhile isDigit = rest := by
  rw [List.dropWhile_append_of_pos hdigits]
  cases rest with
  | nil => rfl
  | cons b rest => rw [List.dropWhile_cons_of_neg (by simp [hrest b rfl])]

theorem numberAt_digits (hne : digits ≠ []) :
    numberAt (digits ++ rest) = some ((natOf digits : Int), rest) := by
  have htake := takeWhile_digits hdigits hrest
  have hdrop := dropWhile_digits hdigits hrest
  obtain ⟨b, text, rfl⟩ := List.exists_cons_of_ne_nil hne
  have hdigit : isDigit b = true := hdigits b List.mem_cons_self
  have hminus : b ≠ 45 := by
    rintro rfl
    cases hdigit
  have hplus : b ≠ 43 := by
    rintro rfl
    cases hdigit
  rw [List.cons_append] at htake hdrop ⊢
  simp only [numberAt, hminus, hplus, or_self, if_false, htake, hdrop]
  simp

end Digits

/-- A number is read back up to the first byte that is no digit. -/
theorem numberAt_decimalInt (n : Int) {rest : List UInt8} (hrest : NoDigit rest) :
    numberAt (decimalInt n ++ rest) = some (n, rest) := by
  cases n with
  | ofNat n =>
      rw [decimalInt, numberAt_digits (fun b hb => isDigit_of_mem_decimal hb) hrest (decimal_ne_nil n),
        natOf_decimal]
      rfl
  | negSucc n =>
      have hdigits : ∀ b ∈ decimal (n + 1), isDigit b = true := fun b hb => isDigit_of_mem_decimal hb
      simp only [decimalInt, List.cons_append, numberAt, true_or, if_true,
        takeWhile_digits hdigits hrest, dropWhile_digits hdigits hrest, decimal_ne_nil, if_false,
        natOf_decimal]
      rw [Int.negSucc_eq]
      rfl

/-! ### Directives that match -/

theorem skipSpaces_space {b : UInt8} (hb : isSpace b = true) (text : List UInt8) :
    skipSpaces (b :: text) = skipSpaces text :=
  List.dropWhile_cons_of_pos hb

theorem skipSpaces_stay {b : UInt8} (hb : isSpace b = false) (text : List UInt8) :
    skipSpaces (b :: text) = b :: text :=
  List.dropWhile_cons_of_neg (by simp [hb])

theorem not_isSpace_of_isDigit {b : UInt8} (hb : isDigit b = true) : isSpace b = false := by
  simp only [isDigit, Bool.and_eq_true, decide_eq_true_eq, UInt8.le_iff_toNat_le] at hb
  simp only [isSpace, Bool.or_eq_false_iff, Bool.and_eq_false_iff, decide_eq_false_iff_not,
    UInt8.le_iff_toNat_le, ← UInt8.toNat_inj]
  have h48 : (48 : UInt8).toNat = 48 := rfl
  have h32 : (32 : UInt8).toNat = 32 := rfl
  have h13 : (13 : UInt8).toNat = 13 := rfl
  omega

theorem not_isDigit_of_isSpace {b : UInt8} (hb : isSpace b = true) : isDigit b = false := by
  cases hdigit : isDigit b with
  | false => rfl
  | true =>
      rw [not_isSpace_of_isDigit hdigit] at hb
      cases hb

/-- A number starts with a byte that is no white space. -/
theorem decimalInt_head (n : Int) : ∃ b text, decimalInt n = b :: text ∧ isSpace b = false := by
  cases n with
  | ofNat n =>
      obtain ⟨b, text, hb⟩ := List.exists_cons_of_ne_nil (decimal_ne_nil n)
      exact ⟨b, text, hb,
        not_isSpace_of_isDigit (isDigit_of_mem_decimal (n := n) (hb ▸ List.mem_cons_self))⟩
  | negSucc n => exact ⟨45, decimal (n + 1), rfl, rfl⟩

theorem skipSpaces_decimalInt (n : Int) (rest : List UInt8) :
    skipSpaces (decimalInt n ++ rest) = decimalInt n ++ rest := by
  obtain ⟨b, text, hn, hb⟩ := decimalInt_head n
  rw [hn, List.cons_append, skipSpaces_stay hb]

def atoll (s : List UInt8) : Int :=
  match numberAt (skipSpaces s) with
  | none => 0
  | some (n, _) => strtol n

theorem atoll_decimal {n : Nat} (hn : n < 2 ^ 63) {rest : List UInt8} (hrest : NoDigit rest) :
    atoll (decimal n ++ rest) = n := by
  have hnumber := numberAt_decimalInt (.ofNat n) hrest
  rw [← skipSpaces_decimalInt] at hnumber
  rw [show decimalInt (.ofNat n) = decimal n from rfl] at hnumber
  rw [atoll, hnumber]
  simp only [strtol, Int.ofNat_eq_natCast]
  omega

def Conversion.Numeric (kind : Conversion) : Prop := kind ≠ .c ∧ kind ≠ .s

theorem convert_numeric {kind : Conversion} (hkind : kind.Numeric) (width : Option Nat)
    (input : List UInt8) :
    convert kind width input =
      if skipSpaces input = [] then .error .eof
      else
        match numberAt (skipSpaces input) with
        | none => .error .mismatch
        | some (n, rest) => .ok (.number (storedNumber kind n), rest) := by
  obtain ⟨hc, hs⟩ := hkind
  cases kind with
  | c => exact absurd rfl hc
  | s => exact absurd rfl hs
  | d => rfl
  | ld => rfl
  | u => rfl
  | lu => rfl
  | llu => rfl

theorem convert_decimalInt {kind : Conversion} (hkind : kind.Numeric) (n : Int) {rest : List UInt8}
    (hrest : NoDigit rest) :
    convert kind none (decimalInt n ++ rest) = .ok (.number (storedNumber kind n), rest) := by
  obtain ⟨b, text, hn, -⟩ := decimalInt_head n
  rw [convert_numeric hkind, skipSpaces_decimalInt, if_neg (by rw [hn]; simp),
    numberAt_decimalInt n hrest]

theorem scan_space (ds : List Directive) (input : List UInt8) :
    scan (.space :: ds) input = scan ds (skipSpaces input) := rfl

theorem scan_convert {kind : Conversion} {width : Option Nat} {input rest : List UInt8} {v : Value}
    (h : convert kind width input = .ok (v, rest)) (suppress : Bool) (ds : List Directive) :
    scan (.convert suppress width kind :: ds) input
      = (if suppress then (scan ds rest).1 else v :: (scan ds rest).1, (scan ds rest).2) := by
  rw [scan, h]

theorem scan_convert_stop {kind : Conversion} {width : Option Nat} {input : List UInt8} {stop : Stop}
    (h : convert kind width input = .error stop) (suppress : Bool) (ds : List Directive) :
    scan (.convert suppress width kind :: ds) input = ([], stop, input) := by
  rw [scan, h]

theorem scan_number {b : UInt8} (hb : isSpace b = true) {kind : Conversion} (hkind : kind.Numeric)
    (n : Int) {rest : List UInt8} (hrest : NoDigit rest) (suppress : Bool) (ds : List Directive) :
    scan (.space :: .convert suppress none kind :: ds) (b :: (decimalInt n ++ rest))
      = (if suppress then (scan ds rest).1 else .number (storedNumber kind n) :: (scan ds rest).1,
          (scan ds rest).2) := by
  rw [scan_space, skipSpaces_space hb, skipSpaces_decimalInt,
    scan_convert (convert_decimalInt hkind n hrest)]

theorem skipSpaces_blanks (k : Nat) (text : List UInt8) :
    skipSpaces (List.replicate k 32 ++ text) = skipSpaces text := by
  induction k with
  | zero => rfl
  | succ k ih =>
      rw [List.replicate_succ, List.cons_append, skipSpaces_space (by rfl)]
      exact ih

theorem scan_padded (k : Nat) {kind : Conversion} (hkind : kind.Numeric) (n : Int) {rest : List UInt8}
    (hrest : NoDigit rest) (suppress : Bool) (ds : List Directive) :
    scan (.space :: .convert suppress none kind :: ds) (List.replicate k 32 ++ (decimalInt n ++ rest))
      = (if suppress then (scan ds rest).1 else .number (storedNumber kind n) :: (scan ds rest).1,
          (scan ds rest).2) := by
  rw [scan_space, skipSpaces_blanks, skipSpaces_decimalInt, scan_convert (convert_decimalInt hkind n hrest)]

theorem scan_literals (text : List UInt8) (ds : List Directive) (rest : List UInt8) :
    scan (text.map .literal ++ ds) (text ++ rest) = scan ds rest := by
  induction text with
  | nil => rfl
  | cons b text ih =>
      rw [List.map_cons, List.cons_append, List.cons_append, scan, if_pos rfl, ih]

/-! ### What is stored -/

inductive Shape where
  | number
  | byte
  | text
  deriving DecidableEq

def Value.shape : Value → Shape
  | .number _ => .number
  | .byte _ => .byte
  | .text _ => .text

/-- The kind of value a conversion stores. -/
def Conversion.shape : Conversion → Shape
  | .c => .byte
  | .s => .text
  | _ => .number

def shapes (ds : List Directive) : List Shape :=
  ds.filterMap fun d =>
    match d with
    | .convert false _ kind => some kind.shape
    | _ => none

theorem convert_shape {kind : Conversion} {width : Option Nat} {input rest : List UInt8} {v : Value}
    (h : convert kind width input = .ok (v, rest)) : v.shape = kind.shape := by
  by_cases hkind : kind.Numeric
  · have hshape : kind.shape = .number := by
      cases kind with
      | c => exact absurd rfl hkind.1
      | s => exact absurd rfl hkind.2
      | d => rfl
      | ld => rfl
      | u => rfl
      | lu => rfl
      | llu => rfl
    rw [convert_numeric hkind] at h
    split at h
    · cases h
    · split at h
      · cases h
      · cases h
        exact hshape.symm
  · rw [Conversion.Numeric, not_and_or, not_not, not_not] at hkind
    rcases hkind with rfl | rfl
    · cases input with
      | nil => cases h
      | cons b input =>
          cases h
          rfl
    · rw [convert] at h
      simp only at h
      split at h
      · cases h
      · cases h
        rfl

/-- What is stored are values of the kinds the format asks for, up to where the call stopped. -/
theorem scan_shapes (ds : List Directive) (input : List UInt8) :
    (scan ds input).1.map Value.shape <+: shapes ds := by
  induction ds generalizing input with
  | nil => exact List.nil_prefix
  | cons d ds ih =>
      cases d with
      | space => exact ih _
      | literal b =>
          cases input with
          | nil => exact List.nil_prefix
          | cons c rest =>
              rw [scan]
              split
              · exact ih rest
              · exact List.nil_prefix
      | convert suppress width kind =>
          cases hconv : convert kind width input with
          | error stop =>
              rw [scan_convert_stop hconv]
              exact List.nil_prefix
          | ok r =>
              rw [scan_convert hconv]
              cases suppress with
              | true => exact ih r.2
              | false =>
                  have hshape := convert_shape hconv
                  have hshapes : shapes (.convert false width kind :: ds) = r.1.shape :: shapes ds := by
                    rw [hshape]
                    rfl
                  rw [if_neg Bool.false_ne_true, List.map_cons, hshapes]
                  exact (List.prefix_cons_inj _).mpr (ih r.2)

/-! ### Rows of numbers -/

/-- A number of the input with a blank before it, and the conversion that reads it. -/
structure Field where
  suppress : Bool
  kind : Conversion
  value : Int

def Field.directives (f : Field) : List Directive := [.space, .convert f.suppress none f.kind]

def Field.text (f : Field) : List UInt8 := 32 :: decimalInt f.value

def Field.stored (f : Field) : Option Value :=
  if f.suppress then none else some (.number (storedNumber f.kind f.value))

theorem noDigit_fields (fields : List Field) {rest : List UInt8} (hrest : NoDigit rest) :
    NoDigit (fields.flatMap Field.text ++ rest) := by
  cases fields with
  | nil => exact hrest
  | cons f fields => exact noDigit_cons rfl _

theorem scan_fields (fields : List Field) (hkind : ∀ f ∈ fields, f.kind.Numeric) {rest : List UInt8}
    (hrest : NoDigit rest) (ds : List Directive) :
    scan (fields.flatMap Field.directives ++ ds) (fields.flatMap Field.text ++ rest)
      = (fields.filterMap Field.stored ++ (scan ds rest).1, (scan ds rest).2) := by
  induction fields with
  | nil => rfl
  | cons f fields ih =>
      have ih := ih fun g hg => hkind g (List.mem_cons_of_mem f hg)
      rw [List.flatMap_cons, List.flatMap_cons, Field.directives, Field.text, List.append_assoc,
        List.append_assoc, List.cons_append, List.cons_append, List.cons_append, List.nil_append,
        scan_number (by rfl) (hkind f List.mem_cons_self) f.value (noDigit_fields fields hrest), ih,
        List.filterMap_cons, Field.stored]
      cases f.suppress with
      | true => rfl
      | false => rfl

def Directive.silent : Directive → Bool
  | .convert suppress _ _ => suppress
  | _ => true

theorem scan_silent {ds : List Directive} (h : ds.all Directive.silent = true) (input : List UInt8) :
    (scan ds input).1 = [] := by
  induction ds generalizing input with
  | nil => rfl
  | cons d ds ih =>
      rw [List.all_cons, Bool.and_eq_true] at h
      have ih := ih h.2
      cases d with
      | space => exact ih _
      | literal b =>
          cases input with
          | nil => rfl
          | cons c rest =>
              rw [scan]
              split
              · exact ih rest
              · rfl
      | convert suppress width kind =>
          have hsup : suppress = true := h.1
          cases hconv : convert kind width input with
          | error stop => rw [scan_convert_stop hconv]
          | ok r =>
              rw [scan_convert hconv, hsup]
              exact ih r.2

/-! ### Skipped words -/

/-- The input behind `n` words and the white space around them. -/
def skipWords : Nat → List UInt8 → List UInt8
  | 0, input => skipSpaces input
  | n + 1, input => skipWords n ((skipSpaces input).dropWhile fun b => !isSpace b)

theorem skipWords_nil (n : Nat) : skipWords n [] = [] := by
  induction n with
  | zero => rfl
  | succ n ih => exact ih

theorem skipWords_space (n : Nat) {b : UInt8} (hb : isSpace b = true) (text : List UInt8) :
    skipWords n (b :: text) = skipWords n text := by
  cases n with
  | zero => exact skipSpaces_space hb text
  | succ n => rw [skipWords, skipWords, skipSpaces_space hb]

theorem skipWords_word (n : Nat) {word : List UInt8} (hne : word ≠ [])
    (hword : ∀ b ∈ word, isSpace b = false) {c : UInt8} (hc : isSpace c = true) (text : List UInt8) :
    skipWords (n + 1) (word ++ c :: text) = skipWords n text := by
  obtain ⟨b, word', rfl⟩ := List.exists_cons_of_ne_nil hne
  have hskip : skipSpaces (b :: word' ++ c :: text) = b :: word' ++ c :: text :=
    skipSpaces_stay (hword b List.mem_cons_self) _
  have hall : ∀ x ∈ b :: word', (!isSpace x) = true := by
    intro x hx
    rw [hword x hx]
    rfl
  rw [skipWords, hskip, List.dropWhile_append_of_pos hall,
    List.dropWhile_cons_of_neg (by rw [hc]; simp), skipWords_space n hc]

def skips (n : Nat) : List Directive :=
  (List.replicate n [.convert true none .s, .space]).flatten

theorem drop_takeWhile {α : Type} (p : α → Bool) (l : List α) :
    l.drop (l.takeWhile p).length = l.dropWhile p := by
  calc l.drop (l.takeWhile p).length
      = (l.takeWhile p ++ l.dropWhile p).drop (l.takeWhile p).length := by
        rw [List.takeWhile_append_dropWhile]
    _ = l.dropWhile p := List.drop_left

/-- A word that is shorter than the width is stored. -/
theorem convert_word {word : List UInt8} (hne : word ≠ []) (hword : ∀ b ∈ word, isSpace b = false)
    {w : Nat} (hw : word.length < w) {c : UInt8} (hc : isSpace c = true) (rest : List UInt8) :
    convert .s (some w) (word ++ c :: rest) = .ok (.text word, c :: rest) := by
  obtain ⟨b, word', rfl⟩ := List.exists_cons_of_ne_nil hne
  have hskip : skipSpaces (b :: word' ++ c :: rest) = b :: word' ++ c :: rest :=
    skipSpaces_stay (hword b List.mem_cons_self) _
  have hall : ∀ x ∈ b :: word', (!isSpace x) = true := by
    intro x hx
    rw [hword x hx]
    rfl
  have htake : (b :: word' ++ c :: rest).take w
      = b :: word' ++ c :: rest.take (w - (b :: word').length - 1) := by
    obtain ⟨k, hk⟩ : ∃ k, w - (b :: word').length = k + 1 :=
      ⟨w - (b :: word').length - 1, by omega⟩
    rw [List.take_append, List.take_of_length_le (by omega), hk, List.take_succ_cons,
      Nat.add_sub_cancel]
  have hfield : ((b :: word' ++ c :: rest).take w).takeWhile (fun b => !isSpace b) = b :: word' := by
    rw [htake, List.takeWhile_append_of_pos hall, List.takeWhile_cons_of_neg (by rw [hc]; simp),
      List.append_nil]
  rw [convert]
  simp only [hskip, Option.getD_some, hfield]
  rw [if_neg (by simp), List.drop_left]

theorem scan_skips (n : Nat) (ds : List Directive) {input : List UInt8}
    (hleft : skipWords n input ≠ []) :
    scan (.space :: (skips n ++ ds)) input = scan ds (skipWords n input) := by
  induction n generalizing input with
  | zero => rfl
  | succ n ih =>
      have hne : skipSpaces input ≠ [] := by
        intro h
        rw [skipWords, h] at hleft
        exact hleft (skipWords_nil n)
      have hidem : skipSpaces (skipSpaces input) = skipSpaces input :=
        List.dropWhile_idempotent _ _
      have hconv : convert .s none (skipSpaces input)
          = .ok (.text ((skipSpaces input).takeWhile fun b => !isSpace b),
              (skipSpaces input).dropWhile fun b => !isSpace b) := by
        rw [convert]
        simp only [hidem, if_neg hne, Option.getD_none, List.take_length, drop_takeWhile]
      rw [skipWords] at hleft ⊢
      rw [scan_space, skips, List.replicate_succ, List.flatten_cons, List.append_assoc,
        List.cons_append, scan_convert hconv, if_pos rfl]
      exact ih hleft

/-! ### Inputs with too few words -/

/-- The text is made of `n` rows of digits that are shorter than `w`, each with white space behind it. -/
inductive DigitWords (w : Nat) : Nat → List UInt8 → Prop
  | nil : DigitWords w 0 []
  | space {n : Nat} {b : UInt8} {text : List UInt8} (hb : isSpace b = true) (htext : DigitWords w n text) :
      DigitWords w n (b :: text)
  | word {n : Nat} {word : List UInt8} {c : UInt8} {text : List UInt8} (hne : word ≠ [])
      (hword : ∀ b ∈ word, isDigit b = true) (hlen : word.length < w) (hc : isSpace c = true)
      (htext : DigitWords w n (c :: text)) : DigitWords w (n + 1) (word ++ c :: text)

/-- The directives that read whole words of that length, or nothing. -/
def Directive.wholeWord (w : Nat) : Directive → Bool
  | .space => true
  | .literal _ => false
  | .convert _ _ .c => false
  | .convert _ width .s => width.any (w ≤ ·)
  | .convert _ _ _ => true

/-- How many values the directives store when there are `n` words. -/
def stores : Nat → List Directive → Nat
  | _, [] => 0
  | 0, .convert _ _ _ :: _ => 0
  | n + 1, .convert suppress _ _ :: ds => (if suppress then 0 else 1) + stores n ds
  | n, _ :: ds => stores n ds

theorem wholeWord_kind {w : Nat} {suppress : Bool} {width : Option Nat} {kind : Conversion}
    (h : (Directive.convert suppress width kind).wholeWord w = true) :
    kind.Numeric ∨ kind = .s ∧ ∃ v, width = some v ∧ w ≤ v := by
  cases kind with
  | c => cases h
  | s =>
      obtain ⟨v, hv, hle⟩ := (Option.any_eq_true _ _).mp h
      exact .inr ⟨rfl, v, hv, of_decide_eq_true hle⟩
  | d => exact .inl ⟨nofun, nofun⟩
  | ld => exact .inl ⟨nofun, nofun⟩
  | u => exact .inl ⟨nofun, nofun⟩
  | lu => exact .inl ⟨nofun, nofun⟩
  | llu => exact .inl ⟨nofun, nofun⟩

theorem convert_space {kind : Conversion} (hkind : kind ≠ .c) (width : Option Nat) {b : UInt8}
    (hb : isSpace b = true) (text : List UInt8) : convert kind width (b :: text) = convert kind width text := by
  by_cases hs : kind = .s
  · subst hs
    simp only [convert, skipSpaces_space hb]
  · rw [convert_numeric ⟨hkind, hs⟩, convert_numeric ⟨hkind, hs⟩, skipSpaces_space hb]

namespace DigitWords

variable {w n : Nat} {input : List UInt8}

theorem skipSpaces (h : DigitWords w n input) : DigitWords w n (skipSpaces input) := by
  induction h with
  | nil => exact .nil
  | space hb htext ih =>
      rw [skipSpaces_space hb]
      exact ih
  | @word n word c text hne hword hlen hc htext ih =>
      obtain ⟨b, word', rfl⟩ := List.exists_cons_of_ne_nil hne
      have hstay : isSpace b = false := not_isSpace_of_isDigit (hword b List.mem_cons_self)
      rw [List.cons_append, skipSpaces_stay hstay, ← List.cons_append]
      exact .word hne hword hlen hc htext

theorem convert_cases (h : DigitWords w n input) {suppress : Bool} {width : Option Nat} {kind : Conversion}
    (hwhole : (Directive.convert suppress width kind).wholeWord w = true) :
    (∃ stop, convert kind width input = .error stop) ∨
      ∃ m v rest, n = m + 1 ∧ convert kind width input = .ok (v, rest) ∧ DigitWords w m rest := by
  have hkind : kind ≠ .c := by
    rintro rfl
    cases hwhole
  induction h with
  | nil =>
      refine .inl ⟨.eof, ?_⟩
      cases kind with
      | c => exact absurd rfl hkind
      | _ => rfl
  | space hb htext ih =>
      rw [convert_space hkind width hb]
      exact ih
  | @word n word c text hne hword hlen hc htext ih =>
      have hspaces : ∀ b ∈ word, isSpace b = false := fun b hb => not_isSpace_of_isDigit (hword b hb)
      right
      rcases wholeWord_kind hwhole with hnumeric | ⟨rfl, v, rfl, hv⟩
      · have hstay : Scanf.skipSpaces (word ++ c :: text) = word ++ c :: text := by
          obtain ⟨b, word', rfl⟩ := List.exists_cons_of_ne_nil hne
          exact skipSpaces_stay (hspaces b List.mem_cons_self) _
        refine ⟨n, .number (storedNumber kind (natOf word)), c :: text, rfl, ?_, htext⟩
        rw [convert_numeric hnumeric, hstay, if_neg (by simp),
          numberAt_digits hword (noDigit_cons (not_isDigit_of_isSpace hc) text) hne]
      · exact ⟨n, .text word, c :: text, rfl,
          convert_word hne hspaces (Nat.lt_of_lt_of_le hlen hv) hc text, htext⟩

theorem scan_length_le (h : DigitWords w n input) {ds : List Directive}
    (hds : ∀ d ∈ ds, d.wholeWord w = true) : (scan ds input).1.length ≤ stores n ds := by
  induction ds generalizing n input with
  | nil => exact Nat.le_refl 0
  | cons d ds ih =>
      have hnext : ∀ d ∈ ds, d.wholeWord w = true := fun d hd => hds d (List.mem_cons_of_mem _ hd)
      cases d with
      | space => exact ih h.skipSpaces hnext
      | literal b => cases hds _ List.mem_cons_self
      | convert suppress width kind =>
          rcases h.convert_cases (hds _ List.mem_cons_self) with
            ⟨stop, hconv⟩ | ⟨m, v, rest, rfl, hconv, hrest⟩
          · rw [scan_convert_stop hconv]
            exact Nat.zero_le _
          · have ih := ih hrest hnext
            rw [scan_convert hconv, stores]
            cases suppress with
            | true => simpa using ih
            | false =>
                simp only [Bool.false_eq_true, if_false, List.length_cons]
                omega

end DigitWords

end Scanf
