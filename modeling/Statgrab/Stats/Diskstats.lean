import Statgrab.Lib.Scanf
import Statgrab.Stats.FailedReads

/-!
# `/proc/diskstats`

The file is read in pieces of at most 255 bytes, and whether a piece is a whole line is not checked. The name
and the two sector counters stand within the first 200 bytes of a line, and what is left of a line behind
its first 255 bytes has too few fields for the format.
-/

namespace Statgrab

open Text

/-! ### The code -/

def diskFormat : List UInt8 := bytes " %*d %*d %99s %*d %*d %llu %*d %*d %*d %llu"

/-- The `sscanf` of what is in `line_buf`, and the check of `nr`. -/
def diskLineOf (line : List UInt8) : Option DiskLine :=
  let result := Scanf.scanf diskFormat (upToNul line)
  if Scanf.returned result ≠ 3 then none
  else
    match result.1 with
    | [.text name, .number rsect, .number wsect] => some ⟨name, UInt64.ofInt rsect, UInt64.ofInt wsect⟩
    | _ => none

/-- What `sg_get_disk_io_stats_int` meets in the file. `line_buf` has 256 bytes. -/
def diskFileOf (now : Int) (file : Except Int Stream) : DiskFile :=
  ⟨file.map fun f => (readLines 256 f).map diskLineOf, now⟩

/-! ### Lines of the kernel -/

def paddedNumber (pad n : Nat) : List UInt8 := List.replicate pad 32 ++ Scanf.decimal n

def countersText (counters : List Nat) : List UInt8 := counters.flatMap fun n => 32 :: Scanf.decimal n

/-- A line as the kernel writes it: the device numbers, the name and the counters. -/
structure DiskRow where
  majorPad : Nat
  major : Nat
  minorPad : Nat
  minor : Nat
  name : List UInt8
  counters : List Nat
  major_le : (paddedNumber majorPad major).length ≤ 10
  minor_le : (paddedNumber minorPad minor).length ≤ 10
  name_ne : name ≠ []
  name_le : name.length ≤ 31
  name_bytes : ∀ b ∈ name, b ≠ 0 ∧ isSpace b = false
  counters_ge : 11 ≤ counters.length
  counters_le : counters.length ≤ 17
  counters_lt : ∀ n ∈ counters, n < 2 ^ 64

namespace DiskRow

variable (row : DiskRow)

def head : List UInt8 :=
  paddedNumber row.majorPad row.major ++ 32 :: (paddedNumber row.minorPad row.minor ++ 32 :: row.name)

def text : List UInt8 := row.head ++ countersText row.counters

def counter (i : Nat) : Nat := row.counters.getD i 0

/-- The item has the name and the bytes of the row: a sector has 512 of them. -/
structure Reported (item : DiskIoStats) : Prop where
  name : item.diskName = some row.name
  readBytes : item.readBytes.toNat = 512 * row.counter 2 % 2 ^ 64
  writeBytes : item.writeBytes.toNat = 512 * row.counter 6 % 2 ^ 64

end DiskRow

def diskstatsFile (rows : List DiskRow) : Stream := ⟨rows.flatMap fun row => row.text ++ [10], none⟩

/-! ### The directives of the format -/

def headDirectives : List Scanf.Directive :=
  [.space, .convert true none .d, .space, .convert true none .d, .space, .convert false (some 99) .s]

/-- The first seven counters, with the conversions that read them. -/
def diskFields (counter : Nat → Nat) : List Scanf.Field :=
  [⟨true, .d, counter 0⟩, ⟨true, .d, counter 1⟩, ⟨false, .llu, counter 2⟩, ⟨true, .d, counter 3⟩,
    ⟨true, .d, counter 4⟩, ⟨true, .d, counter 5⟩, ⟨false, .llu, counter 6⟩]

def diskDirectives : List Scanf.Directive :=
  headDirectives ++ (diskFields fun _ => 0).flatMap Scanf.Field.directives

theorem parse_diskFormat : Scanf.parse none diskFormat = some diskDirectives := by decide

theorem diskDirectives_eq (counter : Nat → Nat) :
    diskDirectives = headDirectives ++ ((diskFields counter).flatMap Scanf.Field.directives ++ []) := rfl

theorem scanf_diskFormat (input : List UInt8) :
    Scanf.scanf diskFormat input = Scanf.scan diskDirectives input := by
  rw [Scanf.scanf, parse_diskFormat]

/-! ### The rest of a line -/

theorem countersText_cons (n : Nat) (counters : List Nat) :
    countersText (n :: counters) = 32 :: Scanf.decimal n ++ countersText counters := rfl

theorem countersText_append (front back : List Nat) :
    countersText (front ++ back) = countersText front ++ countersText back := List.flatMap_append

theorem counter_length {n : Nat} (hn : n < 2 ^ 64) : (Scanf.decimal n).length ≤ 20 :=
  Scanf.decimal_length_le (by omega) (Nat.lt_trans hn (by decide))

theorem countersText_length {counters : List Nat} (hlt : ∀ n ∈ counters, n < 2 ^ 64) :
    (countersText counters).length ≤ 21 * counters.length := by
  induction counters with
  | nil => exact Nat.le_refl 0
  | cons n counters ih =>
      have hn := counter_length (hlt n List.mem_cons_self)
      have ih := ih fun m hm => hlt m (List.mem_cons_of_mem n hm)
      rw [countersText_cons, List.length_append, List.length_cons, List.length_cons]
      omega

theorem digitWords_word {word : List UInt8} (hne : word ≠ []) (hword : ∀ b ∈ word, isDigit b = true)
    (hlen : word.length ≤ 20) {m : Nat} {counters : List Nat}
    (hcounters : Scanf.DigitWords 21 m (countersText counters ++ [10])) :
    Scanf.DigitWords 21 (m + 1) (word ++ (countersText counters ++ [10])) := by
  have hlt : word.length < 21 := Nat.lt_succ_of_le hlen
  cases counters with
  | nil => exact .word hne hword hlt (by rfl) hcounters
  | cons n counters => exact .word hne hword hlt (by rfl) hcounters

theorem digitWords_counters {counters : List Nat} (hlt : ∀ n ∈ counters, n < 2 ^ 64) :
    Scanf.DigitWords 21 counters.length (countersText counters ++ [10]) := by
  induction counters with
  | nil => exact .space (by rfl) .nil
  | cons n counters ih =>
      have ih := ih fun m hm => hlt m (List.mem_cons_of_mem n hm)
      rw [countersText_cons, List.append_assoc, List.cons_append]
      exact .space (by rfl) (digitWords_word (Scanf.decimal_ne_nil n)
        (fun b hb => Scanf.isDigit_of_mem_decimal hb) (counter_length (hlt n List.mem_cons_self)) ih)

/-- Behind `k` bytes of the counters at least one of them is missing for every 21 bytes. The first of those
that are left can be cut. -/
theorem digitWords_drop {counters : List Nat} (hlt : ∀ n ∈ counters, n < 2 ^ 64) (k : Nat) :
    ∃ m ≤ counters.length - k / 21, Scanf.DigitWords 21 m ((countersText counters).drop k ++ [10]) := by
  induction counters generalizing k with
  | nil =>
      refine ⟨0, Nat.zero_le _, ?_⟩
      rw [countersText, List.flatMap_nil, List.drop_nil]
      exact .space (by rfl) .nil
  | cons n counters ih =>
      have hnext : ∀ m ∈ counters, m < 2 ^ 64 := fun m hm => hlt m (List.mem_cons_of_mem n hm)
      have hn := counter_length (hlt n List.mem_cons_self)
      have hrest := digitWords_counters hnext
      rw [countersText_cons, List.cons_append]
      cases k with
      | zero =>
          refine ⟨counters.length + 1, by simp, ?_⟩
          rw [List.drop_zero, List.cons_append, List.append_assoc]
          exact .space (by rfl) (digitWords_word (Scanf.decimal_ne_nil n)
            (fun b hb => Scanf.isDigit_of_mem_decimal hb) hn hrest)
      | succ k =>
          rw [List.drop_succ_cons, List.drop_append]
          by_cases hcut : k < (Scanf.decimal n).length
          · -- the counter is cut: what is left of it is a word
            have hlast : k - (Scanf.decimal n).length = 0 := by omega
            refine ⟨counters.length + 1, ?_, ?_⟩
            · rw [List.length_cons]
              omega
            · rw [hlast, List.drop_zero, List.append_assoc]
              refine digitWords_word ?_ ?_ ?_ hrest
              · intro hnil
                rw [List.drop_eq_nil_iff] at hnil
                omega
              · intro b hb
                exact Scanf.isDigit_of_mem_decimal (List.mem_of_mem_drop hb)
              · rw [List.length_drop]
                omega
          · obtain ⟨m, hm, hwords⟩ := ih hnext (k - (Scanf.decimal n).length)
            refine ⟨m, ?_, ?_⟩
            · rw [List.length_cons]
              omega
            · rw [List.drop_eq_nil_of_le (by omega), List.nil_append]
              exact hwords

/-- The format stores two values at most where there are fewer than ten words. -/
theorem stores_diskDirectives {m : Nat} (hm : m ≤ 8) : Scanf.stores m diskDirectives ≤ 2 := by
  have hall : ∀ m ≤ 8, Scanf.stores m diskDirectives ≤ 2 := by decide
  exact hall m hm

theorem diskLineOf_eq_none {line : List UInt8}
    (h : (Scanf.scan diskDirectives (upToNul line)).1.length ≤ 2) : diskLineOf line = none := by
  have hreturned : Scanf.returned (Scanf.scanf diskFormat (upToNul line)) ≠ 3 := by
    rw [scanf_diskFormat, Scanf.returned]
    split
    · decide
    · omega
  rw [diskLineOf]
  exact if_pos hreturned

theorem diskLineOf_eq_some {line name : List UInt8} {rsect wsect : Int}
    (h : (Scanf.scan diskDirectives (upToNul line)).1 = [.text name, .number rsect, .number wsect]) :
    diskLineOf line = some ⟨name, UInt64.ofInt rsect, UInt64.ofInt wsect⟩ := by
  have hreturned : Scanf.returned (Scanf.scan diskDirectives (upToNul line)) = 3 := by
    rw [Scanf.returned, h, if_neg (by simp)]
    rfl
  rw [diskLineOf, scanf_diskFormat]
  simp only [hreturned, h, ne_eq, not_true_eq_false, if_false]

theorem sectors_toNat (n : Nat) : (UInt64.ofNat n * 512).toNat = 512 * n % 2 ^ 64 := by
  rw [UInt64.toNat_mul, UInt64.toNat_ofNat', Nat.mod_mul_mod, Nat.mul_comm]
  rfl

namespace DiskRow

variable (row : DiskRow)

theorem plain {b : UInt8} (hb : b ∈ row.text) : b ≠ 0 ∧ b ≠ 10 := by
  have hblank : (32 : UInt8) ≠ 0 ∧ (32 : UInt8) ≠ 10 := by decide
  have hpadded : ∀ pad n, ∀ b ∈ paddedNumber pad n, b ≠ 0 ∧ b ≠ 10 := by
    intro pad n b hb
    rcases List.mem_append.mp hb with hb | hb
    · rw [List.eq_of_mem_replicate hb]
      exact hblank
    · exact Scanf.plain_of_mem_decimal hb
  rw [text, head, List.append_assoc, List.mem_append, List.cons_append, List.mem_cons, List.append_assoc,
    List.mem_append, List.cons_append, List.mem_cons, List.mem_append] at hb
  rcases hb with hb | rfl | hb | rfl | hb | hb
  · exact hpadded _ _ b hb
  · exact hblank
  · exact hpadded _ _ b hb
  · exact hblank
  · obtain ⟨hzero, hspace⟩ := row.name_bytes b hb
    refine ⟨hzero, ?_⟩
    rintro rfl
    cases hspace
  · obtain ⟨n, -, hb⟩ := List.mem_flatMap.mp hb
    rcases List.mem_cons.mp hb with rfl | hb
    · exact hblank
    · exact Scanf.plain_of_mem_decimal hb

theorem head_length : row.head.length ≤ 53 := by
  have hmajor := row.major_le
  have hminor := row.minor_le
  have hname := row.name_le
  rw [head, List.length_append, List.length_cons, List.length_append, List.length_cons]
  omega

theorem text_length : row.text.length ≤ 410 := by
  have hhead := row.head_length
  have hcounters := countersText_length row.counters_lt
  have hle := row.counters_le
  rw [text, List.length_append]
  omega

theorem diskLineOf_rest : diskLineOf (row.text.drop 255 ++ [10]) = none := by
  have hhead := row.head_length
  have hle := row.counters_le
  obtain ⟨m, hm, hwords⟩ := digitWords_drop row.counters_lt (255 - row.head.length)
  have hdrop : row.text.drop 255 = (countersText row.counters).drop (255 - row.head.length) := by
    rw [text, List.drop_append, List.drop_eq_nil_of_le (by omega), List.nil_append]
  have hnul : 0 ∉ row.text.drop 255 ++ [10] :=
    nul_notMem_line fun hmem => (row.plain (List.mem_of_mem_drop hmem)).1 rfl
  apply diskLineOf_eq_none
  rw [upToNul_eq hnul, hdrop]
  calc (Scanf.scan diskDirectives ((countersText row.counters).drop (255 - row.head.length) ++ [10])).1.length
      ≤ Scanf.stores m diskDirectives := hwords.scan_length_le (by decide)
    _ ≤ 2 := stores_diskDirectives (by omega)

/-! ### The start of a line -/

/-- The part of a row that is read: up to the seventh counter. -/
def front : List UInt8 := row.head ++ countersText ((List.range 7).map row.counter)

theorem counters_eq : row.counters = (List.range 7).map row.counter ++ row.counters.drop 7 := by
  have hge := row.counters_ge
  have htake : row.counters.take 7 = (List.range 7).map row.counter := by
    apply List.ext_getElem
    · simp only [List.length_take, List.length_map, List.length_range]
      omega
    · intro i hi hi'
      have hlt : i < row.counters.length := by
        rw [List.length_take] at hi
        omega
      rw [List.getElem_take, List.getElem_map, List.getElem_range, counter, List.getD_eq_getElem _ _ hlt]
  rw [← htake, List.take_append_drop]

theorem counter_lt {i : Nat} (hi : i < 7) : row.counter i < 2 ^ 64 := by
  apply row.counters_lt
  rw [row.counters_eq]
  exact List.mem_append_left _ (List.mem_map_of_mem (List.mem_range.mpr hi))

theorem text_eq_front : ∃ rest, row.text = row.front ++ 32 :: rest := by
  have hge := row.counters_ge
  have hne : row.counters.drop 7 ≠ [] := by
    intro hnil
    rw [List.drop_eq_nil_iff] at hnil
    omega
  obtain ⟨n, back, hback⟩ := List.exists_cons_of_ne_nil hne
  refine ⟨Scanf.decimal n ++ countersText back, ?_⟩
  rw [text, row.counters_eq, countersText_append, hback, countersText_cons, front, List.append_assoc,
    List.cons_append]

theorem front_length : row.front.length ≤ 200 := by
  have hhead := row.head_length
  have hcounters : (countersText ((List.range 7).map row.counter)).length
      ≤ 21 * ((List.range 7).map row.counter).length := by
    apply countersText_length
    intro n hn
    obtain ⟨i, hi, rfl⟩ := List.mem_map.mp hn
    exact row.counter_lt (List.mem_range.mp hi)
  rw [List.length_map, List.length_range] at hcounters
  rw [front, List.length_append]
  omega

theorem scan_head (ds : List Scanf.Directive) (rest : List UInt8) :
    (Scanf.scan (headDirectives ++ ds) (row.head ++ 32 :: rest)).1
      = .text row.name :: (Scanf.scan ds (32 :: rest)).1 := by
  have hnumeric : Scanf.Conversion.d.Numeric := ⟨nofun, nofun⟩
  have hblank : ∀ text, Scanf.NoDigit (32 :: text) := Scanf.noDigit_cons (by decide)
  have hminor : ∀ text, 32 :: (paddedNumber row.minorPad row.minor ++ text)
      = List.replicate (row.minorPad + 1) 32 ++ (Scanf.decimalInt (.ofNat row.minor) ++ text) := by
    intro text
    rw [paddedNumber, List.append_assoc, List.replicate_succ]
    rfl
  have hmajor : ∀ text, paddedNumber row.majorPad row.major ++ text
      = List.replicate row.majorPad 32 ++ (Scanf.decimalInt (.ofNat row.major) ++ text) := by
    intro text
    rw [paddedNumber, List.append_assoc]
    rfl
  have hname : ∀ b ∈ row.name, isSpace b = false := fun b hb => (row.name_bytes b hb).2
  have hskip : Scanf.skipSpaces (row.name ++ 32 :: rest) = row.name ++ 32 :: rest := by
    obtain ⟨b, text, hb⟩ := List.exists_cons_of_ne_nil row.name_ne
    rw [hb]
    exact Scanf.skipSpaces_stay (hname b (hb ▸ List.mem_cons_self)) _
  have hlen : row.name.length < 99 := Nat.lt_of_le_of_lt row.name_le (by decide)
  rw [head, List.append_assoc, List.cons_append, List.append_assoc, List.cons_append, hminor, hmajor,
    headDirectives]
  simp only [List.cons_append, List.nil_append]
  rw [Scanf.scan_padded _ hnumeric _ (by rw [List.replicate_succ]; exact hblank _), if_pos rfl,
    Scanf.scan_padded _ hnumeric _ (hblank _), if_pos rfl, Scanf.scan_space,
    Scanf.skipSpaces_space (by rfl), hskip,
    Scanf.scan_convert (Scanf.convert_word row.name_ne hname hlen (by rfl) rest)]
  rfl

def line : DiskLine := ⟨row.name, UInt64.ofNat (row.counter 2), UInt64.ofNat (row.counter 6)⟩

theorem storedNumber_counter {i : Nat} (hi : i < 7) :
    UInt64.ofInt (Scanf.storedNumber .llu (row.counter i)) = UInt64.ofNat (row.counter i) := by
  have hlt := row.counter_lt hi
  have hstored : Scanf.storedNumber .llu (row.counter i) = row.counter i := by
    show Scanf.strtoul (row.counter i) = row.counter i
    rw [Scanf.strtoul]
    omega
  have hnat : ((row.counter i : Int) % 2 ^ 64).toNat = row.counter i := by omega
  rw [hstored, UInt64.ofInt, hnat]

/-- A piece that has the row up to its seventh counter is read back. -/
theorem diskLineOf_front {rest : List UInt8} (hnul : 0 ∉ row.front ++ 32 :: rest) :
    diskLineOf (row.front ++ 32 :: rest) = some row.line := by
  have hfields : countersText ((List.range 7).map row.counter)
      = (diskFields row.counter).flatMap Scanf.Field.text := rfl
  have hkind : ∀ f ∈ diskFields row.counter, f.kind.Numeric := by
    intro f hf
    simp only [diskFields, List.mem_cons, List.not_mem_nil, or_false] at hf
    rcases hf with rfl | rfl | rfl | rfl | rfl | rfl | rfl
    all_goals exact ⟨nofun, nofun⟩
  obtain ⟨text, htext⟩ : ∃ text, countersText ((List.range 7).map row.counter) ++ 32 :: rest = 32 :: text :=
    ⟨_, rfl⟩
  have hscan : (Scanf.scan diskDirectives (row.front ++ 32 :: rest)).1
      = [.text row.name, .number (Scanf.storedNumber .llu (row.counter 2)),
          .number (Scanf.storedNumber .llu (row.counter 6))] := by
    rw [front, List.append_assoc, diskDirectives_eq row.counter, htext, row.scan_head, ← htext, hfields,
      Scanf.scan_fields _ hkind (Scanf.noDigit_cons (by decide) rest)]
    rfl
  rw [← upToNul_eq hnul] at hscan
  rw [diskLineOf_eq_some hscan, row.storedNumber_counter (by decide), row.storedNumber_counter (by decide)]
  rfl

theorem reported_line (now : Int) : row.Reported (diskItem now row.line) :=
  ⟨rfl, sectors_toNat (row.counter 2), sectors_toNat (row.counter 6)⟩

/-- A row gives one line, whether it arrives in one piece or in two. -/
theorem readLines_row (rest : List UInt8) :
    (readLines 256 ⟨row.text ++ 10 :: rest, none⟩).filterMap diskLineOf
      = row.line :: (readLines 256 ⟨rest, none⟩).filterMap diskLineOf := by
  obtain ⟨back, hback⟩ := row.text_eq_front
  have hnewline : 10 ∉ row.text := fun hmem => (row.plain hmem).2 rfl
  by_cases hfit : row.text.length < 255
  · have hnul : 0 ∉ row.text ++ [10] := nul_notMem_line fun hmem => (row.plain hmem).1 rfl
    have hline : row.text ++ [10] = row.front ++ 32 :: (back ++ [10]) := by
      rw [hback, List.append_assoc, List.cons_append]
    rw [hline] at hnul
    rw [readLines_line hfit hnewline, List.filterMap_cons_some (hline ▸ row.diskLineOf_front hnul)]
  · have hfront := row.front_length
    have htext := row.text_length
    obtain ⟨k, hk⟩ : ∃ k, 255 - row.front.length = k + 1 := ⟨254 - row.front.length, by omega⟩
    have hpiece : row.text.take 255 = row.front ++ 32 :: back.take k := by
      rw [hback, List.take_append, List.take_of_length_le (by omega), hk, List.take_succ_cons]
    have hnul : 0 ∉ row.front ++ 32 :: back.take k := by
      intro hmem
      rw [← hpiece] at hmem
      exact (row.plain (List.mem_of_mem_take hmem)).1 rfl
    have hlast : (row.text.drop 255).length < 255 := by
      rw [List.length_drop]
      omega
    rw [readLines_long (by decide) (show 255 ≤ row.text.length by omega) hnewline,
      List.filterMap_cons_some (hpiece ▸ row.diskLineOf_front hnul),
      readLines_line hlast fun hmem => hnewline (List.mem_of_mem_drop hmem),
      List.filterMap_cons_none row.diskLineOf_rest]

end DiskRow

/-! ### The whole file -/

theorem readLines_diskstats (rows : List DiskRow) :
    (readLines 256 (diskstatsFile rows)).filterMap diskLineOf = rows.map DiskRow.line := by
  induction rows with
  | nil => rfl
  | cons row rows ih =>
      have hfile : diskstatsFile (row :: rows) = ⟨row.text ++ 10 :: (diskstatsFile rows).bytes, none⟩ := by
        simp [diskstatsFile]
      rw [hfile, row.readLines_row, List.map_cons]
      exact congrArg _ ih

/-- A file with lines of the kernel is read back: one item for each line, in order. -/
theorem sgGetDiskIoStatsInt_rows (now : Int) (rows : List DiskRow) {w : World DiskIoStats} {p : Ptr}
    (hw : w.Sound) (hp : w.Takes DiskIoStats.info (some p) [] rows.length) :
    ∃ y w', sgGetDiskIoStatsInt (diskFileOf now (.ok (diskstatsFile rows))) (some p) w
        = .ok ((.none, y), w') ∧
      List.Forall₂ DiskRow.Reported rows (w'.itemsAt y) := by
  have hlines : ((readLines 256 (diskstatsFile rows)).map diskLineOf).filterMap id
      = rows.map DiskRow.line := by
    rw [List.filterMap_map, Function.id_comp, readLines_diskstats]
  have hlength : rows.length = (rows.map DiskRow.line).length := (List.length_map _).symm
  rw [hlength] at hp
  obtain ⟨y, w', hrun, hitems⟩ := fillItems_items DiskIoStats.regular.full (fillDiskIo_lawful now) _ hw hp
  refine ⟨y, w', ?_, ?_⟩
  · rw [← hrun, ← hlines]
    rfl
  · rw [hitems, List.map_map, List.forall₂_map_right_iff, List.forall₂_same]
    intro row _
    exact row.reported_line now

def sdaRow : DiskRow where
  majorPad := 3
  major := 8
  minorPad := 6
  minor := 0
  name := bytes "sda"
  counters := [1, 2, 3, 4, 5, 6, 7, 8, 9, 10, 11]
  major_le := by decide
  minor_le := by decide
  name_ne := by decide
  name_le := by decide
  name_bytes := by decide +kernel
  counters_ge := by decide
  counters_le := by decide
  counters_lt := by decide

/-- A disk whose line arrives in two pieces. -/
def longRow : DiskRow where
  majorPad := 1
  major := 259
  minorPad := 6
  minor := 0
  name := bytes "nvme0n1"
  counters := List.replicate 17 (2 ^ 64 - 1)
  major_le := by decide
  minor_le := by decide
  name_ne := by decide
  name_le := by decide
  name_bytes := by decide +kernel
  counters_ge := by decide
  counters_le := by decide
  counters_lt := by decide

/-- A file with these two disks. -/
theorem sgGetDiskIoStatsInt_nvme :
    255 < longRow.text.length ∧
      ∃ y w', sgGetDiskIoStatsInt (diskFileOf 0 (.ok (diskstatsFile [sdaRow, longRow, sdaRow]))) (some 0)
          (cachedWorld DiskIoStats.info 0 ⟨none, 0, 0, 0⟩) = .ok ((.none, y), w') ∧
        List.Forall₂ DiskRow.Reported [sdaRow, longRow, sdaRow] (w'.itemsAt y) := by
  obtain ⟨hsound, htakes⟩ := cachedWorld_takes DiskIoStats.regular ⟨none, 0, 0, 0⟩
    (show 3 ≤ itemLimit by decide)
  exact ⟨by decide +kernel, sgGetDiskIoStatsInt_rows 0 _ hsound htakes⟩

end Statgrab
