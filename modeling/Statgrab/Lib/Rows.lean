import Statgrab.Lib.Lines
import Statgrab.Lib.Scanf

/-!
# Rows of a word and its numbers

The text of a table in which a line is a word with its numbers behind it. A reader with a buffer of a fixed
size gets the first part of a line that is too long for it, and then the rest in pieces: these start within
the numbers, so a reader that looks for a letter at the start of what it gets does not see them. One that
keeps a number for each word it looks for ends up with what a search for the row of that word finds.
-/

namespace Text

/-- A line of the table: a word, the blanks that align it, its numbers, and a unit if `kb` is set. -/
structure Row where
  word : List UInt8
  plain : ∀ b ∈ word, isSpace b = false ∧ b ≠ 0
  pad : Nat
  values : List Nat
  kb : Bool

namespace Row

def numbers (values : List Nat) : List UInt8 := values.flatMap fun n => 32 :: Scanf.decimal n

def unit (row : Row) : List UInt8 := if row.kb then bytes " kB" else []

def text (row : Row) : List UInt8 :=
  row.word ++ (List.replicate row.pad 32 ++ (numbers row.values ++ row.unit))

def line (size : Nat) (row : Row) : List UInt8 := (row.text ++ [10]).take (size - 1)

def file (rows : List Row) : List UInt8 := unlines (rows.map text)

/-- The bytes behind the word. -/
def Behind (b : UInt8) : Prop := isDigit b = true ∨ b = 10 ∨ b = 32 ∨ b = 66 ∨ b = 107

theorem numbers_behind {values : List Nat} {b : UInt8} (hb : b ∈ numbers values) :
    isDigit b = true ∨ b = 32 := by
  obtain ⟨n, -, hb⟩ := List.mem_flatMap.mp hb
  rcases List.mem_cons.mp hb with rfl | hb
  · exact .inr rfl
  · exact .inl (Scanf.isDigit_of_mem_decimal hb)

theorem unit_behind {row : Row} {b : UInt8} (hb : b ∈ row.unit) : b = 32 ∨ b = 66 ∨ b = 107 := by
  unfold unit at hb
  split at hb
  · have hbytes : bytes " kB" = [32, 107, 66] := rfl
    rw [hbytes] at hb
    simp only [List.mem_cons, List.not_mem_nil, or_false] at hb
    rcases hb with rfl | rfl | rfl <;> simp
  · cases hb

theorem mem_text {row : Row} {b : UInt8} (hb : b ∈ row.text) :
    b ∈ row.word ∨ isDigit b = true ∨ b = 32 ∨ b = 66 ∨ b = 107 := by
  simp only [text, List.mem_append] at hb
  rcases hb with hb | hb | hb | hb
  · exact .inl hb
  · rw [List.eq_of_mem_replicate hb]
    exact .inr (.inr (.inl rfl))
  · rcases numbers_behind hb with hdigit | hblank
    · exact .inr (.inl hdigit)
    · exact .inr (.inr (.inl hblank))
  · exact .inr (.inr (unit_behind hb))

theorem text_plain {row : Row} {b : UInt8} (hb : b ∈ row.text) : b ≠ 10 ∧ b ≠ 0 := by
  rcases mem_text hb with hword | hdigit | rfl | rfl | rfl
  · obtain ⟨hspace, hzero⟩ := row.plain b hword
    refine ⟨?_, hzero⟩
    rintro rfl
    cases hspace
  · constructor
    · rintro rfl
      cases hdigit
    · rintro rfl
      cases hdigit
  · simp
  · simp
  · simp

theorem upToNul_line (size : Nat) (row : Row) : upToNul (row.line size) = row.line size := by
  apply upToNul_eq
  intro hmem
  have hmem : (0 : UInt8) ∈ row.text ++ [10] := List.mem_of_mem_take hmem
  rcases List.mem_append.mp hmem with hmem | hmem
  · exact (text_plain hmem).2 rfl
  · cases List.mem_singleton.mp hmem

/-- What a buffer does not get of a line is behind the word. -/
theorem drop_behind {size : Nat} {row : Row} (hword : row.word.length ≤ size) {b : UInt8}
    (hb : b ∈ (row.text ++ [10]).drop size) : Behind b := by
  rw [text, List.append_assoc, List.drop_append, List.drop_of_length_le hword, List.nil_append] at hb
  have hmem := List.mem_of_mem_drop hb
  simp only [List.mem_append, List.mem_singleton] at hmem
  rcases hmem with (hmem | hmem | hmem) | rfl
  · exact .inr (.inr (.inl (List.eq_of_mem_replicate hmem)))
  · exact (numbers_behind hmem).imp_right fun h => .inr (.inl h)
  · exact .inr (.inr (unit_behind hmem))
  · exact .inr (.inl rfl)

theorem readLines_row {size : Nat} (hsize : 2 ≤ size) {row : Row} (hword : row.word.length < size)
    (rows : List Row) (failure : Option Int) :
    ∃ chunks, readLines size ⟨file (row :: rows), failure⟩
        = row.line size :: (chunks ++ readLines size ⟨file rows, failure⟩) ∧
      ∀ chunk ∈ chunks, ∃ b tail, chunk = b :: tail ∧ Behind b := by
  have hline : 10 ∉ row.text := fun hmem => (text_plain hmem).1 rfl
  have hfile : file (row :: rows) = row.text ++ 10 :: file rows := by
    rw [file, List.map_cons, unlines, List.flatMap_cons, List.append_assoc]
    rfl
  obtain ⟨chunks, hread, hchunks⟩ := readLines_chunks hsize hline (file rows) failure
  refine ⟨chunks, ?_, ?_⟩
  · rw [hfile, hread]
    rfl
  · intro chunk hchunk
    obtain ⟨hne, hbytes⟩ := hchunks chunk hchunk
    obtain ⟨b, tail, rfl⟩ := List.exists_cons_of_ne_nil hne
    exact ⟨b, tail, rfl, drop_behind (by omega) (hbytes b List.mem_cons_self)⟩

section Readers

variable {size : Nat} (hsize : 2 ≤ size) {rows : List Row} (hwords : ∀ row ∈ rows, row.word.length < size)
  (failure : Option Int)

include hsize hwords

/-- A reader that passes over what does not start with a letter of a word makes of the lines what it makes of
the start of each. -/
theorem filter_readLines {β : Type} {f : List UInt8 → β} {keep : β → Bool}
    (hkeep : ∀ b line, Behind b → keep (f (b :: line)) = false) :
    ((readLines size ⟨file rows, failure⟩).map f).filter keep
      = (rows.map fun row => f (row.line size)).filter keep := by
  induction rows with
  | nil => rfl
  | cons row rows ih =>
      obtain ⟨chunks, hread, hchunks⟩ := readLines_row hsize (hwords row List.mem_cons_self) rows failure
      have hskip : (chunks.map f).filter keep = [] := by
        rw [List.filter_eq_nil_iff]
        intro value hvalue
        obtain ⟨chunk, hchunk, rfl⟩ := List.mem_map.mp hvalue
        obtain ⟨b, tail, rfl, hb⟩ := hchunks chunk hchunk
        rw [hkeep b tail hb]
        simp
      rw [hread, List.map_cons, List.map_append, List.filter_cons, List.filter_append, hskip, List.nil_append,
        ih fun r hr => hwords r (List.mem_cons_of_mem row hr), List.map_cons, List.filter_cons]

theorem foldl_readLines {σ : Type} {step : σ → List UInt8 → σ}
    (hkeep : ∀ s b line, Behind b → step s (b :: line) = s) (s : σ) :
    (readLines size ⟨file rows, failure⟩).foldl step s = rows.foldl (fun s row => step s (row.line size)) s := by
  induction rows generalizing s with
  | nil => rfl
  | cons row rows ih =>
      obtain ⟨chunks, hread, hchunks⟩ := readLines_row hsize (hwords row List.mem_cons_self) rows failure
      have hskip : ∀ s, chunks.foldl step s = s := by
        intro s
        refine List.foldlRecOn chunks step (motive := fun s' => s' = s) rfl ?_
        rintro s' rfl chunk hchunk
        obtain ⟨b, tail, rfl, hb⟩ := hchunks chunk hchunk
        exact hkeep s' b tail hb
      rw [hread, List.foldl_cons, List.foldl_append, hskip, List.foldl_cons,
        ih fun r hr => hwords r (List.mem_cons_of_mem row hr)]

end Readers

/-! ### The numbers of a row -/

/-- The first numbers are in the buffer as a whole, and behind them there is no digit. -/
theorem line_numbers {size k : Nat} {row : Row} (hvalues : ∀ n ∈ row.values, n < 2 ^ 64)
    (hfits : row.word.length + row.pad + 21 * k < size) :
    ∃ rest, Scanf.NoDigit rest ∧
      row.line size
        = row.word ++ (List.replicate row.pad 32 ++ (numbers (row.values.take k) ++ rest)) ∧
      (row.values.length < k → rest <+: row.unit ++ [10]) := by
  have hsplit : numbers row.values = numbers (row.values.take k) ++ numbers (row.values.drop k) := by
    rw [numbers, numbers, numbers, ← List.flatMap_append, List.take_append_drop]
  have hlen : (numbers (row.values.take k)).length ≤ 21 * k := by
    have hle : ∀ values : List Nat, (∀ n ∈ values, n < 2 ^ 64) → (numbers values).length ≤ 21 * values.length := by
      intro values hvalues
      induction values with
      | nil => exact Nat.zero_le _
      | cons n values ih =>
          have hrest := ih fun m hm => hvalues m (List.mem_cons_of_mem n hm)
          have hn : n < 10 ^ 20 := Nat.lt_trans (hvalues n List.mem_cons_self) (by decide)
          have hdigits := Scanf.decimal_length_le (by decide) hn
          rw [numbers, List.flatMap_cons, List.length_append, ← numbers, List.length_cons, List.length_cons]
          omega
    have htake : (row.values.take k).length ≤ k := List.length_take_le k row.values
    exact (hle _ fun n hn => hvalues n (List.mem_of_mem_take hn)).trans (by omega)
  have htext : row.text ++ [10]
      = (row.word ++ (List.replicate row.pad 32 ++ numbers (row.values.take k)))
          ++ (numbers (row.values.drop k) ++ (row.unit ++ [10])) := by
    rw [text, hsplit]
    simp only [List.append_assoc]
  have hfront : (row.word ++ (List.replicate row.pad 32 ++ numbers (row.values.take k))).length ≤ size - 1 := by
    simp only [List.length_append, List.length_replicate]
    omega
  refine ⟨(numbers (row.values.drop k) ++ (row.unit ++ [10])).take
    (size - 1 - (row.word ++ (List.replicate row.pad 32 ++ numbers (row.values.take k))).length), ?_, ?_, ?_⟩
  · -- the next byte, if there is one, is a blank or the newline
    have hnext : Scanf.NoDigit (numbers (row.values.drop k) ++ (row.unit ++ [10])) := by
      cases row.values.drop k with
      | nil =>
          unfold unit
          split
          · exact Scanf.noDigit_cons rfl _
          · exact Scanf.noDigit_cons rfl _
      | cons n values => exact Scanf.noDigit_cons rfl _
    intro b hb
    apply hnext
    rw [List.head?_take] at hb
    split at hb
    · cases hb
    · exact hb
  · rw [line, htext, List.take_append, List.take_of_length_le hfront]
    simp only [List.append_assoc]
  · intro hfew
    rw [List.drop_of_length_le (Nat.le_of_lt hfew)]
    exact List.take_prefix _ _

theorem line_word {size : Nat} {row : Row} (hword : row.word.length < size) :
    ∃ rest, row.line size = row.word ++ rest ∧ ∀ b, rest.head? = some b → isSpace b = true := by
  refine ⟨(List.replicate row.pad 32 ++ (numbers row.values ++ row.unit) ++ [10]).take
    (size - 1 - row.word.length), ?_, ?_⟩
  · rw [line, text, List.append_assoc, List.take_append, List.take_of_length_le (by omega)]
  · intro b hb
    rw [List.head?_take] at hb
    split at hb
    · cases hb
    · cases hpad : row.pad with
      | succ n =>
          rw [hpad] at hb
          cases hb
          rfl
      | zero =>
          rw [hpad] at hb
          cases hvalues : row.values with
          | cons n values =>
              rw [hvalues] at hb
              cases hb
              rfl
          | nil =>
              rw [hvalues, unit] at hb
              split at hb
              · cases hb
                rfl
              · cases hb
                rfl

theorem takeWhile_word {word rest : List UInt8} (hword : ∀ b ∈ word, isSpace b = false)
    (hrest : ∀ b, rest.head? = some b → isSpace b = true) :
    (word ++ rest).takeWhile (fun b => !isSpace b) = word := by
  rw [List.takeWhile_append_of_pos (by intro b hb; simp [hword b hb])]
  cases rest with
  | nil => simp
  | cons b rest => rw [List.takeWhile_cons_of_neg (by simp [hrest b rfl]), List.append_nil]

theorem word_of_prefix {size : Nat} {row : Row} (hword : row.word.length < size) {word : List UInt8}
    (hplain : ∀ b ∈ word, isSpace b = false) {c : UInt8} (hc : isSpace c = true)
    (hstart : word ++ [c] <+: row.line size) : row.word = word := by
  obtain ⟨rest, hline, hrest⟩ := line_word hword
  obtain ⟨behind, hbehind⟩ := hstart
  calc row.word = (row.line size).takeWhile (fun b => !isSpace b) := by
        rw [hline, takeWhile_word (fun b hb => (row.plain b hb).1) hrest]
    _ = word := by
        rw [← hbehind, List.append_assoc]
        apply takeWhile_word hplain
        intro b hb
        cases hb
        exact hc

/-! ### Reading the numbers -/

def reads (kind : Scanf.Conversion) (k : Nat) : List Scanf.Directive :=
  (List.replicate k [.space, .convert false none kind]).flatten

theorem numberAt_unit {row : Row} {rest : List UInt8} (h : rest <+: row.unit ++ [10]) :
    Scanf.numberAt (Scanf.skipSpaces rest) = none := by
  have hend : rest <+: [32, 107, 66, 10] ∨ rest <+: [10] := by
    unfold unit at h
    split at h
    · exact .inl h
    · exact .inr h
  simp only [List.prefix_cons_iff, List.prefix_nil] at hend
  rcases hend with (rfl | ⟨_, rfl, rfl | ⟨_, rfl, rfl | ⟨_, rfl, rfl | ⟨_, rfl, rfl⟩⟩⟩⟩) |
    (rfl | ⟨_, rfl, rfl⟩) <;> rfl

variable {kind : Scanf.Conversion} (hkind : kind.Numeric) {ds : List Scanf.Directive}
  (hds : Scanf.shapes ds = [])

include hkind hds

theorem scan_numbers {values : List Nat} {k : Nat} (hlen : values.length ≤ k) {rest : List UInt8}
    (hrest : Scanf.NoDigit rest)
    (hstop : values.length < k → Scanf.numberAt (Scanf.skipSpaces rest) = none) :
    (Scanf.scan (reads kind k ++ ds) (numbers values ++ rest)).1
      = values.map fun n => .number (Scanf.storedNumber kind n) := by
  induction values generalizing k with
  | nil =>
      cases k with
      | zero =>
          have hnone := Scanf.scan_shapes ds rest
          rw [hds, List.prefix_nil, List.map_eq_nil_iff] at hnone
          exact hnone
      | succ k =>
          have hidem : Scanf.skipSpaces (Scanf.skipSpaces rest) = Scanf.skipSpaces rest :=
            List.dropWhile_idempotent _ _
          have hconv : ∃ stop, Scanf.convert kind none (Scanf.skipSpaces rest) = .error stop := by
            rw [Scanf.convert_numeric hkind, hidem, hstop (Nat.succ_pos k)]
            split
            · exact ⟨_, rfl⟩
            · exact ⟨_, rfl⟩
          obtain ⟨stop, hconv⟩ := hconv
          rw [reads, List.replicate_succ, List.flatten_cons, List.append_assoc, List.cons_append,
            Scanf.scan_space]
          exact congrArg Prod.fst (Scanf.scan_convert_stop hconv false _)
  | cons n values ih =>
      obtain ⟨k, rfl⟩ := Nat.exists_eq_succ_of_ne_zero (n := k) (by simp at hlen; omega)
      have hnext : Scanf.NoDigit (numbers values ++ rest) := by
        cases values with
        | nil => exact hrest
        | cons m values => exact Scanf.noDigit_cons rfl _
      have hread := ih (Nat.le_of_succ_le_succ hlen) fun hfew => hstop (Nat.succ_lt_succ hfew)
      have hnumber : numbers (n :: values) ++ rest
          = 32 :: (Scanf.decimalInt (n : Int) ++ (numbers values ++ rest)) := by
        rw [numbers, List.flatMap_cons, ← numbers, List.append_assoc]
        rfl
      rw [reads, List.replicate_succ, List.flatten_cons, ← reads, List.append_assoc, List.cons_append,
        List.cons_append, List.nil_append, hnumber, Scanf.scan_number rfl hkind n hnext, List.map_cons,
        ← hread]
      rfl

theorem scan_behind {size k : Nat} (hk : 0 < k) {row : Row} (hvalues : ∀ n ∈ row.values, n < 2 ^ 64)
    (hfits : row.word.length + row.pad + 21 * k < size) :
    ∃ rest, row.line size = row.word ++ rest ∧
      (Scanf.scan (reads kind k ++ ds) rest).1
        = (row.values.take k).map fun n => .number (Scanf.storedNumber kind n) := by
  obtain ⟨rest, hnoDigit, hline, hend⟩ := line_numbers hvalues hfits
  refine ⟨_, hline, ?_⟩
  obtain ⟨k, rfl⟩ := Nat.exists_eq_succ_of_ne_zero (Nat.ne_of_gt hk)
  rw [← scan_numbers hkind hds (List.length_take_le (k + 1) row.values) hnoDigit]
  · rw [reads, List.replicate_succ, List.flatten_cons, List.append_assoc, List.cons_append,
      Scanf.scan_space, Scanf.scan_space, Scanf.skipSpaces_blanks]
  · intro hfew
    rw [List.length_take] at hfew
    exact numberAt_unit (hend (by omega))

theorem scan_word {size k : Nat} (hk : 0 < k) {row : Row} (hvalues : ∀ n ∈ row.values, n < 2 ^ 64)
    (hfits : row.word.length + row.pad + 21 * k < size) :
    (Scanf.scan (row.word.map .literal ++ (reads kind k ++ ds)) (row.line size)).1
      = (row.values.take k).map fun n => .number (Scanf.storedNumber kind n) := by
  obtain ⟨rest, hline, hread⟩ := scan_behind hkind hds hk hvalues hfits
  rw [hline, Scanf.scan_literals, hread]

theorem scan_skipped {size k : Nat} (hk : 0 < k) {row : Row} (hne : row.word ≠ [])
    (hvalues : ∀ n ∈ row.values, n < 2 ^ 64) (hfits : row.word.length + row.pad + 21 * k < size) :
    (Scanf.scan (.convert true none .s :: (reads kind k ++ ds)) (row.line size)).1
      = (row.values.take k).map fun n => .number (Scanf.storedNumber kind n) := by
  obtain ⟨rest, hline, hread⟩ := scan_behind hkind hds hk hvalues hfits
  have hword : row.word.length < size := by omega
  obtain ⟨rest', hline', hspace⟩ := line_word hword
  obtain rfl : rest = rest' := List.append_cancel_left (hline.symm.trans hline')
  have hconv : Scanf.convert .s none (row.word ++ rest) = .ok (.text row.word, rest) := by
    obtain ⟨b, word, hcons⟩ := List.exists_cons_of_ne_nil hne
    have hplain : ∀ c ∈ row.word, isSpace c = false := fun c hc => (row.plain c hc).1
    have hskip : Scanf.skipSpaces (row.word ++ rest) = row.word ++ rest := by
      rw [hcons, List.cons_append]
      exact Scanf.skipSpaces_stay (hplain b (hcons ▸ List.mem_cons_self)) _
    have hfield := takeWhile_word hplain hspace
    rw [Scanf.convert]
    simp only [hskip, Option.getD_none, List.take_length, hfield, List.drop_left]
    rw [if_neg (by simp [hne])]
  rw [hline, Scanf.scan_convert hconv, if_pos rfl]
  exact hread

omit hkind hds

/-! ### Looking up a word -/

def rowOf (rows : List Row) (word : List UInt8) : Option Row := rows.find? fun row => row.word = word

/-- A loop over rows with different words that keeps something of the row of one of them. -/
theorem foldl_rowOf {σ ν : Type} {step : σ → Row → σ} {get : σ → ν} {word : List UInt8}
    {val : Row → ν → ν} {rows : List Row}
    (hsame : ∀ s row, row ∈ rows → row.word = word → get (step s row) = val row (get s))
    (hother : ∀ s row, row ∈ rows → row.word ≠ word → get (step s row) = get s)
    (hdistinct : (rows.map Row.word).Nodup) (s : σ) :
    get (rows.foldl step s) = (rowOf rows word).elim (get s) fun row => val row (get s) := by
  induction rows generalizing s with
  | nil => rfl
  | cons row rows ih =>
      rw [List.map_cons, List.nodup_cons] at hdistinct
      have hrest := ih (fun s r hr => hsame s r (List.mem_cons_of_mem row hr))
        (fun s r hr => hother s r (List.mem_cons_of_mem row hr)) hdistinct.2 (step s row)
      rw [List.foldl_cons, hrest]
      by_cases hword : row.word = word
      · have hlater : rowOf rows word = none := by
          rw [rowOf, List.find?_eq_none]
          intro row' hmem heq
          exact hdistinct.1 (List.mem_map.mpr ⟨row', hmem, (of_decide_eq_true heq).trans hword.symm⟩)
        rw [hlater, rowOf, List.find?_cons_of_pos (by simpa using hword), Option.elim_none, Option.elim_some,
          hsame s row List.mem_cons_self hword]
      · rw [rowOf, rowOf, List.find?_cons_of_neg (by simpa using hword), hother s row List.mem_cons_self hword]

end Row

end Text
