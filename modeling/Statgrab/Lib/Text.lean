import Mathlib.Data.List.TakeWhile

/-!
# C strings and streams

The functions of `string.h`, `ctype.h` and `stdio.h` that work on text, in the "C" locale. A string is the
list of its bytes without the NUL at its end. A stream is what is left to be read of a file, and whether
the file ends there or can not be read any further.
-/

namespace Text

def bytes (s : String) : List UInt8 := s.toList.map fun c => c.toNat.toUInt8

/-- The rules for a long literal, whose text is slow to unfold as a whole. -/
theorem bytes_append (s t : String) : bytes (s ++ t) = bytes s ++ bytes t := by
  rw [bytes, String.toList_append, List.map_append]
  rfl

theorem bytes_ofList (cs : List Char) : bytes (String.ofList cs) = cs.map fun c => c.toNat.toUInt8 := by
  rw [bytes, String.toList_ofList]

/-- What is said of every byte of a fixed text is checked one by one. -/
theorem forall_mem_of_all {text : List UInt8} {p : UInt8 → Prop} [DecidablePred p]
    (h : (text.all fun b => decide (p b)) = true) : ∀ b ∈ text, p b :=
  fun b hb => of_decide_eq_true (List.all_eq_true.mp h b hb)

/-- `isspace`. -/
def isSpace (b : UInt8) : Bool := b = 32 || (9 ≤ b && b ≤ 13)

def isDigit (b : UInt8) : Bool := 48 ≤ b && b ≤ 57

def strncat (dest src : List UInt8) (n : Nat) : List UInt8 := dest ++ src.take n

/-- The text `printf` makes of a format whose only conversions are `%s`, each with the same argument. -/
def format (arg : List UInt8) : List UInt8 → List UInt8
  | [] => []
  | 37 :: 37 :: rest => 37 :: format arg rest
  | 37 :: 115 :: rest => arg ++ format arg rest
  | b :: rest => b :: format arg rest

def snprintf (size : Nat) (fmt arg : List UInt8) : List UInt8 := (format arg fmt).take (size - 1)

/-- `strchr(s, b)`: the bytes before the first `b`, if there is one. -/
def strchr (s : List UInt8) (b : UInt8) : Option (List UInt8) :=
  if b ∈ s then some (s.takeWhile (· ≠ b)) else none

theorem drop_take_between (front part back : List UInt8) :
    ((front ++ part ++ back).take (front.length + part.length)).drop front.length = part := by
  rw [← List.length_append, List.take_left, List.drop_left]

/-- The string in a buffer: what stands before its first NUL. -/
def upToNul (buf : List UInt8) : List UInt8 := buf.takeWhile (· ≠ 0)

theorem upToNul_eq {buf : List UInt8} (h : 0 ∉ buf) : upToNul buf = buf := by
  rw [upToNul, List.takeWhile_eq_self_iff]
  intro b hb
  have hne : b ≠ 0 := fun hcon => h (hcon ▸ hb)
  simpa using hne

theorem nul_notMem_line {text : List UInt8} (h : 0 ∉ text) : 0 ∉ text ++ [10] := by
  intro hmem
  rcases List.mem_append.mp hmem with hmem | hmem
  · exact h hmem
  · cases List.mem_singleton.mp hmem

/-- The sign of `strcmp(a, b)`: the bytes are compared as `unsigned char`. -/
def strcmp (a b : List UInt8) : Ordering := compare a b

/-- The sign of `strncmp(a, b, n)`. -/
def strncmp (a b : List UInt8) (n : Nat) : Ordering := strcmp (a.take n) (b.take n)

theorem strcmp_eq_iff {a b : List UInt8} : strcmp a b = .eq ↔ a = b := by
  rw [strcmp, Std.LawfulEqCmp.compare_eq_iff_eq]

instance : Std.TransCmp strcmp := inferInstanceAs (Std.TransCmp (compare : List UInt8 → List UInt8 → Ordering))

theorem strcmp_cons (a b : UInt8) (as bs : List UInt8) :
    strcmp (a :: as) (b :: bs) = (compare a b).then (strcmp as bs) := List.compareLex_cons_cons

/-- Strings that are sorted are sorted by their first `n` bytes. -/
theorem strncmp_isLE {a b : List UInt8} (h : (strcmp a b).isLE = true) (n : Nat) :
    (strncmp a b n).isLE = true := by
  induction n generalizing a b with
  | zero => rfl
  | succ n ih =>
      cases a with
      | nil =>
          cases b with
          | nil => rfl
          | cons b bs => rfl
      | cons a as =>
          cases b with
          | nil => cases h
          | cons b bs =>
              rw [strncmp, List.take_succ_cons, List.take_succ_cons, strcmp_cons]
              rw [strcmp_cons] at h
              cases hab : compare a b with
              | lt => rfl
              | eq =>
                  rw [hab] at h
                  exact ih h
              | gt =>
                  rw [hab] at h
                  cases h

/-- A string is compared up to its own length: it is a start of the other one. -/
theorem strncmp_eq_iff {a b : List UInt8} : strncmp a b a.length = .eq ↔ a <+: b := by
  rw [strncmp, List.take_length, strcmp_eq_iff, List.prefix_iff_eq_take]

/-- A stream that is open for reading, and the errno of the read that fails behind its bytes, if one does. -/
structure Stream where
  bytes : List UInt8
  failure : Option Int
  deriving DecidableEq, Inhabited

/-- The first line of a text with its newline, or the first `n` bytes of it. -/
def lineOf : Nat → List UInt8 → List UInt8
  | 0, _ => []
  | _, [] => []
  | n + 1, b :: rest => if b = 10 then [b] else b :: lineOf n rest

/-- `fgets(.., size, f)`: the line and the stream behind it. There is none at the end of the file, and none
where the read fails before the line is complete. -/
def fgets (size : Nat) (f : Stream) : Option (List UInt8 × Stream) :=
  let line := lineOf (size - 1) f.bytes
  let rest := f.bytes.drop line.length
  if line = [] then none
  else if f.failure.isSome ∧ rest = [] ∧ line.getLast? ≠ some 10 ∧ line.length < size - 1 then none
  else some (line, { f with bytes := rest })

/-- A text that fits and has no newline but at its end is one line. -/
theorem lineOf_line {n : Nat} {text : List UInt8} (hlen : text.length < n) (hline : 10 ∉ text)
    (rest : List UInt8) : lineOf n (text ++ 10 :: rest) = text ++ [10] := by
  induction text generalizing n with
  | nil =>
      cases n with
      | zero => omega
      | succ n => rfl
  | cons b text ih =>
      cases n with
      | zero => omega
      | succ n =>
          have hb : b ≠ 10 := by
            intro h
            exact hline (h ▸ List.mem_cons_self)
          rw [List.cons_append, lineOf, if_neg hb,
            ih (by simpa using hlen) (fun h => hline (List.mem_cons_of_mem b h))]
          rfl

theorem lineOf_all {n : Nat} {text : List UInt8} (hlen : text.length ≤ n) (hline : 10 ∉ text) :
    lineOf n text = text := by
  induction text generalizing n with
  | nil =>
      cases n with
      | zero => rfl
      | succ n => rfl
  | cons b text ih =>
      cases n with
      | zero => simp at hlen
      | succ n =>
          have hb : b ≠ 10 := by
            intro h
            exact hline (h ▸ List.mem_cons_self)
          rw [lineOf, if_neg hb,
            ih (by simpa using hlen) (fun h => hline (List.mem_cons_of_mem b h))]

/-! ### All the lines of a file -/

/-- The lines that a loop over `fgets(.., size, f)` gets, in at most `fuel` rounds. -/
def fgetsLines (size : Nat) : Nat → Stream → List (List UInt8)
  | 0, _ => []
  | fuel + 1, f =>
      match fgets size f with
      | none => []
      | some (line, f) => line :: fgetsLines size fuel f

/-- The lines that a loop over `fgets(.., size, f)` gets. Each of them has a byte. -/
def readLines (size : Nat) (f : Stream) : List (List UInt8) := fgetsLines size f.bytes.length f

theorem fgets_shorter {size : Nat} {f f' : Stream} {line : List UInt8}
    (h : fgets size f = some (line, f')) : f'.bytes.length < f.bytes.length := by
  unfold fgets at h
  by_cases hnil : lineOf (size - 1) f.bytes = []
  · simp only [hnil, if_true] at h
    cases h
  · simp only [hnil, if_false] at h
    have hpos : 0 < (lineOf (size - 1) f.bytes).length := List.length_pos_iff.mpr hnil
    have hbytes : 0 < f.bytes.length := by
      apply List.length_pos_iff.mpr
      intro hempty
      rw [hempty] at hnil
      apply hnil
      cases size - 1 <;> rfl
    split at h
    · cases h
    · cases h
      simp only [List.length_drop]
      omega

theorem fgets_eq_none {size : Nat} {f : Stream} (h : f.bytes = []) : fgets size f = none := by
  cases hget : fgets size f with
  | none => rfl
  | some r =>
      obtain ⟨line, f'⟩ := r
      have hshorter := fgets_shorter hget
      rw [h] at hshorter
      cases hshorter

theorem fgetsLines_congr {size fuel fuel' : Nat} {f : Stream} (h : f.bytes.length ≤ fuel)
    (h' : f.bytes.length ≤ fuel') : fgetsLines size fuel f = fgetsLines size fuel' f := by
  induction fuel generalizing f fuel' with
  | zero =>
      have hnone : fgets size f = none := fgets_eq_none (List.length_eq_zero_iff.mp (Nat.le_zero.mp h))
      cases fuel' with
      | zero => rfl
      | succ fuel' =>
          rw [fgetsLines, fgetsLines, hnone]
  | succ fuel ih =>
      cases hget : fgets size f with
      | none =>
          cases fuel' with
          | zero => simp only [fgetsLines, hget]
          | succ fuel' => simp only [fgetsLines, hget]
      | some r =>
          obtain ⟨line, f'⟩ := r
          have hshorter := fgets_shorter hget
          cases fuel' with
          | zero => omega
          | succ fuel' =>
              simp only [fgetsLines, hget]
              rw [ih (by omega) (show f'.bytes.length ≤ fuel' by omega)]

theorem readLines_eq_cons {size : Nat} {f f' : Stream} {line : List UInt8}
    (h : fgets size f = some (line, f')) : readLines size f = line :: readLines size f' := by
  have hshorter := fgets_shorter h
  obtain ⟨n, hn⟩ := Nat.exists_eq_succ_of_ne_zero (Nat.ne_zero_of_lt hshorter)
  rw [readLines, hn, fgetsLines, h]
  simp only
  rw [fgetsLines_congr (show f'.bytes.length ≤ n by omega) (Nat.le_refl _)]
  rfl

theorem readLines_line {size : Nat} {text : List UInt8} (hlen : text.length < size - 1) (hline : 10 ∉ text)
    (rest : List UInt8) (failure : Option Int) :
    readLines size ⟨text ++ 10 :: rest, failure⟩ = (text ++ [10]) :: readLines size ⟨rest, failure⟩ := by
  apply readLines_eq_cons
  unfold fgets
  simp only [lineOf_line hlen hline rest]
  rw [if_neg (by simp), if_neg (by simp)]
  simp

theorem readLines_long {size : Nat} {text : List UInt8} (hsize : 2 ≤ size) (hlen : size - 1 ≤ text.length)
    (hline : 10 ∉ text) (rest : List UInt8) (failure : Option Int) :
    readLines size ⟨text ++ 10 :: rest, failure⟩
      = text.take (size - 1) :: readLines size ⟨text.drop (size - 1) ++ 10 :: rest, failure⟩ := by
  have hlineOf : lineOf (size - 1) (text ++ 10 :: rest) = text.take (size - 1) := by
    generalize size - 1 = n at hlen
    induction text generalizing n with
    | nil =>
        obtain rfl : n = 0 := Nat.le_zero.mp hlen
        rfl
    | cons b text ih =>
        cases n with
        | zero => rfl
        | succ n =>
            have hb : b ≠ 10 := fun hcon => hline (hcon ▸ List.mem_cons_self)
            rw [List.cons_append, lineOf, if_neg hb, ih (fun h => hline (List.mem_cons_of_mem b h)) n
              (by simpa using hlen)]
            rfl
  have htake : (text.take (size - 1)).length = size - 1 := by
    rw [List.length_take, Nat.min_eq_left hlen]
  apply readLines_eq_cons
  unfold fgets
  simp only [hlineOf, htake]
  rw [if_neg, if_neg]
  · rw [List.drop_append_of_le_length hlen]
  · simp
  · intro hnil
    rw [hnil] at htake
    simp only [List.length_nil] at htake
    omega

end Text
