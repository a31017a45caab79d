import Mathlib.Data.List.Forall2
import Statgrab.Lib.Text

/-!
# Regular expressions

The extended regular expressions of POSIX as far as they are a row of pieces at the start of the text: a
set of bytes, with a repetition and with or without a group around it. Of the ways to split a text among
the pieces the longest counts, and among the longest the one in which the first piece is longest, then the
second, and so on.

Where a piece and the next one have no byte in common there is only one way to go on. `splits_forced` says
so, and `exec_forced` is what remains to be done then.
-/

namespace Regex

open Text

/-! ### Patterns -/

inductive Item where
  | byte (b : UInt8)
  | range (lo hi : UInt8)
  | alnum
  | blank
  | digit
  | space
  deriving DecidableEq, Repr

/-- A bracket expression, or a byte that stands for itself. -/
structure ByteSet where
  negated : Bool
  items : List Item
  deriving DecidableEq, Repr

/-- A set that is repeated: at least `least` times, and at most once or any number of times. -/
structure Piece where
  set : ByteSet
  least : Nat
  many : Bool
  group : Bool
  deriving DecidableEq, Repr

def isAlnum (b : UInt8) : Bool := isDigit b || (65 ≤ b && b ≤ 90) || (97 ≤ b && b ≤ 122)

def isBlank (b : UInt8) : Bool := b = 32 || b = 9

def Item.has : Item → UInt8 → Bool
  | .byte c, b => b = c
  | .range lo hi, b => lo ≤ b && b ≤ hi
  | .alnum, b => isAlnum b
  | .blank, b => isBlank b
  | .digit, b => isDigit b
  | .space, b => isSpace b

def ByteSet.has (s : ByteSet) (b : UInt8) : Bool := s.items.any (·.has b) != s.negated

inductive Token where
  | caret
  | open
  | close
  | star
  | plus
  | quest
  | set (s : ByteSet)
  deriving DecidableEq, Repr

/-- Where in a pattern the next byte stands: between the words, in a bracket expression, behind a `[` or a
`-` in it, in the name of a class, or behind the `:` of its end. -/
inductive Lexing where
  | top
  | bracket (s : ByteSet)
  | bracketOpen (s : ByteSet)
  | range (s : ByteSet) (lo : UInt8)
  | className (s : ByteSet) (name : List UInt8)
  | classEnd (s : ByteSet) (name : List UInt8)

def ByteSet.add (s : ByteSet) (i : Item) : ByteSet := { s with items := s.items ++ [i] }

def classOf (name : List UInt8) : Option Item :=
  if name = bytes "alnum" then some .alnum
  else if name = bytes "blank" then some .blank
  else if name = bytes "digit" then some .digit
  else if name = bytes "space" then some .space
  else none

/-- The last item of a set, where it is a byte, and the set without it: a `-` makes a range of it. -/
def ByteSet.takeByte (s : ByteSet) : Option (UInt8 × ByteSet) :=
  match s.items.getLast? with
  | some (.byte b) => some (b, { s with items := s.items.dropLast })
  | _ => none

def lex : Lexing → List UInt8 → Option (List Token)
  | .top, [] => some []
  | _, [] => none
  | .top, b :: rest =>
      if b = 94 then (lex .top rest).map (.caret :: ·)
      else if b = 40 then (lex .top rest).map (.open :: ·)
      else if b = 41 then (lex .top rest).map (.close :: ·)
      else if b = 42 then (lex .top rest).map (.star :: ·)
      else if b = 43 then (lex .top rest).map (.plus :: ·)
      else if b = 63 then (lex .top rest).map (.quest :: ·)
      else if b = 91 then lex (.bracket ⟨false, []⟩) rest
      else (lex .top rest).map (.set ⟨false, [.byte b]⟩ :: ·)
  | .bracket s, b :: rest =>
      if b = 93 then (lex .top rest).map (.set s :: ·)
      else if b = 94 ∧ s = ⟨false, []⟩ then lex (.bracket ⟨true, []⟩) rest
      else if b = 91 then lex (.bracketOpen s) rest
      else if b = 45 then
        match s.takeByte with
        | some (lo, s) => lex (.range s lo) rest
        | none => none
      else lex (.bracket (s.add (.byte b))) rest
  | .bracketOpen s, b :: rest => if b = 58 then lex (.className s []) rest else none
  | .range s lo, b :: rest => lex (.bracket (s.add (.range lo b))) rest
  | .className s name, b :: rest =>
      if b = 58 then lex (.classEnd s name) rest else lex (.className s (name ++ [b])) rest
  | .classEnd s name, b :: rest =>
      if b = 93 then
        match classOf name with
        | some i => lex (.bracket (s.add i)) rest
        | none => none
      else none

def pieces : List Token → Option (List Piece)
  | [] => some []
  | .open :: .set s :: .plus :: .close :: .quest :: rest => (pieces rest).map (⟨s, 0, true, true⟩ :: ·)
  | .open :: .set s :: .plus :: .close :: rest => (pieces rest).map (⟨s, 1, true, true⟩ :: ·)
  | .set s :: .plus :: rest => (pieces rest).map (⟨s, 1, true, false⟩ :: ·)
  | .set s :: .star :: rest => (pieces rest).map (⟨s, 0, true, false⟩ :: ·)
  | .set s :: .quest :: rest => (pieces rest).map (⟨s, 0, false, false⟩ :: ·)
  | .set s :: rest => (pieces rest).map (⟨s, 1, false, false⟩ :: ·)
  | _ => none

/-- `regcomp`, for a pattern that starts with `^`. -/
def regcomp (pattern : List UInt8) : Option (List Piece) :=
  match lex .top pattern with
  | some (.caret :: tokens) => pieces tokens
  | _ => none

/-! ### Matching -/

/-- How many bytes at the start of a text are in a set. -/
def run (p : Piece) (text : List UInt8) : Nat := (text.takeWhile p.set.has).length

def Piece.counts (p : Piece) (text : List UInt8) : List Nat :=
  (List.range (if p.many then run p text + 1 else min 1 (run p text) + 1)).reverse.filter (p.least ≤ ·)

/-- The ways to split the start of a text among the pieces. -/
def splits : List Piece → List UInt8 → List (List (List UInt8))
  | [], _ => [[]]
  | p :: ps, text => (p.counts text).flatMap fun k => (splits ps (text.drop k)).map (text.take k :: ·)

def total (parts : List (List UInt8)) : Nat := parts.flatten.length

def longestIn (ms : List (List (List UInt8))) (m : List (List UInt8)) : Bool :=
  ms.all fun m' => total m' ≤ total m

def longest (ms : List (List (List UInt8))) : Option (List (List UInt8)) := ms.find? (longestIn ms)

def exec (ps : List Piece) (text : List UInt8) : Option (List (List UInt8)) := longest (splits ps text)

/-- Where the groups start and end. A group that took part in no match has no place. -/
def groupsFrom : Nat → List Piece → List (List UInt8) → List (Option (Nat × Nat))
  | pos, p :: ps, part :: parts =>
      let rest := groupsFrom (pos + part.length) ps parts
      if p.group then
        (if p.least = 0 ∧ part = [] then none else some (pos, pos + part.length)) :: rest
      else rest
  | _, _, _ => []

/-- `regexec`: `pmatch` from its second entry on. -/
def regexec (ps : List Piece) (text : List UInt8) : Option (List (Option (Nat × Nat))) :=
  (exec ps text).map (groupsFrom 0 ps)

/-- A place in a text as what starts there, and its length: `line + rm_so` and `rm_eo - rm_so`. -/
def placeIn (text : List UInt8) (place : Nat × Nat) : List UInt8 × Nat :=
  (text.drop place.1, place.2 - place.1)

/-! ### Rules -/

section Rules

variable {p q : Piece} {ps : List Piece} {text : List UInt8}

@[simp] theorem total_cons (part : List UInt8) (parts : List (List UInt8)) :
    total (part :: parts) = part.length + total parts := by
  rw [total, List.flatten_cons, List.length_append]
  rfl

theorem longestIn_iff {ms : List (List (List UInt8))} {m : List (List UInt8)} :
    longestIn ms m = true ↔ ∀ m' ∈ ms, total m' ≤ total m := by
  simp [longestIn]

theorem longest_le {ms : List (List (List UInt8))} {m : List (List UInt8)} (h : longest ms = some m) :
    ∀ m' ∈ ms, total m' ≤ total m :=
  longestIn_iff.mp (List.find?_some h)

/-- Splits behind the longest one that are not longer do not count. -/
theorem longest_append {ms ms' : List (List (List UInt8))} {m : List (List UInt8)}
    (h : longest ms = some m) (hmax : ∀ m' ∈ ms', total m' ≤ total m) :
    longest (ms ++ ms') = some m := by
  obtain ⟨hm, front, back, rfl, hfront⟩ := List.find?_eq_some_iff_append.mp h
  rw [longestIn_iff] at hm
  refine List.find?_eq_some_iff_append.mpr ⟨?_, front, back ++ ms', by simp, ?_⟩
  · rw [longestIn_iff]
    intro m' hm'
    rcases List.mem_append.mp hm' with hm' | hm'
    · exact hm m' hm'
    · exact hmax m' hm'
  · intro a ha
    have hnot := hfront a ha
    rw [Bool.not_eq_true', Bool.eq_false_iff, ne_eq, longestIn_iff] at hnot ⊢
    intro hall
    exact hnot fun m' hm' => hall m' (List.mem_append_left _ hm')

theorem longest_map (part : List UInt8) (ms : List (List (List UInt8))) :
    longest (ms.map (part :: ·)) = (longest ms).map (part :: ·) := by
  have hsame : longestIn (ms.map (part :: ·)) ∘ (part :: ·) = longestIn ms := by
    funext m
    rw [Bool.eq_iff_iff, Function.comp_apply, longestIn_iff, longestIn_iff]
    simp
  rw [longest, longest, List.find?_map, hsame]

@[simp] theorem exec_nil (text : List UInt8) : exec [] text = some [] := rfl

theorem run_le (p : Piece) (text : List UInt8) : run p text ≤ text.length :=
  (List.takeWhile_prefix _).length_le

theorem run_stops {k : Nat} (hk : k < run p text) :
    ∃ b rest, text.drop k = b :: rest ∧ p.set.has b = true := by
  have hstart : text.takeWhile p.set.has <+: text := List.takeWhile_prefix _
  have hlen : k < text.length := Nat.lt_of_lt_of_le hk (run_le p text)
  have hrun : k < (text.takeWhile p.set.has).length := hk
  refine ⟨text[k], text.drop (k + 1), List.drop_eq_getElem_cons hlen, ?_⟩
  have hget : (text.takeWhile p.set.has)[k] = text[k] := hstart.getElem hrun
  rw [← hget]
  exact List.mem_takeWhile_imp (List.getElem_mem hrun)

theorem counts_many (hmany : p.many = true) (text : List UInt8) :
    p.counts text = if p.least ≤ run p text
      then run p text :: (List.range (run p text)).reverse.filter (p.least ≤ ·) else [] := by
  rw [Piece.counts, if_pos hmany, List.range_succ, List.reverse_append, List.reverse_singleton,
    List.singleton_append, List.filter_cons]
  by_cases hle : p.least ≤ run p text
  · simp only [hle, decide_true, if_true]
  · simp only [hle, decide_false, Bool.false_eq_true, if_false]
    rw [List.filter_eq_nil_iff]
    intro k hk
    simp only [List.mem_reverse, List.mem_range] at hk
    simp only [decide_eq_true_eq]
    omega

theorem splits_none (hleast : p.least = 1) {b : UInt8} {rest : List UInt8} (hb : p.set.has b = false) :
    splits (p :: ps) (b :: rest) = [] := by
  have hrun : run p (b :: rest) = 0 := by
    rw [run, List.takeWhile_cons_of_neg (by simp [hb])]
    rfl
  have hcounts : p.counts (b :: rest) = [] := by
    rw [Piece.counts, hrun, List.filter_eq_nil_iff]
    intro k hk
    have hzero : k = 0 := by
      cases p.many <;> simpa using hk
    simp [hzero, hleast]
  rw [splits, hcounts]
  rfl

/-- A piece goes as far as it can where the next one has to take a byte and none of its own. -/
theorem splits_forced (hmany : p.many = true) (hleast : q.least = 1)
    (hdisjoint : ∀ b, p.set.has b = true → q.set.has b = false) (text : List UInt8) :
    splits (p :: q :: ps) text = if p.least ≤ run p text
      then (splits (q :: ps) (text.drop (run p text))).map (text.take (run p text) :: ·) else [] := by
  rw [splits, counts_many hmany]
  by_cases hle : p.least ≤ run p text
  · rw [if_pos hle, if_pos hle, List.flatMap_cons]
    have hrest : ((List.range (run p text)).reverse.filter (p.least ≤ ·)).flatMap
        (fun k => (splits (q :: ps) (text.drop k)).map (text.take k :: ·)) = [] := by
      rw [List.flatMap_eq_nil_iff]
      intro k hk
      simp only [List.mem_filter, List.mem_reverse, List.mem_range] at hk
      obtain ⟨b, rest, hdrop, hb⟩ := run_stops hk.1
      rw [hdrop, splits_none hleast (hdisjoint b hb)]
      rfl
    rw [hrest, List.append_nil]
  · rw [if_neg hle, if_neg hle]
    rfl

theorem exec_forced (hmany : p.many = true) (hleast : q.least = 1)
    (hdisjoint : ∀ b, p.set.has b = true → q.set.has b = false) (text : List UInt8) :
    exec (p :: q :: ps) text = if p.least ≤ run p text
      then (exec (q :: ps) (text.drop (run p text))).map (text.take (run p text) :: ·) else none := by
  rw [exec, splits_forced hmany hleast hdisjoint]
  by_cases hle : p.least ≤ run p text
  · rw [if_pos hle, if_pos hle, longest_map]
    rfl
  · rw [if_neg hle, if_neg hle]
    rfl

/-- A piece that can go as far as it can does so where this makes no split shorter. -/
theorem exec_greedy (hmany : p.many = true) (hle : p.least ≤ run p text) {m : List (List UInt8)}
    (hm : exec ps (text.drop (run p text)) = some m)
    (hmax : ∀ k, k < run p text → ∀ m' ∈ splits ps (text.drop k), k + total m' ≤ run p text + total m) :
    exec (p :: ps) text = some (text.take (run p text) :: m) := by
  rw [exec, splits, counts_many hmany, if_pos hle, List.flatMap_cons]
  have hlength : ∀ k, k ≤ run p text → (text.take k).length = k := by
    intro k hk
    rw [List.length_take, Nat.min_eq_left (Nat.le_trans hk (run_le p text))]
  refine longest_append ?_ ?_
  · rw [longest_map, show longest (splits ps (text.drop (run p text))) = some m from hm]
    rfl
  · intro m' hm'
    obtain ⟨k, hk, hsplit⟩ := List.mem_flatMap.mp hm'
    obtain ⟨rest, hrest, rfl⟩ := List.mem_map.mp hsplit
    simp only [List.mem_filter, List.mem_reverse, List.mem_range] at hk
    rw [total_cons, total_cons, hlength k (Nat.le_of_lt hk.1), hlength _ (Nat.le_refl _)]
    exact hmax k hk.1 rest hrest

theorem exec_last (hmany : p.many = true) (text : List UInt8) :
    exec [p] text = if p.least ≤ run p text then some [text.take (run p text)] else none := by
  by_cases hle : p.least ≤ run p text
  · rw [if_pos hle]
    apply exec_greedy hmany hle (exec_nil _)
    intro k hk m' hm'
    rw [List.mem_singleton.mp hm']
    exact Nat.add_le_add_right (Nat.le_of_lt hk) _
  · rw [if_neg hle, exec, splits, counts_many hmany, if_neg hle]
    rfl

theorem splits_byte (group : Bool) (b : UInt8) (rest : List UInt8) :
    splits (⟨⟨false, [.byte b]⟩, 1, false, group⟩ :: ps) (b :: rest) = (splits ps rest).map ([b] :: ·) := by
  have hhas : ByteSet.has ⟨false, [.byte b]⟩ b = true := by simp [ByteSet.has, Item.has]
  have hrun : 1 ≤ run ⟨⟨false, [.byte b]⟩, 1, false, group⟩ (b :: rest) := by
    rw [run, List.takeWhile_cons_of_pos hhas]
    exact Nat.succ_pos _
  have hcounts : Piece.counts ⟨⟨false, [.byte b]⟩, 1, false, group⟩ (b :: rest) = [1] := by
    rw [Piece.counts, if_neg Bool.false_ne_true, Nat.min_eq_left hrun]
    rfl
  rw [splits, hcounts]
  simp

theorem run_append {word rest : List UInt8} (hword : ∀ b ∈ word, p.set.has b = true)
    (hrest : ∀ b, rest.head? = some b → p.set.has b = false) : run p (word ++ rest) = word.length := by
  rw [run, List.takeWhile_append_of_pos hword]
  cases rest with
  | nil => simp
  | cons b rest =>
      rw [List.takeWhile_cons_of_neg (by simp [hrest b rfl]), List.append_nil]

theorem splits_word (hmany : q.many = true) (hleast : q.least = 1) {b : UInt8} (hb : q.set.has b = false)
    (group : Bool) {word : List UInt8} (hne : word ≠ []) (hword : ∀ c ∈ word, q.set.has c = true)
    (rest : List UInt8) :
    splits (q :: ⟨⟨false, [.byte b]⟩, 1, false, group⟩ :: ps) (word ++ b :: rest)
      = (splits ps rest).map fun m => word :: [b] :: m := by
  have hrun : run q (word ++ b :: rest) = word.length := by
    apply run_append hword
    rintro c ⟨⟩
    exact hb
  have hpos : q.least ≤ word.length := by
    rw [hleast]
    exact List.length_pos_iff.mpr hne
  have hdisjoint : ∀ c, q.set.has c = true →
      (⟨⟨false, [.byte b]⟩, 1, false, group⟩ : Piece).set.has c = false := by
    intro c hc
    have hcb : c ≠ b := by
      rintro rfl
      rw [hb] at hc
      cases hc
    simp [ByteSet.has, Item.has, hcb]
  rw [splits_forced hmany rfl hdisjoint, hrun, if_pos hpos, List.take_left, List.drop_left, splits_byte,
    List.map_map]
  rfl

/-- A run in front of such a word takes all it can, also where the word could take some of it. -/
theorem exec_lead (hmany : p.many = true) (hleast : p.least = 0) (hqmany : q.many = true)
    (hqleast : q.least = 1) {b : UInt8} (hb : q.set.has b = false) (group : Bool)
    {lead word rest : List UInt8} (hlead : ∀ c ∈ lead, p.set.has c = true ∧ q.set.has c = true)
    (hne : word ≠ []) (hword : ∀ c ∈ word, q.set.has c = true)
    (hhead : ∀ c, word.head? = some c → p.set.has c = false) {m : List (List UInt8)}
    (hm : exec ps rest = some m) :
    exec (p :: q :: ⟨⟨false, [.byte b]⟩, 1, false, group⟩ :: ps) (lead ++ (word ++ b :: rest))
      = some (lead :: word :: [b] :: m) := by
  have hrun : run p (lead ++ (word ++ b :: rest)) = lead.length := by
    refine run_append (fun c hc => (hlead c hc).1) ?_
    intro c hc
    apply hhead c
    rwa [List.head?_append_of_ne_nil _ hne] at hc
  have hword' : exec (q :: ⟨⟨false, [.byte b]⟩, 1, false, group⟩ :: ps) (word ++ b :: rest)
      = some (word :: [b] :: m) := by
    have hmap : (fun m : List (List UInt8) => word :: [b] :: m) = (word :: ·) ∘ ([b] :: ·) := rfl
    rw [exec, splits_word hqmany hqleast hb group hne hword, hmap, ← List.map_map, longest_map, longest_map,
      show longest (splits ps rest) = some m from hm]
    rfl
  have hlongest : ∀ k, k < run p (lead ++ (word ++ b :: rest)) →
      ∀ m' ∈ splits (q :: ⟨⟨false, [.byte b]⟩, 1, false, group⟩ :: ps) ((lead ++ (word ++ b :: rest)).drop k),
        k + total m' ≤ run p (lead ++ (word ++ b :: rest)) + total (word :: [b] :: m) := by
    -- what the run leaves to the word is not lost, so no split is longer
    intro k hk m' hm'
    rw [hrun] at hk ⊢
    have hall : ∀ c ∈ lead.drop k ++ word, q.set.has c = true := by
      intro c hc
      rcases List.mem_append.mp hc with hc | hc
      · exact (hlead c (List.mem_of_mem_drop hc)).2
      · exact hword c hc
    rw [List.drop_append_of_le_length (Nat.le_of_lt hk), ← List.append_assoc,
      splits_word hqmany hqleast hb group (List.append_ne_nil_of_right_ne_nil _ hne) hall] at hm'
    obtain ⟨m2, hm2, rfl⟩ := List.mem_map.mp hm'
    have hle := longest_le hm m2 hm2
    simp only [total_cons, List.length_append, List.length_drop]
    omega
  have htext := exec_greedy hmany (by rw [hleast]; exact Nat.zero_le _)
    (by rw [hrun, List.drop_left]; exact hword') hlongest
  rw [htext, hrun, List.take_left]

theorem le_run_of_mem_counts {k : Nat} (hk : k ∈ p.counts text) : k ≤ run p text := by
  rw [Piece.counts, List.mem_filter, List.mem_reverse, List.mem_range] at hk
  have hlt := hk.1
  split at hlt <;> omega

theorem has_of_mem_take {k : Nat} (hk : k ≤ run p text) {b : UInt8} (hb : b ∈ text.take k) :
    p.set.has b = true := by
  have hstart : text.take k <+: text.takeWhile p.set.has :=
    List.prefix_of_prefix_length_le (List.take_prefix k text) (List.takeWhile_prefix _)
      (Nat.le_trans (List.length_take_le k text) hk)
  exact List.mem_takeWhile_imp (hstart.subset hb)

/-- A split is a split: its parts stand one behind the other, each of bytes of its piece. -/
theorem splits_parts {m : List (List UInt8)} (hm : m ∈ splits ps text) :
    m.flatten <+: text ∧ List.Forall₂ (fun p part => ∀ b ∈ part, p.set.has b = true) ps m := by
  induction ps generalizing text m with
  | nil =>
      rw [List.mem_singleton.mp hm]
      exact ⟨List.nil_prefix, .nil⟩
  | cons p ps ih =>
      obtain ⟨k, hk, hsplit⟩ := List.mem_flatMap.mp hm
      obtain ⟨rest, hrest, rfl⟩ := List.mem_map.mp hsplit
      obtain ⟨hstart, hparts⟩ := ih hrest
      refine ⟨?_, .cons (fun b hb => has_of_mem_take (le_run_of_mem_counts hk) hb) hparts⟩
      obtain ⟨tail, htail⟩ := hstart
      refine ⟨tail, ?_⟩
      rw [List.flatten_cons, List.append_assoc, htail, List.take_append_drop]

theorem exec_parts {m : List (List UInt8)} (hm : exec ps text = some m) :
    m.flatten <+: text ∧ List.Forall₂ (fun p part => ∀ b ∈ part, p.set.has b = true) ps m :=
  splits_parts (List.mem_of_find?_eq_some hm)

/-- The groups of a split, each with what follows it in the text. -/
def groupsOf : List Piece → List (List UInt8) → List UInt8 → List (Option (List UInt8 × Nat))
  | p :: ps, part :: parts, tail =>
      let rest := groupsOf ps parts tail
      if p.group then
        (if p.least = 0 ∧ part = [] then none else some (part ++ (parts.flatten ++ tail), part.length)) :: rest
      else rest
  | _, _, _ => []

theorem groupsFrom_places (front : List UInt8) (ps : List Piece) (parts : List (List UInt8))
    (tail : List UInt8) :
    (groupsFrom front.length ps parts).map (Option.map (placeIn (front ++ (parts.flatten ++ tail))))
      = groupsOf ps parts tail := by
  induction ps generalizing front parts with
  | nil => simp [groupsFrom, groupsOf]
  | cons p ps ih =>
      cases parts with
      | nil => simp [groupsFrom, groupsOf]
      | cons part parts =>
          have htext : front ++ ((part :: parts).flatten ++ tail)
              = (front ++ part) ++ (parts.flatten ++ tail) := by simp
          have hrest := ih (front ++ part) parts
          rw [List.length_append] at hrest
          rw [groupsFrom, groupsOf, htext]
          by_cases hgroup : p.group = true
          · simp only [hgroup, if_true, List.map_cons, hrest]
            congr 1
            by_cases hempty : p.least = 0 ∧ part = []
            · rw [if_pos hempty, if_pos hempty]
              rfl
            · rw [if_neg hempty, if_neg hempty, Option.map_some, placeIn, List.append_assoc,
                List.drop_left, Nat.add_sub_cancel_left]
          · simp only [hgroup, Bool.false_eq_true, if_false, hrest]

theorem regexec_places {parts : List (List UInt8)} {tail : List UInt8}
    (h : exec ps (parts.flatten ++ tail) = some parts) :
    (regexec ps (parts.flatten ++ tail)).map (List.map (Option.map (placeIn (parts.flatten ++ tail))))
      = some (groupsOf ps parts tail) := by
  rw [regexec, h, Option.map_some, Option.map_some]
  exact congrArg some (groupsFrom_places [] ps parts tail)

end Rules

end Regex
