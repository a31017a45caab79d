import Statgrab.Lib.Regex
import Statgrab.Stats.ValidFsRun

/-!
# The valid file systems of the kernel

`init_valid_fs_types` reads `/proc/filesystems` line by line into a buffer and takes the second group of a
regular expression for the name. The expression ends a name at the first byte that is not a letter or a
digit, and the buffer ends a line behind 4095 bytes. Where the file is not read the set is to be the
built-in list, of which as many names are taken as the number of the set happens to say.
-/

namespace Statgrab

open Text

/-! ### The file -/

def procFsListRegex : List UInt8 := bytes "^([[:alnum:]]+)?[[:blank:]]+([[:alnum:]]+)"

/-- The name in a line, `line + pmatch[2].rm_so` cut at `pmatch[2].rm_eo`, where the line matches. -/
def fsNameOf (line : List UInt8) : Option CString :=
  match (Regex.regcomp procFsListRegex).bind fun re => Regex.regexec re (upToNul line) with
  | some [_, some (so, eo)] => some ((line.take eo).drop so)
  | _ => none

/-- `init_valid_fs_types`, with the text of `/proc/filesystems` unless it cannot be opened, and whether the
regular expression can be compiled. -/
def initValidFsTypesFrom (compiles : Bool) (file : Option Stream) : FsTypesM SgError :=
  initValidFsTypes (file.map fun f => ⟨compiles, (readLines 4096 f).filterMap fsNameOf⟩)

structure FsLine where
  nodev : Bool
  name : CString
  name_ne : name ≠ []
  name_bytes : ∀ b ∈ name, Regex.isAlnum b = true ∨ b ∈ bytes "_-."

namespace FsLine

def front (l : FsLine) : List UInt8 := (if l.nodev then bytes "nodev" else []) ++ [9]

def text (l : FsLine) : List UInt8 := l.front ++ l.name

/-- The part of the name that is within the first 4095 bytes of the line. -/
def cut (l : FsLine) : CString := l.name.take (4095 - l.front.length)

end FsLine

def fsFile (ls : List FsLine) : Stream := ⟨ls.flatMap fun l => l.text ++ [10], none⟩

/-! ### One line -/

/-- The pieces of the expression. -/
def fsNodev : Regex.Piece := ⟨⟨false, [.alnum]⟩, 0, true, true⟩
def fsBlanks : Regex.Piece := ⟨⟨false, [.blank]⟩, 1, true, false⟩
def fsName : Regex.Piece := ⟨⟨false, [.alnum]⟩, 1, true, true⟩

theorem regcomp_procFsListRegex :
    Regex.regcomp procFsListRegex = some [fsNodev, fsBlanks, fsName] := by
  decide

@[simp] theorem fsNodev_has (b : UInt8) : fsNodev.set.has b = Regex.isAlnum b := by
  simp [fsNodev, Regex.ByteSet.has, Regex.Item.has]

@[simp] theorem fsBlanks_has (b : UInt8) : fsBlanks.set.has b = Regex.isBlank b := by
  simp [fsBlanks, Regex.ByteSet.has, Regex.Item.has]

@[simp] theorem fsName_has (b : UInt8) : fsName.set.has b = Regex.isAlnum b := by
  simp [fsName, Regex.ByteSet.has, Regex.Item.has]

theorem not_isBlank_of_isAlnum {b : UInt8} (hb : Regex.isAlnum b = true) : Regex.isBlank b = false := by
  by_contra hblank
  rw [Bool.not_eq_false, Regex.isBlank, Bool.or_eq_true, decide_eq_true_eq, decide_eq_true_eq] at hblank
  rcases hblank with rfl | rfl
  · revert hb
    decide
  · revert hb
    decide

theorem fsNameOf_eq (line : List UInt8) (hnul : 0 ∉ line) :
    fsNameOf line = ((Regex.exec [fsNodev, fsBlanks, fsName] line).bind fun parts =>
      match parts with
      | [_, _, name] => some name
      | _ => none) := by
  rw [fsNameOf, regcomp_procFsListRegex, Option.bind_some, upToNul_eq hnul, Regex.regexec]
  cases hexec : Regex.exec [fsNodev, fsBlanks, fsName] line with
  | none => rfl
  | some parts =>
      obtain ⟨⟨tail, htail⟩, hparts⟩ := Regex.exec_parts hexec
      cases hparts with
      | cons h1 hparts =>
          cases hparts with
          | cons h2 hparts =>
              cases hparts with
              | cons h3 hparts =>
                  cases hparts
                  rename_i a b c
                  simp only [List.flatten_cons, List.flatten_nil, List.append_nil] at htail
                  simp only [Option.map_some, Regex.groupsFrom, fsNodev, fsBlanks, fsName, if_true,
                    Bool.false_eq_true, if_false, Nat.zero_add, true_and, one_ne_zero, false_and,
                    Option.bind_some]
                  rw [← htail, ← List.append_assoc, ← List.length_append, drop_take_between]

theorem exec_blanks {word rest : List UInt8} (hword : ∀ b ∈ word, Regex.isAlnum b = true)
    (hrest : ∀ b, rest.head? = some b → Regex.isAlnum b = false) :
    Regex.exec [fsNodev, fsBlanks, fsName] (word ++ rest)
      = (Regex.exec [fsBlanks, fsName] rest).map (word :: ·) := by
  have hrun : Regex.run fsNodev (word ++ rest) = word.length :=
    Regex.run_append (by simpa using hword) (by simpa using hrest)
  rw [Regex.exec_forced rfl rfl (by simpa using fun b hb => not_isBlank_of_isAlnum hb),
    if_pos (show fsNodev.least ≤ _ from Nat.zero_le _), hrun, List.take_left, List.drop_left]

/-- The name in a line goes up to the first byte that is no letter and no digit. -/
theorem fsNameOf_line {front text : List UInt8} (hnul : 0 ∉ front ++ 9 :: text)
    (hfront : ∀ b ∈ front, Regex.isAlnum b = true)
    (htext : ∀ b, text.head? = some b → Regex.isBlank b = false) :
    fsNameOf (front ++ 9 :: text) = (some (text.takeWhile Regex.isAlnum)).filter (· ≠ []) := by
  have hblank : Regex.run fsBlanks ([9] ++ text) = 1 :=
    Regex.run_append (by simp [Regex.isBlank]) (by simpa using htext)
  have hlast : Regex.run fsName text = (text.takeWhile Regex.isAlnum).length := by
    rw [Regex.run, show fsName.set.has = Regex.isAlnum from funext fsName_has]
  have htake : text.take (text.takeWhile Regex.isAlnum).length = text.takeWhile Regex.isAlnum :=
    (List.prefix_iff_eq_take.mp (List.takeWhile_prefix _)).symm
  have hdisjoint : ∀ b, fsBlanks.set.has b = true → fsName.set.has b = false := by
    intro b hb
    rw [fsBlanks_has] at hb
    rw [fsName_has]
    by_contra halnum
    rw [not_isBlank_of_isAlnum (by simpa using halnum)] at hb
    cases hb
  have hdrop : ([9] ++ text).drop 1 = text := rfl
  rw [fsNameOf_eq _ hnul, exec_blanks hfront (by simp; decide),
    show 9 :: text = [9] ++ text from rfl, Regex.exec_forced rfl rfl hdisjoint, hblank,
    if_pos (by decide), hdrop, Regex.exec_last rfl, hlast, htake]
  cases text.takeWhile Regex.isAlnum with
  | nil => rfl
  | cons b name => rfl

theorem fsNameOf_none {text : List UInt8} (hnul : 0 ∉ text)
    (htext : ∀ b ∈ text, Regex.isBlank b = false) : fsNameOf text = none := by
  have hsplit := List.takeWhile_append_dropWhile (p := Regex.isAlnum) (l := text)
  have hhead : ∀ b, (text.dropWhile Regex.isAlnum).head? = some b → Regex.isAlnum b = false := by
    intro b hb
    have hnot := List.head?_dropWhile_not Regex.isAlnum text
    rw [hb] at hnot
    simpa using hnot
  have hrun : Regex.run fsBlanks (text.dropWhile Regex.isAlnum) = 0 := by
    apply @Regex.run_append fsBlanks [] _ nofun
    intro b hb
    rw [fsBlanks_has]
    exact htext b ((List.dropWhile_sublist _).subset (List.mem_of_mem_head? hb))
  have hexec : Regex.exec [fsBlanks, fsName] (text.dropWhile Regex.isAlnum) = none := by
    rw [Regex.exec, Regex.splits, Regex.counts_many rfl, hrun, if_neg (by decide)]
    rfl
  have hword : ∀ b ∈ text.takeWhile Regex.isAlnum, Regex.isAlnum b = true := by
    intro b hb
    exact List.mem_takeWhile_imp hb
  have hparts := exec_blanks hword hhead
  rw [hsplit, hexec] at hparts
  rw [fsNameOf_eq _ hnul, hparts]
  rfl

/-! ### The names of a file -/

namespace FsLine

def taken (l : FsLine) : Option CString :=
  (some (l.cut.takeWhile Regex.isAlnum)).filter (· ≠ [])

variable (l : FsLine)

/-- The bytes of a name are neither NUL nor a newline nor a blank. -/
theorem plain {b : UInt8} (hb : b ∈ l.name) : b ≠ 0 ∧ b ≠ 10 ∧ Regex.isBlank b = false := by
  rcases l.name_bytes b hb with halnum | hmem
  · refine ⟨?_, ?_, not_isBlank_of_isAlnum halnum⟩
    · rintro rfl
      revert halnum
      decide
    · rintro rfl
      revert halnum
      decide
  · have hcases : b = 95 ∨ b = 45 ∨ b = 46 := by simpa [bytes] using hmem
    rcases hcases with rfl | rfl | rfl
    · decide
    · decide
    · decide

theorem front_length_le : l.front.length ≤ 6 := by
  rw [front]
  cases l.nodev <;> decide

theorem front_eq : ∃ word, l.front = word ++ [9] ∧ ∀ b ∈ word, Regex.isAlnum b = true := by
  rw [front]
  cases l.nodev with
  | false => exact ⟨[], rfl, nofun⟩
  | true => exact ⟨bytes "nodev", rfl, by decide +kernel⟩

theorem newline_notMem : 10 ∉ l.text := by
  obtain ⟨word, hfront, hword⟩ := l.front_eq
  rw [text, hfront]
  simp only [List.append_assoc, List.mem_append, List.mem_singleton, not_or]
  refine ⟨?_, by decide, ?_⟩
  · intro hmem
    have halnum := hword 10 hmem
    revert halnum
    decide
  · intro hmem
    exact (l.plain hmem).2.1 rfl

theorem fsNameOf_first {tail : List UInt8} (htail : tail = [] ∨ tail = [10]) {name : List UInt8}
    (hname : name <+: l.name) :
    fsNameOf (l.front ++ name ++ tail) = (some (name.takeWhile Regex.isAlnum)).filter (· ≠ []) := by
  obtain ⟨word, hfront, hword⟩ := l.front_eq
  have hline : l.front ++ name ++ tail = word ++ 9 :: (name ++ tail) := by
    rw [hfront]
    simp
  have hsame : (name ++ tail).takeWhile Regex.isAlnum = name.takeWhile Regex.isAlnum := by
    rcases htail with rfl | rfl
    · rw [List.append_nil]
    · rw [List.takeWhile_append]
      split
      · rename_i hall
        rw [List.takeWhile_cons_of_neg (by decide), List.append_nil,
          List.IsPrefix.eq_of_length (List.takeWhile_prefix _) hall]
      · rfl
  have hzero : 0 ∉ word ++ 9 :: (name ++ tail) := by
    simp only [List.mem_append, List.mem_cons, not_or]
    refine ⟨?_, by decide, ?_, ?_⟩
    · intro hmem
      have halnum := hword 0 hmem
      revert halnum
      decide
    · intro hmem
      exact (l.plain (hname.subset hmem)).1 rfl
    · rcases htail with rfl | rfl
      · exact List.not_mem_nil
      · decide
  rw [hline, fsNameOf_line hzero hword, hsame]
  intro b hb
  rcases List.mem_append.mp (List.mem_of_mem_head? hb) with hmem | hmem
  · exact (l.plain (hname.subset hmem)).2.2
  · rcases htail with rfl | rfl
    · cases hmem
    · cases List.mem_singleton.mp hmem
      decide

theorem fsNames_rest {part : List UInt8} (hpart : part <:+ l.name) (rest : List UInt8) :
    (readLines 4096 ⟨part ++ 10 :: rest, none⟩).filterMap fsNameOf
      = (readLines 4096 ⟨rest, none⟩).filterMap fsNameOf := by
  induction hlen : part.length using Nat.strong_induction_on generalizing part with
  | _ n ih =>
      have hplain : ∀ b ∈ part, b ≠ 0 ∧ b ≠ 10 ∧ Regex.isBlank b = false :=
        fun b hb => l.plain (hpart.subset hb)
      have hline : 10 ∉ part := fun hmem => (hplain 10 hmem).2.1 rfl
      have hnul : 0 ∉ part := fun hmem => (hplain 0 hmem).1 rfl
      by_cases hfits : part.length < 4096 - 1
      · have hnone : fsNameOf (part ++ [10]) = none := by
          apply fsNameOf_none
          · simpa using hnul
          · intro b hb
            rcases List.mem_append.mp hb with hmem | hmem
            · exact (hplain b hmem).2.2
            · cases List.mem_singleton.mp hmem
              decide
        rw [readLines_line hfits hline, List.filterMap_cons_none hnone]
      · have hnone : fsNameOf (part.take (4096 - 1)) = none := by
          apply fsNameOf_none
          · exact fun hmem => hnul (List.mem_of_mem_take hmem)
          · exact fun b hb => (hplain b (List.mem_of_mem_take hb)).2.2
        rw [readLines_long (by decide) (by omega) hline, List.filterMap_cons_none hnone]
        exact ih _ (by rw [List.length_drop]; omega) ((List.drop_suffix _ _).trans hpart) rfl

theorem fsNames_line (rest : List UInt8) :
    (readLines 4096 ⟨l.text ++ 10 :: rest, none⟩).filterMap fsNameOf
      = l.taken.toList ++ (readLines 4096 ⟨rest, none⟩).filterMap fsNameOf := by
  have hfront := l.front_length_le
  have hfirst : ∀ line lines, fsNameOf line = l.taken →
      (line :: lines).filterMap fsNameOf = l.taken.toList ++ lines.filterMap fsNameOf := by
    intro line lines hline
    cases htaken : l.taken with
    | none => rw [List.filterMap_cons_none (hline.trans htaken)]; rfl
    | some name => rw [List.filterMap_cons_some (hline.trans htaken)]; rfl
  by_cases hfits : l.text.length < 4096 - 1
  · have hcut : l.cut = l.name := by
      rw [cut, List.take_of_length_le]
      rw [text, List.length_append] at hfits
      omega
    rw [readLines_line hfits l.newline_notMem]
    apply hfirst
    rw [taken, hcut]
    exact l.fsNameOf_first (.inr rfl) (List.prefix_refl _)
  · have htext : l.text.length = l.front.length + l.name.length := List.length_append
    have hcut : l.text.take (4096 - 1) = l.front ++ l.cut ++ [] := by
      rw [text, List.take_append, List.take_of_length_le (by omega), List.append_nil]
      rfl
    have hdrop : l.text.drop (4096 - 1) = l.name.drop (4095 - l.front.length) := by
      rw [text, List.drop_append, List.drop_eq_nil_of_le (by omega), List.nil_append]
    rw [readLines_long (by decide) (by omega) l.newline_notMem, hdrop]
    rw [hfirst _ _ (by rw [hcut]; exact l.fsNameOf_first (.inl rfl) (List.take_prefix _ _)),
      l.fsNames_rest (List.drop_suffix _ _)]

end FsLine

theorem fsNames_fsFile (ls : List FsLine) :
    (readLines 4096 (fsFile ls)).filterMap fsNameOf = ls.filterMap FsLine.taken := by
  induction ls with
  | nil => rfl
  | cons l ls ih =>
      have hfile : fsFile (l :: ls) = ⟨l.text ++ 10 :: (fsFile ls).bytes, none⟩ := by
        rw [fsFile, List.flatMap_cons, List.append_assoc]
        rfl
      rw [hfile, l.fsNames_line, List.filterMap_cons]
      have hrest : (readLines 4096 ⟨(fsFile ls).bytes, none⟩).filterMap fsNameOf
          = ls.filterMap FsLine.taken := ih
      rw [hrest]
      cases l.taken <;> rfl

/-- Of names of letters and digits the file gives what is within the buffer. -/
theorem taken_eq_cut {ls : List FsLine} (hls : ∀ l ∈ ls, ∀ b ∈ l.name, Regex.isAlnum b = true) :
    ls.filterMap FsLine.taken = ls.map FsLine.cut := by
  have htaken : ∀ l ∈ ls, l.taken = some l.cut := by
    intro l hl
    have hfront := l.front_length_le
    have hall : l.cut.takeWhile Regex.isAlnum = l.cut :=
      List.takeWhile_eq_self_iff.mpr fun b hb => hls l hl b (List.mem_of_mem_take hb)
    have hne : l.cut ≠ [] := by
      have hpos := List.length_pos_iff.mpr l.name_ne
      apply List.length_pos_iff.mp
      rw [FsLine.cut, List.length_take]
      omega
    rw [FsLine.taken, hall, Option.filter_some, if_pos (by simpa using hne)]
  rw [← List.filterMap_eq_map]
  exact List.filterMap_congr htaken

theorem isAlnum_of_mem_taken {ls : List FsLine} {name : CString}
    (hname : name ∈ ls.filterMap FsLine.taken) : ∀ b ∈ name, Regex.isAlnum b = true := by
  obtain ⟨l, -, htaken⟩ := List.mem_filterMap.mp hname
  obtain ⟨hsome, -⟩ := Option.filter_eq_some_iff.mp htaken
  cases hsome
  intro b hb
  exact List.mem_takeWhile_imp hb

/-! ### A start -/

inductive FsSource where
  | lines (ls : List FsLine)
  | noFile
  | noPattern (file : Stream)

namespace FsSource

def run : FsSource → FsTypesM SgError
  | .lines ls => initValidFsTypesFrom true (some (fsFile ls))
  | .noFile => initValidFsTypesFrom true none
  | .noPattern file => initValidFsTypesFrom false (some file)

def expected : FsSource → List CString
  | .lines ls => ls.map FsLine.name
  | .noFile => validFsTypes
  | .noPattern _ => validFsTypes

/-- The start succeeds, with exactly these names. -/
def Exact (s : FsTypes) (source : FsSource) : Prop :=
  ∃ s', source.run s = .ok (.none, s') ∧ ∀ name, name ∈ s'.names ↔ name ∈ source.expected

/-- The names are letters and digits, and the buffer makes no others of them; without the file the number
is the length of the built-in list. -/
def Suits (s : FsTypes) : FsSource → Prop
  | .lines ls =>
      (∀ l ∈ ls, ∀ b ∈ l.name, Regex.isAlnum b = true) ∧
      ∀ name, name ∈ ls.map FsLine.cut ↔ name ∈ ls.map FsLine.name
  | .noFile => s.numValidFileSystems = validFsTypes.length
  | .noPattern _ => False

end FsSource

section Start

variable {s : FsTypes}

/-- With memory a start that reads the file has the names it takes for such. -/
theorem initValidFsTypes_names (hplenty : s.toThread.Plenty) (names : List CString) :
    ∃ s', initValidFsTypes (some ⟨true, names⟩) s = .ok (.none, s') ∧ s'.names.Perm names := by
  have hentries : s.opened.validFileSystems
      = some (filled [] (s.opened.numValidFileSystems + 1 - ([] : List CString).length)) := by
    simp [FsTypes.opened, hplenty 0, filled]
  obtain ⟨u, hread, hfilled, hlength⟩ :=
    readFsTypes_plenty names (fun n => hplenty (n + 1)) hentries (Nat.zero_le _)
  obtain ⟨s', hfinish, -, hperm⟩ := finishFsTypes_run _ hfilled hlength
  refine ⟨s', ?_, hperm⟩
  have hstart : initValidFsTypes (some ⟨true, names⟩) s = (readFsTypes 0 names >>= _) s.opened := rfl
  rw [List.length_nil] at hread
  rw [hstart, Prog.bind_of_ok hread]
  simp only
  rw [Prog.bind_of_ok hfinish]
  rfl

/-- Less than the whole built-in list lacks its last name. -/
theorem validFsTypes_take {n : Nat} (hn : ∀ name, name ∈ validFsTypes.take n ↔ name ∈ validFsTypes) :
    validFsTypes.length ≤ n := by
  by_contra hlt
  have hlast : literal "xfs" ∈ validFsTypes.take n := (hn _).mpr (by decide +kernel)
  have hle : n ≤ 33 := by
    have hlen : validFsTypes.length = 34 := rfl
    omega
  have hmem : literal "xfs" ∈ validFsTypes.take 33 := List.take_subset_take_left _ hle hlast
  revert hmem
  decide +kernel

/-- With memory the built-in list is the set if and only if the number is its length. -/
theorem useBuiltinFs_exact (hplenty : s.toThread.Plenty) :
    (∃ s', useBuiltinFs s = .ok (.none, s') ∧ ∀ name, name ∈ s'.names ↔ name ∈ validFsTypes) ↔
      s.numValidFileSystems = validFsTypes.length := by
  by_cases hle : s.numValidFileSystems ≤ validFsTypes.length
  · obtain ⟨s', hrun, -, hperm⟩ := useBuiltinFs_run hle fun i _ => hplenty i
    constructor
    · rintro ⟨s'', hrun', hnames⟩
      rw [hrun] at hrun'
      cases hrun'
      apply Nat.le_antisymm hle
      apply validFsTypes_take
      intro name
      rw [← hperm.mem_iff]
      exact hnames name
    · intro heq
      refine ⟨s', hrun, ?_⟩
      intro name
      rw [hperm.mem_iff, heq, List.take_length]
  · refine iff_of_false ?_ fun heq => hle heq.le
    rintro ⟨s', hrun, -⟩
    exact (useBuiltinFs_short (hplenty 0) (fun hgood => hle hgood.1) hrun).1 rfl

/-- With memory the set is what is asked for if and only if the names suit the expression and the buffer,
or the number the built-in list. -/
theorem initValidFsTypesFrom_exact_iff (hplenty : s.toThread.Plenty) (source : FsSource) :
    source.Exact s ↔ source.Suits s := by
  cases source with
  | lines ls =>
      obtain ⟨s', hrun, hperm⟩ := initValidFsTypes_names hplenty (ls.filterMap FsLine.taken)
      have hstart : FsSource.run (.lines ls) s = .ok (.none, s') := by
        rw [← hrun, ← fsNames_fsFile]
        rfl
      constructor
      · rintro ⟨s'', hrun', hnames⟩
        rw [hstart] at hrun'
        cases hrun'
        have hsame : ∀ name, name ∈ ls.filterMap FsLine.taken ↔ name ∈ ls.map FsLine.name := by
          intro name
          rw [← hperm.mem_iff]
          exact hnames name
        have halnum : ∀ l ∈ ls, ∀ b ∈ l.name, Regex.isAlnum b = true := by
          intro l hl
          exact isAlnum_of_mem_taken ((hsame l.name).mpr (List.mem_map_of_mem hl))
        refine ⟨halnum, ?_⟩
        rwa [taken_eq_cut halnum] at hsame
      · rintro ⟨halnum, hcut⟩
        refine ⟨s', hstart, ?_⟩
        intro name
        rw [hperm.mem_iff, taken_eq_cut halnum]
        exact hcut name
  | noFile => exact useBuiltinFs_exact hplenty
  | noPattern file =>
      have hopened : FsSource.run (.noPattern file) s = useBuiltinFs s.opened := rfl
      have hnum : 15 ≠ validFsTypes.length := by decide
      have hplenty' : s.opened.toThread.Plenty := fun n => hplenty (n + 1)
      refine iff_of_false ?_ not_false
      rintro ⟨s', hrun, hnames⟩
      rw [hopened] at hrun
      exact hnum ((useBuiltinFs_exact hplenty').mp ⟨s', hrun, hnames⟩)

/-- Lines of two file systems of letters and digits, and one of a name with an underscore. -/
def tmpfsLine : FsLine := ⟨true, literal "tmpfs", by decide +kernel, by decide +kernel⟩
def ext4Line : FsLine := ⟨false, literal "ext4", by decide +kernel, by decide +kernel⟩
def binfmtMiscLine : FsLine := ⟨true, literal "binfmt_misc", by decide +kernel, by decide +kernel⟩

/-- A file with a name without a device and one with it is read. -/
theorem initValidFsTypesFrom_ext4 :
    freshFsTypes.toThread.Plenty ∧ FsSource.Exact freshFsTypes (.lines [tmpfsLine, ext4Line]) := by
  have hplenty : freshFsTypes.toThread.Plenty := fun _ => rfl
  have hcut : [tmpfsLine, ext4Line].map FsLine.cut = [tmpfsLine, ext4Line].map FsLine.name := by
    decide +kernel
  refine ⟨hplenty, (initValidFsTypesFrom_exact_iff hplenty _).mpr ⟨?_, fun name => by rw [hcut]⟩⟩
  decide +kernel

/-- Of a name with an underscore only the front is in the set. -/
theorem initValidFsTypesFrom_binfmtMisc :
    (∃ s', FsSource.run (.lines [binfmtMiscLine]) freshFsTypes = .ok (.none, s') ∧
      s'.names = [literal "binfmt"]) ∧
    ¬ FsSource.Exact freshFsTypes (.lines [binfmtMiscLine]) := by
  obtain ⟨s', hrun, hperm⟩ := initValidFsTypes_names (s := freshFsTypes) (fun _ => rfl) [literal "binfmt"]
  have htaken : [binfmtMiscLine].filterMap FsLine.taken = [literal "binfmt"] := by decide +kernel
  have hstart : FsSource.run (.lines [binfmtMiscLine]) freshFsTypes = .ok (.none, s') := by
    rw [← hrun, ← htaken, ← fsNames_fsFile]
    rfl
  have hnames : s'.names = [literal "binfmt"] := List.perm_singleton.mp hperm
  refine ⟨⟨s', hstart, hnames⟩, ?_⟩
  rintro ⟨s'', hrun', hexact⟩
  rw [hstart] at hrun'
  cases hrun'
  have hmem : literal "binfmt" ∈ [binfmtMiscLine].map FsLine.name :=
    (hexact _).mp (by rw [hnames]; exact List.mem_singleton_self _)
  revert hmem
  decide +kernel

end Start

end Statgrab
