import Statgrab.Process.Code

/-!
# Reading `/proc/PID/stat`

The second field of `/proc/PID/stat` is the name of the process in parentheses. It may hold white space,
which `%s` stops at, so the format skips one word more for each run of white space in the name that
`/proc/PID/comm` has. The skips are put together in 32 bytes, which is room for seven runs, and a name of
15 bytes may have eight.

The name that is stored is cut at the first closing parenthesis, whether it stands in parentheses or not.
-/

namespace Statgrab.Process

open Text Scanf

/-! ### Words and white space -/

/-- The runs of white space in a text, with `blank` for one that goes on in front of it. -/
def blankRuns : Bool → List UInt8 → Nat
  | _, [] => 0
  | blank, b :: text =>
      if isSpace b then (if blank then 0 else 1) + blankRuns true text else blankRuns false text

/-- The last word of a text that starts within `word`: empty where the text ends with white space. -/
def lastWord : List UInt8 → List UInt8 → List UInt8
  | word, [] => word
  | word, b :: text => if isSpace b then lastWord [] text else lastWord (word ++ [b]) text

theorem blankRuns_true (text : List UInt8) :
    blankRuns true text = blankRuns false ((text.dropWhile isSpace).drop 1) := by
  induction text with
  | nil => rfl
  | cons b text ih =>
      by_cases hb : isSpace b = true
      · rw [blankRuns, if_pos hb, if_pos rfl, Nat.zero_add, List.dropWhile_cons_of_pos hb, ih]
      · rw [blankRuns, if_neg hb, List.dropWhile_cons_of_neg hb]
        rfl

theorem skipWords_blankRuns (text : List UInt8) :
    (∀ word : List UInt8, word ≠ [] → (∀ b ∈ word, isSpace b = false) → ∀ n behind,
      skipWords (blankRuns false text + n) (word ++ (text ++ behind))
        = skipWords n (lastWord word text ++ behind)) ∧
    (∀ n behind, skipWords (blankRuns true text + n) (text ++ behind)
      = skipWords n (lastWord [] text ++ behind)) := by
  induction text with
  | nil =>
      constructor
      · intro word _ _ n behind
        rw [blankRuns, Nat.zero_add]
        rfl
      · intro n behind
        rw [blankRuns, Nat.zero_add]
        rfl
  | cons b text ih =>
      obtain ⟨ihword, ihblank⟩ := ih
      by_cases hb : isSpace b = true
      · constructor
        · intro word hne hword n behind
          have hcount : blankRuns false (b :: text) + n = blankRuns true text + n + 1 := by
            rw [blankRuns, if_pos hb, if_neg Bool.false_ne_true]
            omega
          rw [hcount, List.cons_append, skipWords_word _ hne hword hb, ihblank, lastWord, if_pos hb]
        · intro n behind
          rw [blankRuns, if_pos hb, if_pos rfl, Nat.zero_add, List.cons_append,
            skipWords_space _ hb, ihblank, lastWord, if_pos hb]
      · have hword1 : ∀ c ∈ [b], isSpace c = false := by
          intro c hc
          rw [List.mem_singleton.mp hc]
          simpa using hb
        constructor
        · intro word hne hword n behind
          have hlonger := ihword (word ++ [b]) (by simp) (by
            intro c hc
            rcases List.mem_append.mp hc with hc | hc
            · exact hword c hc
            · exact hword1 c hc) n behind
          rw [blankRuns, if_neg hb, lastWord, if_neg hb, ← hlonger]
          simp
        · intro n behind
          have hfirst := ihword [b] (by simp) hword1 n behind
          rw [blankRuns, if_neg hb, lastWord, if_neg hb, List.nil_append, ← hfirst]
          rfl

theorem lastWord_noSpace (text : List UInt8) {word : List UInt8} (hword : ∀ b ∈ word, isSpace b = false) :
    ∀ b ∈ lastWord word text, isSpace b = false := by
  induction text generalizing word with
  | nil => exact hword
  | cons b text ih =>
      rw [lastWord]
      split
      · apply ih
        simp
      · rename_i hb
        apply ih
        intro c hc
        rcases List.mem_append.mp hc with hc | hc
        · exact hword c hc
        · rw [List.mem_singleton.mp hc]
          simpa using hb

/-- The runs of white space and the words between them take a byte each. -/
theorem blankRuns_le (text : List UInt8) :
    (∀ word : List UInt8, 2 * blankRuns false text + min 1 (lastWord word text).length
      ≤ text.length + 1) ∧
    (2 * blankRuns true text + min 1 (lastWord [] text).length ≤ text.length) := by
  induction text with
  | nil =>
      constructor
      · intro word
        simp only [blankRuns, List.length_nil]
        omega
      · exact le_rfl
  | cons b text ih =>
      obtain ⟨ihword, ihblank⟩ := ih
      by_cases hb : isSpace b = true
      · constructor
        · intro word
          rw [blankRuns, if_pos hb, if_neg Bool.false_ne_true, lastWord, if_pos hb, List.length_cons]
          omega
        · rw [blankRuns, if_pos hb, if_pos rfl, lastWord, if_pos hb, List.length_cons]
          omega
      · constructor
        · intro word
          have h := ihword (word ++ [b])
          rw [blankRuns, if_neg hb, lastWord, if_neg hb, List.length_cons]
          omega
        · have h := ihword ([] ++ [b])
          rw [blankRuns, if_neg hb, lastWord, if_neg hb, List.length_cons]
          omega

/-! ### The format -/

/-- The skips of `k` runs of white space. -/
def jumps (k : Nat) : CString := bytes "%*s" ++ (List.replicate k (bytes " %*s")).flatten

/-- The buffer takes the skips of seven runs. -/
theorem appendJmp_jumps : ∀ k < 8,
    appendJmp (appendJmp (jumps k) " ") "%*s" = jumps (min (k + 1) 7) := by
  decide

theorem jmpLoop_run (fuel : Nat) (name : List UInt8) (hfuel : name.length ≤ fuel) {k : Nat}
    (hk : k ≤ 7) : jmpLoop fuel name (jumps k) = jumps (min (k + blankRuns false name) 7) := by
  induction fuel generalizing name k with
  | zero =>
      have hnil : name = [] := List.length_eq_zero_iff.mp (by omega)
      rw [hnil, jmpLoop, blankRuns, Nat.add_zero, Nat.min_eq_left hk]
  | succ fuel ih =>
      cases name with
      | nil =>
          have hmin : min (k + blankRuns false []) 7 = k := by
            rw [blankRuns]
            omega
          rw [hmin]
          rfl
      | cons b text =>
          rw [List.length_cons] at hfuel
          by_cases hb : isSpace b = true
          · have hrest : (((b :: text).dropWhile isSpace).drop 1).length ≤ fuel := by
              rw [List.dropWhile_cons_of_pos hb, List.length_drop]
              have := (List.dropWhile_suffix isSpace (l := text)).length_le
              omega
            rw [jmpLoop, if_pos hb, appendJmp_jumps k (by omega), ih _ hrest (by omega), blankRuns,
              if_pos hb, if_neg Bool.false_ne_true, List.dropWhile_cons_of_pos hb, ← blankRuns_true]
            congr 1
            omega
          · rw [jmpLoop, if_neg hb, ih text (by omega) hk, blankRuns, if_neg hb]

theorem commJmp_eq (name : CString) : commJmp name = jumps (min (blankRuns false name) 7) := by
  have hrun := jmpLoop_run name.length name le_rfl (Nat.zero_le 7)
  rw [Nat.zero_add] at hrun
  exact hrun

/-- The conversions of the numbers behind the state, up to the last one that is stored. -/
def fieldKinds : List (Bool × Conversion) :=
  [(false, .d), (false, .d), (true, .d), (true, .d), (true, .d), (true, .u), (true, .u), (true, .u),
    (true, .u), (true, .u), (false, .lu), (false, .lu), (true, .d), (true, .d), (true, .d), (false, .d),
    (true, .d), (true, .d), (false, .llu), (false, .llu), (false, .llu)]

/-- The directives of the numbers, and those behind them, which store nothing. -/
def fieldDirectives : List Directive :=
  fieldKinds.flatMap fun k => [.space, .convert k.1 none k.2]

/-- The directives behind the last number that is stored. -/
def silentDirectives : List Directive :=
  (List.replicate 13 [.space, .convert true none .u]).flatten ++
    (List.replicate 2 [.space, .convert true none .d]).flatten

set_option maxRecDepth 1000 in
theorem parse_jumps : ∀ k < 8,
    parse none (snprintf (procStatFmtBase.length + 1) procStatFmtBase (jumps k))
      = some (.convert false none .d :: .space :: (skips (k + 1) ++
          .convert false none .c :: (fieldDirectives ++ silentDirectives))) := by
  have hbase : procStatFmtBase = _ := bytes_ofList _
  rw [hbase]
  decide

theorem parse_procStatFmt (name : CString) :
    parse none (procStatFmt name)
      = some (.convert false none .d :: .space :: (skips (min (blankRuns false name) 7 + 1) ++
          .convert false none .c :: (fieldDirectives ++ silentDirectives))) := by
  rw [procStatFmt, commJmp_eq]
  exact parse_jumps _ (by omega)

set_option maxRecDepth 1000 in
theorem parse_procStatFmtDefault :
    parse none procStatFmtDefault
      = some (.convert false none .d :: .space :: .convert false (some 4095) .s :: .space ::
          .convert false none .c :: (fieldDirectives ++ silentDirectives)) := by
  have hdefault : procStatFmtDefault = _ := bytes_ofList _
  rw [hdefault]
  decide

/-! ### The record of the kernel -/

/-- The fields of `/proc/PID/stat`. The state is a letter, and the numbers that are stored have the widths
the kernel prints them with. -/
structure StatRecord where
  pid : Int
  state : UInt8
  ppid : Int
  pgrp : Int
  session : Int
  ttyNr : Int
  tpgid : Int
  flags : Nat
  minflt : Nat
  cminflt : Nat
  majflt : Nat
  cmajflt : Nat
  utime : Nat
  stime : Nat
  cutime : Int
  cstime : Int
  priority : Int
  nice : Int
  numThreads : Int
  itrealvalue : Int
  starttime : Nat
  vsize : Nat
  rss : Nat
  behind : List Int
  letter : (65 ≤ state ∧ state ≤ 90) ∨ (97 ≤ state ∧ state ≤ 122)
  ints : ∀ n ∈ [pid, ppid, pgrp, nice], -2 ^ 31 ≤ n ∧ n < 2 ^ 31
  longs : ∀ n ∈ [utime, stime, starttime, vsize, rss], n < 2 ^ 64

namespace StatRecord

/-- The numbers behind the state, up to the last one that is stored. -/
def fieldValues (r : StatRecord) : List Int :=
  [r.ppid, r.pgrp, r.session, r.ttyNr, r.tpgid, r.flags, r.minflt, r.cminflt, r.majflt, r.cmajflt,
    r.utime, r.stime, r.cutime, r.cstime, r.priority, r.nice, r.numThreads, r.itrealvalue,
    r.starttime, r.vsize, r.rss]

/-- Each number with the conversion that reads it. -/
def fields (r : StatRecord) : List Field :=
  (fieldKinds.zip r.fieldValues).map fun x => ⟨x.1.1, x.1.2, x.2⟩

def textBehind (r : StatRecord) : List UInt8 :=
  r.state :: (r.fields.flatMap Field.text ++ (r.behind.flatMap (fun n => 32 :: decimalInt n) ++ [10]))

/-- `/proc/PID/stat` for a process of this name. -/
def text (r : StatRecord) (name : CString) : List UInt8 :=
  decimalInt r.pid ++ 32 :: 40 :: (name ++ 41 :: 32 :: r.textBehind)

def values (r : StatRecord) : List Value :=
  [.number r.pid, .byte r.state, .number r.ppid, .number r.pgrp, .number r.utime, .number r.stime,
    .number r.nice, .number r.starttime, .number r.vsize, .number r.rss]

variable (r : StatRecord)

theorem fields_directives : r.fields.flatMap Field.directives = fieldDirectives := rfl

theorem fields_numeric : ∀ f ∈ r.fields, f.kind.Numeric := by
  intro f hf
  obtain ⟨x, hx, rfl⟩ := List.mem_map.mp hf
  have hkinds : ∀ k ∈ fieldKinds, k.2 ≠ .c ∧ k.2 ≠ .s := by decide
  exact hkinds x.1 (List.of_mem_zip hx).1

theorem state_not_space : isSpace r.state = false := by
  have h := r.letter
  simp only [UInt8.le_iff_toNat_le] at h
  simp only [isSpace, Bool.or_eq_false_iff, Bool.and_eq_false_iff, decide_eq_false_iff_not,
    UInt8.le_iff_toNat_le, ← UInt8.toNat_inj]
  have h32 : (32 : UInt8).toNat = 32 := rfl
  have h13 : (13 : UInt8).toNat = 13 := rfl
  have h65 : (65 : UInt8).toNat = 65 := rfl
  have h97 : (97 : UInt8).toNat = 97 := rfl
  omega

theorem state_ne_paren : r.state ≠ 41 := by
  intro hstate
  have h := r.letter
  rw [hstate] at h
  revert h
  decide

theorem storedNumber_d {n : Int} (hlo : -2 ^ 31 ≤ n) (hhi : n < 2 ^ 31) :
    storedNumber .d n = n := by
  have hlong : strtol n = n := by
    rw [strtol]
    omega
  rw [storedNumber, hlong, Int.bmod_eq_of_le (by omega) (by omega)]

theorem strtoul_nat {n : Nat} (hn : n < 2 ^ 64) : strtoul n = n := by
  rw [strtoul, if_neg (by omega)]
  omega

theorem fields_stored : r.fields.filterMap Field.stored
    = [.number r.ppid, .number r.pgrp, .number r.utime, .number r.stime, .number r.nice,
        .number r.starttime, .number r.vsize, .number r.rss] := by
  have hint : ∀ n ∈ [r.pid, r.ppid, r.pgrp, r.nice], storedNumber .d n = n := fun n hn =>
    storedNumber_d (r.ints n hn).1 (r.ints n hn).2
  have hlong : ∀ n ∈ [r.utime, r.stime, r.starttime, r.vsize, r.rss], strtoul n = n := fun n hn =>
    strtoul_nat (r.longs n hn)
  show [Value.number (storedNumber .d r.ppid), .number (storedNumber .d r.pgrp),
    .number (strtoul r.utime), .number (strtoul r.stime), .number (storedNumber .d r.nice),
    .number (strtoul r.starttime), .number (strtoul r.vsize), .number (strtoul r.rss)] = _
  rw [hint r.ppid (by simp), hint r.pgrp (by simp), hint r.nice (by simp), hlong r.utime (by simp),
    hlong r.stime (by simp), hlong r.starttime (by simp), hlong r.vsize (by simp),
    hlong r.rss (by simp)]

theorem convert_pid (c : CString) : convert .d none (r.text c)
    = .ok (.number r.pid, 32 :: 40 :: (c ++ 41 :: 32 :: r.textBehind)) := by
  rw [text, convert_decimalInt ⟨by decide, by decide⟩ r.pid (noDigit_cons rfl _),
    storedNumber_d (r.ints r.pid (by simp)).1 (r.ints r.pid (by simp)).2]

theorem scan_textBehind :
    (scan (.convert false none .c :: (fieldDirectives ++ silentDirectives)) r.textBehind).1
      = .byte r.state :: r.fields.filterMap Field.stored := by
  have hrest : NoDigit (r.behind.flatMap (fun n => 32 :: decimalInt n) ++ [10]) := by
    cases r.behind with
    | nil => exact noDigit_cons rfl _
    | cons n ns => exact noDigit_cons rfl _
  have hstate : convert .c none r.textBehind = .ok (.byte r.state, r.fields.flatMap Field.text ++
      (r.behind.flatMap (fun n => 32 :: decimalInt n) ++ [10])) := rfl
  rw [scan_convert hstate, ← r.fields_directives,
    scan_fields r.fields r.fields_numeric hrest, scan_silent (by decide), List.append_nil]
  rfl

end StatRecord

/-! ### The alignment -/

/-- A name that fits in the 16 bytes the kernel has for one, on one line. -/
structure ShortName (c : CString) : Prop where
  nonempty : c ≠ []
  length : c.length ≤ 15
  newline : 10 ∉ c

/-- A name the kernel prints as it is. -/
structure CommName (c : CString) : Prop extends ShortName c where
  nul : 0 ∉ c
  backslash : 92 ∉ c

/-- `/proc/PID/comm` holds the name, with a newline or without. -/
def HoldsName (comm : Stream) (c : CString) : Prop :=
  comm.bytes = c ++ [10] ∨ (comm.bytes = c ∧ comm.failure = none)

theorem ShortName.readComm {c : CString} (hc : ShortName c) {comm : Stream} (h : HoldsName comm c) :
    readComm (some comm) = .name c := by
  have hlen := hc.length
  have hne := hc.nonempty
  rcases h with hbytes | ⟨hbytes, hreads⟩
  · have hline : lineOf (readbufLength - 1) comm.bytes = c ++ [10] := by
      rw [hbytes]
      exact lineOf_line (by rw [readbufLength]; omega) hc.newline []
    rw [Process.readComm, fgets]
    simp [hline, commName]
  · have hline : lineOf (readbufLength - 1) comm.bytes = c := by
      rw [hbytes]
      exact lineOf_all (by rw [readbufLength]; omega) hc.newline
    have hlast : c.getLast? ≠ some 10 := by
      intro h
      exact hc.newline (List.mem_of_getLast? h)
    rw [Process.readComm, fgets]
    simp [hline, hreads, hne, commName, hlast]

/-- The format that is made of the name reads the record as it is. -/
def AlignsRecord (c : CString) (r : StatRecord) : Prop :=
  ∀ comm stat : Stream, HoldsName comm c → stat.bytes = r.text c →
    ∃ name, readComm (some comm) = .name name ∧ (scanStat (some name) stat).values = r.values ∧
      (scanStat (some name) stat).complete = true

theorem scanStat_eq (c : CString) (stat : Stream) :
    scanStat (some c) stat = ⟨(scanf (procStatFmt c) stat.bytes).1, c,
      10 ≤ returned (scanf (procStatFmt c) stat.bytes)⟩ := rfl

theorem StatScan.values_mk (values : List Value) (readBuf : CString) (complete : Bool) :
    (StatScan.mk values readBuf complete).values = values := rfl

-- closing this by `rfl` would have the format unfolded
theorem scanStat_some (c : CString) (stat : Stream) :
    (scanStat (some c) stat).values = (scanf (procStatFmt c) stat.bytes).1 := by
  rw [scanStat_eq, StatScan.values_mk]

theorem scanStat_some_complete (c : CString) (stat : Stream) :
    (scanStat (some c) stat).complete = decide (10 ≤ returned (scanf (procStatFmt c) stat.bytes)) := by
  rw [scanStat]

theorem scanStat_none (stat : Stream) :
    (scanStat none stat).values = (scanf procStatFmtDefault stat.bytes).1.eraseIdx 1 := by
  rw [scanStat]

theorem scanStat_none_complete (stat : Stream) :
    (scanStat none stat).complete = decide (11 ≤ returned (scanf procStatFmtDefault stat.bytes)) := by
  rw [scanStat]

/-- The values that are stored for a name, given where the skips lead. -/
theorem scanStat_values {c : CString} {r : StatRecord} {stat : Stream} (hstat : stat.bytes = r.text c)
    {left : List UInt8} (hne : left ≠ [])
    (hleft : skipWords (min (blankRuns false c) 7 + 1) (40 :: (c ++ 41 :: 32 :: r.textBehind)) = left) :
    (scanStat (some c) stat).values = .number r.pid ::
      (scan (.convert false none .c :: (fieldDirectives ++ silentDirectives)) left).1 := by
  have hpid := r.convert_pid c
  have hspace : skipWords (min (blankRuns false c) 7 + 1)
      (32 :: 40 :: (c ++ 41 :: 32 :: r.textBehind)) = left :=
    (skipWords_space _ (by rfl) _).trans hleft
  rw [scanStat_some, scanf, parse_procStatFmt, hstat]
  simp only
  rw [scan_convert hpid, scan_skips _ _ (by rw [hspace]; exact hne), hspace]
  rfl

theorem ShortName.skip {c : CString} (hc : ShortName c) (r : StatRecord) :
    skipWords (min (blankRuns false c) 7 + 1) (40 :: (c ++ 41 :: 32 :: r.textBehind))
      = if blankRuns false c ≤ 7 then r.textBehind else 41 :: 32 :: r.textBehind := by
  have hword : ∀ b ∈ [(40 : UInt8)], isSpace b = false := by simp [isSpace]
  have hskip := (skipWords_blankRuns c).1 [40] (by simp) hword
  by_cases hruns : blankRuns false c ≤ 7
  · -- one word more than runs: the last word with its parenthesis
    have hlast : ∀ b ∈ lastWord [40] c ++ [41], isSpace b = false := by
      intro b hb
      rcases List.mem_append.mp hb with hb | hb
      · exact lastWord_noSpace c hword b hb
      · rw [List.mem_singleton.mp hb]
        rfl
    have hbehind := skipWords_word 0 (by simp) hlast (by rfl : isSpace 32 = true) r.textBehind
    rw [if_pos hruns, Nat.min_eq_left hruns]
    have h := hskip 1 (41 :: 32 :: r.textBehind)
    rw [List.singleton_append] at h
    have hstay : skipSpaces r.textBehind = r.textBehind := skipSpaces_stay r.state_not_space _
    rw [List.append_assoc, skipWords, hstay] at hbehind
    exact h.trans hbehind
  · -- a word less than needed: the name ends with the eighth run, and the parenthesis is left
    have hle := (blankRuns_le c).1 [40]
    have hlen := hc.length
    have height : blankRuns false c = 8 := by omega
    have hnil : lastWord [40] c = [] := by
      apply List.length_eq_zero_iff.mp
      omega
    have h := hskip 0 (41 :: 32 :: r.textBehind)
    rw [height, hnil, List.singleton_append] at h
    rw [if_neg hruns, height]
    exact h

theorem returned_of_ne_nil {result : List Value × Stop × List UInt8} (h : result.1 ≠ []) :
    returned result = result.1.length := by
  rw [returned, if_neg]
  exact fun hnil => h hnil.1

theorem scanStat_complete {c : CString} {stat : Stream}
    (h : 10 ≤ (scanStat (some c) stat).values.length) : (scanStat (some c) stat).complete = true := by
  rw [scanStat_some] at h
  rw [scanStat_some_complete]
  have hne : (scanf (procStatFmt c) stat.bytes).1 ≠ [] := by
    intro hnil
    rw [hnil] at h
    simp at h
  rw [decide_eq_true_eq, returned_of_ne_nil hne]
  omega

theorem ShortName.aligns {c : CString} (hc : ShortName c) (hruns : blankRuns false c ≤ 7)
    (r : StatRecord) : AlignsRecord c r := by
  intro comm stat hcomm hstat
  have hskip := hc.skip r
  rw [if_pos hruns] at hskip
  have hvalues : (scanStat (some c) stat).values = r.values := by
    rw [scanStat_values hstat (by simp [StatRecord.textBehind]) hskip, r.scan_textBehind,
      r.fields_stored]
    rfl
  refine ⟨c, hc.readComm hcomm, hvalues, scanStat_complete ?_⟩
  rw [hvalues]
  exact le_rfl

/-- With eight runs the letter that is read for the state is the closing parenthesis. -/
theorem ShortName.misaligns {c : CString} (hc : ShortName c) (hruns : ¬ blankRuns false c ≤ 7)
    (r : StatRecord) : ¬ AlignsRecord c r := by
  intro h
  have hskip := hc.skip r
  obtain ⟨name, hname, hvalues, -⟩ := h ⟨c ++ [10], none⟩ ⟨r.text c, none⟩ (.inl rfl) rfl
  rw [hc.readComm (.inl rfl)] at hname
  cases hname
  rw [if_neg hruns] at hskip
  have hparen : convert .c none (41 :: 32 :: r.textBehind) = .ok (.byte 41, 32 :: r.textBehind) := rfl
  rw [scanStat_values rfl (by simp) hskip, scan_convert hparen, StatRecord.values] at hvalues
  simp only [Bool.false_eq_true, if_false, List.cons.injEq, Value.byte.injEq] at hvalues
  exact r.state_ne_paren hvalues.2.1.symm

/-- A record is read as it is if and only if the name has at most seven runs of white space. -/
theorem alignsRecord_iff (c : CString) (hc : CommName c) (r : StatRecord) :
    AlignsRecord c r ↔ blankRuns false c ≤ 7 := by
  constructor
  · intro h
    by_contra hruns
    exact hc.toShortName.misaligns hruns r h
  · intro hruns
    exact hc.toShortName.aligns hruns r

def StatRecord.started : StatRecord where
  pid := 1
  state := 83
  ppid := 0
  pgrp := 1
  session := 1
  ttyNr := 0
  tpgid := -1
  flags := 4194560
  minflt := 0
  cminflt := 0
  majflt := 0
  cmajflt := 0
  utime := 2
  stime := 3
  cutime := 0
  cstime := 0
  priority := 20
  nice := 0
  numThreads := 1
  itrealvalue := 0
  starttime := 5
  vsize := 4096
  rss := 7
  behind := [0]
  letter := by decide
  ints := by decide
  longs := by decide

/-- The name `tmux: server`. -/
theorem alignsRecord_tmux :
    AlignsRecord (bytes "tmux: server") .started :=
  (alignsRecord_iff _ ⟨⟨by decide, by decide, by decide⟩, by decide, by decide⟩ .started).mpr (by decide)

/-- Seven letters with blanks around each of them are a name of 15 bytes. -/
theorem not_alignsRecord_blanks :
    CommName (bytes " a a a a a a a ") ∧ ¬ AlignsRecord (bytes " a a a a a a a ") .started := by
  have hc : CommName (bytes " a a a a a a a ") :=
    ⟨⟨by decide, by decide, by decide⟩, by decide, by decide⟩
  exact ⟨hc, hc.toShortName.misaligns (by decide) .started⟩

end Statgrab.Process
