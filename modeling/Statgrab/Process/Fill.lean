import Statgrab.Process.StatLine

/-!
# Filling one item

The files of a process say everything about its item: `listing` collects what is read of them, and
`Listing.Says` what the fields of an item have to be for it. `fillProcess_run` shows that the part of the
loop that works on the item of the next process leaves such an item there, or one without a title that the
next pid can use; the only fields that may keep what the item held before are the ones `sscanf` found no
number for.
-/

namespace Statgrab.Process

open Text Scanf

/-! ### What the files say -/

/-- The line that `sg_f_read_line` finds, and the stream behind it. -/
def readLine (f : Stream) (key : String) : Option (List UInt8) × Stream :=
  lineWithKey (readbufLength + 1) (bytes key) (f.bytes.length + 1) f

/-- The lines of `/proc/PID/status` that are read: those of the ids, and those of the context switches, if
they are there. -/
structure StatusLines where
  uid : List UInt8
  gid : List UInt8
  voluntary : Option (List UInt8)
  involuntary : Option (List UInt8)
  deriving DecidableEq

/-- The lines of a `/proc/PID/status` that has the ids. -/
def statusLines (f : Stream) : Option StatusLines :=
  match readLine f "Uid:" with
  | (none, _) => none
  | (some uid, f) =>
      match readLine f "Gid:" with
      | (none, _) => none
      | (some gid, f) =>
          let voluntary := readLine f "voluntary_ctxt_switches:"
          some ⟨uid, gid, voluntary.1, (readLine voluntary.2 "nonvoluntary_ctxt_switches:").1⟩

/-- The name in `/proc/PID/comm`, if it can be opened. There is no answer where it has no line. -/
def nameFrom (comm : Option Stream) : Option (Option CString) :=
  match readComm comm with
  | .closed => some none
  | .empty => none
  | .name name => some (some name)

def titleFrom (file : CmdlineFile) (name : CString) : CString :=
  if file.chunks = [] then 91 :: (name ++ [93]) else titleOf file.chunks.flatten

structure Listing where
  values : List Value
  readBuf : CString
  lines : StatusLines
  title : CString

/-- The files of a process that is listed: its stat line parses, its status has both lines of ids, and its
command line can be opened and read. -/
def listing (files : ProcessFiles) : Option Listing :=
  match nameFrom files.comm, files.stat, files.status.bind statusLines, files.cmdline with
  | some name, some stat, some lines, some cmdline =>
      let scan := scanStat name stat
      if scan.complete ∧ cmdline.fails = false then
        some ⟨scan.values, scan.readBuf, lines, titleFrom cmdline (procName scan.readBuf)⟩
      else none
  | _, _, _, _ => none

/-- The formats of the lines of `/proc/PID/status`. -/
def uidFmt : String := "Uid:\t%u\t%u\t%*d\t%*d\n"

@[inherit_doc uidFmt]
def gidFmt : String := "Gid:\t%u\t%u\t%*d\t%*d\n"

@[inherit_doc uidFmt]
def voluntaryFmt : String := "voluntary_ctxt_switches:\t%llu"

@[inherit_doc uidFmt]
def involuntaryFmt : String := "nonvoluntary_ctxt_switches:\t%llu"

def idAt (line : List UInt8) (fmt : String) (i : Nat) : Option UInt32 :=
  (numberAt? (sscanf line fmt) i).map fun n => n.toNat.toUInt32

/-- The context switches a line gives: none without the line, and nothing is said by a line without a
number. -/
def switchesIn (line : Option (List UInt8)) (fmt : String) : Option UInt64 :=
  match line with
  | none => some 0
  | some line => (numberAt? (sscanf line fmt) 0).map toULL

/-- Every field of the item is what the files of the process say. -/
structure Listing.Says (src : ProcessSource) (uptime : Int) (l : Listing) (item : ProcessStats) : Prop where
  processName : item.processName = some (procName l.readBuf)
  proctitle : item.proctitle = some l.title
  pid : numberAt? l.values 0 = some item.pid
  parent : numberAt? l.values 2 = some item.parent
  pgid : numberAt? l.values 3 = some item.pgid
  sessid : item.sessid = 0
  uid : idAt l.lines.uid uidFmt 0 = some item.uid
  euid : idAt l.lines.uid uidFmt 1 = some item.euid
  gid : idAt l.lines.gid gidFmt 0 = some item.gid
  egid : idAt l.lines.gid gidFmt 1 = some item.egid
  voluntary : switchesIn l.lines.voluntary voluntaryFmt = some item.voluntaryContextSwitches
  involuntary : switchesIn l.lines.involuntary involuntaryFmt = some item.involuntaryContextSwitches
  switches : item.contextSwitches = item.voluntaryContextSwitches + item.involuntaryContextSwitches
  procSize : (numberAt? l.values 8).map toULL = some item.procSize
  procResident : (numberAt? l.values 9).map (fun n => (toULL n + 3) * src.pageSize.toUInt64)
    = some item.procResident
  times : item.storeTimes src uptime l.values = item
  nice : numberAt? l.values 6 = some item.nice
  state : item.state = stateOf (byteAt l.values 1)
  systime : item.systime = src.now

def StatusLines.Ids (lines : StatusLines) : Prop :=
  (∀ i < 2, (idAt lines.uid uidFmt i).isSome) ∧ ∀ i < 2, (idAt lines.gid gidFmt i).isSome

/-- The lines of the context switches that are there have a number. -/
def StatusLines.Switches (lines : StatusLines) : Prop :=
  (switchesIn lines.voluntary voluntaryFmt).isSome ∧ (switchesIn lines.involuntary involuntaryFmt).isSome

structure ProcessStats.Blank (item : ProcessStats) : Prop where
  proctitle : item.proctitle = none
  sessid : item.sessid = 0

/-! ### The numbers of a stat line -/

/-- The kinds of the values that are stored of a stat line. -/
def statShapes : List Shape :=
  [.number, .byte, .number, .number, .number, .number, .number, .number, .number, .number]

theorem shapes_skips : ∀ k < 9, shapes (skips k) = [] := by decide

theorem shapes_append (ds es : List Directive) : shapes (ds ++ es) = shapes ds ++ shapes es :=
  List.filterMap_append

theorem length_of_returned {result : List Value × Stop × List UInt8} {n : Nat}
    (h : (n : Int) ≤ returned result) : n ≤ result.1.length := by
  rw [returned] at h
  split at h
  · omega
  · omega

theorem scanf_shapes {fmt : List UInt8} {ds : List Directive} (hparse : parse none fmt = some ds)
    (input : List UInt8) : (scanf fmt input).1.map Value.shape <+: shapes ds := by
  rw [scanf, hparse]
  exact scan_shapes ds input

theorem shapes_procStatFmt (name : CString) :
    shapes (.convert false none .d :: .space :: (skips (min (blankRuns false name) 7 + 1) ++
      .convert false none .c :: (fieldDirectives ++ silentDirectives))) = statShapes := by
  have hcons : ∀ ds, shapes (.convert false none .d :: .space :: ds) = .number :: shapes ds :=
    fun _ => rfl
  rw [hcons, shapes_append, shapes_skips _ (by omega)]
  decide

/-- A scan that stored everything has a value for each conversion. -/
theorem scanStat_shapes {name : Option CString} {stat : Stream}
    (h : (scanStat name stat).complete = true) :
    (scanStat name stat).values.map Value.shape = statShapes := by
  cases name with
  | some name =>
      have hprefix := scanf_shapes (parse_procStatFmt name) stat.bytes
      rw [shapes_procStatFmt] at hprefix
      rw [scanStat_some]
      rw [scanStat_some_complete, decide_eq_true_eq] at h
      apply hprefix.eq_of_length_le
      rw [List.length_map]
      exact length_of_returned h
  | none =>
      have hprefix := scanf_shapes parse_procStatFmtDefault stat.bytes
      rw [scanStat_none_complete, decide_eq_true_eq] at h
      have hall := hprefix.eq_of_length_le (by
        rw [List.length_map]
        exact length_of_returned h)
      rw [scanStat_none, List.eraseIdx_eq_take_drop_succ, List.map_append, List.map_take,
        List.map_drop, hall]
      decide

theorem numberAt?_isSome {values : List Value} (h : values.map Value.shape = statShapes) {i : Nat}
    (hi : statShapes[i]? = some .number) : ∃ n, numberAt? values i = some n := by
  rw [← h, List.getElem?_map] at hi
  cases hv : values[i]? with
  | none =>
      rw [hv] at hi
      cases hi
  | some v =>
      rw [hv] at hi
      cases v with
      | number n => exact ⟨n, by rw [numberAt?, hv]⟩
      | byte b => cases hi
      | text s => cases hi

/-! ### What the code stores -/

theorem sgFReadLine_run (f : Stream) (key : String) (t : Thread) :
    ∃ t', sgFReadLine (readbufLength + 1) f key t = .ok (readLine f key, t') ∧ t'.mem = t.mem := by
  rw [sgFReadLine, ← readLine]
  cases (readLine f key).1 with
  | some line => exact ⟨t, rfl, rfl⟩
  | none =>
      cases f.failure with
      | none => exact ⟨t, rfl, rfl⟩
      | some errno => exact ⟨_, rfl, rfl⟩

theorem readSwitches_run (f : Stream) (key fmt : String) (old : UInt64) (t : Thread) :
    ∃ t', readSwitches f key fmt old t
        = .ok (((switchesIn (readLine f key).1 fmt).getD old, (readLine f key).2), t') ∧
      t'.mem = t.mem := by
  obtain ⟨t', hrun, hmem⟩ := sgFReadLine_run f key t
  refine ⟨t', ?_, hmem⟩
  rw [readSwitches, Prog.bind_of_ok hrun]
  cases hline : (readLine f key).1 with
  | none =>
      simp only [hline]
      rfl
  | some line =>
      simp only [hline]
      rfl

/-- The fields that are stored for the lines of `/proc/PID/status`. -/
def ProcessStats.storeLines (item : ProcessStats) (lines : StatusLines) : ProcessStats :=
  let voluntary := (switchesIn lines.voluntary voluntaryFmt).getD item.voluntaryContextSwitches
  let involuntary := (switchesIn lines.involuntary involuntaryFmt).getD item.involuntaryContextSwitches
  { item with
    uid := (idAt lines.uid uidFmt 0).getD item.uid
    euid := (idAt lines.uid uidFmt 1).getD item.euid
    gid := (idAt lines.gid gidFmt 0).getD item.gid
    egid := (idAt lines.gid gidFmt 1).getD item.egid
    voluntaryContextSwitches := voluntary
    involuntaryContextSwitches := involuntary
    contextSwitches := voluntary + involuntary }

theorem fillStatus_run (f : Stream) (item : ProcessStats) (t : Thread) :
    ∃ found item' t', fillStatus f item t = .ok ((found, item'), t') ∧ t'.mem = t.mem ∧
      match statusLines f with
      | none => found = false ∧ item'.processName = item.processName ∧
          item'.proctitle = item.proctitle ∧ item'.sessid = item.sessid
      | some lines => found = true ∧ item' = item.storeLines lines := by
  obtain ⟨t1, huid, hmem1⟩ := sgFReadLine_run f "Uid:" t
  rw [fillStatus, Prog.bind_of_ok huid, statusLines]
  obtain ⟨uid, f1⟩ := readLine f "Uid:"
  cases uid with
  | none => exact ⟨false, item, t1, rfl, hmem1, rfl, rfl, rfl, rfl⟩
  | some uid =>
      obtain ⟨t2, hgid, hmem2⟩ := sgFReadLine_run f1 "Gid:" t1
      simp only
      rw [Prog.bind_of_ok hgid]
      obtain ⟨gid, f2⟩ := readLine f1 "Gid:"
      cases gid with
      | none => exact ⟨false, _, t2, rfl, hmem2.trans hmem1, rfl, rfl, rfl, rfl⟩
      | some gid =>
          simp only
          obtain ⟨t3, hvol, hmem3⟩ := readSwitches_run f2 "voluntary_ctxt_switches:" voluntaryFmt
            item.voluntaryContextSwitches t2
          obtain ⟨t4, hinvol, hmem4⟩ := readSwitches_run
            (readLine f2 "voluntary_ctxt_switches:").2 "nonvoluntary_ctxt_switches:" involuntaryFmt
            item.involuntaryContextSwitches t3
          refine ⟨true, _, t4, ?_, hmem4.trans (hmem3.trans (hmem2.trans hmem1)), rfl, rfl⟩
          rw [show "voluntary_ctxt_switches:\t%llu" = voluntaryFmt from rfl,
            show "nonvoluntary_ctxt_switches:\t%llu" = involuntaryFmt from rfl,
            Prog.bind_of_ok hvol]
          simp only
          rw [Prog.bind_of_ok hinvol]
          rfl

@[simp] theorem asprintf_run (text : CString) (t : Thread) :
    asprintf text t = .ok (if t.mem 0 then some text else none, t.answered) := rfl

theorem fillTitle_run (src : ProcessSource) (file : CmdlineFile) {item : ProcessStats} {name : CString}
    (htitle : item.proctitle = none) (hname : item.processName = some name) {t : Thread}
    (hplenty : t.Plenty) :
    ∃ t', t'.Plenty ∧ fillTitle src file item t =
      if file.fails then .ok ((.skipped, item), t')
      else .ok ((.filled, { item with proctitle := some (titleFrom file name), systime := src.now }), t') := by
  have hsame : { item with proctitle := none } = item := by
    rw [← htitle]
  have hnone : item.proctitle.map (· ++ [0]) = none := by
    rw [htitle]
    rfl
  rcases readCmdline_cases src.raw file t with ⟨read, t', hrun, houtcome, -, hplenty'⟩ | ⟨t', -, -, hnot⟩
  · rw [fillTitle, hnone, Prog.bind_of_ok hrun]
    rw [CmdlineFile.outcome] at houtcome
    by_cases hfails : file.fails = true
    · rw [if_pos hfails] at houtcome
      subst houtcome
      refine ⟨t', hplenty' hplenty, ?_⟩
      rw [if_pos hfails]
      simp only [hsame]
      rfl
    · rw [if_neg hfails] at houtcome
      rw [titleFrom]
      by_cases hchunks : file.chunks = []
      · rw [if_pos hchunks] at houtcome
        subst houtcome
        refine ⟨t'.answered, (hplenty' hplenty).answered, ?_⟩
        simp only [hname]
        rw [Prog.bind_of_ok (asprintf_run _ t'), hplenty' hplenty 0, if_neg hfails, if_pos hchunks]
        rfl
      · rw [if_neg hchunks] at houtcome
        obtain ⟨block, rfl, -, hcstr⟩ := houtcome
        refine ⟨t', hplenty' hplenty, ?_⟩
        simp only [hcstr, hname]
        rw [if_neg hfails, if_neg hchunks]
        rfl
  · exact absurd hplenty hnot

def Listing.item (src : ProcessSource) (uptime : Int) (l : Listing) (old : ProcessStats) : ProcessStats :=
  let item := (old.storeStat l.values).storeState src l.values
  let item := { item with processName := some (procName l.readBuf) }
  { (item.storeTimes src uptime l.values).storeLines l.lines with
    proctitle := some l.title, systime := src.now }

/-- The part of the loop behind `/proc/PID/stat`. -/
theorem fillRest_run (src : ProcessSource) (files : ProcessFiles) {item : ProcessStats} {name : CString}
    (hblank : item.Blank) (hname : item.processName = some name) {t : Thread} (hplenty : t.Plenty) :
    ∃ fill item' t', fillRest src files item t = .ok ((fill, item'), t') ∧ t'.Plenty ∧
      item'.processName = some name ∧
      match files.status.bind statusLines, files.cmdline with
      | some lines, some file =>
          if file.fails then fill = .skipped ∧ item'.Blank
          else fill = .filled ∧ item' = { item.storeLines lines with
            proctitle := some (titleFrom file name), systime := src.now }
      | _, _ => fill = .skipped ∧ item'.Blank := by
  rw [fillRest]
  cases files.status with
  | none => exact ⟨.skipped, item, t, rfl, hplenty, hname, rfl, hblank⟩
  | some f =>
      obtain ⟨found, item1, t1, hrun, hmem, hlines⟩ := fillStatus_run f item t
      have hplenty1 : t1.Plenty := fun n => by rw [hmem]; exact hplenty n
      simp only [Option.bind_some]
      rw [Prog.bind_of_ok hrun]
      cases hstatus : statusLines f with
      | none =>
          rw [hstatus] at hlines
          obtain ⟨rfl, hname', htitle, hsessid⟩ := hlines
          exact ⟨.skipped, item1, t1, rfl, hplenty1, hname'.trans hname, rfl,
            htitle.trans hblank.proctitle, hsessid.trans hblank.sessid⟩
      | some lines =>
          rw [hstatus] at hlines
          obtain ⟨rfl, rfl⟩ := hlines
          cases files.cmdline with
          | none => exact ⟨.skipped, _, t1, rfl, hplenty1, hname, rfl, hblank.proctitle, hblank.sessid⟩
          | some file =>
              obtain ⟨t2, hplenty2, hfill⟩ := @fillTitle_run src file (item.storeLines lines) name
                hblank.proctitle hname t1 hplenty1
              simp only [if_true]
              rw [hfill]
              by_cases hfails : file.fails = true
              · rw [if_pos hfails]
                exact ⟨.skipped, _, t2, rfl, hplenty2, hname, by
                  rw [if_pos hfails]
                  exact ⟨rfl, hblank.proctitle, hblank.sessid⟩⟩
              · rw [if_neg hfails]
                exact ⟨.filled, _, t2, rfl, hplenty2, hname, by
                  rw [if_neg hfails]
                  exact ⟨rfl, rfl⟩⟩

/-- The part of the loop that works on an item. -/
theorem fillProcess_run (src : ProcessSource) (uptime : Int) {files : ProcessFiles}
    {name : Option CString} {stat : Stream} (hname : nameFrom files.comm = some name)
    (hstat : files.stat = some stat) {item : ProcessStats} (hblank : item.Blank) {t : Thread}
    (hplenty : t.Plenty) :
    ∃ fill item' t', fillProcess src uptime files name stat item t = .ok ((fill, item'), t') ∧
      t'.Plenty ∧
      ((scanStat name stat).complete = true →
        item'.processName = some (procName (scanStat name stat).readBuf)) ∧
      match listing files with
      | none => fill = .skipped ∧ item'.Blank
      | some l => fill = .filled ∧ item' = l.item src uptime item := by
  rw [fillProcess, listing, hname, hstat]
  by_cases hcomplete : (scanStat name stat).complete = true
  · rcases sgUpdateString_cases
        ((item.storeStat (scanStat name stat).values).storeState src (scanStat name stat).values).processName
        (some (procName (scanStat name stat).readBuf)) t with
      ⟨t1, hrun, -, hplenty1⟩ | ⟨t1, -, -, hnot⟩
    · have hblank1 : (({ (item.storeStat (scanStat name stat).values).storeState src
          (scanStat name stat).values with
          processName := some (procName (scanStat name stat).readBuf) } : ProcessStats).storeTimes src uptime
          (scanStat name stat).values).Blank :=
        ⟨hblank.proctitle, hblank.sessid⟩
      obtain ⟨fill, item', t2, hrest, hplenty2, hname2, hfill⟩ := fillRest_run src files hblank1
        rfl (hplenty1 hplenty)
      refine ⟨fill, item', t2, ?_, hplenty2, fun _ => hname2, ?_⟩
      · simp only [hcomplete, if_true]
        rw [Prog.bind_of_ok hrun]
        simp only [if_true]
        exact hrest
      · cases hlines : files.status.bind statusLines with
        | none =>
            rw [hlines] at hfill
            exact hfill
        | some lines =>
            cases hcmdline : files.cmdline with
            | none =>
                rw [hlines, hcmdline] at hfill
                exact hfill
            | some file =>
                rw [hlines, hcmdline] at hfill
                simp only at hfill ⊢
                by_cases hfails : file.fails = true
                · rw [if_pos hfails] at hfill
                  rw [if_neg (by simp [hfails])]
                  exact hfill
                · rw [if_neg hfails] at hfill
                  rw [if_pos ⟨hcomplete, by simpa using hfails⟩]
                  exact hfill
    · exact absurd hplenty hnot
  · refine ⟨.skipped, item.storeStat (scanStat name stat).values, t, ?_, hplenty,
      fun h => absurd h hcomplete, ?_⟩
    · simp only [hcomplete, Bool.false_eq_true, if_false]
      rfl
    · have hblank1 : (item.storeStat (scanStat name stat).values).Blank :=
        ⟨hblank.proctitle, hblank.sessid⟩
      cases files.status.bind statusLines with
      | none => exact ⟨rfl, hblank1⟩
      | some lines =>
          cases files.cmdline with
          | none => exact ⟨rfl, hblank1⟩
          | some file =>
              simp only
              rw [if_neg (fun h => hcomplete h.1)]
              exact ⟨trivial, hblank1⟩

theorem listing_lines {files : ProcessFiles} {l : Listing} (h : listing files = some l) :
    files.status.bind statusLines = some l.lines := by
  rw [listing] at h
  split at h
  · rename_i hlines _
    simp only at h
    split at h
    · cases h
      exact hlines
    · cases h
  · cases h

theorem listing_shapes {files : ProcessFiles} {l : Listing} (h : listing files = some l) :
    l.values.map Value.shape = statShapes := by
  rw [listing] at h
  split at h
  · simp only at h
    split at h
    · rename_i hcomplete
      cases h
      exact scanStat_shapes hcomplete.1
    · cases h
  · cases h

theorem eq_some_getD {α : Type} {x : Option α} (h : x.isSome) (d : α) : x = some (x.getD d) := by
  obtain ⟨a, rfl⟩ := Option.isSome_iff_exists.mp h
  rfl

theorem Listing.says_of_numbers (src : ProcessSource) (uptime : Int) {l : Listing}
    (hshapes : l.values.map Value.shape = statShapes) (hids : l.lines.Ids)
    (hswitches : l.lines.Switches) {old : ProcessStats} (hblank : old.Blank) :
    l.Says src uptime (l.item src uptime old) := by
  have hnumber : ∀ i, statShapes[i]? = some .number → (numberAt? l.values i).isSome := by
    intro i hi
    obtain ⟨n, hn⟩ := numberAt?_isSome hshapes hi
    rw [hn]
    rfl
  exact
    { processName := rfl
      proctitle := rfl
      pid := eq_some_getD (hnumber 0 rfl) _
      parent := eq_some_getD (hnumber 2 rfl) _
      pgid := eq_some_getD (hnumber 3 rfl) _
      sessid := hblank.sessid
      uid := eq_some_getD (hids.1 0 (by omega)) _
      euid := eq_some_getD (hids.1 1 (by omega)) _
      gid := eq_some_getD (hids.2 0 (by omega)) _
      egid := eq_some_getD (hids.2 1 (by omega)) _
      voluntary := eq_some_getD hswitches.1 _
      involuntary := eq_some_getD hswitches.2 _
      switches := rfl
      procSize := by
        refine eq_some_getD ?_ _
        rw [Option.isSome_map]
        exact hnumber 8 rfl
      procResident := by
        obtain ⟨n, hn⟩ := Option.isSome_iff_exists.mp (hnumber 9 rfl)
        show (numberAt? l.values 9).map _
          = some ((((numberAt? l.values 9).map toULL).getD _ + 3) * src.pageSize.toUInt64)
        rw [hn]
        rfl
      times := rfl
      nice := eq_some_getD (hnumber 6 rfl) _
      state := rfl
      systime := rfl }

theorem Listing.Says.numbers {src : ProcessSource} {uptime : Int} {l : Listing} {item : ProcessStats}
    (h : l.Says src uptime item) : l.lines.Switches :=
  ⟨by rw [h.voluntary]; rfl, by rw [h.involuntary]; rfl⟩

/-! ### The name that is stored -/

/-- A name without white space. -/
structure PlainName (c : CString) : Prop extends ShortName c where
  nul : 0 ∉ c
  space : ∀ b ∈ c, isSpace b = false

/-- The process has this name: `/proc/PID/stat` has it in parentheses, and so has `/proc/PID/comm` where it
can be opened. -/
def HasName (files : ProcessFiles) (c : CString) : Prop :=
  (∃ (stat : Stream) (r : StatRecord), files.stat = some stat ∧ stat.bytes = r.text c) ∧
    ∀ comm, files.comm = some comm → HoldsName comm c

/-- Whether or not `/proc/PID/comm` can be opened, the name that is stored for the process is this one. -/
def StoresName (c : CString) : Prop :=
  ∀ (src : ProcessSource) (uptime : Int) (files : ProcessFiles) (item : ProcessStats) (t : Thread),
    HasName files c → item.Blank → t.Plenty →
    ∃ name stat fill item' t', nameFrom files.comm = some name ∧ files.stat = some stat ∧
      fillProcess src uptime files name stat item t = .ok ((fill, item'), t') ∧
      item'.processName = some c

theorem blankRuns_eq_zero {text : List UInt8} (h : ∀ b ∈ text, isSpace b = false) (blank : Bool) :
    blankRuns blank text = 0 := by
  induction text generalizing blank with
  | nil => rfl
  | cons b text ih =>
      rw [blankRuns, if_neg (by simp [h b List.mem_cons_self])]
      exact ih (fun c hc => h c (List.mem_cons_of_mem b hc)) false

/-- Without `/proc/PID/comm` the buffer holds the name in its parentheses. -/
theorem scanStat_default {c : CString} (hc : PlainName c) {stat : Stream} {r : StatRecord}
    (hstat : stat.bytes = r.text c) :
    (scanStat none stat).readBuf = 40 :: (c ++ [41]) ∧ (scanStat none stat).complete = true := by
  have hpid : convert .d none (r.text c)
      = .ok (.number r.pid, 32 :: 40 :: (c ++ 41 :: 32 :: r.textBehind)) := r.convert_pid c
  have hword : ∀ b ∈ 40 :: (c ++ [41]), isSpace b = false := by
    intro b hb
    rw [List.mem_cons, List.mem_append, List.mem_singleton] at hb
    rcases hb with rfl | hb | rfl
    · rfl
    · exact hc.space b hb
    · rfl
  have hname : convert .s (some 4095) (40 :: (c ++ 41 :: 32 :: r.textBehind))
      = .ok (.text (40 :: (c ++ [41])), 32 :: r.textBehind) := by
    have hlen := hc.length
    have h := convert_word (by simp) hword (w := 4095) (by simp; omega) (by rfl : isSpace 32 = true)
      r.textBehind
    simpa using h
  have hspace : ∀ b text, isSpace b = false → skipSpaces (32 :: b :: text) = b :: text := by
    intro b text hb
    rw [skipSpaces_space (by rfl), skipSpaces_stay hb]
  have hvalues : (scanf procStatFmtDefault stat.bytes).1
      = .number r.pid :: .text (40 :: (c ++ [41])) :: .byte r.state ::
          r.fields.filterMap Field.stored := by
    rw [scanf, parse_procStatFmtDefault, hstat]
    simp only
    rw [scan_convert hpid, scan_space, hspace 40 _ (by rfl), scan_convert hname, scan_space,
      show skipSpaces (32 :: r.textBehind) = r.textBehind from hspace _ _ r.state_not_space,
      ← r.scan_textBehind]
    rfl
  constructor
  · rw [scanStat]
    simp only
    rw [hvalues]
    rfl
  · rw [scanStat_none_complete, returned_of_ne_nil (by rw [hvalues]; simp), hvalues, r.fields_stored]
    rfl

theorem procName_bare {c : CString} (hparen : 41 ∉ c) : procName c = c := by
  rw [procName, strchr, if_neg (fun h => hparen (List.mem_of_mem_drop h))]
  rfl

theorem procName_enclosed (c : CString) :
    procName (40 :: (c ++ [41])) = (c ++ [41]).takeWhile (· ≠ 41) := by
  rw [procName, List.drop_succ_cons, List.drop_zero, strchr, if_pos (by simp)]
  rfl

theorem takeWhile_paren_iff (c : CString) : (c ++ [41]).takeWhile (· ≠ 41) = c ↔ 41 ∉ c := by
  constructor
  · intro h hmem
    rw [← h] at hmem
    have := List.mem_takeWhile_imp hmem
    simp at this
  · intro hparen
    have hall : ∀ b ∈ c, decide (b ≠ 41) = true := by
      intro b hb
      simp only [decide_eq_true_eq]
      exact fun h => hparen (h ▸ hb)
    rw [List.takeWhile_append_of_pos hall, List.takeWhile_cons_of_neg (by simp), List.append_nil]

theorem HasName.stored {files : ProcessFiles} {c : CString} (hc : PlainName c) (h : HasName files c)
    (src : ProcessSource) (uptime : Int) {item : ProcessStats} (hblank : item.Blank) {t : Thread}
    (hplenty : t.Plenty) :
    ∃ name stat fill item' t', nameFrom files.comm = some name ∧ files.stat = some stat ∧
      fillProcess src uptime files name stat item t = .ok ((fill, item'), t') ∧
      item'.processName = some (procName (if files.comm.isSome then c else 40 :: (c ++ [41]))) := by
  obtain ⟨⟨stat, r, hstat, htext⟩, hcomm⟩ := h
  cases hfile : files.comm with
  | none =>
      have hname : nameFrom files.comm = some none := by
        rw [hfile]
        rfl
      obtain ⟨fill, item', t', hrun, -, hstored, -⟩ :=
        fillProcess_run src uptime hname hstat hblank hplenty
      obtain ⟨hbuf, hcomplete⟩ := scanStat_default hc htext
      refine ⟨none, stat, fill, item', t', rfl, hstat, hrun, ?_⟩
      rw [hstored hcomplete, hbuf]
      rfl
  | some comm =>
      have hread := hc.toShortName.readComm (hcomm comm hfile)
      have hname : nameFrom files.comm = some (some c) := by
        rw [hfile, nameFrom, hread]
      obtain ⟨fill, item', t', hrun, -, hstored, -⟩ :=
        fillProcess_run src uptime hname hstat hblank hplenty
      have hruns : blankRuns false c ≤ 7 := by
        rw [blankRuns_eq_zero hc.space]
        omega
      obtain ⟨name, hname', -, hcomplete⟩ :=
        hc.toShortName.aligns hruns r comm stat (hcomm comm hfile) htext
      rw [hread] at hname'
      cases hname'
      refine ⟨some c, stat, fill, item', t', ?_, hstat, hrun, ?_⟩
      · rw [← hfile, hname]
      · rw [hstored hcomplete, scanStat]
        rfl

def ProcessSource.idle : ProcessSource where
  uptime := .ok (some 1)
  dir := ⟨.ok [], 0⟩
  pageSize := 4096
  files := fun _ => ⟨none, none, none, none, by simp⟩
  now := 0
  tickspersec := 100
  ticks := by decide
  raw := fun _ => 0

def ProcessStats.zero : ProcessStats :=
  ⟨none, none, 0, 0, 0, 0, 0, 0, 0, 0, 0, 0, 0, 0, 0, 0, 0, .plain 0, 0, .running, 0⟩

theorem ProcessStats.zero_blank : ProcessStats.zero.Blank := ⟨rfl, rfl⟩

/-- The files of a process that has a stat line and nothing else. -/
def statOnly (c : CString) : ProcessFiles :=
  ⟨none, some ⟨StatRecord.started.text c, none⟩, none, none, by simp⟩

theorem statOnly_hasName (c : CString) : HasName (statOnly c) c :=
  ⟨⟨_, .started, rfl, rfl⟩, by simp [statOnly]⟩

theorem StoresName.noParen {c : CString} (hc : PlainName c) (h : StoresName c) : 41 ∉ c := by
  have hplenty : Thread.Plenty ⟨.clear, fun _ => true⟩ := fun _ => rfl
  obtain ⟨name, stat, fill, item', t', hname, hstat, hrun, hstored⟩ :=
    h .idle 0 (statOnly c) .zero _ (statOnly_hasName c) ProcessStats.zero_blank hplenty
  obtain ⟨name1, stat1, fill1, item1, t1, hname1, hstat1, hrun1, hstored1⟩ :=
    (statOnly_hasName c).stored hc .idle 0 ProcessStats.zero_blank hplenty
  rw [hname] at hname1
  cases hname1
  rw [hstat] at hstat1
  cases hstat1
  rw [hrun] at hrun1
  cases hrun1
  rw [hstored, Option.some_inj] at hstored1
  have henclosed : procName (40 :: (c ++ [41])) = c := hstored1.symm
  rw [procName_enclosed, takeWhile_paren_iff] at henclosed
  exact henclosed

/-- Both ways to the name store it as it is if and only if there is no closing parenthesis in it. -/
theorem storesName_iff (c : CString) (hc : PlainName c) : StoresName c ↔ 41 ∉ c := by
  constructor
  · exact StoresName.noParen hc
  · intro hparen src uptime files item t hfiles hblank hplenty
    obtain ⟨name, stat, fill, item', t', hname, hstat, hrun, hstored⟩ :=
      hfiles.stored hc src uptime hblank hplenty
    refine ⟨name, stat, fill, item', t', hname, hstat, hrun, hstored.trans ?_⟩
    congr 1
    split
    · exact procName_bare hparen
    · rw [procName_enclosed, takeWhile_paren_iff]
      exact hparen

theorem storesName_sshd : StoresName (bytes "sshd") :=
  (storesName_iff _ ⟨⟨by decide, by decide, by decide⟩, by decide, by decide +kernel⟩).mpr (by decide)

/-- The name `(sd-pam)` is not stored as it is. -/
theorem not_storesName_sd_pam : PlainName (bytes "(sd-pam)") ∧ ¬ StoresName (bytes "(sd-pam)") := by
  have hc : PlainName (bytes "(sd-pam)") := ⟨⟨by decide, by decide, by decide⟩, by decide, by decide +kernel⟩
  refine ⟨hc, ?_⟩
  intro h
  exact h.noParen hc (by decide)

end Statgrab.Process
