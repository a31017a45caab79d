import Mathlib.Data.List.DropRight
import Statgrab.Lib.Block
import Statgrab.Tools

/-!
# The command line of a process

On Linux `/proc/PID/cmdline` holds the arguments of a process, each with a NUL behind it. They are read
into a block that grows with every `read`, and `adjust_procname_cmndline` then turns the NULs between
them into spaces. Its loop looks at the byte behind the current one and stops where that is a NUL: at the
end, but also at an argument of one byte, and before an empty one.
-/

namespace Statgrab

/-- The loop of `adjust_procname_cmndline` from the position `p` on. -/
def adjustLoop (len : Nat) : Nat → Block → Nat → Option (Block × Nat)
  | 0, _, _ => none
  | fuel + 1, buf, p =>
      if (len ≠ 0 ∧ p < len) ∨ len = 0 then do
        let next ← buf[p + 1]?
        if next = 0 then return (buf, p)
        else
          let here ← buf[p]?
          if here = 0 then
            let buf ← buf.store p 32
            adjustLoop len fuel buf (p + 1)
          else
            let n ← buf.strlen p
            adjustLoop len fuel buf (p + n)
      else return (buf, p)

/-- `adjust_procname_cmndline(proctitle, len)` on Linux. Each round moves forward by a byte at least, so
the bytes of the block bound the rounds. -/
def adjustProcnameCmndline (proctitle : Block) (len : Nat) : Option Block := do
  let (buf, p) ← adjustLoop len (proctitle.length + 1) proctitle 0
  if len ≠ 0 then buf.store len 0 else buf.store p 0

/-- What the reads of `/proc/PID/cmdline` deliver: the bytes of each of them, at most the 4096 of
`read_buf`, and whether the last one fails or finds the end of the file. -/
structure CmdlineFile where
  chunks : List (List UInt8)
  fails : Bool
  sized : ∀ chunk ∈ chunks, chunk ≠ [] ∧ chunk.length ≤ 4096

/-- The `do` loop over the reads: the block and the bytes in it, or the code of a failed allocation, after
which there is no block. `raw` is what new memory holds. -/
def readChunks (raw : Nat → UInt8) :
    List (List UInt8) → Option Block → Nat → ThreadM (Except SgError (Option Block × Nat))
  | [], proctitle, len => return .ok (proctitle, len)
  | chunk :: chunks, proctitle, len => do
      let ok ← sgRealloc (len + chunk.length + 1)
      if ok then
        match ((proctitle.getD []).resize raw (len + chunk.length + 1)).memcpy len chunk with
        | none => Prog.fault .outOfBlock
        | some proctitle => readChunks raw chunks (some proctitle) (len + chunk.length)
      else
        let rc ← returnFromPreviousError
        return .error rc

inductive TitleRead where
  /-- An allocation was refused. -/
  | refused (rc : SgError)
  /-- The last read failed. -/
  | unreadable
  /-- Nothing was read. -/
  | empty
  /-- The block, with its arguments joined. -/
  | title (proctitle : Block)

/-- The NUL behind the `len` bytes of a block, and its arguments joined. -/
def finishTitle (proctitle : Block) (len : Nat) : Option Block := do
  let proctitle ← proctitle.store len 0
  adjustProcnameCmndline proctitle len

/-- The part of the process loop that reads `/proc/PID/cmdline`, from the `proctitle` of the item on. -/
def readCmdline (raw : Nat → UInt8) (file : CmdlineFile) (proctitle : Option Block) :
    ThreadM TitleRead := do
  let read ← readChunks raw file.chunks proctitle 0
  match read with
  | .error rc => return .refused rc
  | .ok (proctitle, len) =>
      if file.fails then return .unreadable
      else
        match proctitle with
        | none => return .empty
        | some proctitle =>
            match finishTitle proctitle len with
            | none => Prog.fault .outOfBlock
            | some proctitle => return .title proctitle

/-! ### Where the loop stops -/

/-- What `/proc/PID/cmdline` holds. -/
def cmdlineOf (args : List CString) : List UInt8 := args.flatMap fun a => a ++ [0]

@[simp] theorem cmdlineOf_nil : cmdlineOf [] = [] := rfl

@[simp] theorem cmdlineOf_cons (a : CString) (args : List CString) :
    cmdlineOf (a :: args) = a ++ 0 :: cmdlineOf args := by
  simp [cmdlineOf]

/-- The title the code makes of the arguments. An argument of one byte is the last one, and so is one that
an empty argument follows. -/
def joinedTitle : List CString → CString
  | [] => []
  | a :: rest =>
      if a.length = 1 ∨ rest.head?.getD [] = [] then a else a ++ 32 :: joinedTitle rest

theorem joinedTitle_cut {a : CString} {rest : List CString}
    (h : a.length = 1 ∨ rest.head?.getD [] = []) : joinedTitle (a :: rest) = a := by
  rw [joinedTitle, if_pos h]

theorem joinedTitle_go {a : CString} {rest : List CString} (hone : a.length ≠ 1)
    (hnext : rest.head?.getD [] ≠ []) : joinedTitle (a :: rest) = a ++ 32 :: joinedTitle rest := by
  rw [joinedTitle, if_neg (not_or.mpr ⟨hone, hnext⟩)]

section

variable {len : Nat} {pre : List UInt8}

theorem adjustLoop_stop (hlen : pre.length < len) (fuel : Nat) (b : UInt8) (post : List UInt8) :
    adjustLoop len (fuel + 1) (pre ++ b :: 0 :: post) pre.length
      = some (pre ++ b :: 0 :: post, pre.length) := by
  have hnext : (pre ++ b :: 0 :: post)[pre.length + 1]? = some 0 := by simp
  rw [adjustLoop, if_pos (.inl ⟨by omega, hlen⟩), hnext]
  rfl

theorem adjustLoop_space (hlen : pre.length < len) (fuel : Nat) {b : UInt8} (hb : b ≠ 0)
    (post : List UInt8) :
    adjustLoop len (fuel + 1) (pre ++ 0 :: b :: post) pre.length
      = adjustLoop len fuel (pre ++ [32] ++ b :: post) (pre ++ [32]).length := by
  have hnext : (pre ++ 0 :: b :: post)[pre.length + 1]? = some b := by simp
  rw [adjustLoop, if_pos (.inl ⟨by omega, hlen⟩), hnext, Option.bind_eq_bind, Option.bind_some,
    if_neg hb, Block.getElem?_at, Option.bind_eq_bind, Option.bind_some, if_pos rfl,
    Block.store_at, Option.bind_some]
  simp

theorem adjustLoop_jump (hlen : pre.length < len) (fuel : Nat) {a : CString} (ha : 0 ∉ a)
    (hlong : 2 ≤ a.length) (post : List UInt8) :
    adjustLoop len (fuel + 1) (pre ++ (a ++ 0 :: post)) pre.length
      = adjustLoop len fuel (pre ++ a ++ 0 :: post) (pre ++ a).length := by
  obtain ⟨b, c, text, rfl⟩ : ∃ b c text, a = b :: c :: text := by
    match a, hlong with
    | b :: c :: text, _ => exact ⟨b, c, text, rfl⟩
  have hb : b ≠ 0 := by
    intro h
    simp [h] at ha
  have hc : c ≠ 0 := by
    intro h
    simp [h] at ha
  have hnext : (pre ++ (b :: c :: text ++ 0 :: post))[pre.length + 1]? = some c := by simp
  have hhere : (pre ++ (b :: c :: text ++ 0 :: post))[pre.length]? = some b := by simp
  rw [adjustLoop, if_pos (.inl ⟨by omega, hlen⟩), hnext, Option.bind_eq_bind, Option.bind_some,
    if_neg hc, hhere, Option.bind_eq_bind, Option.bind_some, if_neg hb, Block.strlen_at pre ha,
    Option.bind_eq_bind, Option.bind_some, List.length_append, List.append_assoc]

end

/-- From the start of the arguments on the loop leaves the title, with a NUL behind it. -/
def LoopJoins (len : Nat) (pre : List UInt8) (args : List CString) : Prop :=
  ∀ fuel, (cmdlineOf args).length < fuel →
    ∃ p junk, adjustLoop len fuel (pre ++ (cmdlineOf args ++ [0])) pre.length
        = some (pre ++ (joinedTitle args ++ 0 :: junk), p) ∧
      (joinedTitle args).length + junk.length = (cmdlineOf args).length

theorem loopJoins_nul {len : Nat} {pre : List UInt8} {rest : List CString}
    (hlen : len = pre.length + (cmdlineOf ([] :: rest)).length) (hnul : ∀ a ∈ rest, 0 ∉ a)
    (hnext : rest.head?.getD [] ≠ [] → LoopJoins len (pre ++ [32]) rest) :
    LoopJoins len pre ([] :: rest) := by
  intro fuel hfuel
  obtain ⟨fuel, rfl⟩ : ∃ n, fuel = n + 1 := ⟨fuel - 1, by omega⟩
  have hlt : pre.length < len := by
    simp only [cmdlineOf_cons, List.length_append, List.length_cons] at hlen
    omega
  match rest, hnul, hnext with
  | [], _, _ =>
      rw [joinedTitle_cut (.inr rfl)]
      exact ⟨pre.length, [0], adjustLoop_stop hlt fuel 0 [], rfl⟩
  | [] :: rest, _, _ =>
      rw [joinedTitle_cut (.inr rfl)]
      refine ⟨pre.length, 0 :: (cmdlineOf rest ++ [0]), ?_, ?_⟩
      · simpa using adjustLoop_stop hlt fuel 0 (cmdlineOf rest ++ [0])
      · simp
  | (b :: text) :: rest, hnul, hnext =>
      have hb : b ≠ 0 := by
        intro h
        have := hnul (b :: text) List.mem_cons_self
        simp [h] at this
      obtain ⟨p, junk, hrun, hcount⟩ := hnext (by simp) fuel (by
        simp only [cmdlineOf_cons, List.length_append, List.length_cons] at hfuel ⊢
        omega)
      rw [joinedTitle_go (by simp) (by simp)]
      refine ⟨p, junk, ?_, ?_⟩
      · have hstep := adjustLoop_space hlt fuel hb (text ++ 0 :: (cmdlineOf rest ++ [0]))
        simp only [cmdlineOf_cons, List.nil_append, List.cons_append, List.append_assoc] at hstep hrun ⊢
        rw [hstep, hrun]
      · rw [cmdlineOf_cons, List.nil_append, List.nil_append, List.length_cons, List.length_cons,
          ← hcount]
        omega

/-- The loop at the start of an argument, given what it does at the NUL behind it. -/
theorem loopJoins_arg {len : Nat} {pre : List UInt8} {a : CString} {rest : List CString}
    (hlen : len = pre.length + (cmdlineOf (a :: rest)).length) (ha : 0 ∉ a)
    (hnul : LoopJoins len (pre ++ a) ([] :: rest)) (hne : a ≠ []) : LoopJoins len pre (a :: rest) := by
  intro fuel hfuel
  obtain ⟨fuel, rfl⟩ : ∃ n, fuel = n + 1 := ⟨fuel - 1, by omega⟩
  rw [cmdlineOf_cons, List.length_append, List.length_cons] at hlen hfuel
  have hpos := List.length_pos_iff.mpr hne
  by_cases hone : a.length = 1
  · obtain ⟨b, rfl⟩ := List.length_eq_one_iff.mp hone
    rw [joinedTitle_cut (.inl hone)]
    refine ⟨pre.length, cmdlineOf rest ++ [0], ?_, ?_⟩
    · simpa using adjustLoop_stop (by omega) fuel b (cmdlineOf rest ++ [0])
    · simp only [cmdlineOf_cons, List.length_append, List.length_cons, List.length_nil]
  · obtain ⟨p, junk, hrun, hcount⟩ := hnul fuel (by
      simp only [cmdlineOf_cons, List.nil_append, List.length_cons]
      omega)
    have htitle : joinedTitle (a :: rest) = a ++ joinedTitle ([] :: rest) := by
      by_cases hnext : rest.head?.getD [] = []
      · rw [joinedTitle_cut (.inr hnext), joinedTitle_cut (.inr hnext), List.append_nil]
      · rw [joinedTitle_go hone hnext, joinedTitle_go (by simp) hnext, List.nil_append]
    rw [htitle]
    refine ⟨p, junk, ?_, ?_⟩
    · have hstep := @adjustLoop_jump len pre (by omega) fuel a ha (by omega)
        (cmdlineOf rest ++ [0])
      simp only [cmdlineOf_cons, List.nil_append, List.cons_append, List.append_assoc] at hstep hrun ⊢
      rw [hstep, hrun]
    · rw [cmdlineOf_cons, List.length_append, List.length_append, Nat.add_assoc, hcount,
        cmdlineOf_cons, List.nil_append]

theorem loopJoins {len : Nat} (args : List CString) (hnul : ∀ a ∈ args, 0 ∉ a) (hne : args ≠ [])
    (pre : List UInt8) (hlen : len = pre.length + (cmdlineOf args).length) :
    LoopJoins len pre args := by
  induction args generalizing pre with
  | nil => exact absurd rfl hne
  | cons a rest ih =>
      have hrest : ∀ b ∈ rest, 0 ∉ b := fun b hb => hnul b (List.mem_cons_of_mem a hb)
      have hbehind : ∀ pre : List UInt8, len = pre.length + (cmdlineOf ([] :: rest)).length →
          LoopJoins len pre ([] :: rest) := by
        intro pre hlen
        apply loopJoins_nul hlen hrest
        intro hnext
        apply ih hrest
        · intro hnil
          exact hnext (by rw [hnil]; rfl)
        · rw [hlen, cmdlineOf_cons, List.nil_append, List.length_cons, List.length_append]
          simp only [List.length_cons, List.length_nil]
          omega
      by_cases ha : a = []
      · subst ha
        exact hbehind pre hlen
      · refine loopJoins_arg hlen (hnul a List.mem_cons_self) (hbehind (pre ++ a) ?_) ha
        rw [hlen, cmdlineOf_cons, cmdlineOf_cons, List.length_append, List.length_append,
          List.nil_append, Nat.add_assoc]

theorem joinedTitle_noNul {args : List CString} (hnul : ∀ a ∈ args, 0 ∉ a) : 0 ∉ joinedTitle args := by
  induction args with
  | nil => exact List.not_mem_nil
  | cons a rest ih =>
      have ha := hnul a List.mem_cons_self
      rw [joinedTitle]
      split
      · exact ha
      · rw [List.mem_append, List.mem_cons]
        rintro (h | h | h)
        · exact ha h
        · exact absurd h (by decide)
        · exact ih (fun b hb => hnul b (List.mem_cons_of_mem a hb)) h

/-- Whatever the bytes are, the loop stays inside the block. -/
theorem adjustLoop_inside {len : Nat} (fuel : Nat) (buf : Block) (p : Nat) (hlen : buf.length = len + 1)
    (hlast : buf[len]? = some 0) (hp : p ≤ len) (hpos : len ≠ 0) (hfuel : len - p < fuel) :
    ∃ buf' p', adjustLoop len fuel buf p = some (buf', p') ∧ buf'.length = len + 1 := by
  induction fuel generalizing buf p with
  | zero => omega
  | succ fuel ih =>
      rw [adjustLoop]
      by_cases hend : p < len
      · have hnext : buf[p + 1]? = some (buf[p + 1]) := List.getElem?_eq_getElem (by omega)
        have hhere : buf[p]? = some (buf[p]) := List.getElem?_eq_getElem (by omega)
        rw [if_pos (.inl ⟨hpos, hend⟩), hnext, Option.bind_eq_bind, Option.bind_some]
        split
        · exact ⟨buf, p, rfl, hlen⟩
        · rw [hhere, Option.bind_eq_bind, Option.bind_some]
          split
          · rw [Block.store, if_pos (by omega), Option.bind_some]
            apply ih
            · rw [List.length_set, hlen]
            · rw [List.getElem?_set_ne (by omega), hlast]
            · omega
            · omega
          · rename_i hne
            have hmem : 0 ∈ buf.drop p := by
              have hnul : (buf.drop p)[len - p]? = some 0 := by
                rw [List.getElem?_drop, Nat.add_sub_cancel' hp, hlast]
              exact List.mem_of_getElem? hnul
            obtain ⟨post, hsplit⟩ := Block.takeWhile_nul hmem
            have hcount := congrArg List.length hsplit
            rw [List.length_drop, List.length_append, List.length_cons, hlen] at hcount
            have hfirst : ((buf.drop p).takeWhile (· ≠ 0)).length ≠ 0 := by
              rw [List.drop_eq_getElem_cons (by omega),
                List.takeWhile_cons_of_pos (by simpa using hne), List.length_cons]
              omega
            rw [Block.strlen, Block.cstr, if_pos hmem, Option.map_some, Option.bind_eq_bind,
              Option.bind_some]
            apply ih
            · exact hlen
            · exact hlast
            · omega
            · omega
      · rw [if_neg (by omega)]
        exact ⟨buf, p, rfl, hlen⟩

/-- The title of a process whose `/proc/PID/cmdline` holds these bytes. -/
def titleOf (data : List UInt8) : CString :=
  ((adjustProcnameCmndline (data ++ [0]) data.length).bind fun buf => buf.cstr 0).getD []

/-- Whatever the bytes are, `adjust_procname_cmndline` stays inside the block. -/
theorem finishTitle_inside {data : List UInt8} (hne : data ≠ []) (b : UInt8) :
    ∃ buf, finishTitle (data ++ [b]) data.length = some buf ∧ buf.length = data.length + 1 ∧
      buf.cstr 0 = some (titleOf data) := by
  have hpos : data.length ≠ 0 := by
    rwa [Ne, List.length_eq_zero_iff]
  obtain ⟨buf, p, hrun, hlen⟩ := adjustLoop_inside ((data ++ [0]).length + 1) (data ++ [0]) 0
    List.length_append (by simp) (Nat.zero_le data.length) hpos (by
      rw [List.length_append]
      omega)
  have hadjust : adjustProcnameCmndline (data ++ [0]) data.length
      = some (buf.set data.length 0) := by
    rw [adjustProcnameCmndline, hrun, Option.bind_eq_bind, Option.bind_some]
    simp only [if_pos hpos]
    rw [Block.store, if_pos (by omega)]
  have hmem : 0 ∈ (buf.set data.length 0).drop 0 :=
    List.mem_of_getElem? (i := data.length) (by
      rw [List.drop_zero, List.getElem?_set_self (by omega)])
  have hcstr : Block.cstr (buf.set data.length 0) 0
      = some (((buf.set data.length 0).drop 0).takeWhile (· ≠ 0)) := by
    rw [Block.cstr, if_pos hmem]
  refine ⟨buf.set data.length 0, ?_, ?_, ?_⟩
  · rw [finishTitle, Block.store_at, Option.bind_eq_bind, Option.bind_some, hadjust]
  · rw [List.length_set, hlen]
  · rw [titleOf, hadjust, Option.bind_some, hcstr]
    rfl

theorem titleOf_cmdlineOf {args : List CString} (hnul : ∀ a ∈ args, 0 ∉ a) (hne : args ≠ []) :
    titleOf (cmdlineOf args) = joinedTitle args := by
  have hloop : LoopJoins (cmdlineOf args).length [] args :=
    loopJoins args hnul hne [] (Nat.zero_add _).symm
  obtain ⟨p, junk, hrun, hcount⟩ := hloop ((cmdlineOf args ++ [0]).length + 1) (by
    rw [List.length_append]
    omega)
  have hlen : (cmdlineOf args).length ≠ 0 := by
    cases args with
    | nil => exact absurd rfl hne
    | cons a rest => simp
  simp only [List.nil_append, List.length_nil] at hrun
  -- the byte at `len` lies behind the NUL of the title, or is that NUL
  have hlast : ∃ junk', (joinedTitle args ++ 0 :: junk).set (cmdlineOf args).length 0
      = joinedTitle args ++ 0 :: junk' := by
    rw [List.set_append_right _ _ (by omega)]
    cases hk : (cmdlineOf args).length - (joinedTitle args).length with
    | zero => exact ⟨junk, rfl⟩
    | succ k => exact ⟨junk.set k 0, rfl⟩
  obtain ⟨junk', hset⟩ := hlast
  have hadjust : adjustProcnameCmndline (cmdlineOf args ++ [0]) (cmdlineOf args).length
      = some (joinedTitle args ++ 0 :: junk') := by
    rw [adjustProcnameCmndline, hrun, Option.bind_eq_bind, Option.bind_some]
    simp only [if_pos hlen]
    rw [Block.store, if_pos (by simp only [List.length_append, List.length_cons]; omega), hset]
  have hcstr : Block.cstr (joinedTitle args ++ 0 :: junk') 0 = some (joinedTitle args) :=
    Block.cstr_at [] (joinedTitle_noNul hnul) junk'
  rw [titleOf, hadjust, Option.bind_some, hcstr, Option.getD_some]

/-! ### Reading the bytes -/

/-- The block holds these bytes and has room for one more; there is none before the first byte. -/
def TitleHolds (proctitle : Option Block) (data : List UInt8) : Prop :=
  match proctitle with
  | none => data = []
  | some block => ∃ b, block = data ++ [b]

theorem TitleHolds.grow {proctitle : Option Block} {data : List UInt8} (h : TitleHolds proctitle data)
    (raw : Nat → UInt8) (chunk : List UInt8) :
    ∃ b, ((proctitle.getD []).resize raw (data.length + chunk.length + 1)).memcpy data.length chunk
      = some (data ++ chunk ++ [b]) := by
  have htake : ((proctitle.getD []).resize raw (data.length + chunk.length + 1)).take data.length
      = data := by
    cases proctitle with
    | none =>
        have hnil : data = [] := h
        rw [hnil]
        rfl
    | some block =>
        obtain ⟨b, rfl⟩ := h
        rw [Option.getD_some, Block.resize_take raw _ (by simp) (by omega), List.take_left]
  have hdrop : (((proctitle.getD []).resize raw (data.length + chunk.length + 1)).drop
      (data.length + chunk.length)).length = 1 := by
    rw [List.length_drop, Block.resize_length]
    omega
  obtain ⟨b, hb⟩ := List.length_eq_one_iff.mp hdrop
  refine ⟨b, ?_⟩
  rw [Block.memcpy, if_pos (by rw [Block.resize_length]; omega), htake, hb]

/-- The loop over the reads collects their bytes, or stops where an allocation is refused. -/
theorem readChunks_run (raw : Nat → UInt8) (chunks : List (List UInt8)) (proctitle : Option Block)
    (data : List UInt8) (h : TitleHolds proctitle data) (t : Thread) :
    (∃ proctitle' t', readChunks raw chunks proctitle data.length t
        = .ok (.ok (proctitle', (data ++ chunks.flatten).length), t') ∧
      TitleHolds proctitle' (data ++ chunks.flatten) ∧ t'.glob = t.glob ∧
      (t.Plenty → t'.Plenty) ∧ (proctitle' = none → proctitle = none ∧ chunks = [])) ∨
    (∃ t', readChunks raw chunks proctitle data.length t = .ok (.error .malloc, t') ∧
      t'.error = .malloc ∧ ¬ t.Plenty) := by
  induction chunks generalizing proctitle data t with
  | nil =>
      refine .inl ⟨proctitle, t, ?_, ?_, rfl, id, fun hnone => ⟨hnone, rfl⟩⟩
      · rw [List.flatten_nil, List.append_nil]
        rfl
      · rwa [List.flatten_nil, List.append_nil]
  | cons chunk chunks ih =>
      rw [readChunks]
      cases hmem : t.mem 0 with
      | false =>
          refine .inr ⟨_, Prog.bind_of_ok (sgRealloc_of_not_mem (Nat.succ_ne_zero _) hmem) _, rfl, ?_⟩
          intro hplenty
          rw [hplenty 0] at hmem
          cases hmem
      | true =>
          obtain ⟨b, hcopy⟩ := h.grow raw chunk
          have hholds : TitleHolds (some (data ++ chunk ++ [b])) (data ++ chunk) := ⟨b, rfl⟩
          rw [Prog.bind_of_ok (sgRealloc_of_mem (Nat.succ_ne_zero _) hmem), if_pos rfl, hcopy]
          simp only
          rw [← List.length_append, List.flatten_cons, ← List.append_assoc]
          rcases ih _ _ hholds t.answered with ⟨title, t', hrun, hdata, hglob, hplenty, hnone⟩ |
            ⟨t', hrun, herr, hnot⟩
          · refine .inl ⟨title, t', hrun, hdata, hglob, fun hp => hplenty hp.answered, ?_⟩
            intro hnull
            cases (hnone hnull).1
          · exact .inr ⟨t', hrun, herr, fun hp => hnot hp.answered⟩

/-- What comes of a file that is read into an item without a title, where no allocation is refused. -/
def CmdlineFile.outcome (file : CmdlineFile) (read : TitleRead) : Prop :=
  if file.fails then read = .unreadable
  else if file.chunks = [] then read = .empty
  else ∃ block, read = .title block ∧ block.length = file.chunks.flatten.length + 1 ∧
    block.cstr 0 = some (titleOf file.chunks.flatten)

theorem readCmdline_cases (raw : Nat → UInt8) (file : CmdlineFile) (t : Thread) :
    (∃ read t', readCmdline raw file none t = .ok (read, t') ∧ file.outcome read ∧
      t'.glob = t.glob ∧ (t.Plenty → t'.Plenty)) ∨
    (∃ t', readCmdline raw file none t = .ok (.refused .malloc, t') ∧ t'.error = .malloc ∧
      ¬ t.Plenty) := by
  rcases readChunks_run raw file.chunks none [] rfl t with
    ⟨title, t', hrun, hdata, hglob, hplenty, hnone⟩ | ⟨t', hrun, herr, hnot⟩
  · rw [List.nil_append, List.length_nil] at hrun
    rw [List.nil_append] at hdata
    refine .inl ?_
    rw [readCmdline, Prog.bind_of_ok hrun]
    simp only
    by_cases hfails : file.fails = true
    · refine ⟨.unreadable, t', ?_, ?_, hglob, hplenty⟩
      · rw [if_pos hfails]
        rfl
      · rw [CmdlineFile.outcome, if_pos hfails]
    · rw [if_neg hfails]
      cases title with
      | none =>
          refine ⟨.empty, t', rfl, ?_, hglob, hplenty⟩
          rw [CmdlineFile.outcome, if_neg hfails, if_pos (hnone rfl).2]
      | some block =>
          obtain ⟨b, rfl⟩ := hdata
          by_cases hchunks : file.chunks = []
          · rw [hchunks] at hrun
            cases hrun
          · have hne : file.chunks.flatten ≠ [] := by
              obtain ⟨chunk, chunks, hcons⟩ := List.exists_cons_of_ne_nil hchunks
              intro hnil
              rw [hcons, List.flatten_cons, List.append_eq_nil_iff] at hnil
              exact (file.sized chunk (hcons ▸ List.mem_cons_self)).1 hnil.1
            obtain ⟨buf, hfinish, hlen, htitle⟩ := finishTitle_inside hne b
            refine ⟨.title buf, t', ?_, ?_, hglob, hplenty⟩
            · simp only [hfinish]
              rfl
            · rw [CmdlineFile.outcome, if_neg hfails, if_neg hchunks]
              exact ⟨buf, rfl, hlen, htitle⟩
  · refine .inr ⟨t', ?_, herr, hnot⟩
    rw [List.length_nil] at hrun
    rw [readCmdline, Prog.bind_of_ok hrun]
    rfl

/-! ### The title and the arguments -/

/-- `readCmdline` where every allocation is answered and the arguments arrive in chunks. -/
theorem readCmdline_run (raw : Nat → UInt8) {args : List CString} (hnul : ∀ a ∈ args, 0 ∉ a)
    (hne : args ≠ []) {file : CmdlineFile} (hfile : file.chunks.flatten = cmdlineOf args)
    (hreads : file.fails = false) {t : Thread} (hplenty : t.Plenty) :
    ∃ block t', readCmdline raw file none t = .ok (.title block, t') ∧
      block.length = (cmdlineOf args).length + 1 ∧ block.cstr 0 = some (joinedTitle args) := by
  have hchunks : file.chunks ≠ [] := by
    intro hnil
    rw [hnil, List.flatten_nil] at hfile
    cases args with
    | nil => exact hne rfl
    | cons a rest => simp at hfile
  rcases readCmdline_cases raw file t with ⟨read, t', hrun, houtcome, -, -⟩ | ⟨t', -, -, hnot⟩
  · rw [CmdlineFile.outcome, hreads, if_neg Bool.false_ne_true, if_neg hchunks, hfile,
      titleOf_cmdlineOf hnul hne] at houtcome
    obtain ⟨block, rfl, hlen, htitle⟩ := houtcome
    exact ⟨block, t', hrun, hlen, htitle⟩
  · exact absurd hplenty hnot

/-- The bytes without the spaces at their end. -/
def trimSpaces (text : CString) : CString := text.rdropWhile (· = 32)

/-- However the arguments are delivered, the title is made of them by joining them with single spaces, up
to the spaces at its end. The block has one byte more than was read, and no other byte is touched. -/
def JoinsArguments (args : List CString) : Prop :=
  ∀ (raw : Nat → UInt8) (file : CmdlineFile) (t : Thread), file.chunks.flatten = cmdlineOf args →
    file.fails = false → t.Plenty →
    ∃ block t' title, readCmdline raw file none t = .ok (.title block, t') ∧
      block.length = (cmdlineOf args).length + 1 ∧ block.cstr 0 = some title ∧
      trimSpaces title = trimSpaces ([32].intercalate args)

/-- An argument of one byte, or an empty one that is not the first, has one behind it that is not made of
spaces. -/
def CutShort (args : List CString) : Prop :=
  ∃ pre a post, args = pre ++ a :: post ∧ (a.length = 1 ∨ (pre ≠ [] ∧ a = [])) ∧
    ∃ x ∈ post, ∃ b ∈ x, b ≠ 32

theorem trimSpaces_append_iff (text tail : CString) :
    trimSpaces (text ++ tail) = trimSpaces text ↔ ∀ b ∈ tail, b = 32 := by
  induction tail using List.reverseRecOn with
  | nil => simp
  | append_singleton tail b ih =>
      rw [trimSpaces, ← List.append_assoc]
      by_cases hb : b = 32
      · rw [List.rdropWhile_concat_pos _ _ _ (by simpa using hb)]
        refine ih.trans ⟨?_, ?_⟩
        · intro h c hc
          rcases List.mem_append.mp hc with hc | hc
          · exact h c hc
          · rw [List.mem_singleton.mp hc, hb]
        · intro h c hc
          exact h c (List.mem_append_left _ hc)
      · rw [List.rdropWhile_concat_neg _ _ _ (by simpa using hb)]
        refine iff_of_false ?_ ?_
        · intro heq
          have hle := (List.rdropWhile_prefix (· = (32 : UInt8)) text).length_le
          rw [← show trimSpaces text = text.rdropWhile (· = 32) from rfl, ← heq] at hle
          simp only [List.length_append, List.length_singleton] at hle
          omega
        · intro h
          exact hb (h b (by simp))

theorem intercalate_spaces {args : List CString} (h : ∀ x ∈ args, ∀ b ∈ x, b = 32) :
    ∀ b ∈ [32].intercalate args, b = 32 := by
  induction args with
  | nil => simp
  | cons a rest ih =>
      have ha := h a List.mem_cons_self
      have hrest := ih fun x hx => h x (List.mem_cons_of_mem a hx)
      cases rest with
      | nil => simpa using ha
      | cons b rest =>
          intro c hc
          rw [List.intercalate_cons_cons, List.mem_append, List.mem_append, List.mem_singleton] at hc
          rcases hc with (hc | hc) | hc
          · exact ha c hc
          · exact hc
          · exact hrest c hc

theorem mem_intercalate {args : List CString} {x : CString} (hx : x ∈ args) {b : UInt8} (hb : b ∈ x) :
    b ∈ [32].intercalate args := by
  induction args with
  | nil => cases hx
  | cons a rest ih =>
      cases rest with
      | nil =>
          rw [List.intercalate_singleton, ← List.mem_singleton.mp hx]
          exact hb
      | cons c rest =>
          rw [List.intercalate_cons_cons, List.mem_append, List.mem_append]
          rcases List.mem_cons.mp hx with rfl | hx
          · exact .inl (.inl hb)
          · exact .inr (ih hx)

theorem not_cutShort_of_spaces {a : CString} {args : List CString} (h : ∀ x ∈ args, ∀ b ∈ x, b = 32) :
    ¬ CutShort (a :: args) := by
  rintro ⟨pre, c, post, hsplit, -, x, hx, b, hb, hne⟩
  apply hne
  apply h x ?_ b hb
  cases pre with
  | nil =>
      rw [List.nil_append, List.cons.injEq] at hsplit
      rw [hsplit.2]
      exact hx
  | cons d pre =>
      rw [List.cons_append, List.cons.injEq] at hsplit
      rw [hsplit.2]
      simp [hx]

theorem cutShort_cons_iff {a c : CString} {rest : List CString} (hone : a.length ≠ 1) (hc : c ≠ []) :
    CutShort (a :: c :: rest) ↔ CutShort (c :: rest) := by
  constructor
  · rintro ⟨pre, d, post, hsplit, hcase, hpost⟩
    cases pre with
    | nil =>
        rw [List.nil_append, List.cons.injEq] at hsplit
        rcases hcase with hlen | ⟨hpre, -⟩
        · exact absurd (hsplit.1 ▸ hlen) hone
        · exact absurd rfl hpre
    | cons e pre =>
        rw [List.cons_append, List.cons.injEq] at hsplit
        refine ⟨pre, d, post, hsplit.2, ?_, hpost⟩
        rcases hcase with hlen | ⟨-, hd⟩
        · exact .inl hlen
        · refine .inr ⟨?_, hd⟩
          rintro rfl
          rw [List.nil_append, List.cons.injEq] at hsplit
          exact hc (hsplit.2.1.trans hd)
  · rintro ⟨pre, d, post, hsplit, hcase, hpost⟩
    refine ⟨a :: pre, d, post, by rw [hsplit]; rfl, ?_, hpost⟩
    rcases hcase with hlen | ⟨-, hd⟩
    · exact .inl hlen
    · exact .inr ⟨List.cons_ne_nil a pre, hd⟩

theorem intercalate_eq_joinedTitle (args : List CString) :
    ∃ tail, [32].intercalate args = joinedTitle args ++ tail ∧
      ((∀ b ∈ tail, b = 32) ↔ ¬ CutShort args) := by
  induction args with
  | nil =>
      refine ⟨[], rfl, iff_of_true (by simp) ?_⟩
      rintro ⟨pre, a, post, hsplit, -⟩
      simp at hsplit
  | cons a rest ih =>
      match rest, ih with
      | [], _ =>
          refine ⟨[], ?_, iff_of_true (by simp) (not_cutShort_of_spaces (by simp))⟩
          rw [List.intercalate_singleton, joinedTitle_cut (.inr rfl), List.append_nil]
      | c :: rest, ih =>
          by_cases hcut : a.length = 1 ∨ c = []
          · refine ⟨32 :: [32].intercalate (c :: rest), ?_, ?_, ?_⟩
            · rw [List.intercalate_cons_cons, joinedTitle_cut hcut, List.append_assoc,
                List.singleton_append]
            · intro h
              apply not_cutShort_of_spaces
              intro x hx b hb
              exact h b (List.mem_cons_of_mem _ (mem_intercalate hx hb))
            · intro h b hb
              rcases List.mem_cons.mp hb with hb | hb
              · exact hb
              · apply intercalate_spaces ?_ b hb
                intro x hx y hy
                by_contra hne
                apply h
                rcases hcut with hone | rfl
                · exact ⟨[], a, c :: rest, rfl, .inl hone, x, hx, y, hy, hne⟩
                · rcases List.mem_cons.mp hx with rfl | hx
                  · cases hy
                  · exact ⟨[a], [], rest, rfl, .inr ⟨List.cons_ne_nil _ _, rfl⟩, x, hx, y, hy, hne⟩
          · obtain ⟨hone, hc⟩ := not_or.mp hcut
            obtain ⟨tail, htail, hiff⟩ := ih
            refine ⟨tail, ?_, hiff.trans (not_congr (cutShort_cons_iff hone hc).symm)⟩
            have hnext : (c :: rest).head?.getD [] ≠ [] := hc
            rw [List.intercalate_cons_cons, htail, joinedTitle_go hone hnext]
            simp

def bytewise (bytes : List UInt8) : CmdlineFile :=
  ⟨bytes.map fun b => [b], false, by simp⟩

@[simp] theorem bytewise_flatten (bytes : List UInt8) : (bytewise bytes).chunks.flatten = bytes := by
  induction bytes with
  | nil => rfl
  | cons b bytes ih => exact congrArg (List.cons b) ih

/-- The title of a process whose arguments arrive byte by byte. -/
theorem JoinsArguments.trimmed {args : List CString} (h : JoinsArguments args)
    (hnul : ∀ a ∈ args, 0 ∉ a) (hne : args ≠ []) :
    trimSpaces (joinedTitle args) = trimSpaces ([32].intercalate args) := by
  have hplenty : Thread.Plenty ⟨.clear, fun _ => true⟩ := fun _ => rfl
  obtain ⟨block, t', title, hrun, -, htitle, htrim⟩ :=
    h (fun _ => 0) (bytewise (cmdlineOf args)) _ (bytewise_flatten _) rfl hplenty
  obtain ⟨block', t'', hrun', -, htitle'⟩ :=
    readCmdline_run (fun _ => 0) hnul hne (bytewise_flatten (cmdlineOf args)) rfl hplenty
  rw [hrun'] at hrun
  cases hrun
  rw [htitle'] at htitle
  cases htitle
  exact htrim

/-- Every argument is in the title if and only if the loop meets no argument of one byte and no empty one
behind the first before the last that is not made of spaces. -/
theorem joinsArguments_iff (args : List CString) (hne : args ≠ []) (hnul : ∀ a ∈ args, 0 ∉ a) :
    JoinsArguments args ↔ ¬ CutShort args := by
  obtain ⟨tail, htail, hiff⟩ := intercalate_eq_joinedTitle args
  rw [← hiff, ← trimSpaces_append_iff (joinedTitle args), ← htail]
  constructor
  · intro h
    exact (h.trimmed hnul hne).symm
  · intro htrim raw file t hfile hreads hplenty
    obtain ⟨block, t', hrun, hlen, htitle⟩ := readCmdline_run raw hnul hne hfile hreads hplenty
    exact ⟨block, t', joinedTitle args, hrun, hlen, htitle, htrim.symm⟩

/-- `ls -l`. -/
theorem joinsArguments_ls : JoinsArguments [[108, 115], [45, 108]] := by
  apply (joinsArguments_iff _ (by decide) (by decide)).mpr
  rintro ⟨pre, a, post, hsplit, hcase, -⟩
  have ha : a ∈ [[108, 115], [45, 108]] := by
    rw [hsplit]
    simp
  simp only [List.mem_cons, List.not_mem_nil, or_false] at ha
  rcases ha with rfl | rfl
  · simp at hcase
  · simp at hcase

/-- Of the arguments `a` and `b` the second one is lost. -/
theorem not_joinsArguments_a_b : ¬ JoinsArguments [[97], [98]] := by
  intro h
  have htrim := h.trimmed (by decide) (by decide)
  revert htrim
  decide

end Statgrab
