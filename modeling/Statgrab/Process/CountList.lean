import Statgrab.Process.Count

/-!
# Counting a given list

`sg_get_process_count_r` is given a list, that is the data behind the header of a vector, and means to count
the vector it is in. The macro it takes for this is the one that goes the other way: it goes on from the data
as if that were a header. What is then taken for the header and for the items are fields of later items of
the same block, and where the block ends before them they are read behind its end.
-/

namespace Statgrab.Process

/-! ### The bytes of a vector -/

/-- What an item holds besides the values of the model: the addresses of the strings, and the bits of
`cpu_percent`. -/
structure Held where
  name : Nat
  title : Nat
  cpu : Nat

def pointerBytes (s : Option CString) (address : Nat) : Block :=
  Block.digits 8 (if s.isSome then address else 0)

def signedBytes (len : Nat) (x : Int) : Block := Block.digits len (x % 256 ^ len).toNat

def SgProcessState.code : SgProcessState → UInt32
  | .running => 0
  | .sleeping => 1
  | .stopped => 2
  | .zombie => 3
  | .unknown => 4
  | .invalid code => code

def SgProcessState.ofCode (code : UInt32) : SgProcessState :=
  if code = 0 then .running
  else if code = 1 then .sleeping
  else if code = 2 then .stopped
  else if code = 3 then .zombie
  else if code = 4 then .unknown
  else .invalid code

/-- The fields of an item on an LP64 machine. -/
def ProcessStats.fields (held : Held) (x : ProcessStats) : List Block :=
  [pointerBytes x.processName held.name, pointerBytes x.proctitle held.title,
    signedBytes 4 x.pid, signedBytes 4 x.parent, signedBytes 4 x.pgid, signedBytes 4 x.sessid,
    Block.digits 4 x.uid.toNat, Block.digits 4 x.euid.toNat,
    Block.digits 4 x.gid.toNat, Block.digits 4 x.egid.toNat,
    Block.digits 8 x.contextSwitches.toNat, Block.digits 8 x.voluntaryContextSwitches.toNat,
    Block.digits 8 x.involuntaryContextSwitches.toNat,
    Block.digits 8 x.procSize.toNat, Block.digits 8 x.procResident.toNat,
    signedBytes 8 x.startTime, signedBytes 8 x.timeSpent, Block.digits 8 held.cpu,
    signedBytes 4 x.nice, Block.digits 4 x.state.code.toNat, signedBytes 8 x.systime]

def ProcessStats.bytes (held : Held) (x : ProcessStats) : Block := (x.fields held).flatten

/-- What the block of a vector holds besides the values of the model: the eyes and the functions of the
header, and what is held with the items. -/
structure Image where
  startEye : Nat
  finalEye : Nat
  info : Nat
  held : Nat → Held

def Image.header (image : Image) (v : SgVector ProcessStats) : Block :=
  [Block.digits 8 image.startEye, Block.digits 8 v.usedCount, Block.digits 8 v.allocCount,
    Block.digits 8 v.blockShift, Block.digits 48 image.info, Block.digits 8 image.finalEye].flatten

/-- The block of a vector: the header, and the items behind it. -/
def Image.block (image : Image) (v : SgVector ProcessStats) : Block :=
  image.header v ++ (List.range v.slots).flatMap fun k => (v.cells k).bytes (image.held k)

/-! ### `sg_get_process_count_r` -/

/-- `VECTOR_DATA_CONST(p)`. It goes on by the size of what `p` points to with `STRUCT_SG_VECTOR_ALIGN_OK`,
and by `VECTOR_SIZE` without. -/
def vectorDataConst (alignOk : Bool) (pointee : Nat) (p : Option Nat) : Option Nat :=
  p.map fun i => i + if alignOk then pointee else vectorSize

/-- What `sg_get_process_count_int` reads of a vector whose header is at this place of a block. -/
def CountView.ofBlock (alignOk : Bool) (block : Block) (vector : Nat) : CountView :=
  let ps := (vectorDataConst alignOk vectorSize (some vector)).getD 0
  { usedCount := block.word (vector + 8) 8
    systime := (block.word (ps + 120) 8).map fun n : Nat => Int.bmod n (2 ^ 64)
    state := fun k => (block.word (ps + (128 * k + 116)) 4).map fun n => .ofCode (UInt32.ofNat n) }

/-- `sg_get_process_count_r` for a pointer to a place of a block. -/
def sgGetProcessCountR (alignOk : Bool) (block : Block) (whereof : Option Nat) :
    VecM ProcessCount (Option ProcessCount) :=
  match vectorDataConst alignOk ProcessStats.info.itemSize whereof with
  | none => do
      onThread (sgSetError .invalidArgument 0 "sg_get_process_count_r(whereof = (nil))")
      return none
  | some vector => do
      let result ← vectorCreate ProcessCount.info 1
      match result with
      | none => return none
      | some q =>
          match sgGetProcessCountInt (.ofBlock alignOk block vector) with
          | none => Prog.fault .outOfBlock
          | some c => do
              onSlot q 0 fun _ => return ((), c)
              return some c

/-! ### What is read -/

@[simp] theorem pointerBytes_length (s : Option CString) (address : Nat) :
    (pointerBytes s address).length = 8 :=
  Block.digits_length 8 _

@[simp] theorem signedBytes_length (len : Nat) (x : Int) : (signedBytes len x).length = len :=
  Block.digits_length len _

theorem ProcessStats.bytes_length (held : Held) (x : ProcessStats) : (x.bytes held).length = 128 := by
  rw [ProcessStats.bytes, List.length_flatten]
  simp [ProcessStats.fields]

theorem header_length (image : Image) (v : SgVector ProcessStats) :
    (image.header v).length = vectorSize := by
  rw [Image.header, List.length_flatten]
  simp [vectorSize]

theorem word_item (image : Image) (v : SgVector ProcessStats) (k : Nat) {off len : Nat} (hlen : 0 < len)
    (hoff : off + len ≤ 128) :
    (image.block v).word (vectorSize + (128 * k + off)) len
      = if k < v.slots then ((v.cells k).bytes (image.held k)).word off len else none := by
  have hrecord := @Block.word_record Nat (fun k => (v.cells k).bytes (image.held k)) 128
    (fun k => ProcessStats.bytes_length _ _) (image.header v) (List.range v.slots) k off len hlen hoff
  rw [header_length] at hrecord
  rw [Image.block, hrecord]
  split
  · rename_i hk
    rw [List.getElem?_range hk, Option.bind_some]
  · rename_i hk
    rw [List.getElem?_eq_none (by simpa using hk), Option.bind_none]

theorem map_word_item {β : Type} (f : Nat → β) (image : Image) (v : SgVector ProcessStats) (k : Nat)
    {off len n : Nat} {y : β} (hlen : 0 < len) (hoff : off + len ≤ 128)
    (hword : ((v.cells k).bytes (image.held k)).word off len = some n) (hy : f n = y) :
    ((image.block v).word (vectorSize + (128 * k + off)) len).map f
      = if k < v.slots then some y else none := by
  rw [word_item image v k hlen hoff, hword]
  split
  · rw [Option.map_some, hy]
  · rfl

section

variable (held : Held) (x : ProcessStats)

theorem number_signedBytes (y : Int) : Block.number (signedBytes 8 y) = (y % 2 ^ 64).toNat := by
  rw [signedBytes, Block.number_digits]
  apply Nat.mod_eq_of_lt
  have := Int.emod_lt_of_pos y (show (0 : Int) < 256 ^ 8 by decide)
  have := Int.emod_nonneg y (show (256 : Int) ^ 8 ≠ 0 by decide)
  omega

theorem word_proctitle : (x.bytes held).word 8 8
    = some ((if x.proctitle.isSome then held.title else 0) % 2 ^ 64) := by
  have h : (x.bytes held).drop 8 = pointerBytes x.proctitle held.title ++ ((x.fields held).drop 2).flatten :=
    rfl
  rw [Block.word_of_drop h (by simp) (by decide), pointerBytes, Block.number_digits]
  rfl

theorem word_timeSpent : (x.bytes held).word 96 8 = some (x.timeSpent % 2 ^ 64).toNat := by
  have h : (x.bytes held).drop 96 = signedBytes 8 x.timeSpent ++ ((x.fields held).drop 17).flatten := rfl
  rw [Block.word_of_drop h (by simp) (by decide), number_signedBytes]

theorem word_euid : (x.bytes held).word 36 4 = some x.euid.toNat := by
  have h : (x.bytes held).drop 36 = Block.digits 4 x.euid.toNat ++ ((x.fields held).drop 8).flatten := rfl
  rw [Block.word_of_drop h (by simp) (by decide), Block.number_digits]
  exact congrArg some (Nat.mod_eq_of_lt x.euid.toNat_lt)

theorem word_gids : (x.bytes held).word 40 8 = some (x.gid.toNat + 2 ^ 32 * x.egid.toNat) := by
  have h : (x.bytes held).drop 40
      = (Block.digits 4 x.gid.toNat ++ Block.digits 4 x.egid.toNat) ++ ((x.fields held).drop 10).flatten :=
    rfl
  rw [Block.word_of_drop h (by simp) (by decide), Block.number_append, Block.number_digits,
    Block.number_digits, Block.digits_length]
  have := x.gid.toNat_lt
  have := x.egid.toNat_lt
  rw [Nat.mod_eq_of_lt (by omega), Nat.mod_eq_of_lt (by omega)]
  rfl

theorem word_procSize_high : (x.bytes held).word 76 4 = some (x.procSize.toNat / 2 ^ 32) := by
  have h : (x.bytes held).drop 76 = Block.digits 4 (x.procSize.toNat / 256 / 256 / 256 / 256)
      ++ ((x.fields held).drop 14).flatten := rfl
  rw [Block.word_of_drop h (by simp) (by decide), Block.number_digits]
  have := x.procSize.toNat_lt
  exact congrArg some (by omega)

theorem word_procResident : (x.bytes held).word 80 8 = some x.procResident.toNat := by
  have h : (x.bytes held).drop 80
      = Block.digits 8 x.procResident.toNat ++ ((x.fields held).drop 15).flatten := rfl
  rw [Block.word_of_drop h (by simp) (by decide), Block.number_digits]
  exact congrArg some (Nat.mod_eq_of_lt x.procResident.toNat_lt)

theorem word_state : (x.bytes held).word 116 4 = some x.state.code.toNat := by
  have h : (x.bytes held).drop 116
      = Block.digits 4 x.state.code.toNat ++ ((x.fields held).drop 20).flatten := rfl
  rw [Block.word_of_drop h (by simp) (by decide), Block.number_digits]
  exact congrArg some (Nat.mod_eq_of_lt x.state.code.toNat_lt)

theorem word_systime : (x.bytes held).word 120 8 = some (x.systime % 2 ^ 64).toNat := by
  have h : (x.bytes held).drop 120 = signedBytes 8 x.systime ++ ((x.fields held).drop 21).flatten := rfl
  rw [Block.word_of_drop h (by simp) (by decide), number_signedBytes]

end

/-! ### The header itself -/

theorem ofCode_code {s : SgProcessState} (h : ∀ code, s = .invalid code → 5 ≤ code) :
    SgProcessState.ofCode s.code = s := by
  cases s with
  | invalid code =>
      have hcode := h code rfl
      rw [SgProcessState.code, SgProcessState.ofCode]
      repeat' split
      all_goals subst_vars
      all_goals simp_all
  | _ => rfl

structure Storable (v : SgVector ProcessStats) : Prop where
  used : v.usedCount < 2 ^ 64
  systime : ∀ k, -2 ^ 63 ≤ (v.cells k).systime ∧ (v.cells k).systime < 2 ^ 63
  state : ∀ k code, (v.cells k).state = .invalid code → 5 ≤ code

theorem word_usedCount (image : Image) (v : SgVector ProcessStats) :
    (image.block v).word 8 8 = some (v.usedCount % 2 ^ 64) := by
  have h : (image.block v).drop 8 = Block.digits 8 v.usedCount ++ ([Block.digits 8 v.allocCount,
      Block.digits 8 v.blockShift, Block.digits 48 image.info, Block.digits 8 image.finalEye].flatten ++
      (List.range v.slots).flatMap fun k => (v.cells k).bytes (image.held k)) := rfl
  rw [Block.word_of_drop h (by simp) (by decide), Block.number_digits]
  rfl

theorem ofBlock_header (image : Image) {v : SgVector ProcessStats} (h : Storable v) (alignOk : Bool) :
    CountView.ofBlock alignOk (image.block v) 0 = .ofVector v := by
  have hps : (vectorDataConst alignOk vectorSize (some 0)).getD 0 = vectorSize := by
    cases alignOk with
    | false => rfl
    | true => rfl
  rw [CountView.ofBlock, CountView.ofVector, hps, Nat.zero_add, word_usedCount, Nat.mod_eq_of_lt h.used]
  congr 1
  · apply map_word_item _ image v 0 (by decide) (by decide) (word_systime _ _)
    obtain ⟨hlow, hhigh⟩ := h.systime 0
    rw [Int.toNat_of_nonneg (Int.emod_nonneg _ (by decide))]
    have hbmod : (v.cells 0).systime.bmod (2 ^ 64) = (v.cells 0).systime := by
      apply Int.bmod_eq_of_le
      · exact hlow
      · exact hhigh
    exact (Int.emod_bmod _ _).trans hbmod
  · funext k
    apply map_word_item _ image v k (by decide) (by decide) (word_state _ _)
    rw [UInt32.ofNat_toNat, ofCode_code (h.state k)]

/-! ### What is taken for the vector -/

section

variable (alignOk : Bool) (image : Image) (v : SgVector ProcessStats)

/-- What is taken for the number of items: the address of the title of the second one, or the time that the
first one has spent. -/
def takenCount : Nat :=
  if alignOk then (if (v.cells 1).proctitle.isSome then (image.held 1).title else 0) % 2 ^ 64
  else ((v.cells 0).timeSpent % 2 ^ 64).toNat

/-- What is taken for a state: the upper half of the size, or the effective user, of the item two places
behind. -/
def takenState (k : Nat) : SgProcessState :=
  if alignOk then .ofCode (UInt32.ofNat ((v.cells (k + 2)).procSize.toNat / 2 ^ 32))
  else .ofCode (v.cells (k + 2)).euid

/-- What is taken for the time: the resident size, or the two groups, of the third item. -/
def takenSystime : Int :=
  if alignOk then ((v.cells 2).procResident.toNat : Int).bmod (2 ^ 64)
  else (((v.cells 2).gid.toNat + 2 ^ 32 * (v.cells 2).egid.toNat : Nat) : Int).bmod (2 ^ 64)

def takenVector : Nat := vectorSize + if alignOk then 128 else vectorSize

theorem taken_usedCount :
    (CountView.ofBlock alignOk (image.block v) (takenVector alignOk)).usedCount
      = if (if alignOk then 1 else 0) < v.slots then some (takenCount alignOk image v) else none := by
  cases alignOk with
  | false =>
      have hword := @word_item image v 0 96 8 (by decide) (by decide)
      rw [word_timeSpent] at hword
      exact hword
  | true =>
      have hword := @word_item image v 1 8 8 (by decide) (by decide)
      rw [word_proctitle] at hword
      exact hword

theorem taken_systime :
    (CountView.ofBlock alignOk (image.block v) (takenVector alignOk)).systime
      = if 2 < v.slots then some (takenSystime alignOk v) else none := by
  cases alignOk with
  | false =>
      apply map_word_item _ image v 2 (by decide) (by decide) (word_gids _ _)
      simp only [takenSystime, Bool.false_eq_true, if_false]
  | true =>
      apply map_word_item _ image v 2 (by decide) (by decide) (word_procResident _ _)
      simp only [takenSystime, if_true]

theorem taken_state (k : Nat) :
    (CountView.ofBlock alignOk (image.block v) (takenVector alignOk)).state k
      = if k + 2 < v.slots then some (takenState alignOk v k) else none := by
  cases alignOk with
  | false =>
      have hplace : vectorSize + vectorSize + vectorSize + (128 * k + 116)
          = vectorSize + (128 * (k + 2) + 36) := by
        rw [vectorSize]
        omega
      change ((image.block v).word (vectorSize + vectorSize + vectorSize + (128 * k + 116)) 4).map
        (fun n => SgProcessState.ofCode (UInt32.ofNat n)) = _
      rw [hplace]
      apply map_word_item _ image v (k + 2) (by decide) (by decide) (word_euid _ _)
      simp only [takenState, Bool.false_eq_true, if_false, UInt32.ofNat_toNat]
  | true =>
      have hplace : vectorSize + 128 + vectorSize + (128 * k + 116)
          = vectorSize + (128 * (k + 2) + 76) := by
        rw [vectorSize]
        omega
      change ((image.block v).word (vectorSize + 128 + vectorSize + (128 * k + 116)) 4).map
        (fun n => SgProcessState.ofCode (UInt32.ofNat n)) = _
      rw [hplace]
      apply map_word_item _ image v (k + 2) (by decide) (by decide) (word_procSize_high _ _)
      simp only [takenState, if_true]

end

/-! ### Whether the list is counted -/

def ProcessCount.number (c : ProcessCount) : SgProcessState → Nat
  | .running => c.running
  | .sleeping => c.sleeping
  | .stopped => c.stopped
  | .zombie => c.zombie
  | .unknown => c.unknown
  | .invalid _ => 0

/-- `sg_get_process_count_r` for the list in this vector returns the number of its items and of those in each
state, and this is what `sg_get_process_count_of(sg_last_process_count)` returns where the vector is the one
that was read last. -/
def CountsList (alignOk : Bool) (image : Image) (v : SgVector ProcessStats) (w : World ProcessCount) :
    Prop :=
  ∃ c w', sgGetProcessCountR alignOk (image.block v) (some vectorSize) w = .ok (some c, w') ∧
    c.total = v.usedCount ∧
    (∀ s, s.valid = true → c.number s = (v.items.map ProcessStats.state).count s) ∧
    ∀ (src : ProcessSource) (fuel : Nat) (pw : ProcessWorld) (p q : Ptr) (cv : SgVector ProcessCount),
      pw.stats.store p = some v → pw.counts.store q = some cv → cv.slots ≠ 0 →
      ∃ pw', sgGetProcessCountOf src fuel .last ⟨some p, some q⟩ pw
        = .ok (some (some c, ⟨some p, some q⟩), pw')

/-- What is taken for the vector holds the same counts as the vector does. -/
structure Coincides (alignOk : Bool) (image : Image) (v : SgVector ProcessStats) : Prop where
  room : v.usedCount + 2 ≤ v.slots
  total : takenCount alignOk image v = v.usedCount
  states : ∀ s, s.valid = true →
    ((List.range v.usedCount).map (takenState alignOk v)).count s
      = (v.items.map ProcessStats.state).count s
  systime : takenSystime alignOk v = (v.cells 0).systime

theorem number_of (systime : Int) (states : List SgProcessState) {s : SgProcessState}
    (h : s.valid = true) : (ProcessCount.of systime states).number s = states.count s := by
  cases s with
  | invalid code => cases h
  | _ => rfl

theorem of_eq_of {systime systime' : Int} {states states' : List SgProcessState}
    (hsystime : systime = systime') (hlength : states.length = states'.length)
    (hcount : ∀ s, s.valid = true → states.count s = states'.count s) :
    ProcessCount.of systime states = .of systime' states' := by
  rw [ProcessCount.of, ProcessCount.of, hsystime, hlength, hcount .running rfl, hcount .sleeping rfl,
    hcount .stopped rfl, hcount .zombie rfl, hcount .unknown rfl]

/-- `sg_get_process_count_r` returns a count where there is memory for one and what is taken for the vector
can be read. -/
theorem sgGetProcessCountR_eq_some {alignOk : Bool} {block : Block} {i : Nat} {w : World ProcessCount}
    {c : ProcessCount} :
    (∃ w', sgGetProcessCountR alignOk block (some i) w = .ok (some c, w')) ↔
      w.mem 0 = true ∧
        sgGetProcessCountInt (.ofBlock alignOk block (i + if alignOk then 128 else vectorSize)) = some c := by
  obtain ⟨target, w1, hcreate, hnull, hvector⟩ := countVector_run w
  have hrun : sgGetProcessCountR alignOk block (some i) w = (match target with
      | none => (return none : VecM ProcessCount (Option ProcessCount))
      | some q =>
          match sgGetProcessCountInt (.ofBlock alignOk block (i + if alignOk then 128 else vectorSize)) with
          | none => Prog.fault .outOfBlock
          | some c => do
              onSlot q 0 fun _ => return ((), c)
              return some c) w1 := Prog.bind_of_ok hcreate _
  rw [hrun]
  cases target with
  | none =>
      have hmem := hnull.mp rfl
      constructor
      · rintro ⟨w', h⟩
        cases h
      · rintro ⟨h, -⟩
        rw [hmem] at h
        cases h
  | some q =>
      obtain ⟨cv, hq, hslots⟩ := hvector q rfl
      have hmem : w.mem 0 = true := by
        rw [← Bool.not_eq_false]
        intro hfalse
        cases hnull.mpr hfalse
      cases hint : sgGetProcessCountInt
          (.ofBlock alignOk block (i + if alignOk then 128 else vectorSize)) with
      | none => simp
      | some c' =>
          have hslot := @onSlot_run ProcessCount Unit w1 q cv 0 (fun _ => return ((), c')) () _ _ hq
            (fun _ => by omega) rfl
          simp only
          rw [Prog.bind_of_ok hslot]
          constructor
          · rintro ⟨w', h⟩
            cases h
            exact ⟨hmem, rfl⟩
          · rintro ⟨-, h⟩
            cases h
            exact ⟨_, rfl⟩

theorem sgGetProcessCountOf_last {v : SgVector ProcessStats} (hwithin : v.usedCount ≤ v.slots)
    (hslots : v.slots ≠ 0) (src : ProcessSource) (fuel : Nat) {pw : ProcessWorld} {p q : Ptr}
    {cv : SgVector ProcessCount} (hv : pw.stats.store p = some v) (hq : pw.counts.store q = some cv)
    (hcv : cv.slots ≠ 0) :
    ∃ pw', sgGetProcessCountOf src fuel .last ⟨some p, some q⟩ pw
      = .ok (some (some (countOf v), ⟨some p, some q⟩), pw') := by
  obtain ⟨pw', hcount, -⟩ := countInto_some hq hcv hv hwithin hslots
  refine ⟨pw', ?_⟩
  have htarget : countTarget (some q) pw = .ok (some q, pw) := rfl
  rw [sgGetProcessCountOf, Prog.bind_of_ok htarget]
  simp only
  rw [Prog.bind_of_ok hcount]
  rfl

section

variable {alignOk : Bool} {image : Image} {v : SgVector ProcessStats}

theorem taken_total {c : ProcessCount}
    (h : sgGetProcessCountInt (.ofBlock alignOk (image.block v) (takenVector alignOk)) = some c) :
    c.total = takenCount alignOk image v := by
  obtain ⟨systime, states, hused, -, -, rfl⟩ := sgGetProcessCountInt_eq_some.mp h
  rw [taken_usedCount, Option.ite_none_right_eq_some, Option.some.injEq] at hused
  exact hused.2.symm

theorem taken_eq_some {c : ProcessCount} (hpos : 0 < takenCount alignOk image v) :
    sgGetProcessCountInt (.ofBlock alignOk (image.block v) (takenVector alignOk)) = some c ↔
      takenCount alignOk image v + 2 ≤ v.slots ∧
        c = .of (takenSystime alignOk v)
          ((List.range (takenCount alignOk image v)).map (takenState alignOk v)) := by
  rw [sgGetProcessCountInt_eq_some]
  simp only [taken_usedCount, taken_systime, taken_state, Option.ite_none_right_eq_some, Option.some.injEq]
  constructor
  · rintro ⟨systime, states, ⟨-, hused⟩, ⟨-, rfl⟩, hstates, rfl⟩
    have hlast := hstates (states.length - 1) _ (List.getElem?_eq_getElem (by omega))
    refine ⟨by omega, ?_⟩
    congr 1
    apply List.ext_getElem?
    intro k
    rw [List.getElem?_map, hused]
    by_cases hk : k < states.length
    · rw [List.getElem?_range hk, List.getElem?_eq_getElem hk, Option.map_some,
        (hstates k _ (List.getElem?_eq_getElem hk)).2]
    · rw [List.getElem?_eq_none (by omega), List.getElem?_eq_none (by simpa using hk), Option.map_none]
  · rintro ⟨hroom, rfl⟩
    refine ⟨_, _, ⟨?_, ?_⟩, ⟨by omega, rfl⟩, ?_, rfl⟩
    · cases alignOk with
      | false => simp; omega
      | true => simp; omega
    · simp
    · intro k s hk
      rw [List.getElem?_map] at hk
      obtain ⟨k', hk', rfl⟩ := Option.map_eq_some_iff.mp hk
      obtain ⟨hlt, hk'⟩ := List.getElem?_eq_some_iff.mp hk'
      rw [List.getElem_range] at hk'
      rw [List.length_range] at hlt
      exact ⟨by omega, by rw [hk']⟩

end

def afterRead (v : SgVector ProcessStats) : ProcessWorld :=
  { beforeCount with stats := (emptyWorld ProcessStats).place v }

/-- A list is counted if and only if there is memory for the count, and what is taken for its vector holds
the same counts. -/
theorem countsList_iff (alignOk : Bool) (image : Image) (v : SgVector ProcessStats)
    (w : World ProcessCount) (hpos : 0 < v.usedCount) (hwithin : v.usedCount ≤ v.slots) :
    CountsList alignOk image v w ↔ w.mem 0 = true ∧ Coincides alignOk image v := by
  constructor
  · rintro ⟨c, w', hrun, htotal, hcount, hlast⟩
    obtain ⟨hmem, hint⟩ := sgGetProcessCountR_eq_some.mp ⟨w', hrun⟩
    have htaken : takenCount alignOk image v = v.usedCount := (taken_total hint).symm.trans htotal
    obtain ⟨hroom, rfl⟩ := (taken_eq_some (by omega)).mp hint
    obtain ⟨pw, hof⟩ := @sgGetProcessCountOf_last v hwithin (by omega) .idle 0 (afterRead v) 0 0 _ rfl rfl
      (by decide)
    obtain ⟨pw', hof'⟩ := hlast .idle 0 (afterRead v) 0 0 _ rfl rfl (by decide)
    rw [hof] at hof'
    simp only [Except.ok.injEq, Prod.mk.injEq, Option.some.injEq, and_true] at hof'
    refine ⟨hmem, by omega, htaken, ?_, (congrArg ProcessCount.systime hof'.1).symm⟩
    intro s hs
    have hstate := hcount s hs
    rwa [number_of _ _ hs, htaken] at hstate
  · rintro ⟨hmem, hcoincides⟩
    have hroom := hcoincides.room
    have htotal := hcoincides.total
    have hint := (@taken_eq_some alignOk image v _ (by omega)).mpr ⟨by omega, rfl⟩
    obtain ⟨w', hrun⟩ := sgGetProcessCountR_eq_some.mpr ⟨hmem, hint⟩
    have hsame : ProcessCount.of (takenSystime alignOk v)
        ((List.range (takenCount alignOk image v)).map (takenState alignOk v)) = countOf v := by
      rw [htotal]
      apply of_eq_of hcoincides.systime
      · simp [items_length]
      · exact hcoincides.states
    rw [hsame] at hrun
    refine ⟨countOf v, w', hrun, ?_, fun s hs => number_of _ _ hs, ?_⟩
    · simp [countOf, ProcessCount.of, items_length]
    · intro src fuel pw p q cv hv hq hcv
      exact sgGetProcessCountOf_last hwithin (by omega) src fuel hv hq hcv

def vectorOf (used : Nat) (cells : Nat → ProcessStats) : SgVector ProcessStats :=
  ⟨used, 16, 4, ProcessStats.info, 16, cells⟩

/-- A block with nothing else in it. -/
def plainImage : Image := ⟨0, 0, 0, fun _ => ⟨0, 0, 0⟩⟩

/-- A running process that has spent two seconds and a sleeping one, in slots of which the fourth is left from
an item of user 1. -/
def runningAndSleeping : SgVector ProcessStats :=
  vectorOf 2 fun
    | 0 => { ProcessStats.zero with state := .running, timeSpent := 2 }
    | 1 => { ProcessStats.zero with state := .sleeping }
    | 3 => { ProcessStats.zero with euid := 1 }
    | _ => .zero

/-- The two are counted, since what is taken for their states are the users of the two slots behind them. -/
theorem countsList_running : CountsList false plainImage runningAndSleeping (emptyWorld ProcessCount) := by
  apply (countsList_iff false _ _ _ (by decide) (by decide)).mpr
  refine ⟨rfl, by decide, by decide, ?_, by decide⟩
  intro s _
  have hstates : (List.range 2).map (takenState false runningAndSleeping)
      = runningAndSleeping.items.map ProcessStats.state := by decide
  exact congrArg (List.count s) hstates

/-- A list of one sleeping process that has spent seven seconds. -/
def oneSleeper : SgVector ProcessStats :=
  vectorOf 1 fun k => if k = 0 then { ProcessStats.zero with state := .sleeping, timeSpent := 7 } else .zero

/-- The sleeping process is counted as seven running ones, or not at all. -/
theorem not_countsList_sleeping :
    (sgGetProcessCountR false (plainImage.block oneSleeper) (some vectorSize)
      (emptyWorld ProcessCount)).toOption.bind Prod.fst = some ⟨7, 7, 0, 0, 0, 0, 0⟩ ∧
    (sgGetProcessCountR true (plainImage.block oneSleeper) (some vectorSize)
      (emptyWorld ProcessCount)).toOption.bind Prod.fst = some ⟨0, 0, 0, 0, 0, 0, 0⟩ ∧
    ¬ CountsList false plainImage oneSleeper (emptyWorld ProcessCount) ∧
    ¬ CountsList true plainImage oneSleeper (emptyWorld ProcessCount) := by
  have hfalse : (sgGetProcessCountR false (plainImage.block oneSleeper) (some vectorSize)
      (emptyWorld ProcessCount)).toOption.bind Prod.fst = some ⟨7, 7, 0, 0, 0, 0, 0⟩ := by
    decide +kernel
  have htrue : (sgGetProcessCountR true (plainImage.block oneSleeper) (some vectorSize)
      (emptyWorld ProcessCount)).toOption.bind Prod.fst = some ⟨0, 0, 0, 0, 0, 0, 0⟩ := by
    decide +kernel
  refine ⟨hfalse, htrue, ?_, ?_⟩
  · rintro ⟨c, w', hrun, htotal, -⟩
    rw [hrun] at hfalse
    cases hfalse
    cases htotal
  · rintro ⟨c, w', hrun, htotal, -⟩
    rw [hrun] at htrue
    cases htrue
    cases htotal

end Statgrab.Process
