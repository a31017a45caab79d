import Statgrab.Lib.Block
import Statgrab.Lib.Cells
import Statgrab.Lib.Text
import Statgrab.Tools

/-!
# The bytes that the string helpers touch

`sg_lupdate_string` and `sg_concat_string` with the `sg_strnlen`, `strlcpy` and `strlcat` of `tools.c`, byte by
byte. `sg_strnlen` tests its bound behind the read, and `strlcpy` measures the rest of its source, so a field
without a NUL is read past its end. `strlcat` looks for the end of a string in the block it is given, which
nobody wrote to where there was no string before, and it reads its source whether there is one or not.
-/

namespace Statgrab

open Text

/-! ### The code -/

/-- A function on strings: a fault of the thread or a misuse of a block stops it. -/
abbrev StringM := Prog (Fault ⊕ Misuse) Thread

def onCells {β : Type} (x : Except Misuse β) : StringM β := fun t =>
  match x with
  | .error m => .error (.inr m)
  | .ok b => .ok (b, t)

def onStringThread {β : Type} (x : ThreadM β) : StringM β := fun t =>
  match x t with
  | .error f => .error (.inl f)
  | .ok r => .ok r

/-- The loop of `sg_strnlen` at the index `n`, with `left` bytes to the bound. The byte is read before the
bound is tested. -/
def strnlenLoop (s : Cells) : Nat → Nat → Except Misuse Nat
  | 0, n => do
      let _ ← s.load n
      return n
  | left + 1, n => do
      let b ← s.load n
      if b = 0 then return n else strnlenLoop s left (n + 1)

def sgStrnlen (s : Cells) (maxlen : Nat) : Except Misuse Nat :=
  if maxlen = 0 then .ok maxlen else strnlenLoop s maxlen 0

/-- The loop of `strlcpy` that copies at most `n` bytes from the index `i` on, and whether it stopped behind
a NUL. -/
def strlcpyLoop (src : Cells) : Nat → Nat → Cells → Except Misuse (Cells × Nat × Bool)
  | 0, i, dst => .ok (dst, i, false)
  | n + 1, i, dst => do
      let b ← src.load i
      let dst ← dst.store i b
      if b = 0 then return (dst, i, true) else strlcpyLoop src n (i + 1) dst

/-- The NUL behind the bytes that were copied, if there is room for one. -/
def terminate (dst : Cells) (siz i : Nat) : Except Misuse Cells := if siz = 0 then .ok dst else dst.store i 0

/-- `strlcpy`: the block and the returned length. -/
def strlcpy (dst src : Cells) (siz : Nat) : Except Misuse (Cells × Nat) := do
  let (dst, i, stopped) ← strlcpyLoop src (siz - 1) 0 dst
  if stopped then return (dst, i)
  else
    let dst ← terminate dst siz i
    -- the rest of the source is traversed
    let n ← src.scan (src.length + 1) i
    return (dst, n)

/-- `sg_lupdate_string(dest, src, maxlen)`: the returned code and the new value of `*dest`. -/
def sgLupdateString (dest src : Option Cells) (maxlen : Nat) : StringM (SgError × Option Cells) :=
  match src with
  | none => return (.none, none)
  | some src => do
      let n ← onCells (sgStrnlen src maxlen)
      let newlen := n + 1
      let ok ← onStringThread (sgRealloc newlen)
      if ok then
        let (new, _) ← onCells (strlcpy ((dest.getD []).resize newlen) src newlen)
        return (.none, some new)
      else
        let rc ← onStringThread returnFromPreviousError
        return (rc, dest)

/-- The loop of `strlcat` that looks for the end of the string in at most `n` bytes from the index `d` on. -/
def strlcatEnd (dst : Cells) : Nat → Nat → Except Misuse Nat
  | 0, d => .ok d
  | n + 1, d => do
      let b ← dst.load d
      if b = 0 then return d else strlcatEnd dst n (d + 1)

/-- The loop of `strlcat` that appends the source from the index `i` on, with room for `n` bytes at `d`. The
source is read to its NUL. -/
def strlcatLoop (src : Cells) : Nat → Nat → Nat → Nat → Cells → Except Misuse (Cells × Nat)
  | 0, _, _, _, _ => .error .outside
  | fuel + 1, i, n, d, dst => do
      let b ← src.load i
      if b = 0 then do
        let dst ← dst.store d 0
        return (dst, i)
      else if n ≠ 1 then do
        let dst ← dst.store d b
        strlcatLoop src fuel (i + 1) (n - 1) (d + 1) dst
      else strlcatLoop src fuel (i + 1) n d dst

/-- `strlcat`: the block and the returned length. -/
def strlcat (dst : Cells) (src : Option Cells) (siz : Nat) : Except Misuse (Cells × Nat) := do
  let dlen ← strlcatEnd dst siz 0
  let n := siz - dlen
  match src with
  | none => .error .null
  | some src =>
      if n = 0 then do
        let len ← src.strlen
        return (dst, dlen + len)
      else do
        let (dst, len) ← strlcatLoop src (src.length + 1) 0 n dlen dst
        return (dst, dlen + len)

/-- The length of a string, NULL being without any byte. -/
def lengthOf : Option Cells → Except Misuse Nat
  | none => .ok 0
  | some cells => cells.strlen

/-- `sg_concat_string(dest, src)`: the returned code and the new value of `*dest`, if there is one. -/
def sgConcatString (dest : Option (Option Cells)) (src : Option Cells) :
    StringM (SgError × Option (Option Cells)) :=
  match dest with
  | none => do
      let rc ← onStringThread (returnWithSetError .invalidArgument 0 "dest")
      return (rc, none)
  | some dest => do
      let destLen ← onCells (lengthOf dest)
      let srcLen ← onCells (lengthOf src)
      let len := destLen + srcLen + 1
      let ok ← onStringThread (sgRealloc len)
      if ok then
        let (new, _) ← onCells (strlcat ((dest.getD []).resize len) src len)
        return (.none, some (some new))
      else
        let rc ← onStringThread returnFromPreviousError
        return (rc, some dest)

/-! ### A string is copied -/

theorem onCells_of_ok {β : Type} {x : Except Misuse β} {b : β} (hx : x = .ok b) (t : Thread) :
    onCells x t = .ok (b, t) := by
  subst hx
  rfl

theorem onCells_of_error {β : Type} {x : Except Misuse β} {m : Misuse} (hx : x = .error m) (t : Thread) :
    onCells x t = .error (.inr m) := by
  subst hx
  rfl

theorem strnlenLoop_text {text : List UInt8} (htext : 0 ∉ text) (pre post : Cells) {left : Nat}
    (hleft : text.length ≤ left) :
    strnlenLoop (pre ++ (text.map some ++ some 0 :: post)) left pre.length = .ok (pre.length + text.length) := by
  induction text generalizing pre left with
  | nil =>
      rw [List.map_nil, List.nil_append]
      cases left with
      | zero =>
          rw [strnlenLoop, Cells.load_at]
          rfl
      | succ left =>
          rw [strnlenLoop, Cells.load_at]
          rfl
  | cons b text ih =>
      cases left with
      | zero => cases hleft
      | succ left =>
          have hb : b ≠ 0 := fun hcon => htext (hcon ▸ List.mem_cons_self)
          have hnext := ih (fun hmem => htext (List.mem_cons_of_mem b hmem)) (pre ++ [some b])
            (Nat.le_of_succ_le_succ hleft)
          rw [List.append_assoc, List.singleton_append, List.length_append, List.length_singleton] at hnext
          rw [strnlenLoop, List.map_cons, List.cons_append, Cells.load_at, Cells.bind_ok, if_neg hb, hnext,
            List.length_cons, Nat.add_right_comm, Nat.add_assoc]

/-- Without a NUL the byte behind the field is read. -/
theorem strnlenLoop_outside {text : List UInt8} (htext : 0 ∉ text) (pre : Cells) :
    strnlenLoop (pre ++ text.map some) text.length pre.length = .error .outside := by
  induction text generalizing pre with
  | nil =>
      rw [List.map_nil, List.append_nil, List.length_nil, strnlenLoop, Cells.load_outside (Nat.le_refl _)]
      rfl
  | cons b text ih =>
      have hb : b ≠ 0 := fun hcon => htext (hcon ▸ List.mem_cons_self)
      have hnext := ih (fun hmem => htext (List.mem_cons_of_mem b hmem)) (pre ++ [some b])
      rw [List.append_assoc, List.singleton_append, List.length_append, List.length_singleton] at hnext
      rw [List.length_cons, strnlenLoop, List.map_cons, Cells.load_at, Cells.bind_ok, if_neg hb, hnext]

theorem strlcpyLoop_text {text : List UInt8} (htext : 0 ∉ text) (pre : List UInt8) (rest post : Cells)
    (hpost : text.length ≤ post.length) :
    strlcpyLoop (pre.map some ++ (text.map some ++ rest)) text.length pre.length (pre.map some ++ post)
      = .ok ((pre ++ text).map some ++ post.drop text.length, pre.length + text.length, false) := by
  induction text generalizing pre post with
  | nil => rw [List.length_nil, strlcpyLoop, List.append_nil, List.drop_zero, Nat.add_zero]
  | cons b text ih =>
      cases post with
      | nil => cases hpost
      | cons old post =>
          have hb : b ≠ 0 := fun hcon => htext (hcon ▸ List.mem_cons_self)
          have hload := Cells.load_at (pre.map some) b (text.map some ++ rest)
          have hstore := Cells.store_at (pre.map some) old post b
          rw [List.length_map] at hload hstore
          have hnext := ih (fun hmem => htext (List.mem_cons_of_mem b hmem)) (pre ++ [b]) post
            (Nat.le_of_succ_le_succ hpost)
          rw [List.map_append, List.map_singleton, List.append_assoc, List.append_assoc, List.singleton_append,
            List.singleton_append, List.length_append, List.length_singleton, List.append_assoc,
            List.singleton_append] at hnext
          rw [List.length_cons, strlcpyLoop, List.map_cons, List.cons_append, hload, Cells.bind_ok, hstore,
            Cells.bind_ok, if_neg hb, hnext, List.drop_succ_cons, Nat.add_right_comm, Nat.add_assoc]

/-- A string that fits is copied with its NUL. -/
theorem strlcpy_text {text : List UInt8} (htext : 0 ∉ text) (post : Cells) {dst : Cells}
    (hdst : dst.length = text.length + 1) :
    strlcpy dst (text.map some ++ some 0 :: post) (text.length + 1)
      = .ok ((text ++ [0]).map some, text.length) := by
  have hloop := strlcpyLoop_text htext [] (some 0 :: post) dst (by omega)
  rw [List.map_nil, List.nil_append, List.nil_append, List.nil_append, List.length_nil, Nat.zero_add] at hloop
  obtain ⟨old, hlast⟩ : ∃ old, dst.drop text.length = [old] :=
    List.length_eq_one_iff.mp (by rw [List.length_drop]; omega)
  have hstore := Cells.store_at (text.map some) old [] 0
  have hscan := @Cells.scan_text [] (by simp) (text.map some) post _
    (Nat.succ_pos (text.map some ++ some 0 :: post).length)
  rw [List.length_map] at hstore hscan
  rw [List.map_nil, List.nil_append, List.length_nil, Nat.add_zero] at hscan
  rw [hlast] at hloop
  rw [strlcpy, Nat.add_sub_cancel, hloop, Cells.bind_ok]
  simp only [Bool.false_eq_true, if_false]
  rw [terminate, if_neg (Nat.succ_ne_zero _), hstore, Cells.bind_ok, hscan, Cells.bind_ok, List.map_append,
    List.map_singleton]
  rfl

/-- What is expected of the copy of a field: the bytes before its first NUL, or all of them, and a NUL; and
the old string where there is no memory. -/
def CopiesField (dest : Option Cells) (src : List UInt8) (t : Thread) : Prop :=
  ∃ rc dest' t', sgLupdateString dest (some (src.map some)) src.length t = .ok ((rc, dest'), t') ∧
    (t.mem 0 = true → rc = .none ∧ dest' = some ((upToNul src ++ [0]).map some)) ∧
    (t.mem 0 = false → rc = .malloc ∧ dest' = dest)

theorem sgLupdateString_copies (dest : Option Cells) {src : List UInt8} (hnul : 0 ∈ src) (t : Thread) :
    CopiesField dest src t := by
  obtain ⟨post, hpost⟩ := Block.takeWhile_nul hnul
  have htext : 0 ∉ upToNul src := by
    intro hmem
    simpa using List.mem_takeWhile_imp hmem
  have hsrc : src.map some = (upToNul src).map some ++ some 0 :: post.map some := by
    conv => lhs; rw [hpost]
    rw [List.map_append, List.map_cons]
    rfl
  have hlen : (upToNul src).length ≤ src.length := (List.takeWhile_sublist _).length_le
  have hne : src.length ≠ 0 := fun hzero => List.ne_nil_of_mem hnul (List.length_eq_zero_iff.mp hzero)
  have hstrnlen : sgStrnlen (src.map some) src.length = .ok (upToNul src).length := by
    have hloop := strnlenLoop_text htext [] (post.map some) hlen
    rw [List.nil_append, List.length_nil, Nat.zero_add] at hloop
    rw [sgStrnlen, if_neg hne, hsrc]
    exact hloop
  have hcopy : strlcpy ((dest.getD []).resize ((upToNul src).length + 1)) (src.map some)
      ((upToNul src).length + 1) = .ok ((upToNul src ++ [0]).map some, (upToNul src).length) := by
    rw [hsrc]
    exact strlcpy_text htext (post.map some) (Cells.resize_length _ _)
  cases hmem : t.mem 0 with
  | true =>
      refine ⟨.none, some ((upToNul src ++ [0]).map some), t.answered, ?_, fun _ => ⟨rfl, rfl⟩,
        fun hcon => absurd (hmem.symm.trans hcon) (by decide)⟩
      have halloc : onStringThread (sgRealloc ((upToNul src).length + 1)) t = .ok (true, t.answered) := by
        rw [onStringThread, sgRealloc_of_mem (Nat.succ_ne_zero _) hmem]
      rw [sgLupdateString, Prog.bind_of_ok (onCells_of_ok hstrnlen t), Prog.bind_of_ok halloc, if_pos rfl,
        Prog.bind_of_ok (onCells_of_ok hcopy _)]
      rfl
  | false =>
      refine ⟨.malloc, dest, { t.answered with glob := reallocError ((upToNul src).length + 1) }, ?_,
        fun hcon => absurd (hmem.symm.trans hcon) (by decide), fun _ => ⟨rfl, rfl⟩⟩
      have halloc : onStringThread (sgRealloc ((upToNul src).length + 1)) t
          = .ok (false, { t.answered with glob := reallocError ((upToNul src).length + 1) }) := by
        rw [onStringThread, sgRealloc_of_not_mem (Nat.succ_ne_zero _) hmem]
      rw [sgLupdateString, Prog.bind_of_ok (onCells_of_ok hstrnlen t), Prog.bind_of_ok halloc,
        if_neg Bool.false_ne_true]
      rfl

/-- A field without a NUL is read behind its end, before any memory is asked for. -/
theorem sgLupdateString_outside (dest : Option Cells) {src : List UInt8} (hne : src ≠ []) (hnul : 0 ∉ src)
    (t : Thread) : sgLupdateString dest (some (src.map some)) src.length t = .error (.inr .outside) := by
  have hlen : src.length ≠ 0 := fun hzero => hne (List.length_eq_zero_iff.mp hzero)
  have hstrnlen : sgStrnlen (src.map some) src.length = .error .outside := by
    have hloop := strnlenLoop_outside hnul []
    rw [List.nil_append, List.length_nil] at hloop
    rw [sgStrnlen, if_neg hlen]
    exact hloop
  exact Prog.bind_of_error (onCells_of_error hstrnlen t) _

/-- `sg_lupdate_string` on a field of exactly `maxlen` bytes stays inside it and copies it if and only if there
is a NUL in it. -/
theorem sgLupdateString_field_iff (dest : Option Cells) {src : List UInt8} (hne : src ≠ []) (t : Thread) :
    CopiesField dest src t ↔ 0 ∈ src := by
  constructor
  · rintro ⟨rc, dest', t', hrun, -⟩
    by_contra hnul
    rw [sgLupdateString_outside dest hne hnul t] at hrun
    cases hrun
  · intro hnul
    exact sgLupdateString_copies dest hnul t

def roomyThread : Thread := ⟨.clear, fun _ => true⟩

theorem sgLupdateString_root : CopiesField none (bytes "root" ++ [0, 0]) roomyThread :=
  (sgLupdateString_field_iff none (by decide) roomyThread).mpr (by decide)

/-- A name that fills its field. -/
theorem sgLupdateString_full : ¬ CopiesField none (bytes "root") roomyThread := by
  rintro ⟨rc, dest', t', hrun, -⟩
  rw [sgLupdateString_outside none (by decide) (by decide)] at hrun
  cases hrun

/-! ### A string is appended -/

/-- NULL, or a block that starts with this string. -/
def PointsTo : Option Cells → Option CString → Prop
  | none, none => True
  | some cells, some text => 0 ∉ text ∧ ∃ post, cells = text.map some ++ some 0 :: post
  | none, some _ => False
  | some _, none => False

theorem strlcatEnd_text {text : List UInt8} (htext : 0 ∉ text) (pre post : Cells) {n : Nat}
    (hn : text.length < n) :
    strlcatEnd (pre ++ (text.map some ++ some 0 :: post)) n pre.length = .ok (pre.length + text.length) := by
  induction text generalizing pre n with
  | nil =>
      cases n with
      | zero => cases hn
      | succ n =>
          rw [strlcatEnd, List.map_nil, List.nil_append, Cells.load_at, Cells.bind_ok, if_pos rfl]
          rfl
  | cons b text ih =>
      cases n with
      | zero => cases hn
      | succ n =>
          have hb : b ≠ 0 := fun hcon => htext (hcon ▸ List.mem_cons_self)
          have hnext := ih (fun hmem => htext (List.mem_cons_of_mem b hmem)) (pre ++ [some b])
            (Nat.lt_of_succ_lt_succ hn)
          rw [List.append_assoc, List.singleton_append, List.length_append, List.length_singleton] at hnext
          rw [strlcatEnd, List.map_cons, List.cons_append, Cells.load_at, Cells.bind_ok, if_neg hb, hnext,
            List.length_cons, Nat.add_right_comm, Nat.add_assoc]

theorem strlcatLoop_text {text : List UInt8} (htext : 0 ∉ text) (pre post front slots : Cells) {fuel : Nat}
    (hfuel : text.length < fuel) (hslots : slots.length = text.length + 1) :
    strlcatLoop (pre ++ (text.map some ++ some 0 :: post)) fuel pre.length (text.length + 1) front.length
      (front ++ slots) = .ok (front ++ (text ++ [0]).map some, pre.length + text.length) := by
  induction text generalizing pre front slots fuel with
  | nil =>
      cases fuel with
      | zero => cases hfuel
      | succ fuel =>
          obtain ⟨old, rfl⟩ := List.length_eq_one_iff.mp hslots
          rw [strlcatLoop, List.map_nil, List.nil_append, Cells.load_at, Cells.bind_ok, if_pos rfl, Cells.store_at,
            Cells.bind_ok]
          rfl
  | cons b text ih =>
      cases fuel with
      | zero => cases hfuel
      | succ fuel =>
          cases slots with
          | nil => cases hslots
          | cons old slots =>
              have hb : b ≠ 0 := fun hcon => htext (hcon ▸ List.mem_cons_self)
              have hroom : text.length + 1 + 1 ≠ 1 := by omega
              have hnext := ih (fun hmem => htext (List.mem_cons_of_mem b hmem)) (pre ++ [some b])
                (front ++ [some b]) slots (Nat.lt_of_succ_lt_succ hfuel) (Nat.succ.inj hslots)
              rw [List.append_assoc, List.singleton_append, List.length_append, List.length_singleton,
                List.append_assoc, List.singleton_append, List.length_append, List.length_singleton,
                List.append_assoc, List.singleton_append] at hnext
              rw [strlcatLoop, List.map_cons, List.cons_append, Cells.load_at, Cells.bind_ok, if_neg hb,
                List.length_cons, if_pos hroom, Cells.store_at, Cells.bind_ok, Nat.add_sub_cancel, hnext,
                Nat.add_right_comm, Nat.add_assoc]
              rfl

/-- A string is appended to another one in a block with room for both. -/
theorem strlcat_text {d s : List UInt8} (hd : 0 ∉ d) (hs : 0 ∉ s) (post post' : Cells)
    (hroom : post.length = s.length) :
    strlcat (d.map some ++ some 0 :: post) (some (s.map some ++ some 0 :: post')) (d.length + s.length + 1)
      = .ok ((d ++ s ++ [0]).map some, d.length + s.length) := by
  have hend := strlcatEnd_text hd [] post (show d.length < d.length + s.length + 1 by omega)
  rw [List.nil_append, List.length_nil, Nat.zero_add] at hend
  have hloop := strlcatLoop_text hs [] post' (d.map some) (some 0 :: post)
    (Cells.length_lt_fuel s post')
    (by rw [List.length_cons, hroom])
  rw [List.nil_append, List.length_nil, Nat.zero_add, List.length_map] at hloop
  have hleft : d.length + s.length + 1 - d.length = s.length + 1 := by omega
  rw [strlcat, hend, Cells.bind_ok]
  simp only [hleft]
  rw [if_neg (Nat.succ_ne_zero _), hloop, Cells.bind_ok, ← List.map_append, List.append_assoc]
  rfl

/-- What is expected of an appended string: both strings, NULL being an empty one; and the old string where
there is no memory. -/
def Concatenates (dest src : Option Cells) (d s : Option CString) (t : Thread) : Prop :=
  ∃ rc dest' t', sgConcatString (some dest) src t = .ok ((rc, some dest'), t') ∧
    (t.mem 0 = true → rc = .none ∧ PointsTo dest' (some (d.getD [] ++ s.getD []))) ∧
    (t.mem 0 = false → rc = .malloc ∧ dest' = dest)

section Concat

variable {dest src : Option Cells} {d s : Option CString} {t : Thread}

theorem lengthOf_eq (hdest : PointsTo dest d) : lengthOf dest = .ok (d.getD []).length := by
  cases dest with
  | none =>
      cases d with
      | none => rfl
      | some text => cases hdest
  | some cells =>
      cases d with
      | none => cases hdest
      | some text =>
          obtain ⟨htext, post, rfl⟩ := hdest
          exact Cells.strlen_text htext post

theorem sgConcatString_of_mem (hdest : PointsTo dest d) (hsrc : PointsTo src s) (hmem : t.mem 0 = true) :
    sgConcatString (some dest) src t = (do
      let (new, _) ← onCells (strlcat
        ((dest.getD []).resize ((d.getD []).length + (s.getD []).length + 1)) src
        ((d.getD []).length + (s.getD []).length + 1))
      return (.none, some (some new)) : StringM (SgError × Option (Option Cells))) t.answered := by
  have halloc : onStringThread (sgRealloc ((d.getD []).length + (s.getD []).length + 1)) t
      = .ok (true, t.answered) := by
    rw [onStringThread, sgRealloc_of_mem (Nat.succ_ne_zero _) hmem]
  rw [sgConcatString, Prog.bind_of_ok (onCells_of_ok (lengthOf_eq hdest) t),
    Prog.bind_of_ok (onCells_of_ok (lengthOf_eq hsrc) t), Prog.bind_of_ok halloc, if_pos rfl]

theorem sgConcatString_of_not_mem (hdest : PointsTo dest d) (hsrc : PointsTo src s) (hmem : t.mem 0 = false) :
    ∃ t', sgConcatString (some dest) src t = .ok ((.malloc, some dest), t') := by
  have halloc : onStringThread (sgRealloc ((d.getD []).length + (s.getD []).length + 1)) t
      = .ok (false, { t.answered with glob := reallocError ((d.getD []).length + (s.getD []).length + 1) }) := by
    rw [onStringThread, sgRealloc_of_not_mem (Nat.succ_ne_zero _) hmem]
  rw [sgConcatString, Prog.bind_of_ok (onCells_of_ok (lengthOf_eq hdest) t),
    Prog.bind_of_ok (onCells_of_ok (lengthOf_eq hsrc) t), Prog.bind_of_ok halloc, if_neg Bool.false_ne_true]
  exact ⟨_, rfl⟩

theorem sgConcatString_text {d s : CString} (hdest : PointsTo dest (some d)) (hsrc : PointsTo src (some s))
    (hmem : t.mem 0 = true) :
    sgConcatString (some dest) src t = .ok ((.none, some (some ((d ++ s ++ [0]).map some))), t.answered) := by
  rw [sgConcatString_of_mem hdest hsrc hmem]
  cases dest with
  | none => cases hdest
  | some cells =>
      cases src with
      | none => cases hsrc
      | some cells' =>
          obtain ⟨hd, post, rfl⟩ := hdest
          obtain ⟨hs, post', rfl⟩ := hsrc
          have hfront : d.map some ++ some 0 :: post = (d.map some ++ [some 0]) ++ post := by simp
          obtain ⟨post1, hresize, hlen⟩ := Cells.resize_front (d.map some ++ [some 0]) post
            (show (d.map some ++ [some 0]).length ≤ d.length + s.length + 1 by simp)
          have hcells : Cells.resize (d.map some ++ some 0 :: post) (d.length + s.length + 1)
              = d.map some ++ some 0 :: post1 := by
            rw [hfront, hresize, List.append_assoc, List.singleton_append]
          have hroom : post1.length = s.length := by
            rw [hlen, List.length_append, List.length_map, List.length_singleton]
            omega
          have hcat := strlcat_text hd hs post1 post' hroom
          rw [← hcells] at hcat
          exact Prog.bind_of_ok (onCells_of_ok hcat _) _

/-- Where there was no string, the new block is read before anything was written to it. -/
theorem sgConcatString_unset (hdest : PointsTo dest none) (hsrc : PointsTo src s) (hmem : t.mem 0 = true) :
    sgConcatString (some dest) src t = .error (.inr .unset) := by
  rw [sgConcatString_of_mem hdest hsrc hmem]
  cases dest with
  | some cells => cases hdest
  | none =>
      have hend : strlcatEnd (Cells.resize [] ((s.getD []).length + 1)) ((s.getD []).length + 1) 0
          = .error .unset := by
        have hload := Cells.load_unset [] (List.replicate (s.getD []).length none)
        rw [Cells.resize, List.take_nil, List.nil_append, List.length_nil, Nat.sub_zero, List.replicate_succ,
          strlcatEnd]
        rw [List.nil_append, List.length_nil] at hload
        rw [hload]
        rfl
      refine Prog.bind_of_error (onCells_of_error ?_ _) _
      rw [strlcat, Option.getD_none, Option.getD_none, List.length_nil, Nat.zero_add, hend]
      rfl

theorem sgConcatString_null {d : CString} (hdest : PointsTo dest (some d)) (hmem : t.mem 0 = true) :
    sgConcatString (some dest) none t = .error (.inr .null) := by
  rw [@sgConcatString_of_mem dest none (some d) none t hdest trivial hmem]
  cases dest with
  | none => cases hdest
  | some cells =>
      obtain ⟨hd, post, rfl⟩ := hdest
      have hfront : d.map some ++ some 0 :: post = (d.map some ++ [some 0]) ++ post := by simp
      obtain ⟨post1, hresize, -⟩ := Cells.resize_front (d.map some ++ [some 0]) post
        (show (d.map some ++ [some 0]).length ≤ d.length + 0 + 1 by simp)
      have hend := strlcatEnd_text hd [] post1 (show d.length < d.length + 0 + 1 by omega)
      rw [List.nil_append, List.length_nil, Nat.zero_add] at hend
      refine Prog.bind_of_error (onCells_of_error ?_ _) _
      rw [Option.getD_some, Option.getD_some, Option.getD_none, List.length_nil, hfront, hresize, List.append_assoc,
        List.singleton_append, strlcat, hend]
      rfl

/-- `sg_concat_string` for every `*dest` and `src`: where there is memory it does what is expected if and only if
neither is NULL, and where there is none it always does. -/
theorem sgConcatString_iff (hdest : PointsTo dest d) (hsrc : PointsTo src s) (t : Thread) :
    Concatenates dest src d s t ↔ (t.mem 0 = true → dest ≠ none ∧ src ≠ none) := by
  cases hmem : t.mem 0 with
  | false =>
      refine iff_of_true ?_ fun hcon => absurd hcon Bool.false_ne_true
      obtain ⟨t', hrun⟩ := sgConcatString_of_not_mem hdest hsrc hmem
      exact ⟨.malloc, dest, t', hrun, fun hcon => absurd (hmem.symm.trans hcon) Bool.false_ne_true,
        fun _ => ⟨rfl, rfl⟩⟩
  | true =>
      cases d with
      | none =>
          have hnone : dest = none := by
            cases dest with
            | none => rfl
            | some cells => cases hdest
          refine iff_of_false ?_ fun h => (h rfl).1 hnone
          rintro ⟨rc, dest', t', hrun, -⟩
          rw [sgConcatString_unset hdest hsrc hmem] at hrun
          cases hrun
      | some d =>
          cases s with
          | none =>
              cases src with
              | some cells => cases hsrc
              | none =>
                  refine iff_of_false ?_ fun h => (h rfl).2 rfl
                  rintro ⟨rc, dest', t', hrun, -⟩
                  rw [sgConcatString_null hdest hmem] at hrun
                  cases hrun
          | some s =>
              refine iff_of_true ⟨.none, _, _, sgConcatString_text hdest hsrc hmem, fun _ => ⟨rfl, ?_⟩,
                fun hcon => absurd (hmem.symm.trans hcon) (by decide)⟩ fun _ => ⟨?_, ?_⟩
              · refine ⟨?_, [], ?_⟩
                · cases dest with
                  | none => cases hdest
                  | some cells =>
                      cases src with
                      | none => cases hsrc
                      | some cells' =>
                          intro hnul
                          rcases List.mem_append.mp hnul with hnul | hnul
                          · exact hdest.1 hnul
                          · exact hsrc.1 hnul
                · rw [List.map_append, List.map_singleton]
                  rfl
              · rintro rfl
                cases hdest
              · rintro rfl
                cases hsrc

end Concat

theorem pointsTo_text {text : CString} (htext : 0 ∉ text) (post : Cells) :
    PointsTo (some (text.map some ++ some 0 :: post)) (some text) := ⟨htext, post, rfl⟩

/-- An interface and its number. -/
theorem sgConcatString_eth0 :
    Concatenates (some ((bytes "eth0").map some ++ [some 0])) (some ((bytes " #2").map some ++ [some 0]))
      (some (bytes "eth0")) (some (bytes " #2")) roomyThread :=
  (sgConcatString_iff (pointsTo_text (by decide) []) (pointsTo_text (by decide) [])
    roomyThread).mpr fun _ => ⟨Option.some_ne_none _, Option.some_ne_none _⟩

/-- A string is appended to NULL. -/
theorem sgConcatString_toNull :
    ¬ Concatenates none (some ((bytes "eth0").map some ++ [some 0])) none (some (bytes "eth0")) roomyThread := by
  rintro ⟨rc, dest', t', hrun, -⟩
  rw [@sgConcatString_unset none (some ((bytes "eth0").map some ++ [some 0])) (some (bytes "eth0")) roomyThread
    trivial (pointsTo_text (by decide) []) rfl] at hrun
  cases hrun

end Statgrab
