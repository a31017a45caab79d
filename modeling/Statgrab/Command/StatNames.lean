import Mathlib.Algebra.Group.Int.Defs
import Mathlib.Algebra.GroupWithZero.Nat
import Statgrab.Command.Sections
import Statgrab.Lib.Cells
import Statgrab.Lib.Heap

/-!
# The names of the stats

`add_stat` pastes the name of a stat together from its parts. A first pass over the arguments measures the name,
and a second one writes it, with a dot behind every part; the last dot gives way to the NUL. As a space or dot
within a part becomes an underscore, the dots of a name are those between its parts.

The array of the stats grows by 64 items, and `clear_stats` gives the names back but keeps the array.
-/

namespace Statgrab

open Text

/-! ### The code -/

/-- The `int` that a larger number is stored as. -/
def toInt (n : Int) : Int := n.bmod (2 ^ 32)

/-- The `size_t` that an `int` is passed as. -/
def toSize (n : Int) : Nat := (n % 2 ^ 64).toNat

/-- The first loop of `add_stat`, which measures the name with a byte behind every part. -/
def nameLen (parts : List CString) : Int :=
  parts.foldl (fun len part => toInt (len + (1 + part.length))) 0

/-- `memcpy(p, part, partlen)`. A part has its NUL behind it. -/
def copyPart (name : Cells) (p : Nat) (part : CString) (partlen : Nat) : Except Misuse Cells :=
  if p + partlen ≤ name.length ∧ partlen ≤ part.length + 1 then
    .ok (name.take p ++ ((part ++ [0]).take partlen).map some ++ name.drop (p + partlen))
  else .error .outside

/-- A space or dot at `p` is replaced by an underscore. -/
def replaceByte (name : Cells) (p : Nat) : Except Misuse Cells := do
  let b ← name.load p
  if b = 32 ∨ b = 46 then name.store p 95 else return name

/-- The loop over the bytes of a part: the name, and `p` behind the part. -/
def replaceLoop : Nat → Nat → Cells → Except Misuse (Cells × Nat)
  | 0, p, name => .ok (name, p)
  | partlen + 1, p, name => do
      let name ← replaceByte name p
      replaceLoop partlen (p + 1) name

/-- The second loop of `add_stat`, which writes the parts from `p` on. -/
def pasteLoop : List CString → Nat → Cells → Except Misuse (Cells × Nat)
  | [], p, name => .ok (name, p)
  | part :: parts, p, name => do
      let partlen := toInt part.length
      let name ← copyPart name p part (toSize partlen)
      let (name, p) ← replaceLoop partlen.toNat p name
      let name ← name.store p 46
      pasteLoop parts (p + 1) name

/-- The name is pasted together, and its last dot is overwritten with the NUL. -/
def pasteName (parts : List CString) (name : Cells) : Except Misuse Cells := do
  let (name, p) ← pasteLoop parts 0 name
  match p with
  | 0 => .error .outside
  | p + 1 => name.store p 0

/-! ### The name of a stat -/

def sanitise (part : CString) : CString := part.map fun b => if b = 32 ∨ b = 46 then 95 else b

def statName (parts : List CString) : CString := [46].intercalate (parts.map sanitise)

def nameSize (parts : List CString) : Nat := (parts.map fun part => part.length + 1).sum

def pasted (parts : List CString) : List UInt8 := parts.flatMap fun part => sanitise part ++ [46]

theorem sanitise_length (part : CString) : (sanitise part).length = part.length := List.length_map _

theorem sanitise_no_dot (part : CString) : 46 ∉ sanitise part := by
  intro hmem
  obtain ⟨b, -, hb⟩ := List.mem_map.mp hmem
  split at hb
  · cases hb
  · next hne => exact hne (.inr hb)

theorem sanitise_no_nul {part : CString} (hpart : 0 ∉ part) : 0 ∉ sanitise part := by
  intro hmem
  obtain ⟨b, hb, hzero⟩ := List.mem_map.mp hmem
  split at hzero
  · cases hzero
  · exact hpart (hzero ▸ hb)

theorem pasted_length (parts : List CString) : (pasted parts).length = nameSize parts := by
  induction parts with
  | nil => rfl
  | cons part parts ih =>
      rw [pasted, List.flatMap_cons, List.length_append, List.length_append, sanitise_length, ← pasted, ih]
      rfl

theorem pasted_eq {parts : List CString} (hne : parts ≠ []) : pasted parts = statName parts ++ [46] := by
  induction parts with
  | nil => exact absurd rfl hne
  | cons part parts ih =>
      rw [pasted, List.flatMap_cons, ← pasted]
      cases parts with
      | nil =>
          rw [statName, List.map_singleton, List.intercalate_singleton]
          exact List.append_nil _
      | cons next parts =>
          rw [ih (List.cons_ne_nil _ _), statName, statName, List.map_cons, List.map_cons, List.map_cons,
            List.intercalate_cons_cons, List.append_assoc, List.append_assoc, List.append_assoc]

theorem statName_length {parts : List CString} (hne : parts ≠ []) : (statName parts).length + 1 = nameSize parts := by
  rw [← pasted_length, pasted_eq hne, List.length_append, List.length_singleton]

theorem statName_fields {parts : List CString} (hne : parts ≠ []) :
    (statName parts).splitOn 46 = parts.map sanitise := by
  refine List.splitOn_intercalate 46 ?_ (by simpa using hne)
  intro field hfield
  obtain ⟨part, -, rfl⟩ := List.mem_map.mp hfield
  exact sanitise_no_dot part

theorem statName_no_nul {parts : List CString} (hne : parts ≠ []) (hparts : ∀ part ∈ parts, 0 ∉ part) :
    0 ∉ statName parts := by
  intro hmem
  have hpasted : 0 ∈ pasted parts := by
    rw [pasted_eq hne]
    exact List.mem_append_left _ hmem
  obtain ⟨part, hpart, hzero⟩ := List.mem_flatMap.mp hpasted
  rcases List.mem_append.mp hzero with hzero | hzero
  · exact sanitise_no_nul (hparts part hpart) hzero
  · cases List.mem_singleton.mp hzero

/-! ### The two passes -/

theorem toInt_of_lt {n : Nat} (hn : n < 2 ^ 31) : toInt n = n := by
  rw [toInt, Int.bmod_eq_of_le (by omega) (by omega)]

theorem toSize_of_lt {n : Nat} (hn : n < 2 ^ 31) : toSize n = n := by
  rw [toSize]
  omega

theorem nameLen_from {parts : List CString} {len : Nat} (hsize : len + nameSize parts < 2 ^ 31) :
    parts.foldl (fun len part => toInt (len + (1 + part.length))) (len : Int)
      = ((len + nameSize parts : Nat) : Int) := by
  induction parts generalizing len with
  | nil => rfl
  | cons part parts ih =>
      have hcons : nameSize (part :: parts) = part.length + 1 + nameSize parts := rfl
      rw [hcons] at hsize ⊢
      have hsum : (len : Int) + (1 + part.length) = ((len + (part.length + 1) : Nat) : Int) := by omega
      have hlt : len + (part.length + 1) < 2 ^ 31 := by omega
      rw [List.foldl_cons, hsum, toInt_of_lt hlt, ih (by omega), Nat.add_assoc]

theorem nameLen_eq {parts : List CString} (hsize : nameSize parts < 2 ^ 31) : nameLen parts = nameSize parts := by
  have hlen := @nameLen_from parts 0 (by rwa [Nat.zero_add])
  rwa [Nat.zero_add] at hlen

theorem copyPart_at (pre old post : Cells) {part : CString} (hold : old.length = part.length) :
    copyPart (pre ++ old ++ post) pre.length part part.length = .ok (pre ++ part.map some ++ post) := by
  have hin : pre.length + part.length ≤ (pre ++ old ++ post).length := by
    rw [List.length_append, List.length_append, hold]
    exact Nat.le_add_right _ _
  have hend : pre.length + part.length = (pre ++ old).length := by rw [List.length_append, hold]
  rw [copyPart, if_pos ⟨hin, Nat.le_succ _⟩, List.take_left, hend, List.drop_left, List.append_assoc pre old post,
    List.take_left]

theorem replaceByte_at (pre post : Cells) (b : UInt8) :
    replaceByte (pre ++ some b :: post) pre.length
      = .ok (pre ++ some (if b = 32 ∨ b = 46 then 95 else b) :: post) := by
  rw [replaceByte, Cells.load_at, Cells.bind_ok]
  by_cases hb : b = 32 ∨ b = 46
  · rw [if_pos hb, if_pos hb, Cells.store_at]
  · rw [if_neg hb, if_neg hb]
    rfl

theorem replaceLoop_run (part : CString) (pre post : Cells) :
    replaceLoop part.length pre.length (pre ++ part.map some ++ post)
      = .ok (pre ++ (sanitise part).map some ++ post, pre.length + part.length) := by
  induction part generalizing pre with
  | nil => rfl
  | cons b part ih =>
      have hnext := ih (pre ++ [some (if b = 32 ∨ b = 46 then 95 else b)])
      rw [List.length_append, List.length_singleton] at hnext
      rw [List.map_cons, List.append_assoc, List.cons_append, List.length_cons, replaceLoop, replaceByte_at,
        Cells.bind_ok]
      rw [List.append_assoc, List.append_assoc, List.singleton_append, List.append_assoc, List.append_assoc,
        List.singleton_append] at hnext
      rw [hnext, Nat.add_assoc, Nat.add_comm 1, List.append_assoc]
      rfl

theorem pasteLoop_run {parts : List CString} (pre old : Cells) (hold : old.length = nameSize parts)
    (hsize : nameSize parts < 2 ^ 31) :
    pasteLoop parts pre.length (pre ++ old)
      = .ok (pre ++ (pasted parts).map some, (pre ++ (pasted parts).map some).length) := by
  induction parts generalizing pre old with
  | nil =>
      rw [List.length_eq_zero_iff.mp hold]
      show pasteLoop [] pre.length (pre ++ []) = .ok (pre ++ [], (pre ++ []).length)
      rw [List.append_nil]
      rfl
  | cons part parts ih =>
      have hcons : nameSize (part :: parts) = part.length + 1 + nameSize parts := rfl
      rw [hcons] at hold hsize
      have hlt : part.length < 2 ^ 31 := by omega
      obtain ⟨room, rest, rfl, hroom⟩ : ∃ room rest, old = room ++ rest ∧ room.length = part.length :=
        ⟨old.take part.length, old.drop part.length, (List.take_append_drop _ _).symm,
          List.length_take_of_le (by omega)⟩
      rw [List.length_append, hroom] at hold
      cases rest with
      | nil =>
          rw [List.length_nil] at hold
          omega
      | cons dot rest =>
          rw [List.length_cons] at hold
          have hnext := ih (pre ++ (sanitise part).map some ++ [some 46]) rest (by omega) (by omega)
          have hat : pre.length + part.length = (pre ++ (sanitise part).map some).length := by
            rw [List.length_append, List.length_map, sanitise_length]
          have hpasted : pre ++ (sanitise part).map some ++ [some 46] ++ (pasted parts).map some
              = pre ++ (pasted (part :: parts)).map some := by
            rw [pasted, pasted, List.flatMap_cons, List.map_append, List.map_append]
            simp only [List.append_assoc]
            rfl
          rw [hpasted, List.length_append, List.length_singleton, List.append_assoc, List.singleton_append] at hnext
          rw [pasteLoop, toInt_of_lt hlt, toSize_of_lt hlt, Int.toNat_natCast, ← List.append_assoc,
            copyPart_at pre room (dot :: rest) hroom, Cells.bind_ok, replaceLoop_run, Cells.bind_ok, hat]
          simp only
          rw [Cells.store_at, Cells.bind_ok, hnext]

/-- The name is written over all bytes of its block. -/
theorem pasteName_run {parts : List CString} (hne : parts ≠ []) {name : Cells}
    (hname : name.length = nameSize parts) (hsize : nameSize parts < 2 ^ 31) :
    pasteName parts name = .ok ((statName parts ++ [0]).map some) := by
  have hloop := pasteLoop_run [] name hname hsize
  rw [List.nil_append, List.length_nil, List.nil_append, pasted_eq hne, List.map_append, List.map_singleton,
    List.length_append, List.length_singleton] at hloop
  rw [pasteName, hloop, Cells.bind_ok, List.map_append, List.map_singleton]
  exact Cells.store_at _ _ _ _

end Statgrab
