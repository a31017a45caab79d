import Mathlib.Data.List.Basic
import Mathlib.Tactic.Ring

/-!
# Blocks of bytes

A block of memory is the list of its bytes. Every access is checked against the length of the block: an
access behind its end has no answer, so a computation that has one stayed inside.
-/

abbrev Block := List UInt8

namespace Block

def store (block : Block) (i : Nat) (b : UInt8) : Option Block :=
  if i < block.length then some (block.set i b) else none

/-- The C string that starts at `i`. Reading it stops at the first NUL, which has to be in the block. -/
def cstr (block : Block) (i : Nat) : Option (List UInt8) :=
  if 0 ∈ block.drop i then some ((block.drop i).takeWhile (· ≠ 0)) else none

def strlen (block : Block) (i : Nat) : Option Nat := (block.cstr i).map List.length

def memcpy (block : Block) (i : Nat) (src : List UInt8) : Option Block :=
  if i + src.length ≤ block.length then
    some (block.take i ++ src ++ block.drop (i + src.length))
  else none

/-- `realloc` to `n` bytes: what was there is kept, and `raw` is what the new bytes hold. -/
def resize (raw : Nat → UInt8) (block : Block) (n : Nat) : Block :=
  (List.range n).map fun i => block.getD i (raw i)

theorem getElem?_at (pre : List UInt8) (b : UInt8) (post : List UInt8) :
    (pre ++ b :: post)[pre.length]? = some b := by
  simp

theorem store_at (pre : List UInt8) (b c : UInt8) (post : List UInt8) :
    store (pre ++ b :: post) pre.length c = some (pre ++ c :: post) := by
  have hlt : pre.length < (pre ++ b :: post).length := by simp
  rw [store, if_pos hlt, List.set_append_right _ _ (Nat.le_refl _), Nat.sub_self, List.set_cons_zero]

/-- A NUL-free text that is followed by a NUL is the C string at its start. -/
theorem cstr_at (pre : List UInt8) {text : List UInt8} (htext : 0 ∉ text) (post : List UInt8) :
    cstr (pre ++ (text ++ 0 :: post)) pre.length = some text := by
  have hall : ∀ b ∈ text, decide (b ≠ 0) = true := by
    intro b hb
    simp only [decide_eq_true_eq]
    exact fun h => htext (h ▸ hb)
  rw [cstr, List.drop_left, if_pos (by simp), List.takeWhile_append_of_pos hall,
    List.takeWhile_cons_of_neg (by simp), List.append_nil]

theorem takeWhile_nul {text : List UInt8} (h : 0 ∈ text) :
    ∃ post, text = text.takeWhile (· ≠ 0) ++ 0 :: post := by
  induction text with
  | nil => cases h
  | cons b text ih =>
      by_cases hb : b = 0
      · exact ⟨text, by simp [hb]⟩
      · obtain ⟨post, hpost⟩ := ih (by simpa [Ne.symm hb] using h)
        refine ⟨post, ?_⟩
        rw [List.takeWhile_cons_of_pos (by simpa using hb), List.cons_append, ← hpost]

theorem strlen_at (pre : List UInt8) {text : List UInt8} (htext : 0 ∉ text) (post : List UInt8) :
    strlen (pre ++ (text ++ 0 :: post)) pre.length = some text.length := by
  rw [strlen, cstr_at pre htext post]
  rfl

@[simp] theorem resize_length (raw : Nat → UInt8) (block : Block) (n : Nat) :
    (resize raw block n).length = n := by
  simp [resize]

theorem resize_take (raw : Nat → UInt8) (block : Block) {m n : Nat} (hm : m ≤ block.length)
    (hn : m ≤ n) : (resize raw block n).take m = block.take m := by
  apply List.ext_getElem
  · simp only [List.length_take, resize_length]
    omega
  · intro i hi _
    have hlt : i < block.length := by
      rw [List.length_take] at hi
      omega
    simp [resize, hlt]

/-! ### Numbers -/

def number : List UInt8 → Nat
  | [] => 0
  | b :: bs => b.toNat + 256 * number bs

/-- The lowest `len` bytes of a number, the lowest one first. -/
def digits : Nat → Nat → List UInt8
  | 0, _ => []
  | len + 1, n => UInt8.ofNat n :: digits len (n / 256)

def word (block : Block) (i len : Nat) : Option Nat :=
  if i + len ≤ block.length then some (number ((block.drop i).take len)) else none

@[simp] theorem digits_length (len n : Nat) : (digits len n).length = len := by
  induction len generalizing n with
  | zero => rfl
  | succ len ih => rw [digits, List.length_cons, ih]

theorem number_digits (len n : Nat) : number (digits len n) = n % 256 ^ len := by
  induction len generalizing n with
  | zero => rw [digits, number, Nat.pow_zero, Nat.mod_one]
  | succ len ih =>
      rw [digits, number, ih, Nat.pow_succ, Nat.mul_comm (256 ^ len), Nat.mod_mul]
      rfl

theorem number_append (as bs : List UInt8) :
    number (as ++ bs) = number as + 256 ^ as.length * number bs := by
  induction as with
  | nil => simp [number]
  | cons a as ih =>
      rw [List.cons_append, number, number, ih, List.length_cons, Nat.pow_succ', Nat.mul_add,
        Nat.mul_assoc, Nat.add_assoc]

theorem word_of_drop {block : Block} {i len : Nat} {bs rest : List UInt8} (h : block.drop i = bs ++ rest)
    (hlen : bs.length = len) (hpos : 0 < len) : word block i len = some (number bs) := by
  have hdrop := congrArg List.length h
  rw [List.length_drop, List.length_append] at hdrop
  rw [word, if_pos (by omega), h, ← hlen, List.take_left]

theorem word_record {α : Type} {f : α → Block} {size : Nat} (hsize : ∀ x, (f x).length = size)
    (header : Block) (xs : List α) (k : Nat) {off len : Nat} (hlen : 0 < len) (hoff : off + len ≤ size) :
    word (header ++ xs.flatMap f) (header.length + (size * k + off)) len
      = xs[k]?.bind fun x => word (f x) off len := by
  induction xs generalizing header k with
  | nil =>
      rw [word, if_neg]
      · rfl
      · rw [List.flatMap_nil, List.append_nil]
        omega
  | cons x xs ih =>
      cases k with
      | zero =>
          have hfx := hsize x
          have hin : header.length + (size * 0 + off) + len ≤ (header ++ (x :: xs).flatMap f).length := by
            rw [List.flatMap_cons, List.length_append, List.length_append]
            omega
          rw [List.getElem?_cons_zero, Option.bind_some, word, word, if_pos hin, if_pos (by omega),
            Nat.mul_zero, Nat.zero_add, List.drop_length_add_append, List.flatMap_cons,
            List.drop_append_of_le_length (by omega),
            List.take_append_of_le_length (by rw [List.length_drop]; omega)]
      | succ k =>
          have ih := ih (header ++ f x) k
          rw [List.getElem?_cons_succ, ← ih, List.flatMap_cons, List.append_assoc, List.length_append,
            hsize]
          congr 1
          rw [Nat.mul_succ]
          omega

end Block
