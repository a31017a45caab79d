import Mathlib.Data.List.Basic

/-!
# Blocks with bytes that may be unset

A block of memory as the allocator hands it out: a byte that was not written yet has no value. Reading such
a byte, reading or writing outside the block and following NULL are misuses, so a computation that returns
does none of it, whatever the block held before.
-/

inductive Misuse where
  | outside
  | unset
  | null
  deriving DecidableEq, Repr

abbrev Cells := List (Option UInt8)

namespace Cells

def load (cells : Cells) (i : Nat) : Except Misuse UInt8 :=
  match cells[i]? with
  | none => .error .outside
  | some none => .error .unset
  | some (some b) => .ok b

def store (cells : Cells) (i : Nat) (b : UInt8) : Except Misuse Cells :=
  if i < cells.length then .ok (cells.set i (some b)) else .error .outside

/-- `realloc(p, n)`: what was there is kept, and new bytes are unset. -/
def resize (cells : Cells) (n : Nat) : Cells := cells.take n ++ List.replicate (n - cells.length) none

/-- The index of the first NUL from `i` on, in at most `fuel` bytes. -/
def scan (cells : Cells) : Nat → Nat → Except Misuse Nat
  | 0, _ => .error .outside
  | fuel + 1, i => do
      let b ← cells.load i
      if b = 0 then return i else scan cells fuel (i + 1)

/-- `strlen(p)`. A block without a NUL is read past its end. -/
def strlen (cells : Cells) : Except Misuse Nat := cells.scan (cells.length + 1) 0

/-- Whether `strcmp(p, q)` is 0, from the index `i` on and in at most `fuel` bytes. -/
def sameFrom (cells cells' : Cells) : Nat → Nat → Except Misuse Bool
  | 0, _ => .error .outside
  | fuel + 1, i => do
      let b ← cells.load i
      let b' ← cells'.load i
      if b ≠ b' then return false
      else if b = 0 then return true
      else sameFrom cells cells' fuel (i + 1)

/-- `strcmp(p, q) == 0`. -/
def same (cells cells' : Cells) : Except Misuse Bool := sameFrom cells cells' (cells.length + 1) 0

@[simp] theorem bind_ok {β γ : Type} (b : β) (f : β → Except Misuse γ) : (Except.ok b >>= f) = f b := rfl

@[simp] theorem bind_error {β γ : Type} (m : Misuse) (f : β → Except Misuse γ) :
    (Except.error m >>= f) = .error m := rfl

theorem load_at (pre : Cells) (b : UInt8) (post : Cells) : load (pre ++ some b :: post) pre.length = .ok b := by
  rw [load, List.getElem?_append_right (Nat.le_refl _), Nat.sub_self, List.getElem?_cons_zero]

theorem load_unset (pre post : Cells) : load (pre ++ none :: post) pre.length = .error .unset := by
  rw [load, List.getElem?_append_right (Nat.le_refl _), Nat.sub_self, List.getElem?_cons_zero]

theorem load_outside {cells : Cells} {i : Nat} (hi : cells.length ≤ i) : load cells i = .error .outside := by
  rw [load, List.getElem?_eq_none hi]

theorem store_at (pre : Cells) (old : Option UInt8) (post : Cells) (b : UInt8) :
    store (pre ++ old :: post) pre.length b = .ok (pre ++ some b :: post) := by
  have hlt : pre.length < (pre ++ old :: post).length := by simp
  rw [store, if_pos hlt, List.set_append_right _ _ (Nat.le_refl _), Nat.sub_self, List.set_cons_zero]

/-- A text without a NUL that is followed by one is scanned to its end. -/
theorem scan_text {text : List UInt8} (htext : 0 ∉ text) (pre post : Cells) {fuel : Nat}
    (hfuel : text.length < fuel) :
    scan (pre ++ (text.map some ++ some 0 :: post)) fuel pre.length = .ok (pre.length + text.length) := by
  induction text generalizing pre fuel with
  | nil =>
      cases fuel with
      | zero => cases hfuel
      | succ fuel =>
          rw [scan, List.map_nil, List.nil_append, load_at, bind_ok, if_pos rfl]
          rfl
  | cons b text ih =>
      cases fuel with
      | zero => cases hfuel
      | succ fuel =>
          have hb : b ≠ 0 := fun hcon => htext (hcon ▸ List.mem_cons_self)
          have hnext := ih (fun hmem => htext (List.mem_cons_of_mem b hmem)) (pre ++ [some b])
            (Nat.lt_of_succ_lt_succ hfuel)
          rw [List.append_assoc, List.singleton_append, List.length_append, List.length_singleton] at hnext
          rw [scan, List.map_cons, List.cons_append, load_at, bind_ok, if_neg hb, hnext, List.length_cons,
            Nat.add_right_comm, Nat.add_assoc]

theorem length_lt_fuel (text : List UInt8) (post : Cells) :
    text.length < (text.map some ++ some 0 :: post).length + 1 := by
  rw [List.length_append, List.length_map]
  omega

theorem strlen_text {text : List UInt8} (htext : 0 ∉ text) (post : Cells) :
    strlen (text.map some ++ some 0 :: post) = .ok text.length := by
  have hscan := scan_text htext [] post (length_lt_fuel text post)
  rw [List.nil_append, List.length_nil, Nat.zero_add] at hscan
  exact hscan

theorem sameFrom_text {text text' : List UInt8} (htext : 0 ∉ text) (htext' : 0 ∉ text') (pre post post' : Cells)
    {fuel : Nat} (hfuel : text.length < fuel) :
    sameFrom (pre ++ (text.map some ++ some 0 :: post)) (pre ++ (text'.map some ++ some 0 :: post')) fuel
      pre.length = .ok (decide (text = text')) := by
  induction text generalizing text' pre fuel with
  | nil =>
      cases fuel with
      | zero => cases hfuel
      | succ fuel =>
          cases text' with
          | nil =>
              rw [sameFrom, List.map_nil, List.nil_append, load_at, bind_ok, List.nil_append, load_at, bind_ok,
                if_neg (by simp), if_pos rfl]
              rfl
          | cons b' text' =>
              have hb' : 0 ≠ b' := fun hcon => htext' (hcon ▸ List.mem_cons_self)
              rw [sameFrom, List.map_nil, List.nil_append, load_at, bind_ok, List.map_cons, List.cons_append,
                load_at, bind_ok, if_pos hb']
              rfl
  | cons b text ih =>
      cases fuel with
      | zero => cases hfuel
      | succ fuel =>
          have hb : b ≠ 0 := fun hcon => htext (hcon ▸ List.mem_cons_self)
          have hrest := fun hmem => htext (List.mem_cons_of_mem b hmem)
          cases text' with
          | nil =>
              rw [sameFrom, List.map_cons, List.cons_append, load_at, bind_ok, List.map_nil, List.nil_append, load_at,
                bind_ok, if_pos hb]
              rfl
          | cons b' text' =>
              rw [sameFrom, List.map_cons, List.cons_append, load_at, bind_ok, List.map_cons, List.cons_append,
                load_at, bind_ok]
              by_cases hbb : b = b'
              · subst hbb
                have hnext := ih hrest (fun hmem => htext' (List.mem_cons_of_mem b hmem)) (pre ++ [some b])
                  (Nat.lt_of_succ_lt_succ hfuel)
                rw [List.append_assoc, List.singleton_append, List.append_assoc, List.singleton_append,
                  List.length_append, List.length_singleton] at hnext
                rw [if_neg (by simp), if_neg hb, hnext]
                simp
              · rw [if_pos hbb]
                simp [hbb]
                rfl

theorem same_text {text text' : List UInt8} (htext : 0 ∉ text) (htext' : 0 ∉ text') (post post' : Cells) :
    same (text.map some ++ some 0 :: post) (text'.map some ++ some 0 :: post') = .ok (decide (text = text')) := by
  have hsame := sameFrom_text htext htext' [] post post' (length_lt_fuel text post)
  rw [List.nil_append, List.nil_append, List.length_nil] at hsame
  exact hsame

/-- A block keeps its first bytes when it grows or shrinks behind them. -/
theorem resize_front (front post : Cells) {n : Nat} (hn : front.length ≤ n) :
    ∃ post', resize (front ++ post) n = front ++ post' ∧ post'.length = n - front.length := by
  refine ⟨post.take (n - front.length) ++ List.replicate (n - (front ++ post).length) none, ?_, ?_⟩
  · rw [resize, List.take_append, List.take_of_length_le hn, List.append_assoc]
  · rw [List.length_append, List.length_take, List.length_replicate, List.length_append]
    omega

@[simp] theorem resize_length (cells : Cells) (n : Nat) : (resize cells n).length = n := by
  rw [resize, List.length_append, List.length_take, List.length_replicate]
  omega

end Cells
