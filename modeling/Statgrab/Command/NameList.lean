import Statgrab.Command.Populate
import Statgrab.Lib.Cells

/-!
# The list of the users' names

`populate_user` writes the names of all users into one block, with a space behind each name, and overwrites the
last space with the NUL. The block is kept from one call to the next and resized each time, so it may hold an
older list, and the answer of `realloc` is not looked at.
-/

namespace Statgrab

open Text

/-! ### The code -/

/-- `strncpy(list + pos, src, n)`: a string that is shorter is filled up with NULs. -/
def strncpyAt (list : Cells) (pos : Nat) (src : CString) (n : Nat) : Except Misuse Cells :=
  if pos + n ≤ list.length then
    .ok (list.take pos ++ ((src ++ List.replicate (n - src.length) 0).take n).map some ++ list.drop (pos + n))
  else .error .outside

def nameListLength (names : List CString) : Nat := (names.map fun name => name.length + 1).sum

/-- The loop that copies the names from `pos` on: the list and the last `pos`. -/
def nameLoop : List CString → Nat → Cells → Except Misuse (Cells × Nat)
  | [], pos, list => .ok (list, pos)
  | name :: names, pos, list => do
      let list ← strncpyAt list pos name name.length
      let list ← list.store (pos + name.length) 32
      nameLoop names (pos + name.length + 1) list

/-- The names are copied, and the last space is overwritten with the NUL. -/
def fillNameList (names : List CString) (list : Cells) : Except Misuse Cells := do
  let (list, pos) ← nameLoop names 0 list
  let pos := if names.length ≠ 0 then pos - 1 else pos
  list.store pos 0

/-- The list of a call of `populate_user`, from the list of the one before and the answer of `realloc`. -/
def refreshNameList (granted : Bool) (old : Option Cells) (users : List ShownUser) : Except Misuse Cells :=
  let names := users.map (·.name)
  if granted then fillNameList names ((old.getD []).resize (nameListLength names + 1)) else .error .null

/-- Some calls of `populate_user`, one after the other. -/
def refreshNameLists : List (Bool × List ShownUser) → Option Cells → Except Misuse (Option Cells)
  | [], list => .ok list
  | (granted, users) :: calls, list => do
      let list ← refreshNameList granted list users
      refreshNameLists calls (some list)

/-! ### The list -/

def spaced (names : List CString) : List UInt8 := names.flatMap fun name => name ++ [32]

theorem spaced_length (names : List CString) : (spaced names).length = nameListLength names := by
  induction names with
  | nil => rfl
  | cons name names ih =>
      rw [spaced, List.flatMap_cons, ← spaced, List.length_append, List.length_append, ih]
      rfl

theorem spaced_eq {names : List CString} (hne : names ≠ []) : spaced names = [32].intercalate names ++ [32] := by
  induction names with
  | nil => exact absurd rfl hne
  | cons name names ih =>
      rw [spaced, List.flatMap_cons, ← spaced]
      cases names with
      | nil =>
          rw [List.intercalate_singleton]
          exact List.append_nil _
      | cons next names =>
          rw [ih (List.cons_ne_nil _ _), List.intercalate_cons_cons, List.append_assoc, List.append_assoc,
            List.append_assoc]

theorem strncpyAt_run (pre post : Cells) {old : Cells} {src : CString} (hold : old.length = src.length) :
    strncpyAt (pre ++ (old ++ post)) pre.length src src.length = .ok (pre ++ (src.map some ++ post)) := by
  have hin : pre.length + src.length ≤ (pre ++ (old ++ post)).length := by
    rw [List.length_append, List.length_append, hold]
    omega
  have hend : (pre ++ (old ++ post)).drop (pre.length + src.length) = post := by
    rw [← List.append_assoc, ← hold, ← List.length_append, List.drop_left]
  rw [strncpyAt, if_pos hin, hend, List.take_left, Nat.sub_self, List.replicate_zero, List.append_nil,
    List.take_length, List.append_assoc]

theorem nameLoop_run (names : List CString) (pre post : Cells) {old : Cells}
    (hold : old.length = nameListLength names) :
    nameLoop names pre.length (pre ++ (old ++ post))
      = .ok (pre ++ ((spaced names).map some ++ post), pre.length + nameListLength names) := by
  induction names generalizing pre old with
  | nil =>
      rw [List.length_eq_zero_iff.mp hold]
      rfl
  | cons name names ih =>
      have hcons : nameListLength (name :: names) = name.length + 1 + nameListLength names := rfl
      rw [hcons] at hold
      obtain ⟨room, rest, rfl, hroom⟩ : ∃ room rest, old = room ++ rest ∧ room.length = name.length :=
        ⟨old.take name.length, old.drop name.length, (List.take_append_drop _ _).symm,
          List.length_take_of_le (by omega)⟩
      rw [List.length_append, hroom] at hold
      cases rest with
      | nil =>
          rw [List.length_nil] at hold
          omega
      | cons space rest =>
          rw [List.length_cons] at hold
          have hlength : rest.length = nameListLength names := by omega
          have hnext := ih (pre ++ name.map some ++ [some 32]) hlength
          have hat : pre.length + name.length = (pre ++ name.map some).length := by
            rw [List.length_append, List.length_map]
          have hafter : (pre ++ name.map some).length + 1 = (pre ++ name.map some ++ [some 32]).length := by
            rw [List.length_append, List.length_append, List.length_singleton, List.length_append]
          have hrest : pre ++ name.map some ++ some 32 :: (rest ++ post)
              = pre ++ name.map some ++ [some 32] ++ (rest ++ post) := List.append_cons _ _ _
          have hspaced : pre ++ name.map some ++ [some 32] ++ ((spaced names).map some ++ post)
              = pre ++ ((spaced (name :: names)).map some ++ post) := by
            rw [spaced, spaced, List.flatMap_cons, List.map_append, List.map_append]
            simp only [List.append_assoc]
            rfl
          rw [nameLoop, List.append_assoc, strncpyAt_run pre (space :: rest ++ post) hroom, Cells.bind_ok, hat,
            ← List.append_assoc, List.cons_append, Cells.store_at, Cells.bind_ok, hafter, hrest, hnext, hspaced,
            ← hafter, ← hat, hcons]
          congr 2
          omega

/-- The names are in the list with a space between two of them, and nothing is written outside the block. -/
theorem fillNameList_run (names : List CString) {list : Cells} (hlist : list.length = nameListLength names + 1) :
    fillNameList names list
      = .ok (([32].intercalate names).map some ++ some 0 :: list.drop (([32].intercalate names).length + 1)) := by
  obtain ⟨room, last, rfl, hroom⟩ : ∃ room last, list = room ++ [last] ∧ room.length = nameListLength names := by
    have hne : list ≠ [] := by
      rintro rfl
      cases hlist
    refine ⟨list.dropLast, list.getLast hne, (List.dropLast_append_getLast hne).symm, ?_⟩
    rw [List.length_dropLast, hlist, Nat.add_sub_cancel]
  have hloop := nameLoop_run names [] [last] hroom
  rw [List.nil_append, List.length_nil, List.nil_append, Nat.zero_add] at hloop
  rw [fillNameList, hloop, Cells.bind_ok]
  by_cases hnone : names = []
  · subst hnone
    rw [List.length_eq_zero_iff.mp hroom]
    rfl
  · have hlength : names.length ≠ 0 := fun hzero => hnone (List.length_eq_zero_iff.mp hzero)
    have hspaced := spaced_length names
    rw [spaced_eq hnone, List.length_append, List.length_singleton] at hspaced
    have hpos : nameListLength names - 1 = (([32].intercalate names).map some).length := by
      rw [List.length_map]
      omega
    have hdrop : (room ++ [last]).drop (([32].intercalate names).length + 1) = [last] := by
      rw [hspaced, ← hroom, List.drop_left]
    simp only [if_pos hlength, hpos]
    rw [spaced_eq hnone, List.map_append, List.append_assoc, List.map_singleton, List.singleton_append,
      Cells.store_at, hdrop]

theorem refreshNameList_run (old : Option Cells) (users : List ShownUser) :
    ∃ rest, refreshNameList true old users = .ok ((nameList users).map some ++ some 0 :: rest) := by
  rw [refreshNameList, nameList]
  exact ⟨_, fillNameList_run _ (Cells.resize_length _ _)⟩

/-- Over any calls, the last list has the names of its users, whatever the lists before it were. Where memory is
refused once, the command writes through NULL. -/
theorem refreshNameLists_run (calls : List (Bool × List ShownUser)) (granted : Bool) (users : List ShownUser)
    (old : Option Cells) :
    ∃ rest, refreshNameLists (calls ++ [(granted, users)]) old
      = if calls.all (·.1) && granted then .ok (some ((nameList users).map some ++ some 0 :: rest))
        else .error .null := by
  induction calls generalizing old with
  | nil =>
      cases granted with
      | false => exact ⟨[], rfl⟩
      | true =>
          obtain ⟨rest, hrest⟩ := refreshNameList_run old users
          refine ⟨rest, ?_⟩
          rw [List.nil_append, refreshNameLists, hrest]
          rfl
  | cons call calls ih =>
      obtain ⟨first, others⟩ := call
      cases first with
      | false => exact ⟨[], rfl⟩
      | true =>
          obtain ⟨rest, hrest⟩ := refreshNameList_run old others
          rw [List.cons_append, refreshNameLists, hrest, List.all_cons, Bool.true_and]
          exact ih _

end Statgrab
