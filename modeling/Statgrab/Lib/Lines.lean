import Statgrab.Lib.Text

/-!
# Lines

A text whose lines have no newline of their own is taken apart at its newlines. A line is cut at the first place
where a separator stands, so the part before it comes back where the separator cannot begin within that part.
-/

namespace Text

def unlines (lines : List (List UInt8)) : List UInt8 := lines.flatMap fun line => line ++ [10]

/-- The lines of a text. What is behind the last newline is no line. -/
def linesOf (text : List UInt8) : List (List UInt8) := (text.splitOn 10).dropLast

theorem splitOn_unlines {lines : List (List UInt8)} (h : ∀ line ∈ lines, 10 ∉ line) :
    (unlines lines).splitOn 10 = lines ++ [[]] := by
  induction lines with
  | nil => rfl
  | cons line lines ih =>
      have hrest := ih fun l hl => h l (List.mem_cons_of_mem line hl)
      rw [unlines, List.flatMap_cons, ← unlines, List.append_assoc, List.singleton_append,
        List.splitOn_append_cons_self_of_not_mem (h line List.mem_cons_self), hrest, List.cons_append]

theorem linesOf_unlines {lines : List (List UInt8)} (h : ∀ line ∈ lines, 10 ∉ line) :
    linesOf (unlines lines) = lines := by
  rw [linesOf, splitOn_unlines h, List.dropLast_concat]

/-- A line at the first separator: what is before it, and what is behind it. -/
def cut (sep : List UInt8) : List UInt8 → Option (List UInt8 × List UInt8)
  | [] => none
  | b :: line =>
      if sep <+: b :: line then some ([], (b :: line).drop sep.length)
      else (cut sep line).map fun (front, back) => (b :: front, back)

/-- A line is cut where it was put together, if the separator does not stand earlier. -/
theorem cut_append {sep front back : List UInt8} (hne : sep ≠ [])
    (h : ∀ b text, b :: text <:+ front → ¬ sep <+: b :: text ++ (sep ++ back)) :
    cut sep (front ++ (sep ++ back)) = some (front, back) := by
  induction front with
  | nil =>
      obtain ⟨c, sep, rfl⟩ := List.exists_cons_of_ne_nil hne
      have hstart : c :: sep <+: c :: (sep ++ back) := List.prefix_append _ back
      rw [List.nil_append, List.cons_append, cut, if_pos hstart, ← List.cons_append, List.drop_left]
  | cons b front ih =>
      have hrest := ih fun b' text hsuffix => h b' text (hsuffix.trans (List.suffix_cons b front))
      have hlater : ¬ sep <+: b :: (front ++ (sep ++ back)) := h b front List.suffix_rfl
      rw [List.cons_append, cut, if_neg hlater, hrest]
      rfl

/-- A separator whose first byte is not in the part before it. -/
theorem cut_first {c : UInt8} {front : List UInt8} (hfront : c ∉ front) (sep back : List UInt8) :
    cut (c :: sep) (front ++ (c :: sep ++ back)) = some (front, back) := by
  apply cut_append (List.cons_ne_nil c sep)
  intro b text hsuffix hstart
  have hsame : c = b := (List.cons_prefix_cons.mp hstart).1
  rw [hsame] at hfront
  exact hfront (hsuffix.subset List.mem_cons_self)

/-- A separator of two bytes, the second of which is neither the first one nor in the part before it. -/
theorem cut_second {c d : UInt8} {front : List UInt8} (hne : d ≠ c) (hfront : d ∉ front) (back : List UInt8) :
    cut [c, d] (front ++ ([c, d] ++ back)) = some (front, back) := by
  apply cut_append (List.cons_ne_nil c [d])
  intro b text hsuffix hstart
  have hrest := (List.cons_prefix_cons.mp hstart).2
  cases text with
  | nil => exact hne (List.cons_prefix_cons.mp hrest).1
  | cons b' text =>
      have hsame : d = b' := (List.cons_prefix_cons.mp hrest).1
      rw [hsame] at hfront
      exact hfront (hsuffix.subset (List.mem_cons_of_mem b List.mem_cons_self))

/-! ### Reading the lines -/

theorem readLines_all {size : Nat} {lines : List (List UInt8)}
    (hfit : ∀ line ∈ lines, line.length < size - 1 ∧ 10 ∉ line) (failure : Option Int) :
    readLines size ⟨unlines lines, failure⟩ = lines.map (· ++ [10]) := by
  induction lines with
  | nil => rfl
  | cons line lines ih =>
      obtain ⟨hlen, hnewline⟩ := hfit line List.mem_cons_self
      have htext : unlines (line :: lines) = line ++ 10 :: unlines lines := by
        rw [unlines, List.flatMap_cons, List.append_assoc]
        rfl
      rw [htext, readLines_line hlen hnewline, ih fun l hl => hfit l (List.mem_cons_of_mem line hl),
        List.map_cons]

/-- Of a line the first `size - 1` bytes are read at once. What else is read of it comes from behind them. -/
theorem readLines_chunks {size : Nat} (hsize : 2 ≤ size) {text : List UInt8} (hline : 10 ∉ text)
    (rest : List UInt8) (failure : Option Int) :
    ∃ chunks, readLines size ⟨text ++ 10 :: rest, failure⟩
        = (text ++ [10]).take (size - 1) :: (chunks ++ readLines size ⟨rest, failure⟩) ∧
      ∀ chunk ∈ chunks, chunk ≠ [] ∧ ∀ b ∈ chunk, b ∈ (text ++ [10]).drop (size - 1) := by
  induction hlen : text.length using Nat.strongRecOn generalizing text with
  | _ n ih =>
      by_cases hfits : text.length < size - 1
      · refine ⟨[], ?_, by simp⟩
        have hall : (text ++ [10]).take (size - 1) = text ++ [10] := by
          apply List.take_of_length_le
          rw [List.length_append, List.length_singleton]
          omega
        rw [readLines_line hfits hline, hall, List.nil_append]
      · have hle : size - 1 ≤ text.length := Nat.le_of_not_lt hfits
        have hshorter : (text.drop (size - 1)).length < n := by
          rw [List.length_drop]
          omega
        obtain ⟨chunks, hread, hchunks⟩ := ih _ hshorter
          (fun hmem => hline (List.mem_of_mem_drop hmem)) rfl
        have hdrop : (text ++ [10]).drop (size - 1) = text.drop (size - 1) ++ [10] :=
          List.drop_append_of_le_length hle
        refine ⟨(text.drop (size - 1) ++ [10]).take (size - 1) :: chunks, ?_, ?_⟩
        · rw [readLines_long hsize hle hline, hread, List.take_append_of_le_length hle, List.cons_append]
        · intro chunk hchunk
          rw [hdrop]
          rcases List.mem_cons.mp hchunk with rfl | hchunk
          · refine ⟨?_, fun b hb => List.mem_of_mem_take hb⟩
            intro hnil
            rw [List.take_eq_nil_iff] at hnil
            rcases hnil with hzero | hnil
            · omega
            · simp at hnil
          · refine ⟨(hchunks chunk hchunk).1, ?_⟩
            intro b hb
            exact List.mem_of_mem_drop ((hchunks chunk hchunk).2 b hb)

end Text
