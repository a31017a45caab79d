import Mathlib.Data.List.Basic

/-!
# Binary search

The search of a key in the first entries of a list, with the comparison of the key against an entry for
its only access. Reading behind the list has no answer. Where the comparison is monotone along the list
the search finds the key if it is among the entries, and it never reads outside them.
-/

namespace Search

variable {α : Type}

/-- The search among the entries from `lo` below `hi`, in at most `fuel` rounds. -/
def bsearch (compare : α → Ordering) (entries : List α) : Nat → Nat → Nat → Option Bool
  | 0, _, _ => some false
  | fuel + 1, lo, hi =>
      if lo < hi then
        match entries[(lo + hi) / 2]? with
        | none => none
        | some x =>
            match compare x with
            | .eq => some true
            | .lt => bsearch compare entries fuel lo ((lo + hi) / 2)
            | .gt => bsearch compare entries fuel ((lo + hi) / 2 + 1) hi
      else some false

/-- The key stays before the entries behind one it is before, and behind those before one it is behind. -/
def Monotone (compare : α → Ordering) (x y : α) : Prop :=
  (compare x = .lt → compare y = .lt) ∧ (compare y = .gt → compare x = .gt)

/-- The key is at one of the entries from `lo` below `hi`. -/
def Found (compare : α → Ordering) (entries : List α) (lo hi : Nat) : Prop :=
  ∃ i x, lo ≤ i ∧ i < hi ∧ entries[i]? = some x ∧ compare x = .eq

/-- The same search with the place of the entry it stops at. -/
def locate (compare : α → Ordering) (entries : List α) : Nat → Nat → Nat → Option (Option Nat)
  | 0, _, _ => some none
  | fuel + 1, lo, hi =>
      if lo < hi then
        match entries[(lo + hi) / 2]? with
        | none => none
        | some x =>
            match compare x with
            | .eq => some (some ((lo + hi) / 2))
            | .lt => locate compare entries fuel lo ((lo + hi) / 2)
            | .gt => locate compare entries fuel ((lo + hi) / 2 + 1) hi
      else some none

theorem bsearch_eq_locate (compare : α → Ordering) (entries : List α) (fuel lo hi : Nat) :
    bsearch compare entries fuel lo hi = (locate compare entries fuel lo hi).map Option.isSome := by
  induction fuel generalizing lo hi with
  | zero => rfl
  | succ fuel ih =>
      rw [bsearch, locate]
      by_cases hlt : lo < hi
      · rw [if_pos hlt, if_pos hlt]
        cases entries[(lo + hi) / 2]? with
        | none => rfl
        | some x =>
            cases hcmp : compare x with
            | eq => simp only [hcmp, Option.map_some, Option.isSome_some]
            | lt => simp only [hcmp, ih]
            | gt => simp only [hcmp, ih]
      · rw [if_neg hlt, if_neg hlt]
        rfl

theorem locate_cases {compare : α → Ordering} {entries : List α} {n : Nat}
    (hmono : (entries.take n).Pairwise (Monotone compare)) (hn : n ≤ entries.length)
    (fuel lo hi : Nat) (hfuel : hi - lo ≤ fuel) (hhi : hi ≤ n) :
    (∃ i x, locate compare entries fuel lo hi = some (some i) ∧ lo ≤ i ∧ i < hi ∧ entries[i]? = some x ∧
      compare x = .eq) ∨
      (locate compare entries fuel lo hi = some none ∧ ¬ Found compare entries lo hi) := by
  have hpair : ∀ i j (hi : i < entries.length) (hj : j < entries.length), i < j → j < n →
      Monotone compare entries[i] entries[j] := by
    intro i j hi hj hij hjn
    have h := List.pairwise_iff_getElem.mp hmono i j (by simp; omega) (by simp; omega) hij
    simpa using h
  induction fuel generalizing lo hi with
  | zero =>
      refine .inr ⟨rfl, ?_⟩
      rintro ⟨i, x, hlo, hlt, -⟩
      omega
  | succ fuel ih =>
      by_cases hlt : lo < hi
      · have hmid : (lo + hi) / 2 < entries.length := by omega
        have hx : entries[(lo + hi) / 2]? = some entries[(lo + hi) / 2] :=
          List.getElem?_eq_getElem hmid
        rw [locate, if_pos hlt, hx]
        cases hcmp : compare entries[(lo + hi) / 2] with
        | eq =>
            simp only [hcmp]
            exact .inl ⟨_, _, rfl, by omega, by omega, hx, hcmp⟩
        | lt =>
            simp only [hcmp]
            rcases ih lo ((lo + hi) / 2) (by omega) (by omega) with
              ⟨i, x, hrun, hlo, hi', hfound⟩ | ⟨hrun, hnot⟩
            · exact .inl ⟨i, x, hrun, hlo, by omega, hfound⟩
            · refine .inr ⟨hrun, ?_⟩
              rintro ⟨i, y, hlo, hi', hy, heq⟩
              refine hnot ⟨i, y, hlo, ?_, hy, heq⟩
              by_contra hge
              obtain ⟨hlen, rfl⟩ := List.getElem?_eq_some_iff.mp hy
              rcases Nat.eq_or_lt_of_le (Nat.not_lt.mp hge) with hsame | hafter
              · simp only [← hsame, hcmp] at heq
                cases heq
              · rw [(hpair _ _ hmid hlen hafter (by omega)).1 hcmp] at heq
                cases heq
        | gt =>
            simp only [hcmp]
            rcases ih ((lo + hi) / 2 + 1) hi (by omega) hhi with
              ⟨i, x, hrun, hlo, hi', hfound⟩ | ⟨hrun, hnot⟩
            · exact .inl ⟨i, x, hrun, by omega, hi', hfound⟩
            · refine .inr ⟨hrun, ?_⟩
              rintro ⟨i, y, hlo, hi', hy, heq⟩
              refine hnot ⟨i, y, ?_, hi', hy, heq⟩
              by_contra hbefore
              obtain ⟨hlen, rfl⟩ := List.getElem?_eq_some_iff.mp hy
              rcases Nat.eq_or_lt_of_le (Nat.lt_succ_iff.mp (Nat.not_le.mp hbefore)) with hsame | hbefore
              · simp only [hsame, hcmp] at heq
                cases heq
              · rw [(hpair _ _ hlen hmid hbefore (by omega)).2 hcmp] at heq
                cases heq
      · refine .inr ⟨by rw [locate, if_neg hlt], ?_⟩
        rintro ⟨i, x, hlo, hi', -⟩
        omega

theorem bsearch_found {compare : α → Ordering} {entries : List α} {n : Nat}
    (hmono : (entries.take n).Pairwise (Monotone compare)) (hn : n ≤ entries.length)
    (fuel lo hi : Nat) (hfuel : hi - lo ≤ fuel) (hhi : hi ≤ n) :
    ∃ found, bsearch compare entries fuel lo hi = some found ∧
      (found = true ↔ Found compare entries lo hi) := by
  rw [bsearch_eq_locate]
  rcases locate_cases hmono hn fuel lo hi hfuel hhi with ⟨i, x, hrun, hfound⟩ | ⟨hrun, hnot⟩
  · rw [hrun]
    exact ⟨true, rfl, iff_of_true rfl ⟨i, x, hfound⟩⟩
  · rw [hrun]
    exact ⟨false, rfl, iff_of_false Bool.false_ne_true hnot⟩

theorem bsearch_map {β : Type} (f : α → β) (compare : β → Ordering) (entries : List α)
    (fuel lo hi : Nat) : bsearch compare (entries.map f) fuel lo hi
      = bsearch (fun x => compare (f x)) entries fuel lo hi := by
  induction fuel generalizing lo hi with
  | zero => rfl
  | succ fuel ih =>
      rw [bsearch, bsearch, List.getElem?_map]
      cases entries[(lo + hi) / 2]? with
      | none => rfl
      | some x =>
          simp only [Option.map_some]
          rw [ih, ih]

/-! ### Any search -/

/-- What is said of `bsearch` where the entries that the key is behind come first and those it is before
come last: it returns an entry with the key, and nothing where there is none. Which of several such
entries it returns is open. -/
structure Lawful (search : (α → Ordering) → List α → Option Nat) : Prop where
  found : ∀ {compare entries i}, entries.Pairwise (Monotone compare) → search compare entries = some i →
    ∃ x, entries[i]? = some x ∧ compare x = .eq
  missed : ∀ {compare entries}, entries.Pairwise (Monotone compare) → search compare entries = none →
    ∀ x ∈ entries, compare x ≠ .eq

def halves (compare : α → Ordering) (entries : List α) : Option Nat :=
  (locate compare entries entries.length 0 entries.length).join

theorem exists_block {compare : α → Ordering} {entries : List α}
    (hmono : entries.Pairwise (Monotone compare)) :
    ∃ front block back, entries = front ++ block ++ back ∧ (∀ x ∈ front, compare x = .gt) ∧
      (∀ x ∈ block, compare x = .eq) ∧ ∀ x ∈ back, compare x = .lt := by
  induction entries with
  | nil => exact ⟨[], [], [], rfl, nofun, nofun, nofun⟩
  | cons x entries ih =>
      obtain ⟨hx, hrest⟩ := List.pairwise_cons.mp hmono
      obtain ⟨front, block, back, rfl, hfront, hblock, hback⟩ := ih hrest
      have hnil : compare x ≠ .gt → front = [] := by
        intro hne
        cases front with
        | nil => rfl
        | cons y front =>
            have hy := hfront y List.mem_cons_self
            exact absurd ((hx y (by simp)).2 hy) hne
      cases hcmp : compare x with
      | gt =>
          refine ⟨x :: front, block, back, rfl, ?_, hblock, hback⟩
          intro y hy
          rcases List.mem_cons.mp hy with rfl | hy
          · exact hcmp
          · exact hfront y hy
      | eq =>
          obtain rfl := hnil (by rw [hcmp]; decide)
          refine ⟨[], x :: block, back, rfl, nofun, ?_, hback⟩
          intro y hy
          rcases List.mem_cons.mp hy with rfl | hy
          · exact hcmp
          · exact hblock y hy
      | lt =>
          obtain rfl := hnil (by rw [hcmp]; decide)
          refine ⟨[], [], x :: (block ++ back), rfl, nofun, nofun, ?_⟩
          intro y hy
          rcases List.mem_cons.mp hy with rfl | hy
          · exact hcmp
          · exact (hx y hy).1 hcmp

theorem monotone_of_isLE {cmp : α → α → Ordering} [Std.TransCmp cmp] (key : α) {x y : α}
    (hxy : (cmp x y).isLE = true) : Monotone (cmp key) x y := by
  constructor
  · intro hlt
    exact Std.TransCmp.lt_of_lt_of_isLE hlt hxy
  · intro hgt
    exact Std.TransCmp.gt_of_gt_of_isGE hgt (Std.OrientedCmp.isGE_iff_isLE.mpr hxy)

/-! ### Any order of probes -/

/-- A search among the entries from `lo` below `hi` can have this outcome: it looks at any of them, and goes on
at the side that the comparison points to. -/
inductive Probes (compare : α → Ordering) (entries : List α) : Nat → Nat → Option Nat → Prop
  | done {lo hi : Nat} (hdone : hi ≤ lo) : Probes compare entries lo hi none
  | hit {lo hi mid : Nat} {x : α} (hlo : lo ≤ mid) (hhi : mid < hi) (hx : entries[mid]? = some x)
      (heq : compare x = .eq) : Probes compare entries lo hi (some mid)
  | before {lo hi mid : Nat} {x : α} {r : Option Nat} (hlo : lo ≤ mid) (hhi : mid < hi)
      (hx : entries[mid]? = some x) (hlt : compare x = .lt) (hrest : Probes compare entries lo mid r) :
      Probes compare entries lo hi r
  | behind {lo hi mid : Nat} {x : α} {r : Option Nat} (hlo : lo ≤ mid) (hhi : mid < hi)
      (hx : entries[mid]? = some x) (hgt : compare x = .gt) (hrest : Probes compare entries (mid + 1) hi r) :
      Probes compare entries lo hi r

/-- What is known of a `bsearch` whatever the entries are: it looks at some of them in some order. -/
def Probing (search : (α → Ordering) → List α → Option Nat) : Prop :=
  ∀ compare entries, Probes compare entries 0 entries.length (search compare entries)

section Probes

variable {compare : α → Ordering} {entries : List α} {lo hi : Nat}

theorem Probes.found {i : Nat} (h : Probes compare entries lo hi (some i)) :
    ∃ x, entries[i]? = some x ∧ compare x = .eq := by
  generalize hr : some i = r at h
  induction h with
  | done => cases hr
  | hit _ _ hx heq =>
      cases hr
      exact ⟨_, hx, heq⟩
  | before _ _ _ _ _ ih => exact ih hr
  | behind _ _ _ _ _ ih => exact ih hr

/-- Nothing is missed where the entries are in the order of the key. -/
theorem Probes.missed (hmono : entries.Pairwise (Monotone compare)) (h : Probes compare entries lo hi none) :
    ∀ i x, lo ≤ i → i < hi → entries[i]? = some x → compare x ≠ .eq := by
  have hpair : ∀ {i j : Nat} {x y : α}, i < j → entries[i]? = some x → entries[j]? = some y →
      Monotone compare x y := by
    intro i j x y hij hx hy
    obtain ⟨hi, rfl⟩ := List.getElem?_eq_some_iff.mp hx
    obtain ⟨hj, rfl⟩ := List.getElem?_eq_some_iff.mp hy
    exact List.pairwise_iff_getElem.mp hmono i j hi hj hij
  generalize hr : (none : Option Nat) = r at h
  induction h with
  | done hdone =>
      intro i x hlo hhi
      omega
  | hit => cases hr
  | @before lo hi mid x r _ _ hx hlt _ ih =>
      intro i y hlo hhi hy
      by_cases hlow : i < mid
      · exact ih hr i y hlo hlow hy
      · rcases Nat.eq_or_lt_of_le (Nat.le_of_not_lt hlow) with rfl | hlater
        · rw [hx] at hy
          cases hy
          rw [hlt]
          decide
        · rw [(hpair hlater hx hy).1 hlt]
          decide
  | @behind lo hi mid x r _ _ hx hgt _ ih =>
      intro i y hlo hhi hy
      by_cases hhigh : mid < i
      · exact ih hr i y hhigh hhi hy
      · rcases Nat.eq_or_lt_of_le (Nat.le_of_not_lt hhigh) with rfl | hearlier
        · rw [hx] at hy
          cases hy
          rw [hgt]
          decide
        · rw [(hpair hearlier hy hx).2 hgt]
          decide

theorem Probes.of_mem {x : α} (hx : x ∈ entries) (heq : compare x = .eq) :
    ∃ i, Probes compare entries 0 entries.length (some i) := by
  obtain ⟨i, hi, rfl⟩ := List.getElem_of_mem hx
  exact ⟨i, .hit (Nat.zero_le i) hi (List.getElem?_eq_getElem hi) heq⟩

theorem locate_probes {fuel : Nat} (hfuel : hi - lo ≤ fuel) (hhi : hi ≤ entries.length) :
    Probes compare entries lo hi (locate compare entries fuel lo hi).join := by
  induction fuel generalizing lo hi with
  | zero => exact .done (by omega)
  | succ fuel ih =>
      rw [locate]
      by_cases hlt : lo < hi
      · have hmid : (lo + hi) / 2 < entries.length := by omega
        have hx := List.getElem?_eq_getElem hmid
        rw [if_pos hlt, hx]
        cases hcmp : compare entries[(lo + hi) / 2] with
        | eq =>
            simp only [hcmp]
            exact .hit (by omega) (by omega) hx hcmp
        | lt =>
            simp only [hcmp]
            exact .before (by omega) (by omega) hx hcmp (ih (by omega) (by omega))
        | gt =>
            simp only [hcmp]
            exact .behind (by omega) (by omega) hx hcmp (ih (by omega) hhi)
      · rw [if_neg hlt]
        exact .done (by omega)

theorem halves_probing : Probing (halves (α := α)) := fun _ _ => locate_probes (Nat.sub_le _ _) (Nat.le_refl _)

theorem exists_probing {r : Option Nat} (h : Probes compare entries 0 entries.length r) :
    ∃ search : (α → Ordering) → List α → Option Nat, Probing search ∧ search compare entries = r := by
  classical
  refine ⟨fun compare' entries' => if compare' = compare ∧ entries' = entries then r else halves compare' entries',
    ?_, if_pos ⟨rfl, rfl⟩⟩
  intro compare' entries'
  beta_reduce
  by_cases hsame : compare' = compare ∧ entries' = entries
  · obtain ⟨rfl, rfl⟩ := hsame
    rw [if_pos ⟨rfl, rfl⟩]
    exact h
  · rw [if_neg hsame]
    exact halves_probing compare' entries'

theorem Probing.eq_none {search : (α → Ordering) → List α → Option Nat} (hsearch : Probing search)
    (hnone : ∀ x ∈ entries, compare x ≠ .eq) : search compare entries = none := by
  rcases Option.eq_none_or_eq_some (search compare entries) with hr | ⟨i, hr⟩
  · exact hr
  · have hprobes := hsearch compare entries
    rw [hr] at hprobes
    obtain ⟨x, hx, heq⟩ := hprobes.found
    exact absurd heq (hnone x (List.mem_of_getElem? hx))

/-- A search by probes meets what is said of `bsearch`. -/
theorem Probing.lawful {search : (α → Ordering) → List α → Option Nat} (hsearch : Probing search) :
    Lawful search := by
  constructor
  · intro compare entries i _ hi
    have hprobes := hsearch compare entries
    rw [hi] at hprobes
    exact hprobes.found
  · intro compare entries hmono hnone x hx
    have hprobes := hsearch compare entries
    rw [hnone] at hprobes
    obtain ⟨i, hi, rfl⟩ := List.getElem_of_mem hx
    exact hprobes.missed hmono i _ (Nat.zero_le i) hi (List.getElem?_eq_getElem hi)

theorem halves_lawful : Lawful (halves (α := α)) := halves_probing.lawful

end Probes

/-! ### Any sort -/

/-- What is said of `qsort`: the same entries, in an order that the comparison allows. The order of entries
that compare as equal is open. -/
structure Sorts (sort : (α → α → Ordering) → List α → List α) : Prop where
  perm : ∀ cmp entries, (sort cmp entries).Perm entries
  sorted : ∀ (cmp : α → α → Ordering) [Std.TransCmp cmp] entries,
    (sort cmp entries).Pairwise fun x y => (cmp x y).isLE = true

/-- Where entries that compare equal are the same there is one order. -/
theorem sorted_unique {cmp : α → α → Ordering} [Std.OrientedCmp cmp] {entries entries' : List α}
    (hperm : entries.Perm entries') (h : entries.Pairwise fun x y => (cmp x y).isLE = true)
    (h' : entries'.Pairwise fun x y => (cmp x y).isLE = true)
    (hdistinct : ∀ x ∈ entries, ∀ y ∈ entries', cmp x y = .eq → x = y) : entries = entries' := by
  refine List.Perm.eq_of_pairwise ?_ h h' hperm
  intro x y hx hy hxy hyx
  exact hdistinct x hx y hy (Ordering.eq_eq_of_isLE_of_isGE hxy (Std.OrientedCmp.isGE_iff_isLE.mpr hyx))

def merging (cmp : α → α → Ordering) (entries : List α) : List α :=
  entries.mergeSort fun x y => (cmp x y).isLE

theorem merging_sorts : Sorts (merging (α := α)) := by
  constructor
  · intro cmp entries
    exact List.mergeSort_perm entries _
  · intro cmp hcmp entries
    refine List.pairwise_mergeSort ?_ ?_ entries
    · intro x y z hxy hyz
      exact Std.TransCmp.isLE_trans hxy hyz
    · intro x y
      rw [Bool.or_eq_true]
      cases hcmp : cmp x y with
      | lt => exact .inl rfl
      | eq => exact .inl rfl
      | gt => exact .inr (Std.OrientedCmp.isGE_iff_isLE.mp (by rw [hcmp]; rfl))

end Search
