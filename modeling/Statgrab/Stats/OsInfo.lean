import Statgrab.Lib.Search
import Statgrab.Lib.Text
import Statgrab.Tools

/-!
# The width of an architecture

`get_bitwidth_by_arch_name` looks the name of an architecture up in a table of 64 bit ones and then in one of
32 bit ones, by `bsearch`. Its comparison stops at the end of the shorter string, so that "amd64-foo" is found by
"amd64". It takes a short name for the longer entry as well: "sparc" is a 64 bit architecture by "sparcv9".

Strings that are equal for it are not equal to the same ones, and a search can go past an entry: the name "armv7"
is at "arm" and behind "armeb". The tables of the BSDs also have "sh3el" before "sh3eb".
-/

namespace Statgrab

open Text Search

/-! ### The code -/

inductive ArchTables where
  | solaris
  | bsd
  deriving DecidableEq, Repr

def ArchTables.isa32 : ArchTables → List CString
  | solaris => [bytes "i386", bytes "sparc"]
  | bsd => [bytes "arm", bytes "armeb", bytes "hppa", bytes "i386", bytes "m68000", bytes "m68k", bytes "mips",
      bytes "powerpc", bytes "sh3el", bytes "sh3eb", bytes "sparc", bytes "vax"]

def ArchTables.isa64 : ArchTables → List CString
  | solaris => [bytes "amd64", bytes "sparcv9"]
  | bsd => [bytes "alpha", bytes "amd64", bytes "hppa64", bytes "ia64", bytes "mips64", bytes "mips64el",
      bytes "sparc64", bytes "x86_64"]

/-- The sign of `cmp_arch_name`. -/
def cmpArchName (a b : CString) : Ordering :=
  strncmp a b (if b.length < a.length then b.length else a.length)

/-- `get_bitwidth_by_arch_name`, with the `bsearch` of the system. -/
def getBitwidthByArchName (bsearch : (CString → Ordering) → List CString → Option Nat) (tables : ArchTables)
    (archName : CString) : Nat :=
  match bsearch (cmpArchName archName) tables.isa64 with
  | some _ => 64
  | none =>
      match bsearch (cmpArchName archName) tables.isa32 with
      | some _ => 32
      | none => 0

/-! ### The comparison -/

theorem cmpArchName_nil (b : CString) : cmpArchName [] b = .eq := by
  cases b with
  | nil => rfl
  | cons b bs => rfl

theorem cmpArchName_nil_right (a : CString) : cmpArchName a [] = .eq := by
  cases a with
  | nil => rfl
  | cons a as => rfl

theorem cmpArchName_cons (a b : UInt8) (as bs : CString) :
    cmpArchName (a :: as) (b :: bs) = (compare a b).then (cmpArchName as bs) := by
  have hlength : (if (b :: bs).length < (a :: as).length then (b :: bs).length else (a :: as).length)
      = (if bs.length < as.length then bs.length else as.length) + 1 := by
    simp only [List.length_cons]
    split <;> split <;> omega
  rw [cmpArchName, hlength, strncmp, List.take_succ_cons, List.take_succ_cons, strcmp_cons]
  rfl

theorem cmpArchName_eq_iff {a b : CString} : cmpArchName a b = .eq ↔ a <+: b ∨ b <+: a := by
  induction a generalizing b with
  | nil => simp [cmpArchName_nil]
  | cons a as ih =>
      cases b with
      | nil => simp [cmpArchName_nil_right]
      | cons b bs =>
          rw [cmpArchName_cons, List.cons_prefix_cons, List.cons_prefix_cons, Ordering.then_eq_eq, ih,
            Std.LawfulEqCmp.compare_eq_iff_eq]
          grind

theorem cmpArchName_swap (a b : CString) : cmpArchName a b = (cmpArchName b a).swap := by
  induction a generalizing b with
  | nil =>
      rw [cmpArchName_nil, cmpArchName_nil_right]
      rfl
  | cons a as ih =>
      cases b with
      | nil =>
      rw [cmpArchName_nil, cmpArchName_nil_right]
      rfl
      | cons b bs =>
          have hhead : compare a b = (compare b a).swap := Std.OrientedCmp.eq_swap
          rw [cmpArchName_cons, cmpArchName_cons, ih, Ordering.swap_then, hhead]

/-- The strict order is one, though the equality is none. -/
theorem cmpArchName_lt_trans {a b c : CString} (hab : cmpArchName a b = .lt) (hbc : cmpArchName b c = .lt) :
    cmpArchName a c = .lt := by
  induction a generalizing b c with
  | nil =>
      rw [cmpArchName_nil] at hab
      cases hab
  | cons a as ih =>
      cases b with
      | nil =>
          rw [cmpArchName_nil] at hbc
          cases hbc
      | cons b bs =>
          cases c with
          | nil =>
              rw [cmpArchName_nil_right] at hbc
              cases hbc
          | cons c cs =>
              rw [cmpArchName_cons, Ordering.then_eq_lt] at hab hbc ⊢
              rcases hab with hab | ⟨hab, has⟩
              · rcases hbc with hbc | ⟨hbc, -⟩
                · exact .inl (Std.TransCmp.lt_trans hab hbc)
                · rw [Std.LawfulEqCmp.compare_eq_iff_eq] at hbc
                  exact .inl (hbc ▸ hab)
              · rw [Std.LawfulEqCmp.compare_eq_iff_eq] at hab
                subst hab
                rcases hbc with hbc | ⟨hbc, hbs⟩
                · exact .inl hbc
                · exact .inr ⟨hbc, ih has hbs⟩

/-- What stands behind a difference does not matter. -/
theorem cmpArchName_extend {a a' : CString} (h : a <+: a') {b : CString} (hne : cmpArchName a b ≠ .eq) :
    cmpArchName a' b = cmpArchName a b := by
  induction a generalizing a' b with
  | nil => exact absurd (cmpArchName_nil b) hne
  | cons a as ih =>
      obtain ⟨rest, rfl⟩ := h
      cases b with
      | nil => exact absurd (cmpArchName_nil_right _) hne
      | cons b bs =>
          rw [List.cons_append, cmpArchName_cons, cmpArchName_cons]
          rw [cmpArchName_cons] at hne
          cases hab : compare a b with
          | lt => rfl
          | gt => rfl
          | eq =>
              rw [hab] at hne
              exact ih (List.prefix_append as rest) hne

theorem cmpArchName_extend_right {b b' : CString} (h : b <+: b') {a : CString} (hne : cmpArchName a b ≠ .eq) :
    cmpArchName a b' = cmpArchName a b := by
  have hne' : cmpArchName b a ≠ .eq := by
    rw [cmpArchName_swap, ne_eq, Ordering.swap_eq_eq]
    exact hne
  rw [cmpArchName_swap, cmpArchName_extend h hne', ← cmpArchName_swap]

/-- Along strings that differ every name is compared in their order. -/
theorem monotone_of_lt {x y : CString} (hxy : cmpArchName x y = .lt) (name : CString) :
    Monotone (cmpArchName name) x y := by
  constructor
  · intro hlt
    exact cmpArchName_lt_trans hlt hxy
  · intro hgt
    rw [cmpArchName_swap, Ordering.swap_eq_gt] at hgt ⊢
    exact cmpArchName_lt_trans hxy hgt

theorem monotone_of_start {x y : CString} (hxy : x <+: y) {name : CString}
    (hname : ¬ (x <+: name ∧ cmpArchName name y = .gt)) : Monotone (cmpArchName name) x y := by
  constructor
  · intro hlt
    exact (cmpArchName_extend_right hxy (by rw [hlt]; decide)).trans hlt
  · intro hgt
    cases hcmp : cmpArchName name x with
    | gt => rfl
    | lt =>
        rw [cmpArchName_extend_right hxy (by rw [hcmp]; decide), hcmp] at hgt
        cases hgt
    | eq =>
        rcases cmpArchName_eq_iff.mp hcmp with hstart | hstart
        · -- a start of `x` is one of `y`
          rw [cmpArchName_eq_iff.mpr (.inl (hstart.trans hxy))] at hgt
          cases hgt
        · exact absurd ⟨hstart, hgt⟩ hname

/-! ### The tables -/

/-- The width that an entry at the start of the name says. -/
def ArchTables.width (tables : ArchTables) (name : CString) : Nat :=
  if ∃ entry ∈ tables.isa64, entry <+: name then 64
  else if ∃ entry ∈ tables.isa32, entry <+: name then 32
  else 0

/-- A name that the search in a table of the BSDs can go past, though an entry is at its start. -/
def Missable (name : CString) : Prop :=
  (bytes "mips64" <+: name ∧ cmpArchName name (bytes "mips64el") = .gt) ∨
  (bytes "arm" <+: name ∧ cmpArchName name (bytes "armeb") = .gt) ∨
  bytes "sh3el" <+: name ∨ bytes "sh3eb" <+: name

/-- The name is no start of an entry, unless there is another entry at its own start. -/
def NoStart (entries : List CString) (name : CString) : Prop :=
  (∃ entry ∈ entries, name <+: entry) → ∃ entry ∈ entries, entry <+: name

theorem NoStart.ne_eq {entries : List CString} {name : CString} (h : NoStart entries name)
    (hnone : ¬ ∃ entry ∈ entries, entry <+: name) : ∀ entry ∈ entries, cmpArchName name entry ≠ .eq := by
  intro entry hentry heq
  rcases cmpArchName_eq_iff.mp heq with hstart | hstart
  · exact hnone (h ⟨entry, hentry, hstart⟩)
  · exact hnone ⟨entry, hentry, hstart⟩

theorem isa64_pairs (tables : ArchTables) : tables.isa64.Pairwise fun x y => cmpArchName x y = .lt ∨
    tables = .bsd ∧ x = bytes "mips64" ∧ y = bytes "mips64el" := by
  cases tables <;> decide

theorem isa32_pairs (tables : ArchTables) : tables.isa32.Pairwise fun x y => cmpArchName x y = .lt ∨
    tables = .bsd ∧ (x = bytes "arm" ∧ y = bytes "armeb" ∨ x = bytes "sh3el" ∧ y = bytes "sh3eb") := by
  cases tables <;> decide

section Tables

variable {tables : ArchTables} {name : CString}

theorem isa64_monotone (h : tables = .bsd → ¬ Missable name) :
    tables.isa64.Pairwise (Monotone (cmpArchName name)) := by
  apply (isa64_pairs tables).imp
  rintro x y (hlt | ⟨hbsd, rfl, rfl⟩)
  · exact monotone_of_lt hlt name
  · exact monotone_of_start (by decide) fun hmiss => h hbsd (.inl hmiss)

theorem isa32_sides : ∀ entry ∈ ArchTables.bsd.isa32, entry = bytes "sh3el" ∨ entry = bytes "sh3eb" ∨
    cmpArchName entry (bytes "sh3el") ≠ .eq ∧
      cmpArchName entry (bytes "sh3eb") = cmpArchName entry (bytes "sh3el") := by
  decide

theorem isa32_monotone (h : tables = .bsd → ¬ Missable name) {entry : CString} (hentry : entry ∈ tables.isa32)
    (hstart : entry <+: name) : tables.isa32.Pairwise (Monotone (cmpArchName name)) := by
  apply (isa32_pairs tables).imp
  rintro x y (hlt | ⟨hbsd, ⟨rfl, rfl⟩ | ⟨rfl, rfl⟩⟩)
  · exact monotone_of_lt hlt name
  · exact monotone_of_start (by decide) fun hmiss => h hbsd (.inr (.inl hmiss))
  · rw [hbsd] at hentry
    rcases isa32_sides entry hentry with rfl | rfl | ⟨hne, hsame⟩
    · exact absurd (.inr (.inr (.inl hstart))) (h hbsd)
    · exact absurd (.inr (.inr (.inr hstart))) (h hbsd)
    · have hel := cmpArchName_extend hstart hne
      have heb := cmpArchName_extend hstart (hsame ▸ hne)
      rw [hsame, ← hel] at heb
      constructor
      · intro hlt
        exact heb.trans hlt
      · intro hgt
        exact heb.symm.trans hgt

theorem probes_mips64 (hstart : bytes "mips64" <+: name) (hgt : cmpArchName name (bytes "mips64el") = .gt) :
    Probes (cmpArchName name) ArchTables.bsd.isa64 0 ArchTables.bsd.isa64.length none := by
  have hsparc : cmpArchName name (bytes "sparc64") = .lt := cmpArchName_extend hstart (by decide)
  exact .behind (Nat.zero_le 5) (by decide) rfl hgt
    (.before (Nat.le_refl 6) (by decide) rfl hsparc (.done (Nat.le_refl 6)))

theorem probes_arm (hstart : bytes "arm" <+: name) (hgt : cmpArchName name (bytes "armeb") = .gt) :
    Probes (cmpArchName name) ArchTables.bsd.isa32 0 ArchTables.bsd.isa32.length none := by
  have hhppa : cmpArchName name (bytes "hppa") = .lt := cmpArchName_extend hstart (by decide)
  exact .behind (Nat.zero_le 1) (by decide) rfl hgt
    (.before (Nat.le_refl 2) (by decide) rfl hhppa (.done (Nat.le_refl 2)))

theorem probes_sh3el (hstart : bytes "sh3el" <+: name) :
    Probes (cmpArchName name) ArchTables.bsd.isa32 0 ArchTables.bsd.isa32.length none := by
  have hsh3eb : cmpArchName name (bytes "sh3eb") = .gt := cmpArchName_extend hstart (by decide)
  have hsparc : cmpArchName name (bytes "sparc") = .lt := cmpArchName_extend hstart (by decide)
  exact .behind (Nat.zero_le 9) (by decide) rfl hsh3eb
    (.before (Nat.le_refl 10) (by decide) rfl hsparc (.done (Nat.le_refl 10)))

theorem probes_sh3eb (hstart : bytes "sh3eb" <+: name) :
    Probes (cmpArchName name) ArchTables.bsd.isa32 0 ArchTables.bsd.isa32.length none := by
  have hsh3el : cmpArchName name (bytes "sh3el") = .lt := cmpArchName_extend hstart (by decide)
  have hpowerpc : cmpArchName name (bytes "powerpc") = .gt := cmpArchName_extend hstart (by decide)
  exact .before (Nat.zero_le 8) (by decide) rfl hsh3el
    (.behind (Nat.zero_le 7) (by decide) rfl hpowerpc (.done (Nat.le_refl 8)))

/-! ### The width -/

/-- Every `bsearch` finds the width, whichever entries it looks at. -/
def GetsWidth (tables : ArchTables) (name : CString) : Prop :=
  ∀ bsearch, Probing bsearch → getBitwidthByArchName bsearch tables name = tables.width name

/-- The entries of both tables are in the order of the comparison. -/
def ArchTables.Ordered (tables : ArchTables) : Prop :=
  tables.isa64.Pairwise (fun x y => cmpArchName x y ≠ .gt) ∧ tables.isa32.Pairwise fun x y => cmpArchName x y ≠ .gt

/-- An entry with the key is found where the entries are in order. -/
theorem search_some {bsearch : (CString → Ordering) → List CString → Option Nat} (hsearch : Probing bsearch)
    {entries : List CString} (hmono : entries.Pairwise (Monotone (cmpArchName name))) {entry : CString}
    (hentry : entry ∈ entries) (hstart : entry <+: name) : ∃ i, bsearch (cmpArchName name) entries = some i := by
  rcases Option.eq_none_or_eq_some (bsearch (cmpArchName name) entries) with hnone | hsome
  · exact absurd (cmpArchName_eq_iff.mpr (.inr hstart)) (hsearch.lawful.missed hmono hnone entry hentry)
  · exact hsome

theorem getsWidth_of_noStart (h64 : NoStart tables.isa64 name) (h32 : NoStart tables.isa32 name)
    (hmiss : tables = .bsd → ¬ Missable name) : GetsWidth tables name := by
  intro bsearch hsearch
  rw [getBitwidthByArchName, ArchTables.width]
  by_cases hfound : ∃ entry ∈ tables.isa64, entry <+: name
  · obtain ⟨entry, hentry, hstart⟩ := hfound
    obtain ⟨i, hi⟩ := search_some hsearch (isa64_monotone hmiss) hentry hstart
    rw [hi, if_pos ⟨entry, hentry, hstart⟩]
  · rw [hsearch.eq_none (h64.ne_eq hfound), if_neg hfound]
    simp only
    by_cases hfound' : ∃ entry ∈ tables.isa32, entry <+: name
    · obtain ⟨entry, hentry, hstart⟩ := hfound'
      obtain ⟨i, hi⟩ := search_some hsearch (isa32_monotone hmiss hentry hstart) hentry hstart
      rw [hi, if_pos ⟨entry, hentry, hstart⟩]
    · rw [hsearch.eq_none (h32.ne_eq hfound'), if_neg hfound']

theorem noStart_isa64 (h : GetsWidth tables name) : NoStart tables.isa64 name := by
  rintro ⟨entry, hentry, hstart⟩
  by_contra hnone
  obtain ⟨i, hprobes⟩ := Probes.of_mem hentry (cmpArchName_eq_iff.mpr (.inl hstart))
  obtain ⟨bsearch, hsearch, hi⟩ := exists_probing hprobes
  have hwidth := h bsearch hsearch
  rw [getBitwidthByArchName, hi, ArchTables.width, if_neg hnone] at hwidth
  simp only at hwidth
  split at hwidth <;> cases hwidth

theorem isa64_not_start_isa32 (tables : ArchTables) :
    ∀ entry ∈ tables.isa64, ∀ entry' ∈ tables.isa32, ¬ entry <+: entry' := by
  cases tables <;> decide

theorem noStart_isa32 (h : GetsWidth tables name) : NoStart tables.isa32 name := by
  rintro ⟨entry, hentry, hstart⟩
  by_contra hnone
  have hnone64 : ¬ ∃ entry ∈ tables.isa64, entry <+: name := by
    rintro ⟨entry', hentry', hstart'⟩
    exact isa64_not_start_isa32 tables entry' hentry' entry hentry (hstart'.trans hstart)
  obtain ⟨i, hprobes⟩ := Probes.of_mem hentry (cmpArchName_eq_iff.mpr (.inl hstart))
  obtain ⟨bsearch, hsearch, hi⟩ := exists_probing hprobes
  have hwidth := h bsearch hsearch
  rw [getBitwidthByArchName, hsearch.eq_none ((noStart_isa64 h).ne_eq hnone64), hi, ArchTables.width, if_neg hnone64,
    if_neg hnone] at hwidth
  cases hwidth

/-- A name of 32 bits that is far from the other table can not be missed. -/
theorem not_probes_isa32 (h : GetsWidth .bsd name) {entry : CString} (hentry : entry ∈ ArchTables.bsd.isa32)
    (hfar : ∀ entry' ∈ ArchTables.bsd.isa64, cmpArchName entry entry' ≠ .eq) (hstart : entry <+: name) :
    ¬ Probes (cmpArchName name) ArchTables.bsd.isa32 0 ArchTables.bsd.isa32.length none := by
  intro hprobes
  have hfar' : ∀ entry' ∈ ArchTables.bsd.isa64, cmpArchName name entry' ≠ .eq := by
    intro entry' hentry'
    rw [cmpArchName_extend hstart (hfar entry' hentry')]
    exact hfar entry' hentry'
  have hnone64 : ¬ ∃ entry ∈ ArchTables.bsd.isa64, entry <+: name := by
    rintro ⟨entry', hentry', hstart'⟩
    exact hfar' entry' hentry' (cmpArchName_eq_iff.mpr (.inr hstart'))
  obtain ⟨bsearch, hsearch, hi⟩ := exists_probing hprobes
  have hwidth := h bsearch hsearch
  rw [getBitwidthByArchName, hsearch.eq_none hfar', hi, ArchTables.width, if_neg hnone64,
    if_pos ⟨entry, hentry, hstart⟩] at hwidth
  cases hwidth

theorem not_missable (h : GetsWidth .bsd name) : ¬ Missable name := by
  rintro (⟨hstart, hgt⟩ | ⟨hstart, hgt⟩ | hstart | hstart)
  · obtain ⟨bsearch, hsearch, hi⟩ := exists_probing (probes_mips64 hstart hgt)
    have hwidth := h bsearch hsearch
    rw [getBitwidthByArchName, hi, ArchTables.width, if_pos ⟨bytes "mips64", by decide, hstart⟩] at hwidth
    simp only at hwidth
    split at hwidth <;> cases hwidth
  · exact not_probes_isa32 h (by decide) (by decide) hstart (probes_arm hstart hgt)
  · exact not_probes_isa32 h (by decide) (by decide) hstart (probes_sh3el hstart)
  · exact not_probes_isa32 h (by decide) (by decide) hstart (probes_sh3eb hstart)

theorem ordered_iff (tables : ArchTables) : tables.Ordered ↔ tables = .solaris := by
  cases tables with
  | solaris =>
      refine iff_of_true ⟨?_, ?_⟩ rfl <;> decide
  | bsd =>
      refine iff_of_false ?_ (by decide)
      rintro ⟨-, h32⟩
      revert h32
      decide

end Tables

/-- For which names every `bsearch` finds the width, and which tables are in order. -/
theorem getBitwidthByArchName_width_iff (tables : ArchTables) (name : CString) :
    (GetsWidth tables name ↔
      NoStart tables.isa64 name ∧ NoStart tables.isa32 name ∧ (tables = .bsd → ¬ Missable name)) ∧
    (tables.Ordered ↔ tables = .solaris) := by
  refine ⟨⟨fun h => ⟨noStart_isa64 h, noStart_isa32 h, ?_⟩, ?_⟩, ordered_iff tables⟩
  · rintro rfl
    exact not_missable h
  · rintro ⟨h64, h32, hmiss⟩
    exact getsWidth_of_noStart h64 h32 hmiss

/-- "sparc" is an entry of the 32 bit table alone, and is taken for "sparcv9". -/
theorem getBitwidthByArchName_sparc :
    bytes "sparc" ∈ ArchTables.solaris.isa32 ∧ bytes "sparc" ∉ ArchTables.solaris.isa64 ∧
    getBitwidthByArchName halves .solaris (bytes "sparc") = 64 ∧ ¬ GetsWidth .solaris (bytes "sparc") := by
  have hcode : getBitwidthByArchName halves .solaris (bytes "sparc") = 64 := rfl
  have hwidth : ArchTables.solaris.width (bytes "sparc") = 32 := by decide
  refine ⟨by decide, by decide, hcode, fun h => ?_⟩
  have hsame := h halves halves_probing
  rw [hcode, hwidth] at hsame
  cases hsame

end Statgrab
