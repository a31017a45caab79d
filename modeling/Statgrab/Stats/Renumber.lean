import Statgrab.Buffers
import Statgrab.Lib.Scanf

/-!
# The numbers of equal interface names

Windows gives two equal network cards one name, so both readers of `network_stats.c` go over the names behind
each of them and append " #2", " #3" and so on where they meet the same name. It is the earlier name that is
changed, and it is compared on in its new form: the name behind which there is another one gets " #2", and nothing
more. So of three equal names the first two are equal again.
-/

namespace Statgrab

open Text Scanf

/-! ### The code -/

/-- `sizeof(buf)`. -/
def numberBufSize : Nat := 5

/-- `snprintf(buf, sizeof(buf), " #%d", no)`: what stands in the buffer. -/
def numberSuffix (no : Nat) : List UInt8 := (bytes " #" ++ decimal no).take (numberBufSize - 1)

/-- The inner loop, over the names behind this one. -/
def renumberName (name : Cells) (no : Nat) : List Cells → StringM (SgError × Cells)
  | [] => return (.none, name)
  | other :: others => do
      let equal ← onCells (name.same other)
      if equal then do
        let (rc, name) ← sgConcatString (some (some name)) (some ((numberSuffix no ++ [0]).map some))
        match name with
        | some (some name) =>
            if rc ≠ .none then do
              let rc ← onStringThread returnFromPreviousError
              return (rc, name)
            else renumberName name (no + 1) others
        | _ => Prog.fault (.inr .null)
      else renumberName name no others

/-- The outer loop. The names before this one are not read any more. -/
def renumberNames : List Cells → StringM (SgError × List Cells)
  | [] => return (.none, [])
  | name :: names => do
      let (rc, name) ← renumberName name 2 names
      if rc ≠ .none then return (rc, name :: names)
      else do
        let (rc, names) ← renumberNames names
        return (rc, name :: names)

/-- The renumbering of `sg_get_network_io_stats_int`. -/
def renumberNetworkIo : List Cells → StringM (SgError × List Cells) := renumberNames

/-- The renumbering of `sg_get_network_iface_stats_int`. -/
def renumberNetworkIface : List Cells → StringM (SgError × List Cells) := renumberNames

/-! ### The names -/

def numbered (name : CString) (no : Nat) : List CString → CString
  | [] => name
  | other :: others =>
      if name = other then numbered (name ++ numberSuffix no) (no + 1) others else numbered name no others

theorem numbered_of_notMem {name : CString} {others : List CString} (hnot : name ∉ others) (no : Nat) :
    numbered name no others = name := by
  induction others with
  | nil => rfl
  | cons other others ih =>
      rw [numbered, if_neg (List.ne_of_not_mem_cons hnot), ih (List.not_mem_of_not_mem_cons hnot)]

def EndsInNumber (name : CString) : Prop := ∃ stem k, name = stem ++ (bytes " #" ++ decimal k)

theorem numberSuffix_two : numberSuffix 2 = bytes " #" ++ decimal 2 := by decide

theorem endsInNumber_two (name : CString) : EndsInNumber (name ++ numberSuffix 2) :=
  ⟨name, 2, by rw [numberSuffix_two]⟩

theorem zero_notMem_numberSuffix (no : Nat) : 0 ∉ numberSuffix no := by
  intro hmem
  rcases List.mem_append.mp (List.mem_of_mem_take hmem) with hmem | hmem
  · revert hmem
    decide
  · have hdigit := isDigit_of_mem_decimal hmem
    revert hdigit
    decide

theorem numbered_two {name : CString} {others : List CString} (hplain : ∀ other ∈ others, ¬ EndsInNumber other) :
    numbered name 2 others = if name ∈ others then name ++ numberSuffix 2 else name := by
  induction others with
  | nil => rfl
  | cons other others ih =>
      have hrest := fun other' hother => hplain other' (List.mem_cons_of_mem other hother)
      rw [numbered]
      by_cases heq : name = other
      · have hnew : name ++ numberSuffix 2 ∉ others := fun hmem => hrest _ hmem (endsInNumber_two name)
        rw [if_pos heq, numbered_of_notMem hnew, if_pos (heq ▸ List.mem_cons_self)]
      · rw [if_neg heq, ih hrest]
        simp [heq]

def renumbered : List CString → List CString
  | [] => []
  | name :: names => numbered name 2 names :: renumbered names

def HoldNames (blocks : List Cells) (names : List CString) : Prop :=
  List.Forall₂ (fun block name => PointsTo (some block) (some name)) blocks names

theorem renumberName_run {block : Cells} {name : CString} (hname : PointsTo (some block) (some name)) (no : Nat)
    {blocks : List Cells} {names : List CString} (hblocks : HoldNames blocks names) {t : Thread} (hmem : t.Plenty) :
    ∃ block' t', renumberName block no blocks t = .ok ((.none, block'), t') ∧ t'.Plenty ∧
      PointsTo (some block') (some (numbered name no names)) := by
  induction hblocks generalizing block name no t with
  | nil => exact ⟨block, t, rfl, hmem, hname⟩
  | @cons other text others texts hother _ ih =>
      obtain ⟨hnul, post, rfl⟩ := hname
      obtain ⟨hnul', post', rfl⟩ := hother
      have hsame := onCells_of_ok (Cells.same_text hnul hnul' post post') t
      by_cases heq : name = text
      · have hsrc : PointsTo (some ((numberSuffix no ++ [0]).map some)) (some (numberSuffix no)) := by
          rw [List.map_append]
          exact pointsTo_text (zero_notMem_numberSuffix no) []
        have hcat := sgConcatString_text (pointsTo_text hnul post) hsrc (hmem 0)
        have hnew : PointsTo (some ((name ++ numberSuffix no ++ [0]).map some)) (some (name ++ numberSuffix no)) := by
          rw [List.map_append]
          refine pointsTo_text (fun hmem => ?_) []
          rcases List.mem_append.mp hmem with hmem | hmem
          · exact hnul hmem
          · exact zero_notMem_numberSuffix no hmem
        obtain ⟨block', t', hrun, hmem', hnumbered⟩ := ih hnew (no + 1) hmem.answered
        refine ⟨block', t', ?_, hmem', ?_⟩
        · rw [renumberName, Prog.bind_of_ok hsame, if_pos (by simp [heq]), Prog.bind_of_ok hcat]
          exact hrun
        · rw [numbered, if_pos heq]
          exact hnumbered
      · obtain ⟨block', t', hrun, hmem', hnumbered⟩ := ih (pointsTo_text hnul post) no hmem
        refine ⟨block', t', ?_, hmem', ?_⟩
        · rw [renumberName, Prog.bind_of_ok hsame, if_neg (by simp [heq])]
          exact hrun
        · rw [numbered, if_neg heq]
          exact hnumbered

theorem renumberNames_run {blocks : List Cells} {names : List CString} (hblocks : HoldNames blocks names)
    {t : Thread} (hmem : t.Plenty) :
    ∃ blocks' t', renumberNames blocks t = .ok ((.none, blocks'), t') ∧ HoldNames blocks' (renumbered names) := by
  induction hblocks generalizing t with
  | nil => exact ⟨[], t, rfl, .nil⟩
  | cons hblock hrest ih =>
      obtain ⟨block', t1, hrow, hmem1, hname⟩ := renumberName_run hblock 2 hrest hmem
      obtain ⟨blocks', t2, hrun, hnames⟩ := ih hmem1
      refine ⟨block' :: blocks', t2, ?_, .cons hname hnames⟩
      rw [renumberNames, Prog.bind_of_ok hrow]
      exact (congrFun (if_neg (by decide)) t1).trans (Prog.bind_of_ok hrun _)

/-! ### Which names are equal afterwards -/

section Plain

variable {names : List CString}

theorem renumbered_cons {name : CString} (hplain : ∀ other ∈ names, ¬ EndsInNumber other) :
    renumbered (name :: names) = (if name ∈ names then name ++ numberSuffix 2 else name) :: renumbered names := by
  rw [renumbered, numbered_two hplain]

/-- Every name stays once as it was: where it stands last. -/
theorem mem_renumbered (hplain : ∀ name ∈ names, ¬ EndsInNumber name) {name : CString}
    (hname : ¬ EndsInNumber name) : name ∈ renumbered names ↔ name ∈ names := by
  induction names with
  | nil => rfl
  | cons first names ih =>
      have hrest := fun other hother => hplain other (List.mem_cons_of_mem first hother)
      rw [renumbered_cons hrest, List.mem_cons, List.mem_cons, ih hrest]
      by_cases hmem : first ∈ names
      · have hne : name ≠ first ++ numberSuffix 2 := fun hcon => hname (hcon ▸ endsInNumber_two first)
        rw [if_pos hmem]
        constructor
        · rintro (hcon | hin)
          · exact absurd hcon hne
          · exact .inr hin
        · rintro (rfl | hin)
          · exact .inr hmem
          · exact .inr hin
      · rw [if_neg hmem]

/-- A name has got a number if and only if it stood there twice. -/
theorem mem_renumbered_two (hplain : ∀ name ∈ names, ¬ EndsInNumber name) (name : CString) :
    name ++ numberSuffix 2 ∈ renumbered names ↔ 2 ≤ names.count name := by
  induction names with
  | nil => simp [renumbered]
  | cons first names ih =>
      have hrest := fun other hother => hplain other (List.mem_cons_of_mem first hother)
      have hfirst : name ++ numberSuffix 2 ≠ first := fun hcon =>
        hplain first List.mem_cons_self (hcon ▸ endsInNumber_two name)
      rw [renumbered_cons hrest, List.mem_cons, ih hrest]
      by_cases heq : first = name
      · subst heq
        rw [List.count_cons_self]
        by_cases hmem : first ∈ names
        · have hpos := List.count_pos_iff.mpr hmem
          rw [if_pos hmem]
          exact iff_of_true (.inl rfl) (by omega)
        · have hzero := List.count_eq_zero.mpr hmem
          rw [if_neg hmem]
          simp only [hfirst, false_or]
          omega
      · rw [List.count_cons_of_ne heq]
        have hnot : name ++ numberSuffix 2 ≠ if first ∈ names then first ++ numberSuffix 2 else first := by
          by_cases hmem : first ∈ names
          · rw [if_pos hmem]
            exact fun hcon => heq (List.append_cancel_right hcon).symm
          · rw [if_neg hmem]
            exact hfirst
        simp only [hnot, false_or]

/-- The names are distinct if and only if no name stood there three times. -/
theorem nodup_renumbered (hplain : ∀ name ∈ names, ¬ EndsInNumber name) :
    (renumbered names).Nodup ↔ ∀ name, names.count name ≤ 2 := by
  induction names with
  | nil => simp [renumbered]
  | cons first names ih =>
      have hrest := fun other hother => hplain other (List.mem_cons_of_mem first hother)
      have hcount : (∀ name, (first :: names).count name ≤ 2) ↔
          names.count first ≤ 1 ∧ ∀ name, names.count name ≤ 2 := by
        constructor
        · intro hall
          have hfirst := hall first
          rw [List.count_cons_self] at hfirst
          refine ⟨by omega, fun name => ?_⟩
          exact (List.count_le_count_cons).trans (hall name)
        · rintro ⟨hfirst, hall⟩ name
          by_cases heq : first = name
          · subst heq
            rw [List.count_cons_self]
            omega
          · rw [List.count_cons_of_ne heq]
            exact hall name
      rw [hcount, renumbered_cons hrest, List.nodup_cons, ih hrest]
      refine and_congr_left fun _ => ?_
      by_cases hmem : first ∈ names
      · rw [if_pos hmem, mem_renumbered_two hrest]
        omega
      · rw [if_neg hmem, mem_renumbered hrest (hplain first List.mem_cons_self), List.count_eq_zero.mpr hmem]
        simp [hmem]

theorem renumbered_forall (hplain : ∀ name ∈ names, ¬ EndsInNumber name) :
    List.Forall₂ (fun name name' => name' = name ∨ ∃ k, 2 ≤ k ∧ name' = name ++ (bytes " #" ++ decimal k)) names
      (renumbered names) := by
  induction names with
  | nil => exact .nil
  | cons first names ih =>
      have hrest := fun other hother => hplain other (List.mem_cons_of_mem first hother)
      rw [renumbered_cons hrest]
      refine .cons ?_ (ih hrest)
      by_cases hmem : first ∈ names
      · rw [if_pos hmem, numberSuffix_two]
        exact .inr ⟨2, Nat.le_refl 2, rfl⟩
      · rw [if_neg hmem]
        exact .inl rfl

end Plain

theorem pointsTo_inj {block : Cells} {name name' : CString} (h : PointsTo (some block) (some name))
    (h' : PointsTo (some block) (some name')) : name = name' := by
  obtain ⟨hnul, post, rfl⟩ := h
  obtain ⟨hnul', post', hblock⟩ := h'
  have hsame := Cells.same_text hnul hnul' post post'
  have hself := Cells.same_text hnul hnul post post
  rw [← hblock, hself] at hsame
  simpa using hsame

theorem holdNames_inj {blocks : List Cells} {names names' : List CString} (h : HoldNames blocks names)
    (h' : HoldNames blocks names') : names = names' := by
  induction h generalizing names' with
  | nil =>
      cases h'
      rfl
  | cons hblock _ ih =>
      cases h' with
      | cons hblock' hrest' => rw [pointsTo_inj hblock hblock', ih hrest']

/-- What is expected of the renumbering: it succeeds, the names are distinct, and each is the old one or the
old one with a number. -/
def NumbersNames (pass : List Cells → StringM (SgError × List Cells)) (blocks : List Cells) (names : List CString)
    (t : Thread) : Prop :=
  ∃ blocks' names' t', pass blocks t = .ok ((.none, blocks'), t') ∧ HoldNames blocks' names' ∧ names'.Nodup ∧
    List.Forall₂ (fun name name' => name' = name ∨ ∃ k, 2 ≤ k ∧ name' = name ++ (bytes " #" ++ decimal k)) names
      names'

theorem renumberNames_iff {blocks : List Cells} {names : List CString} (hblocks : HoldNames blocks names)
    (hplain : ∀ name ∈ names, ¬ EndsInNumber name) {t : Thread} (hmem : t.Plenty) :
    NumbersNames renumberNames blocks names t ↔ ∀ name, names.count name ≤ 2 := by
  obtain ⟨blocks1, t1, hrun, hnames⟩ := renumberNames_run hblocks hmem
  rw [← nodup_renumbered hplain]
  constructor
  · rintro ⟨blocks', names', t', hrun', hnames', hnodup, -⟩
    rw [hrun] at hrun'
    cases hrun'
    rwa [holdNames_inj hnames hnames']
  · intro hnodup
    exact ⟨blocks1, renumbered names, t1, hrun, hnames, hnodup, renumbered_forall hplain⟩

theorem renumberNetwork_distinct_iff {pass : List Cells → StringM (SgError × List Cells)}
    (hpass : pass = renumberNetworkIo ∨ pass = renumberNetworkIface) {blocks : List Cells} {names : List CString}
    (hblocks : HoldNames blocks names) (hplain : ∀ name ∈ names, ¬ EndsInNumber name) {t : Thread}
    (hmem : t.Plenty) : NumbersNames pass blocks names t ↔ ∀ name, names.count name ≤ 2 := by
  rcases hpass with rfl | rfl
  · exact renumberNames_iff hblocks hplain hmem
  · exact renumberNames_iff hblocks hplain hmem

theorem not_endsInNumber {name : CString} {b : UInt8} (hlast : name.getLast? = some b) (hb : isDigit b = false) :
    ¬ EndsInNumber name := by
  rintro ⟨stem, k, rfl⟩
  have hdecimal : (decimal k).getLast? = some b := by
    rw [← List.append_assoc, List.getLast?_append_of_ne_nil _ (decimal_ne_nil k)] at hlast
    exact hlast
  rw [isDigit_of_mem_decimal (List.mem_of_getLast? hdecimal)] at hb
  cases hb

def cardBlock (name : String) : Cells := (bytes name).map some ++ [some 0]

/-- Two equal cards and another one. -/
theorem renumberNetworkIo_pair :
    NumbersNames renumberNetworkIo [cardBlock "LAN", cardBlock "WiFi", cardBlock "LAN"]
      [bytes "LAN", bytes "WiFi", bytes "LAN"] roomyThread := by
  refine (renumberNetwork_distinct_iff (.inl rfl) ?_ ?_ fun _ => rfl).mpr ?_
  · exact .cons (pointsTo_text (by decide) []) (.cons (pointsTo_text (by decide) [])
      (.cons (pointsTo_text (by decide) []) .nil))
  · intro name hname
    simp only [List.mem_cons, List.not_mem_nil, or_false] at hname
    rcases hname with rfl | rfl | rfl
    · exact not_endsInNumber (b := 78) (by decide) (by decide)
    · exact not_endsInNumber (b := 105) (by decide) (by decide)
    · exact not_endsInNumber (b := 78) (by decide) (by decide)
  · intro name
    have hne : bytes "LAN" ≠ bytes "WiFi" := by decide
    simp only [List.count_cons, List.count_nil, beq_iff_eq]
    grind

/-- Three equal cards. -/
theorem renumberNetworkIo_triple :
    ¬ NumbersNames renumberNetworkIo [cardBlock "LAN", cardBlock "LAN", cardBlock "LAN"]
      [bytes "LAN", bytes "LAN", bytes "LAN"] roomyThread := by
  have hplain : ∀ name ∈ [bytes "LAN", bytes "LAN", bytes "LAN"], ¬ EndsInNumber name := by
    intro name hname
    simp only [List.mem_cons, List.not_mem_nil, or_false, or_self] at hname
    rw [hname]
    exact not_endsInNumber (b := 78) (by decide) (by decide)
  have hblock : PointsTo (some (cardBlock "LAN")) (some (bytes "LAN")) := pointsTo_text (by decide) []
  intro hnumbers
  have hcount := (renumberNames_iff (.cons hblock (.cons hblock (.cons hblock .nil))) hplain fun _ => rfl).mp
    hnumbers (bytes "LAN")
  simp at hcount

end Statgrab
