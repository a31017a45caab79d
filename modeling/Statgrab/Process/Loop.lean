import Statgrab.Access.Reader
import Statgrab.Process.Fill

/-!
# The loop over the pids

Every round of the loop passes one pid or frees one page, but for one: a `/proc/PID/comm` that is opened
and has no line is left by a `continue` that forgets the index, and the loop meets the same pid again.
Where there is none of these, the pids and the pages bound the rounds.

With enough memory a round always comes through. `At` is the invariant it keeps: the items that are
complete are the first ones of the vector, and those behind them are blank.
-/

namespace Statgrab.Process

open Text Scanf

def Loop.remaining (s : Loop) : List Int :=
  match s.pages with
  | [] => []
  | page :: pages => page.drop s.pidItem ++ pages.flatten

/-- The rounds that are left: one for each pid and one for each page. -/
def Loop.measure (s : Loop) : Nat := s.remaining.length + s.pages.length

/-- A `/proc/PID/comm` that can be opened has a line. -/
def CommLine (src : ProcessSource) (pid : Int) : Prop := readComm (src.files pid).comm ≠ .empty

/-! ### The end of the loop -/

section

variable {src : ProcessSource} {uptime : Int} {s s' : Loop} {page : List Int} {pages : List (List Int)}
  {w w' : World ProcessStats}

theorem nextPage_next (h : nextPage s pages w = .ok (.next s', w')) :
    s'.pages = pages ∧ s'.pidItem = 0 := by
  cases pages with
  | nil =>
      cases h
      exact ⟨rfl, rfl⟩
  | cons page rest =>
      obtain ⟨grown, w1, -, h⟩ := Prog.bind_eq_ok.mp h
      cases grown with
      | error rc => cases h
      | ok vector =>
          cases h
          exact ⟨rfl, rfl⟩

theorem readProcess_next {files : ProcessFiles} {name : Option CString}
    (h : readProcess src uptime s files name w = .ok (.next s', w')) :
    s'.pages = s.pages ∧ s'.pidItem = s.pidItem + 1 := by
  rw [readProcess] at h
  cases hstat : files.stat with
  | none =>
      rw [hstat] at h
      cases h
      exact ⟨rfl, rfl⟩
  | some stat =>
      rw [hstat] at h
      obtain ⟨grown, w1, -, h⟩ := Prog.bind_eq_ok.mp h
      cases grown with
      | error rc => cases h
      | ok x =>
          cases x with
          | none => cases h
          | some p =>
              obtain ⟨fill, w2, -, h⟩ := Prog.bind_eq_ok.mp h
              cases fill with
              | skipped =>
                  cases h
                  exact ⟨rfl, rfl⟩
              | failed rc => cases h
              | filled =>
                  cases h
                  exact ⟨rfl, rfl⟩

/-- A round passes a pid or frees a page, unless the name of the pid has no line. -/
theorem round_next (h : round src uptime s page pages w = .ok (.next s', w')) :
    (s'.pages = s.pages ∧ s'.pidItem = s.pidItem + 1 ∧ s.pidItem < page.length) ∨
    (s'.pages = pages ∧ s'.pidItem = 0 ∧ page.length ≤ s.pidItem) ∨
    (∃ pid, page[s.pidItem]? = some pid ∧ ¬ CommLine src pid) := by
  rw [round] at h
  cases hpid : page[s.pidItem]? with
  | none =>
      rw [hpid] at h
      obtain ⟨hpages, hitem⟩ := nextPage_next h
      exact .inr (.inl ⟨hpages, hitem, List.getElem?_eq_none_iff.mp hpid⟩)
  | some pid =>
      obtain ⟨hlt, -⟩ := List.getElem?_eq_some_iff.mp hpid
      rw [hpid] at h
      simp only at h
      cases hcomm : readComm (src.files pid).comm with
      | empty => exact .inr (.inr ⟨pid, rfl, fun hline => hline hcomm⟩)
      | closed =>
          rw [hcomm] at h
          obtain ⟨hpages, hitem⟩ := readProcess_next h
          exact .inl ⟨hpages, hitem, hlt⟩
      | name name =>
          rw [hcomm] at h
          obtain ⟨hpages, hitem⟩ := readProcess_next h
          exact .inl ⟨hpages, hitem, hlt⟩

theorem mem_remaining (hpages : s.pages = page :: pages) {pid : Int}
    (hpid : page[s.pidItem]? = some pid) : pid ∈ s.remaining := by
  rw [Loop.remaining, hpages]
  apply List.mem_append_left
  apply List.mem_of_getElem? (i := 0)
  rw [List.getElem?_drop, Nat.add_zero, hpid]

/-- With a line in every name a round comes closer to the end. -/
theorem round_decreases (hpages : s.pages = page :: pages)
    (hlines : ∀ pid ∈ s.remaining, CommLine src pid)
    (h : round src uptime s page pages w = .ok (.next s', w')) :
    s'.measure < s.measure ∧ ∀ pid ∈ s'.remaining, pid ∈ s.remaining := by
  rcases round_next h with ⟨hp, hi, hlt⟩ | ⟨hp, hi, hle⟩ | ⟨pid, hpid, hline⟩
  · have hdrop := List.drop_eq_getElem_cons hlt
    rw [hpages] at hp
    simp only [Loop.measure, Loop.remaining, hp, hpages, hi, hdrop, List.cons_append, List.length_cons]
    exact ⟨by omega, fun pid hpid => List.mem_cons_of_mem _ hpid⟩
  · have hdrop : page.drop s.pidItem = [] := List.drop_eq_nil_of_le hle
    simp only [Loop.measure, Loop.remaining, hp, hpages, hi, hdrop, List.nil_append, List.length_cons]
    cases pages with
    | nil => simp
    | cons page' rest => simp
  · exact absurd (hlines pid (mem_remaining hpages hpid)) hline

theorem processLoop_done (fuel : Nat) (hpages : s.pages = []) :
    processLoop src uptime fuel s w = .ok (some (none, s), w) := by
  rw [processLoop, hpages]
  rfl

theorem processLoop_zero (hpages : s.pages = page :: pages) :
    processLoop src uptime 0 s w = .ok (none, w) := by
  rw [processLoop, hpages]
  rfl

theorem processLoop_succ (fuel : Nat) (hpages : s.pages = page :: pages) :
    processLoop src uptime (fuel + 1) s w = (do
      let r ← round src uptime s page pages
      match r with
      | .next s => processLoop src uptime fuel s
      | .returned rc vector => return some (some rc, { s with vector := vector })) w := by
  obtain ⟨ps, i, k, vector⟩ := s
  subst hpages
  rfl

end

/-- The index goes on, or a page is freed. -/
def Loop.Advances (s s' : Loop) : Prop :=
  (s'.pages = s.pages ∧ s'.pidItem = s.pidItem + 1) ∨ s'.pages = s.pages.tail

/-- Whatever vector it starts with and whatever the allocator answers, every round of the loop over these
pages advances, and it is over after a round for each pid and each page. -/
structure LoopEnds (src : ProcessSource) (pages : List (List Int)) : Prop where
  advances : ∀ (uptime : Int) (s s' : Loop) (page : List Int) (rest : List (List Int))
    (w w' : World ProcessStats), s.pages = page :: rest → s.pages <:+ pages →
    round src uptime s page rest w = .ok (.next s', w') → s.Advances s'
  ends : ∀ (uptime : Int) (vector : Option Ptr) (w w' : World ProcessStats)
    (r : Option (Option SgError × Loop)),
    processLoop src uptime (pages.flatten.length + pages.length) ⟨pages, 0, 0, vector⟩ w = .ok (r, w') →
    r ≠ none

theorem processLoop_ends {src : ProcessSource} {uptime : Int} (fuel : Nat) {s : Loop}
    (hlines : ∀ pid ∈ s.remaining, CommLine src pid) (hfuel : s.measure ≤ fuel)
    {w w' : World ProcessStats} {r : Option (Option SgError × Loop)}
    (h : processLoop src uptime fuel s w = .ok (r, w')) : r ≠ none := by
  induction fuel generalizing s w with
  | zero =>
      have hpages : s.pages = [] := by
        apply List.length_eq_zero_iff.mp
        rw [Loop.measure] at hfuel
        omega
      rw [processLoop_done 0 hpages] at h
      cases h
      simp
  | succ fuel ih =>
      cases hpages : s.pages with
      | nil =>
          rw [processLoop_done _ hpages] at h
          cases h
          simp
      | cons page pages =>
          rw [processLoop_succ fuel hpages] at h
          obtain ⟨step, w1, hround, h⟩ := Prog.bind_eq_ok.mp h
          cases step with
          | next s' =>
              obtain ⟨hless, hsub⟩ := round_decreases hpages hlines hround
              exact ih (fun pid hpid => hlines pid (hsub pid hpid)) (by omega) h
          | returned rc vector =>
              cases h
              simp

theorem remaining_start (pages : List (List Int)) (k : Nat) (vector : Option Ptr) :
    (⟨pages, 0, k, vector⟩ : Loop).remaining = pages.flatten := by
  cases pages with
  | nil => rfl
  | cons page pages => rfl

theorem loopEnds_of_lines {src : ProcessSource} {pages : List (List Int)}
    (hlines : ∀ pid ∈ pages.flatten, CommLine src pid) : LoopEnds src pages := by
  constructor
  · intro uptime s s' page rest w w' hpages hsuffix h
    rcases round_next h with ⟨hp, hi, -⟩ | ⟨hp, -, -⟩ | ⟨pid, hpid, hline⟩
    · exact .inl ⟨hp, hi⟩
    · refine .inr ?_
      rw [hp, hpages, List.tail_cons]
    · refine absurd (hlines pid ?_) hline
      have hpage : page ∈ pages := hsuffix.subset (hpages ▸ List.mem_cons_self)
      exact List.mem_flatten.mpr ⟨page, hpage, List.mem_of_getElem? hpid⟩
  · intro uptime vector w w' r h
    refine processLoop_ends _ ?_ ?_ h
    · rw [remaining_start]
      exact hlines
    · rw [Loop.measure, remaining_start]

/-! ### The items -/

/-- A vector of processes that its accessors can rely on. -/
structure Roomy (v : SgVector ProcessStats) : Prop where
  info : v.info = ProcessStats.info
  shift : v.blockShift ≤ 31
  within : v.usedCount ≤ v.slots
  record : v.allocCount ≤ v.slots

/-- A state with memory for every request. -/
structure Ready (w : World ProcessStats) : Prop where
  fresh : w.Fresh
  bounded : w.bounded = true
  plenty : w.Plenty

/-- The first items of the vector are these, and the ones behind them are blank. -/
structure Starts (v : SgVector ProcessStats) (items : List ProcessStats) : Prop where
  count : items.length ≤ v.usedCount
  cells : ∀ i x, items[i]? = some x → v.cells i = x
  blank : ∀ i, items.length ≤ i → i < v.usedCount → (v.cells i).Blank

/-- The variable is NULL, or holds a vector that starts with these items. -/
def Holding (w : World ProcessStats) (vector : Option Ptr) (items : List ProcessStats) : Prop :=
  match vector with
  | none => items = []
  | some p => ∃ v, w.store p = some v ∧ Roomy v ∧ Starts v items

theorem info_fits {n shift : Nat} (hn : n ≤ itemLimit) (hshift : shift ≤ 31) :
    Fits n shift ProcessStats.info := by
  have hround := roundUp_le n shift
  have hpow := two_pow_le_itemLimit hshift
  have hsize : ProcessStats.info.itemSize = 128 := rfl
  refine ⟨by omega, by rw [hsize]; omega, ?_⟩
  simp only [hsize, vectorSize, sizeBound, itemLimit] at *
  omega

theorem init_blank (x : ProcessStats) : x.init.Blank := ⟨rfl, rfl⟩

theorem Roomy.resized {v v' : SgVector ProcessStats} {n : Nat} (hv : Roomy v) (h : v.ResizedTo v' n) :
    Roomy v' := by
  have hle := le_roundUp n v.blockShift
  have hrec := hv.record
  refine ⟨h.info.trans hv.info, h.blockShift ▸ hv.shift, ?_, ?_⟩
  · rw [h.usedCount, h.slots]
    split
    · omega
    · exact hle
  · rw [h.allocCount, h.slots]
    split
    · omega
    · exact le_rfl

theorem Starts.resized {v v' : SgVector ProcessStats} {n : Nat} {items : List ProcessStats}
    (hinfo : v.info = ProcessStats.info) (hv : Starts v items) (h : v.ResizedTo v' n)
    (hn : items.length ≤ n) : Starts v' items := by
  have hcount := hv.count
  refine ⟨by rw [h.usedCount]; exact hn, ?_, ?_⟩
  · intro i x hx
    obtain ⟨hlt, -⟩ := List.getElem?_eq_some_iff.mp hx
    rw [h.cells i (by omega) (by omega)]
    exact hv.cells i x hx
  · intro i hi hused
    rw [h.usedCount] at hused
    by_cases hold : i < v.usedCount
    · rw [h.cells i hused hold]
      exact hv.blank i hi hold
    · obtain ⟨x, hx⟩ := h.fresh ProcessStats.init (by rw [hinfo]; rfl) i (by omega) hused
      rw [hx]
      exact init_blank x

/-- `VECTOR_UPDATE` to a positive number of items: the complete ones stay, and the others are blank. -/
theorem vectorUpdated_grow {w : World ProcessStats} (hw : Ready w) {vector : Option Ptr}
    {items : List ProcessStats} (hx : Holding w vector items) {arg : CountArg} (hpos : arg.value ≠ 0)
    (hlimit : arg.value ≤ itemLimit) (hitems : items.length ≤ arg.value) :
    ∃ q w' v, vectorUpdated ProcessStats.info vector arg w = .ok (.ok (some q), w') ∧ Ready w' ∧
      w'.store q = some v ∧ Roomy v ∧ Starts v items ∧ v.usedCount = arg.value := by
  cases vector with
  | none =>
      have hnil : items = [] := hx
      obtain ⟨shift, hshift, hle⟩ := blockShiftOf_isSome hlimit
      have hfit : Fits (max arg.value arg.value) shift ProcessStats.info := by
        rw [Nat.max_self]
        exact info_fits hlimit hle
      obtain ⟨w', v, hrun, hand, hv, hfor, -, hplenty⟩ :=
        sgVectorCreateInt_created (w := w) hfit (hw.plenty 0)
      have hcreate : vectorCreateOrResize ProcessStats.info none arg.value w = .ok (some w.next, w') := by
        rw [vectorCreateOrResize, sgVectorCreate, hshift]
        exact hrun
      refine ⟨w.next, w', v, ?_, ⟨hand.fresh hw.fresh, hand.bounded.trans hw.bounded,
        hplenty hw.plenty⟩, hv, ?_, ?_, hfor.usedCount⟩
      · rw [vectorUpdated, Prog.bind_of_ok hcreate]
        rfl
      · refine ⟨hfor.info, hfor.blockShift ▸ hle, ?_, ?_⟩
        · rw [hfor.usedCount, hfor.slots, Nat.max_self]
          exact le_roundUp _ _
        · rw [hfor.allocCount, hfor.slots, Nat.max_self]
          exact block_le_roundUp (Nat.pos_of_ne_zero hpos) _
      · refine ⟨by rw [hnil]; exact Nat.zero_le _, ?_, ?_⟩
        · intro i x hi
          rw [hnil] at hi
          cases hi
        · intro i _ hi
          obtain ⟨x, hcell⟩ := hfor.fresh ProcessStats.init (by rw [hfor.info]; rfl) i
            (hfor.usedCount ▸ hi)
          rw [hcell]
          exact init_blank x
  | some p =>
      obtain ⟨v, hv, hroomy, hstarts⟩ := hx
      have hfit : Fits arg.value v.blockShift v.info := hroomy.info ▸ info_fits hlimit hroomy.shift
      obtain ⟨q, w', v', hrun, hand, hq, hres, -, hplenty⟩ :=
        sgVectorResize_run hw.fresh hpos hv (fun _ => hroomy.within) hfit
          (fun hround _ => by
            have := le_roundUp arg.value v.blockShift
            have := hroomy.record
            omega) (fun _ => hw.plenty 0)
      have hresize : vectorCreateOrResize ProcessStats.info (some p) arg.value w = .ok (some q, w') :=
        hrun
      refine ⟨q, w', v', ?_, ⟨hand.fresh hw.fresh, hand.bounded.trans hw.bounded,
        hplenty hw.plenty⟩, hq, hroomy.resized hres, hstarts.resized hroomy.info hres hitems,
        hres.usedCount⟩
      rw [vectorUpdated, Prog.bind_of_ok hresize]
      rfl

theorem onSlot_run {α β : Type} {w : World α} {p : Ptr} {v : SgVector α} {i : Nat}
    {fn : α → ThreadM (β × α)} {b : β} {x : α} {t : Thread} (hv : w.store p = some v)
    (hb : w.InBlock v (i + 1)) (hfn : fn (v.cells i) w.toThread = .ok ((b, x), t)) :
    onSlot p i fn w = .ok (b, w.recopy t p (v.setCell i x)) := by
  rw [onSlot, Prog.bind_of_ok (deref_run hv), Prog.bind_of_ok (touch_run hb),
    Prog.bind_of_ok (onThread_run hfn)]
  rfl

/-- The invariant of the loop, with enough memory. -/
structure At (w : World ProcessStats) (s : Loop) (items : List ProcessStats) : Prop where
  ready : Ready w
  holding : Holding w s.vector items
  count : s.procItems = items.length
  room : items.length + s.remaining.length ≤ itemLimit
  pages : ∀ page ∈ s.pages.tail, page ≠ []

/-- What the round for a pid adds to the items. -/
def Adds (src : ProcessSource) (uptime : Int) (pid : Int) (new : List ProcessStats) : Prop :=
  match listing (src.files pid) with
  | none => new = []
  | some l => ∃ old : ProcessStats, old.Blank ∧ new = [l.item src uptime old]

theorem Ready.recopy {w : World ProcessStats} (hw : Ready w) {p : Ptr} {v v' : SgVector ProcessStats}
    (hv : w.store p = some v) {t : Thread} (ht : t.Plenty) : Ready (w.recopy t p v') := by
  refine ⟨?_, hw.bounded, ht⟩
  intro q hq
  rw [recopy_store, Function.update_of_ne]
  · exact hw.fresh q hq
  · rintro rfl
    exact absurd (hw.fresh.lt hv) (not_lt.mpr hq)

theorem Starts.blankCell {v : SgVector ProcessStats} {items : List ProcessStats} (h : Starts v items)
    {x : ProcessStats} (hx : x.Blank) : Starts (v.setCell items.length x) items := by
  refine ⟨h.count, ?_, ?_⟩
  · intro i y hi
    obtain ⟨hlt, -⟩ := List.getElem?_eq_some_iff.mp hi
    exact (Function.update_of_ne (by omega) _ _).trans (h.cells i y hi)
  · intro i hi hused
    by_cases hlast : i = items.length
    · rw [hlast, setCell_cells_self]
      exact hx
    · have hcell : (v.setCell items.length x).cells i = v.cells i := Function.update_of_ne hlast _ _
      rw [hcell]
      exact h.blank i hi hused

theorem Starts.append {v : SgVector ProcessStats} {items : List ProcessStats} (h : Starts v items)
    (hused : v.usedCount = items.length + 1) (x : ProcessStats) :
    Starts (v.setCell items.length x) (items ++ [x]) := by
  have hcount : (v.setCell items.length x).usedCount = items.length + 1 := hused
  refine ⟨?_, ?_, ?_⟩
  · rw [hcount, List.length_append, List.length_singleton]
  · intro i y hi
    by_cases hlast : i = items.length
    · rw [hlast, List.getElem?_concat_length, Option.some_inj] at hi
      rw [hlast, setCell_cells_self, hi]
    · have hlt : i < items.length := by
        obtain ⟨hlt, -⟩ := List.getElem?_eq_some_iff.mp hi
        rw [List.length_append, List.length_singleton] at hlt
        omega
      rw [List.getElem?_append_left hlt] at hi
      exact (Function.update_of_ne hlast _ _).trans (h.cells i y hi)
  · intro i hi hlt
    rw [hcount] at hlt
    rw [List.length_append, List.length_singleton] at hi
    omega

theorem nameFrom_eq {comm : Option Stream} {name : Option CString} :
    nameFrom comm = some name ↔
      (readComm comm = .closed ∧ name = none) ∨ ∃ c, readComm comm = .name c ∧ name = some c := by
  rw [nameFrom]
  cases readComm comm with
  | closed => simp [eq_comm]
  | empty => simp
  | name c => simp [eq_comm]

/-- The round for a pid whose name was found, or could not be opened. -/
theorem readProcess_run {src : ProcessSource} (uptime : Int) {w : World ProcessStats} {s : Loop}
    {items : List ProcessStats} (hw : Ready w) (hholding : Holding w s.vector items)
    (hcount : s.procItems = items.length) (hroom : items.length + 1 ≤ itemLimit) {pid : Int}
    {name : Option CString} (hname : nameFrom (src.files pid).comm = some name) :
    ∃ vector w' new, readProcess src uptime s (src.files pid) name w
        = .ok (.next { s.advance vector with procItems := (items ++ new).length }, w') ∧ Ready w' ∧
      Holding w' vector (items ++ new) ∧ Adds src uptime pid new := by
  rw [readProcess]
  cases hstat : (src.files pid).stat with
  | none =>
      refine ⟨s.vector, w, [], ?_, hw, ?_, ?_⟩
      · rw [List.append_nil, ← hcount]
        rfl
      · rwa [List.append_nil]
      · rw [Adds, listing, hname, hstat]
  | some stat =>
      obtain ⟨q, w1, v, hgrow, hw1, hq, hroomy, hstarts, hused⟩ :=
        @vectorUpdated_grow w hw s.vector items hholding (.sum s.procItems 1) (Nat.succ_ne_zero _)
          (by rw [CountArg.value, hcount]; exact hroom) (by rw [CountArg.value, hcount]; omega)
      rw [CountArg.value, hcount] at hused
      obtain ⟨fill, item', t', hfill, hplenty', -, hlisting⟩ := fillProcess_run src uptime hname hstat
        (hstarts.blank items.length le_rfl (by omega)) hw1.plenty
      have hslot := onSlot_run hq (fun _ => by rw [← hused]; exact hroomy.within) hfill
      have hstore : (w1.recopy t' q (v.setCell items.length item')).store q
          = some (v.setCell items.length item') := Function.update_self _ _ _
      have hroomy' : Roomy (v.setCell items.length item') :=
        ⟨hroomy.info, hroomy.shift, hroomy.within, hroomy.record⟩
      rw [← hcount] at hslot
      cases hl : listing (src.files pid) with
      | none =>
          rw [hl] at hlisting
          obtain ⟨rfl, hblank⟩ := hlisting
          refine ⟨some q, _, [], ?_, hw1.recopy hq hplenty', ⟨_, hstore, hroomy', ?_⟩, ?_⟩
          · simp only
            rw [Prog.bind_of_ok hgrow]
            simp only
            rw [Prog.bind_of_ok hslot, List.append_nil, ← hcount]
            rfl
          · rw [List.append_nil]
            exact hstarts.blankCell hblank
          · rw [Adds, hl]
      | some l =>
          rw [hl] at hlisting
          obtain ⟨rfl, hitem⟩ := hlisting
          refine ⟨some q, _, [item'], ?_, hw1.recopy hq hplenty', ⟨_, hstore, hroomy', ?_⟩, ?_⟩
          · simp only
            rw [Prog.bind_of_ok hgrow]
            simp only
            rw [Prog.bind_of_ok hslot, List.length_append, List.length_singleton, ← hcount]
            rfl
          · exact hstarts.append hused item'
          · rw [Adds, hl]
            exact ⟨_, hstarts.blank items.length le_rfl (by omega), by rw [hitem]⟩

theorem nextPage_run {w : World ProcessStats} {s : Loop} {items : List ProcessStats} (hw : Ready w)
    (hholding : Holding w s.vector items) (hcount : s.procItems = items.length)
    {pages : List (List Int)} (hpages : ∀ page ∈ pages, page ≠ [])
    (hroom : items.length + pages.flatten.length ≤ itemLimit) :
    ∃ vector w', nextPage s pages w
        = .ok (.next { s with pages := pages, pidItem := 0, vector := vector }, w') ∧ Ready w' ∧
      Holding w' vector items := by
  cases pages with
  | nil => exact ⟨s.vector, w, rfl, hw, hholding⟩
  | cons page rest =>
      have hpos : page.length ≠ 0 := by
        rw [Ne, List.length_eq_zero_iff]
        exact hpages page List.mem_cons_self
      rw [List.flatten_cons, List.length_append] at hroom
      obtain ⟨q, w1, v, hgrow, hw1, hq, hroomy, hstarts, -⟩ :=
        @vectorUpdated_grow w hw s.vector items hholding (.sum s.procItems page.length)
          (by rw [CountArg.value]; omega) (by rw [CountArg.value, hcount]; omega)
          (by rw [CountArg.value, hcount]; omega)
      refine ⟨some q, w1, ?_, hw1, v, hq, hroomy, hstarts⟩
      rw [nextPage, Prog.bind_of_ok hgrow]
      rfl

theorem CommLine.named {src : ProcessSource} {pid : Int} (h : CommLine src pid) :
    ∃ name, nameFrom (src.files pid).comm = some name := by
  rw [nameFrom]
  cases hcomm : readComm (src.files pid).comm with
  | closed => exact ⟨none, rfl⟩
  | empty => exact absurd hcomm h
  | name c => exact ⟨some c, rfl⟩

theorem Adds.length_le {src : ProcessSource} {uptime pid : Int} {new : List ProcessStats}
    (h : Adds src uptime pid new) : new.length ≤ 1 := by
  rw [Adds] at h
  cases hl : listing (src.files pid) with
  | none =>
      rw [hl] at h
      rw [h]
      exact Nat.zero_le 1
  | some l =>
      rw [hl] at h
      obtain ⟨old, -, rfl⟩ := h
      exact le_rfl

section

variable {src : ProcessSource} (uptime : Int) {w : World ProcessStats} {s : Loop}
  {items : List ProcessStats} (h : At w s items) {page : List Int} {pages : List (List Int)}
  (hpages : s.pages = page :: pages)

include h hpages

theorem round_page (hpid : page[s.pidItem]? = none) :
    ∃ s' w', round src uptime s page pages w = .ok (.next s', w') ∧ At w' s' items ∧
      s'.remaining = s.remaining := by
  have hroom := h.room
  have htail := h.pages
  rw [hpages, List.tail_cons] at htail
  have hdrop : page.drop s.pidItem = [] :=
    List.drop_eq_nil_of_le (List.getElem?_eq_none_iff.mp hpid)
  have hrest : s.remaining = pages.flatten := by
    rw [Loop.remaining, hpages]
    simp only
    rw [hdrop, List.nil_append]
  rw [hrest] at hroom
  obtain ⟨vector, w', hrun, hw', hholding'⟩ := nextPage_run h.ready h.holding h.count htail hroom
  have hrest' : ({ s with pages := pages, pidItem := 0, vector := vector } : Loop).remaining
      = pages.flatten := remaining_start pages _ _
  refine ⟨{ s with pages := pages, pidItem := 0, vector := vector }, w', ?_,
    ⟨hw', hholding', h.count, ?_, ?_⟩, hrest'.trans hrest.symm⟩
  · rw [round, hpid]
    exact hrun
  · rw [hrest']
    exact hroom
  · intro p hp
    exact htail p (List.mem_of_mem_tail hp)

theorem round_pid {pid : Int} (hpid : page[s.pidItem]? = some pid) (hline : CommLine src pid) :
    ∃ s' w' new, round src uptime s page pages w = .ok (.next s', w') ∧ At w' s' (items ++ new) ∧
      s.remaining = pid :: s'.remaining ∧ Adds src uptime pid new := by
  have hroom := h.room
  obtain ⟨hlt, hget⟩ := List.getElem?_eq_some_iff.mp hpid
  have hrest : ∀ (k : Nat) (vector : Option Ptr),
      s.remaining = pid :: ({ s.advance vector with procItems := k } : Loop).remaining := by
    intro k vector
    simp only [Loop.remaining, Loop.advance, hpages]
    rw [List.drop_eq_getElem_cons hlt, hget, List.cons_append]
  have hroom1 : items.length + 1 ≤ itemLimit := by
    rw [hrest 0 none, List.length_cons] at hroom
    omega
  obtain ⟨name, hname⟩ := hline.named
  obtain ⟨vector, w', new, hrun, hw', hholding', hadds⟩ :=
    readProcess_run uptime h.ready h.holding h.count hroom1 hname
  refine ⟨{ s.advance vector with procItems := (items ++ new).length }, w', new, ?_,
    ⟨hw', hholding', rfl, ?_, h.pages⟩, hrest _ vector, hadds⟩
  · rw [round, hpid]
    rcases nameFrom_eq.mp hname with ⟨hcomm, rfl⟩ | ⟨c, hcomm, rfl⟩
    · simp only [hcomm]
      exact hrun
    · simp only [hcomm]
      exact hrun
  · have hnew := hadds.length_le
    have hlen : (items ++ new).length = items.length + new.length := List.length_append
    rw [hrest (items ++ new).length vector, List.length_cons] at hroom
    omega

/-- With enough memory a round passes a pid, with its item, or frees a page. -/
theorem round_run (hline : ∀ pid, page[s.pidItem]? = some pid → CommLine src pid) :
    ∃ s' w' new, round src uptime s page pages w = .ok (.next s', w') ∧ At w' s' (items ++ new) ∧
      ((s'.remaining = s.remaining ∧ new = []) ∨
        ∃ pid, s.remaining = pid :: s'.remaining ∧ CommLine src pid ∧ Adds src uptime pid new) := by
  cases hpid : page[s.pidItem]? with
  | none =>
      obtain ⟨s', w', hrun, hat, hsame⟩ := @round_page src uptime w s items h page pages hpages hpid
      refine ⟨s', w', [], hrun, ?_, .inl ⟨hsame, rfl⟩⟩
      rwa [List.append_nil]
  | some pid =>
      obtain ⟨s', w', new, hrun, hat, hrest, hadds⟩ := round_pid uptime h hpages hpid (hline pid hpid)
      exact ⟨s', w', new, hrun, hat, .inr ⟨pid, hrest, hline pid hpid, hadds⟩⟩

end

/-- A pid whose name has no line is never passed. -/
theorem processLoop_stuck {src : ProcessSource} (uptime : Int) (fuel : Nat) {w : World ProcessStats}
    {s : Loop} {items : List ProcessStats} (h : At w s items) {pid : Int} (hpid : pid ∈ s.remaining)
    (hline : ¬ CommLine src pid) : ∃ w', processLoop src uptime fuel s w = .ok (none, w') := by
  induction fuel generalizing w s items with
  | zero =>
      cases hpages : s.pages with
      | nil =>
          rw [Loop.remaining, hpages] at hpid
          cases hpid
      | cons page pages => exact ⟨w, processLoop_zero hpages⟩
  | succ fuel ih =>
      cases hpages : s.pages with
      | nil =>
          rw [Loop.remaining, hpages] at hpid
          cases hpid
      | cons page pages =>
          rw [processLoop_succ fuel hpages]
          by_cases hhere : ∀ q, page[s.pidItem]? = some q → CommLine src q
          · obtain ⟨s', w1, new, hround, hat, hrest⟩ := round_run uptime h hpages hhere
            rw [Prog.bind_of_ok hround]
            apply ih hat
            rcases hrest with ⟨hsame, -⟩ | ⟨q, hcons, hq, -⟩
            · rwa [hsame]
            · rw [hcons, List.mem_cons] at hpid
              rcases hpid with rfl | hpid
              · exact absurd hq hline
              · exact hpid
          · rw [not_forall] at hhere
            obtain ⟨q, hq⟩ := hhere
            obtain ⟨hget, hempty⟩ := Classical.not_imp.mp hq
            have hround : round src uptime s page pages w = .ok (.next s, w) := by
              rw [round, hget]
              simp only [Classical.not_not.mp hempty]
              rfl
            rw [Prog.bind_of_ok hround]
            exact ih h hpid

instance : Inhabited ProcessStats := ⟨.zero⟩

/-- The pages of a chain as `scan_proc_dir` makes it: a page is added for a pid that has no place, and the
pids are numbers of 31 bits. -/
structure PidPages (pages : List (List Int)) : Prop where
  filled : ∀ page ∈ pages.tail, page ≠ []
  few : pages.flatten.length ≤ itemLimit

theorem PidPages.at_start {pages : List (List Int)} (h : PidPages pages) :
    At (emptyWorld ProcessStats) ⟨pages, 0, 0, none⟩ [] := by
  refine ⟨⟨fun _ _ => rfl, rfl, fun _ => rfl⟩, rfl, rfl, ?_, h.filled⟩
  rw [remaining_start, List.length_nil, Nat.zero_add]
  exact h.few

/-- A name without a line keeps the loop from its end. -/
theorem not_loopEnds {src : ProcessSource} {pages : List (List Int)} (h : PidPages pages) {pid : Int}
    (hpid : pid ∈ pages.flatten) (hline : ¬ CommLine src pid) : ¬ LoopEnds src pages := by
  intro hends
  have hleft : pid ∈ (⟨pages, 0, 0, none⟩ : Loop).remaining := by
    rw [remaining_start]
    exact hpid
  obtain ⟨w', hrun⟩ :=
    processLoop_stuck 0 (pages.flatten.length + pages.length) h.at_start hleft hline
  exact hends.ends 0 none _ w' none hrun rfl

/-- The loop over a chain ends after a round for each pid and each page where every name that can be opened
has a line, and only there. -/
theorem loopEnds_iff (src : ProcessSource) (pages : List (List Int)) :
    ((∀ pid ∈ pages.flatten, CommLine src pid) → LoopEnds src pages) ∧
    (PidPages pages → LoopEnds src pages → ∀ pid ∈ pages.flatten, CommLine src pid) := by
  refine ⟨loopEnds_of_lines, ?_⟩
  intro hchain hends pid hpid
  by_contra hline
  exact not_loopEnds hchain hpid hline hends

/-- A machine with two processes. The second one vanishes before its name is opened. -/
def ProcessSource.vanishing : ProcessSource :=
  { ProcessSource.idle with
    dir := ⟨.ok [some 1, some 2], 0⟩
    files := fun pid =>
      if pid = 1 then ⟨some ⟨bytes "init\n", none⟩, none, none, none, by decide +kernel⟩
      else ⟨none, none, none, none, nofun⟩ }

/-- The loop passes the process that is there and the one that has vanished. -/
theorem loopEnds_vanished : LoopEnds .vanishing [[1, 2]] := by
  apply (loopEnds_iff .vanishing [[1, 2]]).1
  intro pid hpid hempty
  rw [List.flatten_singleton, List.mem_pair] at hpid
  rcases hpid with rfl | rfl
  · have hname : readComm (ProcessSource.vanishing.files 1).comm = .name (bytes "init") := by decide +kernel
    rw [hname] at hempty
    cases hempty
  · cases hempty

/-- A machine with one process, whose name is empty. -/
def ProcessSource.nameless : ProcessSource :=
  { ProcessSource.idle with
    dir := ⟨.ok [some 1], 0⟩
    files := fun _ => ⟨some ⟨[], none⟩, none, none, none, by simp⟩ }

/-- The process vanishes between the open and the read of its name. -/
theorem not_loopEnds_nameless : ¬ LoopEnds .nameless [[1]] := by
  have hpid : (1 : Int) ∈ [[1]].flatten := by simp
  have hline : ¬ CommLine .nameless 1 := fun h => h rfl
  exact not_loopEnds ⟨by simp, by decide⟩ hpid hline

end Statgrab.Process
