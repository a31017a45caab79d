import Statgrab.Access.Multi
import Statgrab.Process.Listing

/-!
# Counting the processes

`sg_get_process_count_int` goes over the states of the items of a vector, and `sg_get_process_count_of` has
it count the processes that were read last or those of a new read. Whether that read came through is not
looked at: there is a count if there is a vector. A read that fails early leaves the vector as the getter has
cleared it, one that fails later leaves what it has filled, and one that finds no process at all leaves none.
-/

namespace Statgrab.Process

/-! ### `sg_get_process_count_int` -/

structure ProcessCount where
  total : Nat
  running : Nat
  sleeping : Nat
  stopped : Nat
  zombie : Nat
  unknown : Nat
  systime : Int
  deriving DecidableEq, Inhabited

/-- `VECTOR_INIT_INFO_EMPTY_INIT(sg_process_count)`. -/
def ProcessCount.info : VectorInitInfo ProcessCount :=
  { itemSize := 56, initFn := none, copyFn := none, computeDiffFn := none, compareFn := none
    destroyFn := none }

/-- The `switch` over the state of an item. -/
def ProcessCount.add (c : ProcessCount) : SgProcessState → ProcessCount
  | .running => { c with running := c.running + 1 }
  | .sleeping => { c with sleeping := c.sleeping + 1 }
  | .stopped => { c with stopped := c.stopped + 1 }
  | .zombie => { c with zombie := c.zombie + 1 }
  | .unknown => { c with unknown := c.unknown + 1 }
  | .invalid _ => c

/-- What `sg_get_process_count_int` reads of a vector. A read may be outside of the block. -/
structure CountView where
  usedCount : Option Nat
  systime : Option Int
  state : Nat → Option SgProcessState

/-- `while( proc_count-- )`. -/
def countStates (state : Nat → Option SgProcessState) : Nat → ProcessCount → Option ProcessCount
  | 0, c => some c
  | k + 1, c =>
      match state k with
      | none => none
      | some s => countStates state k (c.add s)

def sgGetProcessCountInt (view : CountView) : Option ProcessCount :=
  match view.usedCount, view.systime with
  | some procCount, some systime => countStates view.state procCount ⟨procCount, 0, 0, 0, 0, 0, systime⟩
  | _, _ => none

def CountView.ofVector (v : SgVector ProcessStats) : CountView where
  usedCount := some v.usedCount
  systime := if 0 < v.slots then some (v.cells 0).systime else none
  state k := if k < v.slots then some (v.cells k).state else none

/-! ### `sg_get_process_count_of` -/

/-- `process_vectors`: the processes and the count. -/
structure ProcessGlob where
  stats : Option Ptr
  count : Option Ptr
  deriving DecidableEq

/-- The vectors of a thread. The thread is that of `stats`. -/
structure ProcessWorld where
  stats : World ProcessStats
  counts : World ProcessCount

/-- A function that works on both kinds of vectors. -/
abbrev ProcessM := Prog Fault ProcessWorld

def onStats {β : Type} (x : VecM ProcessStats β) : ProcessM β :=
  Prog.zoom ProcessWorld.stats (fun s w => { s with stats := w }) x

def onCounts {β : Type} (x : VecM ProcessCount β) : ProcessM β :=
  Prog.zoom (fun s => { s.counts with toThread := s.stats.toThread })
    (fun s w => ⟨{ s.stats with toThread := w.toThread }, w⟩) x

/-- `sg_get_process_stats(NULL)`: `MULTI_COMP_ACCESS` for the processes, with at most `fuel` rounds of the
loop of the read. -/
def sgGetProcessStats (src : ProcessSource) (fuel : Nat) (now : Option Ptr) :
    VecM ProcessStats (Option (Access × Option Ptr)) := do
  let target ← multiTarget ProcessStats.info now
  match target with
  | none => return some (.failed none, none)
  | some p =>
      let done ← sgGetProcessStatsInt src fuel (some p)
      match done with
      | none => return none
      | some (rc, now) =>
          if rc = .none then
            let result ← succeed now (some rc)
            return some (result, now)
          else return some (.failed (some rc), now)

inductive SgProcessCountSource where
  | entire
  | last
  | other (code : Int)
  deriving DecidableEq

def countTarget (count : Option Ptr) : ProcessM (Option Ptr) :=
  match count with
  | some q => return some q
  | none => onCounts (vectorCreate ProcessCount.info 1)

/-- The end of `sg_get_process_count_of`: a count of the vector of processes, if there is one. -/
def countInto (q : Ptr) (stats : Option Ptr) : ProcessM (Option ProcessCount) :=
  match stats with
  | none => return none
  | some p => do
      let v ← onStats (deref p)
      match sgGetProcessCountInt (.ofVector v) with
      | none => Prog.fault .outOfBlock
      | some c => do
          onCounts (onSlot q 0 fun _ => return ((), c))
          return some c

/-- `sg_entire_process_count`: the processes are read, and what the read returns is not looked at. -/
def countEntire (src : ProcessSource) (fuel : Nat) (q : Ptr) (stats : Option Ptr) :
    ProcessM (Option (Option ProcessCount × ProcessGlob)) := do
  let read ← onStats (sgGetProcessStats src fuel stats)
  match read with
  | none => return none
  | some (_, now) => do
      let c ← countInto q now
      return some (c, ⟨now, some q⟩)

/-- `sg_get_process_count_of`: the count, if one is returned, and the vectors. There is no answer where the
read is not over after so many rounds. -/
def sgGetProcessCountOf (src : ProcessSource) (fuel : Nat) (pcs : SgProcessCountSource)
    (glob : ProcessGlob) : ProcessM (Option (Option ProcessCount × ProcessGlob)) := do
  let target ← countTarget glob.count
  match target with
  | none => do
      onStats (onThread (sgSetError .malloc 0 "sg_get_process_count_of"))
      return some (none, glob)
  | some q =>
      match pcs, glob.stats with
      | .last, some p => do
          let c ← countInto q (some p)
          return some (c, ⟨some p, some q⟩)
      | .other code, _ => do
          onStats (onThread (sgSetError .invalidArgument 0
            ("sg_get_process_count_of(sg_process_count_source = " ++ toString code ++ ")")))
          return some (none, { glob with count := some q })
      | _, stats => countEntire src fuel q stats

/-! ### What is counted -/

def ProcessCount.of (systime : Int) (states : List SgProcessState) : ProcessCount :=
  ⟨states.length, states.count .running, states.count .sleeping, states.count .stopped,
    states.count .zombie, states.count .unknown, systime⟩

def ProcessCount.sum (c : ProcessCount) : Nat := c.running + c.sleeping + c.stopped + c.zombie + c.unknown

def SgProcessState.valid : SgProcessState → Bool
  | .invalid _ => false
  | _ => true

def ProcessCount.plus (c : ProcessCount) (states : List SgProcessState) : ProcessCount :=
  { c with
    running := c.running + states.count .running
    sleeping := c.sleeping + states.count .sleeping
    stopped := c.stopped + states.count .stopped
    zombie := c.zombie + states.count .zombie
    unknown := c.unknown + states.count .unknown }

theorem ProcessCount.plus_append (c : ProcessCount) (states : List SgProcessState) (s : SgProcessState) :
    (c.add s).plus states = c.plus (states ++ [s]) := by
  cases s with
  | running => simp [ProcessCount.add, ProcessCount.plus, Nat.add_assoc, Nat.add_comm 1]
  | sleeping => simp [ProcessCount.add, ProcessCount.plus, Nat.add_assoc, Nat.add_comm 1]
  | stopped => simp [ProcessCount.add, ProcessCount.plus, Nat.add_assoc, Nat.add_comm 1]
  | zombie => simp [ProcessCount.add, ProcessCount.plus, Nat.add_assoc, Nat.add_comm 1]
  | unknown => simp [ProcessCount.add, ProcessCount.plus, Nat.add_assoc, Nat.add_comm 1]
  | invalid code => simp [ProcessCount.add, ProcessCount.plus]

theorem countStates_run {state : Nat → Option SgProcessState} {states : List SgProcessState}
    (h : ∀ (k : Nat) (s : SgProcessState), states[k]? = some s → state k = some s) (c : ProcessCount) :
    countStates state states.length c = some (c.plus states) := by
  induction states using List.reverseRecOn generalizing c with
  | nil => rfl
  | append_singleton states s ih =>
      have hlast : state states.length = some s := h _ _ (by simp)
      have ih := ih (fun k s' hk => h k s' (by
        rw [List.getElem?_append_left (List.getElem?_eq_some_iff.mp hk).1]
        exact hk)) (c.add s)
      rw [List.length_append, List.length_singleton, countStates, hlast]
      simp only
      rw [ih, c.plus_append]

theorem exists_states {state : Nat → Option SgProcessState} {n : Nat} {c c' : ProcessCount}
    (h : countStates state n c = some c') :
    ∃ states : List SgProcessState, states.length = n ∧
      ∀ (k : Nat) (s : SgProcessState), states[k]? = some s → state k = some s := by
  induction n generalizing c with
  | zero => exact ⟨[], rfl, by simp⟩
  | succ n ih =>
      rw [countStates] at h
      cases hstate : state n with
      | none =>
          rw [hstate] at h
          cases h
      | some s =>
          rw [hstate] at h
          obtain ⟨states, hlen, hstates⟩ := ih h
          refine ⟨states ++ [s], by simp [hlen], ?_⟩
          intro k s' hk
          rcases getElem?_snoc hk with ⟨-, hk⟩ | ⟨rfl, rfl⟩
          · exact hstates k s' hk
          · rw [hlen, hstate]

theorem sgGetProcessCountInt_eq_some {view : CountView} {c : ProcessCount} :
    sgGetProcessCountInt view = some c ↔ ∃ (systime : Int) (states : List SgProcessState),
      view.usedCount = some states.length ∧ view.systime = some systime ∧
      (∀ (k : Nat) (s : SgProcessState), states[k]? = some s → view.state k = some s) ∧
      c = .of systime states := by
  constructor
  · intro h
    rw [sgGetProcessCountInt] at h
    split at h
    · rename_i used systime hused hsystime
      obtain ⟨states, hlen, hstates⟩ := exists_states h
      subst hlen
      rw [countStates_run hstates] at h
      refine ⟨systime, states, hused, hsystime, hstates, ?_⟩
      rw [← Option.some.inj h]
      simp [ProcessCount.plus, ProcessCount.of]
    · cases h
  · rintro ⟨systime, states, hused, hsystime, hstates, rfl⟩
    rw [sgGetProcessCountInt, hused, hsystime]
    simp only
    rw [countStates_run hstates]
    simp [ProcessCount.plus, ProcessCount.of]

theorem sum_of (systime : Int) (states : List SgProcessState) :
    (ProcessCount.of systime states).sum = states.countP SgProcessState.valid := by
  induction states with
  | nil => rfl
  | cons s states ih =>
      rw [ProcessCount.sum, ProcessCount.of] at ih ⊢
      simp only [List.count_cons, List.countP_cons] at ih ⊢
      cases s with
      | running => simp [SgProcessState.valid]; omega
      | sleeping => simp [SgProcessState.valid]; omega
      | stopped => simp [SgProcessState.valid]; omega
      | zombie => simp [SgProcessState.valid]; omega
      | unknown => simp [SgProcessState.valid]; omega
      | invalid code => simp [SgProcessState.valid]; omega

/-- The counters add up to the total where every state has a name. -/
theorem sum_of_eq_length_iff (systime : Int) (states : List SgProcessState) :
    states.length = (ProcessCount.of systime states).sum ↔ ∀ s ∈ states, s.valid = true := by
  rw [sum_of, eq_comm, List.countP_eq_length]

/-! ### Whatever the allocator answers -/

/-- The variable is NULL, or holds a vector whose items are in its block. -/
structure Sane (w : World ProcessStats) (x : Option Ptr) : Prop where
  fresh : w.Fresh
  bounded : w.bounded = true
  vector : ∀ p, x = some p → ∃ v, w.store p = some v ∧ Roomy v ∧ v.slots ≠ 0

/-- If there is a vector, it has items. -/
structure Stocked (w : World ProcessStats) (x : Option Ptr) : Prop extends Sane w x where
  used : ∀ p v, x = some p → w.store p = some v → v.usedCount ≠ 0

theorem Stocked.null {w : World ProcessStats} (hfresh : w.Fresh) (hbounded : w.bounded = true) :
    Stocked w none := by
  refine ⟨⟨hfresh, hbounded, ?_⟩, ?_⟩
  · intro p hp
    cases hp
  · intro p v hp
    cases hp

theorem Stocked.single {w : World ProcessStats} (hfresh : w.Fresh) (hbounded : w.bounded = true) {p : Ptr}
    {v : SgVector ProcessStats} (hv : w.store p = some v) (hroomy : Roomy v) (hused : v.usedCount ≠ 0) :
    Stocked w (some p) := by
  refine ⟨⟨hfresh, hbounded, ?_⟩, ?_⟩
  · intro q hq
    cases hq
    have hwithin := hroomy.within
    exact ⟨v, hv, hroomy, by omega⟩
  · intro q v' hq hv'
    cases hq
    rw [hv] at hv'
    cases hv'
    exact hused

theorem sgVectorCreateInt_roomy {w : World ProcessStats} (hfresh : w.Fresh) (hbounded : w.bounded = true)
    {shift m n : Nat} (hpos : 0 < max m n) (hlimit : max m n ≤ itemLimit) (hshift : shift ≤ 31) :
    ∃ target w', sgVectorCreateInt shift m n ProcessStats.info w = .ok (target, w') ∧ w'.Fresh ∧
      w'.bounded = true ∧ (target = none ↔ w.mem 0 = false) ∧
      ∀ p, target = some p → ∃ v, w'.store p = some v ∧ Roomy v ∧ v.slots ≠ 0 ∧ v.usedCount = n := by
  have hfit : Fits (max m n) shift ProcessStats.info := info_fits hlimit hshift
  cases hmem : w.mem 0 with
  | false =>
      obtain ⟨w', hrun, hfail⟩ := sgVectorCreateInt_failed (w := w) hfit hmem
      exact ⟨none, w', hrun, hfail.handover.fresh hfresh, hfail.handover.bounded.trans hbounded,
        by simp, by simp⟩
  | true =>
      obtain ⟨w', v, hrun, hand, hv, hfor, -, -⟩ := sgVectorCreateInt_created (w := w) hfit hmem
      have hround := le_roundUp (max m n) shift
      refine ⟨some w.next, w', hrun, hand.fresh hfresh, hand.bounded.trans hbounded, by simp, ?_⟩
      intro p hp
      cases hp
      refine ⟨v, hv, ⟨hfor.info, hfor.blockShift ▸ hshift, ?_, ?_⟩, ?_, hfor.usedCount⟩
      · rw [hfor.usedCount, hfor.slots]
        omega
      · rw [hfor.allocCount, hfor.slots]
        exact block_le_roundUp hpos _
      · rw [hfor.slots]
        omega

theorem sgVectorResize_stocked {w : World ProcessStats} {p : Ptr} (h : Sane w (some p)) {n : Nat}
    (hlimit : n ≤ itemLimit) : ∃ x' w', sgVectorResize p n w = .ok (x', w') ∧ Stocked w' x' := by
  obtain ⟨v, hv, hroomy, hslots⟩ := h.vector p rfl
  have hp := h.fresh.lt hv
  by_cases hn : n = 0
  · subst hn
    exact ⟨none, _, sgVectorResize_zero hv (fun _ => hroomy.within),
      .null ((((World.Handover.own hp).shrink v 0).drop.cleared).fresh h.fresh) h.bounded⟩
  · have hfit : Fits n v.blockShift v.info := hroomy.info ▸ info_fits hlimit hroomy.shift
    by_cases hmem : roundUp n v.blockShift ≠ v.allocCount → w.mem 0 = true
    · obtain ⟨q, w', v', hrun, hand, hq, hres, -, -⟩ :=
        sgVectorResize_run h.fresh hn hv (fun _ => hroomy.within) hfit
          (fun hround _ => by
            have := le_roundUp n v.blockShift
            have := hroomy.record
            omega) hmem
      refine ⟨some q, w', hrun, .single (hand.fresh h.fresh) (hand.bounded.trans h.bounded) hq
        (hroomy.resized hres) ?_⟩
      rw [hres.usedCount]
      exact hn
    · rw [Classical.not_imp, Bool.not_eq_true] at hmem
      obtain ⟨hround, hmem⟩ := hmem
      have heq := hfit.nextPower2In_eq
      obtain ⟨w', hrun, hstore, -, hnext, hbounded, -⟩ :=
        sgVectorResize_refused hn hv (fun _ => hroomy.within) (by rwa [heq])
          (by rw [heq]; exact (roundUp_pos (Nat.pos_of_ne_zero hn) _).ne')
          hfit.blockBytes_ne_zero hmem
      refine ⟨none, w', hrun, .null ?_ (hbounded.trans h.bounded)⟩
      intro q hq
      rw [hstore, Function.update_of_ne]
      · exact h.fresh q (hnext ▸ hq)
      · intro hcon
        rw [hcon, hnext] at hq
        exact absurd hp (not_lt.mpr hq)

theorem vectorCreateOrResize_stocked {w : World ProcessStats} {x : Option Ptr} (h : Sane w x) {n : Nat}
    (hlimit : n ≤ itemLimit) (hzero : n = 0 → x ≠ none) :
    ∃ x' w', vectorCreateOrResize ProcessStats.info x n w = .ok (x', w') ∧ Stocked w' x' := by
  cases x with
  | some p => exact sgVectorResize_stocked h hlimit
  | none =>
      have hn : n ≠ 0 := fun hn => hzero hn rfl
      obtain ⟨shift, hshift, hle⟩ := blockShiftOf_isSome hlimit
      obtain ⟨target, w', hrun, hfresh, hbounded, -, hvector⟩ :=
        @sgVectorCreateInt_roomy w h.fresh h.bounded shift n n (by omega) (by omega) hle
      refine ⟨target, w', ?_, ?_⟩
      · rw [vectorCreateOrResize, sgVectorCreate, hshift]
        exact hrun
      · cases target with
        | none => exact .null hfresh hbounded
        | some p =>
            obtain ⟨v, hv, hroomy, -, hused⟩ := hvector p rfl
            exact .single hfresh hbounded hv hroomy (by omega)

theorem vectorUpdated_stocked {w w' : World ProcessStats} {x : Option Ptr} (h : Sane w x) {arg : CountArg}
    (hlimit : arg.value ≤ itemLimit) (hzero : arg.value = 0 → x ≠ none)
    {r : Except SgError (Option Ptr)}
    (hrun : vectorUpdated ProcessStats.info x arg w = .ok (r, w')) :
    Stocked w' (r.toOption.getD none) := by
  obtain ⟨x1, w1, hresize, h1⟩ := vectorCreateOrResize_stocked h hlimit hzero
  rw [vectorUpdated, Prog.bind_of_ok hresize] at hrun
  cases x1 with
  | some p =>
      cases hrun
      exact h1
  | none =>
      simp only at hrun
      split at hrun
      · cases hrun
        exact h1
      · rw [Prog.bind_of_ok (onThread_run (sgGetError_run _))] at hrun
        cases hrun
        exact h1

theorem onThread_eq_ok {β : Type} {x : ThreadM β} {w w' : World ProcessStats} {b : β}
    (h : (onThread x : VecM ProcessStats β) w = .ok (b, w')) : ∃ t, w' = { w with toThread := t } := by
  obtain ⟨t, -, rfl⟩ := Prog.zoom_eq_ok.mp h
  exact ⟨t, rfl⟩

theorem onSlot_stocked {β : Type} {w w' : World ProcessStats} {p : Ptr} (h : Stocked w (some p))
    {i : Nat} {fn : ProcessStats → ThreadM (β × ProcessStats)} {b : β}
    (hrun : onSlot p i fn w = .ok (b, w')) : Stocked w' (some p) := by
  obtain ⟨v, hv, hroomy, -⟩ := h.vector p rfl
  rw [onSlot, Prog.bind_of_ok (deref_run hv)] at hrun
  obtain ⟨⟨b', item⟩, w1, hfn, hrest⟩ := Prog.bind_eq_ok.mp (touch_bind_eq_ok hrun)
  obtain ⟨t, rfl⟩ := onThread_eq_ok hfn
  cases hrest
  set w2 := World.put { w with toThread := t } p (v.setCell i item)
  have hv' : w2.store p = some (v.setCell i item) := Function.update_self _ _ _
  have hbounded : w2.bounded = true := h.bounded
  apply Stocked.single ?_ hbounded hv' ⟨hroomy.info, hroomy.shift, hroomy.within, hroomy.record⟩
    (h.used p v rfl hv)
  intro q hq
  have hne : q ≠ p := by
    rintro rfl
    exact absurd (h.fresh.lt hv) (not_lt.mpr hq)
  exact (Function.update_of_ne hne _ _).trans (h.fresh q hq)

/-- What holds of the variables of the loop, whatever the allocator answers. -/
structure StockedLoop (w : World ProcessStats) (s : Loop) : Prop where
  stocked : Stocked w s.vector
  room : s.procItems + s.remaining.length ≤ itemLimit
  pages : ∀ page ∈ s.pages.tail, page ≠ []

theorem readProcess_stocked {src : ProcessSource} {uptime : Int} {w w' : World ProcessStats} {s : Loop}
    (h : Stocked w s.vector) (hroom : s.procItems + 1 ≤ itemLimit) {files : ProcessFiles}
    {name : Option CString} {r : Round}
    (hrun : readProcess src uptime s files name w = .ok (r, w')) :
    match r with
    | .next s' => Stocked w' s'.vector ∧ s'.procItems ≤ s.procItems + 1
    | .returned _ x => Stocked w' x := by
  rw [readProcess] at hrun
  cases hstat : files.stat with
  | none =>
      rw [hstat] at hrun
      cases hrun
      exact ⟨h, Nat.le_succ _⟩
  | some stat =>
      rw [hstat] at hrun
      obtain ⟨grown, w1, hgrown, hrun⟩ := Prog.bind_eq_ok.mp hrun
      have h1 := vectorUpdated_stocked h.toSane (by rw [CountArg.value]; omega)
        (by rw [CountArg.value]; omega) hgrown
      cases grown with
      | error rc =>
          cases hrun
          exact h1
      | ok x =>
          cases x with
          | none => cases hrun
          | some p =>
              obtain ⟨fill, w2, hfill, hrun⟩ := Prog.bind_eq_ok.mp hrun
              have h2 := onSlot_stocked h1 hfill
              cases fill with
              | skipped =>
                  cases hrun
                  exact ⟨h2, Nat.le_succ _⟩
              | failed rc =>
                  cases hrun
                  exact h2
              | filled =>
                  cases hrun
                  exact ⟨h2, le_rfl⟩

theorem nextPage_stocked {w w' : World ProcessStats} {s : Loop} (h : Stocked w s.vector)
    {pages : List (List Int)} (hroom : s.procItems + pages.flatten.length ≤ itemLimit)
    (hpages : ∀ page ∈ pages, page ≠ []) {r : Round} (hrun : nextPage s pages w = .ok (r, w')) :
    ∃ s', r = .next s' ∧ StockedLoop w' s' := by
  cases pages with
  | nil =>
      cases hrun
      exact ⟨_, rfl, h, hroom, by simp⟩
  | cons page rest =>
      obtain ⟨grown, w1, hgrown, hrun⟩ := Prog.bind_eq_ok.mp hrun
      rw [List.flatten_cons, List.length_append] at hroom
      have hpage := List.length_pos_iff.mpr (hpages page List.mem_cons_self)
      have h1 := vectorUpdated_stocked h.toSane (by rw [CountArg.value]; omega)
        (by rw [CountArg.value]; omega) hgrown
      cases grown with
      | error rc => cases hrun
      | ok x =>
          cases hrun
          refine ⟨_, rfl, h1, ?_, fun q hq => hpages q (List.mem_cons_of_mem page hq)⟩
          rw [remaining_start, List.flatten_cons, List.length_append]
          exact hroom

theorem round_stocked {src : ProcessSource} {uptime : Int} {w w' : World ProcessStats} {s : Loop}
    (h : StockedLoop w s) {page : List Int} {pages : List (List Int)} (hpages : s.pages = page :: pages)
    {r : Round} (hrun : round src uptime s page pages w = .ok (r, w')) :
    match r with
    | .next s' => StockedLoop w' s'
    | .returned _ x => Stocked w' x := by
  have hroom := h.room
  rw [Loop.remaining, hpages, List.length_append, List.length_drop] at hroom
  have htail : ∀ q ∈ pages, q ≠ [] := by
    have htail := h.pages
    rwa [hpages, List.tail_cons] at htail
  have hread : s.pidItem < page.length → ∀ {files : ProcessFiles} {name : Option CString},
      readProcess src uptime s files name w = .ok (r, w') →
      match r with
      | .next s' => StockedLoop w' s'
      | .returned _ x => Stocked w' x := by
    intro hlt files name hrun
    have hstocked := readProcess_stocked h.stocked (by omega) hrun
    cases r with
    | returned rc x => exact hstocked
    | next s' =>
        obtain ⟨hp, hi⟩ := readProcess_next hrun
        refine ⟨hstocked.1, ?_, by rw [hp, hpages]; exact htail⟩
        have hcount := hstocked.2
        rw [Loop.remaining, hp, hpages, hi, List.length_append, List.length_drop]
        omega
  rw [round] at hrun
  cases hpid : page[s.pidItem]? with
  | none =>
      rw [hpid] at hrun
      obtain ⟨s', rfl, hs'⟩ := nextPage_stocked h.stocked (by omega) htail hrun
      exact hs'
  | some pid =>
      obtain ⟨hlt, -⟩ := List.getElem?_eq_some_iff.mp hpid
      rw [hpid] at hrun
      simp only at hrun
      cases hcomm : readComm (src.files pid).comm with
      | empty =>
          rw [hcomm] at hrun
          cases hrun
          exact h
      | closed =>
          rw [hcomm] at hrun
          exact hread hlt hrun
      | name name =>
          rw [hcomm] at hrun
          exact hread hlt hrun

theorem processLoop_stocked {src : ProcessSource} {uptime : Int} (fuel : Nat) {w w' : World ProcessStats}
    {s : Loop} (h : StockedLoop w s) {done : Option (Option SgError × Loop)}
    (hrun : processLoop src uptime fuel s w = .ok (done, w')) :
    ∀ rc s', done = some (rc, s') → Stocked w' s'.vector ∧ (rc = none → s'.procItems ≤ itemLimit) := by
  induction fuel generalizing w s with
  | zero =>
      cases hpages : s.pages with
      | nil =>
          rw [processLoop_done 0 hpages] at hrun
          cases hrun
          rintro rc s' ⟨⟩
          have := h.room
          exact ⟨h.stocked, fun _ => by omega⟩
      | cons page pages =>
          rw [processLoop_zero hpages] at hrun
          cases hrun
          rintro rc s' ⟨⟩
  | succ fuel ih =>
      cases hpages : s.pages with
      | nil =>
          rw [processLoop_done _ hpages] at hrun
          cases hrun
          rintro rc s' ⟨⟩
          have := h.room
          exact ⟨h.stocked, fun _ => by omega⟩
      | cons page pages =>
          rw [processLoop_succ fuel hpages] at hrun
          obtain ⟨step, w1, hround, hrun⟩ := Prog.bind_eq_ok.mp hrun
          have hstep := round_stocked h hpages hround
          cases step with
          | next s1 => exact ih hstep hrun
          | returned rc x =>
              cases hrun
              rintro rc' s' ⟨⟩
              exact ⟨hstep, by simp⟩

theorem trimItems_stocked {w w' : World ProcessStats} {x : Option Ptr} (h : Stocked w x) {n : Nat}
    (hn : n ≤ itemLimit) {r : SgError × Option Ptr} (hrun : trimItems x n w = .ok (r, w')) :
    Stocked w' r.2 := by
  cases x with
  | none =>
      cases hrun
      exact h
  | some p =>
      obtain ⟨v, hv, hrun⟩ := deref_bind_eq_ok hrun
      split at hrun
      · rw [vectorUpdate_eq] at hrun
        obtain ⟨grown, w1, hgrown, hrun⟩ := Prog.bind_eq_ok.mp hrun
        have hcount : (CountArg.count n).value ≤ itemLimit := hn
        have h1 := vectorUpdated_stocked h.toSane hcount (by simp) hgrown
        cases grown with
        | error rc =>
            cases hrun
            exact h1
        | ok x1 =>
            cases hrun
            exact h1
      · cases hrun
        exact h

/-- A scan of no more pids than there can be. -/
def ProcessSource.Few (src : ProcessSource) : Prop :=
  ∀ entries, src.dir.entries = .ok entries → (entries.filterMap id).length ≤ itemLimit

/-- The read with any answer of the allocator. Once the pids are listed, a vector that is left has items. -/
theorem sgGetProcessStatsInt_sane {src : ProcessSource} (hfew : src.Few) {fuel : Nat}
    {w w' : World ProcessStats} {p : Ptr} (h : Sane w (some p)) {rc : SgError} {x : Option Ptr}
    (hrun : sgGetProcessStatsInt src fuel (some p) w = .ok (some (rc, x), w')) :
    Sane w' x ∧ ∀ uptime chain t,
      processPids src.toProcFs w.toThread = .ok (.ok (uptime, chain), t) → Stocked w' x := by
  obtain ⟨pids, w1, hpids, hrun⟩ := Prog.bind_eq_ok.mp hrun
  obtain ⟨t, hthread, rfl⟩ := Prog.zoom_eq_ok.mp hpids
  have h1 : Sane { w with toThread := t } (some p) := ⟨h.fresh, h.bounded, h.vector⟩
  cases pids with
  | error code =>
      cases hrun
      refine ⟨h1, ?_⟩
      intro uptime chain t' hok
      rw [hthread] at hok
      cases hok
  | ok read =>
      have hstocked : Stocked w' x := by
        obtain ⟨uptime, chain⟩ := read
        obtain ⟨entries, hdir, hlists⟩ := processPids_lists hthread
        have hlen : (pagesOf chain).flatten.length ≤ itemLimit := by
          rw [hlists.pids]
          exact hfew entries hdir
        obtain ⟨grown, w2, hgrown, hrun⟩ := Prog.bind_eq_ok.mp hrun
        have hfirst : (CountArg.sum 0 ((pagesOf chain).headD []).length).value ≤ itemLimit := by
          rw [CountArg.value]
          cases hpages : pagesOf chain with
          | nil => simp
          | cons page pages =>
              rw [hpages, List.flatten_cons, List.length_append] at hlen
              rw [List.headD_cons]
              omega
        have h2 := vectorUpdated_stocked h1 hfirst (by simp) hgrown
        cases grown with
        | error code => cases hrun
        | ok x1 =>
            obtain ⟨done, w3, hloop, hrun⟩ := Prog.bind_eq_ok.mp hrun
            have hstart : StockedLoop w2 ⟨pagesOf chain, 0, 0, x1⟩ := by
              refine ⟨h2, ?_, hlists.filled⟩
              rw [remaining_start]
              simpa using hlen
            have h3 := processLoop_stocked fuel hstart hloop
            cases done with
            | none => cases hrun
            | some left =>
                obtain ⟨code, s⟩ := left
                obtain ⟨hstocked, hitems⟩ := h3 code s rfl
                cases code with
                | some code =>
                    cases hrun
                    exact hstocked
                | none =>
                    obtain ⟨r, w4, htrim, hrun⟩ := Prog.bind_eq_ok.mp hrun
                    have h4 := trimItems_stocked hstocked (hitems rfl) htrim
                    cases hrun
                    exact h4
      exact ⟨hstocked.toSane, fun _ _ _ _ => hstocked⟩

theorem Roomy.cleared {v : SgVector ProcessStats} (h : Roomy v) : Roomy (v.destroyUnused 0) := by
  refine ⟨?_, ?_, ?_, ?_⟩
  · rw [destroyUnused_info]
    exact h.info
  · rw [destroyUnused_blockShift]
    exact h.shift
  · rw [destroyUnused_usedCount, Nat.min_zero]
    exact Nat.zero_le _
  · rw [destroyUnused_allocCount, destroyUnused_slots]
    exact h.record

/-- The vector the getter reads into. There is none where the first one of the thread is refused. -/
theorem multiTarget_sane {w : World ProcessStats} {now : Option Ptr} (h : Sane w now) :
    ∃ target w1, multiTarget ProcessStats.info now w = .ok (target, w1) ∧ Sane w1 target ∧
      (target = none ↔ now = none ∧ w.mem 0 = false) ∧
      ∀ p, target = some p → ∃ v, w1.store p = some v ∧ Roomy v ∧ v.usedCount = 0 := by
  cases now with
  | none =>
      have hshift : blockShiftOf 16 = some 4 := by decide
      obtain ⟨target, w1, hrun, hfresh, hbounded, hnull, hvector⟩ :=
        @sgVectorCreateInt_roomy w h.fresh h.bounded 4 16 0 (by decide) (by decide) (by decide)
      refine ⟨target, w1, ?_, ⟨hfresh, hbounded, ?_⟩, by simpa using hnull, ?_⟩
      · rw [multiTarget, vectorCreate, sgVectorCreate, hshift]
        exact hrun
      · intro p hp
        obtain ⟨v, hv, hroomy, hslots, -⟩ := hvector p hp
        exact ⟨v, hv, hroomy, hslots⟩
      · intro p hp
        obtain ⟨v, hv, hroomy, -, hused⟩ := hvector p hp
        exact ⟨v, hv, hroomy, hused⟩
  | some p =>
      obtain ⟨v, hv, hroomy, hslots⟩ := h.vector p rfl
      have hand : w.Handover (w.shrink p v 0) (some p) (some p) :=
        (World.Handover.own (h.fresh.lt hv)).shrink v 0
      have hstore : (w.shrink p v 0).store p = some (v.destroyUnused 0) := Function.update_self _ _ _
      refine ⟨some p, w.shrink p v 0, ?_, ⟨hand.fresh h.fresh, h.bounded, ?_⟩, by simp, ?_⟩
      · rw [multiTarget, Prog.bind_of_ok (sgVectorClear_run hv (fun _ => hroomy.within))]
        rfl
      · intro q hq
        cases hq
        exact ⟨v.destroyUnused 0, hstore, hroomy.cleared, by rwa [destroyUnused_slots]⟩
      · intro q hq
        cases hq
        refine ⟨v.destroyUnused 0, hstore, hroomy.cleared, ?_⟩
        rw [destroyUnused_usedCount, Nat.min_zero]

theorem succeed_cleared {w : World ProcessStats} {x : Option Ptr} (h : Sane w x)
    (read : Option SgError) : ∃ result, succeed x read w = .ok (result, w.cleared) := by
  cases x with
  | none => exact ⟨_, rfl⟩
  | some p =>
      obtain ⟨v, hv, -, -⟩ := h.vector p rfl
      exact ⟨_, succeed_some hv read⟩

theorem sgGetProcessStats_eq {src : ProcessSource} (hfew : src.Few) {fuel : Nat}
    {w w1 : World ProcessStats} {now : Option Ptr} {p : Ptr} (h1 : Sane w1 (some p))
    (htarget : multiTarget ProcessStats.info now w = .ok (some p, w1)) {rc : SgError} {x : Option Ptr}
    {w2 : World ProcessStats}
    (hread : sgGetProcessStatsInt src fuel (some p) w1 = .ok (some (rc, x), w2)) :
    ∃ a w', sgGetProcessStats src fuel now w = .ok (some (a, x), w') ∧ w'.store = w2.store ∧
      Sane w' x := by
  have h2 := (sgGetProcessStatsInt_sane hfew h1 hread).1
  rw [sgGetProcessStats, Prog.bind_of_ok htarget]
  simp only
  rw [Prog.bind_of_ok hread]
  simp only
  split
  · obtain ⟨result, hsucceed⟩ := succeed_cleared h2 (some rc)
    rw [Prog.bind_of_ok hsucceed]
    exact ⟨result, w2.cleared, rfl, rfl, h2.fresh, h2.bounded, h2.vector⟩
  · exact ⟨.failed (some rc), w2, rfl, rfl, h2⟩

theorem read_of_sgGetProcessStats {src : ProcessSource} (hfew : src.Few) {fuel : Nat}
    {w w1 w' : World ProcessStats} {now x : Option Ptr} {p : Ptr} (h1 : Sane w1 (some p))
    (htarget : multiTarget ProcessStats.info now w = .ok (some p, w1)) {a : Access}
    (hrun : sgGetProcessStats src fuel now w = .ok (some (a, x), w')) :
    ∃ rc w2, sgGetProcessStatsInt src fuel (some p) w1 = .ok (some (rc, x), w2) ∧ Sane w' x := by
  have hrun' := hrun
  rw [sgGetProcessStats, Prog.bind_of_ok htarget] at hrun'
  obtain ⟨done, w2, hread, hrest⟩ := Prog.bind_eq_ok.mp hrun'
  cases done with
  | none => cases hrest
  | some left =>
      obtain ⟨a', w3, heq, -, h3⟩ := sgGetProcessStats_eq hfew h1 htarget hread
      rw [hrun] at heq
      cases heq
      exact ⟨left.1, w2, hread, h3⟩

theorem sgGetProcessStats_sane {src : ProcessSource} (hfew : src.Few) {fuel : Nat}
    {w w' : World ProcessStats} {now now' : Option Ptr} (h : Sane w now) {a : Access}
    (hrun : sgGetProcessStats src fuel now w = .ok (some (a, now'), w')) : Sane w' now' := by
  obtain ⟨target, w1, htarget, h1, -, -⟩ := multiTarget_sane h
  cases target with
  | none =>
      rw [sgGetProcessStats, Prog.bind_of_ok htarget] at hrun
      cases hrun
      exact h1
  | some p =>
      obtain ⟨rc, w2, -, h3⟩ := read_of_sgGetProcessStats hfew h1 htarget hrun
      exact h3

/-! ### Whether a failed read is reported -/

/-- `sg_get_process_stats(NULL)` fails: there is no vector to read into, or the read leaves through one of
its error exits. The code of such an exit may still be `SG_ERROR_NONE`. -/
def ReadFails (src : ProcessSource) (fuel : Nat) (now : Option Ptr) (w : World ProcessStats) : Prop :=
  ∃ target w1, multiTarget ProcessStats.info now w = .ok (target, w1) ∧ ∀ p, target = some p →
    (∃ rc t, processPids src.toProcFs w1.toThread = .ok (.error rc, t)) ∨
    ∃ rc x w2, sgGetProcessStatsInt src fuel (some p) w1 = .ok (some (rc, x), w2) ∧ rc ≠ .none

/-- The call returns NULL if and only if its read fails, and a count that it returns is that of the items
that were read, each of them in one of the states. -/
def CountReports (src : ProcessSource) (fuel : Nat) (pcs : SgProcessCountSource) (glob : ProcessGlob)
    (w : ProcessWorld) : Prop :=
  ∃ q w1 result glob' w', countTarget glob.count w = .ok (some q, w1) ∧
    sgGetProcessCountOf src fuel pcs glob w = .ok (some (result, glob'), w') ∧
    (result = none ↔ ReadFails src fuel glob.stats w1.stats) ∧
    ∀ c, result = some c → c.total = (w'.stats.itemsAt glob'.stats).length ∧ c.total = c.sum

/-- The vectors of a thread between two calls. -/
structure ProcessGlob.Kept (glob : ProcessGlob) (w : ProcessWorld) : Prop where
  stats : Sane w.stats glob.stats
  count : ∀ q, glob.count = some q → ∃ v, w.counts.store q = some v ∧ v.slots ≠ 0

theorem countInt_vector {v : SgVector ProcessStats} (hwithin : v.usedCount ≤ v.slots)
    (hslots : v.slots ≠ 0) :
    sgGetProcessCountInt (.ofVector v) = some (.of (v.cells 0).systime (v.items.map ProcessStats.state)) := by
  rw [sgGetProcessCountInt_eq_some]
  refine ⟨(v.cells 0).systime, v.items.map ProcessStats.state, ?_, if_pos (Nat.pos_of_ne_zero hslots),
    ?_, rfl⟩
  · rw [List.length_map, items_length]
    rfl
  · intro k s hk
    have hlt := (List.getElem?_eq_some_iff.mp hk).1
    rw [List.length_map, items_length] at hlt
    rw [SgVector.items, List.map_map, List.getElem?_map, List.getElem?_range hlt] at hk
    rw [← hk]
    exact if_pos (by omega)

/-- `VECTOR_CREATE(sg_process_count, 1)`. -/
theorem countVector_run (w : World ProcessCount) :
    ∃ target w1, vectorCreate ProcessCount.info 1 w = .ok (target, w1) ∧
      (target = none ↔ w.mem 0 = false) ∧
      ∀ q, target = some q → ∃ v, w1.store q = some v ∧ v.slots ≠ 0 := by
  have hfit : Fits (max 1 0) 0 ProcessCount.info := ⟨by decide, by decide, by decide⟩
  have hshift : blockShiftOf 1 = some 0 := by decide
  rw [vectorCreate, sgVectorCreate, hshift]
  simp only
  cases hmem : w.mem 0 with
  | false =>
      obtain ⟨w1, hrun, -⟩ := sgVectorCreateInt_failed (w := w) hfit hmem
      exact ⟨none, w1, hrun, by simp, by simp⟩
  | true =>
      obtain ⟨w1, v, hrun, -, hv, hfor, -, -⟩ := sgVectorCreateInt_created (w := w) hfit hmem
      refine ⟨some w.next, w1, hrun, by simp, ?_⟩
      intro q hq
      cases hq
      refine ⟨v, hv, ?_⟩
      rw [hfor.slots]
      decide

theorem countTarget_kept {glob : ProcessGlob} {w w1 : ProcessWorld} (h : glob.Kept w) {q : Ptr}
    (hrun : countTarget glob.count w = .ok (some q, w1)) :
    Sane w1.stats glob.stats ∧ ∃ v, w1.counts.store q = some v ∧ v.slots ≠ 0 := by
  cases hcount : glob.count with
  | some q' =>
      rw [hcount] at hrun
      cases hrun
      exact ⟨h.stats, h.count q hcount⟩
  | none =>
      rw [hcount, countTarget, onCounts] at hrun
      obtain ⟨w2, hcreate, rfl⟩ := Prog.zoom_eq_ok.mp hrun
      obtain ⟨target, w3, hrun3, -, hvector⟩ :=
        countVector_run { w.counts with toThread := w.stats.toThread }
      rw [hcreate] at hrun3
      cases hrun3
      exact ⟨⟨h.stats.fresh, h.stats.bounded, h.stats.vector⟩, hvector q rfl⟩

def countOf (v : SgVector ProcessStats) : ProcessCount :=
  .of (v.cells 0).systime (v.items.map ProcessStats.state)

theorem countInto_some {w : ProcessWorld} {q : Ptr} {cv : SgVector ProcessCount}
    (hq : w.counts.store q = some cv) (hslots : cv.slots ≠ 0) {p : Ptr} {v : SgVector ProcessStats}
    (hv : w.stats.store p = some v) (hwithin : v.usedCount ≤ v.slots) (hne : v.slots ≠ 0) :
    ∃ w', countInto q (some p) w = .ok (some (countOf v), w') ∧ w'.stats.store = w.stats.store := by
  have hderef : onStats (deref p) w = .ok (v, w) := Prog.zoom_of_ok (deref_run hv)
  have hslot := @onSlot_run ProcessCount Unit { w.counts with toThread := w.stats.toThread } q cv 0
    (fun _ => return ((), countOf v)) () _ _ hq (fun _ => by omega) rfl
  have hstore : ∃ w', onCounts (onSlot q 0 fun _ => return ((), countOf v)) w = .ok ((), w') ∧
      w'.stats.store = w.stats.store := ⟨_, Prog.zoom_of_ok hslot, rfl⟩
  obtain ⟨w', hstore, hsame⟩ := hstore
  refine ⟨w', ?_, hsame⟩
  rw [countInto, Prog.bind_of_ok hderef, countInt_vector hwithin hne]
  simp only
  rw [← countOf, Prog.bind_of_ok hstore]
  rfl

/-- The end of the call: there is a count if there is a vector. -/
theorem countInto_run {w : ProcessWorld} {q : Ptr} {cv : SgVector ProcessCount}
    (hq : w.counts.store q = some cv) (hslots : cv.slots ≠ 0) {x : Option Ptr} (h : Sane w.stats x) :
    ∃ result w', countInto q x w = .ok (result, w') ∧ w'.stats.store = w.stats.store ∧
      (result = none ↔ x = none) ∧
      ∀ c, result = some c → ∃ systime, c = .of systime ((w.stats.itemsAt x).map ProcessStats.state) := by
  cases x with
  | none => exact ⟨none, w, rfl, rfl, by simp, by simp⟩
  | some p =>
      obtain ⟨v, hv, hroomy, hne⟩ := h.vector p rfl
      obtain ⟨w', hrun, hsame⟩ := countInto_some hq hslots hv hroomy.within hne
      refine ⟨some (countOf v), w', hrun, hsame, by simp, ?_⟩
      rintro c' ⟨⟩
      rw [itemsAt_some hv]
      exact ⟨_, rfl⟩

/-- The call reads the processes: all of them are asked for, or none were read before. -/
def Rereads (pcs : SgProcessCountSource) (stats : Option Ptr) : Prop :=
  pcs = .entire ∨ pcs = .last ∧ stats = none

theorem itemsAt_congr {w w' : World ProcessStats} (h : w'.store = w.store) (x : Option Ptr) :
    w'.itemsAt x = w.itemsAt x := by
  rw [World.itemsAt, World.itemsAt, h]

section

variable {src : ProcessSource} {fuel : Nat} {pcs : SgProcessCountSource} {glob : ProcessGlob}
  {w w1 : ProcessWorld} {q : Ptr} {a : Access} {now : Option Ptr} {w2 : World ProcessStats}

theorem sgGetProcessCountOf_entire (hpcs : Rereads pcs glob.stats)
    (hreach : countTarget glob.count w = .ok (some q, w1)) :
    sgGetProcessCountOf src fuel pcs glob w = countEntire src fuel q glob.stats w1 := by
  rw [sgGetProcessCountOf, Prog.bind_of_ok hreach]
  rcases hpcs with rfl | ⟨rfl, hnone⟩
  · rfl
  · rw [hnone]

theorem sgGetProcessCountOf_run (hpcs : Rereads pcs glob.stats) (hkept : glob.Kept w) (hfew : src.Few)
    (hreach : countTarget glob.count w = .ok (some q, w1))
    (hread : sgGetProcessStats src fuel glob.stats w1.stats = .ok (some (a, now), w2)) :
    ∃ result w', sgGetProcessCountOf src fuel pcs glob w = .ok (some (result, ⟨now, some q⟩), w') ∧
      w'.stats.store = w2.store ∧ (result = none ↔ now = none) ∧
      ∀ c, result = some c → ∃ systime, c = .of systime ((w2.itemsAt now).map ProcessStats.state) := by
  obtain ⟨hsane, cv, hq, hslots⟩ := countTarget_kept hkept hreach
  have hsane2 := sgGetProcessStats_sane hfew hsane hread
  have honStats : onStats (sgGetProcessStats src fuel glob.stats) w1
      = .ok (some (a, now), { w1 with stats := w2 }) := Prog.zoom_of_ok hread
  obtain ⟨result, w', hcount, hstore, hnull, hstates⟩ :=
    @countInto_run { w1 with stats := w2 } q cv hq hslots now hsane2
  refine ⟨result, w', ?_, hstore, hnull, hstates⟩
  rw [sgGetProcessCountOf_entire hpcs hreach, countEntire, Prog.bind_of_ok honStats]
  simp only
  rw [Prog.bind_of_ok hcount]
  rfl

theorem read_of_sgGetProcessCountOf (hpcs : Rereads pcs glob.stats)
    (hreach : countTarget glob.count w = .ok (some q, w1))
    {r : Option ProcessCount × ProcessGlob} {w' : ProcessWorld}
    (hrun : sgGetProcessCountOf src fuel pcs glob w = .ok (some r, w')) :
    ∃ a now w2, sgGetProcessStats src fuel glob.stats w1.stats = .ok (some (a, now), w2) := by
  rw [sgGetProcessCountOf_entire hpcs hreach, countEntire] at hrun
  obtain ⟨read, w2, hread, hrest⟩ := Prog.bind_eq_ok.mp hrun
  obtain ⟨w3, hread, -⟩ := Prog.zoom_eq_ok.mp hread
  cases read with
  | none => cases hrest
  | some read => exact ⟨read.1, read.2, w3, hread⟩

theorem CountReports.reads (hpcs : Rereads pcs glob.stats)
    (hreach : countTarget glob.count w = .ok (some q, w1)) (h : CountReports src fuel pcs glob w) :
    ∃ a now w2, sgGetProcessStats src fuel glob.stats w1.stats = .ok (some (a, now), w2) := by
  obtain ⟨q', w1', result, glob', w', hreach', hrun, -⟩ := h
  rw [hreach] at hreach'
  cases hreach'
  exact read_of_sgGetProcessCountOf hpcs hreach hrun

/-- The call reports what the read came to if and only if the read leaves no vector just where it fails, and
every item it leaves has a state. -/
theorem countReports_of_read (hpcs : Rereads pcs glob.stats) (hkept : glob.Kept w) (hfew : src.Few)
    (hreach : countTarget glob.count w = .ok (some q, w1))
    (hread : sgGetProcessStats src fuel glob.stats w1.stats = .ok (some (a, now), w2)) :
    CountReports src fuel pcs glob w ↔
      (now = none ↔ ReadFails src fuel glob.stats w1.stats) ∧
        ∀ item ∈ w2.itemsAt now, item.state.valid = true := by
  obtain ⟨result, w', hrun, hstore, hnull, hstates⟩ :=
    sgGetProcessCountOf_run hpcs hkept hfew hreach hread
  have hitems : w'.stats.itemsAt now = w2.itemsAt now := itemsAt_congr hstore now
  have hvalid : ∀ c, result = some c →
      (c.total = (w'.stats.itemsAt now).length ∧ c.total = c.sum ↔
        ∀ item ∈ w2.itemsAt now, item.state.valid = true) := by
    intro c hc
    obtain ⟨systime, rfl⟩ := hstates c hc
    have hsum := sum_of_eq_length_iff systime ((w2.itemsAt now).map ProcessStats.state)
    rw [List.forall_mem_map] at hsum
    rw [← hsum, hitems]
    constructor
    · intro h
      exact h.2
    · intro h
      exact ⟨List.length_map _, h⟩
  constructor
  · rintro ⟨q', w1', result', glob', w'', hreach', hrun', hfails, hcount⟩
    rw [hreach] at hreach'
    cases hreach'
    rw [hrun] at hrun'
    cases hrun'
    refine ⟨hnull.symm.trans hfails, ?_⟩
    cases hresult : result with
    | none =>
        rw [hnull.mp hresult]
        simp
    | some c => exact (hvalid c hresult).mp (hcount c hresult)
  · rintro ⟨hfails, hstate⟩
    exact ⟨q, w1, result, _, w', hreach, hrun, hnull.trans hfails,
      fun c hc => (hvalid c hc).mpr hstate⟩

/-- The read comes to its loop with these pids, and the thread is `t` there. -/
def ListsPids (src : ProcessSource) (now : Option Ptr) (w : World ProcessStats) (pids : List Int)
    (t : Thread) : Prop :=
  ∃ p w1 uptime chain, multiTarget ProcessStats.info now w = .ok (some p, w1) ∧
    processPids src.toProcFs w1.toThread = .ok (.ok (uptime, chain), t) ∧ (pagesOf chain).flatten = pids

/-- The read can go on: memory is not refused from here on, the rounds are enough, and there is a line in
every `/proc/PID/comm` that can be opened. -/
structure GoesOn (src : ProcessSource) (fuel : Nat) (pids : List Int) (t : Thread) : Prop where
  plenty : t.Plenty
  fuel : 2 * pids.length + 1 ≤ fuel
  comm : ∀ pid ∈ pids, CommLine src pid

theorem stateOf_valid (s : UInt8) : (stateOf s).valid = true := by
  rw [stateOf]
  repeat' split
  all_goals rfl

/-- The items that the pids have added: each is in a state, and there are none if no pid is listed. -/
theorem adds_states {uptime : Int} {pids : List Int} {parts : List (List ProcessStats)}
    (h : List.Forall₂ (Adds src uptime) pids parts) :
    (∀ item ∈ parts.flatten, item.state.valid = true) ∧
      (parts.flatten ≠ [] ↔ ∃ pid ∈ pids, Listed src pid = true) := by
  induction h with
  | nil => simp
  | @cons pid new pids parts hadds _ ih =>
      obtain ⟨hvalid, hsome⟩ := ih
      rw [Adds] at hadds
      cases hfiles : listing (src.files pid) with
      | none =>
          rw [hfiles] at hadds
          obtain rfl : new = [] := hadds
          have hnot : Listed src pid = false := by
            rw [Listed, hfiles]
            rfl
          rw [List.flatten_cons, List.nil_append]
          refine ⟨hvalid, hsome.trans ?_⟩
          simp [hnot]
      | some l =>
          rw [hfiles] at hadds
          obtain ⟨old, -, rfl⟩ := hadds
          have hlisted : Listed src pid = true := by
            rw [Listed, hfiles]
            rfl
          rw [List.flatten_cons, List.singleton_append]
          refine ⟨?_, by simp [hlisted]⟩
          intro item hitem
          rcases List.mem_cons.mp hitem with rfl | hitem
          · exact stateOf_valid (byteAt l.values 1)
          · exact hvalid item hitem

theorem Stocked.eq_none_iff {w : World ProcessStats} {x : Option Ptr} (h : Stocked w x) :
    x = none ↔ w.itemsAt x = [] := by
  cases x with
  | none => exact ⟨fun _ => rfl, fun _ => rfl⟩
  | some p =>
      obtain ⟨v, hv, -, -⟩ := h.vector p rfl
      have hused := h.used p v rfl hv
      rw [itemsAt_some hv, ← List.length_eq_zero_iff, items_length]
      simp [hused]

theorem listsPids_iff {now : Option Ptr} {w w1 : World ProcessStats} {p : Ptr}
    (htarget : multiTarget ProcessStats.info now w = .ok (some p, w1)) {pids : List Int} {t : Thread} :
    ListsPids src now w pids t ↔ ∃ uptime chain,
      processPids src.toProcFs w1.toThread = .ok (.ok (uptime, chain), t) ∧
        (pagesOf chain).flatten = pids := by
  constructor
  · rintro ⟨p', w1', uptime, chain, htarget', hpids, hflat⟩
    rw [htarget] at htarget'
    cases htarget'
    exact ⟨uptime, chain, hpids, hflat⟩
  · rintro ⟨uptime, chain, hpids, hflat⟩
    exact ⟨p, w1, uptime, chain, htarget, hpids, hflat⟩

/-- Where the pids cannot be listed, the vector is left as it was cleared, and is counted. -/
theorem not_countReports_of_unlisted (hpcs : Rereads pcs glob.stats) (hkept : glob.Kept w)
    (hfew : src.Few) (hreach : countTarget glob.count w = .ok (some q, w1)) {p : Ptr}
    {w2 : World ProcessStats}
    (htarget : multiTarget ProcessStats.info glob.stats w1.stats = .ok (some p, w2))
    (hsane : Sane w2 (some p)) (hunlisted : ∀ pids t, ¬ ListsPids src glob.stats w1.stats pids t) :
    ¬ CountReports src fuel pcs glob w := by
  intro h
  obtain ⟨a, now, w3, hread⟩ := h.reads hpcs hreach
  obtain ⟨rc, w4, hint, -⟩ := read_of_sgGetProcessStats hfew hsane htarget hread
  obtain ⟨pids, w5, hpids, hrest⟩ := Prog.bind_eq_ok.mp hint
  obtain ⟨t, hthread, rfl⟩ := Prog.zoom_eq_ok.mp hpids
  cases pids with
  | ok read => exact hunlisted _ t ((listsPids_iff htarget).mpr ⟨read.1, read.2, hthread, rfl⟩)
  | error code =>
      cases hrest
      have hfails : ReadFails src fuel glob.stats w1.stats := by
        refine ⟨some p, w2, htarget, ?_⟩
        intro p' hp'
        cases hp'
        exact .inl ⟨rc, t, hthread⟩
      have hnull := ((countReports_of_read hpcs hkept hfew hreach hread).mp h).1.mpr hfails
      cases hnull

/-- Where they can be, the call reports what the read came to if and only if one of them is listed. -/
theorem countReports_of_listed (hpcs : Rereads pcs glob.stats) (hkept : glob.Kept w) (hfew : src.Few)
    (hreach : countTarget glob.count w = .ok (some q, w1)) {p : Ptr} {w2 : World ProcessStats}
    (htarget : multiTarget ProcessStats.info glob.stats w1.stats = .ok (some p, w2))
    (hsane : Sane w2 (some p)) {v : SgVector ProcessStats} (hv : w2.store p = some v) (hroomy : Roomy v)
    (hused : v.usedCount = 0) {uptime : Int} {chain : PidChain} {t : Thread}
    (hpids : processPids src.toProcFs w2.toThread = .ok (.ok (uptime, chain), t))
    (hgo : GoesOn src fuel (pagesOf chain).flatten t) :
    CountReports src fuel pcs glob w ↔ ∃ pid ∈ (pagesOf chain).flatten, Listed src pid = true := by
  obtain ⟨entries, hdir, hlists⟩ := processPids_lists hpids
  have hlen : (pagesOf chain).flatten.length ≤ itemLimit := by
    rw [hlists.pids]
    exact hfew entries hdir
  obtain ⟨vector, w3, parts, hint, hparts, hitems⟩ := sgGetProcessStatsInt_listed
    ⟨rfl, hlists.filled⟩ hlen hgo.comm hpids ⟨hsane.fresh, hsane.bounded, hgo.plenty⟩ hv hroomy hused
    hgo.fuel
  obtain ⟨a, w4, hread, hstore, -⟩ := sgGetProcessStats_eq hfew hsane htarget hint
  have hstocked := (sgGetProcessStatsInt_sane hfew hsane hint).2 uptime chain t hpids
  obtain ⟨hvalid, hsome⟩ := adds_states hparts
  have hsucceeds : ¬ ReadFails src fuel glob.stats w1.stats := by
    rintro ⟨target', w2', htarget', hfails⟩
    rw [htarget] at htarget'
    cases htarget'
    rcases hfails p rfl with ⟨rc, t', herror⟩ | ⟨rc, x, w3', hint', hne⟩
    · rw [hpids] at herror
      cases herror
    · rw [hint] at hint'
      cases hint'
      exact hne rfl
  rw [countReports_of_read hpcs hkept hfew hreach hread, itemsAt_congr hstore, hitems, ← hsome,
    hstocked.eq_none_iff, hitems]
  constructor
  · intro h hnil
    exact hsucceeds (h.1.mp hnil)
  · intro hne
    exact ⟨⟨fun hnil => absurd hnil hne, fun hfails => absurd hfails hsucceeds⟩, hvalid⟩

/-- With enough memory behind the pids, the call reports what the read came to if and only if the first
vector of the thread is refused, or one of the pids is listed. -/
theorem countReports_of_goesOn (hpcs : Rereads pcs glob.stats) (hkept : glob.Kept w) (hfew : src.Few)
    (hreach : countTarget glob.count w = .ok (some q, w1))
    (hgo : ∀ pids t, ListsPids src glob.stats w1.stats pids t → GoesOn src fuel pids t) :
    CountReports src fuel pcs glob w ↔
      (glob.stats = none ∧ w1.stats.mem 0 = false) ∨
        ∃ pids t, ListsPids src glob.stats w1.stats pids t ∧ ∃ pid ∈ pids, Listed src pid = true := by
  obtain ⟨hstats, -⟩ := countTarget_kept hkept hreach
  obtain ⟨target, w2, htarget, hsane, hnull, hempty⟩ := multiTarget_sane hstats
  cases target with
  | none =>
      have hread : sgGetProcessStats src fuel glob.stats w1.stats
          = .ok (some (.failed none, none), w2) := by
        rw [sgGetProcessStats, Prog.bind_of_ok htarget]
        rfl
      have hfails : ReadFails src fuel glob.stats w1.stats := ⟨none, w2, htarget, by simp⟩
      rw [countReports_of_read hpcs hkept hfew hreach hread]
      refine iff_of_true ⟨⟨fun _ => hfails, fun _ => rfl⟩, ?_⟩ (.inl (hnull.mp rfl))
      intro item hitem
      cases hitem
  | some p =>
      obtain ⟨v, hv, hroomy, hused⟩ := hempty p rfl
      have hmade : ¬ (glob.stats = none ∧ w1.stats.mem 0 = false) := by
        rw [← hnull]
        simp
      by_cases hlisted : ∃ pids t, ListsPids src glob.stats w1.stats pids t
      · obtain ⟨pids, t, hlists⟩ := hlisted
        obtain ⟨uptime, chain, hpids, rfl⟩ := (listsPids_iff htarget).mp hlists
        rw [countReports_of_listed hpcs hkept hfew hreach htarget hsane hv hroomy hused hpids
          (hgo _ t hlists)]
        constructor
        · intro h
          exact .inr ⟨_, t, hlists, h⟩
        · rintro (h | ⟨pids', t', hlists', h⟩)
          · exact absurd h hmade
          · obtain ⟨uptime', chain', hpids', rfl⟩ := (listsPids_iff htarget).mp hlists'
            rw [hpids] at hpids'
            cases hpids'
            exact h
      · have hunlisted : ∀ pids t, ¬ ListsPids src glob.stats w1.stats pids t :=
          fun pids t h => hlisted ⟨pids, t, h⟩
        apply iff_of_false (not_countReports_of_unlisted hpcs hkept hfew hreach htarget hsane hunlisted)
        rintro (h | ⟨pids, t, hlists, -⟩)
        · exact hmade h
        · exact hunlisted pids t hlists

end

/-- `sg_get_process_count_of` reports what its read came to if and only if the read leaves no vector just
where it fails, and no item without a state. With enough memory behind the pids this is so if and only if
the first vector of the thread is refused, or one of the pids is listed. -/
theorem countReports_iff (src : ProcessSource) (fuel : Nat) (pcs : SgProcessCountSource)
    (glob : ProcessGlob) (w w1 : ProcessWorld) (q : Ptr) (hpcs : Rereads pcs glob.stats)
    (hkept : glob.Kept w) (hfew : src.Few) (hreach : countTarget glob.count w = .ok (some q, w1)) :
    (CountReports src fuel pcs glob w ↔ ∃ a now w2,
      sgGetProcessStats src fuel glob.stats w1.stats = .ok (some (a, now), w2) ∧
        (now = none ↔ ReadFails src fuel glob.stats w1.stats) ∧
        ∀ item ∈ w2.itemsAt now, item.state.valid = true) ∧
    ((∀ pids t, ListsPids src glob.stats w1.stats pids t → GoesOn src fuel pids t) →
      (CountReports src fuel pcs glob w ↔
        (glob.stats = none ∧ w1.stats.mem 0 = false) ∨
          ∃ pids t, ListsPids src glob.stats w1.stats pids t ∧ ∃ pid ∈ pids, Listed src pid = true)) := by
  refine ⟨⟨?_, ?_⟩, countReports_of_goesOn hpcs hkept hfew hreach⟩
  · intro h
    obtain ⟨a, now, w2, hread⟩ := h.reads hpcs hreach
    exact ⟨a, now, w2, hread, (countReports_of_read hpcs hkept hfew hreach hread).mp h⟩
  · rintro ⟨a, now, w2, hread, h⟩
    exact (countReports_of_read hpcs hkept hfew hreach hread).mpr h

def beforeCount : ProcessWorld :=
  ⟨beforeRead, (emptyWorld ProcessCount).place ⟨1, 1, 0, ProcessCount.info, 1, fun _ => default⟩⟩

theorem beforeCount_kept : (ProcessGlob.mk (some 0) (some 0)).Kept beforeCount := by
  refine ⟨⟨beforeRead_ready.fresh, rfl, ?_⟩, ?_⟩
  · intro p hp
    cases hp
    exact ⟨noProcesses, rfl, ⟨rfl, by decide, by decide, by decide⟩, by decide⟩
  · intro q hq
    cases hq
    exact ⟨_, rfl, by decide⟩

theorem countReports_announcing :
    CountReports (.announcing "voluntary_ctxt_switches:\t7\n") 5 .entire ⟨some 0, some 0⟩ beforeCount := by
  have htarget : multiTarget ProcessStats.info (some 0) beforeRead
      = .ok (some 0, beforeRead.shrink 0 noProcesses 0) := rfl
  obtain ⟨chain, t, hpids, hplenty, hlists⟩ :=
    @processPids_run (ProcessSource.announcing "voluntary_ctxt_switches:\t7\n").toProcFs 1 rfl
      [some 1, some 2] rfl (beforeRead.shrink 0 noProcesses 0).toThread (fun _ => rfl)
  have hflat : (pagesOf chain).flatten = [1, 2] := hlists.pids
  have hfew : (ProcessSource.announcing "voluntary_ctxt_switches:\t7\n").Few := by
    rintro entries ⟨⟩
    decide
  apply ((countReports_iff _ 5 .entire _ beforeCount beforeCount 0 (.inl rfl) beforeCount_kept hfew rfl).2
    ?_).mpr
  · exact .inr ⟨[1, 2], t, (listsPids_iff htarget).mpr ⟨1, chain, hpids, hflat⟩, 2, by simp,
      by decide +kernel⟩
  · intro pids t' h
    obtain ⟨uptime, chain', hpids', rfl⟩ := (listsPids_iff htarget).mp h
    rw [hpids] at hpids'
    cases hpids'
    rw [hflat]
    exact ⟨hplenty, by decide, (scanned_announcing (by simp)).comm⟩

/-- `/proc/uptime` cannot be opened, and a count of no processes is returned. -/
theorem not_countReports_uptime :
    ReadFails { ProcessSource.idle with uptime := .error 2 } 1 (some 0) beforeRead ∧
      (sgGetProcessCountOf { ProcessSource.idle with uptime := .error 2 } 1 .entire ⟨some 0, some 0⟩
        beforeCount).toOption.bind (fun r => r.1.bind Prod.fst) = some ⟨0, 0, 0, 0, 0, 0, 0⟩ ∧
      ¬ CountReports { ProcessSource.idle with uptime := .error 2 } 1 .entire ⟨some 0, some 0⟩
        beforeCount := by
  have htarget : multiTarget ProcessStats.info (some 0) beforeRead
      = .ok (some 0, beforeRead.shrink 0 noProcesses 0) := rfl
  have hfails : ReadFails { ProcessSource.idle with uptime := .error 2 } 1 (some 0) beforeRead := by
    refine ⟨some 0, _, htarget, ?_⟩
    intro p hp
    exact .inl ⟨_, _, rfl⟩
  refine ⟨hfails, by decide +kernel, ?_⟩
  rintro ⟨q, w1, result, glob', w', hreach, hrun, hnull, -⟩
  cases hreach
  cases hnull.mpr hfails
  have hcount : (sgGetProcessCountOf { ProcessSource.idle with uptime := .error 2 } 1 .entire
      ⟨some 0, some 0⟩ beforeCount).toOption.bind (fun r => r.1.bind Prod.fst) ≠ none := by
    decide +kernel
  rw [hrun] at hcount
  exact hcount rfl

end Statgrab.Process
