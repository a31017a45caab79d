import Mathlib.Algebra.GroupWithZero.Nat
import Mathlib.Data.List.Basic
import Statgrab.Tools

/-!
# `swap_stats.c` on Solaris

`swapctl` first tells how many swap areas there are and then lists them in a table with that many slots;
where more of them turn up in between, both calls are made again. The loop over the slots stores the
pages of each area where those of the one before have been stored, so what is left are the pages of the
last slot.
-/

namespace Statgrab

structure SwapStats where
  total : UInt64
  used : UInt64
  free : UInt64
  systime : Int
  deriving DecidableEq

/-- The fields of `struct swapent` that are read: `long`s, as they are once they are stored. -/
structure Swapent where
  pages : UInt64
  free : UInt64
  deriving DecidableEq

/-- What `swapctl` answers in one round: the number of areas, and the areas it lists. -/
structure SwapRound where
  getnswp : Except Int Nat
  list : Except Int (List Swapent)

/-- `PATH_MAX + 1`. -/
def swapPathSize : Nat := 1025

/-- `sizeof(struct swapent)`. A `struct swaptable` has a header of 8 bytes and one entry. -/
def swapentSize : Nat := 48

/-- The slots of the table after `SC_LIST`. They were zeroed before. -/
def swapSlots (nswap : Nat) (entries : List Swapent) : List Swapent :=
  entries ++ List.replicate (nswap - entries.length) ⟨0, 0⟩

def readSwapSlots (slots : List Swapent) (buf : SwapStats) : SwapStats :=
  slots.foldl (fun buf entry => { buf with total := entry.pages, free := entry.free }) buf

def scaleSwap (sysPageSize : UInt64) (buf : SwapStats) : SwapStats :=
  let total := buf.total * sysPageSize
  let free := buf.free * sysPageSize
  { buf with total := total, free := free, used := total - free }

/-- The label `again`, with the rounds to come, up to the time that is set at the end. There is no result where
the rounds are used up before one is reached. -/
def readSwapTable (sysPageSize : UInt64) :
    List SwapRound → SwapStats → ThreadM (Option (SgError × SwapStats))
  | [], _ => return none
  | round :: rounds, buf =>
      match round.getnswp with
      | .error errno => do
          let rc ← returnWithSetError .swapctl errno ""
          return some (rc, buf)
      | .ok nswap =>
          if nswap = 0 then return some (.none, buf)
          else do
            let ok ← sgRealloc (nswap * swapPathSize + 1)
            if ok then
              let ok ← sgRealloc (8 + swapentSize + nswap * swapentSize)
              if ok then
                match round.list with
                | .error errno =>
                    let rc ← returnWithSetError .swapctl errno ""
                    return some (rc, buf)
                | .ok entries =>
                    if nswap < entries.length then readSwapTable sysPageSize rounds buf
                    else return some (.none, scaleSwap sysPageSize
                      (readSwapSlots (swapSlots nswap entries) buf))
              else
                let rc ← returnFromPreviousError
                return some (rc, buf)
            else
              let rc ← returnFromPreviousError
              return some (rc, buf)

/-- The three sums zeroed, as the function begins. -/
def SwapStats.zeroed (buf : SwapStats) : SwapStats := { buf with total := 0, used := 0, free := 0 }

/-- `sg_get_swap_stats_int`, with the rounds of `swapctl` to come and the time. -/
def sgGetSwapStatsInt (sysPageSize : UInt64) (now : Int) (rounds : List SwapRound) (buf : SwapStats) :
    ThreadM (Option (SgError × SwapStats)) := do
  let read ← readSwapTable sysPageSize rounds buf.zeroed
  match read with
  | some (.none, buf) => return some (.none, { buf with systime := now })
  | read => return read

/-! ### What is reported -/

/-- The areas turned out to be more than the table has slots. -/
def SwapRound.Overtaken (round : SwapRound) : Prop :=
  ∃ nswap entries, round.getnswp = .ok nswap ∧ nswap ≠ 0 ∧ round.list = .ok entries ∧ nswap < entries.length

/-- The areas fit into the table. -/
def SwapRound.Lists (round : SwapRound) (nswap : Nat) (entries : List Swapent) : Prop :=
  round.getnswp = .ok nswap ∧ round.list = .ok entries ∧ entries.length ≤ nswap

def totalPages (entries : List Swapent) : Nat := (entries.map fun e => e.pages.toNat).sum

def freePages (entries : List Swapent) : Nat := (entries.map fun e => e.free.toNat).sum

/-- The statistics are those of all areas together. -/
structure SumsSwap (sysPageSize : UInt64) (entries : List Swapent) (buf : SwapStats) : Prop where
  total : buf.total.toNat = sysPageSize.toNat * totalPages entries
  free : buf.free.toNat = sysPageSize.toNat * freePages entries
  used : buf.used = buf.total - buf.free

theorem readSwapSlots_last (slots : List Swapent) (last : Swapent) (buf : SwapStats) :
    readSwapSlots (slots ++ [last]) buf = { buf with total := last.pages, free := last.free } := by
  have hsame : (readSwapSlots slots buf).used = buf.used ∧ (readSwapSlots slots buf).systime = buf.systime := by
    rw [readSwapSlots]
    induction slots generalizing buf with
    | nil => exact ⟨rfl, rfl⟩
    | cons slot slots ih => exact ih _
  rw [readSwapSlots, List.foldl_append, List.foldl_cons, List.foldl_nil]
  rw [readSwapSlots] at hsame
  simp only [hsame.1, hsame.2]

theorem swapSlots_split {nswap : Nat} {entries : List Swapent} (hlen : entries.length ≤ nswap)
    (hpos : nswap ≠ 0) :
    ∃ front last, swapSlots nswap entries = front ++ [last] ∧
      totalPages entries = totalPages (entries.take (nswap - 1)) + last.pages.toNat ∧
      freePages entries = freePages (entries.take (nswap - 1)) + last.free.toNat := by
  by_cases hfull : entries.length = nswap
  · have hne : entries ≠ [] := by
      rintro rfl
      exact hpos hfull.symm
    have hinit : entries.take (nswap - 1) = entries.dropLast := by
      rw [List.dropLast_eq_take, hfull]
    have hsplit := List.dropLast_append_getLast hne
    refine ⟨entries.dropLast, entries.getLast hne, ?_, ?_, ?_⟩
    · rw [swapSlots, hfull, Nat.sub_self, List.replicate_zero, List.append_nil, hsplit]
    · rw [hinit, totalPages, totalPages]
      conv_lhs => rw [← hsplit]
      simp
    · rw [hinit, freePages, freePages]
      conv_lhs => rw [← hsplit]
      simp
  · have hall : entries.take (nswap - 1) = entries := List.take_of_length_le (by omega)
    obtain ⟨k, hk⟩ : ∃ k, nswap - entries.length = k + 1 := ⟨nswap - entries.length - 1, by omega⟩
    refine ⟨entries ++ List.replicate k ⟨0, 0⟩, ⟨0, 0⟩, ?_, ?_, ?_⟩
    · rw [swapSlots, hk, List.replicate_succ', List.append_assoc]
    · rw [hall]
      rfl
    · rw [hall]
      rfl

/-- A sum is its last term if and only if the others are zero, also in multiples of a page. -/
theorem scaled_last_iff {sysPageSize last : UInt64} {others : Nat} (hpage : 0 < sysPageSize.toNat)
    (hfit : sysPageSize.toNat * (others + last.toNat) < 2 ^ 64) :
    (last * sysPageSize).toNat = sysPageSize.toNat * (others + last.toNat) ↔ others = 0 := by
  have hle : last.toNat * sysPageSize.toNat < 2 ^ 64 := by
    rw [Nat.mul_comm]
    exact Nat.lt_of_le_of_lt (Nat.mul_le_mul_left _ (Nat.le_add_left _ _)) hfit
  rw [UInt64.toNat_mul, Nat.mod_eq_of_lt hle, Nat.mul_comm, Nat.mul_left_cancel_iff hpage]
  omega

theorem pages_zero_iff (entries : List Swapent) :
    totalPages entries = 0 ∧ freePages entries = 0 ↔ ∀ e ∈ entries, e.pages = 0 ∧ e.free = 0 := by
  have hzero : ∀ x : UInt64, x.toNat = 0 ↔ x = 0 := fun x => @UInt64.toNat_inj x 0
  rw [totalPages, freePages, List.sum_eq_zero_iff_forall_eq_nat, List.sum_eq_zero_iff_forall_eq_nat]
  simp only [List.mem_map, forall_exists_index, and_imp, forall_apply_eq_imp_iff₂, hzero]
  exact ⟨fun h e he => ⟨h.1 e he, h.2 e he⟩, fun h => ⟨fun e he => (h e he).1, fun e he => (h e he).2⟩⟩

section Read

variable {sysPageSize : UInt64} {round : SwapRound} {t : Thread}

theorem readSwapTable_overtaken (hplenty : t.Plenty) (hround : round.Overtaken) (rounds : List SwapRound)
    (buf : SwapStats) :
    ∃ t' : Thread, t'.Plenty ∧
      readSwapTable sysPageSize (round :: rounds) buf t = readSwapTable sysPageSize rounds buf t' := by
  obtain ⟨nswap, entries, hnswap, hpos, hlist, hlt⟩ := hround
  refine ⟨t.answered.answered, hplenty.answered.answered, ?_⟩
  rw [readSwapTable, hnswap]
  simp only [hpos, if_false]
  rw [Prog.bind_of_ok (sgRealloc_of_mem (by omega) (hplenty 0)), if_pos rfl,
    Prog.bind_of_ok (sgRealloc_of_mem (by omega) (hplenty.answered 0)), if_pos rfl, hlist]
  simp only [hlt, if_true]

theorem readSwapTable_lists (hplenty : t.Plenty) {nswap : Nat} {entries : List Swapent}
    (hround : round.Lists nswap entries) (buf : SwapStats) :
    ∃ t', readSwapTable sysPageSize [round] buf.zeroed t
      = .ok (some (.none, scaleSwap sysPageSize (readSwapSlots (swapSlots nswap entries) buf.zeroed)), t') := by
  obtain ⟨hnswap, hlist, hle⟩ := hround
  by_cases hzero : nswap = 0
  · have hnil : entries = [] := List.length_eq_zero_iff.mp (by omega)
    refine ⟨t, ?_⟩
    rw [readSwapTable, hnswap, hzero, hnil]
    simp [scaleSwap, readSwapSlots, swapSlots, SwapStats.zeroed]
  · refine ⟨t.answered.answered, ?_⟩
    rw [readSwapTable, hnswap]
    simp only [hzero, if_false]
    rw [Prog.bind_of_ok (sgRealloc_of_mem (by omega) (hplenty 0)), if_pos rfl,
      Prog.bind_of_ok (sgRealloc_of_mem (by omega) (hplenty.answered 0)), if_pos rfl, hlist]
    simp only [Nat.not_lt.mpr hle, if_false]
    rfl

theorem readSwapTable_run (hplenty : t.Plenty) {before : List SwapRound}
    (hbefore : ∀ r ∈ before, r.Overtaken) {nswap : Nat} {entries : List Swapent}
    (hround : round.Lists nswap entries) (buf : SwapStats) :
    ∃ t', readSwapTable sysPageSize (before ++ [round]) buf.zeroed t
      = .ok (some (.none, scaleSwap sysPageSize (readSwapSlots (swapSlots nswap entries) buf.zeroed)), t') := by
  induction before generalizing t with
  | nil => exact readSwapTable_lists hplenty hround buf
  | cons r before ih =>
      obtain ⟨t1, ht1, hrun⟩ := @readSwapTable_overtaken sysPageSize r t hplenty
        (hbefore r List.mem_cons_self) (before ++ [round]) buf.zeroed
      rw [List.cons_append, hrun]
      exact ih ht1 fun r' hr' => hbefore r' (List.mem_cons_of_mem _ hr')

/-- With memory the read ends in the first round in which the areas fit. -/
theorem sgGetSwapStatsInt_run (hplenty : t.Plenty) (now : Int) {before : List SwapRound}
    (hbefore : ∀ r ∈ before, r.Overtaken) {nswap : Nat} {entries : List Swapent}
    (hround : round.Lists nswap entries) (buf : SwapStats) :
    ∃ t', sgGetSwapStatsInt sysPageSize now (before ++ [round]) buf t
      = .ok (some (.none, { scaleSwap sysPageSize (readSwapSlots (swapSlots nswap entries) buf.zeroed) with
          systime := now }), t') := by
  obtain ⟨t', hrun⟩ := readSwapTable_run hplenty hbefore hround buf
  refine ⟨t', ?_⟩
  rw [sgGetSwapStatsInt, Prog.bind_of_ok hrun]
  rfl

/-- What is left is the sum if and only if only the last slot has pages. -/
theorem scaleSwap_sums_iff (hpage : 0 < sysPageSize.toNat) {nswap : Nat} {entries : List Swapent}
    (hlen : entries.length ≤ nswap) (htotal : sysPageSize.toNat * totalPages entries < 2 ^ 64)
    (hfree : sysPageSize.toNat * freePages entries < 2 ^ 64) (buf : SwapStats) (now : Int) :
    SumsSwap sysPageSize entries
        { scaleSwap sysPageSize (readSwapSlots (swapSlots nswap entries) buf.zeroed) with systime := now } ↔
      ∀ e ∈ entries.take (nswap - 1), e.pages = 0 ∧ e.free = 0 := by
  rw [← pages_zero_iff]
  by_cases hpos : nswap = 0
  · have hnil : entries = [] := List.length_eq_zero_iff.mp (by omega)
    subst hnil hpos
    refine iff_of_true ⟨?_, ?_, rfl⟩ ⟨rfl, rfl⟩
    · simp [scaleSwap, readSwapSlots, swapSlots, totalPages, SwapStats.zeroed]
    · simp [scaleSwap, readSwapSlots, swapSlots, freePages, SwapStats.zeroed]
  · obtain ⟨front, last, hslots, hpages, hfrees⟩ := swapSlots_split hlen hpos
    rw [hpages] at htotal
    rw [hfrees] at hfree
    rw [hslots, readSwapSlots_last, ← scaled_last_iff hpage htotal, ← scaled_last_iff hpage hfree,
      ← hpages, ← hfrees]
    exact ⟨fun h => ⟨h.total, h.free⟩, fun h => ⟨h.1, h.2, rfl⟩⟩

/-- The read ends, and its result is the sum over all areas if and only if the areas before the last slot
have no pages. -/
theorem sgGetSwapStatsInt_sums_iff (hplenty : t.Plenty) (hpage : 0 < sysPageSize.toNat) (now : Int)
    {before : List SwapRound} (hbefore : ∀ r ∈ before, r.Overtaken) {nswap : Nat}
    {entries : List Swapent} (hround : round.Lists nswap entries)
    (htotal : sysPageSize.toNat * totalPages entries < 2 ^ 64)
    (hfree : sysPageSize.toNat * freePages entries < 2 ^ 64) (buf : SwapStats) :
    (∃ buf' t', sgGetSwapStatsInt sysPageSize now (before ++ [round]) buf t = .ok (some (.none, buf'), t') ∧
      SumsSwap sysPageSize entries buf') ↔
      ∀ e ∈ entries.take (nswap - 1), e.pages = 0 ∧ e.free = 0 := by
  rw [← scaleSwap_sums_iff hpage hround.2.2 htotal hfree buf now]
  obtain ⟨t', hrun⟩ := sgGetSwapStatsInt_run hplenty now hbefore hround buf
  constructor
  · rintro ⟨buf', t'', hrun', hsums⟩
    rw [hrun] at hrun'
    cases hrun'
    exact hsums
  · intro hsums
    exact ⟨_, t', hrun, hsums⟩

/-- An empty area, and behind it one of 1000 pages, 400 of them free. -/
theorem sgGetSwapStatsInt_emptyFront :
    ∃ buf' t', sgGetSwapStatsInt 4096 9 [⟨.ok 2, .ok [⟨0, 0⟩, ⟨1000, 400⟩]⟩] ⟨7, 7, 7, 7⟩ ⟨.clear, fun _ => true⟩
        = .ok (some (.none, buf'), t') ∧ SumsSwap 4096 [⟨0, 0⟩, ⟨1000, 400⟩] buf' := by
  refine (@sgGetSwapStatsInt_sums_iff 4096 ⟨.ok 2, .ok [⟨0, 0⟩, ⟨1000, 400⟩]⟩ ⟨.clear, fun _ => true⟩
    (fun _ => rfl) (by decide) 9 [] nofun 2 [⟨0, 0⟩, ⟨1000, 400⟩] ⟨rfl, rfl, by decide⟩ (by decide) (by decide)
    ⟨7, 7, 7, 7⟩).mpr ?_
  intro e he
  obtain rfl : e = ⟨0, 0⟩ := List.mem_singleton.mp he
  exact ⟨rfl, rfl⟩

/-- With two areas the first one is lost. -/
theorem sgGetSwapStatsInt_two :
    ∃ buf' t', sgGetSwapStatsInt 4096 9 [⟨.ok 2, .ok [⟨1000, 400⟩, ⟨500, 100⟩]⟩] ⟨0, 0, 0, 0⟩
        ⟨.clear, fun _ => true⟩ = .ok (some (.none, buf'), t') ∧ buf'.total = 500 * 4096 ∧
      ¬ SumsSwap 4096 [⟨1000, 400⟩, ⟨500, 100⟩] buf' := by
  refine ⟨_, _, rfl, rfl, ?_⟩
  intro hsums
  have htotal := hsums.total
  revert htotal
  decide

end Read

end Statgrab
