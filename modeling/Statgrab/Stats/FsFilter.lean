import Statgrab.Stats.FailedReads
import Statgrab.Stats.ValidFs

/-!
# Which filesystems are reported

`sg_get_fs_stats_int` marks the filesystems it will report in a table of bits, from the last to the first,
and then copies them in order: each time it scans for the next bit that is set, with nothing but the
number of set bits to stop it. The scans stay below the length of the list, and what is copied is the
list without the filesystems of other types and those that could not be filled.
-/

namespace Statgrab

/-! ### The bits that are tested -/

/-- The bits that `BIT_SCAN_FWD` tests from the bit `i` on, within a table of which `fuel` bits are left. -/
def bitScanTests (valid : BitTable) : Nat → Nat → List Nat
  | 0, _ => []
  | fuel + 1, i => i :: if valid.isSet i then [] else bitScanTests valid fuel (i + 1)

/-- The bits that are tested while `fuel` filesystems are copied, from the item `i` on, with a table of
`bits` bits. -/
def copyValidTests (valid : BitTable) (bits : Nat) : Nat → Nat → List Nat
  | 0, _ => []
  | fuel + 1, i =>
      bitScanTests valid (bits - i) i ++
        match bitScanFwd valid (bits - i) i with
        | none => []
        | some i => copyValidTests valid bits fuel (i + 1)

theorem bitScanFwd_le {valid : BitTable} {fuel i i' : Nat} (h : bitScanFwd valid fuel i = some i') : i ≤ i' := by
  induction fuel generalizing i with
  | zero => cases h
  | succ fuel ih =>
      rw [bitScanFwd] at h
      cases hset : valid.isSet i with
      | true =>
          rw [if_pos hset] at h
          cases h
          exact Nat.le_refl _
      | false =>
          rw [if_neg (by simp [hset])] at h
          exact Nat.le_of_succ_le (ih h)

theorem bitScanTests_eq {valid : BitTable} {fuel i i' : Nat} (h : bitScanFwd valid fuel i = some i') :
    bitScanTests valid fuel i = List.range' i (i' + 1 - i) := by
  induction fuel generalizing i with
  | zero => cases h
  | succ fuel ih =>
      rw [bitScanFwd] at h
      rw [bitScanTests]
      cases hset : valid.isSet i with
      | true =>
          rw [if_pos hset] at h
          cases h
          rw [if_pos rfl, Nat.add_sub_cancel_left]
          rfl
      | false =>
          rw [if_neg (by simp [hset])] at h
          have hle := bitScanFwd_le h
          have hlen : i' + 1 - i = i' + 1 - (i + 1) + 1 := by omega
          rw [if_neg Bool.false_ne_true, ih h, hlen, List.range'_succ]

theorem bitScanFwd_congr {valid valid' : BitTable} {fuel i : Nat}
    (h : ∀ bit ∈ bitScanTests valid fuel i, valid'.isSet bit = valid.isSet bit) :
    bitScanFwd valid' fuel i = bitScanFwd valid fuel i := by
  induction fuel generalizing i with
  | zero => rfl
  | succ fuel ih =>
      rw [bitScanTests] at h
      rw [bitScanFwd, bitScanFwd, h i List.mem_cons_self]
      cases hset : valid.isSet i with
      | true => rfl
      | false =>
          rw [if_neg (by simp [hset])] at h
          exact ih fun bit hbit => h bit (List.mem_cons_of_mem i hbit)

theorem copyValid_congr {valid valid' : BitTable} {tmp items : Ptr} (hne : items ≠ tmp) {t : SgVector FsStats}
    {fuel i j : Nat} {w : World FsStats} (ht : w.store tmp = some t)
    (h : ∀ bit ∈ copyValidTests valid ((t.usedCount / 32 + 1) * 32) fuel i, valid'.isSet bit = valid.isSet bit) :
    copyValid tmp items valid' fuel i j w = copyValid tmp items valid fuel i j w := by
  induction fuel generalizing i j w with
  | zero => rfl
  | succ fuel ih =>
      rw [copyValidTests] at h
      have hscan := bitScanFwd_congr fun bit hbit => h bit (List.mem_append_left _ hbit)
      rw [copyValid, copyValid, Prog.bind_of_ok (deref_run ht), Prog.bind_of_ok (deref_run ht), hscan]
      cases hfound : bitScanFwd valid ((t.usedCount / 32 + 1) * 32 - i) i with
      | none => rfl
      | some i' =>
          rw [hfound] at h
          by_cases hlt : t.usedCount ≤ i'
          · simp only [if_pos hlt]
          · simp only [if_neg hlt]
            rw [Prog.bind_run, Prog.bind_run]
            cases htouch : touch t (i' + 1) w with
            | error e => rfl
            | ok r =>
                obtain ⟨u, w1⟩ := r
                have hw : w1 = w := by
                  unfold touch at htouch
                  split at htouch
                  · cases htouch
                  · cases htouch
                    rfl
                simp only [hw]
                rw [Prog.bind_run, Prog.bind_run]
                cases hitem : onItem items j (FsStats.copy (t.cells i')) w with
                | error e => rfl
                | ok r =>
                    obtain ⟨rc, w2⟩ := r
                    obtain ⟨v, x, thread, -, -, rfl⟩ := onItem_eq_ok hitem
                    refine ih ?_ fun bit hbit => h bit (List.mem_append_right _ hbit)
                    exact (Function.update_of_ne hne.symm _ _).trans ht

/-- With as many scans as there are marked items no bit behind the list is tested. -/
theorem copyValidTests_lt {valid : BitTable} {len : Nat} (marked : List Nat) {i : Nat} (hi : i ≤ len)
    (hmarked : (List.range' i (len - i)).filter valid.isSet = marked) :
    ∀ bit ∈ copyValidTests valid ((len / 32 + 1) * 32) marked.length i, bit < len := by
  induction marked generalizing i with
  | nil => exact nofun
  | cons i' rest ih =>
      have hbits : len - i ≤ (len / 32 + 1) * 32 - i := by omega
      obtain ⟨hscan, hlt, hrest⟩ := bitScanFwd_eq _ _ _ hbits hmarked
      intro bit hbit
      rw [List.length_cons, copyValidTests, hscan] at hbit
      rcases List.mem_append.mp hbit with hfirst | hnext
      · rw [bitScanTests_eq hscan, List.mem_range'_1] at hfirst
        omega
      · refine ih (by omega) ?_ bit hnext
        rw [← hrest]
        congr 2
        omega

/-! ### The read -/

theorem chosenOf_items (table : MountTable) (v : SgVector FsStats) :
    chosenOf table v = v.items.zipIdx.filterMap fun m => fsChosen table m.2 m.1 := by
  have hzip : v.items.zipIdx = (List.range v.usedCount).map fun j => (v.cells j, j) := by
    apply List.ext_getElem
    · simp [SgVector.items]
    · intro j h1 h2
      simp [SgVector.items]
  rw [hzip, List.filterMap_map]
  rfl

/-- A list that is returned with success has the mounts in order. -/
theorem sgGetFsListInt_listed (table : MountTable) {w w1 : World FsStats} {x : Option Ptr} (hw : w.Sound)
    (hfits : Fits table.entries.length 0 FsStats.info)
    (hlist : sgGetFsListInt table none w = .ok ((.none, x), w1)) :
    w.Filled w1 FsStats.info none x (w1.itemsAt x) table.entries.length ∧
      List.Forall₂ Listed table.entries (w1.itemsAt x) := by
  cases hmounts : table.mounts with
  | error errno =>
      rw [sgGetFsListInt, hmounts] at hlist
      cases hlist
  | ok mounts =>
      have hentries : table.entries = mounts := by rw [MountTable.entries, hmounts]
      rw [hentries] at hfits ⊢
      obtain ⟨x', new, w', hrun, hfilled, hnew⟩ := fillItems_widened FsStats.regular.full
        (fillFsList_lawful table.now) mounts hw (show w.Takes FsStats.info none [] mounts.length from
          ⟨rfl, hfits⟩) (by rw [List.length_nil, Nat.zero_add])
      rw [sgGetFsListInt, hmounts] at hlist
      simp only at hlist
      rw [List.length_nil] at hrun
      rw [Prog.bind_of_ok hrun] at hlist
      simp only [ne_eq, not_true_eq_false, if_false] at hlist
      rw [List.nil_append] at hfilled
      by_cases herrno : table.errnoAfter = 0
      · rw [if_neg (not_not.mpr herrno)] at hlist
        cases hlist
        rw [hfilled.takes.itemsAt]
        exact ⟨hfilled, hnew⟩
      · rw [if_pos herrno] at hlist
        cases hlist

section Filter

variable {w : World FsStats} {p : Ptr} {x : Option Ptr}

/-- The first part of the read: the chosen filesystems are marked, and to find as many no bit behind the
list is tested. -/
theorem validFs_picks (table : MountTable) (hw : w.Tidy) (hx : ∀ t, x = some t → ∃ v, w.store t = some v) :
    ∃ valid out w', validFs table .none x w = .ok ((valid, out.length), w') ∧ w.Step w' x ∧
      w'.mem = w.mem ∧ (∀ t, x = some t → ∃ v, w'.store t = some v) ∧ Picks w' x valid out ∧
      out = ((w.itemsAt x).zipIdx.filterMap fun m => fsChosen table m.2 m.1) ∧
      ∀ bit ∈ copyValidTests valid (((w.itemsAt x).length / 32 + 1) * 32) out.length 0,
        bit < (w.itemsAt x).length := by
  cases x with
  | none => exact ⟨.zero, [], w, rfl, .refl hw none, rfl, hx, rfl, rfl, nofun⟩
  | some t =>
      obtain ⟨v, hv⟩ := hx t rfl
      obtain ⟨valid, cells, w', hvalid, hstep, hmem, ht, hpicks⟩ := validFs_marks table hw hv
      have hcount : ((List.range' 0 (v.usedCount - 0)).filter valid.isSet).length
          = (chosenOf table v).length := by
        rw [Nat.sub_zero, ← List.range_eq_range', ← hpicks, List.length_map]
      have htests := @copyValidTests_lt valid _ _ _ (Nat.zero_le v.usedCount) rfl
      rw [hcount] at htests
      refine ⟨valid, chosenOf table v, w', hvalid, hstep, hmem, ?_, ⟨_, ht, hpicks⟩, ?_, ?_⟩
      · intro t' ht'
        cases ht'
        exact ⟨_, ht⟩
      · rw [chosenOf_items, itemsAt_some hv]
      · rw [itemsAt_some hv, items_length]
        exact htests

/-- The second part: the marked filesystems are what the vector has then. -/
theorem storeFs_items {valid : BitTable} {out : List FsStats} {n : Nat} (hw : w.Sound)
    (hp : w.Takes FsStats.info (some p) [] n)
    (hx : ∀ t, x = some t → t ≠ p ∧ ∃ v, w.store t = some v) (hpicks : Picks w x valid out)
    (hle : out.length ≤ n) :
    ∃ y w', storeFs .none x valid out.length (some p) w = .ok ((.none, y), w') ∧ w'.itemsAt y = out := by
  by_cases hnil : out = []
  · subst hnil
    obtain ⟨vp, hvp, -⟩ := hp
    obtain ⟨w1, w2, hstore, -⟩ := storeFs_nil valid .none hw.tidy hvp hx
    exact ⟨none, w2, hstore, rfl⟩
  · cases x with
    | none => exact absurd hpicks hnil
    | some t =>
        obtain ⟨htp, -⟩ := hx t rfl
        obtain ⟨vt, ht, hpicks⟩ := hpicks
        obtain ⟨q, w1, v, hrun, hwide⟩ := vectorResize_widened hw hp (Nat.zero_le _)
          (fun h0 => hnil (List.length_eq_zero_iff.mp h0)) hle
        obtain ⟨cells, w2, w3, hstore, -, -, hq, hall⟩ := storeFs_copied .none hw.tidy ht htp hpicks
          hrun hwide.step hwide.kept hwide.store hwide.backed hwide.used
        refine ⟨some q, w3, hstore, ?_⟩
        rw [itemsAt_some hq]
        exact (hall fun k _ => hwide.plenty k).1

/-- What is reported is the list without the filesystems that are not valid or could not be filled, and
the scans stay within the list. -/
theorem sgGetFsStatsInt_filters (table : MountTable) {w1 : World FsStats} (hw : w.Sound)
    (hfits : Fits table.entries.length 0 FsStats.info)
    (hp : w.Takes FsStats.info (some p) [] table.entries.length)
    (hlist : sgGetFsListInt table none w = .ok ((.none, x), w1)) :
    List.Forall₂ Listed table.entries (w1.itemsAt x) ∧
    ∃ valid count w2 y w',
      validFs table .none x w1 = .ok ((valid, count), w2) ∧
      (∀ bit ∈ copyValidTests valid (((w1.itemsAt x).length / 32 + 1) * 32) count 0,
        bit < (w1.itemsAt x).length) ∧
      sgGetFsStatsInt table (some p) w = .ok ((.none, y), w') ∧
      w'.itemsAt y = (w1.itemsAt x).zipIdx.filterMap fun m => fsChosen table m.2 m.1 := by
  obtain ⟨hfilled, hlisted⟩ := sgGetFsListInt_listed table hw hfits hlist
  refine ⟨hlisted, ?_⟩
  obtain ⟨vp, hvp, hready⟩ := hp
  -- the list has a vector of its own
  have hother : ∀ t, x = some t → t ≠ p := by
    intro t ht hcon
    rcases hfilled.kept t ht with hold | hnew
    · cases hold
    · exact absurd (hw.fresh.lt hvp) (not_lt.mpr (hcon ▸ hnew))
  have hx : ∀ t, x = some t → ∃ v, w1.store t = some v := by
    intro t ht
    have htakes := hfilled.takes
    rw [ht] at htakes
    obtain ⟨v, hv, -⟩ := htakes
    exact ⟨v, hv⟩
  obtain ⟨valid, out, w2, hvalid, hstep, hmem, hx2, hpicks, rfl, htests⟩ :=
    validFs_picks table hfilled.step.tidy hx
  have hplenty : w2.Plenty := by
    intro n
    rw [hmem]
    exact hfilled.plenty n
  have hvp2 : w2.store p = some vp := by
    apply hstep.live hfilled.step.tidy (hfilled.step.live hw.tidy hvp (by simp))
    exact fun hcon => hother p hcon rfl
  have hle : ((w1.itemsAt x).zipIdx.filterMap fun m => fsChosen table m.2 m.1).length
      ≤ table.entries.length := by
    rw [hlisted.length_eq, ← @List.length_zipIdx _ (w1.itemsAt x) 0]
    exact List.length_filterMap_le _ _
  obtain ⟨y, w', hstore, hitems⟩ := storeFs_items (hstep.tidy.sound hplenty) ⟨vp, hvp2, hready⟩
    (fun t ht => ⟨hother t ht, hx2 t ht⟩) hpicks hle
  refine ⟨valid, _, w2, y, w', hvalid, htests, ?_, hitems⟩
  rw [sgGetFsStatsInt, Prog.bind_of_ok hlist]
  simp only
  rw [Prog.bind_of_ok hvalid, hstore]

end Filter

/-- A mount table with a filesystem of a valid type and one of another. -/
def rootMounts : MountTable :=
  { mounts := .ok [⟨literal "/dev/sda1", literal "/", literal "ext4", []⟩,
      ⟨literal "proc", literal "/proc", literal "proc", []⟩]
    errnoAfter := 0
    now := 0
    statvfs := fun _ => .ok ⟨4096, 4096, 1000, 400, 300, 100, 40, 40⟩
    statTime := fun _ => 0
    validTypes := [literal "ext4"] }

/-- The root is reported with its sizes in bytes, and nothing else. -/
theorem sgGetFsStatsInt_root :
    ∃ y w', sgGetFsStatsInt rootMounts (some 0)
        (cachedWorld FsStats.info 0 (MountTable.listed ⟨[], [], [], []⟩)) = .ok ((.none, y), w') ∧
      (w'.itemsAt y).map (fun x => (x.mntPoint, x.size, x.used, x.avail))
        = [(some (literal "/"), 4096000, 2457600, 1228800)] := by
  obtain ⟨hsound, htakes⟩ := cachedWorld_takes FsStats.regular (MountTable.listed ⟨[], [], [], []⟩)
    (show 2 ≤ itemLimit by decide)
  obtain ⟨x, _, w1, hlist, -⟩ := sgGetFsListInt_granted rootMounts (show 2 ≤ itemLimit by decide)
    ⟨⟨_, rfl⟩, rfl⟩ hsound.tidy fun k _ => hsound.plenty k
  obtain ⟨hlisted, valid, count, w2, y, w', -, -, hrun, hitems⟩ := sgGetFsStatsInt_filters rootMounts hsound
    (FsStats.regular.fits (by decide) (by decide)) htakes hlist
  refine ⟨y, w', hrun, ?_⟩
  rw [hitems]
  generalize w1.itemsAt x = items at hlisted
  cases hlisted with
  | cons hroot hrest =>
      cases hrest with
      | cons hproc hnil =>
          cases hnil
          simp only [List.zipIdx_cons, List.zipIdx_nil, List.filterMap_cons, List.filterMap_nil,
            MountTable.fsChosen_listed rootMounts hroot, MountTable.fsChosen_listed rootMounts hproc]
          decide +kernel

end Statgrab
