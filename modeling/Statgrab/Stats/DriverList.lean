import Mathlib.Data.List.Dedup
import Statgrab.Lib.Cells
import Statgrab.Lib.Text
import Statgrab.Tools

/-!
# The drivers of Solaris

`build_mapping` goes over the chain of kernel statistics, and calls `get_alias` once for every driver of a disk.
It keeps the drivers that it has seen in a list of 512 places. Whether the list is full is tested in the search,
at the place that is read, and a search of 512 entries does not reach the place behind them. So the driver after
512 other ones is written there.
-/

namespace Statgrab

open Text

/-! ### The code -/

def bigEnough : Nat := 512

def maxPathLen : Nat := 1024

/-- What is read of a `kstat_t`: whether `ks_type` is `KSTAT_TYPE_IO`, and whether `kstat_read` returns -1. -/
structure Kstat where
  ksClass : CString
  typeIo : Bool
  ksModule : CString
  readFails : Bool
  ksName : CString
  deriving DecidableEq, Repr

inductive MappingEvent where
  | getAlias (name : CString)
  | write (index : Nat)
  | kstatClose
  deriving DecidableEq, Repr

/-- The string in a buffer, cut at its first digit or at the last byte. -/
def cutAtDigit (buf : List UInt8) : CString :=
  let x := buf.findIdx isDigit
  upToNul (buf.set (if x = maxPathLen then x - 1 else x) 0)

def deviceName (ksName : CString) : CString :=
  cutAtDigit (ksName.take maxPathLen ++ List.replicate (maxPathLen - ksName.length) 0)

inductive DriverSearch where
  | tooMany
  | found
  | missing (x : Nat)
  deriving DecidableEq, Repr

/-- The search in `driver_list` at the place `x`, with `left` entries from there on. -/
def searchDriver (driverList : List (Option CString)) (name : CString) : Nat → Nat → Except Misuse DriverSearch
  | 0, x => .ok (.missing x)
  | left + 1, x =>
      if bigEnough ≤ x then .ok .tooMany
      else
        match driverList[x]? with
        | none => .error .outside
        | some none => .error .unset
        | some (some driver) =>
            if strncmp driver name maxPathLen = .eq then .ok .found else searchDriver driverList name left (x + 1)

/-- The variables of the loop, and of the next calls of `get_alias` which ones succeed. -/
structure Mapping where
  driverList : List (Option CString)
  listEntries : Nat
  aliases : Nat → Bool
  trace : List MappingEvent

/-- The part of the loop behind `device_name`: the next state, or the returned code. -/
def mapDriver (name : CString) (s : Mapping) : Except Misuse (Mapping ⊕ (Int × List MappingEvent)) :=
  match searchDriver s.driverList name s.listEntries 0 with
  | .error m => .error m
  | .ok .tooMany => .ok (.inr (-1, s.trace ++ [.kstatClose]))
  | .ok .found => .ok (.inl s)
  | .ok (.missing x) =>
      if s.aliases 0 = false then .ok (.inr (-1, s.trace ++ [.getAlias name, .kstatClose]))
      else if x < s.driverList.length then
        .ok (.inl
          { driverList := s.driverList.set x (some name)
            listEntries := s.listEntries + 1
            aliases := fun n => s.aliases (n + 1)
            trace := s.trace ++ [.getAlias name, .write x] })
      else .error .outside

/-- The statistics that the loop does not skip. -/
def Kstat.isDisk (ksp : Kstat) : Bool :=
  ksp.ksClass = bytes "disk" && ksp.typeIo && ksp.ksModule ≠ bytes "md" && !ksp.readFails

def mapChain : List Kstat → Mapping → Except Misuse (Int × List MappingEvent)
  | [], s => .ok (0, s.trace ++ [.kstatClose])
  | ksp :: chain, s =>
      if ksp.isDisk then
        match mapDriver (deviceName ksp.ksName) s with
        | .error m => .error m
        | .ok (.inr r) => .ok r
        | .ok (.inl s) => mapChain chain s
      else mapChain chain s

/-- `build_mapping`: the returned code and what it did. There is no chain where `kstat_open` returns NULL. -/
def buildMapping (chain : Option (List Kstat)) (aliases : Nat → Bool) : Except Misuse (Int × List MappingEvent) :=
  match chain with
  | none => .ok (-1, [])
  | some chain => mapChain chain ⟨List.replicate bigEnough none, 0, aliases, []⟩

/-! ### The names -/

theorem upToNul_length_le {buf : List UInt8} {x : Nat} (hx : x < buf.length) :
    (upToNul (buf.set x 0)).length ≤ x := by
  by_contra hlt
  have hprefix : upToNul (buf.set x 0) <+: buf.set x 0 := List.takeWhile_prefix _
  have hget : (upToNul (buf.set x 0))[x]? = some 0 := by
    obtain ⟨rest, hrest⟩ := hprefix
    have hself : (buf.set x 0)[x]? = some 0 := List.getElem?_set_self hx
    rw [← hrest, List.getElem?_append_left (by omega)] at hself
    exact hself
  have hzero := List.mem_takeWhile_imp (List.mem_of_getElem? hget)
  simp at hzero

theorem cutAtDigit_length {buf : List UInt8} (hbuf : buf.length = maxPathLen) :
    (cutAtDigit buf).length < maxPathLen := by
  have hpos : 0 < maxPathLen := by decide
  have hle : buf.findIdx isDigit ≤ buf.length := List.findIdx_le_length
  have hx : (if buf.findIdx isDigit = maxPathLen then buf.findIdx isDigit - 1 else buf.findIdx isDigit)
      < buf.length := by
    split <;> omega
  exact hbuf ▸ Nat.lt_of_le_of_lt (upToNul_length_le hx) hx

theorem deviceName_length (ksName : CString) : (deviceName ksName).length < maxPathLen := by
  apply cutAtDigit_length
  rw [List.length_append, List.length_take, List.length_replicate]
  omega

theorem strncmp_eq_of_length {a b : CString} (ha : a.length < maxPathLen) (hb : b.length < maxPathLen) :
    strncmp a b maxPathLen = .eq ↔ a = b := by
  rw [strncmp, List.take_of_length_le (Nat.le_of_lt ha), List.take_of_length_le (Nat.le_of_lt hb), strcmp_eq_iff]

/-- The list holds these drivers, and nothing was written behind them. -/
structure HoldsDrivers (s : Mapping) (seen : List CString) : Prop where
  list : s.driverList = seen.map some ++ List.replicate (bigEnough - seen.length) none
  entries : s.listEntries = seen.length
  room : seen.length ≤ bigEnough
  short : ∀ driver ∈ seen, driver.length < maxPathLen

/-- The search among the drivers: the guard is never reached. -/
theorem searchDriver_run {seen : List CString} (hroom : seen.length ≤ bigEnough)
    (hshort : ∀ driver ∈ seen, driver.length < maxPathLen) {name : CString} (hname : name.length < maxPathLen)
    (front back : List CString) (hsplit : seen = front ++ back) (hfront : name ∉ front) :
    searchDriver (seen.map some ++ List.replicate (bigEnough - seen.length) none) name back.length front.length
      = .ok (if name ∈ seen then .found else .missing seen.length) := by
  induction back generalizing front with
  | nil =>
      rw [List.append_nil] at hsplit
      rw [List.length_nil, searchDriver, hsplit, if_neg hfront]
  | cons driver back ih =>
      have hlength : seen.length = front.length + (back.length + 1) := by rw [hsplit]; simp
      have hdriver : driver ∈ seen := by rw [hsplit]; simp
      have hread : (seen.map some ++ List.replicate (bigEnough - seen.length) none)[front.length]?
          = some (some driver) := by
        rw [hsplit, List.map_append, List.append_assoc, List.getElem?_append_right (by simp)]
        simp
      have hbelow : ¬ bigEnough ≤ front.length := by omega
      rw [List.length_cons, searchDriver, if_neg hbelow, hread]
      simp only
      by_cases heq : driver = name
      · rw [if_pos ((strncmp_eq_of_length (hshort driver hdriver) hname).mpr heq), if_pos (heq ▸ hdriver)]
      · have hfront' : name ∉ front ++ [driver] := by
          intro hmem
          rcases List.mem_append.mp hmem with hmem | hmem
          · exact hfront hmem
          · exact heq (List.mem_singleton.mp hmem).symm
        have hnext := ih (front ++ [driver]) (by rw [hsplit]; simp) hfront'
        rw [List.length_append, List.length_singleton] at hnext
        rw [if_neg fun h => heq ((strncmp_eq_of_length (hshort driver hdriver) hname).mp h), hnext]

section Drivers

variable {s : Mapping} {seen : List CString} {name : CString}

theorem HoldsDrivers.search (h : HoldsDrivers s seen) (hname : name.length < maxPathLen) :
    searchDriver s.driverList name s.listEntries 0
      = .ok (if name ∈ seen then .found else .missing seen.length) := by
  rw [h.list, h.entries]
  exact searchDriver_run h.room h.short hname [] seen rfl (List.not_mem_nil)

theorem HoldsDrivers.length (h : HoldsDrivers s seen) : s.driverList.length = bigEnough := by
  have hroom := h.room
  rw [h.list, List.length_append, List.length_map, List.length_replicate]
  omega

theorem mapDriver_seen (h : HoldsDrivers s seen) (hname : name.length < maxPathLen) (hseen : name ∈ seen) :
    mapDriver name s = .ok (.inl s) := by
  rw [mapDriver, h.search hname, if_pos hseen]

theorem mapDriver_unknown (h : HoldsDrivers s seen) (hname : name.length < maxPathLen) (hnew : name ∉ seen)
    (halias : s.aliases 0 = false) :
    mapDriver name s = .ok (.inr (-1, s.trace ++ [.getAlias name, .kstatClose])) := by
  rw [mapDriver, h.search hname, if_neg hnew]
  simp only
  rw [if_pos halias]

/-- The driver is written behind the others, if there is room. -/
theorem mapDriver_written (h : HoldsDrivers s seen) (hname : name.length < maxPathLen) (hnew : name ∉ seen)
    (halias : s.aliases 0 = true) (hroom : seen.length < bigEnough) :
    ∃ s', mapDriver name s = .ok (.inl s') ∧ HoldsDrivers s' (seen ++ [name]) ∧
      (s'.aliases = fun n => s.aliases (n + 1)) ∧
      s'.trace = s.trace ++ [.getAlias name, .write seen.length] := by
  have hlength := h.length
  refine ⟨
    { driverList := s.driverList.set seen.length (some name)
      listEntries := s.listEntries + 1
      aliases := fun n => s.aliases (n + 1)
      trace := s.trace ++ [.getAlias name, .write seen.length] }, ?_, ⟨?_, ?_, ?_, ?_⟩, rfl, rfl⟩
  · rw [mapDriver, h.search hname, if_neg hnew]
    simp only
    rw [if_neg (by simp [halias]), if_pos (by omega)]
  · obtain ⟨n, hn⟩ : ∃ n, bigEnough - seen.length = n + 1 := ⟨bigEnough - seen.length - 1, by omega⟩
    have hrest : bigEnough - (seen ++ [name]).length = n := by
      rw [List.length_append, List.length_singleton]
      omega
    rw [hrest]
    simp [h.list, hn, List.replicate_succ]
  · simp [h.entries]
  · simp
    omega
  · intro driver hdriver
    rcases List.mem_append.mp hdriver with hdriver | hdriver
    · exact h.short driver hdriver
    · exact List.mem_singleton.mp hdriver ▸ hname

theorem mapDriver_outside (h : HoldsDrivers s seen) (hname : name.length < maxPathLen) (hnew : name ∉ seen)
    (halias : s.aliases 0 = true) (hroom : seen.length = bigEnough) : mapDriver name s = .error .outside := by
  have hlength := h.length
  rw [mapDriver, h.search hname, if_neg hnew]
  simp only
  rw [if_neg (by simp [halias]), if_neg (by omega)]

end Drivers

/-! ### The chain -/

def driverNames (chain : List Kstat) : List CString :=
  (chain.filter Kstat.isDisk).map fun ksp => deviceName ksp.ksName

def firsts (seen : List CString) : List CString → List CString
  | [] => []
  | name :: names => if name ∈ seen then firsts seen names else name :: firsts (seen ++ [name]) names

theorem mem_firsts {seen names : List CString} {name : CString} :
    name ∈ firsts seen names ↔ name ∈ names ∧ name ∉ seen := by
  induction names generalizing seen with
  | nil => simp [firsts]
  | cons first names ih =>
      rw [firsts]
      by_cases hseen : first ∈ seen
      · rw [if_pos hseen, ih, List.mem_cons]
        grind
      · rw [if_neg hseen, List.mem_cons, ih, List.mem_cons, List.mem_append, List.mem_singleton]
        grind

theorem nodup_firsts (seen names : List CString) : (firsts seen names).Nodup := by
  induction names generalizing seen with
  | nil => exact List.nodup_nil
  | cons first names ih =>
      rw [firsts]
      split
      · exact ih seen
      · refine List.nodup_cons.mpr ⟨fun hmem => ?_, ih _⟩
        exact (mem_firsts.mp hmem).2 (List.mem_append_right seen List.mem_cons_self)

theorem length_firsts (names : List CString) : (firsts [] names).length = names.dedup.length := by
  apply List.Perm.length_eq
  rw [List.perm_ext_iff_of_nodup (nodup_firsts [] names) (List.nodup_dedup names)]
  intro name
  rw [mem_firsts, List.mem_dedup]
  simp

/-- The run stays inside the list: the new drivers fit, or `get_alias` fails before one does not. -/
def DriversFit (aliases : Nat → Bool) (room new : Nat) : Prop := new ≤ room ∨ ∃ k ≤ room, aliases k = false

theorem driversFit_succ {aliases : Nat → Bool} (halias : aliases 0 = true) (room new : Nat) :
    DriversFit aliases (room + 1) (new + 1) ↔ DriversFit (fun n => aliases (n + 1)) room new := by
  refine or_congr Nat.succ_le_succ_iff ⟨?_, ?_⟩
  · rintro ⟨k, hk, hfalse⟩
    cases k with
    | zero =>
        rw [halias] at hfalse
        cases hfalse
    | succ k => exact ⟨k, Nat.le_of_succ_le_succ hk, hfalse⟩
  · rintro ⟨k, hk, hfalse⟩
    exact ⟨k + 1, Nat.succ_le_succ hk, hfalse⟩

theorem driversFit_zero {aliases : Nat → Bool} (halias : aliases 0 = true) (new : Nat) : ¬ DriversFit aliases 0 (new + 1) := by
  rintro (hle | ⟨k, hk, hfalse⟩)
  · cases hle
  · cases Nat.le_zero.mp hk
    rw [halias] at hfalse
    cases hfalse

/-- What a run did from some state on. -/
structure Mapped (seen : List CString) (new : Nat) (rc : Int) (events : List MappingEvent) : Prop where
  once : ∀ name, events.count (.getAlias name) ≤ if name ∈ seen then 0 else 1
  inside : ∀ index, .write index ∈ events → index < bigEnough
  failed : bigEnough < seen.length + new → rc = -1

theorem mapChain_run {s : Mapping} {seen : List CString} (h : HoldsDrivers s seen) (chain : List Kstat) :
    (DriversFit s.aliases (bigEnough - seen.length) (firsts seen (driverNames chain)).length →
      ∃ rc events, mapChain chain s = .ok (rc, s.trace ++ events) ∧
        Mapped seen (firsts seen (driverNames chain)).length rc events) ∧
    (¬ DriversFit s.aliases (bigEnough - seen.length) (firsts seen (driverNames chain)).length →
      mapChain chain s = .error .outside) := by
  induction chain generalizing s seen with
  | nil =>
      have hroom := h.room
      refine ⟨fun _ => ⟨0, [.kstatClose], rfl, ?_, ?_, ?_⟩, fun hnot => ?_⟩
      · intro name
        simp
      · intro index hindex
        simp at hindex
      · intro hlt
        simp only [driverNames, List.filter_nil, List.map_nil, firsts, List.length_nil] at hlt
        omega
      · exact absurd (.inl (Nat.zero_le _)) hnot
  | cons ksp chain ih =>
      cases hdisk : ksp.isDisk with
      | false =>
          have hnames : driverNames (ksp :: chain) = driverNames chain := by
            rw [driverNames, List.filter_cons_of_neg (by simp [hdisk]), driverNames]
          have hskip : mapChain (ksp :: chain) s = mapChain chain s := by
            rw [mapChain, if_neg (by simp [hdisk])]
          rw [hnames, hskip]
          exact ih h
      | true =>
          have hnames : driverNames (ksp :: chain) = deviceName ksp.ksName :: driverNames chain := by
            rw [driverNames, List.filter_cons_of_pos hdisk, List.map_cons, driverNames]
          have hshort := deviceName_length ksp.ksName
          rw [hnames, firsts, mapChain, if_pos hdisk]
          generalize deviceName ksp.ksName = name at hshort
          by_cases hseen : name ∈ seen
          · rw [if_pos hseen, mapDriver_seen h hshort hseen]
            exact ih h
          · rw [if_neg hseen, List.length_cons]
            cases halias : s.aliases 0 with
            | false =>
                rw [mapDriver_unknown h hshort hseen halias]
                refine ⟨fun _ => ⟨-1, [.getAlias name, .kstatClose], rfl, ?_, ?_, fun _ => rfl⟩, fun hnot => ?_⟩
                · intro other
                  by_cases heq : name = other
                  · subst heq
                    simp [hseen]
                  · simp [heq]
                · intro index hindex
                  simp at hindex
                · exact absurd (.inr ⟨0, Nat.zero_le _, halias⟩) hnot
            | true =>
                rcases Nat.lt_or_eq_of_le h.room with hroom | hfull
                · obtain ⟨s', hrun, hholds, haliases, htrace⟩ := mapDriver_written h hshort hseen halias hroom
                  have hleft : bigEnough - seen.length = bigEnough - (seen ++ [name]).length + 1 := by
                    rw [List.length_append, List.length_singleton]
                    omega
                  obtain ⟨hfit, hout⟩ := ih hholds
                  rw [hrun, hleft, driversFit_succ halias, ← haliases]
                  refine ⟨fun hfits => ?_, hout⟩
                  obtain ⟨rc, events, hrest, hmapped⟩ := hfit hfits
                  refine ⟨rc, [.getAlias name, .write seen.length] ++ events, ?_, ?_, ?_, ?_⟩
                  · rw [← List.append_assoc, ← htrace]
                    exact hrest
                  · intro other
                    have honce := hmapped.once other
                    rw [List.count_append]
                    grind
                  · intro index hindex
                    simp only [List.cons_append, List.nil_append, List.mem_cons, reduceCtorEq, false_or] at hindex
                    rcases hindex with heq | hindex
                    · cases heq
                      exact hroom
                    · exact hmapped.inside index hindex
                  · intro hlt
                    apply hmapped.failed
                    rw [List.length_append, List.length_singleton]
                    omega
                · rw [mapDriver_outside h hshort hseen halias hfull, hfull, Nat.sub_self]
                  exact ⟨fun hfits => absurd hfits (driversFit_zero halias _), fun _ => rfl⟩

/-- What is expected of the list: every write is inside it, `get_alias` is called at most once for a driver, and
more drivers than there are places are an error. -/
def StaysInBounds (chain : Option (List Kstat)) (aliases : Nat → Bool) : Prop :=
  ∃ rc events, buildMapping chain aliases = .ok (rc, events) ∧
    (∀ index, .write index ∈ events → index < bigEnough) ∧
    (∀ name, events.count (.getAlias name) ≤ 1) ∧
    (bigEnough < (driverNames (chain.getD [])).dedup.length → rc = -1)

theorem holdsDrivers_nil (aliases : Nat → Bool) :
    HoldsDrivers ⟨List.replicate bigEnough none, 0, aliases, []⟩ [] :=
  ⟨rfl, rfl, Nat.zero_le _, fun _ h => absurd h List.not_mem_nil⟩

theorem buildMapping_outside {chain : List Kstat} {aliases : Nat → Bool}
    (hmany : bigEnough < (driverNames chain).dedup.length) (haliases : ∀ k ≤ bigEnough, aliases k = true) :
    buildMapping (some chain) aliases = .error .outside := by
  obtain ⟨-, hout⟩ := mapChain_run (holdsDrivers_nil aliases) chain
  apply hout
  rw [length_firsts]
  rintro (hle | ⟨k, hk, hfalse⟩)
  · exact absurd hle (Nat.not_le_of_lt hmany)
  · cases (haliases k hk).symm.trans hfalse

theorem buildMapping_bounds_iff (chain : Option (List Kstat)) (aliases : Nat → Bool) :
    StaysInBounds chain aliases ↔
      (driverNames (chain.getD [])).dedup.length ≤ bigEnough ∨ ∃ k ≤ bigEnough, aliases k = false := by
  cases chain with
  | none =>
      refine iff_of_true ⟨-1, [], rfl, ?_, ?_, fun _ => rfl⟩ (.inl (Nat.zero_le _))
      · intro index hindex
        cases hindex
      · intro name
        exact Nat.zero_le _
  | some chain =>
      rw [Option.getD_some]
      constructor
      · rintro ⟨rc, events, hrun, -⟩
        by_contra hnot
        obtain ⟨hmany, haliases⟩ := not_or.mp hnot
        rw [buildMapping_outside (Nat.lt_of_not_le hmany) fun k hk => ?_] at hrun
        · cases hrun
        · cases halias : aliases k with
          | true => rfl
          | false => exact absurd ⟨k, hk, halias⟩ haliases
      · intro hfits
        obtain ⟨hfit, -⟩ := mapChain_run (holdsDrivers_nil aliases) chain
        rw [length_firsts] at hfit
        obtain ⟨rc, events, hrun, hmapped⟩ := hfit hfits
        refine ⟨rc, events, hrun, hmapped.inside, fun name => ?_, fun hmany => ?_⟩
        · exact (hmapped.once name).trans (by simp)
        · exact hmapped.failed (by simpa using hmany)

theorem deviceName_eq {name : CString} (hdigit : ∀ b ∈ name, isDigit b = false) (hnul : 0 ∉ name)
    (hlength : name.length < maxPathLen) : deviceName name = name := by
  obtain ⟨n, hn⟩ : ∃ n, maxPathLen - name.length = n + 1 := ⟨maxPathLen - name.length - 1, by omega⟩
  have hidx : (name ++ List.replicate (n + 1) 0).findIdx isDigit = maxPathLen := by
    rw [List.findIdx_eq_length.mpr]
    · rw [List.length_append, List.length_replicate]
      omega
    · intro b hb
      rcases List.mem_append.mp hb with hb | hb
      · exact hdigit b hb
      · rw [List.eq_of_mem_replicate hb]
        decide
  have hzeros : ∃ rest, (List.replicate (n + 1) (0 : UInt8)).set (maxPathLen - 1 - name.length) 0 = 0 :: rest := by
    rw [List.replicate_succ]
    cases maxPathLen - 1 - name.length with
    | zero => exact ⟨_, rfl⟩
    | succ k => exact ⟨_, rfl⟩
  obtain ⟨rest, hrest⟩ := hzeros
  rw [deviceName, List.take_of_length_le (Nat.le_of_lt hlength), hn, cutAtDigit, hidx]
  simp only [if_true]
  rw [List.set_append_right _ _ (by omega), hrest, upToNul, List.takeWhile_append_of_pos]
  · simp
  · intro b hb
    have hne : b ≠ 0 := fun hcon => hnul (hcon ▸ hb)
    simpa using hne

def pairKstat (i : Nat) : Kstat :=
  ⟨bytes "disk", true, bytes "sd", false, [(97 + i / 26).toUInt8, (97 + i % 26).toUInt8]⟩

theorem pairKstat_letters {i : Nat} (hi : i < 26 * 26) : ∀ b ∈ (pairKstat i).ksName, 97 ≤ b.toNat := by
  intro b hb
  have hdiv : i / 26 < 26 := by omega
  have hmod : i % 26 < 26 := Nat.mod_lt _ (by omega)
  simp only [pairKstat, List.mem_cons, List.not_mem_nil, or_false] at hb
  rcases hb with rfl | rfl
  · rw [Nat.toUInt8, UInt8.toNat_ofNat']
    omega
  · rw [Nat.toUInt8, UInt8.toNat_ofNat']
    omega

theorem deviceName_pairKstat {i : Nat} (hi : i < 26 * 26) :
    deviceName (pairKstat i).ksName = (pairKstat i).ksName := by
  refine deviceName_eq ?_ ?_ (by simp [pairKstat, maxPathLen])
  · intro b hb
    have hle := pairKstat_letters hi b hb
    simp only [isDigit, Bool.and_eq_false_iff, decide_eq_false_iff_not, UInt8.le_iff_toNat_le]
    right
    have hnine : (57 : UInt8).toNat = 57 := rfl
    omega
  · intro hzero
    have hle := pairKstat_letters hi 0 hzero
    exact absurd hle (by decide)

theorem driverNames_pairs {n : Nat} (hn : n ≤ 26 * 26) :
    driverNames ((List.range n).map pairKstat) = (List.range n).map fun i => (pairKstat i).ksName := by
  have hall : ((List.range n).map pairKstat).filter Kstat.isDisk = (List.range n).map pairKstat := by
    rw [List.filter_eq_self]
    intro ksp hksp
    obtain ⟨i, -, rfl⟩ := List.mem_map.mp hksp
    have hmodule : bytes "sd" ≠ bytes "md" := by decide
    simp [Kstat.isDisk, pairKstat, hmodule]
  rw [driverNames, hall, List.map_map]
  refine List.map_congr_left fun i hi => ?_
  exact deviceName_pairKstat (Nat.lt_of_lt_of_le (List.mem_range.mp hi) hn)

theorem dedup_pairs {n : Nat} (hn : n ≤ 26 * 26) :
    (driverNames ((List.range n).map pairKstat)).dedup.length = n := by
  rw [driverNames_pairs hn, List.dedup_eq_self.mpr, List.length_map, List.length_range]
  refine List.Nodup.map_on ?_ List.nodup_range
  intro i hi j hj heq
  have hi' := Nat.lt_of_lt_of_le (List.mem_range.mp hi) hn
  have hj' := Nat.lt_of_lt_of_le (List.mem_range.mp hj) hn
  simp only [pairKstat, List.cons.injEq, and_true, ← UInt8.toNat_inj, Nat.toUInt8, UInt8.toNat_ofNat'] at heq
  omega

/-- One driver more than there are places, and `get_alias` never fails. -/
theorem buildMapping_oneTooMany :
    ¬ StaysInBounds (some ((List.range 513).map pairKstat)) (fun _ => true) := by
  rintro ⟨rc, events, hrun, -⟩
  rw [buildMapping_outside (by rw [dedup_pairs (by decide)]; decide) fun _ _ => rfl] at hrun
  cases hrun

end Statgrab
