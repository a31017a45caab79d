import Statgrab.Lib.Lines
import Statgrab.Stats.NetDev

/-!
# The interfaces on Linux

`sg_get_network_iface_stats_int` reads `/proc/net/dev` as the counters do, but it does not use their regular
expression: it cuts a line at its first colon and asks the kernel about the name before it, with one `ioctl`
for the flags and one for the speed. An interface that the kernel does not know any more is left out.

On a file that the kernel writes the two readers see the same interfaces.
-/

namespace Statgrab

open Text

/-! ### The code -/

/-- What `SIOCETHTOOL` fills in of `struct ethtool_cmd`. -/
structure EthtoolCmd where
  speed : UInt16
  speedHi : UInt16
  duplex : UInt8

/-- The answers of the kernel about the name in an `ifreq`: whether `IFF_UP` is set, and the speed. An
`ioctl` that fails has none. -/
structure IfaceKernel where
  flags : CString → Option Bool
  ethtool : CString → Option EthtoolCmd

/-- The name that `strncpy` leaves in `ifr_name`. -/
def ifrName (name : CString) : CString := name.take 16

/-- The `switch` over the speeds. No case has a `break`, so the assignments from the matching label on are
all made, and the one of `default` is the last. -/
def speedSwitch (speed : UInt16) : UInt64 :=
  (([10, 100, 1000, 2500, 10000].dropWhile fun label => label ≠ speed.toUInt64) ++ [0]).getLastD 0

/-- The speed, with or without `HAVE_ETHTOOL_CMD_SPEED_HI`. -/
def ethtoolSpeed (speedHi : Bool) (cmd : EthtoolCmd) : UInt64 :=
  if speedHi then cmd.speedHi.toUInt64 <<< 16 ||| cmd.speed.toUInt64 else speedSwitch cmd.speed

/-- The `switch` over `DUPLEX_HALF` and `DUPLEX_FULL`. -/
def ethtoolDuplex (cmd : EthtoolCmd) : IfaceDuplex :=
  if cmd.duplex = 1 then .full else if cmd.duplex = 0 then .half else .unknown

/-- An interface that the first `ioctl` knows. -/
structure IfaceLine where
  name : CString
  up : Bool
  ethtool : Option EthtoolCmd

def IfaceKernel.known (kernel : IfaceKernel) (name : CString) : Option IfaceLine :=
  (kernel.flags (ifrName name)).map fun up => ⟨name, up, kernel.ethtool (ifrName name)⟩

/-- The interface of a line: the name ends at the first colon, and the white space before it is skipped. -/
def ifaceLineOf (kernel : IfaceKernel) (line : List UInt8) : Option IfaceLine :=
  (strchr (upToNul line) 58).bind fun front => kernel.known (front.dropWhile isSpace)

/-- What a read of the interfaces meets: the errno of a failed open or of a failed `socket`, a file without
its two title lines, or the lines, where those that are skipped are `none`. -/
inductive IfaceFile where
  | unopened (errno : Int)
  | socket (errno : Int)
  | untitled
  | titled (lines : List (Option IfaceLine))

/-- The same from the text of `/proc/net/dev`, unless it cannot be opened, and the outcome of `socket`. -/
def ifaceFileOf (kernel : IfaceKernel) (sock : Except Int Unit) : Except Int Stream → IfaceFile
  | .error errno => .unopened errno
  | .ok f =>
      match sock with
      | .error errno => .socket errno
      | .ok () =>
          match readLines 8096 f with
          | _ :: _ :: lines => .titled (lines.map (ifaceLineOf kernel))
          | _ => .untitled

def ifaceItem (speedHi : Bool) (now : Int) (line : IfaceLine) : NetworkIfaceStats :=
  { interfaceName := some line.name
    up := if line.up then .up else .down
    speed := line.ethtool.elim 0 (ethtoolSpeed speedHi)
    factor := if line.ethtool.isSome then 1000 * 1000 else 0
    duplex := line.ethtool.elim .unknown ethtoolDuplex
    systime := now }

/-- One round of the loop, from `VECTOR_UPDATE` on. -/
def fillNetworkIface (speedHi : Bool) (now : Int) (line : IfaceLine) : ItemFn NetworkIfaceStats := fun x => do
  let (rc, interfaceName) ← sgUpdateString x.interfaceName (some line.name)
  if rc ≠ .none then
    let rc ← returnFromPreviousError
    return (rc, { x with interfaceName := interfaceName })
  else return (.none, { ifaceItem speedHi now line with interfaceName := interfaceName })

/-- `sg_get_network_iface_stats_int` on Linux. -/
def sgGetNetworkIfaceStatsInt (speedHi : Bool) (now : Int) (file : IfaceFile) : FillFn NetworkIfaceStats :=
  fun vector =>
    match file with
    | .unopened errno => do
        let rc ← onThread (returnWithSetError .open errno "/proc/net/dev")
        return (rc, vector)
    | .socket errno => do
        let rc ← onThread (returnWithSetError .socket errno "")
        return (rc, vector)
    | .untitled => do
        let rc ← onThread (returnWithSetError .parse 0 "")
        return (rc, vector)
    | .titled lines =>
        fillItems NetworkIfaceStats.info (fillNetworkIface speedHi now) (lines.filterMap id) 0 vector

/-! ### The speed -/

/-- Without the high half of the speed there is no speed. -/
theorem speedSwitch_eq (speed : UInt16) : speedSwitch speed = 0 := by
  rw [speedSwitch, List.getLastD_eq_getLast?, List.getLast?_append]
  rfl

theorem fillNetworkIface_lawful (speedHi : Bool) (now : Int) (line : IfaceLine) :
    LawfulFill (fillNetworkIface speedHi now line) (fun x => x = ifaceItem speedHi now line) := by
  intro x t
  rcases sgUpdateString_cases x.interfaceName (some line.name) t with
    ⟨t', hrun, -, hplenty⟩ | ⟨t', hrun, herr, hnot⟩
  · refine ⟨.none, ifaceItem speedHi now line, t', ?_, fun h => absurd rfl h, fun hp => ⟨rfl, rfl, hplenty hp⟩⟩
    rw [fillNetworkIface, Prog.bind_of_ok hrun]
    rfl
  · refine ⟨t'.error, x, t', ?_, id, fun hp => absurd hp hnot⟩
    rw [fillNetworkIface, Prog.bind_of_ok hrun]
    rfl

/-! ### The two readers -/

theorem strchr_first {front : List UInt8} {b : UInt8} (hfront : b ∉ front) (rest : List UInt8) :
    strchr (front ++ b :: rest) b = some front := by
  rw [strchr, if_pos (by simp), List.takeWhile_append_of_pos, List.takeWhile_cons_of_neg (by simp),
    List.append_nil]
  intro c hc
  have hne : c ≠ b := fun hcon => hfront (hcon ▸ hc)
  simpa using hne

theorem NetDevRow.ifaceLineOf_text (row : NetDevRow) (kernel : IfaceKernel) :
    ifaceLineOf kernel (row.text ++ [10]) = kernel.known row.name := by
  have hplain : upToNul (row.text ++ [10]) = row.text ++ [10] :=
    upToNul_eq (nul_notMem_line fun hmem => (row.plain hmem).1 rfl)
  have hcolon : 58 ∉ row.lead ++ row.name := by
    rw [List.mem_append]
    rintro (hlead | hname)
    · have hblank := row.lead_blank 58 hlead
      cases hblank
    · exact (row.name_bytes 58 hname).2.1 rfl
  have htext : row.text ++ [10]
      = row.lead ++ row.name ++ 58 :: (row.columns (List.finRange 16) ++ [10]) := by
    rw [text]
    simp only [List.append_assoc, List.cons_append]
  have hname : (row.lead ++ row.name).dropWhile isSpace = row.name := by
    obtain ⟨b, name, hcons⟩ := List.exists_cons_of_ne_nil row.name_ne
    have hb := (row.name_bytes b (hcons ▸ List.mem_cons_self)).2.2
    rw [List.dropWhile_append_of_pos fun c hc => isSpace_of_isBlank (row.lead_blank c hc), hcons,
      List.dropWhile_cons_of_neg (by simp [hb])]
  rw [ifaceLineOf, hplain, htext, strchr_first hcolon, Option.bind_some, hname]

theorem ifaceLineOf_other {text : List UInt8} (hcolon : 58 ∉ text) (kernel : IfaceKernel) :
    ifaceLineOf kernel (text ++ [10]) = none := by
  have hnone : 58 ∉ upToNul (text ++ [10]) := by
    intro hmem
    rcases List.mem_append.mp ((List.takeWhile_sublist _).subset hmem) with hmem | hmem
    · exact hcolon hmem
    · cases List.mem_singleton.mp hmem
  rw [ifaceLineOf, strchr, if_neg hnone]
  rfl

theorem ifaceLines_rows (kernel : IfaceKernel) {lines : List NetDevLine}
    (hcolon : ∀ l ∈ lines, l.row? = none → 58 ∉ l.text) :
    (lines.map fun l => ifaceLineOf kernel (l.text ++ [10])).filterMap id
      = (lines.filterMap NetDevLine.row?).filterMap fun row => kernel.known row.name := by
  induction lines with
  | nil => rfl
  | cons l lines ih =>
      have hrest := ih fun l' hl' => hcolon l' (List.mem_cons_of_mem l hl')
      cases l with
      | row r =>
          have hline : ifaceLineOf kernel (NetDevLine.text (.row r) ++ [10]) = kernel.known r.name :=
            r.ifaceLineOf_text kernel
          rw [List.map_cons, List.filterMap_cons, List.filterMap_cons, hrest, hline]
          rfl
      | other text hline hmatch =>
          have hnone : ifaceLineOf kernel (NetDevLine.text (.other text hline hmatch) ++ [10]) = none :=
            ifaceLineOf_other (hcolon _ List.mem_cons_self rfl) kernel
          rw [List.map_cons, List.filterMap_cons, List.filterMap_cons, hrest, hnone]
          rfl

theorem netDevFile_readLines {size : Nat} (hsize : 1024 ≤ size) {title1 title2 : List UInt8}
    (htitle1 : 10 ∉ title1 ∧ title1.length < 1023) (htitle2 : 10 ∉ title2 ∧ title2.length < 1023)
    {lines : List NetDevLine} (hfit : ∀ l ∈ lines, l.text.length < 1023) :
    readLines size (netDevFile title1 title2 lines)
      = (title1 ++ [10]) :: (title2 ++ [10]) :: lines.map fun l => l.text ++ [10] := by
  have hlines : lines.flatMap (fun l => l.text ++ [10]) = unlines (lines.map NetDevLine.text) := by
    rw [unlines, List.flatMap_map]
  have hshort : ∀ line ∈ lines.map NetDevLine.text, line.length < size - 1 ∧ 10 ∉ line := by
    intro line hline
    obtain ⟨l, hl, rfl⟩ := List.mem_map.mp hline
    have hlen := hfit l hl
    exact ⟨by omega, l.newline_notMem⟩
  rw [netDevFile, readLines_line (by omega) htitle1.1, readLines_line (by omega) htitle2.1, hlines,
    readLines_all hshort, List.map_map]
  rfl

theorem filterMap_reported {β : Type} (f : CString → Option β) {rows : List NetDevRow}
    {items : List NetworkIoStats} (h : List.Forall₂ NetDevRow.Reported rows items) :
    (items.filterMap fun item => item.interfaceName.bind f) = rows.filterMap fun row => f row.name := by
  induction h with
  | nil => rfl
  | cons hreported _ ih =>
      rw [List.filterMap_cons, List.filterMap_cons, ih, hreported.interfaceName]
      rfl

/-- The interfaces that the second reader reports are those of the first one that the kernel still knows, in
the same order. -/
theorem networkReaders_agree (clock : Nat → Int) (errnoLeft : Int) (kernel : IfaceKernel) (speedHi : Bool)
    (now : Int) {title1 title2 : List UInt8} (htitle1 : 10 ∉ title1 ∧ title1.length < 1023)
    (htitle2 : 10 ∉ title2 ∧ title2.length < 1023) {lines : List NetDevLine}
    (hfit : ∀ l ∈ lines, l.text.length < 1023) (hcolon : ∀ l ∈ lines, l.row? = none → 58 ∉ l.text)
    {w : World NetworkIoStats} {p : Ptr} (hw : w.Sound)
    (hp : w.Takes NetworkIoStats.info (some p) [] (lines.filterMap NetDevLine.row?).length)
    {u : World NetworkIfaceStats} {q : Ptr} {v : SgVector NetworkIfaceStats} (hfresh : u.Fresh)
    (hplenty : u.Plenty) (hq : u.store q = some v)
    (hv : v.Roomy NetworkIfaceStats.info [] (lines.filterMap NetDevLine.row?).length) :
    ∃ y w' z u', sgGetNetworkIoStatsInt (networkFileOf clock errnoLeft (.ok (netDevFile title1 title2 lines)))
        (some p) w = .ok ((.none, y), w') ∧
      sgGetNetworkIfaceStatsInt speedHi now (ifaceFileOf kernel (.ok ()) (.ok (netDevFile title1 title2 lines)))
        (some q) u = .ok ((.none, some z), u') ∧
      u'.itemsAt (some z) = ((w'.itemsAt y).filterMap fun item => item.interfaceName.bind kernel.known).map
        (ifaceItem speedHi now) := by
  have hio := netDevFile_readLines le_rfl htitle1 htitle2 hfit
  have hiface := netDevFile_readLines (show 1024 ≤ 8096 by decide) htitle1 htitle2 hfit
  have hrows := networkLines_rows clock lines 0
  rw [hrows.length_eq] at hp
  obtain ⟨y, w', hrun, hitems⟩ := fillItems_items NetworkIoStats.regular.full fillNetworkIo_lawful _ hw hp
  have hreported : List.Forall₂ NetDevRow.Reported (lines.filterMap NetDevLine.row?) (w'.itemsAt y) := by
    rw [hitems, List.forall₂_map_right_iff]
    exact hrows
  have hle : ([] : List NetworkIfaceStats).length
      + ((lines.map fun l => ifaceLineOf kernel (l.text ++ [10])).filterMap id).length
      ≤ (lines.filterMap NetDevLine.row?).length := by
    rw [ifaceLines_rows kernel hcolon, List.length_nil, Nat.zero_add]
    exact List.length_filterMap_le _ _
  obtain ⟨z, v', new, u', hfill, hz, hroomy, hnew⟩ := fillItems_roomy (fillNetworkIface_lawful speedHi now) _
    hfresh hplenty hq hv hle
  refine ⟨y, w', z, u', ?_, ?_, ?_⟩
  · rw [networkFileOf, hio]
    exact hrun
  · rw [ifaceFileOf, hiface]
    simp only [List.map_map]
    exact hfill
  · rw [itemsAt_some hz, hroomy.items_eq, List.nil_append, forall₂_eq_map hnew, ifaceLines_rows kernel hcolon,
      filterMap_reported kernel.known hreported]

/-- A kernel in which `eth0` is gone when the second reader asks about it. -/
def loopbackKernel : IfaceKernel := ⟨fun name => if name = bytes "lo" then some true else none, fun _ => none⟩

theorem networkReaders_agree_gone :
    ∃ y w' z u', sgGetNetworkIoStatsInt (networkFileOf (fun _ => 0) 0
        (.ok (netDevFile (bytes "Inter-|") (bytes " face |") [.row cardRow, .row loopbackRow])))
        (some 0) (cachedWorld NetworkIoStats.info 0 ⟨none, 0, 0, 0, 0, 0, 0, 0, 0⟩) = .ok ((.none, y), w') ∧
      sgGetNetworkIfaceStatsInt true 5 (ifaceFileOf loopbackKernel (.ok ())
        (.ok (netDevFile (bytes "Inter-|") (bytes " face |") [.row cardRow, .row loopbackRow])))
        (some 0) (cachedWorld NetworkIfaceStats.info 0 NetworkIfaceStats.initial)
        = .ok ((.none, some z), u') ∧
      u'.itemsAt (some z) = ((w'.itemsAt y).filterMap fun item => item.interfaceName.bind loopbackKernel.known).map
        (ifaceItem true 5) := by
  obtain ⟨hsound, htakes⟩ := cachedWorld_takes NetworkIoStats.regular ⟨none, 0, 0, 0, 0, 0, 0, 0, 0⟩
    (show 2 ≤ itemLimit by decide)
  apply networkReaders_agree (fun _ => 0) 0 loopbackKernel true 5 (by decide) (by decide)
    (by decide +kernel) (by decide +kernel) hsound htakes (q := 0) (v := ⟨0, 16, 4, NetworkIfaceStats.info, 16, fun _ => .initial⟩)
  · intro p hp
    exact if_neg (Nat.ne_of_gt hp)
  · exact fun _ => rfl
  · rfl
  · exact ⟨rfl, rfl, by decide, by decide, ⟨by decide, by decide, by decide⟩⟩

end Statgrab
