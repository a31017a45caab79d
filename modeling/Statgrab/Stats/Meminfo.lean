import Mathlib.Data.UInt
import Statgrab.Access.Code
import Statgrab.Lib.Scanf

/-!
# `memory_stats.c` on Linux

`sg_get_mem_stats_int` takes three numbers from the lines of `/proc/meminfo` and scales them in its buffer.
A field whose line is not there, or is there without a number, keeps what the buffer had before, which is
scaled like the rest.
-/

namespace Statgrab

open Text
open scoped UInt64.CommRing

structure MemStats where
  total : UInt64
  free : UInt64
  used : UInt64
  cache : UInt64
  systime : Int
  deriving DecidableEq

inductive MemField where
  | total
  | free
  | cache
  deriving DecidableEq

/-- `MEM_TOTAL_PREFIX` and its siblings. -/
def MemField.label : MemField → List UInt8
  | .total => bytes "MemTotal:"
  | .free => bytes "MemFree:"
  | .cache => bytes "Cached:"

namespace MemStats

def get (buf : MemStats) : MemField → UInt64
  | .total => buf.total
  | .free => buf.free
  | .cache => buf.cache

def set (buf : MemStats) (field : MemField) (value : UInt64) : MemStats :=
  match field with
  | .total => { buf with total := value }
  | .free => { buf with free := value }
  | .cache => { buf with cache := value }

theorem get_set (buf : MemStats) (field field' : MemField) (value : UInt64) :
    (buf.set field value).get field' = if field = field' then value else buf.get field' := by
  cases field <;> cases field' <;> rfl

end MemStats

/-- `strncmp(s, label, sizeof(label) - 1) == 0`. -/
def startsWith (s label : List UInt8) : Bool := s.take label.length = label

def memFieldOf (line : List UInt8) : Option MemField :=
  if startsWith line MemField.total.label then some .total
  else if startsWith line MemField.free.label then some .free
  else if startsWith line MemField.cache.label then some .cache
  else none

/-- What a line has for a field: nothing where `sscanf` finds no number. -/
def memLine (line : List UInt8) : Option (MemField × UInt64) :=
  match (Scanf.scanf (bytes "%*s %lld kB") (upToNul line)).1 with
  | [.number value] => (memFieldOf (upToNul line)).map (·, UInt64.ofInt value)
  | _ => none

def storeMemLine (buf : MemStats) (line : List UInt8) : MemStats :=
  match memLine line with
  | some (field, value) => buf.set field value
  | none => buf

def readMeminfo (lines : List (List UInt8)) (buf : MemStats) : MemStats := lines.foldl storeMemLine buf

def scaleMem (now : Int) (buf : MemStats) : MemStats :=
  let total := buf.total * 1024
  let free := (buf.free + buf.cache) * 1024
  { total := total, free := free, cache := buf.cache * 1024, used := total - free, systime := now }

/-- `sg_get_mem_stats_int`, with `/proc/meminfo` unless it cannot be opened, and the time. -/
def sgGetMemStatsInt (file : Except Int Stream) (now : Int) : ItemFn MemStats := fun buf =>
  match file with
  | .error errno => do
      let rc ← returnWithSetError .open errno "/proc/meminfo"
      return (rc, buf)
  | .ok f => return (.none, scaleMem now (readMeminfo (readLines 256 f) buf))

/-- `VECTOR_INIT_INFO_EMPTY_INIT(sg_mem_stats)`. -/
def MemStats.info : VectorInitInfo MemStats :=
  { itemSize := 40, initFn := none, copyFn := none, computeDiffFn := none, compareFn := none
    destroyFn := none }

/-! ### Two reads of one file -/

/-- A line of the file has a number for the field. -/
def MemHas (f : Stream) (field : MemField) : Prop :=
  ∃ line ∈ readLines 256 f, ∃ value, memLine line = some (field, value)

structure MemStats.Same (a b : MemStats) : Prop where
  total : a.total = b.total
  free : a.free = b.free
  used : a.used = b.used
  cache : a.cache = b.cache

/-- Reads of the file into the two buffers that succeed lead to the same numbers, at any times. -/
def MemRunsAgree (file : Except Int Stream) (b1 b2 : MemStats) : Prop :=
  ∀ now1 now2 t1 t2 r1 r2 t1' t2', sgGetMemStatsInt file now1 b1 t1 = .ok ((.none, r1), t1') →
    sgGetMemStatsInt file now2 b2 t2 = .ok ((.none, r2), t2') → r1.Same r2

theorem storeMemLine_get {line : List UInt8} {field : MemField} {value : UInt64}
    (h : memLine line = some (field, value)) (buf : MemStats) :
    (storeMemLine buf line).get field = value := by
  rw [storeMemLine, h]
  exact (buf.get_set field field value).trans (if_pos rfl)

theorem storeMemLine_keep {line : List UInt8} {field : MemField}
    (h : ¬ ∃ value, memLine line = some (field, value)) (buf : MemStats) :
    (storeMemLine buf line).get field = buf.get field := by
  rw [storeMemLine]
  cases hfound : memLine line with
  | none => rfl
  | some found =>
      have hne : found.1 ≠ field := by
        rintro rfl
        exact h ⟨found.2, hfound⟩
      exact (buf.get_set found.1 field found.2).trans (if_neg hne)

/-- A field that has a line does not depend on the buffer, one without does not change. -/
theorem readMeminfo_get (lines : List (List UInt8)) (field : MemField) :
    (∃ line ∈ lines, ∃ value, memLine line = some (field, value)) ∧
        (∀ b1 b2 : MemStats, (readMeminfo lines b1).get field = (readMeminfo lines b2).get field) ∨
      ¬ (∃ line ∈ lines, ∃ value, memLine line = some (field, value)) ∧
        ∀ buf : MemStats, (readMeminfo lines buf).get field = buf.get field := by
  induction lines with
  | nil => exact .inr ⟨by simp, fun _ => rfl⟩
  | cons line lines ih =>
      have hstep : ∀ buf, readMeminfo (line :: lines) buf = readMeminfo lines (storeMemLine buf line) :=
        fun _ => rfl
      rcases ih with ⟨⟨line', hmem, hvalue⟩, hsame⟩ | ⟨hnone, hkeep⟩
      · refine .inl ⟨⟨line', List.mem_cons_of_mem _ hmem, hvalue⟩, ?_⟩
        intro b1 b2
        rw [hstep, hstep]
        exact hsame _ _
      · by_cases hline : ∃ value, memLine line = some (field, value)
        · refine .inl ⟨⟨line, List.mem_cons_self, hline⟩, ?_⟩
          obtain ⟨value, hvalue⟩ := hline
          intro b1 b2
          rw [hstep, hstep, hkeep, hkeep, storeMemLine_get hvalue, storeMemLine_get hvalue]
        · refine .inr ⟨?_, ?_⟩
          · rintro ⟨line', hmem, hvalue⟩
            rcases List.mem_cons.mp hmem with rfl | hmem
            · exact hline hvalue
            · exact hnone ⟨line', hmem, hvalue⟩
          · intro buf
            rw [hstep, hkeep, storeMemLine_keep hline]

/-- The scaled numbers are the same if and only if each field is, once it is scaled. -/
theorem scaleMem_same_iff (now1 now2 : Int) (a b : MemStats) :
    (scaleMem now1 a).Same (scaleMem now2 b) ↔ ∀ field, a.get field * 1024 = b.get field * 1024 := by
  have hfree : ∀ buf : MemStats, (buf.free + buf.cache) * 1024 = buf.free * 1024 + buf.cache * 1024 :=
    fun buf => add_mul buf.free buf.cache 1024
  constructor
  · intro h field
    cases field with
    | total => exact h.total
    | free =>
        have hsum : (a.free + a.cache) * 1024 = (b.free + b.cache) * 1024 := h.free
        have hcache : a.cache * 1024 = b.cache * 1024 := h.cache
        rw [hfree, hfree, hcache] at hsum
        exact add_right_cancel hsum
    | cache => exact h.cache
  · intro h
    have htotal : a.total * 1024 = b.total * 1024 := h .total
    have hsum : (a.free + a.cache) * 1024 = (b.free + b.cache) * 1024 := by
      rw [hfree, hfree, show a.free * 1024 = b.free * 1024 from h .free,
        show a.cache * 1024 = b.cache * 1024 from h .cache]
    refine ⟨htotal, hsum, ?_, h .cache⟩
    show a.total * 1024 - (a.free + a.cache) * 1024 = b.total * 1024 - (b.free + b.cache) * 1024
    rw [htotal, hsum]

/-- Two reads agree if and only if each field has a line with a number in the file, or the buffers had the
same for it up to the bits that the scaling shifts out. -/
theorem memRunsAgree_iff (file : Except Int Stream) (b1 b2 : MemStats) :
    MemRunsAgree file b1 b2 ↔
      ∀ f, file = .ok f → ∀ field, MemHas f field ∨ b1.get field * 1024 = b2.get field * 1024 := by
  cases file with
  | error errno =>
      refine iff_of_true ?_ nofun
      intro now1 now2 t1 t2 r1 r2 t1' t2' hrun
      cases hrun
  | ok f =>
      have hruns : MemRunsAgree (.ok f) b1 b2 ↔ ∀ field,
          (readMeminfo (readLines 256 f) b1).get field * 1024
            = (readMeminfo (readLines 256 f) b2).get field * 1024 := by
        constructor
        · intro h
          exact (scaleMem_same_iff 0 0 _ _).mp
            (h 0 0 ⟨.clear, fun _ => true⟩ ⟨.clear, fun _ => true⟩ _ _ _ _ rfl rfl)
        · intro h now1 now2 t1 t2 r1 r2 t1' t2' hrun1 hrun2
          cases hrun1
          cases hrun2
          exact (scaleMem_same_iff now1 now2 _ _).mpr h
      rw [hruns]
      constructor
      · rintro h f' ⟨⟩ field
        rcases readMeminfo_get (readLines 256 f) field with ⟨hhas, -⟩ | ⟨-, hkeep⟩
        · exact .inl hhas
        · have hfield := h field
          rw [hkeep, hkeep] at hfield
          exact .inr hfield
      · intro h field
        rcases readMeminfo_get (readLines 256 f) field with ⟨-, hsame⟩ | ⟨hnone, hkeep⟩
        · rw [hsame b1 b2]
        · rw [hkeep, hkeep]
          exact (h f rfl field).resolve_left hnone

/-- A file decides the numbers, whatever the buffers had, if and only if it has all three lines. -/
theorem memRunsAgree_always_iff (f : Stream) :
    (∀ b1 b2, MemRunsAgree (.ok f) b1 b2) ↔ ∀ field, MemHas f field := by
  constructor
  · intro h field
    -- buffers that differ in the lowest bit
    have hagree := (memRunsAgree_iff (.ok f) ⟨0, 0, 0, 0, 0⟩ ⟨1, 1, 0, 1, 0⟩).mp (h _ _) f rfl field
    apply hagree.resolve_right
    cases field <;> decide
  · intro h b1 b2
    rw [memRunsAgree_iff]
    rintro f' ⟨⟩ field
    exact .inl (h field)

/-- Without a line for the total it is the one of the last call, times 1024. -/
theorem memRuns_differ_without_total :
    ∃ r1 r2 t, sgGetMemStatsInt (.ok ⟨bytes "MemFree: 600 kB\nCached: 100 kB\n", none⟩) 5 ⟨0, 0, 0, 0, 0⟩
        ⟨.clear, fun _ => true⟩ = .ok ((.none, r1), t) ∧
      sgGetMemStatsInt (.ok ⟨bytes "MemFree: 600 kB\nCached: 100 kB\n", none⟩) 5 ⟨1024000, 0, 0, 0, 0⟩
        ⟨.clear, fun _ => true⟩ = .ok ((.none, r2), t) ∧
      r1.total = 0 ∧ r2.total = 1048576000 ∧
      ¬ MemRunsAgree (.ok ⟨bytes "MemFree: 600 kB\nCached: 100 kB\n", none⟩) ⟨0, 0, 0, 0, 0⟩
        ⟨1024000, 0, 0, 0, 0⟩ := by
  have hfirst : (scaleMem 5 (readMeminfo (readLines 256
      ⟨bytes "MemFree: 600 kB\nCached: 100 kB\n", none⟩) ⟨0, 0, 0, 0, 0⟩)).total = 0 := by decide
  have hsecond : (scaleMem 5 (readMeminfo (readLines 256
      ⟨bytes "MemFree: 600 kB\nCached: 100 kB\n", none⟩) ⟨1024000, 0, 0, 0, 0⟩)).total = 1048576000 := by
    decide
  refine ⟨_, _, _, rfl, rfl, hfirst, hsecond, ?_⟩
  intro hagree
  have hsame := (hagree 5 5 ⟨.clear, fun _ => true⟩ ⟨.clear, fun _ => true⟩ _ _ _ _ rfl rfl).total
  rw [hfirst, hsecond] at hsame
  cases hsame

end Statgrab
