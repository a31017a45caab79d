import Mathlib.Algebra.Group.Nat.Defs
import Statgrab.Error
import Statgrab.Lib.Text

/-!
# Allocation and string helpers

`sg_realloc` is the one allocator of the library that reports its failures; every other helper here
leaves through the error it has set. The strings are C strings without their terminating NUL, and a
`char *` field is an `Option` of one.
-/

namespace Statgrab

open Text

/-- A C string, without its terminating NUL. -/
abbrev CString := List UInt8

/-- One more than the largest `size_t`. -/
def sizeBound : Nat := 2 ^ 64

/-- `ENOMEM`, the errno a failed allocation leaves. -/
def enomem : Int := 12

def Thread.answered (t : Thread) : Thread := { t with mem := fun n => t.mem (n + 1) }

def reallocError (size : Nat) : ErrorGlob :=
  ⟨.malloc, enomem, "sg_realloc: couldn't realloc(to " ++ toString size ++ " bytes)"⟩

/-- The outcome of `sg_realloc(ptr, size)`: whether it returned a block. With size 0 it releases
`ptr` and returns NULL without an error. -/
def sgRealloc (size : Nat) : ThreadM Bool := fun t =>
  if size = 0 then .ok (false, t)
  else if t.mem 0 then .ok (true, t.answered)
  else .ok (false, { t.answered with glob := reallocError size })

@[simp] theorem answered_glob (t : Thread) : t.answered.glob = t.glob := rfl

@[simp] theorem reallocError_error (size : Nat) : (reallocError size).error = .malloc := rfl

theorem Thread.Plenty.answered {t : Thread} (h : t.Plenty) : t.answered.Plenty :=
  fun n => h (n + 1)

theorem sgRealloc_of_mem {size : Nat} {t : Thread} (hsize : size ≠ 0) (hmem : t.mem 0 = true) :
    sgRealloc size t = .ok (true, t.answered) := by
  rw [sgRealloc, if_neg hsize, if_pos hmem]

theorem sgRealloc_of_not_mem {size : Nat} {t : Thread} (hsize : size ≠ 0)
    (hmem : t.mem 0 = false) :
    sgRealloc size t = .ok (false, { t.answered with glob := reallocError size }) := by
  rw [sgRealloc, if_neg hsize, if_neg (by simp [hmem])]

theorem sgRealloc_refused {size : Nat} {t t' : Thread} (hsize : size ≠ 0)
    (h : sgRealloc size t = .ok (false, t')) : t'.error = .malloc := by
  cases hmem : t.mem 0 with
  | true =>
      rw [sgRealloc_of_mem hsize hmem] at h
      cases h
  | false =>
      rw [sgRealloc_of_not_mem hsize hmem] at h
      cases h
      rfl

/-- `calloc` of a few bytes: it sets no error. -/
def calloc : ThreadM Bool := fun t => .ok (t.mem 0, t.answered)

/-- `sg_update_string(dest, src)`: the new value of `*dest` and the returned code. A failed
allocation keeps the old string. -/
def sgUpdateString (dest src : Option CString) : ThreadM (SgError × Option CString) :=
  match src with
  | none => return (.none, none)
  | some s => do
      let ok ← sgRealloc (s.length + 1)
      if ok then return (.none, some s)
      else
        let rc ← returnFromPreviousError
        return (rc, dest)

/-- `sg_update_mem(dest, src, len)`: the returned code and the new value of `*dest`, which is `none` where
it dangles: a request for 0 bytes releases the old memory and returns NULL. -/
def sgUpdateMem (dest src : Option (List UInt8)) :
    ThreadM (SgError × Option (Option (List UInt8))) :=
  match src with
  | none => return (.none, some none)
  | some bytes => do
      let ok ← sgRealloc bytes.length
      if ok then return (.none, some (some bytes))
      else
        let rc ← returnFromPreviousError
        return (rc, if bytes.length = 0 then none else some dest)

/-- The loop of `sg_f_read_line`: the line that starts with `key`, and the stream behind it. Each line has
a byte at least, so the bytes of the stream bound the rounds. -/
def lineWithKey (size : Nat) (key : List UInt8) : Nat → Stream → Option (List UInt8) × Stream
  | 0, f => (none, f)
  | fuel + 1, f =>
      match fgets size f with
      | none => (none, { f with bytes := [] })
      | some (line, rest) => if key.isPrefixOf line then (some line, rest) else lineWithKey size key fuel rest

/-- `sg_f_read_line(f, linebuf, size, key)`. An error is set only where the file has not come to its end. -/
def sgFReadLine (size : Nat) (f : Stream) (key : String) : ThreadM (Option (List UInt8) × Stream) := do
  let found := lineWithKey size (bytes key) (f.bytes.length + 1) f
  match found.1, f.failure with
  | none, some errno => sgSetError .parse errno ("sg_f_read_line(string = " ++ key ++ ")")
  | _, _ => pure ()
  return found

/-- Without the line, the error is that of the failed read, or the one that was there. -/
theorem sgFReadLine_error {size : Nat} {f rest : Stream} {key : String} {t t' : Thread}
    (h : sgFReadLine size f key t = .ok ((none, rest), t')) :
    t'.error = if f.failure.isSome then .parse else t.error := by
  rw [sgFReadLine] at h
  cases hfound : lineWithKey size (bytes key) (f.bytes.length + 1) f with
  | mk line rest' =>
      rw [hfound] at h
      cases line with
      | some line => cases h
      | none =>
          cases hfailure : f.failure with
          | none =>
              rw [hfailure] at h
              cases h
              rfl
          | some errno =>
              rw [hfailure] at h
              cases h
              rfl

/-- `sg_update_string` either stores the string and leaves the error alone, or reports the failed
allocation and keeps the old string. -/
theorem sgUpdateString_cases (dest src : Option CString) (t : Thread) :
    (∃ t', sgUpdateString dest src t = .ok ((.none, src), t') ∧ t'.glob = t.glob ∧
      (t.Plenty → t'.Plenty)) ∨
    (∃ t', sgUpdateString dest src t = .ok ((.malloc, dest), t') ∧ t'.error = .malloc ∧
      ¬ t.Plenty) := by
  cases src with
  | none => exact .inl ⟨t, rfl, rfl, id⟩
  | some s =>
      cases hmem : t.mem 0 with
      | true =>
          refine .inl ⟨t.answered, ?_, rfl, Thread.Plenty.answered⟩
          rw [sgUpdateString, Prog.bind_of_ok (sgRealloc_of_mem (by omega) hmem)]
          rfl
      | false =>
          refine .inr ⟨{ t.answered with glob := reallocError (s.length + 1) }, ?_, rfl, ?_⟩
          · rw [sgUpdateString, Prog.bind_of_ok (sgRealloc_of_not_mem (by omega) hmem)]
            rfl
          · intro h
            simp [h 0] at hmem

theorem sgUpdateString_refused {dest src x : Option CString} {t t' : Thread} {rc : SgError}
    (h : sgUpdateString dest src t = .ok ((rc, x), t')) (hrc : rc ≠ .none) : t'.error = .malloc := by
  rcases sgUpdateString_cases dest src t with ⟨t1, hrun, -⟩ | ⟨t1, hrun, herr, -⟩
  · rw [hrun] at h
    cases h
    exact absurd rfl hrc
  · rw [hrun] at h
    cases h
    exact herr

theorem sgUpdateMem_error {dest src : Option (List UInt8)} {x : Option (Option (List UInt8))} {t t' : Thread}
    {rc : SgError} (h : sgUpdateMem dest src t = .ok ((rc, x), t')) (hrc : rc ≠ .none) : t'.error = rc := by
  cases src with
  | none =>
      cases h
      exact absurd rfl hrc
  | some bytes =>
      obtain ⟨ok, t1, -, h⟩ := Prog.bind_eq_ok.mp h
      cases ok with
      | false =>
          cases h
          rfl
      | true =>
          cases h
          exact absurd rfl hrc

end Statgrab
