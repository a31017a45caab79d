import Statgrab.Vector.Diff

/-!
# The accessors of `globals.h`

Every statistic is delivered by one of four macros. `EASY_COMP_ACCESS` reads one item in place,
`MULTI_COMP_ACCESS` refills a cached vector, and the two `..._DIFF` macros read again and subtract the
snapshot that was cached. What is read is up to the statistic's `fn_int`, a parameter here. The cached
vectors are the `now` and `diff` entries of the component's thread-local record: NULL or a pointer.

A call returns the data pointer, the number of entries, and the cached pointers as it leaves them.
-/

namespace Statgrab

variable {α : Type}

/-- What an accessor hands to its caller. `ok` tells which exit it took, and `read` what the `fn_int`
of the call returned, if it was called: neither is visible to the caller. -/
structure Access where
  data : Option Ptr
  entries : Nat
  ok : Bool
  read : Option SgError
  deriving DecidableEq, Repr

/-- The error exit: NULL and no entries. -/
def Access.failed (read : Option SgError) : Access := ⟨none, 0, false, read⟩

@[simp] theorem failed_read (read : Option SgError) : (Access.failed read).read = read := rfl
@[simp] theorem failed_ok (read : Option SgError) : (Access.failed read).ok = false := rfl

theorem failed_ne_ok {read : Option SgError} : (Access.failed read).ok ≠ true := Bool.false_ne_true

/-- The success exit: the error is cleared and the items of the vector are counted. -/
def succeed (vector : Option Ptr) (read : Option SgError) : VecM α Access := do
  onThread sgClearError
  let entries ← vectorItemCount vector
  return ⟨vector, entries, true, read⟩

def vectorCreateOrResize (info : VectorInitInfo α) (vector : Option Ptr) (newCount : Nat) :
    VecM α (Option Ptr) :=
  match vector with
  | some p => sgVectorResize (some p) newCount
  | none => sgVectorCreate newCount newCount newCount info

/-- A function that fills a vector, the `fn_int` of a statistic with many items: the returned code and
the new `*vector_ptr`. -/
abbrev FillFn (α : Type) := Option Ptr → VecM α (SgError × Option Ptr)

/-- The text a caller of `VECTOR_UPDATE` writes for `new_count`: one operand, or a sum. -/
inductive CountArg where
  | count (n : Nat)
  | sum (a b : Nat)
  deriving DecidableEq, Repr

def CountArg.value : CountArg → Nat
  | count n => n
  | sum a b => a + b

/-- `!new_count` as `VECTOR_UPDATE` expands it. The macro has no parentheses around its argument, so of
a sum only the first operand is negated. -/
def CountArg.negated : CountArg → Bool
  | count n => n = 0
  | sum a b => (if a = 0 then 1 else 0) + b ≠ 0

/-- `VECTOR_UPDATE`: continue with the new vector, or return the error that kept it from growing. -/
def vectorUpdate (info : VectorInitInfo α) (vector : Option Ptr) (newCount : CountArg)
    (next : FillFn α) : VecM α (SgError × Option Ptr) := do
  let vector ← vectorCreateOrResize info vector newCount.value
  match vector with
  | some p => next (some p)
  | none =>
      if newCount.negated then next none
      else
        let rc ← onThread sgGetError
        return (rc, none)

/-- `VECTOR_UPDATE` within a longer function: the vector it goes on with, or the code it returns. -/
def vectorUpdated (info : VectorInitInfo α) (vector : Option Ptr) (newCount : CountArg) :
    VecM α (Except SgError (Option Ptr)) := do
  let vector ← vectorCreateOrResize info vector newCount.value
  match vector with
  | some p => return .ok (some p)
  | none =>
      if newCount.negated then return .ok none
      else
        let rc ← onThread sgGetError
        return .error rc

theorem vectorUpdate_eq (info : VectorInitInfo α) (vector : Option Ptr) (newCount : CountArg)
    (next : FillFn α) :
    vectorUpdate info vector newCount next = (vectorUpdated info vector newCount >>= fun r =>
      match r with
      | .ok vector => next vector
      | .error rc => return (rc, none)) := by
  funext w
  rw [vectorUpdate, vectorUpdated, Prog.bind_run, Prog.bind_run, Prog.bind_run]
  cases vectorCreateOrResize info vector newCount.value w with
  | error e => rfl
  | ok r =>
      obtain ⟨vector', w'⟩ := r
      cases vector' with
      | some p => rfl
      | none =>
          simp only
          split
          · rfl
          · rfl

theorem vectorUpdated_error {info : VectorInitInfo α} {x : Option Ptr} {n : CountArg} {w w' : World α}
    {rc : SgError} (h : vectorUpdated info x n w = .ok (.error rc, w')) : w'.error = rc := by
  obtain ⟨y, w1, -, hrest⟩ := Prog.bind_eq_ok.mp h
  cases y with
  | some p => cases hrest
  | none =>
      by_cases hneg : n.negated = true
      · simp only [hneg, if_true] at hrest
        cases hrest
      · simp only [hneg] at hrest
        cases hrest
        rfl

/-- A function that fills one item in place: the returned code and the new item. -/
abbrev ItemFn (α : Type) := α → ThreadM (SgError × α)

/-- The copies of a condition `a || b || ..`, up to the first that fails. -/
def runCopies : List (ItemFn α) → ItemFn α
  | [], item => return (.none, item)
  | copy :: copies, item => do
      let (rc, item) ← copy item
      if rc ≠ .none then return (rc, item) else runCopies copies item

/-- Run a function on the item `i` of a vector. -/
def onItem (p : Ptr) (i : Nat) (fn : ItemFn α) : VecM α SgError := do
  let v ← deref p
  touch v (i + 1)
  let (rc, item) ← onThread (fn (v.cells i))
  Prog.modify fun w => w.put p (v.setCell i item)
  return rc

/-- The loop of the readers: for each entry of the source one more item, filled in place. The item
count so far is `i`, and `VECTOR_UPDATE` is asked for `i + 1`, which it takes for 0 where there is no
memory. -/
def fillItems {β : Type} (info : VectorInitInfo α) (fill : β → ItemFn α) : List β → Nat → FillFn α
  | [], _ => fun vector => return (.none, vector)
  | b :: rest, i => fun vector =>
      vectorUpdate info vector (.sum i 1) fun vector =>
        match vector with
        | none => Prog.fault .nullPointer
        | some p => do
            let rc ← onItem p i (fill b)
            if rc = .none then fillItems info fill rest (i + 1) (some p)
            else return (rc, some p)

/-! ### Statistics with many items -/

/-- The vector a `MULTI_COMP_ACCESS` getter hands to its `fn_int`: a new one, or the old one cleared. -/
def multiTarget (info : VectorInitInfo α) : Option Ptr → VecM α (Option Ptr)
  | none => vectorCreate info 16
  | some p => do
      sgVectorClear (some p)
      return some p

/-- `MULTI_COMP_ACCESS`, `fn(entries)`. -/
def multiCompAccess (info : VectorInitInfo α) (fnInt : FillFn α) (now : Option Ptr) :
    VecM α (Access × Option Ptr) := do
  let target ← multiTarget info now
  match target with
  | none => return (.failed none, none)
  | some p =>
      let (rc, now) ← fnInt (some p)
      if rc = .none then
        let result ← succeed now (some rc)
        return (result, now)
      else return (.failed (some rc), now)

/-- `MULTI_COMP_ACCESS`, `fn_r(entries)`: the vector belongs to the caller. -/
def multiCompAccessR (info : VectorInitInfo α) (fnInt : FillFn α) : VecM α Access := do
  let vector ← vectorCreate info 16
  match vector with
  | none => return .failed none
  | some p =>
      let (rc, vector) ← fnInt (some p)
      if rc = .none then succeed vector (some rc)
      else
        sgVectorFree vector
        return .failed (some rc)

/-- The `diff` vector of `MULTI_COMP_DIFF`, created with the block size of the cached snapshot. -/
def diffTarget (info : VectorInitInfo α) (now : Ptr) : Option Ptr → VecM α (Option Ptr)
  | some d => return some d
  | none => do
      let v ← deref now
      vectorCreate info v.usedCount

/-- The end of `MULTI_COMP_DIFF`: the difference of `now` and `last` into `diff`. -/
def diffFinish (diff last : Ptr) (read : Option SgError) (now : Option Ptr) :
    VecM α (Access × Option Ptr × Option Ptr) := do
  let (rc, diff) ← sgVectorComputeDiff (some diff) now (some last)
  sgVectorFree (some last)
  if rc = .none then
    let result ← succeed diff read
    return (result, now, diff)
  else return (.failed read, now, diff)

/-- `MULTI_COMP_DIFF` from `getfn(NULL)` on. What the getter returns is not looked at. -/
def diffAgainst (info : VectorInitInfo α) (fnInt : FillFn α) (now diff last : Ptr) :
    VecM α (Access × Option Ptr × Option Ptr) := do
  let (got, now) ← multiCompAccess info fnInt (some now)
  diffFinish diff last got.read now

/-- `MULTI_COMP_DIFF`, `fn(entries)`: the result, `now` and `diff`. -/
def multiCompDiff (info : VectorInitInfo α) (fnInt : FillFn α) (now diff : Option Ptr) :
    VecM α (Access × Option Ptr × Option Ptr) :=
  match now with
  | none => do
      let (result, now) ← multiCompAccess info fnInt none
      return (result, now, diff)
  | some n => do
      let diff ← diffTarget info n diff
      match diff with
      | none => return (.failed none, some n, none)
      | some d =>
          let last ← sgVectorClone (some n)
          match last with
          | none => return (.failed none, some n, some d)
          | some l => diffAgainst info fnInt n d l

/-- `MULTI_COMP_DIFF`, `fn_between(cur, last, entries)`, on two vectors of the caller. What is read are
they, so the code recorded is that of `sg_vector_compute_diff`. -/
def multiCompDiffBetween (info : VectorInitInfo α) (cur last : Option Ptr) : VecM α Access := do
  let diff ← vectorCreate info 1
  match diff with
  | none => return .failed none
  | some d =>
      let (rc, diff) ← sgVectorComputeDiff (some d) cur last
      if rc = .none then succeed diff (some rc)
      else
        sgVectorFree diff
        return .failed (some rc)

/-! ### Statistics with one item -/

/-- A vector of one item: the cached one, or a new one. -/
def easyTarget (info : VectorInitInfo α) : Option Ptr → VecM α (Option Ptr)
  | none => sgVectorCreate 1 1 1 info
  | some p => return some p

/-- `EASY_COMP_ACCESS`, `fn(entries)`. -/
def easyCompAccess (info : VectorInitInfo α) (fnInt : ItemFn α) (now : Option Ptr) :
    VecM α (Access × Option Ptr) := do
  let now ← easyTarget info now
  match now with
  | none => return (.failed none, none)
  | some p =>
      let rc ← onItem p 0 fnInt
      if rc = .none then
        let result ← succeed (some p) (some rc)
        return (result, some p)
      else return (.failed (some rc), some p)

/-- `EASY_COMP_ACCESS`, `fn_r(entries)`. -/
def easyCompAccessR (info : VectorInitInfo α) (fnInt : ItemFn α) : VecM α Access := do
  let vector ← sgVectorCreate 1 1 1 info
  match vector with
  | none => return .failed none
  | some p =>
      let rc ← onItem p 0 fnInt
      if rc = .none then succeed (some p) (some rc)
      else
        sgVectorFree (some p)
        return .failed (some rc)

/-- `EASY_COMP_DIFF`, `fn(entries)`, with `diffInt tgt now last` for `fn_int`: the result, `now` and
`diff`. -/
def easyCompDiff (info : VectorInitInfo α) (fnInt : ItemFn α)
    (diffInt : α → α → α → ThreadM (SgError × α)) (now diff : Option Ptr) :
    VecM α (Access × Option Ptr × Option Ptr) :=
  match now with
  | none => do
      let (result, now) ← easyCompAccess info fnInt none
      return (result, now, diff)
  | some n => do
      let diff ← easyTarget info diff
      match diff with
      | none => return (.failed none, some n, none)
      | some d =>
          let v ← deref n
          touch v 1
          let last := v.cells 0
          let (got, now) ← easyCompAccess info fnInt (some n)
          if got.ok then
            let v ← deref n
            let rc ← onItem d 0 fun tgt => diffInt tgt (v.cells 0) last
            if rc = .none then
              let result ← succeed (some d) got.read
              return (result, now, some d)
            else return (.failed got.read, now, some d)
          else return (.failed got.read, now, some d)

/-- A function `fn_int(tgt, now, last)` of three pointers. -/
abbrev DiffIntFn (α : Type) := Option α → Option α → Option α → ThreadM (SgError × Option α)

/-- Fill an item with the difference of what is behind two pointers. -/
def DiffIntFn.onto (fnInt : DiffIntFn α) (now last : Option α) : ItemFn α := fun tgt => do
  let (rc, item) ← fnInt (some tgt) now last
  return (rc, item.getD tgt)

/-- `EASY_COMP_DIFF`, `fn_between(now, last, entries)`, on two items of the caller. -/
def easyCompDiffBetween (info : VectorInitInfo α) (fnInt : DiffIntFn α) (now last : Option α) :
    VecM α Access :=
  easyCompAccessR info (fnInt.onto now last)

end Statgrab
