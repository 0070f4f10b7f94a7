/-
  TraceRelay — ring buffers, step by step.

  The operations of a ring buffer once more, with every step in sight that could go wrong on a
  machine with words of 64 bits, and with the store doubled in place.

  * `Fault` is what can go wrong, and `Checked.add` and its like are the steps;
  * `Ring.Checked.grow` doubles the store: it appends empty slots, and swaps the values at the end
    of the old store with the last of the new slots;
  * `Ring.Checked.push`, `pop`, `take`, `clear` and `length` are the operations.
-/
import TraceRelay.Ring.Drain

namespace TraceRelay

/-! ## Steps -/

/-- What can go wrong in a step. -/
inductive Fault where
  /-- A sum is no word, or a difference is below zero. -/
  | overflow
  | zeroDivisor
  /-- A slot or the end of a slice lies outside the store. -/
  | outOfBounds
  /-- The slices to be swapped have different lengths. -/
  | unequalLengths
deriving DecidableEq, Repr

namespace Checked

variable {α : Type}

def add (a b : Nat) : Except Fault Nat :=
  if a + b < UInt64.size then .ok (a + b) else .error .overflow

def sub (a b : Nat) : Except Fault Nat :=
  if b ≤ a then .ok (a - b) else .error .overflow

def rem (a b : Nat) : Except Fault Nat :=
  if b = 0 then .error .zeroDivisor else .ok (a % b)

def get (xs : Array α) (i : Nat) : Except Fault α :=
  match xs[i]? with
  | some x => .ok x
  | none => .error .outOfBounds

def set (xs : Array α) (i : Nat) (x : α) : Except Fault (Array α) :=
  if i < xs.size then .ok (xs.setIfInBounds i x) else .error .outOfBounds

/-- The slices before and from a position on. -/
def split (xs : Array α) (i : Nat) : Except Fault (Array α × Array α) :=
  if i ≤ xs.size then .ok (xs.extract 0 i, xs.extract i) else .error .outOfBounds

/-- The contents of two slices, swapped. -/
def swap (xs ys : Array α) : Except Fault (Array α × Array α) :=
  if xs.size = ys.size then .ok (ys, xs) else .error .unequalLengths

end Checked

/-! ## Operations -/

namespace Ring.Checked

open TraceRelay.Checked

variable {α : Type}

/-- The position after `i`. -/
def next (r : Ring α) (i : Nat) : Except Fault Nat := do
  rem (← add i 1) r.capacity

def length (r : Ring α) : Except Fault Nat := do
  rem (← sub (← add r.head r.capacity) r.tail) r.capacity

def pop (r : Ring α) : Except Fault (Option α × Ring α) := do
  if r.isEmpty then
    return (none, r)
  let a ← get r.slots r.tail
  let slots ← set r.slots r.tail none
  let tail ← next r r.tail
  return (a, { r with slots, tail })

/-- Up to `n` pops. -/
def take : Nat → Ring α → Except Fault (List α × Ring α)
  | 0, r => return ([], r)
  | n + 1, r => do
    match ← pop r with
    | (none, r) => return ([], r)
    | (some a, r) =>
      let (as, r) ← take n r
      return (a :: as, r)

def clear (r : Ring α) : Except Fault (Nat × Ring α) := do
  let dropped ← length r
  return (dropped, { r with slots := Array.replicate r.capacity none, head := 0, tail := 0 })

def store (r : Ring α) (a : α) : Except Fault (Ring α) := do
  let head ← next r r.head
  let slots ← set r.slots r.head (some a)
  return { r with slots, head }

/-- Doubles the store, unless that is refused. -/
def grow (mem : Allocator) (r : Ring α) : Except Fault (Except StoreError Growth × Ring α) := do
  match r.growthRefusal? mem with
  | some e => return (.error e, r)
  | none =>
    let before := r.capacity
    let after := 2 * before
    let slots := r.slots ++ Array.replicate (← sub after before) none
    let wide ←
      if r.head < r.tail then do
        let wrapped ← sub before r.tail
        let (low, high) ← split slots before
        let (front, back) ← split low r.tail
        let (highFront, highBack) ← split high r.tail
        let (back, highBack) ← swap back highBack
        let tail ← sub after wrapped
        pure { r with slots := front ++ back ++ (highFront ++ highBack), tail }
      else pure { r with slots }
    let queued ← length wide
    return (.ok ⟨before, after, queued⟩, wide)

def push (mem : Allocator) (r : Ring α) (a : α) :
    Except Fault (Except StoreError (Option Growth) × Ring α) := do
  let head ← next r r.head
  if head = r.tail then
    match ← grow mem r with
    | (.error e, r) => return (.error e, r)
    | (.ok growth, wide) => return (.ok (some growth), ← store wide a)
  else return (.ok none, ← store r a)

end Ring.Checked

end TraceRelay
