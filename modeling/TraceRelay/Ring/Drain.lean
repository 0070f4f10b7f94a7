/-
  TraceRelay — draining a ring buffer.

  A drain takes values off the front of the buffer that it was made from.  What
  it has not taken when it is dropped stays in the buffer.

  * `Drain.next?` takes one value, and `Drain.take n` up to `n` of them;
  * `Drain.sizeHint` bounds the number of values to come from below and above, and
    `Drain.exactLength?` is that number, if the bounds tell it.
-/
import TraceRelay.Ring.Basic

namespace TraceRelay

/-- A drain of a ring buffer. -/
structure Drain (α : Type) where
  /-- The buffer, without what has been taken. -/
  ring : Ring α

/-- The drain of a ring buffer. -/
def Ring.drain {α : Type} (r : Ring α) : Drain α :=
  ⟨r⟩

namespace Drain

variable {α : Type}

/-- Takes the next value. -/
def next? : Drain α → Option α × Drain α
  | ⟨r⟩ =>
    let (a, rest) := r.pop
    (a, ⟨rest⟩)

/-- A lower and an upper bound on the number of values to come. -/
def sizeHint (d : Drain α) : Nat × Option Nat :=
  (d.ring.length, some d.ring.length)

/-- The number of values to come, if both bounds agree on it. -/
def exactLength? (d : Drain α) : Option Nat :=
  let (lower, upper) := d.sizeHint
  if upper = some lower then some lower else none

/-- Takes up to `n` values. -/
def take : Nat → Drain α → List α × Drain α
  | 0, d => ([], d)
  | n + 1, d =>
    match d.next? with
    | (none, rest) => ([], rest)
    | (some a, rest) =>
      let (as, rest) := take n rest
      (a :: as, rest)

end Drain

end TraceRelay
