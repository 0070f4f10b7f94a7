/-
  TraceRelay — ring buffers that double when they are full.

  The values lie in the slots from `tail` up to and without `head`, wrapping at
  the end of the store.  One slot is always left empty, so that `head = tail`
  means that no value is held.

  * `Ring.create` rounds the number of slots up to a power of two, at least `minCapacity`;
  * `Ring.push` appends a value, and doubles a full store first: `Ring.widen`
    moves the values that lie at the end of the store to the end of the new one;
  * `Ring.pop` takes the oldest value, and `Ring.clear` discards all;
  * `Ring.toList` is the queue that a ring buffer stands for.

  A push that fails returns the ring buffer as it was.
-/
import TraceRelay.Ring.Store

namespace TraceRelay

/-- A ring buffer. -/
structure Ring (α : Type) where
  slots : Array (Option α)
  /-- The next slot to write. -/
  head : Nat
  /-- The next slot to read. -/
  tail : Nat
  /-- The number of slots that the store may grow to. -/
  limit : UInt64
deriving DecidableEq

namespace Ring

variable {α : Type}

/-! ## Size -/

/-- The number of slots. -/
def capacity (r : Ring α) : Nat :=
  r.slots.size

/-- The number of values held. -/
def length (r : Ring α) : Nat :=
  (r.head + r.capacity - r.tail) % r.capacity

/-- Whether no value is held. -/
def isEmpty (r : Ring α) : Bool :=
  r.head == r.tail

/-- Whether one more value would make the buffer look empty. -/
def isFull (r : Ring α) : Bool :=
  (r.head + 1) % r.capacity == r.tail

/-! ## Creation -/

/-- The least number of slots. -/
def minCapacity : Nat := 2

/-- The number of slots that a request for `capacity` slots is rounded to: the
    least power of two that is neither below it nor below `minCapacity`. -/
def roundedCapacity (capacity : UInt64) : Nat :=
  1 <<< ((max capacity.toNat minCapacity - 1).log2 + 1)

/-- An empty ring buffer of at least `capacity` slots.  A request that no power
    of two below 2^64 covers fails before the limit is looked at, and the limit
    is looked at before the allocator. -/
def create (mem : Allocator) (capacity limit : UInt64) : Except StoreError (Ring α) :=
  let slots := roundedCapacity capacity
  if UInt64.size ≤ slots then .error (.allocationFailed capacity)
  else if limit.toNat < slots then .error (.limitReached limit)
  else if mem slots then .ok ⟨Array.replicate slots none, 0, 0, limit⟩
  else .error (.allocationFailed (.ofNat slots))

/-! ## Reading -/

/-- The content of the slot that lies `i` places after the tail. -/
def get? (r : Ring α) (i : Nat) : Option α :=
  (r.slots[(r.tail + i) % r.capacity]?).join

/-- The values held, the oldest first. -/
def toList (r : Ring α) : List α :=
  (List.range r.length).filterMap r.get?

/-- Takes the oldest value. -/
def pop : Ring α → Option α × Ring α
  | ⟨slots, head, tail, limit⟩ =>
    if head = tail then (none, ⟨slots, head, tail, limit⟩)
    else
      let a := (slots[tail]?).join
      let next := (tail + 1) % slots.size
      (a, ⟨slots.setIfInBounds tail none, head, next, limit⟩)

/-- Discards all values and returns their number. -/
def clear (r : Ring α) : Nat × Ring α :=
  (r.length, ⟨Array.replicate r.capacity none, 0, 0, r.limit⟩)

/-! ## Writing -/

/-- Writes a value into the slot at the head. -/
def store : Ring α → α → Ring α
  | ⟨slots, head, tail, limit⟩, a =>
    let next := (head + 1) % slots.size
    ⟨slots.setIfInBounds head (some a), next, tail, limit⟩

/-- Why the store cannot be doubled, if it cannot. -/
def growthRefusal? (mem : Allocator) (r : Ring α) : Option StoreError :=
  let slots := 2 * r.capacity
  if UInt64.size ≤ slots then some (.allocationFailed (.ofNat (UInt64.size - 1)))
  else if r.limit.toNat < slots then some (.limitReached r.limit)
  else if mem slots then none
  else some (.allocationFailed (.ofNat slots))

/-- Doubles the store.  If the values wrap, those from the tail on move to the
    end of the new store, and the new slots come between. -/
def widen : Ring α → Ring α
  | ⟨slots, head, tail, limit⟩ =>
    let fresh := Array.replicate slots.size none
    if head < tail then
      ⟨slots.extract 0 tail ++ fresh ++ slots.extract tail, head, tail + slots.size, limit⟩
    else ⟨slots ++ fresh, head, tail, limit⟩

/-- Appends a value; a full store doubles first, which the result reports. -/
def push (mem : Allocator) (r : Ring α) (a : α) : Except StoreError (Option Growth) × Ring α :=
  if r.isFull then
    match r.growthRefusal? mem with
    | some e => (.error e, r)
    | none =>
      let before := r.capacity
      let wide := r.widen
      (.ok (some ⟨before, wide.capacity, wide.length⟩), wide.store a)
  else (.ok none, r.store a)

end Ring

end TraceRelay
