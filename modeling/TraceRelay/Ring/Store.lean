/-
  TraceRelay — allocation of slot stores.

  A store is a block of slots.  Whether a store of a given size can be had is
  the allocator's decision; all else about a request is arithmetic.

  * `Allocator` decides by the number of slots, and `Allocator.standard` grants
    every store below 2^58 slots;
  * `StoreError` says why there is no store;
  * `Growth` is what a store's growth is reported with.
-/

namespace TraceRelay

/-- Decides whether a store of a given number of slots is granted. -/
abbrev Allocator : Type := Nat → Bool

/-- Grants the stores that fit into an address space of 2^63 bytes, at 40 bytes a
    slot and a number of slots that is a power of two. -/
def Allocator.standard : Allocator := fun slots => decide (slots < 1 <<< 58)

/-- Why there is no store of the size that is needed. -/
inductive StoreError where
  /-- The allocator refused, or the number of slots is not a 64-bit number. -/
  | allocationFailed (requested : UInt64)
  | limitReached (limit : UInt64)
deriving DecidableEq, Repr

/-- The text of an error. -/
def StoreError.message : StoreError → String
  | allocationFailed requested => s!"event buffer allocation failed for {requested} slots"
  | limitReached limit => s!"event buffer limit of {limit} slots reached"

/-- The growth of a store that was full. -/
structure Growth where
  before : Nat
  after : Nat
  queued : Nat
deriving DecidableEq, Repr

end TraceRelay
