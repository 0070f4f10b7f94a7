/-
  TraceRelay — ranges of addresses.

  A range has both its ends, so that it can reach the last address of the
  64-bit space.

  * `AddressRange.ofSize?` is the range of `size` addresses from `start`, if
    there are any and all of them exist;
  * `AddressRange.Contains` is membership.
-/
import TraceRelay.Text.Hex

namespace TraceRelay

/-- The addresses from `first` to `last`, both included; empty if `last` is
    below `first`. -/
structure AddressRange where
  first : UInt64
  last : UInt64
deriving DecidableEq, Repr, Inhabited

namespace AddressRange

/-- The range of `size` addresses from `start`: none if `size` is zero, or if
    the last address, computed modulo 2^64, has wrapped below the first. -/
def ofSize? (start size : UInt64) : Option AddressRange :=
  let last := start + (size - 1)
  if size = 0 ∨ last < start then none else some ⟨start, last⟩

/-- Membership of an address. -/
def Contains (r : AddressRange) (a : UInt64) : Prop :=
  r.first ≤ a ∧ a ≤ r.last

instance (r : AddressRange) (a : UInt64) : Decidable (r.Contains a) :=
  inferInstanceAs (Decidable (_ ∧ _))

/-- A range as text: its ends in hexadecimal, joined by `..=`. -/
def text (r : AddressRange) : String :=
  hex r.first.toNat ++ "..=" ++ hex r.last.toNat

end AddressRange

end TraceRelay
