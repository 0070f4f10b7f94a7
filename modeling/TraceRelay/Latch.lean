/-
  TraceRelay — the latch that holds a session's first error.

  * `Latch.set` keeps the first error that it is given and counts the others;
  * `Latch.message` is the first error's text, cut to 255 bytes.
-/
import TraceRelay.Log

namespace TraceRelay

/-- Holds the first error of a session. -/
structure Latch where
  /-- The first error, if there has been one. -/
  first : Option SessionError := none
  /-- The number of errors after the first, up to the greatest 64-bit number. -/
  suppressed : Nat := 0
deriving DecidableEq, Repr, Inhabited

namespace Latch

/-- Whether an error is held. -/
def isSet (l : Latch) : Bool :=
  l.first.isSome

/-- The text of the error that is held. -/
def message (l : Latch) : Option String :=
  l.first.map SessionError.boundedMessage

/-- Holds `e`, unless an error is held already, and returns the error held. -/
def set (l : Latch) (e : SessionError) : Step Latch SessionError :=
  match l.first with
  | none => ⟨e, { l with first := some e }, #[.errorLatched e]⟩
  | some first =>
    ⟨first, { l with suppressed := min (l.suppressed + 1) (UInt64.size - 1) },
      #[.errorSuppressed first e]⟩

end Latch

end TraceRelay
