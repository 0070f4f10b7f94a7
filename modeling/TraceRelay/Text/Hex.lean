/-
  TraceRelay — words written in hexadecimal.

  * `hex n` is `0x` and the lower case digits of `n`, without leading zeros;
  * `hexByte b` is `0x` and exactly two lower case digits.
-/

namespace TraceRelay

/-- `0x` and the lower case hexadecimal digits of `n`; zero has one digit. -/
def hex (n : Nat) : String :=
  "0x" ++ String.ofList (Nat.toDigits 16 n)

/-- `0x` and the two lower case hexadecimal digits of `b`. -/
def hexByte (b : UInt8) : String :=
  "0x" ++ String.ofList [Nat.digitChar (b.toNat / 16), Nat.digitChar (b.toNat % 16)]

end TraceRelay
