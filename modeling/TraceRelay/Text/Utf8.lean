/-
  TraceRelay — reading bytes as UTF-8 text.

  A byte sequence need not be well-formed.  Decoding walks over it once and
  keeps the character that is being put together (`Pending`): the bits read so
  far, how many bytes are owed after the next one, and the range that the next
  byte must lie in.  A byte outside that range ends the piece begun so far,
  which becomes one replacement character, and is read again as a first byte.

  * `decode` gives the characters of a byte sequence, with one replacement
    character for every maximal piece that begins no character;
  * `boundary s n` is the place where `s` is cut to `n` bytes, which is found by
    stepping back from byte `n`, and `cut` cuts there.
-/

namespace TraceRelay.Utf8

/-- A character of which some bytes have been read. -/
structure Pending where
  /-- The bits of the bytes read so far. -/
  bits : Nat
  /-- The bytes owed after the next one. -/
  owed : Nat
  /-- The least next byte. -/
  low : UInt8
  /-- The greatest next byte. -/
  high : UInt8
deriving DecidableEq, Repr

/-- Stands for a piece that is no character: U+FFFD. -/
def replacement : Char :=
  Char.ofNat 0xFFFD

/-- Reads `b` as the first byte of a character: what it yields at once, and
    the character it begins.  Overlong forms, surrogates and values above
    U+10FFFF are ruled out by the first byte and the range of the second. -/
def start (b : UInt8) : List Char × Option Pending :=
  if b < 0x80 then ([Char.ofNat b.toNat], none)
  else if b < 0xC2 then ([replacement], none)
  else if b < 0xE0 then ([], some ⟨b.toNat % 32, 0, 0x80, 0xBF⟩)
  else if b < 0xF0 then
    ([], some ⟨b.toNat % 16, 1, if b = 0xE0 then 0xA0 else 0x80, if b = 0xED then 0x9F else 0xBF⟩)
  else if b < 0xF5 then
    ([], some ⟨b.toNat % 8, 2, if b = 0xF0 then 0x90 else 0x80, if b = 0xF4 then 0x8F else 0xBF⟩)
  else ([replacement], none)

/-- The characters of `bytes` after the bytes of a pending character. -/
def decodeFrom : Option Pending → List UInt8 → List Char
  | none, [] => []
  | some _, [] => [replacement]
  | none, b :: bytes => (start b).1 ++ decodeFrom (start b).2 bytes
  | some p, b :: bytes =>
    if p.low ≤ b ∧ b ≤ p.high then
      let bits := p.bits * 64 + b.toNat % 64
      match p.owed with
      | 0 => Char.ofNat bits :: decodeFrom none bytes
      | owed + 1 => decodeFrom (some ⟨bits, owed, 0x80, 0xBF⟩) bytes
    else replacement :: ((start b).1 ++ decodeFrom (start b).2 bytes)

/-- The characters of `bytes`, every maximal ill-formed piece replaced. -/
def decode (bytes : List UInt8) : List Char :=
  decodeFrom none bytes

/-- The last place at or before byte `n` that lies between two characters of `s`,
    or at an end of it. -/
def boundary (s : String) : Nat → s.Pos
  | 0 => s.startPos
  | n + 1 => if h : String.Pos.Raw.IsValid s ⟨n + 1⟩ then s.pos ⟨n + 1⟩ h else boundary s n

/-- The text, cut if it has more than `limit` bytes. -/
def cut (limit : Nat) (s : String) : String :=
  if s.utf8ByteSize ≤ limit then s else (s.sliceTo (boundary s limit)).copy

end TraceRelay.Utf8
