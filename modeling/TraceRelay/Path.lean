/-
  TraceRelay — file paths.

  A path is a sequence of bytes and need not be text.  It is shown with its
  ill-formed pieces replaced, but handed to a host that wants text only if it
  is text.
-/
import TraceRelay.Text.Utf8

namespace TraceRelay

/-- A file path, never normalised. -/
structure Path where
  bytes : List UInt8
deriving DecidableEq, Repr, Inhabited

namespace Path

/-- The path that a text spells. -/
def ofString (s : String) : Path :=
  ⟨s.toUTF8.toList⟩

/-- The characters shown for a path, ill-formed pieces replaced. -/
def shown (p : Path) : List Char :=
  Utf8.decode p.bytes

/-- The text shown for a path. -/
def text (p : Path) : String :=
  String.ofList p.shown

/-- The path as text, if it is well-formed UTF-8. -/
def utf8? (p : Path) : Option String :=
  String.fromUTF8? ⟨p.bytes.toArray⟩

end Path

end TraceRelay
