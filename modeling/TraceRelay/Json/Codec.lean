/-
  TraceRelay — codecs: how values are read from JSON and written to it.

  * `Codec α` pairs a reader with a writer for `α`;
  * there is one for truth values, texts, words of each width, lists, optional
    values, and every type with named values;
  * `ReadError` says why a value cannot be read.

  Reading accepts what writing produces.  It accepts little else: a word must be
  an integer in range, and only an optional value may be `null`.
-/
import TraceRelay.Json.Basic
import TraceRelay.Named

namespace TraceRelay

/-- Why a value cannot be read. -/
inductive ReadError where
  /-- A name that is none of the expected ones. -/
  | unknownVariant (given : String) (expected : List String)
  /-- A record lacks a field. -/
  | missingField (name : String)
  /-- The value has another type, is out of range or has the wrong length. -/
  | invalid
deriving DecidableEq, Repr

/-- The text of an error, for the errors that name what is wrong. -/
def ReadError.message? : ReadError → Option String
  | unknownVariant given expected =>
    some (s!"unknown variant `{given}`, expected one of " ++
      ", ".intercalate (expected.map fun name => s!"`{name}`"))
  | missingField name => some s!"missing field `{name}`"
  | invalid => none

/-- A reader and a writer. -/
structure Codec (α : Type) where
  read : Json → Except ReadError α
  write : α → Json

namespace Codec

variable {α : Type}

/-- Truth values. -/
def bool : Codec Bool where
  write := .bool
  read
    | .bool b => .ok b
    | _ => .error .invalid

/-- Texts. -/
def text : Codec String where
  write := .str
  read
    | .str s => .ok s
    | _ => .error .invalid

/-- Numbers from `low` to `high`, held as `α`. -/
def integer (low high : Int) (ofInt : Int → α) (toInt : α → Int) : Codec α where
  write a := .int (toInt a)
  read
    | .int n => if low ≤ n ∧ n ≤ high then .ok (ofInt n) else .error .invalid
    | _ => .error .invalid

/-- Bytes. -/
def word8 : Codec UInt8 :=
  integer 0 0xFF (fun n => UInt8.ofNat n.toNat) (fun a => a.toNat)

/-- Words of 32 bits. -/
def word32 : Codec UInt32 :=
  integer 0 0xFFFFFFFF (fun n => UInt32.ofNat n.toNat) (fun a => a.toNat)

/-- Words of 64 bits. -/
def word64 : Codec UInt64 :=
  integer 0 0xFFFFFFFFFFFFFFFF (fun n => UInt64.ofNat n.toNat) (fun a => a.toNat)

/-- Signed words of 32 bits. -/
def int32 : Codec Int32 :=
  integer (-0x80000000) 0x7FFFFFFF Int32.ofInt Int32.toInt

/-- Lists, as arrays. -/
def list (c : Codec α) : Codec (List α) where
  write as := .arr (as.map c.write)
  read
    | .arr items => items.mapM c.read
    | _ => .error .invalid

/-- Optional values: `null` if there is none. -/
def optional (c : Codec α) : Codec (Option α) where
  write
    | some a => c.write a
    | none => .null
  read
    | .null => .ok none
    | j => (c.read j).map some

/-- The value with a given name, or the error that lists the names. -/
def variant (α : Type) [Named α] (name : String) : Except ReadError α :=
  match Named.find? α name with
  | some a => .ok a
  | none => .error (.unknownVariant name (Named.names α))

/-- Named values, by their names.  A name may also be the only key of an object,
    over `null`. -/
def named [Named α] : Codec α where
  write a := .str (Named.name a)
  read
    | .str name => variant α name
    | .obj [(name, body)] =>
      (variant α name).bind fun a =>
        match body with
        | .null => .ok a
        | _ => .error .invalid
    | _ => .error .invalid

end Codec

end TraceRelay
