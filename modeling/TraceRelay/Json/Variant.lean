/-
  TraceRelay — codecs for sum types.

  A value of a sum type is an object whose only key names the case and whose
  value is the object of the case's fields.

  * `CaseFormat α` is one case: its name and how its fields are read;
  * `SumFormat.codec` is the codec of the whole type.
-/
import TraceRelay.Json.Record

namespace TraceRelay

/-- One case of a sum type. -/
structure CaseFormat (α : Type) where
  name : String
  /-- Reads the members of the case's object. -/
  read : List (String × Json) → Except ReadError α

/-- The case `name` that holds a record of format `f`. -/
def CaseFormat.of {α β : Type} (name : String) (f : RecordFormat β) (make : β → α) :
    CaseFormat α where
  name := name
  read members := (f.readObject members).map make

/-- The format of a sum type. -/
structure SumFormat (α : Type) where
  /-- The cases in their order. -/
  cases : List (CaseFormat α)
  /-- The name of a value's case and the members of its object. -/
  write : α → String × List (String × Json)

namespace SumFormat

variable {α : Type} (f : SumFormat α)

/-- The case with a given name, or the error that lists the names. -/
def case? (name : String) : Except ReadError (CaseFormat α) :=
  match f.cases.find? fun c => c.name == name with
  | some c => .ok c
  | none => .error (.unknownVariant name (f.cases.map CaseFormat.name))

/-- The codec of a sum type.  The name of the case is read first; without an
    object for its fields no case can be read. -/
def codec : Codec α where
  write a :=
    let (name, members) := f.write a
    .obj [(name, .obj members)]
  read
    | .str name => (f.case? name).bind fun _ => .error .invalid
    | .obj [(name, body)] =>
      (f.case? name).bind fun c =>
        match body with
        | .obj members => c.read members
        | _ => .error .invalid
    | _ => .error .invalid

end SumFormat

end TraceRelay
