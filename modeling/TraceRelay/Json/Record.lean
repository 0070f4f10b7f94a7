/-
  TraceRelay — codecs for records.

  A record format lists the fields of a type in their fixed order.  It is read
  from an object or from an array:

  * the members of an object are taken in turn; those with the name of a field
    set it, and all others are ignored;
  * the items of an array set the fields in order, and there must not be more
    items than fields.

  A field that is not set keeps its value in the blank record, or, if the format
  requires all fields, makes the read fail.
-/
import TraceRelay.Json.Codec

namespace TraceRelay

/-- One field of a record type. -/
structure Field (α : Type) where
  name : String
  /-- Writes the field of a record. -/
  write : α → Json
  /-- Reads a value for the field and sets it. -/
  read : Json → α → Except ReadError α

/-- The field `name`, read and written by `c`, with the function that looks it
    up and the one that sets it. -/
def Field.of {α β : Type} (name : String) (c : Codec β) (get : α → β) (set : β → α → α) :
    Field α where
  name := name
  write a := c.write (get a)
  read j a := (c.read j).map fun b => set b a

/-- The format of a record type. -/
structure RecordFormat (α : Type) where
  /-- The fields in their order. -/
  fields : List (Field α)
  /-- The record of which no field is set yet. -/
  blank : α
  /-- Whether every field must be set. -/
  required : Bool

namespace RecordFormat

variable {α : Type} (f : RecordFormat α)

/-- The field with a given name. -/
def field? (name : String) : Option (Field α) :=
  f.fields.find? fun fld => fld.name == name

/-- Sets the fields that `members` name, in their order. -/
def readMembers : List (String × Json) → α → Except ReadError α
  | [], a => .ok a
  | (name, value) :: rest, a =>
    match f.field? name with
    | some fld => (fld.read value a).bind (readMembers rest)
    | none => readMembers rest a

/-- The first field, in the format's order, that no member names. -/
def missing? (members : List (String × Json)) : Option String :=
  (f.fields.map Field.name).find? fun name => !members.any fun m => m.1 == name

/-- Reads the members of an object.  A value that cannot be read is found before
    a field that is missing. -/
def readObject (members : List (String × Json)) : Except ReadError α :=
  (f.readMembers members f.blank).bind fun a =>
    match f.missing? members with
    | some name => if f.required then .error (.missingField name) else .ok a
    | none => .ok a

/-- Sets `fields` to the items of an array, in order. -/
def readItems (required : Bool) : List (Field α) → List Json → α → Except ReadError α
  | [], [], a => .ok a
  | [], _ :: _, _ => .error .invalid
  | _ :: _, [], a => if required then .error .invalid else .ok a
  | fld :: fields, item :: items, a => (fld.read item a).bind (readItems required fields items)

/-- The members of a written record: every field, in order. -/
def members (a : α) : List (String × Json) :=
  f.fields.map fun fld => (fld.name, fld.write a)

/-- The codec of a record type. -/
def codec : Codec α where
  write a := .obj (f.members a)
  read
    | .obj members => f.readObject members
    | .arr items => readItems f.required f.fields items f.blank
    | _ => .error .invalid

end RecordFormat

end TraceRelay
