/-
  TraceRelay — JSON values.

  A number is an integer or any other numeral, which is kept as it is written:
  no format here reads one.  The members of an object are kept in the order in
  which they are read.

  * `Json.object` builds the object of a list of members: sorted by key, and
    the last of several members with one key.
-/

namespace TraceRelay

/-- A JSON value. -/
inductive Json where
  | null
  | bool (b : Bool)
  | int (n : Int)
  /-- A numeral with a fraction or an exponent, or the negative zero. -/
  | numeral (text : String)
  | str (s : String)
  | arr (items : List Json)
  | obj (members : List (String × Json))
deriving Repr, Inhabited

namespace Json

/-- Inserts a member into a list sorted by key, in place of one with its key. -/
def insertMember (key : String) (value : Json) : List (String × Json) → List (String × Json)
  | [] => [(key, value)]
  | (k, v) :: rest =>
    if key < k then (key, value) :: (k, v) :: rest
    else if key = k then (key, value) :: rest
    else (k, v) :: insertMember key value rest

/-- The object of a list of members: sorted by key, a later member replacing an
    earlier one with its key. -/
def object (members : List (String × Json)) : Json :=
  .obj (members.foldl (fun sorted m => insertMember m.1 m.2 sorted) [])

end Json

end TraceRelay
