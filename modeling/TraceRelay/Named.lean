/-
  TraceRelay — closed sets of named values.

  * `Named α` lists the values of `α` in their fixed order and gives each its
    name; the name is what logs and written documents show;
  * `Named.find? s` is the value called `s`.
-/

namespace TraceRelay

/-- A type whose values are finitely many and have names. -/
class Named (α : Type) where
  /-- All values, in their fixed order. -/
  all : List α
  /-- The name of a value. -/
  name : α → String

/-- The names of a type's values, in order. -/
def Named.names (α : Type) [Named α] : List String :=
  (Named.all : List α).map Named.name

/-- The value with a given name.  Letter case matters. -/
def Named.find? (α : Type) [Named α] (s : String) : Option α :=
  Named.all.find? fun a => Named.name a == s

end TraceRelay
