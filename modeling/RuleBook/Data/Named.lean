import RuleBook.Json.Decode

/-! # Values with a name

A type of finitely many values, each written as a name of its own. The JSON form of a value is its
name, and a name is read back by searching the values.
-/

namespace RuleBook

/-- A type whose values are written as names; `label` is what the type itself is called. -/
class Named (α : Type) where
  label : String
  all : List α
  name : α → String

namespace Named

variable {α : Type} [Named α]

def ofName? (text : String) : Option α := all.find? fun value => name value == text

def toJson (value : α) : Json := .string (name value)

def decoder : Decoder α := .named ofName?

end Named

end RuleBook
