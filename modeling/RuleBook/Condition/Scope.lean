import RuleBook.Json.Basic
import RuleBook.Text.Integer

/-! # Resolving names

A name is looked up among the facts and then among the variables of a rule. In both, the whole
name is tried as a key first; then its parts between points lead from the value of the first part
inwards, by key through objects and by index through arrays.
-/

namespace RuleBook

/-- The values that the names of a condition can refer to. -/
structure Scope where
  facts : List (String × Json)
  bindings : List (String × Json)

namespace Scope

/-- Cut a name at its points. -/
def splitPoints : List Char → List (List Char)
  | [] => [[]]
  | c :: rest =>
    if c = '.' then [] :: splitPoints rest
    else
      match splitPoints rest with
      | part :: parts => (c :: part) :: parts
      | [] => [[c]]

/-- The value one step inside another. -/
def inside? (value : Json) (part : List Char) : Option Json :=
  match value with
  | .object fields => fields.lookup (String.ofList part)
  | .array items => (Text.natural? part).bind fun index =>
    if index < 0x10000000000000000 then items[index]? else none
  | _ => none

/-- The value that parts lead to from another. -/
def follow? (value : Json) : List (List Char) → Option Json
  | [] => some value
  | part :: rest => (inside? value part).bind fun value => follow? value rest

def lookupPath? (fields : List (String × Json)) (name : String) : Option Json :=
  match fields.lookup name with
  | some value => some value
  | none =>
    match splitPoints name.toList with
    | first :: rest => (fields.lookup (String.ofList first)).bind fun value => follow? value rest
    | [] => none

/-- The value of a name: a fact, or else a variable. -/
def get? (scope : Scope) (name : String) : Option Json :=
  (lookupPath? scope.facts name).or (lookupPath? scope.bindings name)

end Scope

end RuleBook
