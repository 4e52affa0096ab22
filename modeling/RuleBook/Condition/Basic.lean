import RuleBook.Condition.Operator
import RuleBook.Data.TextSet
import RuleBook.Json.Printer

/-! # Conditions

A condition is a tree of comparisons over literals and named facts, joined by `and`, `or` and
`not`. A stored condition is parsed into this tree once, and `Condition.toJson` writes it back.
-/

namespace RuleBook

/-- A condition. -/
inductive Condition where
  | literal (value : Json)
  | variable (name : String)
  | compare (operator : ComparisonOperator) (lhs rhs : Condition)
  | and (children : List Condition)
  | or (children : List Condition)
  | not (child : Condition)
deriving Repr, Inhabited

namespace Condition

def always : Condition := .literal (.bool true)

mutual

/-- The stored form. -/
def toJson : Condition → Json
  | .literal value => .object [("type", .string "literal"), ("value", value)]
  | .variable name => .object [("name", .string name), ("type", .string "var")]
  | .compare operator lhs rhs =>
    .object [("lhs", lhs.toJson), ("op", Named.toJson operator), ("rhs", rhs.toJson),
      ("type", .string "compare")]
  | .and children => .object [("children", .array (toJsonList children)), ("type", .string "and")]
  | .or children => .object [("children", .array (toJsonList children)), ("type", .string "or")]
  | .not child => .object [("child", child.toJson), ("type", .string "not")]

def toJsonList : List Condition → List Json
  | [] => []
  | child :: rest => child.toJson :: toJsonList rest

end

mutual

/-- The names that a condition refers to, with repetitions. -/
def names : Condition → List String
  | .literal _ => []
  | .variable name => [name]
  | .compare _ lhs rhs => lhs.names ++ rhs.names
  | .and children => namesOf children
  | .or children => namesOf children
  | .not child => child.names

/-- The names that conditions refer to, with repetitions. -/
def namesOf : List Condition → List String
  | [] => []
  | child :: rest => child.names ++ namesOf rest

end

/-- The names that a condition refers to. -/
def referencedNames (condition : Condition) : TextSet := .ofList condition.names

mutual

/-- The first group without children, and how it joins. -/
def emptyGroup? : Condition → Option LogicalOperator
  | .literal _ => none
  | .variable _ => none
  | .compare _ lhs rhs => lhs.emptyGroup?.or rhs.emptyGroup?
  | .and children => if children.isEmpty then some .and else emptyGroupIn? children
  | .or children => if children.isEmpty then some .or else emptyGroupIn? children
  | .not child => child.emptyGroup?

/-- The first group without children in a list of conditions. -/
def emptyGroupIn? : List Condition → Option LogicalOperator
  | [] => none
  | child :: rest => child.emptyGroup?.or (emptyGroupIn? rest)

end

/-- The keyword of a group in the stored form. -/
def groupKeyword : LogicalOperator → String
  | .and => "and"
  | .or => "or"
  | .not => "not"

mutual

/-- Equality of conditions, with literals compared as JSON values. -/
def same : Condition → Condition → Bool
  | .literal x, .literal y => x.same y
  | .variable x, .variable y => x == y
  | .compare op lhs rhs, .compare op' lhs' rhs' => op == op' && lhs.same lhs' && rhs.same rhs'
  | .and xs, .and ys => sameList xs ys
  | .or xs, .or ys => sameList xs ys
  | .not x, .not y => x.same y
  | _, _ => false

def sameList : List Condition → List Condition → Bool
  | [], [] => true
  | x :: xs, y :: ys => x.same y && sameList xs ys
  | _, _ => false

end

end Condition

namespace Json

mutual

/-- A value as it is shown inside a trace. -/
def debugText : Json → String
  | .null => "Null"
  | .bool true => "Bool(true)"
  | .bool false => "Bool(false)"
  | .number n => "Number(" ++ n.text ++ ")"
  | .string s => "String(" ++ Text.quote s ++ ")"
  | .array items => "Array [" ++ ", ".intercalate (debugTexts items) ++ "]"
  | .object fields => "Object \x7b" ++ ", ".intercalate (debugFields fields) ++ "\x7d"

/-- Values as they are shown inside a trace. -/
def debugTexts : List Json → List String
  | [] => []
  | item :: rest => item.debugText :: debugTexts rest

/-- Fields as they are shown inside a trace. -/
def debugFields : List (String × Json) → List String
  | [] => []
  | (key, value) :: rest => (Text.quote key ++ ": " ++ value.debugText) :: debugFields rest

end

end Json

namespace Condition

mutual

/-- A condition as it is shown inside a trace. -/
def debugText : Condition → String
  | .literal value => "Literal \x7b value: " ++ value.debugText ++ " \x7d"
  | .variable name => "Var \x7b name: " ++ Text.quote name ++ " \x7d"
  | .compare operator lhs rhs =>
    "Compare \x7b op: " ++ operator.debugName ++ ", lhs: " ++ lhs.debugText ++ ", rhs: " ++
      rhs.debugText ++ " \x7d"
  | .and children => "And \x7b children: [" ++ ", ".intercalate (debugTexts children) ++ "] \x7d"
  | .or children => "Or \x7b children: [" ++ ", ".intercalate (debugTexts children) ++ "] \x7d"
  | .not child => "Not \x7b child: " ++ child.debugText ++ " \x7d"

/-- Conditions as they are shown inside a trace. -/
def debugTexts : List Condition → List String
  | [] => []
  | child :: rest => child.debugText :: debugTexts rest

end

end Condition

end RuleBook
