import RuleBook.Error

/-! # Operators of conditions -/

namespace RuleBook

/-- How two values are compared. -/
inductive ComparisonOperator where
  | eq
  | ne
  | gt
  | gte
  | lt
  | lte
  | isIn
deriving DecidableEq, Repr

namespace ComparisonOperator

instance : Named ComparisonOperator where
  label := "ComparisonOperator"
  all := [eq, ne, gt, gte, lt, lte, isIn]
  name
    | eq => "eq"
    | ne => "ne"
    | gt => "gt"
    | gte => "gte"
    | lt => "lt"
    | lte => "lte"
    | isIn => "in"

/-- The operator with a given name; `ne` has a second one. -/
def ofText? (text : String) : Option ComparisonOperator :=
  if text = "neq" then some ne else Named.ofName? text

/-- The operator with a given name, or the reason why there is none. -/
def parse (text : String) : Except RuleError ComparisonOperator :=
  match ofText? text with
  | some operator => .ok operator
  | none => .error (.conditionParse ("未知的比较操作符: " ++ text))

/-- Operators that need operands with an order. -/
def isOrdering : ComparisonOperator → Bool
  | gt | gte | lt | lte => true
  | _ => false

/-- The name of the constructor, as conditions are shown in traces. -/
def debugName : ComparisonOperator → String
  | eq => "Eq"
  | ne => "Ne"
  | gt => "Gt"
  | gte => "Gte"
  | lt => "Lt"
  | lte => "Lte"
  | isIn => "In"

end ComparisonOperator

/-- How conditions are joined. -/
inductive LogicalOperator where
  | and
  | or
  | not
deriving DecidableEq, Repr

instance : Named LogicalOperator where
  label := "LogicalOperator"
  all := [.and, .or, .not]
  name
    | .and => "AND"
    | .or => "OR"
    | .not => "NOT"

end RuleBook
