import RuleBook.Condition.Basic
import RuleBook.Text.Blank

/-! # Reading stored conditions

A node is a truth value, an object with a `type`, or a comparison in short form with the fields
`fact`, `operator` and `value`. In operand position every other value is a literal, and a text of
the form `{{name}}` refers to a name. A document that is no condition is refused with the path of
the node that is wrong.
-/

namespace RuleBook

namespace Condition

/-- One step from a node of a stored condition to a part of it. -/
inductive Step where
  | lhs
  | rhs
  | value
  | child
  | children (index : Nat)
deriving DecidableEq, Repr

def Step.text : Step → String
  | .lhs => ".lhs"
  | .rhs => ".rhs"
  | .value => ".value"
  | .child => ".child"
  | .children index => ".children[" ++ toString index ++ "]"

/-- The steps from the outermost node inwards. -/
abbrev Path := List Step

/-- The text of a path behind the name of its start. -/
def Path.text (start : String) (path : Path) : String := start ++ String.join (path.map Step.text)

/-- What is wrong with a node. -/
inductive NodeFault where
  | notNode (found : Json)
  | noType
  | noLiteralValue
  | noLhs
  | noRhs
  | noChildren (keyword : String)
  | noChild
  | unknownType (text : String)
  | noShorthandValue
  | noOperator
  | unknownOperator (text : String)
  | blankName (key : String)
deriving Repr

def NodeFault.message : NodeFault → String
  | .notNode found => "条件节点必须是对象或布尔值，实际为 " ++ found.text
  | .noType => "缺少 type 字段"
  | .noLiteralValue => "literal 缺少 value"
  | .noLhs => "compare 缺少 lhs"
  | .noRhs => "compare 缺少 rhs"
  | .noChildren keyword => keyword ++ " 需要 children 数组"
  | .noChild => "not 缺少 child"
  | .unknownType text => "未知的节点类型: " ++ text
  | .noShorthandValue => "简写比较缺少 value"
  | .noOperator => "缺少比较操作符"
  | .unknownOperator text => "条件解析失败: 未知的比较操作符: " ++ text
  | .blankName key => key ++ " 必须是非空字符串"

/-- Why a document is no condition: the path of a node, and what is wrong with it. -/
structure ParseError where
  path : Path
  fault : NodeFault
deriving Repr

namespace ParseError

/-- The error seen from the node one step further out. -/
def under (step : Step) (error : ParseError) : ParseError :=
  { error with path := step :: error.path }

def detail (error : ParseError) : String :=
  error.path.text "$" ++ ": " ++ error.fault.message

/-- The error as the failure of an operation. -/
def toRuleError (error : ParseError) : RuleError := .conditionParse error.detail

end ParseError

def refuse {α : Type} (fault : NodeFault) : Except ParseError α := .error ⟨[], fault⟩

/-- The result of a part, seen from the node one step further out. -/
def within {α : Type} (step : Step) : Except ParseError α → Except ParseError α
  | .ok a => .ok a
  | .error e => .error (e.under step)

/-- The name in a text of the form `{{name}}`, with white space allowed at every border. -/
def templateName? (text : String) : Option String :=
  match Text.trim text.toList with
  | '{' :: '{' :: rest =>
    match rest.reverse with
    | '}' :: '}' :: inner =>
      let name := Text.trim inner.reverse
      if name.isEmpty then none else some (String.ofList name)
    | _ => none
  | _ => none

/-- A field with a text that is not blank. -/
def requiredName (fields : List (String × Json)) (key : String) : Except ParseError String :=
  match fields.lookup key with
  | some (.string text) => if Text.isBlankText text then refuse (.blankName key) else .ok text
  | _ => refuse (.blankName key)

def operatorIn (field : Option Json) : Except ParseError ComparisonOperator :=
  match field with
  | some (.string text) =>
    match ComparisonOperator.ofText? text with
    | some operator => .ok operator
    | none => refuse (.unknownOperator text)
  | _ => refuse .noOperator

def typeIn (fields : List (String × Json)) : Except ParseError String :=
  match fields.lookup "type" with
  | some (.string text) => .ok text
  | _ => refuse .noType

/-- Where a part of a stored condition stands. -/
inductive Position where
  | node
  | operand
deriving DecidableEq, Repr

/-- Whether an object in a position is a node; in operand position it may be a literal. -/
def Position.admits (position : Position) (fields : List (String × Json)) : Bool :=
  position == .node || (fields.lookup "type").isSome || (fields.lookup "fact").isSome

/-- A value that is no object, in operand position. -/
def operandOf (value : Json) : Condition :=
  match value with
  | .string text =>
    match templateName? text with
    | some name => .variable name
    | none => .literal value
  | _ => .literal value

mutual

/-- Read the part of a stored condition that stands in a position. -/
def read (position : Position) : Json → Except ParseError Condition
  | .object fields =>
    if !position.admits fields then .ok (.literal (.object fields))
    else if (fields.lookup "fact").isSome then do
      let fact ← requiredName fields "fact"
      let operator ← operatorIn (fields.lookup "operator")
      match readField .operand "value" fields with
      | none => refuse .noShorthandValue
      | some value => return .compare operator (.variable fact) (← within .value value)
    else do
      match ← typeIn fields with
      | "literal" =>
        match fields.lookup "value" with
        | some value => return .literal value
        | none => refuse .noLiteralValue
      | "var" => return .variable (← requiredName fields "name")
      | "compare" =>
        let operator ← operatorIn (fields.lookup "op")
        match readField .operand "lhs" fields, readField .operand "rhs" fields with
        | none, _ => refuse .noLhs
        | _, none => refuse .noRhs
        | some lhs, some rhs =>
          let lhs ← within .lhs lhs
          let rhs ← within .rhs rhs
          return .compare operator lhs rhs
      | "and" =>
        match readChildren "children" fields with
        | none => refuse (.noChildren "and")
        | some children => return .and (← children)
      | "or" =>
        match readChildren "children" fields with
        | none => refuse (.noChildren "or")
        | some children => return .or (← children)
      | "not" =>
        match readField .node "child" fields with
        | none => refuse .noChild
        | some child => return .not (← within .child child)
      | other => refuse (.unknownType other)
  | value =>
    match position, value with
    | .operand, value => .ok (operandOf value)
    | .node, .bool b => .ok (.literal (.bool b))
    | .node, value => refuse (.notNode value)

/-- Read the part in a field, if the field is there. -/
def readField (position : Position) (key : String) :
    List (String × Json) → Option (Except ParseError Condition)
  | [] => none
  | (other, value) :: rest =>
    if key == other then some (read position value) else readField position key rest

/-- Read the nodes of the array in a field, if there is such an array. -/
def readChildren (key : String) : List (String × Json) → Option (Except ParseError (List Condition))
  | [] => none
  | (other, value) :: rest =>
    if key == other then
      match value with
      | .array items => some (readList 0 items)
      | _ => none
    else readChildren key rest

/-- Read nodes; the first of them has the given index. -/
def readList (index : Nat) : List Json → Except ParseError (List Condition)
  | [] => .ok []
  | item :: rest => do
    let child ← within (.children index) (read .node item)
    let others ← readList (index + 1) rest
    return child :: others

end

/-- Read a stored condition. -/
def parse (value : Json) : Except ParseError Condition := read .node value

end Condition

end RuleBook
