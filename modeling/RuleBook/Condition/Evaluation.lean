import RuleBook.Condition.Comparison
import RuleBook.Condition.Reader
import RuleBook.Condition.Scope

/-! # Evaluating conditions

Evaluation is three-valued: a name that cannot be resolved and operands that cannot be compared
leave a condition indeterminate, and negation keeps it so. A group stops at the first child that
decides it. Beside the truth an evaluation reports what it met on the way: names without a value,
problems, and when tracing the steps it took.
-/

namespace RuleBook

/-- The truth of a condition. -/
inductive Truth where
  | true
  | false
  | indeterminate
deriving DecidableEq, Repr

namespace Truth

def ofBool : Bool → Truth
  | .true => .true
  | .false => .false

def negate : Truth → Truth
  | .true => .false
  | .false => .true
  | .indeterminate => .indeterminate

def word : Truth → String
  | .true => "MATCHED"
  | .false => "NOT_MATCHED"
  | .indeterminate => "INDETERMINATE"

def name : Truth → String
  | .true => "true"
  | .false => "false"
  | .indeterminate => "indeterminate"

/-- The answer that the truth gives as a value. -/
def toJson? : Truth → Option Json
  | .true => some (.bool Bool.true)
  | .false => some (.bool Bool.false)
  | .indeterminate => none

end Truth

namespace Condition

/-- Why a part of a condition is indeterminate although its names have values. -/
inductive Problem where
  | literalNotBoolean (path : Path) (value : Json)
  | variableNotBoolean (path : Path) (name kind : String)
  | incomparable (path : Path) (error : RuleError)
  | malformed (detail : String)
deriving Repr

def Problem.message : Problem → String
  | .literalNotBoolean path value => path.text "root" ++ ": 非布尔字面量 " ++ value.text
  | .variableNotBoolean path name kind =>
    path.text "root" ++ ": 变量 " ++ name ++ " 不是布尔值 (" ++ kind ++ ")"
  | .incomparable path error => path.text "root" ++ ": " ++ error.message
  | .malformed detail => detail

/-- A step that an evaluation took. -/
inductive TraceEntry where
  | compared (path : Path) (lhs : Condition) (operator : ComparisonOperator) (rhs : Condition)
      (truth : Truth)
  | negated (path : Path) (truth : Truth)
  | decided (path : Path) (operator : LogicalOperator) (index : Nat) (truth : Truth)
  | joined (path : Path) (operator : LogicalOperator) (truth : Truth)
deriving Repr

def TraceEntry.text : TraceEntry → String
  | .compared path lhs operator rhs truth =>
    path.text "root" ++ ": " ++ lhs.debugText ++ " " ++ Named.name operator ++ " " ++
      rhs.debugText ++ " => " ++ truth.word
  | .negated path truth => path.text "root" ++ ": NOT => " ++ truth.word
  | .decided path operator index truth =>
    path.text "root" ++ ": " ++ Named.name operator ++ " 短路 - 子节点 " ++ toString index ++
      " 为 " ++ truth.word
  | .joined path operator truth =>
    path.text "root" ++ ": " ++ Named.name operator ++ " => " ++ truth.word

/-- What an evaluation met on its way. -/
structure Findings where
  unresolved : List String
  problems : List Problem
  trace : List TraceEntry
deriving Repr

namespace Findings

def none : Findings := ⟨[], [], []⟩

def append (a b : Findings) : Findings :=
  ⟨a.unresolved ++ b.unresolved, a.problems ++ b.problems, a.trace ++ b.trace⟩

instance : Append Findings := ⟨append⟩

def missing (name : String) : Findings := ⟨[name], [], []⟩

def problem (problem : Problem) : Findings := ⟨[], [problem], []⟩

/-- A step, kept when tracing. -/
def step (tracing : Bool) (entry : TraceEntry) : Findings :=
  if tracing then ⟨[], [], [entry]⟩ else none

end Findings

/-- The truth of a condition and what was met on the way. -/
structure Outcome where
  truth : Truth
  findings : Findings
deriving Repr

def Outcome.isMatch (outcome : Outcome) : Bool := outcome.truth == .true

/-- The child that decides a group, and the truth of a group without children. -/
def decisive : LogicalOperator → Truth × Truth
  | .or => (.true, .false)
  | .and => (.false, .true)
  | .not => (.false, .true)

/-- The truth of a literal in boolean position. -/
def literalOutcome (path : Path) (value : Json) : Outcome :=
  match value with
  | .bool b => ⟨.ofBool b, .none⟩
  | value => ⟨.indeterminate, .problem (.literalNotBoolean path value)⟩

/-- The truth of a name in boolean position. -/
def variableOutcome (scope : Scope) (path : Path) (name : String) : Outcome :=
  match scope.get? name with
  | some (.bool b) => ⟨.ofBool b, .none⟩
  | some value => ⟨.indeterminate, .problem (.variableNotBoolean path name value.typeName)⟩
  | none => ⟨.indeterminate, .missing name⟩

/-- The value of an operand; a condition in operand position has the value of its truth. -/
def operandValue (scope : Scope) (operand : Condition) (evaluated : Unit → Outcome) :
    Option Json × Findings :=
  match operand with
  | .literal value => (some value, .none)
  | .variable name =>
    match scope.get? name with
    | some value => (some value, .none)
    | none => (none, .missing name)
  | _ =>
    let outcome := evaluated ()
    (outcome.truth.toJson?, outcome.findings)

def compareOutcome (path : Path) (operator : ComparisonOperator) (lhs rhs : Option Json) : Outcome :=
  match lhs, rhs with
  | some lhs, some rhs =>
    match Comparison.holds lhs operator rhs with
    | .ok answer => ⟨.ofBool answer, .none⟩
    | .error error => ⟨.indeterminate, .problem (.incomparable path error)⟩
  | _, _ => ⟨.indeterminate, .none⟩

mutual

def evaluateAt (tracing : Bool) (scope : Scope) (path : Path) : Condition → Outcome
  | .literal value => literalOutcome path value
  | .variable name => variableOutcome scope path name
  | .compare operator lhs rhs =>
    let left := operandValue scope lhs fun _ => evaluateAt tracing scope (path ++ [.lhs]) lhs
    let right := operandValue scope rhs fun _ => evaluateAt tracing scope (path ++ [.rhs]) rhs
    let compared := compareOutcome path operator left.1 right.1
    ⟨compared.truth, left.2 ++ right.2 ++ compared.findings ++
      .step tracing (.compared path lhs operator rhs compared.truth)⟩
  | .and children => evaluateGroup tracing scope path .and 0 .true children
  | .or children => evaluateGroup tracing scope path .or 0 .false children
  | .not child =>
    let inner := evaluateAt tracing scope (path ++ [.child]) child
    ⟨inner.truth.negate, inner.findings ++ .step tracing (.negated path inner.truth.negate)⟩

/-- Evaluate the children of a group from an index on. `result` is the truth of the group should
none of them decide it. -/
def evaluateGroup (tracing : Bool) (scope : Scope) (path : Path) (operator : LogicalOperator)
    (index : Nat) (result : Truth) : List Condition → Outcome
  | [] => ⟨result, .step tracing (.joined path operator result)⟩
  | child :: rest =>
    let first := evaluateAt tracing scope (path ++ [.children index]) child
    if first.truth = (decisive operator).1 then
      ⟨first.truth, first.findings ++ .step tracing (.decided path operator index first.truth)⟩
    else
      let result := if first.truth = .indeterminate then .indeterminate else result
      let others := evaluateGroup tracing scope path operator (index + 1) result rest
      ⟨others.truth, first.findings ++ others.findings⟩

end

/-- Evaluate a condition. -/
def evaluate (tracing : Bool) (scope : Scope) (condition : Condition) : Outcome :=
  evaluateAt tracing scope [] condition

end Condition

end RuleBook
