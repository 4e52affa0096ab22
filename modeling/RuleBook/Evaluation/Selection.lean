import RuleBook.Evaluation.Targeting

/-! # Selection

The conditions of the active candidates are evaluated. The rules that match are ranked by priority,
the highest first, and then by id, so that the order of the candidates does not show. A condition
that is malformed or indeterminate is no match and is reported.
-/

namespace RuleBook

namespace Selection

/-- What became of a candidate. -/
inductive Verdict where
  | inactive
  | malformed (error : Condition.ParseError)
  | evaluated (outcome : Condition.Outcome)

def judge (tracing : Bool) (facts : List (String × Json)) (compiled : CompiledRule) : Verdict :=
  if compiled.rule.isActive then
    match compiled.condition with
    | .malformed error => .malformed error
    | .parsed _ => .evaluated (compiled.evaluate tracing facts)
  else .inactive

def Verdict.isMatch : Verdict → Bool
  | .evaluated outcome => outcome.isMatch
  | _ => false

/-- Why a condition is indeterminate, in one text. -/
def reasons (findings : Condition.Findings) : String :=
  let missing := if findings.unresolved.isEmpty then []
    else ["未解析的事实: " ++ ", ".intercalate findings.unresolved]
  "; ".intercalate (missing ++ findings.problems.map Condition.Problem.message)

def Verdict.diagnostic? (ruleId : String) : Verdict → Option Diagnostic
  | .inactive => none
  | .malformed error =>
    some (.ofRule .conditionParseError ruleId error.toRuleError.message)
  | .evaluated outcome =>
    if outcome.truth = .indeterminate then
      some (.ofRule .indeterminateCondition ruleId (reasons outcome.findings))
    else none

/-- The steps that were taken for a candidate. -/
def Verdict.trace? : Verdict → Option (List Condition.TraceEntry)
  | .evaluated outcome => some outcome.findings.trace
  | _ => none

/-- Whether a rule does not come after another: a higher priority first, then the smaller id. -/
def ranksBefore (a b : CompiledRule) : Bool :=
  decide (b.rule.priority.toInt < a.rule.priority.toInt) ||
    (a.rule.priority == b.rule.priority && decide (a.id ≤ b.id))

def verdicts (tracing : Bool) (facts : List (String × Json)) (candidates : List CompiledRule) :
    List (CompiledRule × Verdict) :=
  candidates.map fun compiled => (compiled, judge tracing facts compiled)

/-- The rules that match, in rank order. -/
def matched (judged : List (CompiledRule × Verdict)) : List CompiledRule :=
  ((judged.filter fun entry => entry.2.isMatch).map Prod.fst).mergeSort ranksBefore

/-- The reports, in the order of the candidates. -/
def diagnostics (judged : List (CompiledRule × Verdict)) : List Diagnostic :=
  judged.filterMap fun entry => entry.2.diagnostic? entry.1.id

def traces (judged : List (CompiledRule × Verdict)) :
    List (String × List Condition.TraceEntry) :=
  judged.filterMap fun entry => entry.2.trace?.map fun trace => (entry.1.id, trace)

end Selection

end RuleBook
