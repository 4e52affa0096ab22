import RuleBook.Evaluation.Context
import RuleBook.Evaluation.Result
import RuleBook.Rule.Compiled

/-! # Targeting

The candidates of an evaluation are the rules of its domain that are aimed at the entity and share
a tag with the context, or have no tag. A rule whose target is inconsistent is left out and
reported.
-/

namespace RuleBook

namespace Targeting

/-- Whether the scope of a rule covers what the context is about. -/
def scopeMatches (rule : Rule) (context : EvaluationContext) : Bool :=
  match rule.targetScope with
  | .universal => true
  | .domain => true
  | .entityType =>
    match context.entity, rule.targetEntityType with
    | some entity, some family => entity.family == family
    | _, _ => false
  | .entities =>
    match context.entity with
    | some entity => rule.targets.contains entity
    | none => false

/-- Whether a rule has no tags or shares one with the context. -/
def tagsMatch (rule : Rule) (context : EvaluationContext) : Bool :=
  rule.tags.isEmpty || rule.tags.meets context.tags

def isCandidate (domain : String) (context : EvaluationContext) (rule : Rule) : Bool :=
  rule.domain == domain && rule.scopeViolation?.isNone && scopeMatches rule context &&
    tagsMatch rule context

/-- The report about a rule of the domain whose target is inconsistent. -/
def diagnostic? (domain : String) (rule : Rule) : Option Diagnostic :=
  if rule.domain = domain then
    rule.scopeViolation?.map fun fault => .ofRule .dataIntegrityWarning rule.id fault.message
  else none

/-- The candidates, in the order of the rules. -/
def candidates (domain : String) (context : EvaluationContext) (rules : List CompiledRule) :
    List CompiledRule :=
  rules.filter fun compiled => isCandidate domain context compiled.rule

/-- The reports, in the order of the rules. -/
def diagnostics (domain : String) (rules : List CompiledRule) : List Diagnostic :=
  rules.filterMap fun compiled => diagnostic? domain compiled.rule

end Targeting

end RuleBook
