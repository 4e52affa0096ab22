import RuleBook.Evaluation.Noted
import RuleBook.Rule.Compiled

/-! # Access decisions

Whatever their priorities, a matching rule of the override group grants; without one a rule of the
deny group denies; without one a rule of the require group grants; and where no rule decides the
caller's default does. Of one group the first matching rule is named.
-/

namespace RuleBook

namespace Access

def firstOf? (group : PriorityGroup) (matched : List CompiledRule) : Option CompiledRule :=
  matched.find? fun compiled => compiled.rule.accessConfig == some ⟨group⟩

/-- The report about a rule without an access group. -/
def diagnostic? (compiled : CompiledRule) : Option Diagnostic :=
  if compiled.rule.accessConfig.isNone then
    some (.ofRule .dataIntegrityWarning compiled.id "访问规则缺少 access 配置，已忽略")
  else none

def decidedBy (decision : Decision) (basis : DecisionBasis) (compiled : CompiledRule) :
    AccessOutcome :=
  ⟨decision, basis, some compiled.id, compiled.rule.message⟩

/-- The decision of the matching rules, or of the default. -/
def decide (matched : List CompiledRule) (default? : Option Decision) :
    Except RuleError AccessOutcome :=
  match firstOf? .override matched with
  | some compiled => .ok (decidedBy .granted .override compiled)
  | none =>
    match firstOf? .deny matched with
    | some compiled => .ok (decidedBy .denied .deny compiled)
    | none =>
      match firstOf? .require matched with
      | some compiled => .ok (decidedBy .granted .require compiled)
      | none =>
        match default? with
        | some decision => .ok ⟨decision, .default, none, none⟩
        | none => .error (.invalidRequest .missingDecision)

/-- Decide, and report the rules without an access group. -/
def resolve (matched : List CompiledRule) (default? : Option Decision) : Noted AccessOutcome :=
  ⟨decide matched default?, matched.filterMap diagnostic?⟩

end Access

end RuleBook
