import RuleBook.Effect.Basic

/-! # What an evaluation answers -/

namespace RuleBook

/-- An access decision, what it rests on, and the rule that decided. -/
structure AccessOutcome where
  decision : Decision
  basis : DecisionBasis
  decidingRuleId : Option String
  message : Option String
deriving DecidableEq, Repr

/-- The amount of one linked effect. -/
structure EffectLine where
  kind : EffectKind
  effectId : String
  priority : Int32
  amount : Money
deriving DecidableEq, Repr

/-- What one rule adds to a price; a rule that lost to a larger one is not applied. -/
structure RuleContribution where
  ruleId : String
  stackingBehavior : StackingBehavior
  adjustment : Money
  applied : Bool
  lines : List EffectLine
deriving DecidableEq, Repr

/-- One phase of a price: the ending amount is the starting amount, the applied adjustments, and
the floor adjustment that keeps it from falling too far. -/
structure PhaseBreakdown where
  phase : CalculationPhase
  startingAmount : Money
  endingAmount : Money
  contributions : List RuleContribution
  floorAdjustment : Option Money
deriving DecidableEq, Repr

/-- A price and how it was formed; it is partial when a linked effect could not be found. -/
structure PriceAdjustment where
  baseAmount : Money
  finalAmount : Money
  totalAdjustment : Money
  phases : List PhaseBreakdown
  isPartial : Bool
deriving DecidableEq, Repr

/-- The answer of a domain. -/
inductive EffectOutcome where
  | access (outcome : AccessOutcome)
  | pricing (adjustment : PriceAdjustment)
  | matchOnly
deriving DecidableEq, Repr

/-- What is wrong with a rule; it does not end the evaluation. -/
structure Diagnostic where
  kind : DiagnosticKind
  ruleId : Option String
  message : String
deriving DecidableEq, Repr

/-- The answer of an evaluation; it is stale when an earlier one stands in for it. -/
structure EvaluationResult where
  domain : String
  matchedRuleIds : List String
  outcome : EffectOutcome
  diagnostics : List Diagnostic
  stale : Bool
deriving DecidableEq, Repr

namespace AccessOutcome

def toFields (outcome : AccessOutcome) : List (String × Json) :=
  [("basis", Named.toJson outcome.basis),
    ("decidingRuleId", .ofOption .string outcome.decidingRuleId),
    ("decision", Named.toJson outcome.decision),
    ("message", .ofOption .string outcome.message)]

def toJson (outcome : AccessOutcome) : Json := .object outcome.toFields

def decoder : Decoder AccessOutcome :=
  .record ["decision", "basis", "decidingRuleId", "message"] fun entries =>
    AccessOutcome.mk <$> entries.required "decision" Named.decoder
      <*> entries.required "basis" Named.decoder
      <*> entries.optional "decidingRuleId" .text
      <*> entries.optional "message" .text

end AccessOutcome

namespace EffectLine

def toJson (line : EffectLine) : Json :=
  .object [("amount", line.amount.toJson), ("effectId", .string line.effectId),
    ("kind", Named.toJson line.kind), ("priority", .ofInt32 line.priority)]

def decoder : Decoder EffectLine :=
  .record ["kind", "effectId", "priority", "amount"] fun entries =>
    EffectLine.mk <$> entries.required "kind" Named.decoder <*> entries.required "effectId" .text
      <*> entries.required "priority" .int32 <*> entries.required "amount" Money.decoder

end EffectLine

namespace RuleContribution

def toJson (contribution : RuleContribution) : Json :=
  .object [("adjustment", contribution.adjustment.toJson),
    ("applied", .bool contribution.applied),
    ("lines", .array (contribution.lines.map EffectLine.toJson)),
    ("ruleId", .string contribution.ruleId),
    ("stackingBehavior", Named.toJson contribution.stackingBehavior)]

def decoder : Decoder RuleContribution :=
  .record ["ruleId", "stackingBehavior", "adjustment", "applied", "lines"] fun entries =>
    RuleContribution.mk <$> entries.required "ruleId" .text
      <*> entries.required "stackingBehavior" Named.decoder
      <*> entries.required "adjustment" Money.decoder
      <*> entries.required "applied" .bool
      <*> entries.required "lines" (.list EffectLine.decoder)

end RuleContribution

namespace PhaseBreakdown

/-- The JSON form; a missing floor adjustment is left out. -/
def toJson (breakdown : PhaseBreakdown) : Json :=
  let floor := match breakdown.floorAdjustment with
    | some amount => [("floorAdjustment", amount.toJson)]
    | none => []
  .object ([("contributions", .array (breakdown.contributions.map RuleContribution.toJson)),
    ("endingAmount", breakdown.endingAmount.toJson)] ++ floor ++
    [("phase", Named.toJson breakdown.phase), ("startingAmount", breakdown.startingAmount.toJson)])

def decoder : Decoder PhaseBreakdown :=
  .record ["phase", "startingAmount", "endingAmount", "contributions", "floorAdjustment"]
    fun entries =>
      PhaseBreakdown.mk <$> entries.required "phase" Named.decoder
        <*> entries.required "startingAmount" Money.decoder
        <*> entries.required "endingAmount" Money.decoder
        <*> entries.required "contributions" (.list RuleContribution.decoder)
        <*> entries.default "floorAdjustment" (.nullable Money.decoder) none

end PhaseBreakdown

namespace PriceAdjustment

def contribution? (price : PriceAdjustment) (ruleId : String) : Option RuleContribution :=
  (price.phases.flatMap (·.contributions)).find? (·.ruleId == ruleId)

def toFields (price : PriceAdjustment) : List (String × Json) :=
  [("baseAmount", price.baseAmount.toJson), ("finalAmount", price.finalAmount.toJson),
    ("partial", .bool price.isPartial),
    ("phases", .array (price.phases.map PhaseBreakdown.toJson)),
    ("totalAdjustment", price.totalAdjustment.toJson)]

def toJson (price : PriceAdjustment) : Json := .object price.toFields

def decoder : Decoder PriceAdjustment :=
  .record ["baseAmount", "finalAmount", "totalAdjustment", "phases", "partial"] fun entries =>
    PriceAdjustment.mk <$> entries.required "baseAmount" Money.decoder
      <*> entries.required "finalAmount" Money.decoder
      <*> entries.required "totalAdjustment" Money.decoder
      <*> entries.required "phases" (.list PhaseBreakdown.decoder)
      <*> entries.required "partial" .bool

end PriceAdjustment

namespace EffectOutcome

/-- The kinds of outcomes. -/
inductive Kind where
  | access
  | pricing
  | matchOnly
deriving DecidableEq, Repr

instance : Named Kind where
  label := "EffectOutcome"
  all := [.access, .pricing, .matchOnly]
  name
    | .access => "access"
    | .pricing => "pricing"
    | .matchOnly => "match_only"

def kind : EffectOutcome → Kind
  | access _ => .access
  | pricing _ => .pricing
  | matchOnly => .matchOnly

/-- The fields of the JSON form beside the kind. -/
def toFields : EffectOutcome → List (String × Json)
  | access outcome => outcome.toFields
  | pricing price => price.toFields
  | matchOnly => []

/-- The JSON form: the fields of the answer and the kind among them. -/
def toJson (outcome : EffectOutcome) : Json :=
  .object (Json.insertField "kind" (Named.toJson outcome.kind) outcome.toFields)

def decoder : Decoder EffectOutcome :=
  .tagged "kind" (Named.ofName? (α := Kind)) fun
    | .access => AccessOutcome.decoder.map access
    | .pricing => PriceAdjustment.decoder.map pricing
    | .matchOnly => .noFields matchOnly

end EffectOutcome

namespace Diagnostic

def ofRule (kind : DiagnosticKind) (ruleId message : String) : Diagnostic :=
  ⟨kind, some ruleId, message⟩

def toJson (diagnostic : Diagnostic) : Json :=
  .object [("kind", Named.toJson diagnostic.kind), ("message", .string diagnostic.message),
    ("ruleId", .ofOption .string diagnostic.ruleId)]

def decoder : Decoder Diagnostic :=
  .record ["kind", "ruleId", "message"] fun entries =>
    Diagnostic.mk <$> entries.required "kind" Named.decoder <*> entries.optional "ruleId" .text
      <*> entries.required "message" .text

end Diagnostic

namespace EvaluationResult

/-- The access decision, in the access domain. -/
def decision? (result : EvaluationResult) : Option Decision :=
  match result.outcome with
  | .access outcome => some outcome.decision
  | _ => none

def price? (result : EvaluationResult) : Option PriceAdjustment :=
  match result.outcome with
  | .pricing price => some price
  | _ => none

/-- Whether the answer is a partial price. -/
def isPartial (result : EvaluationResult) : Bool := (result.price?.map (·.isPartial)).getD false

/-- Whether a diagnostic of a kind concerns a rule. -/
def hasDiagnostic (result : EvaluationResult) (kind : DiagnosticKind) (ruleId : String) : Bool :=
  result.diagnostics.any fun diagnostic =>
    diagnostic.kind == kind && diagnostic.ruleId == some ruleId

/-- One word for the answer, as evaluations are counted. -/
def label (result : EvaluationResult) : String :=
  match result.outcome with
  | .access outcome => if outcome.decision = .granted then "granted" else "denied"
  | .pricing price => if price.isPartial then "partial" else "priced"
  | .matchOnly => "matched"

def toJson (result : EvaluationResult) : Json :=
  .object [("diagnostics", .array (result.diagnostics.map Diagnostic.toJson)),
    ("domain", .string result.domain),
    ("matchedRuleIds", .ofStrings result.matchedRuleIds),
    ("outcome", result.outcome.toJson),
    ("stale", .bool result.stale)]

def decoder : Decoder EvaluationResult :=
  .record ["domain", "matchedRuleIds", "outcome", "diagnostics", "stale"] fun entries =>
    EvaluationResult.mk <$> entries.required "domain" .text
      <*> entries.required "matchedRuleIds" (.list .text)
      <*> entries.required "outcome" EffectOutcome.decoder
      <*> entries.required "diagnostics" (.list Diagnostic.decoder)
      <*> entries.default "stale" .bool false

end EvaluationResult

end RuleBook
