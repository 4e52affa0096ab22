import RuleBook.Rule.Targets

/-! # What an evaluation is asked about -/

namespace RuleBook

/-- The entity and tags that rules are aimed at, the amount that prices start from, and the
decision where no access rule decides. -/
structure EvaluationContext where
  entity : Option EntityRef
  tags : TextSet
  baseAmount : Option Money
  defaultDecision : Option Decision
deriving DecidableEq

namespace EvaluationContext

def empty : EvaluationContext := ⟨none, .empty, none, none⟩

instance : Inhabited EvaluationContext := ⟨empty⟩

def toJson (context : EvaluationContext) : Json :=
  .object [("baseAmount", .ofOption Money.toJson context.baseAmount),
    ("defaultDecision", .ofOption Named.toJson context.defaultDecision),
    ("entity", .ofOption EntityRef.toJson context.entity),
    ("tags", context.tags.toJson)]

def decoder : Decoder EvaluationContext :=
  .record ["entity", "tags", "baseAmount", "defaultDecision"] fun entries =>
    EvaluationContext.mk <$> entries.default "entity" (.nullable EntityRef.decoder) none
      <*> entries.default "tags" TextSet.decoder .empty
      <*> entries.default "baseAmount" (.nullable Money.decoder) none
      <*> entries.default "defaultDecision" (.nullable Named.decoder) none

end EvaluationContext

end RuleBook
