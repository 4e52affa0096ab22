import RuleBook.Evaluation.Engine
import RuleBook.Service.Failure

/-! # Forms

What callers send: a question, a question about access, and a rule. Lengths are counted in
characters.
-/

namespace RuleBook

/-- A limit on the length of a text field. -/
structure LengthLimit where
  field : String
  longest : Nat
  message : String
deriving DecidableEq, Repr

namespace LengthLimit

/-- The fault of a text that is empty or too long. -/
def fault? (limit : LengthLimit) (text : String) : Option FieldFault :=
  if text.isEmpty ∨ limit.longest < text.length then some ⟨limit.field, limit.message⟩ else none

def domain : LengthLimit := ⟨"domain", 64, "领域名称长度必须在1-64个字符之间"⟩

def ruleId : LengthLimit := ⟨"id", 128, "规则 ID 长度必须在1-128个字符之间"⟩

def ruleName : LengthLimit := ⟨"name", 200, "规则名称长度必须在1-200个字符之间"⟩

end LengthLimit

def FieldFault.refuse (faults : List FieldFault) : Except ServiceFailure Unit :=
  if faults.isEmpty then .ok () else .error (.invalid (report faults))

/-- A question, with a default decision beside that of its context. -/
structure QuestionForm where
  domain : String
  context : EvaluationContext
  facts : List (String × Json)
  defaultDecision : Option Decision

namespace QuestionForm

def validate (form : QuestionForm) : Except ServiceFailure Unit :=
  FieldFault.refuse (LengthLimit.domain.fault? form.domain).toList

/-- The question; the default decision of the form goes before that of the context. -/
def toQuestion (form : QuestionForm) : Question :=
  ⟨form.domain,
    { form.context with
      defaultDecision := form.defaultDecision <|> form.context.defaultDecision }, form.facts⟩

def decoder : Decoder QuestionForm :=
  .record ["domain", "context", "facts", "defaultDecision"] fun entries =>
    QuestionForm.mk <$> entries.required "domain" .text
      <*> entries.default "context" EvaluationContext.decoder .empty
      <*> entries.default "facts" .fields []
      <*> entries.optional "defaultDecision" Named.decoder

end QuestionForm

/-- A question about access; access is denied where no rule decides, unless it says otherwise. -/
structure AccessForm where
  context : EvaluationContext
  facts : List (String × Json)
  defaultDecision : Decision

namespace AccessForm

def toQuestion (form : AccessForm) : Question :=
  .ofAccess form.context form.facts form.defaultDecision

def decoder : Decoder AccessForm :=
  .record ["context", "facts", "defaultDecision"] fun entries =>
    AccessForm.mk <$> entries.default "context" EvaluationContext.decoder .empty
      <*> entries.default "facts" .fields []
      <*> entries.default "defaultDecision" Named.decoder .denied

end AccessForm

/-- A rule as it is sent, perhaps without an id or an effect. -/
structure RuleForm where
  id : Option String
  effect : Option RuleEffect
  content : Rule

namespace RuleForm

/-- The faults of the fields, in the order of their names. -/
def faults (form : RuleForm) : List FieldFault :=
  (LengthLimit.domain.fault? form.content.domain).toList ++
    (form.id.bind LengthLimit.ruleId.fault?).toList ++
    (LengthLimit.ruleName.fault? form.content.name).toList

def validate (form : RuleForm) : Except ServiceFailure Unit := FieldFault.refuse form.faults

/-- The rule under a given id, with the effect of its domain unless it states one. -/
def toRule (form : RuleForm) (id : String) : Rule :=
  { form.content with
    id := id
    effect := form.effect.getD (Rule.defaultEffect form.content.domain) }

def decoder : Decoder RuleForm :=
  .record ["id", "domain", "name", "description", "message", "targetScope", "targetEntityType",
      "condition", "variables", "factKeys", "effect", "priority", "isActive", "accessConfig",
      "pricingConfig", "targets", "tags", "effects", "actor"] fun entries =>
    (fun id domain name description message targetScope targetEntityType condition bindings
        factKeys effect priority isActive accessConfig pricingConfig targets tags effects actor =>
      ⟨id, effect, ⟨id.getD "", domain, name, description, message, targetScope, targetEntityType,
        condition, bindings, factKeys, effect.getD .boolean, priority, isActive, accessConfig,
        pricingConfig, targets, tags, effects, actor⟩⟩)
      <$> entries.optional "id" .text
      <*> entries.required "domain" .text
      <*> entries.required "name" .text
      <*> entries.optional "description" .text
      <*> entries.optional "message" .text
      <*> entries.default "targetScope" Named.decoder .universal
      <*> entries.optional "targetEntityType" Named.decoder
      <*> entries.required "condition" .json
      <*> entries.default "variables" .fields []
      <*> entries.optional "factKeys" (.list .text)
      <*> entries.optional "effect" Named.decoder
      <*> entries.default "priority" .int32 0
      <*> entries.default "isActive" .bool true
      <*> entries.optional "accessConfig" AccessConfig.decoder
      <*> entries.optional "pricingConfig" PricingConfig.decoder
      <*> entries.default "targets" RuleTargets.decoder .empty
      <*> entries.default "tags" TextSet.decoder .empty
      <*> entries.default "effects" (.list EffectLink.decoder) []
      <*> entries.default "actor" Actor.decoder .system

end RuleForm

end RuleBook
