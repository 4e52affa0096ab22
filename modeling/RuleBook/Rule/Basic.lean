import RuleBook.Condition.Reader
import RuleBook.Effect.Basic
import RuleBook.Rule.Actor
import RuleBook.Rule.Targets

/-! # Rules -/

namespace RuleBook

/-- What an access rule needs beside its condition. -/
structure AccessConfig where
  priorityGroup : PriorityGroup
deriving DecidableEq, Repr

namespace AccessConfig

def toJson (config : AccessConfig) : Json :=
  .object [("priorityGroup", Named.toJson config.priorityGroup)]

def decoder : Decoder AccessConfig :=
  .record ["priorityGroup"] fun entries =>
    AccessConfig.mk <$> entries.required "priorityGroup" Named.decoder

end AccessConfig

/-- What a pricing rule needs beside its condition. -/
structure PricingConfig where
  stackingBehavior : StackingBehavior
  calculationPhase : CalculationPhase
deriving DecidableEq, Repr

namespace PricingConfig

def toJson (config : PricingConfig) : Json :=
  .object [("calculationPhase", Named.toJson config.calculationPhase),
    ("stackingBehavior", Named.toJson config.stackingBehavior)]

def decoder : Decoder PricingConfig :=
  .record ["stackingBehavior", "calculationPhase"] fun entries =>
    PricingConfig.mk <$> entries.required "stackingBehavior" Named.decoder
      <*> entries.required "calculationPhase" Named.decoder

end PricingConfig

/-- A rule as it is authored: its condition is kept in the stored form. -/
structure Rule where
  id : String
  domain : String
  name : String
  description : Option String
  message : Option String
  targetScope : TargetScope
  targetEntityType : Option EntityType
  condition : Json
  bindings : List (String × Json)
  factKeys : Option (List String)
  effect : RuleEffect
  priority : Int32
  isActive : Bool
  accessConfig : Option AccessConfig
  pricingConfig : Option PricingConfig
  targets : RuleTargets
  tags : TextSet
  effects : List EffectLink
  actor : Actor

namespace Rule

/-- The effect of a rule that does not state one. -/
def defaultEffect (domain : String) : RuleEffect :=
  if domain = accessDomain then .boolean else .linked

/-- A rule for a whole domain, with nothing else set. -/
def ofCondition (id domain name : String) (condition : Json) : Rule where
  id := id
  domain := domain
  name := name
  description := none
  message := none
  targetScope := .universal
  targetEntityType := none
  condition := condition
  bindings := []
  factKeys := none
  effect := defaultEffect domain
  priority := 0
  isActive := true
  accessConfig := none
  pricingConfig := none
  targets := .empty
  tags := .empty
  effects := []
  actor := .system

/-- Aim the rule at one family of entities. -/
def forEntityType (rule : Rule) (family : EntityType) : Rule :=
  { rule with targetScope := .entityType, targetEntityType := some family }

/-- Aim the rule at entities, beside those it is aimed at already. -/
def forEntities (rule : Rule) (family : EntityType) (ids : List String) : Rule :=
  { rule with targetScope := .entities, targets := rule.targets.insertMany family ids }

def withVariable (rule : Rule) (name : String) (value : Json) : Rule :=
  { rule with bindings := Json.insertField name value rule.bindings }

/-- Link an effect behind those that are linked already. -/
def linkEffect (rule : Rule) (kind : EffectKind) (effectId : String) (priority : Int32) : Rule :=
  { rule with effects := rule.effects ++ [⟨kind, effectId, priority⟩] }

/-- What is wrong with the target of a rule. -/
inductive ScopeFault where
  | noEntityType
  | strayEntityType (scope : TargetScope) (family : EntityType)
deriving DecidableEq, Repr

def ScopeFault.message : ScopeFault → String
  | .noEntityType => "ENTITY_TYPE 范围的规则缺少 targetEntityType"
  | .strayEntityType scope family =>
    scope.shortName ++ " 范围的规则不应设置 targetEntityType=" ++ Named.name family

/-- A family of entities is set exactly for the scope of one family. -/
def scopeViolation? (rule : Rule) : Option ScopeFault :=
  match rule.targetScope, rule.targetEntityType with
  | .entityType, none => some .noEntityType
  | .entityType, some _ => none
  | scope, some family => some (.strayEntityType scope family)
  | _, none => none

/-- What a rule of its domain lacks. -/
inductive ConfigFault where
  | noAccessConfig
  | noPricingConfig
deriving DecidableEq, Repr

def ConfigFault.message : ConfigFault → String
  | .noAccessConfig => "访问规则缺少 access 配置"
  | .noPricingConfig => "定价规则缺少 pricing 配置"

/-- Access rules need a group, pricing rules a way of stacking. -/
def configViolation? (rule : Rule) : Option ConfigFault :=
  if rule.domain = accessDomain ∧ rule.accessConfig = none then some .noAccessConfig
  else if rule.domain = pricingDomain ∧ rule.pricingConfig = none then some .noPricingConfig
  else none

def toFields (rule : Rule) : List (String × Json) :=
  [("accessConfig", .ofOption AccessConfig.toJson rule.accessConfig),
    ("actor", rule.actor.toJson),
    ("condition", rule.condition),
    ("description", .ofOption .string rule.description),
    ("domain", .string rule.domain),
    ("effect", Named.toJson rule.effect),
    ("effects", .array (rule.effects.map EffectLink.toJson)),
    ("factKeys", .ofOption .ofStrings rule.factKeys),
    ("id", .string rule.id),
    ("isActive", .bool rule.isActive),
    ("message", .ofOption .string rule.message),
    ("name", .string rule.name),
    ("pricingConfig", .ofOption PricingConfig.toJson rule.pricingConfig),
    ("priority", .ofInt32 rule.priority),
    ("tags", rule.tags.toJson),
    ("targetEntityType", .ofOption Named.toJson rule.targetEntityType),
    ("targetScope", Named.toJson rule.targetScope),
    ("targets", rule.targets.toJson),
    ("variables", .object rule.bindings)]

def toJson (rule : Rule) : Json := .object rule.toFields

def decoder : Decoder Rule :=
  .record ["id", "domain", "name", "description", "message", "targetScope", "targetEntityType",
      "condition", "variables", "factKeys", "effect", "priority", "isActive", "accessConfig",
      "pricingConfig", "targets", "tags", "effects", "actor"] fun entries =>
    Rule.mk <$> entries.required "id" .text
      <*> entries.required "domain" .text
      <*> entries.required "name" .text
      <*> entries.default "description" (.nullable .text) none
      <*> entries.default "message" (.nullable .text) none
      <*> entries.required "targetScope" Named.decoder
      <*> entries.default "targetEntityType" (.nullable Named.decoder) none
      <*> entries.required "condition" .json
      <*> entries.default "variables" .fields []
      <*> entries.default "factKeys" (.nullable (.list .text)) none
      <*> entries.required "effect" Named.decoder
      <*> entries.default "priority" .int32 0
      <*> entries.default "isActive" .bool true
      <*> entries.default "accessConfig" (.nullable AccessConfig.decoder) none
      <*> entries.default "pricingConfig" (.nullable PricingConfig.decoder) none
      <*> entries.default "targets" RuleTargets.decoder .empty
      <*> entries.default "tags" TextSet.decoder .empty
      <*> entries.default "effects" (.list EffectLink.decoder) []
      <*> entries.default "actor" Actor.decoder .system

end Rule

end RuleBook
