import RuleBook.Rule.Audited
import RuleBook.Rule.Basic

/-! # Rows

The rows of the rule database as they are stored: kinds are texts, conditions and amounts are JSON.
A row of rules or effects is turned into the record that it stands for, unless one of its texts
stands for nothing.
-/

namespace RuleBook

/-- The row of a rule, without the rows of other tables that belong to it. -/
structure RuleRow where
  id : String
  domain : String
  name : String
  description : Option String
  message : Option String
  targetScope : String
  targetEntityType : Option String
  condition : Json
  bindings : Json
  factKeys : Option (List String)
  effect : String
  priority : Int32
  isActive : Bool
  actorType : String
  actorId : Option String
  orgId : Option String
  createdAt : Instant
  updatedAt : Instant
  deletedAt : Option Instant

/-- The access group of a rule. -/
structure AccessConfigRow where
  ruleId : String
  priorityGroup : String
deriving DecidableEq, Repr

/-- The way a rule enters prices. -/
structure PricingConfigRow where
  ruleId : String
  stackingBehavior : String
  calculationPhase : String
deriving DecidableEq, Repr

/-- An entity that a rule is aimed at. -/
structure TargetRow where
  ruleId : String
  entityType : String
  entityId : String
deriving DecidableEq, Repr

/-- A tag of a rule. -/
structure TagRow where
  ruleId : String
  tag : String
deriving DecidableEq, Repr

/-- The link of a rule to an effect. -/
structure LinkRow where
  ruleId : String
  kind : String
  effectId : String
  priority : Int32
deriving DecidableEq, Repr

/-- The row of a fee. -/
structure FeeRow where
  id : String
  name : String
  value : Json
  isActive : Bool
  isTaxable : Bool
  createdAt : Instant
  updatedAt : Instant
  deletedAt : Option Instant

/-- The row of a promotion. -/
structure PromotionRow where
  id : String
  name : String
  value : Json
  createdAt : Instant
  updatedAt : Instant
  deletedAt : Option Instant

/-- The row of a tax rate. -/
structure TaxRateRow where
  id : String
  name : String
  rate : Json
  receiptCode : Option String
  createdAt : Instant
  updatedAt : Instant
  deletedAt : Option Instant

namespace Actor

/-- The id that a row keeps of an author. -/
def actorId? : Actor → Option String
  | user userId _ => some userId
  | _ => none

/-- The organisation that a row keeps of an author. -/
def orgId? : Actor → Option String
  | system => none
  | user _ orgId => some orgId
  | apiToken orgId => some orgId

/-- The author that the columns of a row stand for. -/
def ofColumns (kind : String) (actorId orgId : Option String) : Except RuleError Actor :=
  match Named.ofName? (α := Kind) kind, actorId, orgId with
  | some .system, _, _ => .ok system
  | some .user, some userId, some orgId => (user userId orgId).complete
  | some .apiToken, _, some orgId => (apiToken orgId).complete
  | _, _, _ => .error (.invalidRequest (.incompleteAuthorColumns kind))

end Actor

namespace RuleRow

/-- The row of a rule that is written at some time. -/
def ofRule (rule : Rule) (now : Instant) : RuleRow where
  id := rule.id
  domain := rule.domain
  name := rule.name
  description := rule.description
  message := rule.message
  targetScope := Named.name rule.targetScope
  targetEntityType := rule.targetEntityType.map Named.name
  condition := rule.condition
  bindings := .object rule.bindings
  factKeys := rule.factKeys
  effect := Named.name rule.effect
  priority := rule.priority
  isActive := rule.isActive
  actorType := Named.name rule.actor.kind
  actorId := rule.actor.actorId?
  orgId := rule.actor.orgId?
  createdAt := now
  updatedAt := now
  deletedAt := none

/-- The family of entities in a row, if there is one. -/
def entityType? (row : RuleRow) : Except RuleError (Option EntityType) :=
  match row.targetEntityType with
  | none => .ok none
  | some text => (EntityType.parse text).map some

/-- The rule that a row stands for, with nothing from other tables. -/
def toRule (row : RuleRow) : Except RuleError (Audited Rule) := do
  let targetEntityType ← row.entityType?
  let targetScope ← Named.parse row.targetScope
  let effect ← Named.parse row.effect
  let actor ← Actor.ofColumns row.actorType row.actorId row.orgId
  let rule : Rule :=
    { id := row.id
      domain := row.domain
      name := row.name
      description := row.description
      message := row.message
      targetScope, targetEntityType
      condition := row.condition
      bindings := row.bindings.fields?.getD []
      factKeys := row.factKeys
      effect
      priority := row.priority
      isActive := row.isActive
      accessConfig := none
      pricingConfig := none
      targets := .empty
      tags := .empty
      effects := []
      actor }
  return ⟨rule, row.createdAt, row.updatedAt, row.deletedAt⟩

end RuleRow

namespace AccessConfigRow

def toConfig? (row : AccessConfigRow) : Option AccessConfig :=
  (Named.ofName? row.priorityGroup).map AccessConfig.mk

end AccessConfigRow

namespace PricingConfigRow

def toConfig? (row : PricingConfigRow) : Option PricingConfig := do
  return ⟨← Named.ofName? row.stackingBehavior, ← Named.ofName? row.calculationPhase⟩

end PricingConfigRow

namespace TargetRow

def toEntity? (row : TargetRow) : Option EntityRef :=
  (Named.ofName? row.entityType).map fun family => ⟨family, row.entityId⟩

end TargetRow

namespace LinkRow

def toLink? (row : LinkRow) : Option EffectLink :=
  (Named.ofName? row.kind).map fun kind => ⟨kind, row.effectId, row.priority⟩

end LinkRow

/-- The row with its times as a clock of microseconds keeps them. -/
def RuleRow.inMicroseconds (row : RuleRow) : RuleRow :=
  { row with
    createdAt := row.createdAt.wholeMicroseconds
    updatedAt := row.updatedAt.wholeMicroseconds
    deletedAt := row.deletedAt.map Instant.wholeMicroseconds }

def FeeRow.inMicroseconds (row : FeeRow) : FeeRow :=
  { row with
    createdAt := row.createdAt.wholeMicroseconds
    updatedAt := row.updatedAt.wholeMicroseconds
    deletedAt := row.deletedAt.map Instant.wholeMicroseconds }

def PromotionRow.inMicroseconds (row : PromotionRow) : PromotionRow :=
  { row with
    createdAt := row.createdAt.wholeMicroseconds
    updatedAt := row.updatedAt.wholeMicroseconds
    deletedAt := row.deletedAt.map Instant.wholeMicroseconds }

def TaxRateRow.inMicroseconds (row : TaxRateRow) : TaxRateRow :=
  { row with
    createdAt := row.createdAt.wholeMicroseconds
    updatedAt := row.updatedAt.wholeMicroseconds
    deletedAt := row.deletedAt.map Instant.wholeMicroseconds }

/-- The fee that a row stands for, unless its amount is malformed. -/
def FeeRow.toEffect? (row : FeeRow) : Option (Audited LinkedEffect) := do
  let value ← AdjustmentValue.decoder.ofJson? row.value
  return ⟨.fee ⟨row.id, row.name, value, row.isActive, row.isTaxable⟩, row.createdAt,
    row.updatedAt, row.deletedAt⟩

/-- The promotion that a row stands for, unless its amount is malformed. -/
def PromotionRow.toEffect? (row : PromotionRow) : Option (Audited LinkedEffect) := do
  let value ← AdjustmentValue.decoder.ofJson? row.value
  return ⟨.promotion ⟨row.id, row.name, value⟩, row.createdAt, row.updatedAt, row.deletedAt⟩

/-- The tax rate that a row stands for, unless its rate is malformed. -/
def TaxRateRow.toEffect? (row : TaxRateRow) : Option (Audited LinkedEffect) := do
  let rate ← Rate.decoder.ofJson? row.rate
  return ⟨.taxRate ⟨row.id, row.name, rate, row.receiptCode⟩, row.createdAt, row.updatedAt,
    row.deletedAt⟩

end RuleBook
