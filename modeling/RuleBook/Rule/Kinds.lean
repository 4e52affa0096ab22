import RuleBook.Error

/-! # Kinds

The finite vocabularies of rules: what a rule is aimed at, what it does, and how rules that apply
together are combined.
-/

namespace RuleBook

/-- The domain of rules that decide access. -/
def accessDomain : String := "access"

/-- The domain of rules that form prices. -/
def pricingDomain : String := "pricing"

/-- What a rule is aimed at. -/
inductive TargetScope where
  | universal
  | domain
  | entityType
  | entities
deriving DecidableEq, Repr

instance : Named TargetScope where
  label := "TargetScope"
  all := [.universal, .domain, .entityType, .entities]
  name
    | .universal => "UNIVERSAL"
    | .domain => "DOMAIN"
    | .entityType => "ENTITY_TYPE"
    | .entities => "ENTITIES"

/-- The short name of a scope inside messages. -/
def TargetScope.shortName : TargetScope → String
  | .universal => "Universal"
  | .domain => "Domain"
  | .entityType => "EntityType"
  | .entities => "Entities"

/-- The families of entities that rules can be aimed at. -/
inductive EntityType where
  | product
  | productVariant
  | productCategory
  | salesChannel
deriving DecidableEq, Repr

instance : Named EntityType where
  label := "EntityType"
  all := [.product, .productVariant, .productCategory, .salesChannel]
  name
    | .product => "product"
    | .productVariant => "product_variant"
    | .productCategory => "product_category"
    | .salesChannel => "sales_channel"

/-- The family with a given name, or the reason why there is none. -/
def EntityType.parse (text : String) : Except RuleError EntityType :=
  match Named.ofName? text with
  | some family => .ok family
  | none => .error (.invalidRequest (.unknownEntityType text))

/-- What a matching rule brings about: an answer, or the effects linked to it. -/
inductive RuleEffect where
  | boolean
  | linked
deriving DecidableEq, Repr

instance : Named RuleEffect where
  label := "RuleEffect"
  all := [.boolean, .linked]
  name
    | .boolean => "boolean"
    | .linked => "linked"

/-- The group of an access rule, in the order in which groups decide. -/
inductive PriorityGroup where
  | override
  | deny
  | require
deriving DecidableEq, Repr

instance : Named PriorityGroup where
  label := "PriorityGroup"
  all := [.override, .deny, .require]
  name
    | .override => "override"
    | .deny => "deny"
    | .require => "require"

/-- How the adjustment of a pricing rule joins those of other rules. -/
inductive StackingBehavior where
  | compound
  | sequential
  | max
deriving DecidableEq, Repr

instance : Named StackingBehavior where
  label := "StackingBehavior"
  all := [.compound, .sequential, .max]
  name
    | .compound => "compound"
    | .sequential => "sequential"
    | .max => "max"

/-- The phase of a pricing rule, in the order in which phases run. -/
inductive CalculationPhase where
  | preDiscount
  | postDiscount
deriving DecidableEq, Repr

instance : Named CalculationPhase where
  label := "CalculationPhase"
  all := [.preDiscount, .postDiscount]
  name
    | .preDiscount => "pre_discount"
    | .postDiscount => "post_discount"

/-- The kinds of effects that pricing rules link. -/
inductive EffectKind where
  | fee
  | promotion
  | taxRate
deriving DecidableEq, Repr

instance : Named EffectKind where
  label := "EffectKind"
  all := [.fee, .promotion, .taxRate]
  name
    | .fee => "fee"
    | .promotion => "promotion"
    | .taxRate => "tax_rate"

/-- The place of a kind in the order of kinds. -/
def EffectKind.rank : EffectKind → Nat
  | .fee => 0
  | .promotion => 1
  | .taxRate => 2

/-- The answer of the access domain. -/
inductive Decision where
  | granted
  | denied
deriving DecidableEq, Repr

instance : Named Decision where
  label := "Decision"
  all := [.granted, .denied]
  name
    | .granted => "GRANTED"
    | .denied => "DENIED"

/-- What an access decision rests on. -/
inductive DecisionBasis where
  | override
  | deny
  | require
  | default
deriving DecidableEq, Repr

instance : Named DecisionBasis where
  label := "DecisionBasis"
  all := [.override, .deny, .require, .default]
  name
    | .override => "override"
    | .deny => "deny"
    | .require => "require"
    | .default => "default"

/-- What is wrong with a single rule. -/
inductive DiagnosticKind where
  | conditionParseError
  | dataIntegrityWarning
  | danglingEffectReference
  | indeterminateCondition
deriving DecidableEq, Repr

instance : Named DiagnosticKind where
  label := "DiagnosticKind"
  all := [.conditionParseError, .dataIntegrityWarning, .danglingEffectReference,
    .indeterminateCondition]
  name
    | .conditionParseError => "CONDITION_PARSE_ERROR"
    | .dataIntegrityWarning => "DATA_INTEGRITY_WARNING"
    | .danglingEffectReference => "DANGLING_EFFECT_REFERENCE"
    | .indeterminateCondition => "INDETERMINATE_CONDITION"

end RuleBook
