import RuleBook.Data.TextSet
import RuleBook.Rule.Kinds

/-! # Entities and targets -/

namespace RuleBook

/-- An entity: its family and its id there. -/
structure EntityRef where
  family : EntityType
  id : String
deriving DecidableEq, Repr

namespace EntityRef

def toJson (entity : EntityRef) : Json :=
  .object [("entityId", .string entity.id), ("entityType", Named.toJson entity.family)]

def decoder : Decoder EntityRef :=
  .record ["entityType", "entityId"] fun entries =>
    EntityRef.mk <$> entries.required "entityType" Named.decoder
      <*> entries.required "entityId" .text

end EntityRef

/-- The entities that a rule is aimed at, family by family. -/
structure RuleTargets where
  products : TextSet
  variants : TextSet
  categories : TextSet
  salesChannels : TextSet
deriving DecidableEq

namespace RuleTargets

def empty : RuleTargets := ⟨.empty, .empty, .empty, .empty⟩

instance : Inhabited RuleTargets := ⟨empty⟩

def idsFor (targets : RuleTargets) : EntityType → TextSet
  | .product => targets.products
  | .productVariant => targets.variants
  | .productCategory => targets.categories
  | .salesChannel => targets.salesChannels

def insertMany (targets : RuleTargets) (family : EntityType) (ids : List String) : RuleTargets :=
  match family with
  | .product => { targets with products := targets.products.insertMany ids }
  | .productVariant => { targets with variants := targets.variants.insertMany ids }
  | .productCategory => { targets with categories := targets.categories.insertMany ids }
  | .salesChannel => { targets with salesChannels := targets.salesChannels.insertMany ids }

/-- Whether an entity is among the targets, in its own family. -/
def contains (targets : RuleTargets) (entity : EntityRef) : Bool :=
  (targets.idsFor entity.family).contains entity.id

def isEmpty (targets : RuleTargets) : Bool :=
  targets.products.isEmpty && targets.variants.isEmpty && targets.categories.isEmpty &&
    targets.salesChannels.isEmpty

def toJson (targets : RuleTargets) : Json :=
  .object [("categories", targets.categories.toJson), ("products", targets.products.toJson),
    ("salesChannels", targets.salesChannels.toJson), ("variants", targets.variants.toJson)]

def decoder : Decoder RuleTargets :=
  .record ["products", "variants", "categories", "salesChannels"] fun entries =>
    RuleTargets.mk <$> entries.default "products" TextSet.decoder .empty
      <*> entries.default "variants" TextSet.decoder .empty
      <*> entries.default "categories" TextSet.decoder .empty
      <*> entries.default "salesChannels" TextSet.decoder .empty

end RuleTargets

end RuleBook
