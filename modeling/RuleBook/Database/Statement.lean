import RuleBook.Database.Row

/-! # Statements

What is sent to the rule database: each statement has one text and the values that are bound to its
places. A rule is written as its own row and, in tables of their own, the rows that belong to it.
-/

namespace RuleBook

/-- A value that is bound to a place of a statement. -/
inductive Parameter where
  | null
  | text (value : String)
  | texts (values : List String)
  | number (value : Int32)
  | bool (value : Bool)
  | json (value : Json)
  | time (value : Instant)

namespace Parameter

def ofText? (value : Option String) : Parameter := (value.map text).getD null

def toJson : Parameter → Json
  | null => .null
  | text value => .string value
  | texts values => .ofStrings values
  | number value => .ofInt32 value
  | bool value => .bool value
  | json value => value
  | time value => value.wholeMicroseconds.toJson

end Parameter

/-- The tables whose rows belong to rules, in the order in which they are emptied. -/
inductive ChildTable where
  | accessConfig
  | pricingConfig
  | products
  | variants
  | categories
  | salesChannels
  | tags
  | fees
  | promotions
  | taxRates
deriving DecidableEq, Repr

namespace ChildTable

/-- All tables whose rows belong to rules. -/
def all : List ChildTable :=
  [accessConfig, pricingConfig, products, variants, categories, salesChannels, tags, fees,
    promotions, taxRates]

def name : ChildTable → String
  | accessConfig => "rule_access_config"
  | pricingConfig => "rule_pricing_config"
  | products => "rule_target_products"
  | variants => "rule_target_product_variants"
  | categories => "rule_target_product_categories"
  | salesChannels => "rule_target_sales_channels"
  | tags => "rule_target_tags"
  | fees => "rule_fees"
  | promotions => "rule_promotions"
  | taxRates => "rule_tax_rates"

/-- The columns of a table. -/
def columns : ChildTable → List String
  | accessConfig => ["rule_id", "priority_group"]
  | pricingConfig => ["rule_id", "stacking_behavior", "calculation_phase"]
  | products => ["rule_id", "product_id"]
  | variants => ["rule_id", "variant_id"]
  | categories => ["rule_id", "category_id"]
  | salesChannels => ["rule_id", "channel_id"]
  | tags => ["rule_id", "tag"]
  | fees => ["rule_id", "fee_id", "priority"]
  | promotions => ["rule_id", "promotion_id", "priority"]
  | taxRates => ["rule_id", "tax_rate_id", "priority"]

def insertion (table : ChildTable) : String :=
  let places := (List.range table.columns.length).map fun index => "$" ++ toString (index + 1)
  "INSERT INTO " ++ table.name ++ " (" ++ ", ".intercalate table.columns ++ ") VALUES (" ++
    ", ".intercalate places ++ ")"

/-- The text that removes the rows of a rule from a table. -/
def clearing (table : ChildTable) : String := "DELETE FROM " ++ table.name ++ " WHERE rule_id = $1"

/-- The table of the targets of one family. -/
def ofFamily : EntityType → ChildTable
  | .product => products
  | .productVariant => variants
  | .productCategory => categories
  | .salesChannel => salesChannels

/-- The table of the links to one kind of effects. -/
def ofEffectKind : EffectKind → ChildTable
  | .fee => fees
  | .promotion => promotions
  | .taxRate => taxRates

end ChildTable

/-- A row that belongs to a rule, without the id of the rule. -/
inductive ChildRow where
  | access (config : AccessConfig)
  | pricing (config : PricingConfig)
  | target (family : EntityType) (entityId : String)
  | tag (tag : String)
  | link (link : EffectLink)
deriving DecidableEq, Repr

namespace ChildRow

def table : ChildRow → ChildTable
  | access _ => .accessConfig
  | pricing _ => .pricingConfig
  | target family _ => .ofFamily family
  | tag _ => .tags
  | link l => .ofEffectKind l.kind

/-- The values of a row after the id of its rule. -/
def values : ChildRow → List Parameter
  | access config => [.text (Named.name config.priorityGroup)]
  | pricing config =>
    [.text (Named.name config.stackingBehavior), .text (Named.name config.calculationPhase)]
  | target _ entityId => [.text entityId]
  | tag t => [.text t]
  | link l => [.text l.effectId, .number l.priority]

/-- What tells a row from the other rows of the same rule in its table, where a table has at most
one row for a rule nothing does. -/
def key : ChildRow → Option String
  | access _ => none
  | pricing _ => none
  | target _ entityId => some entityId
  | tag t => some t
  | link l => some l.effectId

/-- The rows that belong to a rule, in the order in which they are written. -/
def ofRule (rule : Rule) : List ChildRow :=
  (rule.accessConfig.map access).toList ++ (rule.pricingConfig.map pricing).toList ++
    (Named.all (α := EntityType)).flatMap (fun family =>
      (rule.targets.idsFor family).toList.map (target family)) ++
    rule.tags.toList.map tag ++ rule.effects.map link

end ChildRow

/-- The queries from which a snapshot is put together, in order. -/
inductive TableQuery where
  | rules
  | accessConfigs
  | pricingConfigs
  | targets
  | tags
  | links
  | fees
  | promotions
  | taxRates
deriving DecidableEq, Repr

namespace TableQuery

/-- The queries of a snapshot, in the order in which they are sent. -/
def all : List TableQuery :=
  [rules, accessConfigs, pricingConfigs, targets, tags, links, fees, promotions, taxRates]

abbrev Row : TableQuery → Type
  | rules => RuleRow
  | accessConfigs => AccessConfigRow
  | pricingConfigs => PricingConfigRow
  | targets => TargetRow
  | tags => TagRow
  | links => LinkRow
  | fees => FeeRow
  | promotions => PromotionRow
  | taxRates => TaxRateRow

/-- A row with its times as the database keeps them, in microseconds. -/
def stored : (query : TableQuery) → query.Row → query.Row
  | rules => RuleRow.inMicroseconds
  | fees => FeeRow.inMicroseconds
  | promotions => PromotionRow.inMicroseconds
  | taxRates => TaxRateRow.inMicroseconds
  | accessConfigs => id
  | pricingConfigs => id
  | targets => id
  | tags => id
  | links => id

/-- The text of a query. Rows that are marked as deleted are not asked for. -/
def sql : TableQuery → String
  | rules => "SELECT id, domain, name, description, message, target_scope, target_entity_type, " ++
      "condition, variables, fact_keys, effect, priority, is_active, actor_type, actor_id, " ++
      "org_id, created_at, updated_at, deleted_at FROM policy_rules WHERE deleted_at IS NULL"
  | accessConfigs => "SELECT rule_id, priority_group FROM rule_access_config"
  | pricingConfigs =>
    "SELECT rule_id, stacking_behavior, calculation_phase FROM rule_pricing_config"
  | targets => "SELECT rule_id, 'product' AS entity_type, product_id AS entity_id " ++
      "FROM rule_target_products UNION ALL SELECT rule_id, 'product_variant', variant_id " ++
      "FROM rule_target_product_variants UNION ALL " ++
      "SELECT rule_id, 'product_category', category_id FROM rule_target_product_categories " ++
      "UNION ALL SELECT rule_id, 'sales_channel', channel_id FROM rule_target_sales_channels"
  | tags => "SELECT rule_id, tag FROM rule_target_tags"
  | links => "SELECT rule_id, 'fee' AS kind, fee_id AS effect_id, priority FROM rule_fees " ++
      "UNION ALL SELECT rule_id, 'promotion', promotion_id, priority FROM rule_promotions " ++
      "UNION ALL SELECT rule_id, 'tax_rate', tax_rate_id, priority FROM rule_tax_rates"
  | fees => "SELECT id, name, value, is_active, is_taxable, created_at, updated_at, deleted_at " ++
      "FROM fees WHERE deleted_at IS NULL"
  | promotions => "SELECT id, name, value, created_at, updated_at, deleted_at FROM promotions " ++
      "WHERE deleted_at IS NULL"
  | taxRates => "SELECT id, name, rate, receipt_code, created_at, updated_at, deleted_at " ++
      "FROM tax_rates WHERE deleted_at IS NULL"

end TableQuery

/-- A statement. -/
inductive Statement where
  | ping
  | begin
  | commit
  | rollback
  | query (query : TableQuery)
  | insertRule (row : RuleRow)
  | updateRule (row : RuleRow)
  | markRuleDeleted (id : String) (now : Instant)
  | clearChildren (table : ChildTable) (ruleId : String)
  | insertChild (ruleId : String) (row : ChildRow)

namespace Statement

def sql : Statement → String
  | ping => "SELECT 1"
  | begin => "BEGIN"
  | commit => "COMMIT"
  | rollback => "ROLLBACK"
  | query q => q.sql
  | insertRule _ => "INSERT INTO policy_rules ( id, domain, name, description, message, " ++
      "target_scope, target_entity_type, condition, variables, fact_keys, effect, priority, " ++
      "is_active, actor_type, actor_id, org_id, created_at, updated_at ) VALUES ($1, $2, $3, " ++
      "$4, $5, $6, $7, $8, $9, $10, $11, $12, $13, $14, $15, $16, $17, $17) " ++
      "ON CONFLICT (id) DO NOTHING"
  | updateRule _ => "UPDATE policy_rules SET domain = $2, name = $3, description = $4, " ++
      "message = $5, target_scope = $6, target_entity_type = $7, condition = $8, " ++
      "variables = $9, fact_keys = $10, effect = $11, priority = $12, is_active = $13, " ++
      "actor_type = $14, actor_id = $15, org_id = $16, updated_at = $17 " ++
      "WHERE id = $1 AND deleted_at IS NULL"
  | markRuleDeleted .. => "UPDATE policy_rules SET deleted_at = $2, updated_at = $2 " ++
      "WHERE id = $1 AND deleted_at IS NULL"
  | clearChildren table _ => table.clearing
  | insertChild _ row => row.table.insertion

/-- The values of the columns of a rule that a write sets, the time of the write last. -/
def ruleParameters (row : RuleRow) : List Parameter :=
  [.text row.id, .text row.domain, .text row.name, .ofText? row.description,
    .ofText? row.message, .text row.targetScope, .ofText? row.targetEntityType,
    .json row.condition, .json row.bindings, (row.factKeys.map Parameter.texts).getD .null,
    .text row.effect, .number row.priority, .bool row.isActive, .text row.actorType,
    .ofText? row.actorId, .ofText? row.orgId, .time row.updatedAt]

/-- The values that are bound to a statement. -/
def parameters : Statement → List Parameter
  | insertRule row => ruleParameters row
  | updateRule row => ruleParameters row
  | markRuleDeleted id now => [.text id, .time now]
  | clearChildren _ ruleId => [.text ruleId]
  | insertChild ruleId row => .text ruleId :: row.values
  | _ => []

def toJson (statement : Statement) : Json :=
  .object [("params", .array (statement.parameters.map Parameter.toJson)),
    ("sql", .string statement.sql)]

end Statement

end RuleBook
