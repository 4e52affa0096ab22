import RuleBook.Database.Fault
import RuleBook.Database.Statement

/-! # Rows by column

The database answers a query with rows whose columns have names. A row of a query is decoded from
the values of its columns, each of which has one type; only some admit `NULL`.
-/

namespace RuleBook

/-- A value as the database keeps it: its clock counts microseconds. -/
def Parameter.kept : Parameter → Parameter
  | time value => time value.wholeMicroseconds
  | value => value

abbrev Columns := List (String × Parameter)

namespace Columns

/-- A row as the database keeps it. -/
def kept (columns : Columns) : Columns := columns.map fun (name, value) => (name, value.kept)

variable (columns : Columns) (name : String)

def text? : Option String :=
  match columns.lookup name with
  | some (.text value) => some value
  | _ => none

def textOrNull? : Option (Option String) :=
  match columns.lookup name with
  | some .null => some none
  | some (.text value) => some (some value)
  | _ => none

def textsOrNull? : Option (Option (List String)) :=
  match columns.lookup name with
  | some .null => some none
  | some (.texts values) => some (some values)
  | _ => none

def number? : Option Int32 :=
  match columns.lookup name with
  | some (.number value) => some value
  | _ => none

def bool? : Option Bool :=
  match columns.lookup name with
  | some (.bool value) => some value
  | _ => none

def json? : Option Json :=
  match columns.lookup name with
  | some (.json value) => some value
  | _ => none

def time? : Option Instant :=
  match columns.lookup name with
  | some (.time value) => some value
  | _ => none

def timeOrNull? : Option (Option Instant) :=
  match columns.lookup name with
  | some .null => some none
  | some (.time value) => some (some value)
  | _ => none

end Columns

def RuleRow.ofColumns? (columns : Columns) : Option RuleRow := do
  return {
    id := ← columns.text? "id"
    domain := ← columns.text? "domain"
    name := ← columns.text? "name"
    description := ← columns.textOrNull? "description"
    message := ← columns.textOrNull? "message"
    targetScope := ← columns.text? "target_scope"
    targetEntityType := ← columns.textOrNull? "target_entity_type"
    condition := ← columns.json? "condition"
    bindings := ← columns.json? "variables"
    factKeys := ← columns.textsOrNull? "fact_keys"
    effect := ← columns.text? "effect"
    priority := ← columns.number? "priority"
    isActive := ← columns.bool? "is_active"
    actorType := ← columns.text? "actor_type"
    actorId := ← columns.textOrNull? "actor_id"
    orgId := ← columns.textOrNull? "org_id"
    createdAt := ← columns.time? "created_at"
    updatedAt := ← columns.time? "updated_at"
    deletedAt := ← columns.timeOrNull? "deleted_at" }

def AccessConfigRow.ofColumns? (columns : Columns) : Option AccessConfigRow := do
  return ⟨← columns.text? "rule_id", ← columns.text? "priority_group"⟩

def PricingConfigRow.ofColumns? (columns : Columns) : Option PricingConfigRow := do
  return ⟨← columns.text? "rule_id", ← columns.text? "stacking_behavior",
    ← columns.text? "calculation_phase"⟩

def TargetRow.ofColumns? (columns : Columns) : Option TargetRow := do
  return ⟨← columns.text? "rule_id", ← columns.text? "entity_type",
    ← columns.text? "entity_id"⟩

def TagRow.ofColumns? (columns : Columns) : Option TagRow := do
  return ⟨← columns.text? "rule_id", ← columns.text? "tag"⟩

def LinkRow.ofColumns? (columns : Columns) : Option LinkRow := do
  return ⟨← columns.text? "rule_id", ← columns.text? "kind",
    ← columns.text? "effect_id", ← columns.number? "priority"⟩

def FeeRow.ofColumns? (columns : Columns) : Option FeeRow := do
  return {
    id := ← columns.text? "id"
    name := ← columns.text? "name"
    value := ← columns.json? "value"
    isActive := ← columns.bool? "is_active"
    isTaxable := ← columns.bool? "is_taxable"
    createdAt := ← columns.time? "created_at"
    updatedAt := ← columns.time? "updated_at"
    deletedAt := ← columns.timeOrNull? "deleted_at" }

def PromotionRow.ofColumns? (columns : Columns) : Option PromotionRow := do
  return {
    id := ← columns.text? "id"
    name := ← columns.text? "name"
    value := ← columns.json? "value"
    createdAt := ← columns.time? "created_at"
    updatedAt := ← columns.time? "updated_at"
    deletedAt := ← columns.timeOrNull? "deleted_at" }

def TaxRateRow.ofColumns? (columns : Columns) : Option TaxRateRow := do
  return {
    id := ← columns.text? "id"
    name := ← columns.text? "name"
    rate := ← columns.json? "rate"
    receiptCode := ← columns.textOrNull? "receipt_code"
    createdAt := ← columns.time? "created_at"
    updatedAt := ← columns.time? "updated_at"
    deletedAt := ← columns.timeOrNull? "deleted_at" }

namespace TableQuery

/-- Decode a row of a query. -/
def ofColumns? : (query : TableQuery) → Columns → Option query.Row
  | rules => RuleRow.ofColumns?
  | accessConfigs => AccessConfigRow.ofColumns?
  | pricingConfigs => PricingConfigRow.ofColumns?
  | targets => TargetRow.ofColumns?
  | tags => TagRow.ofColumns?
  | links => LinkRow.ofColumns?
  | fees => FeeRow.ofColumns?
  | promotions => PromotionRow.ofColumns?
  | taxRates => TaxRateRow.ofColumns?

def name : TableQuery → String
  | rules => "rules"
  | accessConfigs => "access_configs"
  | pricingConfigs => "pricing_configs"
  | targets => "targets"
  | tags => "tags"
  | links => "links"
  | fees => "fees"
  | promotions => "promotions"
  | taxRates => "tax_rates"

/-- Decode all rows of a query. One that cannot be decoded spoils the answer. -/
def rowsOf (query : TableQuery) (answer : List Columns) :
    Except DatabaseFault (List query.Row) :=
  match answer.mapM query.ofColumns? with
  | some rows => .ok rows
  | none => .error (.undecodable query.name)

end TableQuery

end RuleBook
