import RuleBook.Database.Columns
import RuleBook.Database.Tables

/-! # Rows as JSON

A row is an object from column names to values. A column that is left out is empty: a text without
characters, zero, a `null` where the column admits it, the start of 2024 for a time. A `null` is one
also where the column does not admit it, and then the row cannot be decoded.
-/

namespace RuleBook

namespace Row

/-- The time of a row that does not state one. -/
def defaultTime : Instant := ⟨1704067200, 0⟩

/-- How the value of a column is given, and what it is where it is left out. -/
structure Column where
  name : String
  decode : Decoder Parameter
  absent : Parameter

/-- A column of values of one type, or `null`. -/
def column {α : Type} (decode : Decoder α) (value : α → Parameter) (absent : Parameter)
    (name : String) : Column :=
  ⟨name, (Decoder.nullable decode).map fun held => (held.map value).getD .null, absent⟩

def text : String → Column := column .text .text (.text "")

def text? : String → Column := column .text .text .null

def texts? : String → Column := column (.list .text) .texts .null

def number : String → Column := column .int32 .number (.number 0)

def bool (absent : Bool) : String → Column := column .bool .bool (.bool absent)

def time : String → Column := column Instant.decoder .time (.time defaultTime)

def time? : String → Column := column Instant.decoder .time .null

/-- A column of JSON, where `null` is a value like others. -/
def json (name : String) : Column := ⟨name, Decoder.json.map .json, .json .null⟩

end Row

namespace TableQuery

open Row in
def columns : TableQuery → List Column
  | rules => [text "id", text "domain", text "name", text? "description", text? "message",
      text "target_scope", text? "target_entity_type", json "condition", json "variables",
      texts? "fact_keys", text "effect", number "priority", bool true "is_active",
      text "actor_type", text? "actor_id", text? "org_id", time "created_at", time "updated_at",
      time? "deleted_at"]
  | accessConfigs => [text "rule_id", text "priority_group"]
  | pricingConfigs => [text "rule_id", text "stacking_behavior", text "calculation_phase"]
  | targets => [text "rule_id", text "entity_type", text "entity_id"]
  | tags => [text "rule_id", text "tag"]
  | links => [text "rule_id", text "kind", text "effect_id", number "priority"]
  | fees => [text "id", text "name", json "value", bool true "is_active", bool false "is_taxable",
      time "created_at", time "updated_at", time? "deleted_at"]
  | promotions => [text "id", text "name", json "value", time "created_at", time "updated_at",
      time? "deleted_at"]
  | taxRates => [text "id", text "name", json "rate", text? "receipt_code", time "created_at",
      time "updated_at", time? "deleted_at"]

/-- Read the columns of a row of a query. -/
def columnsDecoder (query : TableQuery) : Decoder Columns :=
  .record (query.columns.map Row.Column.name) fun entries =>
    query.columns.mapA fun column =>
      (column.name, ·) <$> entries.default column.name column.decode column.absent

def decoder (query : TableQuery) : Decoder query.Row :=
  query.columnsDecoder.filterMap query.ofColumns?

/-- Read the rows of a query among those of all queries; there are none when they are left out. -/
def rowsIn (query : TableQuery) (entries : Entries) : Gathered (List query.Row) :=
  entries.default query.name (.list query.decoder) []

end TableQuery

namespace Tables

/-- Read the rows of the queries about rules. -/
def decoder : Decoder Tables :=
  .record ["rules", "access_configs", "pricing_configs", "targets", "tags", "links"] fun entries =>
    (fun rules accessConfigs pricingConfigs targets tags links =>
        { rules, accessConfigs, pricingConfigs, targets, tags, links : Tables })
      <$> TableQuery.rules.rowsIn entries <*> TableQuery.accessConfigs.rowsIn entries
      <*> TableQuery.pricingConfigs.rowsIn entries <*> TableQuery.targets.rowsIn entries
      <*> TableQuery.tags.rowsIn entries <*> TableQuery.links.rowsIn entries

end Tables

end RuleBook
