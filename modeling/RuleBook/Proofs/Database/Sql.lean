import RuleBook.Database.Statement

/-! # The language of statements

Statements are sent as texts in a small part of SQL. A text is split into words and read as a
command: what it asks of which table, with the numbers of the places that hold its values.
-/

namespace RuleBook

namespace Sql

/-- What a column of an answer shows: a column of the table, or the same text in all rows. -/
inductive Shown where
  | column (name : String)
  | constant (text : String)
deriving DecidableEq

/-- A column of an answer. -/
structure Output where
  shown : Shown
  name : String
deriving DecidableEq

/-- What is asked of a row. -/
inductive Test where
  | equals (column : String) (place : Nat)
  | isNull (column : String)
deriving DecidableEq

/-- The rows of a table that pass all tests. -/
structure Selection where
  outputs : List Output
  table : String
  tests : List Test
deriving DecidableEq

/-- A command. The rows of several selections are put together, an insertion may leave the table as
it is when a key is taken, and values are given as columns with places. -/
inductive Command where
  | ping
  | begin
  | commit
  | rollback
  | select (selections : List Selection)
  | insert (table : String) (values : List (String × Nat)) (unlessTaken : Option String)
  | update (table : String) (values : List (String × Nat)) (tests : List Test)
  | delete (table : String) (tests : List Test)
deriving DecidableEq

/-- The words of a text. Brackets, commas and equals signs are words of their own. -/
def words (text : String) : List String :=
  let spaced := text.toList.flatMap fun c => if c ∈ ['(', ')', ',', '='] then [' ', c, ' '] else [c]
  ((spaced.splitOn ' ').filter fun word => !word.isEmpty).map String.ofList

def place? (word : String) : Option Nat :=
  match word.toList with
  | '$' :: digits => some (digits.foldl (fun n c => 10 * n + (c.toNat - '0'.toNat)) 0)
  | _ => none

def shown (word : String) : Shown :=
  match word.toList with
  | '\'' :: text => .constant (String.ofList text.dropLast)
  | _ => .column word

def output? : List String → Option Output
  | [word] => some ⟨shown word, word⟩
  | [word, "AS", name] => some ⟨shown word, name⟩
  | _ => none

def test? : List String → Option Test
  | [column, "=", place] => (place? place).map (.equals column)
  | [column, "IS", "NULL"] => some (.isNull column)
  | _ => none

def tests? : List String → Option (List Test)
  | [] => some []
  | "WHERE" :: words => (words.splitOn "AND").mapM test?
  | _ => none

def assignment? : List String → Option (String × Nat)
  | [column, "=", place] => (place? place).map (column, ·)
  | _ => none

/-- The words between brackets, without commas, and those behind them. -/
def bracketed? : List String → Option (List String × List String)
  | "(" :: words =>
    some ((words.takeWhile (· ≠ ")")).filter (· ≠ ","), (words.dropWhile (· ≠ ")")).drop 1)
  | _ => none

def selection? : List String → Option Selection
  | "ALL" :: words => selection? words
  | "SELECT" :: words =>
    match words.dropWhile (· ≠ "FROM") with
    | _ :: table :: tests => do
      return ⟨← ((words.takeWhile (· ≠ "FROM")).splitOn ",").mapM output?, table, ← tests? tests⟩
    | _ => none
  | _ => none

def insertion? (table : String) (words : List String) : Option Command := do
  let (columns, words) ← bracketed? words
  match words with
  | "VALUES" :: words =>
    let (places, words) ← bracketed? words
    let values := columns.zip (← places.mapM place?)
    match words with
    | [] => return .insert table values none
    | ["ON", "CONFLICT", "(", key, ")", "DO", "NOTHING"] => return .insert table values (some key)
    | _ => none
  | _ => none

def command? : List String → Option Command
  | ["SELECT", "1"] => some .ping
  | ["BEGIN"] => some .begin
  | ["COMMIT"] => some .commit
  | ["ROLLBACK"] => some .rollback
  | "INSERT" :: "INTO" :: table :: words => insertion? table words
  | "UPDATE" :: table :: "SET" :: words => do
    let values ← ((words.takeWhile (· ≠ "WHERE")).splitOn ",").mapM assignment?
    return .update table values (← tests? (words.dropWhile (· ≠ "WHERE")))
  | "DELETE" :: "FROM" :: table :: words => (tests? words).map (.delete table)
  | words => ((words.splitOn "UNION").mapM selection?).map .select

/-- The command that a text says. -/
def read? (text : String) : Option Command := command? (words text)

end Sql

section Texts

open Sql

/-- The command that the text of a query says. -/
def TableQuery.selections : TableQuery → List Selection
  | rules => [⟨["id", "domain", "name", "description", "message", "target_scope",
      "target_entity_type", "condition", "variables", "fact_keys", "effect", "priority",
      "is_active", "actor_type", "actor_id", "org_id", "created_at", "updated_at",
      "deleted_at"].map own, "policy_rules", [.isNull "deleted_at"]⟩]
  | accessConfigs => [⟨["rule_id", "priority_group"].map own, "rule_access_config", []⟩]
  | pricingConfigs => [⟨["rule_id", "stacking_behavior", "calculation_phase"].map own,
      "rule_pricing_config", []⟩]
  | targets => [
      ⟨[own "rule_id", ⟨.constant "product", "entity_type"⟩, ⟨.column "product_id", "entity_id"⟩],
        "rule_target_products", []⟩,
      ⟨[own "rule_id", ⟨.constant "product_variant", "'product_variant'"⟩, own "variant_id"],
        "rule_target_product_variants", []⟩,
      ⟨[own "rule_id", ⟨.constant "product_category", "'product_category'"⟩, own "category_id"],
        "rule_target_product_categories", []⟩,
      ⟨[own "rule_id", ⟨.constant "sales_channel", "'sales_channel'"⟩, own "channel_id"],
        "rule_target_sales_channels", []⟩]
  | tags => [⟨["rule_id", "tag"].map own, "rule_target_tags", []⟩]
  | links => [
      ⟨[own "rule_id", ⟨.constant "fee", "kind"⟩, ⟨.column "fee_id", "effect_id"⟩,
        own "priority"], "rule_fees", []⟩,
      ⟨[own "rule_id", ⟨.constant "promotion", "'promotion'"⟩, own "promotion_id",
        own "priority"], "rule_promotions", []⟩,
      ⟨[own "rule_id", ⟨.constant "tax_rate", "'tax_rate'"⟩, own "tax_rate_id",
        own "priority"], "rule_tax_rates", []⟩]
  | fees => [⟨["id", "name", "value", "is_active", "is_taxable", "created_at", "updated_at",
      "deleted_at"].map own, "fees", [.isNull "deleted_at"]⟩]
  | promotions => [⟨["id", "name", "value", "created_at", "updated_at", "deleted_at"].map own,
      "promotions", [.isNull "deleted_at"]⟩]
  | taxRates => [⟨["id", "name", "rate", "receipt_code", "created_at", "updated_at",
      "deleted_at"].map own, "tax_rates", [.isNull "deleted_at"]⟩]
where
  own (column : String) : Output := ⟨.column column, column⟩

theorem TableQuery.read?_sql (query : TableQuery) :
    read? query.sql = some (.select query.selections) := by
  -- A long text is taken apart into its characters before it is evaluated.
  cases query <;> rw [read?, words] <;> delta sql <;> dsimp only [-String.reduceAppend]
  all_goals
    repeat rw [String.toList_append]
    repeat rw [String.toList_ofList]
    decide +kernel

/-- The columns that the insertion of a rule gives values, with the places of the values. -/
def Statement.insertedColumns : List (String × Nat) :=
  [("id", 1), ("domain", 2), ("name", 3), ("description", 4), ("message", 5), ("target_scope", 6),
    ("target_entity_type", 7), ("condition", 8), ("variables", 9), ("fact_keys", 10),
    ("effect", 11), ("priority", 12), ("is_active", 13), ("actor_type", 14), ("actor_id", 15),
    ("org_id", 16), ("created_at", 17), ("updated_at", 17)]

/-- The columns that an update of a rule gives values, with the places of the values. -/
def Statement.updatedColumns : List (String × Nat) :=
  insertedColumns.filter fun value => value.1 ≠ "id" ∧ value.1 ≠ "created_at"

/-- The command that the text of a statement says. -/
def Statement.command : Statement → Command
  | ping => .ping
  | begin => .begin
  | commit => .commit
  | rollback => .rollback
  | query q => .select q.selections
  | insertRule _ => .insert "policy_rules" insertedColumns (some "id")
  | updateRule _ => .update "policy_rules" updatedColumns [.equals "id" 1, .isNull "deleted_at"]
  | markRuleDeleted .. => .update "policy_rules" [("deleted_at", 2), ("updated_at", 2)]
      [.equals "id" 1, .isNull "deleted_at"]
  | clearChildren table _ => .delete table.name [.equals "rule_id" 1]
  | insertChild _ row => .insert row.table.name (row.table.columns.zipIdx 1) none

private theorem ChildTable.read?_insertion (table : ChildTable) :
    read? table.insertion = some (.insert table.name (table.columns.zipIdx 1) none) := by
  cases table <;> decide +kernel

private theorem ChildTable.read?_clearing (table : ChildTable) :
    read? table.clearing = some (.delete table.name [.equals "rule_id" 1]) := by
  cases table <;> decide +kernel

theorem Statement.read?_sql (statement : Statement) :
    read? statement.sql = some statement.command := by
  cases statement with
  | query q => exact q.read?_sql
  | insertRule _ | updateRule _ | markRuleDeleted _ _ =>
    rw [command, read?, words]
    delta sql
    dsimp only [-String.reduceAppend]
    repeat rw [String.toList_append]
    repeat rw [String.toList_ofList]
    decide +kernel
  | clearChildren table _ => exact table.read?_clearing
  | insertChild _ row => exact row.table.read?_insertion
  | _ => decide +kernel

end Texts

end RuleBook
