import Mathlib.Logic.Function.Basic
import RuleBook.Database.Columns
import RuleBook.Proofs.Database.Sql

/-! # Relations

What the texts of statements mean: a database that keeps the rows of its tables column by column,
under the names of the tables. Values are kept as they are bound, but for the precision of times. A
text that says nothing in the language of statements does nothing.
-/

namespace RuleBook

/-- The rows of the tables, by the names of the tables. -/
abbrev Relations := String → List Columns

namespace Columns

/-- The value in a column. -/
def value (row : Columns) (column : String) : Parameter := (row.lookup column).getD .null

/-- The row with other values in some of its columns. -/
def assign (row : Columns) (values : List (String × Parameter)) : Columns :=
  row.map fun (column, held) => (column, (values.lookup column).getD held)

end Columns

namespace Parameter

def isNull : Parameter → Bool
  | null => true
  | _ => false

/-- Whether two values are the same text. Nothing else is compared. -/
def isSameText : Parameter → Parameter → Bool
  | text a, text b => a == b
  | _, _ => false

end Parameter

namespace Sql

/-- The columns of the tables, in the order in which they are declared. -/
def declaredColumns : List (String × List String) :=
  [("policy_rules", ["id", "domain", "name", "description", "message", "target_scope",
      "target_entity_type", "condition", "variables", "fact_keys", "effect", "priority",
      "is_active", "actor_type", "actor_id", "org_id", "created_at", "updated_at", "deleted_at"]),
    ("rule_access_config", ["rule_id", "priority_group"]),
    ("rule_pricing_config", ["rule_id", "stacking_behavior", "calculation_phase"]),
    ("rule_target_products", ["rule_id", "product_id"]),
    ("rule_target_product_variants", ["rule_id", "variant_id"]),
    ("rule_target_product_categories", ["rule_id", "category_id"]),
    ("rule_target_sales_channels", ["rule_id", "channel_id"]),
    ("rule_target_tags", ["rule_id", "tag"]),
    ("fees", ["id", "name", "value", "is_active", "is_taxable", "created_at", "updated_at",
      "deleted_at"]),
    ("promotions", ["id", "name", "value", "created_at", "updated_at", "deleted_at"]),
    ("tax_rates", ["id", "name", "rate", "receipt_code", "created_at", "updated_at",
      "deleted_at"]),
    ("rule_fees", ["rule_id", "fee_id", "priority"]),
    ("rule_promotions", ["rule_id", "promotion_id", "priority"]),
    ("rule_tax_rates", ["rule_id", "tax_rate_id", "priority"])]

/-- A row of a table without values. -/
def blankRow (table : String) : Columns := ((declaredColumns.lookup table).getD []).map (·, .null)

section Values

variable (parameters : List Parameter)

/-- The value that is bound to a place; places are counted from one. -/
def bound (place : Nat) : Parameter := (parameters[place - 1]?).getD .null

/-- The values that columns are given. -/
def boundValues (values : List (String × Nat)) : List (String × Parameter) :=
  values.map fun (column, place) => (column, (bound parameters place).kept)

def Test.holds (row : Columns) : Test → Bool
  | equals column place => (row.value column).isSameText (bound parameters place)
  | isNull column => (row.value column).isNull

/-- Whether a row passes all tests. -/
def passes (tests : List Test) (row : Columns) : Bool := tests.all (Test.holds parameters row)

end Values

def Shown.value (row : Columns) : Shown → Parameter
  | column name => row.value name
  | constant text => .text text

/-- The rows of a selection, under the names that the columns of the answer have. -/
def Selection.rows (selection : Selection) (names : List String) (relations : Relations)
    (parameters : List Parameter) : List Columns :=
  ((relations selection.table).filter (passes parameters selection.tests)).map fun row =>
    names.zip (selection.outputs.map fun output => output.shown.value row)

/-- The rows of several selections. The first one names the columns. -/
def answer (selections : List Selection) (relations : Relations) (parameters : List Parameter) :
    List Columns :=
  let names := (selections.head?.map fun first => first.outputs.map Output.name).getD []
  selections.flatMap fun selection => selection.rows names relations parameters

/-- Carry out a command: the rows that it touches or yields, and the relations after it. -/
def Command.run (relations : Relations) (parameters : List Parameter) : Command → Nat × Relations
  | ping => (1, relations)
  | begin => (0, relations)
  | commit => (0, relations)
  | rollback => (0, relations)
  | select selections => ((answer selections relations parameters).length, relations)
  | insert table values unlessTaken =>
    let row := (blankRow table).assign (boundValues parameters values)
    let isTaken := unlessTaken.any fun key => (relations table).any fun held =>
      (held.value key).isSameText (row.value key)
    if isTaken then (0, relations)
    else (1, Function.update relations table (relations table ++ [row]))
  | update table values tests =>
    let change (row : Columns) : Columns :=
      if passes parameters tests row then row.assign (boundValues parameters values) else row
    ((relations table).countP (passes parameters tests),
      Function.update relations table ((relations table).map change))
  | delete table tests =>
    ((relations table).countP (passes parameters tests),
      Function.update relations table ((relations table).filter fun row =>
        !passes parameters tests row))

end Sql

namespace Relations

/-- Carry out a text with the values of its places. -/
def run (relations : Relations) (text : String) (parameters : List Parameter) : Nat × Relations :=
  match Sql.read? text with
  | some command => command.run relations parameters
  | none => (0, relations)

/-- The rows that the text of a query yields. -/
def select (relations : Relations) (text : String) : List Columns :=
  match Sql.read? text with
  | some (.select selections) => Sql.answer selections relations []
  | _ => []

/-- Carry out a statement as it is sent. -/
def effect (relations : Relations) (statement : Statement) : Nat × Relations :=
  relations.run statement.sql statement.parameters

end Relations

end RuleBook
