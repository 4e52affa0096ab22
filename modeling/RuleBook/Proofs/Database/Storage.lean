import RuleBook.Proofs.Database.Effects
import RuleBook.Proofs.Database.Relations

/-! # Records in columns

The relations that hold records: every row is a row of columns in the table of its kind. The texts
of statements do to these relations what the statements do to the records, and what the texts of
queries yield is decoded to the rows that the queries select.
-/

namespace RuleBook

section Encoding

namespace Parameter

def ofTime? (value : Option Instant) : Parameter := (value.map time).getD null

end Parameter

def RuleRow.columns (row : RuleRow) : Columns :=
  Columns.kept [("id", .text row.id), ("domain", .text row.domain), ("name", .text row.name),
    ("description", .ofText? row.description), ("message", .ofText? row.message),
    ("target_scope", .text row.targetScope), ("target_entity_type", .ofText? row.targetEntityType),
    ("condition", .json row.condition), ("variables", .json row.bindings),
    ("fact_keys", (row.factKeys.map Parameter.texts).getD .null), ("effect", .text row.effect),
    ("priority", .number row.priority), ("is_active", .bool row.isActive),
    ("actor_type", .text row.actorType), ("actor_id", .ofText? row.actorId),
    ("org_id", .ofText? row.orgId), ("created_at", .time row.createdAt),
    ("updated_at", .time row.updatedAt), ("deleted_at", .ofTime? row.deletedAt)]

def FeeRow.columns (row : FeeRow) : Columns :=
  Columns.kept [("id", .text row.id), ("name", .text row.name), ("value", .json row.value),
    ("is_active", .bool row.isActive), ("is_taxable", .bool row.isTaxable),
    ("created_at", .time row.createdAt), ("updated_at", .time row.updatedAt),
    ("deleted_at", .ofTime? row.deletedAt)]

def PromotionRow.columns (row : PromotionRow) : Columns :=
  Columns.kept [("id", .text row.id), ("name", .text row.name), ("value", .json row.value),
    ("created_at", .time row.createdAt), ("updated_at", .time row.updatedAt),
    ("deleted_at", .ofTime? row.deletedAt)]

def TaxRateRow.columns (row : TaxRateRow) : Columns :=
  Columns.kept [("id", .text row.id), ("name", .text row.name), ("rate", .json row.rate),
    ("receipt_code", .ofText? row.receiptCode), ("created_at", .time row.createdAt),
    ("updated_at", .time row.updatedAt), ("deleted_at", .ofTime? row.deletedAt)]

/-- The columns of a row that belongs to a rule. -/
def ChildRow.columnsOf (ruleId : String) (row : ChildRow) : Columns :=
  ("rule_id", .text ruleId) :: match row with
    | access config => [("priority_group", .text (Named.name config.priorityGroup))]
    | pricing config =>
      [("stacking_behavior", .text (Named.name config.stackingBehavior)),
        ("calculation_phase", .text (Named.name config.calculationPhase))]
    | target .product id => [("product_id", .text id)]
    | target .productVariant id => [("variant_id", .text id)]
    | target .productCategory id => [("category_id", .text id)]
    | target .salesChannel id => [("channel_id", .text id)]
    | tag text => [("tag", .text text)]
    | link ⟨.fee, id, priority⟩ => [("fee_id", .text id), ("priority", .number priority)]
    | link ⟨.promotion, id, priority⟩ =>
      [("promotion_id", .text id), ("priority", .number priority)]
    | link ⟨.taxRate, id, priority⟩ => [("tax_rate_id", .text id), ("priority", .number priority)]

/-- The relations that hold records. -/
def Records.relations (records : Records) : Relations := fun table =>
  if table = "policy_rules" then records.rules.map RuleRow.columns
  else if table = "fees" then records.fees.map FeeRow.columns
  else if table = "promotions" then records.promotions.map PromotionRow.columns
  else if table = "tax_rates" then records.taxRates.map TaxRateRow.columns
  else (records.children.filter fun child => child.2.table.name == table).map fun child =>
    child.2.columnsOf child.1

end Encoding

section Tables

private theorem ChildTable.name_inj {a b : ChildTable} : a.name = b.name ↔ a = b := by
  constructor
  · cases a <;> cases b <;> simp [name]
  · rintro rfl
    rfl

namespace Records

variable (records : Records)

theorem relations_rules : records.relations "policy_rules" = records.rules.map RuleRow.columns :=
  rfl

theorem relations_children (table : ChildTable) : records.relations table.name =
    (records.children.filter fun child => child.2.table == table).map fun child =>
      child.2.columnsOf child.1 := by
  have held (child : String × ChildRow) :
      (child.2.table.name == table.name) = (child.2.table == table) := by
    rw [Bool.eq_iff_iff, beq_iff_eq, beq_iff_eq, ChildTable.name_inj]
  rw [← funext held]
  cases table <;> rfl

/-- Other rows of rules are held in the table of rules. -/
theorem update_rules (rules : List RuleRow) :
    Function.update records.relations "policy_rules" (rules.map RuleRow.columns) =
      { records with rules := rules }.relations := by
  funext table
  by_cases rulesTable : table = "policy_rules"
  · rw [rulesTable, Function.update_self, relations_rules]
  · rw [Function.update_of_ne rulesTable]
    simp only [relations, if_neg rulesTable]

/-- Other rows of one table that belong to rules are held in that table. -/
theorem update_children {table : ChildTable} {children : List (String × ChildRow)}
    (others : ∀ name, name ≠ table.name →
      (children.filter fun child => child.2.table.name == name) =
        records.children.filter fun child => child.2.table.name == name) :
    Function.update records.relations table.name
      ((children.filter fun child => child.2.table == table).map fun child =>
        child.2.columnsOf child.1) =
      { records with children := children }.relations := by
  funext name
  by_cases own : name = table.name
  · rw [own, Function.update_self, relations_children]
  · rw [Function.update_of_ne own]
    simp only [relations, others name own]

end Records

end Tables

section Writing

open Sql

/-- The text of a statement does to the relations that hold records what the statement does to the
records. -/
def Statement.Faithful (statement : Statement) : Prop :=
  ∀ records : Records, records.relations.effect statement =
    ((records.effect statement).1, (records.effect statement).2.relations)

theorem Relations.effect_eq (relations : Relations) (statement : Statement) :
    relations.effect statement = statement.command.run relations statement.parameters := by
  rw [effect, run, Statement.read?_sql]

/-- The row that an insertion adds is that of the rule. -/
theorem RuleRow.assign_insertion (rule : Rule) (now : Instant) :
    (blankRow "policy_rules").assign
      (boundValues (Statement.ruleParameters (ofRule rule now)) Statement.insertedColumns) =
        (ofRule rule now).columns := rfl

private theorem RuleRow.assign_update {held row : RuleRow} (same : held.id = row.id) :
    held.columns.assign (boundValues (Statement.ruleParameters row) Statement.updatedColumns) =
      columns { row with createdAt := held.createdAt, deletedAt := held.deletedAt } := by
  simp only [columns, same]
  rfl

private theorem RuleRow.assign_mark (held : RuleRow) (id : String) (now : Instant) :
    held.columns.assign (boundValues [.text id, .time now] [("deleted_at", 2), ("updated_at", 2)]) =
      columns { held with deletedAt := some now, updatedAt := now } := rfl

/-- The tests of an update look for the row under an id that is not marked as deleted. -/
theorem RuleRow.passes_columns (row : RuleRow) (id : String) (rest : List Parameter) :
    passes (.text id :: rest) [.equals "id" 1, .isNull "deleted_at"] row.columns =
      row.isLiveUnder id := by
  have marked : (Parameter.ofTime? row.deletedAt).kept.isNull = row.deletedAt.isNone := by
    cases row.deletedAt <;> rfl
  show ((row.id == id) && ((Parameter.ofTime? row.deletedAt).kept.isNull && true)) = _
  rw [marked, Bool.and_true, isLiveUnder]

/-- An update of live rows changes the rows of rules one by one. -/
theorem Statement.faithful_update {statement : Statement} {id : String} {rest : List Parameter}
    {values : List (String × Nat)} {change : RuleRow → RuleRow}
    (command : statement.command =
      .update "policy_rules" values [.equals "id" 1, .isNull "deleted_at"])
    (parameters : statement.parameters = .text id :: rest)
    (effect : ∀ records : Records, records.effect statement = records.changeLive id change)
    (assigned : ∀ held, held.isLiveUnder id = true →
      held.columns.assign (boundValues statement.parameters values) = (change held).columns) :
    statement.Faithful := by
  intro records
  rw [Relations.effect_eq, command, effect, Command.run, records.relations_rules, parameters]
  refine Prod.ext ?_ ?_
  · simp only [Records.changeLive, List.countP_map, Function.comp_def, RuleRow.passes_columns]
  · refine (congrArg (Function.update records.relations "policy_rules") ?_).trans
      (records.update_rules _)
    simp only [List.map_map, Function.comp_def, RuleRow.passes_columns]
    refine List.map_congr_left fun held _ => ?_
    by_cases live : held.isLiveUnder id
    · simp only [live, if_true, ← parameters, assigned held live]
    · simp [live]

theorem Statement.faithful_updateRule (row : RuleRow) : (updateRule row).Faithful :=
  faithful_update rfl rfl (fun _ => rfl) fun _ live =>
    RuleRow.assign_update (RuleRow.isLiveUnder_iff.mp live).1

theorem Statement.faithful_markRuleDeleted (id : String) (now : Instant) :
    (markRuleDeleted id now).Faithful :=
  faithful_update rfl rfl (fun _ => rfl) fun held _ => RuleRow.assign_mark held id now

/-- A new row of rules is added under its id, unless the id is taken. -/
theorem Statement.faithful_insertRule (rule : Rule) (now : Instant) :
    (insertRule (.ofRule rule now)).Faithful := by
  intro records
  have taken : (records.relations "policy_rules").any (fun held => (held.value "id").isSameText
      ((RuleRow.ofRule rule now).columns.value "id")) =
        records.rules.any fun held => held.id == (RuleRow.ofRule rule now).id := by
    rw [records.relations_rules, List.any_map]
    rfl
  rw [Relations.effect_eq]
  simp only [command, Command.run, parameters, RuleRow.assign_insertion, Option.any_some, taken,
    Records.effect]
  split
  · rfl
  · refine Prod.ext rfl ?_
    refine (congrArg (Function.update records.relations "policy_rules") ?_).trans
      (records.update_rules _)
    rw [records.relations_rules, List.map_append]
    rfl

theorem Statement.faithful_insertChild (ruleId : String) (row : ChildRow) :
    (insertChild ruleId row).Faithful := by
  intro records
  have assigned : (blankRow row.table.name).assign
      (boundValues (.text ruleId :: row.values) (row.table.columns.zipIdx 1)) =
        row.columnsOf ruleId := by
    cases row with
    | target family id => cases family <;> rfl
    | link link =>
      obtain ⟨kind, id, priority⟩ := link
      cases kind <;> rfl
    | _ => rfl
  rw [Relations.effect_eq]
  simp only [command, Command.run, parameters, assigned, Option.any_none, Bool.false_eq_true,
    if_false, Records.effect]
  refine Prod.ext rfl ?_
  refine (congrArg (Function.update records.relations row.table.name) ?_).trans
    (records.update_children fun name other => ?_)
  · rw [records.relations_children, List.filter_append, List.map_append]
    simp
  · rw [List.filter_append]
    simp [Ne.symm other]

theorem Statement.faithful_clearChildren (table : ChildTable) (ruleId : String) :
    (clearChildren table ruleId).Faithful := by
  intro records
  have owner (child : String × ChildRow) :
      passes [.text ruleId] [.equals "rule_id" 1] (child.2.columnsOf child.1) =
        (child.1 == ruleId) := by
    show ((child.1 == ruleId) && true) = _
    rw [Bool.and_true]
  rw [Relations.effect_eq]
  simp only [command, Command.run, parameters, records.relations_children]
  refine Prod.ext ?_ ?_
  · simp only [Records.effect, Records.clearChildren, List.countP_map, List.countP_filter,
      Function.comp_def, owner]
  · refine (congrArg (Function.update records.relations table.name) ?_).trans
      (records.update_children fun name other => ?_)
    · rw [List.filter_map, List.filter_filter, List.filter_filter]
      refine congrArg _ (List.filter_congr fun child _ => ?_)
      rw [Function.comp_apply, owner]
      dsimp only
      cases child.1 == ruleId <;> cases child.2.table == table <;> rfl
    · rw [List.filter_filter]
      refine List.filter_congr fun child _ => ?_
      by_cases same : child.2.table = table
      · simp [same, Ne.symm other]
      · simp [same]

/-- The other statements change nothing. -/
theorem Statement.faithful_control {statement : Statement}
    (control : statement ∈ [ping, begin, commit, rollback]) : statement.Faithful := by
  intro records
  rw [Relations.effect_eq]
  simp only [List.mem_cons, List.not_mem_nil, or_false] at control
  rcases control with rfl | rfl | rfl | rfl <;> rfl

end Writing

section Decoding

namespace Columns

variable {columns : Columns} {name : String}

private theorem textOrNull?_of_lookup {value : Option String}
    (held : columns.lookup name = some (Parameter.kept (.ofText? value))) :
    columns.textOrNull? name = some value := by
  rw [textOrNull?, held]
  cases value <;> rfl

private theorem textsOrNull?_of_lookup {values : Option (List String)}
    (held : columns.lookup name = some (Parameter.kept ((values.map .texts).getD .null))) :
    columns.textsOrNull? name = some values := by
  rw [textsOrNull?, held]
  cases values <;> rfl

private theorem timeOrNull?_of_lookup {value : Option Instant}
    (held : columns.lookup name = some (Parameter.kept (.ofTime? value))) :
    columns.timeOrNull? name = some (value.map Instant.wholeMicroseconds) := by
  rw [timeOrNull?, held]
  cases value <;> rfl

end Columns

private theorem RuleRow.ofColumns?_columns (row : RuleRow) :
    ofColumns? row.columns = some row.inMicroseconds := by
  have description : row.columns.textOrNull? "description" = some row.description :=
    Columns.textOrNull?_of_lookup rfl
  have message : row.columns.textOrNull? "message" = some row.message :=
    Columns.textOrNull?_of_lookup rfl
  have family : row.columns.textOrNull? "target_entity_type" = some row.targetEntityType :=
    Columns.textOrNull?_of_lookup rfl
  have factKeys : row.columns.textsOrNull? "fact_keys" = some row.factKeys :=
    Columns.textsOrNull?_of_lookup rfl
  have actorId : row.columns.textOrNull? "actor_id" = some row.actorId :=
    Columns.textOrNull?_of_lookup rfl
  have orgId : row.columns.textOrNull? "org_id" = some row.orgId :=
    Columns.textOrNull?_of_lookup rfl
  have deletedAt : row.columns.timeOrNull? "deleted_at" =
      some (row.deletedAt.map Instant.wholeMicroseconds) := Columns.timeOrNull?_of_lookup rfl
  simp only [ofColumns?, description, message, family, factKeys, actorId, orgId, deletedAt]
  rfl

private theorem FeeRow.ofColumns?_columns (row : FeeRow) :
    ofColumns? row.columns = some row.inMicroseconds := by
  have deletedAt : row.columns.timeOrNull? "deleted_at" =
      some (row.deletedAt.map Instant.wholeMicroseconds) := Columns.timeOrNull?_of_lookup rfl
  simp only [ofColumns?, deletedAt]
  rfl

private theorem PromotionRow.ofColumns?_columns (row : PromotionRow) :
    ofColumns? row.columns = some row.inMicroseconds := by
  have deletedAt : row.columns.timeOrNull? "deleted_at" =
      some (row.deletedAt.map Instant.wholeMicroseconds) := Columns.timeOrNull?_of_lookup rfl
  simp only [ofColumns?, deletedAt]
  rfl

private theorem TaxRateRow.ofColumns?_columns (row : TaxRateRow) :
    ofColumns? row.columns = some row.inMicroseconds := by
  have receiptCode : row.columns.textOrNull? "receipt_code" = some row.receiptCode :=
    Columns.textOrNull?_of_lookup rfl
  have deletedAt : row.columns.timeOrNull? "deleted_at" =
      some (row.deletedAt.map Instant.wholeMicroseconds) := Columns.timeOrNull?_of_lookup rfl
  simp only [ofColumns?, receiptCode, deletedAt]
  rfl

end Decoding

section Reading

open Sql

/-- Where the rows of a table that pass the tests of a selection are decoded one by one, and those
that do not pass are passed over, the selection is decoded. -/
theorem Sql.Selection.decoded {α β : Type} {selection : Selection} {names : List String}
    {relations : Relations} {rows : List α} {columns : α → Columns} {decode : Columns → Option β}
    {ofRow? : α → Option β} (held : relations selection.table = rows.map columns)
    (each : ∀ row ∈ rows, if passes [] selection.tests (columns row) then
      ∃ value, ofRow? row = some value ∧ decode (names.zip (selection.outputs.map fun output =>
        output.shown.value (columns row))) = some value
      else ofRow? row = none) :
    (selection.rows names relations []).mapM decode = some (rows.filterMap ofRow?) := by
  rw [Selection.rows, held]
  clear held
  induction rows with
  | nil => rfl
  | cons row rest ih =>
    have first := each row (.head _)
    have others := ih fun other member => each other (.tail _ member)
    by_cases passed : passes [] selection.tests (columns row) = true
    · rw [if_pos passed] at first
      obtain ⟨value, taken, decoded⟩ := first
      rw [List.map_cons, List.filter_cons_of_pos passed, List.map_cons, List.mapM_cons, decoded,
        others, List.filterMap_cons_some taken]
      rfl
    · rw [if_neg passed] at first
      rw [List.map_cons, List.filter_cons_of_neg passed, others, List.filterMap_cons_none first]

/-- A query that shows all columns of the rows of a table that are not marked as deleted. -/
theorem Sql.decoded_unmarked {α β : Type} {relations : Relations} {table : String}
    {columns : List String} {rows : List α} {columnsOf : α → Columns}
    {deletedAt : α → Option Instant} {decode : Columns → Option β} {stored : α → β}
    (held : relations table = rows.map columnsOf)
    (marked : ∀ row, (columnsOf row).value "deleted_at" = (Parameter.ofTime? (deletedAt row)).kept)
    (all : ∀ row, columns.zip (columns.map fun column => (columnsOf row).value column) =
      columnsOf row)
    (decoded : ∀ row, decode (columnsOf row) = some (stored row)) :
    (answer [⟨columns.map TableQuery.selections.own, table, [.isNull "deleted_at"]⟩] relations
      []).mapM decode = some ((rows.filter fun row => (deletedAt row).isNone).map stored) := by
  have unmarked (row : α) : passes [] [.isNull "deleted_at"] (columnsOf row) =
      (deletedAt row).isNone := by
    show (((columnsOf row).value "deleted_at").isNull && true) = _
    rw [marked, Bool.and_true]
    cases deletedAt row <;> rfl
  have names : (columns.map TableQuery.selections.own).map Output.name = columns := by
    simp [TableQuery.selections.own, Function.comp_def]
  have kept : (rows.filter fun row => (deletedAt row).isNone).map stored =
      rows.filterMap fun row => if (deletedAt row).isNone then some (stored row) else none := by
    rw [← List.filterMap_eq_map, List.filterMap_filter]
    rfl
  simp only [answer, List.flatMap_cons, List.flatMap_nil, List.append_nil, List.head?_cons,
    Option.map_some, Option.getD_some, names, kept]
  refine Selection.decoded held fun row _ => ?_
  rw [unmarked]
  split
  · refine ⟨_, rfl, (congrArg decode ?_).trans (decoded row)⟩
    rw [List.map_map]
    exact all row
  · rfl

private theorem mapM_append_eq_some {α β : Type} {decode : α → Option β} {a b : List α}
    {x y : List β} (first : a.mapM decode = some x) (second : b.mapM decode = some y) :
    (a ++ b).mapM decode = some (x ++ y) := by
  rw [List.mapM_append, first, second]
  rfl

namespace Records

variable (records : Records)

theorem select_eq_answer (query : TableQuery) :
    records.relations.select query.sql = answer query.selections records.relations [] := by
  rw [Relations.select, query.read?_sql]

private theorem decoded_rules :
    (records.relations.select TableQuery.rules.sql).mapM RuleRow.ofColumns? =
    some ((records.select .rules).map RuleRow.inMicroseconds) := by
  rw [select_eq_answer]
  exact decoded_unmarked records.relations_rules (fun _ => rfl) (fun _ => rfl)
    RuleRow.ofColumns?_columns

private theorem decoded_fees :
    (records.relations.select TableQuery.fees.sql).mapM FeeRow.ofColumns? =
    some ((records.select .fees).map FeeRow.inMicroseconds) := by
  rw [select_eq_answer]
  exact decoded_unmarked rfl (fun _ => rfl) (fun _ => rfl) FeeRow.ofColumns?_columns

private theorem decoded_promotions :
    (records.relations.select TableQuery.promotions.sql).mapM PromotionRow.ofColumns? =
      some ((records.select .promotions).map PromotionRow.inMicroseconds) := by
  rw [select_eq_answer]
  exact decoded_unmarked rfl (fun _ => rfl) (fun _ => rfl) PromotionRow.ofColumns?_columns

private theorem decoded_taxRates :
    (records.relations.select TableQuery.taxRates.sql).mapM TaxRateRow.ofColumns? =
      some ((records.select .taxRates).map TaxRateRow.inMicroseconds) := by
  rw [select_eq_answer]
  exact decoded_unmarked rfl (fun _ => rfl) (fun _ => rfl) TaxRateRow.ofColumns?_columns

/-- A selection from a table of rows that belong to rules. -/
theorem decoded_children {β : Type} (table : ChildTable) {outputs : List Output}
    {names : List String} {decode : Columns → Option β} {ofChild? : String × ChildRow → Option β}
    (each : ∀ child : String × ChildRow, if child.2.table = table then
      ∃ value, ofChild? child = some value ∧ decode (names.zip (outputs.map fun output =>
        output.shown.value (child.2.columnsOf child.1))) = some value
      else ofChild? child = none) :
    (Selection.rows ⟨outputs, table.name, []⟩ names records.relations []).mapM decode =
      some (records.children.filterMap ofChild?) := by
  have shown : (records.children.filter fun child => child.2.table == table).filterMap ofChild? =
      records.children.filterMap ofChild? := by
    rw [List.filterMap_filter]
    refine List.filterMap_congr fun child _ => ?_
    have own := each child
    by_cases same : child.2.table = table
    · simp [same]
    · rw [if_neg same] at own
      simp [own]
  rw [← shown]
  refine Selection.decoded (records.relations_children table) fun child member => ?_
  have own := each child
  rw [if_pos (by simpa using (List.mem_filter.mp member).2)] at own
  exact own

/-- A query of one table of rows that belong to rules. -/
theorem decoded_answer {β : Type} (table : ChildTable) {outputs : List Output}
    {decode : Columns → Option β} {ofChild? : String × ChildRow → Option β}
    (each : ∀ child : String × ChildRow, if child.2.table = table then
      ∃ value, ofChild? child = some value ∧ decode ((outputs.map Output.name).zip
        (outputs.map fun output => output.shown.value (child.2.columnsOf child.1))) = some value
      else ofChild? child = none) :
    (answer [⟨outputs, table.name, []⟩] records.relations []).mapM decode =
      some (records.children.filterMap ofChild?) := by
  rw [answer, List.flatMap_cons, List.flatMap_nil, List.append_nil]
  exact records.decoded_children table each

private theorem decoded_accessConfigs :
    (records.relations.select TableQuery.accessConfigs.sql).mapM AccessConfigRow.ofColumns? =
      some (records.select .accessConfigs) := by
  rw [select_eq_answer]
  refine records.decoded_answer .accessConfig ?_
  rintro ⟨owner, _ | _ | ⟨_ | _⟩ | _ | ⟨_ | _, _, _⟩⟩
  all_goals first | rfl | exact ⟨_, rfl, rfl⟩

private theorem decoded_pricingConfigs :
    (records.relations.select TableQuery.pricingConfigs.sql).mapM PricingConfigRow.ofColumns? =
      some (records.select .pricingConfigs) := by
  rw [select_eq_answer]
  refine records.decoded_answer .pricingConfig ?_
  rintro ⟨owner, _ | _ | ⟨_ | _⟩ | _ | ⟨_ | _, _, _⟩⟩
  all_goals first | rfl | exact ⟨_, rfl, rfl⟩

private theorem decoded_tags :
    (records.relations.select TableQuery.tags.sql).mapM TagRow.ofColumns? =
      some (records.select .tags) := by
  rw [select_eq_answer]
  refine records.decoded_answer .tags ?_
  rintro ⟨owner, _ | _ | ⟨_ | _⟩ | _ | ⟨_ | _, _, _⟩⟩
  all_goals first | rfl | exact ⟨_, rfl, rfl⟩

/-- The targets of one family come from their own table, and the text that names the family is put
beside them. -/
private theorem decoded_targets_family (family : EntityType) :
    (Selection.rows ⟨[⟨.column "rule_id", "rule_id"⟩, ⟨.constant (Named.name family), ""⟩,
        ⟨.column ((ChildTable.ofFamily family).columns.getD 1 ""), ""⟩],
        (ChildTable.ofFamily family).name, []⟩
      ["rule_id", "entity_type", "entity_id"] records.relations []).mapM TargetRow.ofColumns? =
    some (records.children.filterMap fun
      | (ruleId, .target held entityId) =>
        if held = family then some ⟨ruleId, Named.name family, entityId⟩ else none
      | _ => none) := by
  refine records.decoded_children (.ofFamily family) ?_
  rintro ⟨owner, _ | _ | ⟨_ | _⟩ | _ | ⟨_ | _, _, _⟩⟩ <;> cases family
  all_goals first | rfl | exact ⟨_, rfl, rfl⟩

theorem decoded_targets :
    (records.relations.select TableQuery.targets.sql).mapM TargetRow.ofColumns? =
      some (records.select .targets) := by
  rw [select_eq_answer]
  exact mapM_append_eq_some (records.decoded_targets_family .product)
    (mapM_append_eq_some (records.decoded_targets_family .productVariant)
      (mapM_append_eq_some (records.decoded_targets_family .productCategory)
        (mapM_append_eq_some (records.decoded_targets_family .salesChannel) rfl)))

/-- The links to one kind of effects come from their own table, and the text that names the kind is
put beside them. -/
private theorem decoded_links_kind (kind : EffectKind) :
    (Selection.rows ⟨[⟨.column "rule_id", "rule_id"⟩, ⟨.constant (Named.name kind), ""⟩,
        ⟨.column ((ChildTable.ofEffectKind kind).columns.getD 1 ""), ""⟩,
        ⟨.column "priority", "priority"⟩], (ChildTable.ofEffectKind kind).name, []⟩
      ["rule_id", "kind", "effect_id", "priority"] records.relations []).mapM LinkRow.ofColumns? =
    some (records.children.filterMap fun
      | (ruleId, .link link) =>
        if link.kind = kind then some ⟨ruleId, Named.name kind, link.effectId, link.priority⟩
        else none
      | _ => none) := by
  refine records.decoded_children (.ofEffectKind kind) ?_
  rintro ⟨owner, _ | _ | ⟨_ | _⟩ | _ | ⟨_ | _, _, _⟩⟩ <;> cases kind
  all_goals first | rfl | exact ⟨_, rfl, rfl⟩

theorem decoded_links :
    (records.relations.select TableQuery.links.sql).mapM LinkRow.ofColumns? =
      some (records.select .links) := by
  rw [select_eq_answer]
  exact mapM_append_eq_some (records.decoded_links_kind .fee)
    (mapM_append_eq_some (records.decoded_links_kind .promotion)
      (mapM_append_eq_some (records.decoded_links_kind .taxRate) rfl))

/-- What the text of a query yields from the relations that hold records is decoded to the rows that
the query selects from the records. -/
theorem decoded_select (query : TableQuery) :
    (records.relations.select query.sql).mapM query.ofColumns? =
      some ((records.select query).map query.stored) := by
  cases query with
  | rules => exact records.decoded_rules
  | fees => exact records.decoded_fees
  | promotions => exact records.decoded_promotions
  | taxRates => exact records.decoded_taxRates
  | accessConfigs =>
    rw [TableQuery.stored, List.map_id]
    exact records.decoded_accessConfigs
  | pricingConfigs =>
    rw [TableQuery.stored, List.map_id]
    exact records.decoded_pricingConfigs
  | targets =>
    rw [TableQuery.stored, List.map_id]
    exact records.decoded_targets
  | tags =>
    rw [TableQuery.stored, List.map_id]
    exact records.decoded_tags
  | links =>
    rw [TableQuery.stored, List.map_id]
    exact records.decoded_links

end Records

end Reading

end RuleBook
