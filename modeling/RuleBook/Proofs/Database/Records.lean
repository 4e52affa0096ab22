import RuleBook.Proofs.Database.Loading

/-! # Records

What statements and queries mean: a database that keeps its rows in lists. A row of rules that
breaks a constraint, a second row under one key, and a row that belongs to no rule or links no
effect are refused. Rows that are marked as deleted stay, but no statement touches them and no query
yields them.
-/

namespace RuleBook

namespace RuleRow

/-- Whether this is the row under an id, not marked as deleted. -/
def isLiveUnder (row : RuleRow) (id : String) : Bool := row.id == id && row.deletedAt.isNone

theorem isLiveUnder_iff {row : RuleRow} {id : String} :
    row.isLiveUnder id = true ↔ row.id = id ∧ row.deletedAt = none := by
  simp [isLiveUnder]

/-- The constraints on a row, by name, and whether the row satisfies them. -/
def constraints (row : RuleRow) : List (String × Bool) :=
  [("policy_rules_actor_check",
      match row.actorType, row.actorId, row.orgId with
      | "system", none, none => true
      | "user", some _, some _ => true
      | "api_token", _, some _ => true
      | _, _, _ => false),
    ("policy_rules_effect_check", (Named.ofName? (α := RuleEffect) row.effect).isSome),
    ("policy_rules_entity_type_check",
      (row.targetScope == Named.name TargetScope.entityType) == row.targetEntityType.isSome),
    ("policy_rules_scope_check", (Named.ofName? (α := TargetScope) row.targetScope).isSome)]

/-- The fault of a row that breaks a constraint. -/
def fault? (row : RuleRow) : Option DatabaseFault :=
  (row.constraints.find? fun constraint => !constraint.2).map fun constraint =>
    .refused ("new row for relation \"policy_rules\" violates check constraint \"" ++
      constraint.1 ++ "\"")

end RuleRow

/-- The rows of a rule database; those that belong to a rule come with its id. -/
structure Records where
  rules : List RuleRow := []
  children : List (String × ChildRow) := []
  fees : List FeeRow := []
  promotions : List PromotionRow := []
  taxRates : List TaxRateRow := []

namespace Records

/-- A rule that is not marked as deleted has the id. -/
def HasLive (records : Records) (id : String) : Prop :=
  ∃ row ∈ records.rules, row.id = id ∧ row.deletedAt = none

/-- The ids of the effects of one kind, deleted ones included. -/
def effectIds (records : Records) : EffectKind → List String
  | .fee => records.fees.map FeeRow.id
  | .promotion => records.promotions.map PromotionRow.id
  | .taxRate => records.taxRates.map TaxRateRow.id

/-- Write a row of rules, unless its id is taken. -/
def insertRule (records : Records) (row : RuleRow) : Except DatabaseFault (Nat × Records) :=
  match row.fault? with
  | some fault => .error fault
  | none =>
    if records.rules.any fun held => held.id == row.id then .ok (0, records)
    else .ok (1, { records with rules := records.rules ++ [row] })

/-- Change the rows of rules under an id that are not marked as deleted. -/
def changeLive (records : Records) (id : String) (change : RuleRow → RuleRow) : Nat × Records :=
  (records.rules.countP fun row => row.isLiveUnder id,
    { records with
      rules := records.rules.map fun row => if row.isLiveUnder id then change row else row })

/-- Write another version of a row of rules; the time of its creation stays. -/
def updateRule (records : Records) (row : RuleRow) : Except DatabaseFault (Nat × Records) :=
  let (touched, updated) := records.changeLive row.id fun held =>
    { row with createdAt := held.createdAt, deletedAt := held.deletedAt }
  match row.fault? with
  | some fault => if touched = 0 then .ok (0, records) else .error fault
  | none => .ok (touched, updated)

/-- Remove the rows of a table that belong to a rule. -/
def clearChildren (records : Records) (table : ChildTable) (ruleId : String) : Nat × Records :=
  let isCleared := fun child : String × ChildRow => child.1 == ruleId && child.2.table == table
  (records.children.countP isCleared,
    { records with children := records.children.filter fun child => !isCleared child })

/-- Whether a rule has a row with the table and the key of another. -/
def hasKey (records : Records) (ruleId : String) (row : ChildRow) : Bool :=
  records.children.any fun child =>
    child.1 == ruleId && child.2.table == row.table && child.2.key == row.key

/-- Whether there are the rule that a row belongs to and the effect that it links. -/
def isAnchored (records : Records) (ruleId : String) (row : ChildRow) : Bool :=
  records.rules.any (fun held => held.id == ruleId) &&
    match row with
    | .link link => (records.effectIds link.kind).contains link.effectId
    | _ => true

/-- Write a row that belongs to a rule. -/
def insertChild (records : Records) (ruleId : String) (row : ChildRow) :
    Except DatabaseFault (Nat × Records) :=
  if records.hasKey ruleId row then
    .error (.refused ("duplicate key value violates unique constraint \"" ++ row.table.name ++
      "_pkey\""))
  else if records.isAnchored ruleId row then
    .ok (1, { records with children := records.children ++ [(ruleId, row)] })
  else
    .error (.refused ("insert or update on table \"" ++ row.table.name ++
      "\" violates foreign key constraint"))

/-- The rows of a query. -/
def select (records : Records) : (query : TableQuery) → List query.Row
  | .rules => records.rules.filter fun row => row.deletedAt.isNone
  | .accessConfigs => records.children.filterMap fun
    | (ruleId, .access config) => some ⟨ruleId, Named.name config.priorityGroup⟩
    | _ => none
  | .pricingConfigs => records.children.filterMap fun
    | (ruleId, .pricing config) =>
      some ⟨ruleId, Named.name config.stackingBehavior, Named.name config.calculationPhase⟩
    | _ => none
  | .targets => (Named.all (α := EntityType)).flatMap fun family => records.children.filterMap fun
    | (ruleId, .target held entityId) =>
      if held = family then some ⟨ruleId, Named.name family, entityId⟩ else none
    | _ => none
  | .tags => records.children.filterMap fun
    | (ruleId, .tag tag) => some ⟨ruleId, tag⟩
    | _ => none
  | .links => (Named.all (α := EffectKind)).flatMap fun kind => records.children.filterMap fun
    | (ruleId, .link link) =>
      if link.kind = kind then some ⟨ruleId, Named.name kind, link.effectId, link.priority⟩
      else none
    | _ => none
  | .fees => records.fees.filter fun row => row.deletedAt.isNone
  | .promotions => records.promotions.filter fun row => row.deletedAt.isNone
  | .taxRates => records.taxRates.filter fun row => row.deletedAt.isNone

/-- Carry out a statement outside of the control of transactions: the rows it touched or yielded,
and the records after it. -/
def run (records : Records) : Statement → Except DatabaseFault (Nat × Records)
  | .insertRule row => records.insertRule row
  | .updateRule row => records.updateRule row
  | .markRuleDeleted id now => .ok (records.changeLive id fun held =>
      { held with deletedAt := some now, updatedAt := now })
  | .clearChildren table ruleId => .ok (records.clearChildren table ruleId)
  | .insertChild ruleId row => records.insertChild ruleId row
  | .ping => .ok (1, records)
  | .query query => .ok ((records.select query).length, records)
  | .begin => .ok (0, records)
  | .commit => .ok (0, records)
  | .rollback => .ok (0, records)

/-- A rule that was marked as deleted is not live. -/
theorem not_hasLive_changeLive {records : Records} {id : String} {change : RuleRow → RuleRow}
    (marks : ∀ row, (change row).deletedAt ≠ none) :
    ¬ (records.changeLive id change).2.HasLive id := by
  rintro ⟨row, held, same, live⟩
  obtain ⟨before, _, rfl⟩ := List.mem_map.mp held
  by_cases marked : before.isLiveUnder id
  · rw [if_pos marked] at live
    exact marks before live
  · rw [if_neg marked] at same live
    exact marked (by simp [RuleRow.isLiveUnder, same, live])

end Records

/-- A database: its records and, inside a transaction, those to which it can be rolled back. -/
structure RuleDatabase where
  records : Records
  saved : Option Records := none

namespace RuleDatabase

/-- Carry out a statement. -/
def execute (database : RuleDatabase) (statement : Statement) :
    Except DatabaseFault Nat × RuleDatabase :=
  match database.records.run statement with
  | .error fault => (.error fault, database)
  | .ok (touched, records) =>
    (.ok touched, match statement with
      | .begin => ⟨records, some records⟩
      | .commit => ⟨records, none⟩
      | .rollback => ⟨database.saved.getD records, none⟩
      | _ => ⟨records, database.saved⟩)

/-- The server of the database. -/
def server : Server RuleDatabase where
  execute := execute
  read database query := (.ok ((database.records.select query).map query.stored), database)

/-- The database hides the rules that it marks as deleted. -/
theorem hidesMarked_server : server.HidesMarked fun database => database.records.HasLive where
  mark database id now touched _ := Records.not_hasLive_changeLive fun _ marked => nomatch marked
  rules database rows answer row member := by
    obtain rfl := Except.ok.inj answer
    obtain ⟨held, selected, rfl⟩ := List.mem_map.mp member
    obtain ⟨kept, live⟩ := List.mem_filter.mp selected
    exact ⟨held, kept, rfl, by simpa using live⟩
  read _ _ _ dead := dead

end RuleDatabase

end RuleBook
