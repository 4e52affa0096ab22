import RuleBook.Database.Connection
import RuleBook.Proofs.Database.RoundTrip
import RuleBook.Proofs.Database.Storage

/-! # Writing and reading through texts

A rule that was written through a connection is read back through it. The connection knows texts,
values for their places and rows of columns, and it does what the texts say. So it follows the
records that its relations hold, and what it answers to the queries is decoded to their rows.
-/

namespace RuleBook

/-- A connection keeps relations: a text that succeeds does to them what it says, and the text of a
query that succeeds yields the rows that it says, in any order, and changes nothing. What a rollback
does is left open. -/
structure Connection.Keeps {σ : Type} (connection : Connection σ) (relations : σ → Relations) :
    Prop where
  execute : ∀ state text parameters command touched, Sql.read? text = some command →
    command ≠ .rollback → (connection.execute state text parameters).1 = .ok touched →
    command.run (relations state) parameters =
      (touched, relations (connection.execute state text parameters).2)
  rows : ∀ state text selections rows, Sql.read? text = some (.select selections) →
    (connection.query state text).1 = .ok rows →
    rows.Perm (Sql.answer selections (relations state) [])
  query : ∀ state text, relations (connection.query state text).2 = relations state

/-- The rows of relations under the id of a rule are those of the rule: one row of rules, as it was
written at some time, and in every table of rows that belong to rules the rule's own. -/
structure Relations.Hold (relations : Relations) (rule : Rule) : Prop where
  row : ∃ row : RuleRow, row.Holds rule ∧ (relations "policy_rules").filter
    (fun held => (held.value "id").isSameText (.text rule.id)) = [row.columns]
  children : ∀ table : ChildTable, (relations table.name).filter
    (fun held => (held.value "rule_id").isSameText (.text rule.id)) =
      ((ChildRow.ofRule rule).filter fun row => row.table == table).map (·.columnsOf rule.id)

section Writing

/-- What writes a rule does to relations what it does to the records that they hold. -/
theorem Statement.WritesRule.faithful {statement : Statement} (writes : statement.WritesRule) :
    statement.Faithful := by
  cases writes with
  | begin => exact faithful_control (.tail _ (.head _))
  | commit => exact faithful_control (.tail _ (.tail _ (.head _)))
  | insertRule rule now => exact faithful_insertRule rule now
  | updateRule row => exact faithful_updateRule row
  | markRuleDeleted id now => exact faithful_markRuleDeleted id now
  | clearChildren table ruleId => exact faithful_clearChildren table ruleId
  | insertChild ruleId row => exact faithful_insertChild ruleId row

private theorem Statement.WritesRule.command_ne_rollback {statement : Statement}
    (writes : statement.WritesRule) : statement.command ≠ .rollback := by
  cases writes <;> exact Sql.Command.noConfusion

/-- The server that is reached by a connection follows the records that the relations hold. -/
theorem Connection.Keeps.follows {σ : Type} {connection : Connection σ} {relations : σ → Relations}
    (keeps : connection.Keeps relations) :
    connection.server.Follows fun state records => relations state = records.relations where
  execute state records statement touched held writes answered := by
    have ran := keeps.execute state statement.sql statement.parameters statement.command touched
      statement.read?_sql writes.command_ne_rollback answered
    rw [held, ← Relations.effect_eq, writes.faithful records] at ran
    obtain ⟨same, left⟩ := Prod.ext_iff.mp ran
    exact ⟨same, left.symm⟩

/-- Relations that hold records in which a rule is stored hold the rule. -/
theorem Records.Stores.hold {records : Records} {rule : Rule} (stores : records.Stores rule) :
    records.relations.Hold rule := by
  constructor
  · obtain ⟨row, once, holds⟩ := stores.row
    refine ⟨row, holds, ?_⟩
    rw [records.relations_rules, List.filter_map]
    exact congrArg (List.map RuleRow.columns) once
  · intro table
    rw [records.relations_children, List.filter_map, List.filter_filter, ← stores.children]
    have owner (child : String × ChildRow) :
        ((child.2.columnsOf child.1).value "rule_id").isSameText (.text rule.id) =
          (child.1 == rule.id) := rfl
    simp only [Function.comp_def, owner, childrenOf]
    induction records.children with
    | nil => rfl
    | cons child rest ih =>
      by_cases own : child.1 = rule.id <;> by_cases same : child.2.table = table <;>
        simp [own, same, ih]

end Writing

section Reading

/-- What can be decoded can be decoded in any order. -/
theorem exists_mapM_of_perm {α β : Type} {decode : α → Option β} {items items' : List α}
    (perm : items.Perm items') {values : List β} (decoded : items'.mapM decode = some values) :
    ∃ values', items.mapM decode = some values' ∧ values'.Perm values := by
  induction perm generalizing values with
  | nil => exact ⟨values, decoded, .refl _⟩
  | cons item _ ih =>
    simp only [List.mapM_cons, bind, Option.bind_eq_some_iff, pure, Option.some.injEq] at decoded
    obtain ⟨value, first, rest, others, rfl⟩ := decoded
    obtain ⟨rest', others', perm⟩ := ih others
    exact ⟨value :: rest', by rw [List.mapM_cons, first, others']; rfl, perm.cons value⟩
  | swap a b _ =>
    simp only [List.mapM_cons, bind, Option.bind_eq_some_iff, pure, Option.some.injEq] at decoded
    obtain ⟨x, first, _, ⟨y, second, rest, others, rfl⟩, rfl⟩ := decoded
    exact ⟨y :: x :: rest, by rw [List.mapM_cons, List.mapM_cons, first, second, others]; rfl,
      .swap x y rest⟩
  | trans _ _ first second =>
    obtain ⟨between, decoded', perm⟩ := second decoded
    obtain ⟨values', decoded'', perm'⟩ := first decoded'
    exact ⟨values', decoded'', perm'.trans perm⟩

namespace Server

/-- When every query is answered, the tables hold the answers. -/
theorem result_loadTables {σ : Type} {server : Server σ} {state : σ}
    {rows : (query : TableQuery) → List query.Row}
    (answered : ∀ query, (server.read (server.readAll state query.earlier) query).1 =
      .ok (rows query)) :
    ∃ tables, (server.loadTables state).result = .ok tables ∧
      ∀ query, tables.rows query = rows query := by
  have fetched (query : TableQuery) : (server.fetch query
      (server.readAll state query.earlier)).result = .ok (rows query) :=
    result_fetch_eq_ok.mpr (answered query)
  refine ⟨⟨rows .rules, rows .accessConfigs, rows .pricingConfigs, rows .targets, rows .tags,
    rows .links, rows .fees, rows .promotions, rows .taxRates⟩, ?_, fun query => ?_⟩
  · simp only [loadTables, Transcript.result_andThen_eq_ok]
    exact ⟨_, fetched .rules, _, fetched .accessConfigs, _, fetched .pricingConfigs, _,
      fetched .targets, _, fetched .tags, _, fetched .links, _, fetched .fees, _,
      fetched .promotions, _, fetched .taxRates, rfl⟩
  · cases query <;> rfl

end Server

namespace Connection.Keeps

variable {σ : Type} {connection : Connection σ} {relations : σ → Relations}
  (keeps : connection.Keeps relations) {state : σ} {records : Records}

include keeps

private theorem relations_readAll (queries : List TableQuery) :
    relations (connection.server.readAll state queries) = relations state := by
  induction queries generalizing state with
  | nil => rfl
  | cons query rest ih => exact ih.trans (keeps.query state query.sql)

/-- The answer to a query is decoded to the rows of the records that the relations hold. -/
theorem read_of_isOk (held : relations state = records.relations) {query : TableQuery}
    (answered : (connection.query state query.sql).1.isOk = true) :
    ∃ rows, (connection.server.read state query).1 = .ok rows ∧
      rows.Perm ((records.select query).map query.stored) := by
  obtain ⟨answer, reply⟩ := Except.exists_of_isOk answered
  have shown : answer.Perm (records.relations.select query.sql) := by
    rw [records.select_eq_answer, ← held]
    exact keeps.rows state query.sql query.selections answer query.read?_sql reply
  obtain ⟨rows, decoded, perm⟩ := exists_mapM_of_perm shown (records.decoded_select query)
  refine ⟨rows, ?_, perm⟩
  simp only [server, reply, Except.bind, TableQuery.rowsOf, decoded]

/-- When every query is answered, a snapshot gives back what the relations hold. -/
theorem givesBack_loadSnapshot {rule : Rule} (held : relations state = records.relations)
    (stores : records.Stores rule) (complete : rule.actor.validate = .ok ())
    (answered : ∀ query : TableQuery, (connection.query
      (connection.server.readAll state query.earlier) query.sql).1.isOk = true) :
    ∃ snapshot, (connection.server.loadSnapshot state).result = .ok snapshot ∧
      snapshot.GivesBack rule := by
  have read (query : TableQuery) := keeps.read_of_isOk
    ((keeps.relations_readAll query.earlier).trans held) (answered query)
  choose rows replies shown using read
  obtain ⟨tables, loaded, same⟩ := Server.result_loadTables replies
  have shows : tables.Show records := fun query => (same query).symm ▸ shown query
  refine ⟨tables.snapshot, ?_, shows.givesBack stores complete⟩
  exact Transcript.result_andThen_eq_ok.mpr ⟨tables, loaded, rfl⟩

end Connection.Keeps

end Reading

namespace RuleWrite

/-- Whatever version of a rule was there before, a write of the rule whose texts all succeed is
answered with success when it finds what it needs, and only then. After that the rows under the id
of the rule are its own and no others, and when the texts of all queries are answered, their rows
are decoded and put together to a snapshot that gives the rule back. -/
theorem givesBack_sent {σ : Type} {connection : Connection σ} {relations : σ → Relations}
    (keeps : connection.Keeps relations) {state : σ} {records : Records}
    (held : relations state = records.relations) (consistent : records.Consistent)
    {store : Store} {rule : Rule} (accepted : (store.compileStrict rule).1.isOk = true)
    {write : RuleWrite} {now : Instant} (puts : write = .create rule ∨ write = .update rule)
    (written : (write.sent connection.server now state).Succeeds) :
    let sent := write.sent connection.server now state
    (sent.result = .ok () ↔ Fits records rule write) ∧
      (sent.result = .ok () → (relations sent.server).Hold rule ∧
        ((∀ query : TableQuery, (connection.query
          (connection.server.readAll sent.server query.earlier) query.sql).1.isOk = true) →
          ∃ snapshot, (connection.server.loadSnapshot sent.server).result = .ok snapshot ∧
            snapshot.GivesBack rule)) := by
  intro sent
  have complete := Store.actor_of_compileStrict accepted
  have yields (fits : Fits records rule write) :=
    fits.yields_sent keeps.follows held consistent now written
  constructor
  · refine ⟨fits_of_result keeps.follows held puts, fun fits => ?_⟩
    obtain ⟨_, result, _⟩ := yields fits
    exact result
  · intro done
    obtain ⟨_, _, after, left, stores⟩ := yields (fits_of_result keeps.follows held puts done)
    refine ⟨left ▸ stores.hold, fun answered => ?_⟩
    exact keeps.givesBack_loadSnapshot left stores complete answered

end RuleWrite

namespace Transcript

variable {σ α β : Type}

private theorem succeeds_ofResult (result : Except RuleError α) (state : σ) :
    (ofResult result state).Succeeds := fun _ member => absurd member List.not_mem_nil

theorem Succeeds.andThen {first : Transcript σ α} {next : α → σ → Transcript σ β}
    (head : first.Succeeds) (tail : ∀ value state, (next value state).Succeeds) :
    (first.andThen next).Succeeds := by
  intro exchange member
  cases result : first.result with
  | error e => exact head exchange (by simpa [Transcript.andThen, result] using member)
  | ok value =>
    rw [andThen_of_ok result] at member
    rcases List.mem_append.mp member with member | member
    · exact head exchange member
    · exact tail value first.server exchange member

end Transcript

/-- Where every statement is answered, every write of a rule succeeds. -/
theorem RuleWrite.succeeds_sent {σ : Type} {server : Server σ}
    (answers : ∀ state statement, (server.execute state statement).1.isOk = true)
    (write : RuleWrite) (now : Instant) (state : σ) : (write.sent server now state).Succeeds := by
  have send (statement : Statement) (state : σ) : (server.send statement state).Succeeds := by
    intro exchange member
    rw [List.mem_singleton.mp member]
    exact answers state statement
  have touching (statement : Statement) (untouched : RuleError) (state : σ) :
      (server.sendTouching statement untouched state).Succeeds :=
    (send statement state).andThen fun _ _ => Transcript.succeeds_ofResult _ _
  have sendAll (statements : List Statement) (state : σ) :
      (server.sendAll statements state).Succeeds := by
    induction statements generalizing state with
    | nil => exact Transcript.succeeds_ofResult _ _
    | cons statement rest ih => exact (send statement state).andThen fun _ state => ih state
  have transaction (body : σ → Transcript σ Unit) (inside : ∀ state, (body state).Succeeds)
      (state : σ) : (server.inTransaction body state).Succeeds := by
    refine (send .begin state).andThen fun _ state => ?_
    have ended : ((body state).andThen fun _ state => (server.send .commit state).andThen
        fun _ state => .ofResult (.ok ()) state).Succeeds :=
      (inside state).andThen fun _ state => (send .commit state).andThen
        fun _ _ => Transcript.succeeds_ofResult _ _
    dsimp only
    split
    · exact ended
    · intro exchange member
      rcases List.mem_append.mp member with member | member
      · exact ended exchange member
      · exact send .rollback _ exchange member
  cases write with
  | create rule =>
    exact transaction _ (fun state => (touching _ _ state).andThen fun _ state => sendAll _ state) _
  | update rule =>
    exact transaction _ (fun state => (touching _ _ state).andThen fun _ state => sendAll _ state) _
  | delete id => exact touching _ _ state

section Samples

/-- Relations and, inside a transaction, those to which they can be rolled back. -/
structure RelationStore where
  relations : Relations
  saved : Option Relations := none

namespace RelationStore

/-- A connection to relations that does what the texts say and refuses those that say nothing. -/
def connection : Connection RelationStore where
  execute store text parameters :=
    match Sql.read? text with
    | some command =>
      let (touched, relations) := command.run store.relations parameters
      (.ok touched, match command with
        | .begin => ⟨relations, some relations⟩
        | .commit => ⟨relations, none⟩
        | .rollback => ⟨store.saved.getD relations, none⟩
        | _ => ⟨relations, store.saved⟩)
    | none => (.error (.refused "syntax error"), store)
  query store text :=
    match Sql.read? text with
    | some (.select selections) => (.ok (Sql.answer selections store.relations []), store)
    | _ => (.error (.refused "syntax error"), store)

private theorem keeps_connection : connection.Keeps relations where
  execute store text parameters command touched read forth answered := by
    simp only [connection, read] at answered ⊢
    obtain rfl := Except.ok.inj answered
    cases command with
    | rollback => exact absurd rfl forth
    | _ => rfl
  rows store text selections rows read answered := by
    simp only [connection, read] at answered
    exact .of_eq (Except.ok.inj answered).symm
  query store text := by
    simp only [connection]
    split <;> rfl

end RelationStore

theorem givesBack_sent_meterRule :
    let stored : RelationStore := ⟨meterDatabase.records.relations, none⟩
    let sent := (RuleWrite.update meterRule).sent RelationStore.connection.server default stored
    RuleWrite.Fits meterDatabase.records meterRule (.update meterRule) ∧
      meterDatabase.records.Consistent ∧
      (Store.empty.compileStrict meterRule).1.isOk = true ∧ sent.Succeeds ∧
      sent.result = .ok () ∧ sent.server.relations.Hold meterRule ∧
      ∃ snapshot, (RelationStore.connection.server.loadSnapshot sent.server).result =
        .ok snapshot ∧ snapshot.GivesBack meterRule := by
  intro stored sent
  have fits : RuleWrite.Fits meterDatabase.records meterRule (.update meterRule) :=
    .update ⟨_, .tail _ (.head _), rfl, rfl⟩
  have consistent : meterDatabase.records.Consistent := by
    constructor <;> decide +kernel
  have accepted : (Store.empty.compileStrict meterRule).1.isOk = true := by decide +kernel
  have written : sent.Succeeds := by
    refine RuleWrite.succeeds_sent (fun store statement => ?_) _ _ _
    simp only [Connection.server, RelationStore.connection, statement.read?_sql]
    rfl
  have answered (store : RelationStore) (query : TableQuery) :
      (RelationStore.connection.query store query.sql).1.isOk = true := by
    simp only [RelationStore.connection, query.read?_sql]
    rfl
  obtain ⟨succeeds, left⟩ := RuleWrite.givesBack_sent RelationStore.keeps_connection rfl consistent
    accepted (.inr rfl) written
  have result := succeeds.mpr fits
  obtain ⟨hold, given⟩ := left result
  exact ⟨fits, consistent, accepted, written, result, hold, given fun query => answered _ query⟩

end Samples

end RuleBook
