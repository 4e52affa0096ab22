import RuleBook.Proofs.Database.Effects
import RuleBook.Proofs.Database.Transactions

/-! # Reading back what was written

A rule that was written is read back. The two halves meet at records that store the rule: a write
whose statements all succeed leads there, from whatever version of the rule was there before, and
what is read there shows the records. In which form a database holds its records is left open.
-/

namespace RuleBook

namespace Transcript

variable {σ α β : Type}

/-- Nothing that was sent failed. -/
def Succeeds (transcript : Transcript σ α) : Prop :=
  ∀ exchange ∈ transcript.exchanges, exchange.reply.isOk = true

/-- Unless something that is sent fails, there is a value, and it and the server are such that
something holds. -/
def Yields (transcript : Transcript σ α) (post : α → σ → Prop) : Prop :=
  transcript.Succeeds → ∃ value, transcript.result = .ok value ∧ post value transcript.server

theorem Yields.mono {transcript : Transcript σ α} {post post' : α → σ → Prop}
    (yields : transcript.Yields post)
    (weaker : ∀ value state, post value state → post' value state) : transcript.Yields post' := by
  intro succeeds
  obtain ⟨value, result, holds⟩ := yields succeeds
  exact ⟨value, result, weaker value _ holds⟩

theorem Yields.ofResult {post : α → σ → Prop} {value : α} {state : σ} (holds : post value state) :
    (Transcript.ofResult (.ok value) state).Yields post := fun _ => ⟨value, rfl, holds⟩

theorem Yields.andThen {first : Transcript σ α} {next : α → σ → Transcript σ β}
    {middle : α → σ → Prop} {post : β → σ → Prop} (head : first.Yields middle)
    (tail : ∀ value state, middle value state → (next value state).Yields post) :
    (first.andThen next).Yields post := by
  intro succeeds
  have begun : first.Succeeds := by
    intro exchange member
    refine succeeds exchange ?_
    cases result : first.result with
    | ok value => simpa [Transcript.andThen, result] using .inl member
    | error e => simpa [Transcript.andThen, result] using member
  obtain ⟨value, result, holds⟩ := head begun
  rw [andThen_of_ok result] at succeeds ⊢
  exact tail value first.server holds fun exchange member =>
    succeeds exchange (List.mem_append_right _ member)

end Transcript

namespace TableQuery

/-- The queries that are sent before a query. -/
def earlier (query : TableQuery) : List TableQuery := all.takeWhile (· ≠ query)

end TableQuery

/-- A database keeps records: a statement that succeeds has its effect on them, and a query that
succeeds yields their rows, each query in any order, and changes nothing. What a rollback does is
left open. -/
structure Server.Keeps {σ : Type} (server : Server σ) (records : σ → Records) : Prop where
  execute : ∀ state statement touched, statement ≠ .rollback →
    (server.execute state statement).1 = .ok touched →
    (records state).effect statement = (touched, records (server.execute state statement).2)
  rows : ∀ state query rows, (server.read state query).1 = .ok rows →
    rows.Perm (((records state).select query).map query.stored)
  read : ∀ state query, records (server.read state query).2 = records state

namespace Server

variable {σ : Type}

/-- The state of a server after queries. -/
def readAll (server : Server σ) (state : σ) (queries : List TableQuery) : σ :=
  queries.foldl (fun state query => (server.read state query).2) state

/-- A query that succeeds yields the rows of the records at its time, in any order. -/
def Answers (server : Server σ) (records : σ → Records) : Prop :=
  ∀ state query rows, (server.read state query).1 = .ok rows →
    rows.Perm (((records state).select query).map query.stored)

section Answers

variable {server : Server σ} {records : σ → Records} (answers : server.Answers records) {state : σ}

include answers

private theorem Answers.yields_fetch_andThen {β : Type} {query : TableQuery}
    {next : List query.Row → σ → Transcript σ β} {post : β → σ → Prop}
    (tail : ∀ rows, rows.Perm (((records state).select query).map query.stored) →
      (next rows (server.read state query).2).Yields post) :
    ((server.fetch query state).andThen next).Yields post := by
  have fetched : (server.fetch query state).Yields fun rows last =>
      last = (server.read state query).2 ∧
        rows.Perm (((records state).select query).map query.stored) := by
    intro succeeds
    have answered := succeeds _ (List.mem_singleton.mpr rfl)
    cases reply : (server.read state query).1 with
    | error fault => simp [reply, Except.isOk, Except.toBool, Except.map] at answered
    | ok rows => exact ⟨rows, result_fetch_eq_ok.mpr reply, rfl, answers _ _ _ reply⟩
  refine fetched.andThen fun rows last both => ?_
  obtain ⟨rfl, perm⟩ := both
  exact tail rows perm

/-- Every query yields rows of the records as the queries before it left them. -/
theorem Answers.yields_loadTables :
    (server.loadTables state).Yields fun tables _ => ∀ query, (tables.rows query).Perm
      (((records (server.readAll state query.earlier)).select query).map query.stored) := by
  refine answers.yields_fetch_andThen fun rules rulesShown => ?_
  refine answers.yields_fetch_andThen fun accessConfigs accessConfigsShown => ?_
  refine answers.yields_fetch_andThen fun pricingConfigs pricingConfigsShown => ?_
  refine answers.yields_fetch_andThen fun targets targetsShown => ?_
  refine answers.yields_fetch_andThen fun tags tagsShown => ?_
  refine answers.yields_fetch_andThen fun links linksShown => ?_
  refine answers.yields_fetch_andThen fun fees feesShown => ?_
  refine answers.yields_fetch_andThen fun promotions promotionsShown => ?_
  refine answers.yields_fetch_andThen fun taxRates taxRatesShown => ?_
  refine .ofResult fun query => ?_
  cases query <;> assumption

end Answers

end Server

/-- A transaction that succeeds has begun, and what was done in it succeeded. -/
theorem Server.result_of_inTransaction {σ : Type} {server : Server σ} {state : σ}
    {body : σ → Transcript σ Unit} (done : (server.inTransaction body state).result = .ok ()) :
    ∃ begun, (server.execute state .begin).1 = .ok begun ∧
      (body (server.execute state .begin).2).result = .ok () := by
  obtain ⟨begun, answered, ended⟩ := Transcript.result_andThen_eq_ok.mp done
  refine ⟨begun, result_send_eq_ok.mp answered, ?_⟩
  dsimp only at ended
  split at ended
  · rename_i committed
    obtain ⟨_, inside, _⟩ := Transcript.result_andThen_eq_ok.mp committed
    exact inside
  · cases ended

/-- The statements by which rules are written. -/
inductive Statement.WritesRule : Statement → Prop
  | begin : WritesRule .begin
  | commit : WritesRule .commit
  | insertRule (rule : Rule) (now : Instant) : WritesRule (.insertRule (.ofRule rule now))
  | updateRule (row : RuleRow) : WritesRule (.updateRule row)
  | markRuleDeleted (id : String) (now : Instant) : WritesRule (.markRuleDeleted id now)
  | clearChildren (table : ChildTable) (ruleId : String) : WritesRule (.clearChildren table ruleId)
  | insertChild (ruleId : String) (row : ChildRow) : WritesRule (.insertChild ruleId row)

private theorem Server.writesRule_childDeletes (ruleId : String) :
    ∀ statement ∈ childDeletes ruleId, statement.WritesRule := by
  intro statement member
  obtain ⟨table, _, rfl⟩ := List.mem_map.mp member
  exact .clearChildren table ruleId

private theorem Server.writesRule_childInserts (rule : Rule) :
    ∀ statement ∈ childInserts rule, statement.WritesRule := by
  intro statement member
  obtain ⟨row, _, rfl⟩ := List.mem_map.mp member
  exact .insertChild rule.id row

/-- The states of a server hold records in some form, and where a statement by which rules are
written succeeds, it has its effect on them. -/
structure Server.Follows {σ : Type} (server : Server σ) (holds : σ → Records → Prop) : Prop where
  execute : ∀ state records statement touched, holds state records → statement.WritesRule →
    (server.execute state statement).1 = .ok touched →
    (records.effect statement).1 = touched ∧
      holds (server.execute state statement).2 (records.effect statement).2

namespace Server.Follows

variable {σ : Type} {server : Server σ} {holds : σ → Records → Prop}
  (follows : server.Follows holds) {state : σ} {records : Records} (held : holds state records)

include follows held

private theorem yields_send {statement : Statement} (writes : statement.WritesRule) :
    (server.send statement state).Yields fun touched next =>
      (records.effect statement).1 = touched ∧ holds next (records.effect statement).2 := by
  intro succeeds
  obtain ⟨touched, answered⟩ :=
    Except.exists_of_isOk (succeeds _ (List.mem_singleton.mpr rfl))
  exact ⟨touched, result_send_eq_ok.mpr answered, follows.execute _ _ _ _ held writes answered⟩

private theorem yields_sendAll {statements : List Statement}
    (writes : ∀ statement ∈ statements, statement.WritesRule) :
    (server.sendAll statements state).Yields fun _ next =>
      holds next (records.after statements) := by
  induction statements generalizing state records with
  | nil => exact .ofResult held
  | cons statement rest ih =>
    refine (follows.yields_send held (writes _ (.head _))).andThen fun _ _ sent => ?_
    exact ih sent.2 fun other member => writes other (.tail _ member)

private theorem yields_sendTouching {statement : Statement} {untouched : RuleError}
    (writes : statement.WritesRule) (touches : (records.effect statement).1 ≠ 0) :
    (server.sendTouching statement untouched state).Yields fun _ next =>
      holds next (records.effect statement).2 := by
  refine (follows.yields_send held writes).andThen fun touched next sent => ?_
  obtain ⟨rfl, left⟩ := sent
  rw [if_neg touches]
  exact .ofResult left

/-- A transaction leaves what the series of statements in it leaves. -/
theorem yields_inTransaction {body : σ → Transcript σ Unit} {last : Records}
    (inside : ∀ next, holds next records → (body next).Yields fun _ after => holds after last) :
    (server.inTransaction body state).Yields fun _ after => holds after last := by
  refine (follows.yields_send held .begin).andThen fun _ next begun => ?_
  have ended : ((body next).andThen fun _ next => (server.send .commit next).andThen fun _ next =>
      .ofResult (.ok ()) next).Yields fun _ after => holds after last := by
    refine (inside next begun.2).andThen fun _ next left => ?_
    refine (follows.yields_send left .commit).andThen fun _ next ended => ?_
    exact .ofResult ended.2
  dsimp only
  split
  · exact ended
  · -- Nothing failed before the rollback either, so there was nothing to roll back.
    rename_i failed
    intro succeeds
    obtain ⟨_, result, _⟩ := ended fun exchange member =>
      succeeds exchange (List.mem_append_left _ member)
    cases failed.symm.trans result

/-- A transaction that writes a row of rules and then what belongs to it leaves the effects of its
statements. -/
theorem yields_writing {write : Statement} (untouched : RuleError) {rest : List Statement}
    (writes : write.WritesRule) (others : ∀ statement ∈ rest, statement.WritesRule)
    (touches : (records.effect write).1 ≠ 0) :
    (server.inTransaction (fun state => (server.sendTouching write untouched state).andThen
      fun _ state => server.sendAll rest state) state).Yields fun _ next =>
      holds next (records.after (write :: rest)) := by
  refine follows.yields_inTransaction held fun next begun => ?_
  refine (follows.yields_sendTouching begun writes touches).andThen fun _ last written => ?_
  exact follows.yields_sendAll written others

/-- When such a transaction succeeds, the row of rules was touched. -/
theorem touched_of_writing {write : Statement} {untouched : RuleError}
    {rest : Unit → σ → Transcript σ Unit} (writes : write.WritesRule)
    (done : (server.inTransaction (fun state =>
      (server.sendTouching write untouched state).andThen rest) state).result = .ok ()) :
    (records.effect write).1 ≠ 0 := by
  obtain ⟨begun, answered, inside⟩ := result_of_inTransaction done
  obtain ⟨_, sent, _⟩ := Transcript.result_andThen_eq_ok.mp inside
  obtain ⟨count, counted, touched⟩ := result_sendTouching_eq_ok.mp sent
  obtain ⟨_, begins⟩ := follows.execute state records .begin begun held .begin answered
  obtain ⟨same, _⟩ := follows.execute _ records write count begins writes counted
  exact same ▸ touched

/-- Another version of a rule that is there is written with all that belongs to it. -/
theorem yields_updateRule {rule : Rule} {now : Instant} (live : records.HasLive rule.id) :
    (server.updateRule rule now state).Yields fun _ next =>
      holds next (records.updated rule now) := by
  refine follows.yields_writing held (.ruleNotFound rule.id) (.updateRule (.ofRule rule now))
    (fun statement member => ?_) (Records.touched_updateRule.mpr live)
  rcases List.mem_append.mp member with member | member
  · exact writesRule_childDeletes rule.id statement member
  · exact writesRule_childInserts rule statement member

end Server.Follows

namespace Server.Keeps

variable {σ : Type} {server : Server σ} {records : σ → Records} (keeps : server.Keeps records)
  {state : σ}

include keeps

theorem follows : server.Follows fun state held => records state = held where
  execute := by
    rintro state _ statement touched rfl writes answered
    have forth : statement ≠ .rollback := by
      rintro rfl
      cases writes
    rw [keeps.execute state statement touched forth answered]
    exact ⟨rfl, rfl⟩

/-- Queries change no records. -/
theorem records_readAll (queries : List TableQuery) :
    records (server.readAll state queries) = records state := by
  induction queries generalizing state with
  | nil => rfl
  | cons query rest ih => exact ih.trans (keeps.read state query)

end Server.Keeps

/-- The author of a rule that is accepted is complete. -/
theorem Store.actor_of_compileStrict {store : Store} {rule : Rule}
    (accepted : (store.compileStrict rule).1.isOk = true) : rule.actor.validate = .ok () := by
  cases valid : rule.validate with
  | error e =>
    simp [compileStrict, Compiler.compileStrict, valid, Except.isOk, Except.toBool] at accepted
  | ok value =>
    cases complete : rule.actor.validate with
    | ok _ => rfl
    | error e =>
      cases id : Text.isBlankText rule.id <;> cases name : Text.isBlankText rule.name <;>
        cases domain : Text.isBlankText rule.domain <;>
        simp [Rule.validate, complete, id, name, domain, bind, Except.bind] at valid

namespace RuleWrite

/-- A write of a rule finds records as it needs them: a new rule finds its id free, and another
version finds the rule, not marked as deleted. -/
inductive Fits (records : Records) (rule : Rule) : RuleWrite → Prop
  | create (free : rule.id ∉ records.rules.map RuleRow.id) : Fits records rule (.create rule)
  | update (live : records.HasLive rule.id) : Fits records rule (.update rule)

section Follows

variable {σ : Type} {server : Server σ} {holds : σ → Records → Prop}
  (follows : server.Follows holds) {state : σ} {records : Records} (held : holds state records)
  {rule : Rule} {write : RuleWrite}

include follows held

/-- A write that finds what it needs leaves records that store its rule. -/
theorem Fits.yields_sent (fits : Fits records rule write) (consistent : records.Consistent)
    (now : Instant) :
    (write.sent server now state).Yields fun _ next =>
      ∃ after, holds next after ∧ after.Stores rule := by
  cases fits with
  | create free =>
    refine (follows.yields_writing held (.ruleAlreadyExists rule.id) (.insertRule rule now)
      (Server.writesRule_childInserts rule) (Records.touched_insertRule.mpr free)).mono
      fun _ next left => ?_
    exact ⟨_, left, consistent.stores_insert now free⟩
  | update live =>
    refine (follows.yields_updateRule held live).mono fun _ next left => ?_
    exact ⟨_, left, consistent.stores_updated now live⟩

/-- A write of a rule that is answered with success has found what it needs. -/
theorem fits_of_result {now : Instant} (puts : write = .create rule ∨ write = .update rule)
    (done : (write.sent server now state).result = .ok ()) : Fits records rule write := by
  rcases puts with rfl | rfl
  · have touched := follows.touched_of_writing held (.insertRule rule now) done
    exact .create (Records.touched_insertRule.mp touched)
  · have touched := follows.touched_of_writing held (.updateRule (.ofRule rule now)) done
    exact .update (Records.touched_updateRule.mp touched)

end Follows

end RuleWrite

namespace RuleDatabase

/-- What is carried out, other than a rollback, leaves the records that it was run into. -/
theorem execute_of_run {database : RuleDatabase} {statement : Statement} {touched : Nat}
    {records : Records} (forth : statement ≠ .rollback)
    (ran : database.records.run statement = .ok (touched, records)) :
    (database.execute statement).1 = .ok touched ∧
      (database.execute statement).2.records = records := by
  constructor
  · simp only [execute, ran]
  · simp only [execute, ran]
    cases statement with
    | rollback => exact absurd rfl forth
    | _ => rfl

/-- The database keeps its records. -/
theorem keeps_server : server.Keeps RuleDatabase.records where
  execute database statement touched forth answered := by
    cases ran : database.records.run statement with
    | error fault =>
      simp [server, execute, ran] at answered
    | ok outcome =>
      obtain ⟨answer, left⟩ := execute_of_run forth ran
      obtain rfl := Except.ok.inj (answer.symm.trans answered)
      exact (Records.effect_of_run ran).trans (Prod.ext rfl left.symm)
  rows database query rows answered := by
    rw [← Except.ok.inj answered]
  read _ _ := rfl

/-- The records are consistent, and so are those to which the database can be rolled back. -/
structure Consistent (database : RuleDatabase) : Prop where
  records : database.records.Consistent
  saved : ∀ records, database.saved = some records → records.Consistent

/-- A database stays consistent, whatever is sent to it. -/
theorem Consistent.execute {database : RuleDatabase} (consistent : database.Consistent)
    (statement : Statement) : (database.execute statement).2.Consistent := by
  cases ran : database.records.run statement with
  | error fault => simpa only [RuleDatabase.execute, ran] using consistent
  | ok outcome =>
    have next := consistent.records.run ran
    simp only [RuleDatabase.execute, ran]
    cases statement with
    | begin => exact ⟨next, fun records saved => Option.some.inj saved ▸ next⟩
    | commit => exact ⟨next, nofun⟩
    | rollback =>
      refine ⟨?_, nofun⟩
      cases saved : database.saved with
      | none => exact next
      | some records => exact consistent.saved records saved
    | _ => exact ⟨next, consistent.saved⟩

end RuleDatabase

section Samples

/-- A rule that is aimed at entities of every family, with tags, links and an author. -/
def meterRule : Rule :=
  let aimed := ((Rule.ofCondition "meter" pricingDomain "meter" (.bool true)).forEntities .product
    ["p2", "p1"]).forEntities .productVariant ["v1"]
  let aimed := (aimed.forEntities .productCategory ["c1"]).forEntities .salesChannel ["web"]
  { aimed with
    pricingConfig := some ⟨.sequential, .postDiscount⟩
    tags := .ofList ["summer", "night"]
    effects := [⟨.promotion, "gift", 2⟩, ⟨.fee, "delivery", 1⟩]
    actor := .user "ada" "north" }

/-- A database with another version of the rule, of another domain, and with another rule. -/
def meterDatabase : RuleDatabase :=
  let earlier := { (Rule.ofCondition "meter" accessDomain "gate" (.bool true)).forEntities .product
    ["p1", "p3"] with accessConfig := some ⟨.deny⟩, tags := .ofList ["winter"] }
  let other := { Rule.ofCondition "other" pricingDomain "other" (.bool true) with
    tags := .ofList ["summer"] }
  let children (rule : Rule) := (ChildRow.ofRule rule).map (Prod.mk rule.id)
  { records :=
    { rules := [.ofRule other default, .ofRule earlier default]
      children := children earlier ++ children other
      fees := [⟨"delivery", "delivery", .null, true, false, default, default, none⟩]
      promotions := [⟨"gift", "gift", .null, default, default, none⟩] } }

end Samples

end RuleBook
