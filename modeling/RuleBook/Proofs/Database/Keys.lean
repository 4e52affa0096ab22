import RuleBook.Proofs.Database.RoundTrip
import RuleBook.Proofs.Rule.Acceptance

/-! # Keys of the rows that belong to a rule

A table keeps one row under a key, and its key tells apart the rows of one rule by the entity, the
tag or the effect. Entities and tags are sets, but links are a list that nothing checks: a rule that
links an effect twice is accepted, and then refused by the database. `Records.inserts_runAll` is what
comes of inserting rows one after the other, and `Rule.keysApart_iff_linksOnce` says which rules have
rows that can all be inserted.
-/

namespace RuleBook

private theorem ChildTable.ofFamily_injective {a b : EntityType}
    (same : ChildTable.ofFamily a = ChildTable.ofFamily b) : a = b := by
  cases a <;> cases b <;> first | rfl | cases same

private theorem ChildTable.ofEffectKind_injective {a b : EffectKind}
    (same : ChildTable.ofEffectKind a = ChildTable.ofEffectKind b) : a = b := by
  cases a <;> cases b <;> first | rfl | cases same

/-- Where a row stands among those of its rule: its table, and its key there. -/
def ChildRow.place (row : ChildRow) : ChildTable × Option String := (row.table, row.key)

/-- The kinds of rows, in the order in which they are written. -/
def ChildRow.kindRank : ChildRow → Nat
  | access _ => 0
  | pricing _ => 1
  | target .. => 2
  | tag _ => 3
  | link _ => 4

/-- A table has rows of one kind. -/
theorem ChildRow.kindRank_eq {row other : ChildRow} (same : row.table = other.table) :
    row.kindRank = other.kindRank := by
  have rank (row : ChildRow) : row.kindRank = match row.table with
      | .accessConfig => 0
      | .pricingConfig => 1
      | .tags => 3
      | .fees | .promotions | .taxRates => 4
      | _ => 2 := by
    cases row with
    | target family _ => cases family <;> rfl
    | link link => obtain ⟨kind, _, _⟩ := link; cases kind <;> rfl
    | _ => rfl
  rw [rank, rank, same]

namespace Rule

/-- No two rows that belong to the rule have one key in one table. -/
def KeysApart (rule : Rule) : Prop := ((ChildRow.ofRule rule).map ChildRow.place).Nodup

/-- The rule links no effect twice. -/
def LinksOnce (rule : Rule) : Prop := (rule.effects.map EffectLink.key).Nodup

instance (rule : Rule) : Decidable rule.KeysApart := by unfold KeysApart; infer_instance

/-- The rows of targets are apart: every family has a table and a set of its own. -/
theorem nodup_targetPlaces (targets : RuleTargets) :
    (((Named.all (α := EntityType)).flatMap fun family =>
      (targets.idsFor family).toList.map (ChildRow.target family)).map ChildRow.place).Nodup := by
  rw [List.map_flatMap, List.nodup_flatMap]
  constructor
  · intro family _
    rw [List.map_map]
    refine (targets.idsFor family).nodup_toList.map fun a b same => ?_
    exact Option.some.inj (congrArg Prod.snd same)
  · refine List.Pairwise.imp (R := (· ≠ ·)) (fun different => ?_) (by decide)
    simp only [Function.onFun, List.disjoint_left, List.mem_map]
    rintro _ ⟨_, ⟨_, _, rfl⟩, rfl⟩ ⟨_, ⟨_, _, rfl⟩, same⟩
    exact different (ChildTable.ofFamily_injective (congrArg Prod.fst same)).symm

private theorem nodup_linkPlaces_iff {links : List EffectLink} :
    ((links.map ChildRow.link).map ChildRow.place).Nodup ↔ (links.map EffectLink.key).Nodup := by
  let place (key : EffectRef) : ChildTable × Option String :=
    (ChildTable.ofEffectKind key.kind, some key.id)
  have same : (links.map ChildRow.link).map ChildRow.place =
      (links.map EffectLink.key).map place := by
    simp only [List.map_map]
    rfl
  rw [same, List.nodup_map_iff]
  rintro ⟨kind, id⟩ ⟨kind', id'⟩ same
  obtain ⟨table, key⟩ := Prod.mk.inj same
  obtain rfl : kind = kind' := ChildTable.ofEffectKind_injective table
  obtain rfl : id = id' := Option.some.inj key
  rfl

/-- Rows of a later kind are apart from those before. -/
theorem nodup_places_append {rows others : List ChildRow} {rank : Nat}
    (before : ∀ row ∈ rows, row.kindRank < rank) (after : ∀ other ∈ others, other.kindRank = rank) :
    ((rows ++ others).map ChildRow.place).Nodup ↔
      (rows.map ChildRow.place).Nodup ∧ (others.map ChildRow.place).Nodup := by
  rw [List.map_append, List.nodup_append', and_congr_right_iff, and_iff_left_iff_imp]
  intro _ _
  simp only [List.disjoint_left, List.mem_map]
  rintro _ ⟨row, member, rfl⟩ ⟨other, member', same⟩
  have kinds := ChildRow.kindRank_eq (congrArg Prod.fst same)
  exact absurd (before row member) (by rw [← kinds, after other member']; exact Nat.lt_irrefl rank)

private theorem kindRank_lt_append {rows others : List ChildRow} {rank : Nat}
    (before : ∀ row ∈ rows, row.kindRank < rank) (after : ∀ other ∈ others, other.kindRank = rank) :
    ∀ row ∈ rows ++ others, row.kindRank < rank + 1 :=
  List.forall_mem_append.mpr ⟨fun row member => Nat.lt_succ_of_lt (before row member),
    fun row member => after row member ▸ Nat.lt_succ_self rank⟩

/-- Only links can meet in one key of one table. -/
theorem keysApart_iff_linksOnce (rule : Rule) : rule.KeysApart ↔ rule.LinksOnce := by
  have config {α : Type} (toRow : α → ChildRow) (config? : Option α) :
      ((config?.map toRow).toList.map ChildRow.place).Nodup := by
    cases config? <;> simp
  have tags : ((rule.tags.toList.map ChildRow.tag).map ChildRow.place).Nodup := by
    rw [List.map_map]
    exact rule.tags.nodup_toList.map fun a b same => Option.some.inj (congrArg Prod.snd same)
  -- the rows come kind by kind, so that each kind can be looked at by itself
  have aimed : ∀ row ∈ (Named.all (α := EntityType)).flatMap fun family =>
      (rule.targets.idsFor family).toList.map (ChildRow.target family), row.kindRank = 2 := by
    simp only [List.mem_flatMap, List.mem_map]
    rintro _ ⟨_, _, _, _, rfl⟩
    rfl
  have first : ∀ row ∈ (rule.accessConfig.map ChildRow.access).toList, row.kindRank < 1 := by
    simp [ChildRow.kindRank]
  have second : ∀ row ∈ (rule.pricingConfig.map ChildRow.pricing).toList, row.kindRank = 1 := by
    simp [ChildRow.kindRank]
  have tagged : ∀ row ∈ rule.tags.toList.map ChildRow.tag, row.kindRank = 3 := by
    simp [ChildRow.kindRank]
  have linked : ∀ row ∈ rule.effects.map ChildRow.link, row.kindRank = 4 := by
    simp [ChildRow.kindRank]
  have configured := kindRank_lt_append first second
  have targeted := kindRank_lt_append configured aimed
  rw [LinksOnce, ← nodup_linkPlaces_iff, KeysApart, ChildRow.ofRule,
    nodup_places_append (kindRank_lt_append targeted tagged) linked,
    nodup_places_append targeted tagged, nodup_places_append configured aimed,
    nodup_places_append first second]
  simp only [config, tags, nodup_targetPlaces, true_and]

end Rule

/-- The fault of a second row under one key of a table. -/
def ChildTable.duplicateKey (table : ChildTable) : DatabaseFault :=
  .refused ("duplicate key value violates unique constraint \"" ++ table.name ++ "_pkey\"")

/-- The fault of a row that refers to what is not there. -/
def ChildTable.foreignKey (table : ChildTable) : DatabaseFault :=
  .refused ("insert or update on table \"" ++ table.name ++ "\" violates foreign key constraint")

private theorem DatabaseFault.eq_of_refused {detail other : String}
    (same : (refused detail).toRuleError = (refused other).toRuleError) : detail = other := by
  have texts : "error returned from database: " ++ detail =
      "error returned from database: " ++ other := RuleError.storageUnavailable.inj same
  generalize "error returned from database: " = start at texts
  exact (String.append_right_inj start).mp texts

private theorem ChildTable.foreignKey_ne_duplicateKey (table other : ChildTable) :
    table.foreignKey.toRuleError ≠ other.duplicateKey.toRuleError := by
  intro same
  have texts := congrArg String.toList (DatabaseFault.eq_of_refused same)
  simp at texts

namespace Records

variable {records : Records} {ruleId : String} {row : ChildRow} {rows : List ChildRow}

/-- Carry out statements one after the other, up to the first that is refused. -/
def runAll (records : Records) : List Statement → Except DatabaseFault Records
  | [] => .ok records
  | statement :: rest => (records.run statement).bind fun outcome => outcome.2.runAll rest

private theorem runAll_append (records : Records) (first second : List Statement) :
    records.runAll (first ++ second) =
      (records.runAll first).bind fun middle => middle.runAll second := by
  induction first generalizing records with
  | nil => rfl
  | cons statement rest ih =>
    rw [List.cons_append, runAll, runAll]
    cases records.run statement with
    | error fault => rfl
    | ok outcome => exact ih outcome.2

/-- Removing rows is never refused. -/
theorem runAll_clears (records : Records) (ruleId : String) (tables : List ChildTable) :
    records.runAll (tables.map (.clearChildren · ruleId)) =
      .ok (records.after (tables.map (.clearChildren · ruleId))) := by
  induction tables generalizing records with
  | nil => rfl
  | cons table rest ih => exact ih _

private theorem hasKey_iff : records.hasKey ruleId row = true ↔
    row.place ∈ (records.childrenOf ruleId).map ChildRow.place := by
  simp only [hasKey, childrenOf, ChildRow.place, List.any_eq_true, List.mem_map, List.mem_filterMap,
    Bool.and_eq_true, beq_iff_eq, Option.ite_none_right_eq_some, Option.some.injEq, Prod.mk.injEq]
  constructor
  · rintro ⟨⟨owner, other⟩, member, ⟨same, table⟩, key⟩
    exact ⟨other, ⟨_, member, same, rfl⟩, table, key⟩
  · rintro ⟨other, ⟨child, member, same, rfl⟩, table, key⟩
    exact ⟨child, member, ⟨same, table⟩, key⟩

/-- Every row has what it refers to: its rule, and the effect that it links. -/
def Anchors (records : Records) (ruleId : String) (rows : List ChildRow) : Prop :=
  ∀ row ∈ rows, records.isAnchored ruleId row = true

/-- What comes of inserting rows that belong to a rule, one after the other: all are inserted, or
one finds its key taken, or one refers to what is not there. -/
inductive Inserts (records : Records) (ruleId : String) (rows : List ChildRow) :
    Except DatabaseFault Records → Prop
  | all (last : Records)
      (apart : ((records.childrenOf ruleId ++ rows).map ChildRow.place).Nodup) :
      Inserts records ruleId rows (.ok last)
  | taken (table : ChildTable)
      (meet : ¬ ((records.childrenOf ruleId ++ rows).map ChildRow.place).Nodup) :
      Inserts records ruleId rows (.error table.duplicateKey)
  | loose (table : ChildTable) (unanchored : ¬ records.Anchors ruleId rows) :
      Inserts records ruleId rows (.error table.foreignKey)

/-- The records after a row that belongs to a rule was added. -/
def withChild (records : Records) (ruleId : String) (row : ChildRow) : Records :=
  { records with children := records.children ++ [(ruleId, row)] }

private theorem childrenOf_withChild (records : Records) (ruleId : String) (row : ChildRow) :
    (records.withChild ruleId row).childrenOf ruleId = records.childrenOf ruleId ++ [row] := by
  simp [withChild, childrenOf]

/-- Once the first row was inserted it counts as held. -/
theorem Inserts.cons {result : Except DatabaseFault Records}
    (inserts : (records.withChild ruleId row).Inserts ruleId rows result) :
    records.Inserts ruleId (row :: rows) result := by
  have places : (records.withChild ruleId row).childrenOf ruleId ++ rows =
      records.childrenOf ruleId ++ row :: rows := by
    rw [childrenOf_withChild, List.append_assoc, List.singleton_append]
  cases inserts with
  | all last apart => exact .all last (places ▸ apart)
  | taken table meet => exact .taken table (places ▸ meet)
  | loose table unanchored =>
    exact .loose table fun anchors => unanchored fun other member =>
      anchors other (List.mem_cons_of_mem row member)

private theorem inserts_runAll (records : Records) (ruleId : String) (rows : List ChildRow)
    (held : ((records.childrenOf ruleId).map ChildRow.place).Nodup) :
    records.Inserts ruleId rows (records.runAll (rows.map (.insertChild ruleId))) := by
  -- a row that is inserted moves from those to come to those held, and all places stay the same
  induction rows generalizing records with
  | nil => exact .all records (by rwa [List.append_nil])
  | cons row rest ih =>
    rw [List.map_cons, runAll, run, insertChild]
    split
    · rename_i taken
      refine .taken row.table fun apart => ?_
      rw [List.map_append, List.map_cons] at apart
      exact (List.nodup_append.mp apart).2.2 _ (hasKey_iff.mp taken) _ List.mem_cons_self rfl
    · rename_i free
      split
      · refine .cons (ih (records.withChild ruleId row) ?_)
        rw [childrenOf_withChild, List.map_append, List.map_singleton]
        exact List.nodup_append.mpr ⟨held, List.nodup_singleton _, by
          rintro place member _ last rfl
          exact free (hasKey_iff.mpr (List.mem_singleton.mp last ▸ member))⟩
      · rename_i unanchored
        exact .loose row.table fun anchors => unanchored (anchors row List.mem_cons_self)

end Records

/-- What came of statements, as an operation on rules answers it. -/
def RuleError.ofOutcome (outcome : Except DatabaseFault Records) : Except RuleError Unit :=
  (outcome.mapError DatabaseFault.toRuleError).map fun _ => ()

@[simp] theorem RuleError.ofOutcome_ok (last : Records) : ofOutcome (.ok last) = .ok () := rfl

@[simp] theorem RuleError.ofOutcome_error (fault : DatabaseFault) :
    ofOutcome (.error fault) = .error fault.toRuleError := rfl

namespace RuleDatabase

variable {database : RuleDatabase} {write : Statement} {untouched : RuleError}
  {rest : List Statement} {touched : Nat} {next : Records}

private theorem result_sendAll {statements : List Statement} (forth : .rollback ∉ statements) :
    (server.sendAll statements database).result =
      RuleError.ofOutcome (database.records.runAll statements) := by
  induction statements generalizing database with
  | nil => rfl
  | cons statement rest ih =>
    obtain ⟨first, later⟩ := not_or.mp (mt List.mem_cons.mpr forth)
    rw [Server.sendAll, Records.runAll]
    cases ran : database.records.run statement with
    | error fault =>
      have answer : server.execute database statement = (.error fault, database) := by
        simp only [server, execute, ran]
      rw [server.send_eq database answer, Transcript.andThen_of_error rfl]
      rfl
    | ok outcome =>
      obtain ⟨touched, records⟩ := outcome
      obtain ⟨answer, left⟩ := execute_of_run (Ne.symm first) ran
      rw [server.send_eq database (Prod.ext answer rfl), Transcript.andThen_of_ok rfl]
      exact (ih later).trans (by rw [← left]; rfl)

/-- A transaction is answered as what was done inside of it. -/
theorem result_inTransaction (body : RuleDatabase → Transcript RuleDatabase Unit) :
    (server.inTransaction body database).result =
      (body ⟨database.records, some database.records⟩).result := by
  have begun : server.execute database .begin =
      (.ok 0, ⟨database.records, some database.records⟩) := rfl
  rw [Server.inTransaction, server.send_eq database begun, Transcript.andThen_of_ok rfl]
  dsimp only
  cases result : (body ⟨database.records, some database.records⟩).result with
  | error e => rw [Transcript.andThen_of_error result]
  | ok _ =>
    rw [Transcript.andThen_of_ok result]
    rfl

/-- A write whose row of rules was touched is answered as the statements after it. -/
theorem result_writing (ran : database.records.run write = .ok (touched, next))
    (touches : touched ≠ 0) (forth : write ≠ .rollback) (forth' : .rollback ∉ rest) :
    (server.inTransaction (fun state => (server.sendTouching write untouched state).andThen
      fun _ state => server.sendAll rest state) database).result =
      RuleError.ofOutcome (next.runAll rest) := by
  let begun : RuleDatabase := ⟨database.records, some database.records⟩
  have ran' : begun.records.run write = .ok (touched, next) := ran
  obtain ⟨answer, left⟩ := execute_of_run forth ran'
  have sent : (server.sendTouching write untouched begun).result = .ok () :=
    Server.result_sendTouching_eq_ok.mpr ⟨touched, answer, touches⟩
  rw [result_inTransaction, Transcript.andThen_of_ok sent, result_sendAll forth',
    Server.server_sendTouching]
  exact congrArg (fun records => RuleError.ofOutcome (records.runAll rest)) left

end RuleDatabase

/-- The row of a rule with a consistent target breaks no constraint. -/
theorem RuleRow.fault?_ofRule {rule : Rule} (consistent : rule.scopeViolation? = none)
    (now : Instant) : (RuleRow.ofRule rule now).fault? = none := by
  have whole : (RuleRow.ofRule rule now).constraints.map Prod.snd = [true, true, true, true] := by
    have family : (Named.name rule.targetScope == Named.name TargetScope.entityType) =
        (rule.targetEntityType.map Named.name).isSome := by
      cases scope : rule.targetScope <;> cases family : rule.targetEntityType <;>
        simp [Rule.scopeViolation?, scope, family] at consistent <;> rfl
    simp only [constraints, ofRule, List.map_cons, List.map_nil, Named.Readable.read, family,
      Option.isSome_some, beq_self_eq_true]
    cases rule.actor <;> rfl
  rw [fault?, Option.map_eq_none_iff, List.find?_eq_none]
  intro constraint member
  have met : constraint.2 ∈ [true, true, true, true] := whole ▸ List.mem_map_of_mem member
  simp only [List.mem_cons, List.not_mem_nil, or_false, or_self] at met
  simp [met]

namespace Records

variable {records : Records} {rule : Rule}

private theorem effectIds_after_clears (records : Records) (ruleId : String)
    (tables : List ChildTable) (kind : EffectKind) :
    (records.after (tables.map (.clearChildren · ruleId))).effectIds kind =
      records.effectIds kind := by
  induction tables generalizing records with
  | nil => rfl
  | cons table rest ih => exact (ih _).trans (by cases kind <;> rfl)

/-- A rule that is there and links effects that are there has all that its rows refer to. -/
theorem anchors_ofRule (there : rule.id ∈ records.rules.map RuleRow.id)
    (linked : ∀ link ∈ rule.effects, link.effectId ∈ records.effectIds link.kind) :
    records.Anchors rule.id (ChildRow.ofRule rule) := by
  intro row member
  obtain ⟨held, present, same⟩ := List.mem_map.mp there
  have owned : records.rules.any (fun held => held.id == rule.id) = true :=
    List.any_eq_true.mpr ⟨held, present, by simpa using same⟩
  cases row with
  | link link =>
    rw [isAnchored, owned, Bool.true_and]
    have listed : link ∈ rule.effects := by
      rw [← ChildRow.filterMap_link?_ofRule rule]
      exact List.mem_filterMap.mpr ⟨_, member, rfl⟩
    exact List.contains_iff_mem.mpr (linked link listed)
  | _ => exact Bool.and_eq_true_iff.mpr ⟨owned, rfl⟩

end Records

namespace RuleWrite

variable {database : RuleDatabase} {rule : Rule} {write : RuleWrite}

/-- A write that finds what it needs is answered as the insertion of the rows that belong to its
rule, into records in which none do yet. -/
theorem Fits.exists_cleared (fits : Fits database.records rule write)
    (consistent : database.records.Consistent) (aimed : rule.scopeViolation? = none)
    (now : Instant) : ∃ cleared : Records,
      (write.sent RuleDatabase.server now database).result =
        RuleError.ofOutcome (cleared.runAll (Server.childInserts rule)) ∧
      cleared.childrenOf rule.id = [] ∧ rule.id ∈ cleared.rules.map RuleRow.id ∧
      ∀ kind, cleared.effectIds kind = database.records.effectIds kind := by
  have faultless := RuleRow.fault?_ofRule aimed now
  cases fits with
  | create free =>
    have ran : database.records.run (.insertRule (.ofRule rule now)) =
        .ok (database.records.effect (.insertRule (.ofRule rule now))) := by
      simp only [Records.run, Records.insertRule, Records.effect, faultless]
      split <;> rfl
    rw [Records.effect_insertRule_of_free free] at ran
    refine ⟨_, RuleDatabase.result_writing ran Nat.one_ne_zero Statement.noConfusion
      (by simp [Server.childInserts]), ?_, ?_, fun kind => by cases kind <;> rfl⟩
    · exact consistent.childrenOf_eq_nil free
    · simp [RuleRow.ofRule]
  | update live =>
    let written := database.records.effect (.updateRule (.ofRule rule now))
    have ran : database.records.run (.updateRule (.ofRule rule now)) = .ok written := by
      simp only [Records.run, Records.updateRule, faultless]
      rfl
    -- the version before loses its rows first, so the new ones cannot meet them
    refine ⟨written.2.after (Server.childDeletes rule.id), ?_, ?_, ?_, fun kind => ?_⟩
    · rw [sent, Server.updateRule, RuleDatabase.result_writing ran
        (Records.touched_updateRule.mpr live) Statement.noConfusion
        (by simp [Server.childDeletes, Server.childInserts]), Records.runAll_append,
        Server.childDeletes, Records.runAll_clears]
      rfl
    · exact written.2.childrenOf_childDeletes rule.id
    · rw [Server.childDeletes, (written.2.after_clears rule.id ChildTable.all).1,
        Records.ids_updateRule]
      obtain ⟨row, held, same, _⟩ := live
      exact List.mem_map.mpr ⟨row, held, same⟩
    · exact written.2.effectIds_after_clears rule.id ChildTable.all kind

/-- Of the accepted rules exactly those that link no effect twice have rows that are apart. Such a
rule is never refused because a key is taken; where the effects that it links are there, it is
written, and every other rule is refused for a key that its own rows take twice. -/
theorem Fits.keysTaken_iff {compiler : Compiler}
    (accepted : (compiler.compileStrict rule).1.isOk = true)
    (fits : Fits database.records rule write) (consistent : database.records.Consistent)
    (now : Instant) :
    (rule.KeysApart ↔ rule.LinksOnce) ∧
      (rule.LinksOnce → ∀ table : ChildTable,
        (write.sent RuleDatabase.server now database).result ≠
          .error table.duplicateKey.toRuleError) ∧
      ((∀ link ∈ rule.effects, link.effectId ∈ database.records.effectIds link.kind) →
        ((write.sent RuleDatabase.server now database).result = .ok () ↔ rule.LinksOnce) ∧
          (¬ rule.LinksOnce → ∃ table : ChildTable,
            (write.sent RuleDatabase.server now database).result =
              .error table.duplicateKey.toRuleError)) := by
  have acceptable := Compiler.isOk_compileStrict_iff.mp accepted
  have aimed := (Rule.violations_of_validate acceptable.valid).1
  obtain ⟨cleared, result, none_held, there, effects⟩ := fits.exists_cleared consistent aimed now
  have inserts := cleared.inserts_runAll rule.id (ChildRow.ofRule rule) (by simp [none_held])
  have apart : ((cleared.childrenOf rule.id ++ ChildRow.ofRule rule).map ChildRow.place).Nodup ↔
      rule.LinksOnce := by
    rw [none_held, List.nil_append]
    exact rule.keysApart_iff_linksOnce
  rw [← Server.childInserts] at inserts
  rw [result, ← apart]
  generalize cleared.runAll (Server.childInserts rule) = outcome at inserts ⊢
  refine ⟨rule.keysApart_iff_linksOnce.trans apart.symm, fun links table => ?_, fun linked => ?_⟩
  · cases inserts with
    | all last _ => simp
    | taken other meet => exact absurd links meet
    | loose other _ => exact fun same =>
        other.foreignKey_ne_duplicateKey table (Except.error.inj same)
  · have anchors := Records.anchors_ofRule there fun link member =>
      effects link.kind ▸ linked link member
    cases inserts with
    | all last links => exact ⟨iff_of_true rfl links, fun meet => absurd links meet⟩
    | taken table meet => exact ⟨iff_of_false (by simp) meet, fun _ => ⟨table, rfl⟩⟩
    | loose table unanchored => exact absurd anchors unanchored

end RuleWrite

section Samples

theorem keysTaken_iff_meterRule :
    (Compiler.new.compileStrict meterRule).1.isOk = true ∧
      RuleWrite.Fits meterDatabase.records meterRule (.update meterRule) ∧
      meterDatabase.records.Consistent ∧ meterRule.LinksOnce ∧
      ((RuleWrite.update meterRule).sent RuleDatabase.server default meterDatabase).result =
        .ok () := by
  have accepted : (Compiler.new.compileStrict meterRule).1.isOk = true := by decide +kernel
  have fits : RuleWrite.Fits meterDatabase.records meterRule (.update meterRule) :=
    .update ⟨_, .tail _ (.head _), rfl, rfl⟩
  have consistent : meterDatabase.records.Consistent := by
    constructor <;> decide +kernel
  have linked : ∀ link ∈ meterRule.effects,
      link.effectId ∈ meterDatabase.records.effectIds link.kind := by decide +kernel
  obtain ⟨apart, _, taken⟩ := fits.keysTaken_iff accepted consistent default
  have links : meterRule.LinksOnce := apart.mp (by decide +kernel)
  exact ⟨accepted, fits, consistent, links, (taken linked).1.mpr links⟩

/-- A rule that links one fee twice. -/
def doubledRule : Rule :=
  { Rule.ofCondition "doubled" pricingDomain "doubled" (.bool true) with
    pricingConfig := some ⟨.compound, .postDiscount⟩
    effects := [⟨.fee, "delivery", 0⟩, ⟨.fee, "delivery", 0⟩] }

/-- The rule is accepted, and a database that has the fee refuses to write it. -/
theorem not_keysApart_doubledRule :
    (Compiler.new.compileStrict doubledRule).1.isOk = true ∧
      RuleWrite.Fits meterDatabase.records doubledRule (.create doubledRule) ∧
      ¬ doubledRule.KeysApart ∧
      ((RuleWrite.create doubledRule).sent RuleDatabase.server default meterDatabase).result =
        .error (.storageUnavailable ("error returned from database: " ++
          "duplicate key value violates unique constraint \"rule_fees_pkey\"")) :=
  ⟨by decide +kernel, .create (by decide +kernel), by decide +kernel, by decide +kernel⟩

end Samples

end RuleBook
