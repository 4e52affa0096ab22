import RuleBook.Proofs.Database.RoundTrip
import RuleBook.Proofs.Database.Versions

/-! # Snapshots beside an update

The queries of a snapshot are not sent in a transaction, so an update over another connection may be
committed after any of them. A visited server is one on which that happens. Every query yields rows
of the records at its own time: those before the update up to the point of the visit, and those after
it from there on. So a rule of the snapshot is in one piece only where its two versions agree on one
side of the point.
-/

namespace RuleBook

namespace TableQuery

private theorem earlier_of_mem {point query : TableQuery} (passed : point ∈ query.earlier) :
    ∃ rest, query.earlier = (point.earlier ++ [point]) ++ rest ∧ point ∉ rest := by
  refine ⟨query.earlier.drop (point.earlier.length + 1), ?_⟩
  revert passed
  cases point <;> cases query <;> decide

private theorem not_mem_earlier_self (point : TableQuery) : point ∉ point.earlier := by
  cases point <;> decide

end TableQuery

namespace Server

variable {σ : Type}

/-- A server that is visited over another connection right after a query. -/
def visited (server : Server σ) (visit : σ → σ) (point : TableQuery) : Server σ where
  execute := server.execute
  read state query :=
    let (rows, next) := server.read state query
    (rows, if query = point then visit next else next)

/-- A server on which an update of a rule is carried out over another connection right after a
query. -/
def updatedBeside (server : Server σ) (rule : Rule) (now : Instant) (point : TableQuery) :
    Server σ :=
  server.visited (fun met => (server.updateRule rule now met).server) point

/-- The state in which a visit after a query finds the server. -/
def met (server : Server σ) (point : TableQuery) (state : σ) : σ :=
  server.readAll state (point.earlier ++ [point])

section Visited

variable {server : Server σ} {records : σ → Records} {visit : σ → σ} {point : TableQuery}
  {queries : List TableQuery} {state : σ}

private theorem readAll_append (server : Server σ) (state : σ) (first second : List TableQuery) :
    server.readAll state (first ++ second) = server.readAll (server.readAll state first) second :=
  List.foldl_append

/-- A visit after another query is not noticed. -/
theorem readAll_visited_of_not_mem (elsewhere : point ∉ queries) :
    (server.visited visit point).readAll state queries = server.readAll state queries := by
  induction queries generalizing state with
  | nil => rfl
  | cons query rest ih =>
    obtain ⟨first, others⟩ := not_or.mp (mt List.mem_cons.mpr elsewhere)
    have read : ((server.visited visit point).read state query).2 = (server.read state query).2 :=
      if_neg (Ne.symm first)
    rw [readAll, List.foldl_cons, read]
    exact ih others

/-- Up to the visit the records are those before it, and from there on those that it left. -/
theorem Keeps.records_readAll_visited (keeps : server.Keeps records) (query : TableQuery) :
    records ((server.visited visit point).readAll state query.earlier) =
      if point ∈ query.earlier then records (visit (server.met point state)) else records state := by
  split
  · rename_i passed
    obtain ⟨rest, parts, elsewhere⟩ := TableQuery.earlier_of_mem passed
    rw [parts, readAll_append, readAll_visited_of_not_mem elsewhere, keeps.records_readAll,
      readAll_append, readAll_visited_of_not_mem point.not_mem_earlier_self, met, readAll_append]
    exact congrArg records (if_pos rfl)
  · rename_i ahead
    rw [readAll_visited_of_not_mem ahead, keeps.records_readAll]

end Visited

end Server

/-- The snapshot of all records as they are at one time. -/
def Records.snapshot (records : Records) : Snapshot := records.tables.snapshot

/-- The tables hold what the queries yielded when the records changed right after one of them, and
neither before nor after the change does a rule have two configurations of one kind. -/
structure Tables.Straddles (tables : Tables) (point : TableQuery) (before after : Records) : Prop where
  early : ∀ query, point ∉ query.earlier →
    (tables.rows query).Perm ((before.select query).map query.stored)
  late : ∀ query, point ∈ query.earlier →
    (tables.rows query).Perm ((after.select query).map query.stored)
  ids : (before.rules.map RuleRow.id).Nodup
  ids' : (after.rules.map RuleRow.id).Nodup
  configured : before.Configured
  configured' : after.Configured

namespace Tables.Straddles

variable {tables : Tables} {point : TableQuery} {before after : Records} {entry : Audited Rule}
  {query : TableQuery} (straddles : tables.Straddles point before after)

include straddles

private theorem agreeOn_before (id : String) (ahead : point ∉ query.earlier) :
    tables.AgreeOn before.tables id query :=
  (Records.SameFor.refl before id).agreeOn straddles.configured (straddles.early query ahead)
    (before.show_tables query)

private theorem agreeOn_after (id : String) (passed : point ∈ query.earlier) :
    tables.AgreeOn after.tables id query :=
  (Records.SameFor.refl after id).agreeOn straddles.configured' (straddles.late query passed)
    (after.show_tables query)

/-- The rows of rules are asked for first, so they are those before the change. -/
theorem perm_rules : tables.rules.Perm ((before.select .rules).map TableQuery.rules.stored) :=
  straddles.early .rules List.not_mem_nil

private theorem perm_ids : (tables.snapshot.rules.map fun entry => entry.record.id).Perm
    (before.snapshot.rules.map fun entry => entry.record.id) := by
  simp only [Records.snapshot, snapshot, assembledRules, ids_completeLast]
  exact (straddles.perm_rules.filterMap _).map _

private theorem has_before_iff (member : entry ∈ tables.snapshot.rules) :
    before.snapshot.Has entry ↔ ∀ query, point ∈ query.earlier →
      before.tables.AgreeOn after.tables entry.record.id query := by
  refine (has_snapshot_iff member (Records.nodup_readableRules straddles.ids straddles.perm_rules)
    (Records.nodup_readableRules straddles.ids (before.show_tables .rules))).trans ?_
  constructor
  · intro agree query passed
    exact (agree query).symm.trans (straddles.agreeOn_after _ passed)
  · intro agree query
    by_cases passed : point ∈ query.earlier
    · exact (straddles.agreeOn_after _ passed).trans (agree query passed).symm
    · exact straddles.agreeOn_before _ passed

private theorem has_after_iff (member : entry ∈ tables.snapshot.rules) :
    after.snapshot.Has entry ↔ ∀ query, point ∉ query.earlier →
      before.tables.AgreeOn after.tables entry.record.id query := by
  refine (has_snapshot_iff member (Records.nodup_readableRules straddles.ids straddles.perm_rules)
    (Records.nodup_readableRules straddles.ids' (after.show_tables .rules))).trans ?_
  constructor
  · intro agree query ahead
    exact (straddles.agreeOn_before _ ahead).symm.trans (agree query)
  · intro agree query
    by_cases passed : point ∈ query.earlier
    · exact straddles.agreeOn_after _ passed
    · exact (straddles.agreeOn_before _ passed).trans (agree query passed)

end Tables.Straddles

namespace Server.Keeps

variable {σ : Type} {server : Server σ} {records : σ → Records} (keeps : server.Keeps records)
  {state : σ}

include keeps

/-- An update that succeeds found the rule and leaves its other version. -/
theorem records_updateRule {rule : Rule} {now : Instant}
    (committed : (server.updateRule rule now state).result = .ok ()) :
    (records state).HasLive rule.id ∧
      records (server.updateRule rule now state).server = (records state).updated rule now := by
  have touches := keeps.follows.touched_of_writing rfl (.updateRule _) committed
  have live : (records state).HasLive rule.id := Records.touched_updateRule.mp touches
  have sent := ((RuleWrite.update rule).transacts_sent server now state).done committed
  have succeeds : (server.updateRule rule now state).Succeeds := by
    intro exchange member
    obtain ⟨touched, answered, _⟩ := sent.2 exchange member
    rw [answered]
    rfl
  obtain ⟨_, _, left⟩ := keeps.follows.yields_updateRule rfl live succeeds
  exact ⟨live, left⟩

/-- What is read beside an update straddles it. -/
theorem yields_loadTables_visited (consistent : (records state).Consistent)
    (configured : (records state).Configured) (point : TableQuery) {rule : Rule} {now : Instant}
    (committed : (server.updateRule rule now (server.met point state)).result = .ok ()) :
    ((server.updatedBeside rule now point).loadTables state).Yields fun tables _ =>
      tables.Straddles point (records state)
        (records (server.updateRule rule now (server.met point state)).server) := by
  have answers : (server.updatedBeside rule now point).Answers records :=
    fun met query rows answered => keeps.rows met query rows answered
  have same : records (server.met point state) = records state := keeps.records_readAll _
  obtain ⟨live, left⟩ := keeps.records_updateRule committed
  rw [same] at live left
  refine answers.yields_loadTables.mono fun tables _ shown => ?_
  rw [left]
  have shown (query : TableQuery) : (tables.rows query).Perm
      (((if point ∈ query.earlier then (records state).updated rule now
        else records state).select query).map query.stored) := by
    have shown := shown query
    rwa [updatedBeside, keeps.records_readAll_visited query, left] at shown
  exact
    { early := fun query ahead => by simpa only [if_neg ahead] using shown query
      late := fun query passed => by simpa only [if_pos passed] using shown query
      ids := consistent.ids
      ids' := (Records.ids_updated _ rule now).symm ▸ consistent.ids
      configured := configured
      configured' := configured.updated consistent live now }

/-- A snapshot that is read beside an update of a rule, committed right after one of its queries,
shows the rules that were there. Every other rule is in the version that it had and has. An entry is
the version before the update exactly when the versions before and after it agree on what the later
queries ask, and it is the version after the update exactly when they agree on what the earlier
queries ask. -/
theorem has_iff_agreeOn (consistent : (records state).Consistent)
    (configured : (records state).Configured) (point : TableQuery) (rule : Rule) (now : Instant)
    (committed : (server.updateRule rule now (server.met point state)).result = .ok ())
    (loaded : ((server.updatedBeside rule now point).loadSnapshot state).Succeeds) :
    let before := records state
    let after := records (server.updateRule rule now (server.met point state)).server
    ∃ snapshot, ((server.updatedBeside rule now point).loadSnapshot state).result = .ok snapshot ∧
      (snapshot.rules.map fun entry => entry.record.id).Perm
        (before.snapshot.rules.map fun entry => entry.record.id) ∧
      ∀ entry ∈ snapshot.rules,
        (entry.record.id ≠ rule.id → before.snapshot.Has entry ∧ after.snapshot.Has entry) ∧
        (before.snapshot.Has entry ↔ ∀ query, point ∈ query.earlier →
          before.tables.AgreeOn after.tables entry.record.id query) ∧
        (after.snapshot.Has entry ↔ ∀ query, point ∉ query.earlier →
          before.tables.AgreeOn after.tables entry.record.id query) := by
  intro before after
  have same : records (server.met point state) = before := keeps.records_readAll _
  have left : after = before.updated rule now := same ▸ (keeps.records_updateRule committed).2
  have read : ((server.updatedBeside rule now point).loadSnapshot state).Yields fun snapshot _ =>
      ∃ tables : Tables, tables.Straddles point before after ∧ snapshot = tables.snapshot := by
    refine (keeps.yields_loadTables_visited consistent configured point committed).andThen
      fun tables _ straddles => ?_
    exact .ofResult ⟨tables, straddles, rfl⟩
  obtain ⟨_, result, tables, straddles, rfl⟩ := read loaded
  refine ⟨tables.snapshot, result, straddles.perm_ids, fun entry member => ⟨fun other => ?_, ?_⟩⟩
  · have agree (query : TableQuery) : before.tables.AgreeOn after.tables entry.record.id query :=
      (left ▸ Records.sameFor_updated other before now).agreeOn straddles.configured'
        (before.show_tables query) (after.show_tables query)
    exact ⟨(straddles.has_before_iff member).mpr fun query _ => agree query,
      (straddles.has_after_iff member).mpr fun query _ => agree query⟩
  · exact ⟨straddles.has_before_iff member, straddles.has_after_iff member⟩

end Server.Keeps

section Samples

/-- The database of meters, on which the update of the meter is committed right after a query. -/
def visitedMeters (point : TableQuery) : Server RuleDatabase :=
  RuleDatabase.server.updatedBeside meterRule default point

/-- The database of meters after the update. -/
def updatedMeters : RuleDatabase :=
  (RuleDatabase.server.updateRule meterRule default meterDatabase).server

theorem has_iff_agreeOn_meterRule :
    meterDatabase.records.Consistent ∧ meterDatabase.records.Configured ∧
      (RuleDatabase.server.updateRule meterRule default
        (RuleDatabase.server.met .links meterDatabase)).result = .ok () ∧
      ((visitedMeters .links).loadSnapshot meterDatabase).Succeeds ∧
      ∃ snapshot, ((visitedMeters .links).loadSnapshot meterDatabase).result = .ok snapshot ∧
        ∀ entry ∈ snapshot.rules, meterDatabase.records.snapshot.Has entry := by
  have consistent : meterDatabase.records.Consistent := by
    constructor <;> decide +kernel
  have configured : meterDatabase.records.Configured :=
    consistent.configured (by decide +kernel)
  have succeeds : (RuleDatabase.server.updateRule meterRule default
      (RuleDatabase.server.met .links meterDatabase)).result.isOk = true := by decide +kernel
  obtain ⟨_, committed⟩ := Except.exists_of_isOk succeeds
  have loaded : ((visitedMeters .links).loadSnapshot meterDatabase).Succeeds := by
    unfold Transcript.Succeeds
    decide +kernel
  obtain ⟨snapshot, result, _, entries⟩ := RuleDatabase.keeps_server.has_iff_agreeOn consistent
    configured .links meterRule default committed loaded
  refine ⟨consistent, configured, committed, loaded, snapshot, result, ?_⟩
  intro entry member
  refine (entries entry member).2.1.mpr fun query passed => ?_
  -- No query about rules is sent after the one about links.
  cases query with
  | fees => exact True.intro
  | promotions => exact True.intro
  | taxRates => exact True.intro
  | _ => exact absurd passed (by decide)

/-- What decides whether a rule is heeded: its domain and its configurations. -/
def Audited.configuration (entry : Audited Rule) :
    String × Option AccessConfig × Option PricingConfig :=
  (entry.record.domain, entry.record.accessConfig, entry.record.pricingConfig)

private theorem Snapshot.Has.configuration_mem {snapshot : Snapshot} {entry : Audited Rule}
    (has : snapshot.Has entry) :
    entry.configuration ∈ snapshot.rules.map Audited.configuration := by
  obtain ⟨version, member, same⟩ := has
  exact List.mem_map.mpr ⟨version, member, (congrArg Audited.configuration same.rest).symm⟩

theorem not_whole_visitedMeters :
    ¬ ∀ point snapshot, ((visitedMeters point).loadSnapshot meterDatabase).result = .ok snapshot →
      ∀ entry ∈ snapshot.rules,
        meterDatabase.records.snapshot.Has entry ∨ updatedMeters.records.snapshot.Has entry := by
  intro whole
  have succeeds : ((visitedMeters .rules).loadSnapshot meterDatabase).result.isOk = true := by
    decide +kernel
  obtain ⟨snapshot, result⟩ := Except.exists_of_isOk succeeds
  have read : ((visitedMeters .rules).loadSnapshot meterDatabase).result.toOption.map
      (fun snapshot => snapshot.rules.map Audited.configuration) =
        some [(pricingDomain, none, none),
          (accessDomain, none, some ⟨.sequential, .postDiscount⟩)] := by
    decide +kernel
  rw [result] at read
  have read : snapshot.rules.map Audited.configuration = _ := Option.some.inj read
  have torn : (accessDomain, none, some ⟨.sequential, .postDiscount⟩) ∈
      snapshot.rules.map Audited.configuration := by
    rw [read]
    exact List.mem_cons_of_mem _ (List.mem_singleton_self _)
  obtain ⟨entry, member, same⟩ := List.mem_map.mp torn
  rcases whole .rules snapshot result entry member with old | new
  · exact absurd (same ▸ old.configuration_mem) (by decide +kernel)
  · exact absurd (same ▸ new.configuration_mem) (by decide +kernel)

end Samples

end RuleBook
