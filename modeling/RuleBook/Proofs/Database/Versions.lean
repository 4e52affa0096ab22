import RuleBook.Proofs.Database.Effects

/-! # Versions of a rule

What a snapshot says of a rule comes from the answers to six queries: its own row, its access group,
the way it enters prices, its targets, its tags and its links. Two snapshots have the same version
of the rule exactly when the answers agree on it, query by query. Records that tell the same of a
rule are read as the same version, whatever the order of the rows; and writing another version of a
rule leaves what the records tell of every other rule as it is.
-/

namespace RuleBook

/-- Two entries are the same version of a rule: the links may come in another order, and all else is
equal. -/
structure Audited.SameVersion (a b : Audited Rule) : Prop where
  links : a.record.effects.Perm b.record.effects
  rest : { a with record := { a.record with effects := b.record.effects } } = b

/-- The snapshot has the same version of a rule as an entry. -/
def Snapshot.Has (snapshot : Snapshot) (entry : Audited Rule) : Prop :=
  ∃ version ∈ snapshot.rules, entry.SameVersion version

namespace Tables

/-- What two sets of tables hold of a rule in the rows of a query stands for the same. -/
def AgreeOn (a b : Tables) (id : String) : TableQuery → Prop
  | .rules => ∀ entry : Audited Rule, entry.record.id = id →
      (entry ∈ a.readableRules ↔ entry ∈ b.readableRules)
  | .accessConfigs => a.accessConfig? id = b.accessConfig? id
  | .pricingConfigs => a.pricingConfig? id = b.pricingConfig? id
  | .targets => a.targetsOf id = b.targetsOf id
  | .tags => a.tagsOf id = b.tagsOf id
  | .links => (a.linksOf id).Perm (b.linksOf id)
  | .fees => True
  | .promotions => True
  | .taxRates => True

section AgreeOn

variable {a b c : Tables} {id : String} {query : TableQuery}

theorem AgreeOn.symm (agree : a.AgreeOn b id query) : b.AgreeOn a id query := by
  cases query with
  | rules => exact fun entry same => (agree entry same).symm
  | links => exact List.Perm.symm agree
  | fees => trivial
  | promotions => trivial
  | taxRates => trivial
  | _ => exact Eq.symm agree

theorem AgreeOn.trans (first : a.AgreeOn b id query) (second : b.AgreeOn c id query) :
    a.AgreeOn c id query := by
  cases query with
  | rules => exact fun entry same => (first entry same).trans (second entry same)
  | links => exact List.Perm.trans first second
  | fees => trivial
  | promotions => trivial
  | taxRates => trivial
  | _ => exact Eq.trans first second

end AgreeOn

/-- The entry of a rule with the rows that belong to it. -/
def completed (tables : Tables) (entry : Audited Rule) : Audited Rule :=
  { entry with record := tables.complete entry.record }

/-- Where ids are distinct every rule is completed. -/
theorem completeLast_eq_map (tables : Tables) {entries : List (Audited Rule)}
    (ids : (entries.map fun entry => entry.record.id).Nodup) :
    tables.completeLast entries = entries.map tables.completed := by
  induction entries with
  | nil => rfl
  | cons entry rest ih =>
    obtain ⟨fresh, ids⟩ := List.nodup_cons.mp ids
    have last : rest.any (fun later => later.record.id == entry.record.id) = false := by
      refine List.any_eq_false.mpr fun later member same => fresh ?_
      exact List.mem_map.mpr ⟨later, member, by simpa using same⟩
    rw [completeLast, last, if_neg Bool.false_ne_true, ih ids]
    rfl

/-- What is read from a row of rules has nothing from other tables. -/
theorem bare_of_mem_readableRules {tables : Tables} {entry : Audited Rule}
    (member : entry ∈ tables.readableRules) : entry.record.bare = entry.record := by
  obtain ⟨row, _, read⟩ := mem_readableRules.mp member
  obtain ⟨targetEntityType, _, read⟩ := Except.bind_eq_ok_iff.mp read
  obtain ⟨targetScope, _, read⟩ := Except.bind_eq_ok_iff.mp read
  obtain ⟨effect, _, read⟩ := Except.bind_eq_ok_iff.mp read
  obtain ⟨actor, _, read⟩ := Except.bind_eq_ok_iff.mp read
  obtain rfl := Except.ok.inj read
  rfl

/-- The same version comes from the same row and from tables that agree on all else. -/
theorem sameVersion_completed_iff {a b : Tables} {entry other : Audited Rule}
    (bare : entry.record.bare = entry.record) (bare' : other.record.bare = other.record) :
    (a.completed entry).SameVersion (b.completed other) ↔
      entry = other ∧ ∀ query, query ≠ .rules → a.AgreeOn b entry.record.id query := by
  constructor
  · rintro ⟨links, rest⟩
    have same : entry = other := by
      have rest := congrArg (fun version : Audited Rule =>
        { version with record := version.record.bare }) rest
      calc entry = { entry with record := entry.record.bare } := by rw [bare]
        _ = { other with record := other.record.bare } := rest
        _ = other := by rw [bare']
    subst same
    have record := congrArg Audited.record rest
    refine ⟨rfl, fun query others => ?_⟩
    cases query with
    | rules => exact absurd rfl others
    | accessConfigs => exact congrArg Rule.accessConfig record
    | pricingConfigs => exact congrArg Rule.pricingConfig record
    | targets => exact congrArg Rule.targets record
    | tags => exact congrArg Rule.tags record
    | links => exact links
    | fees => trivial
    | promotions => trivial
    | taxRates => trivial
  · rintro ⟨rfl, agree⟩
    refine ⟨agree .links TableQuery.noConfusion, ?_⟩
    have access : a.accessConfig? _ = b.accessConfig? _ := agree .accessConfigs TableQuery.noConfusion
    have pricing : a.pricingConfig? _ = b.pricingConfig? _ :=
      agree .pricingConfigs TableQuery.noConfusion
    have targets : a.targetsOf _ = b.targetsOf _ := agree .targets TableQuery.noConfusion
    have tags : a.tagsOf _ = b.tagsOf _ := agree .tags TableQuery.noConfusion
    simp only [completed, complete, access, pricing, targets, tags]

/-- A snapshot has the same version of a rule as an entry of another one exactly when the tables
from which they were put together agree on the rule, query by query. -/
theorem has_snapshot_iff {a b : Tables} {entry : Audited Rule} (member : entry ∈ a.snapshot.rules)
    (ids : (a.readableRules.map fun entry => entry.record.id).Nodup)
    (ids' : (b.readableRules.map fun entry => entry.record.id).Nodup) :
    b.snapshot.Has entry ↔ ∀ query, a.AgreeOn b entry.record.id query := by
  simp only [Snapshot.Has, snapshot, assembledRules, completeLast_eq_map _ ids,
    completeLast_eq_map _ ids'] at member ⊢
  obtain ⟨read, held, rfl⟩ := List.mem_map.mp member
  have bare := bare_of_mem_readableRules held
  constructor
  · rintro ⟨_, member, same⟩
    obtain ⟨read', held', rfl⟩ := List.mem_map.mp member
    obtain ⟨rfl, agree⟩ := (sameVersion_completed_iff bare (bare_of_mem_readableRules held')).mp same
    intro query
    by_cases rules : query = .rules
    · subst rules
      intro other same
      constructor
      · intro held''
        rwa [List.inj_on_of_nodup_map ids held'' held same]
      · intro held''
        rwa [List.inj_on_of_nodup_map ids' held'' held' same]
    · exact agree query rules
  · intro agree
    have held' : read ∈ b.readableRules := (agree .rules read rfl).mp held
    refine ⟨b.completed read, List.mem_map_of_mem held', ?_⟩
    exact (sameVersion_completed_iff bare bare).mpr ⟨rfl, fun query _ => agree query⟩

/-- Every readable rule has the id of its row. -/
theorem sublist_ids_readableRules (tables : Tables) :
    (tables.readableRules.map fun entry => entry.record.id).Sublist
      (tables.rules.map RuleRow.id) := by
  simp only [readableRules]
  induction tables.rules with
  | nil => exact .slnil
  | cons row rest ih =>
    cases read : row.toRule with
    | error e =>
      rw [List.filterMap_cons_none (by rw [read]; rfl)]
      exact ih.cons _
    | ok entry =>
      rw [List.filterMap_cons_some (by rw [read]; rfl), List.map_cons, id_of_toRule read]
      exact ih.cons_cons _

end Tables

namespace Records

/-- The rows of all queries, as they are at one time. -/
def tables (records : Records) : Tables where
  rules := (records.select .rules).map RuleRow.inMicroseconds
  accessConfigs := records.select .accessConfigs
  pricingConfigs := records.select .pricingConfigs
  targets := records.select .targets
  tags := records.select .tags
  links := records.select .links
  fees := (records.select .fees).map FeeRow.inMicroseconds
  promotions := (records.select .promotions).map PromotionRow.inMicroseconds
  taxRates := (records.select .taxRates).map TaxRateRow.inMicroseconds

theorem show_tables (records : Records) : records.tables.Show records := by
  intro query
  refine .of_eq ?_
  cases query <;> first | rfl | exact (List.map_id _).symm

/-- No rule has two access groups or enters prices in two ways. -/
structure Configured (records : Records) : Prop where
  access : ∀ id, ((records.childrenOf id).filterMap ChildRow.access?).length ≤ 1
  pricing : ∀ id, ((records.childrenOf id).filterMap ChildRow.pricing?).length ≤ 1

/-- Only rules that are there have configurations. -/
theorem Consistent.configured {records : Records} (consistent : records.Consistent)
    (single : ∀ id ∈ records.rules.map RuleRow.id,
      ((records.childrenOf id).filterMap ChildRow.access?).length ≤ 1 ∧
        ((records.childrenOf id).filterMap ChildRow.pricing?).length ≤ 1) :
    records.Configured := by
  have absent (id : String) (free : id ∉ records.rules.map RuleRow.id) :
      records.childrenOf id = [] := consistent.childrenOf_eq_nil free
  constructor
  · intro id
    by_cases there : id ∈ records.rules.map RuleRow.id
    · exact (single id there).1
    · rw [absent id there]
      exact Nat.zero_le 1
  · intro id
    by_cases there : id ∈ records.rules.map RuleRow.id
    · exact (single id there).2
    · rw [absent id there]
      exact Nat.zero_le 1

/-- Two sets of records tell the same of a rule. -/
structure SameFor (first second : Records) (id : String) : Prop where
  rules : first.rules.filter (·.id == id) = second.rules.filter (·.id == id)
  children : first.childrenOf id = second.childrenOf id

theorem SameFor.refl (records : Records) (id : String) : records.SameFor records id := ⟨rfl, rfl⟩

/-- The readable rows of a rule come from its rows that are not marked as deleted. -/
theorem perm_readableRules {tables : Tables} {records : Records} (id : String)
    (shown : tables.rules.Perm ((records.select .rules).map TableQuery.rules.stored)) :
    (tables.readableRules.filter fun held => held.record.id == id).Perm
      ((((records.rules.filter (·.id == id)).filter fun row => row.deletedAt.isNone).map
        RuleRow.inMicroseconds).filterMap fun row => row.toRule.toOption) := by
  rw [Tables.filter_readableRules]
  refine ((shown.filter _).filterMap _).trans (.of_eq ?_)
  rw [select, List.filter_map, List.filter_comm]
  rfl

section SameFor

variable {first second : Records} {a b : Tables} {id : String} {query : TableQuery}

/-- Records that tell the same of a rule yield rows that stand for the same. -/
theorem SameFor.agreeOn (same : first.SameFor second id) (configured : second.Configured)
    (shown : (a.rows query).Perm ((first.select query).map query.stored))
    (shown' : (b.rows query).Perm ((second.select query).map query.stored)) :
    a.AgreeOn b id query := by
  cases query with
  | rules =>
    intro entry under
    have perm := perm_readableRules id shown
    rw [same.rules] at perm
    have mem := (perm.trans (perm_readableRules id shown').symm).mem_iff (a := entry)
    simpa [under] using mem
  | accessConfigs =>
    have parts := Tables.perm_accessConfigs id shown
    rw [same.children] at parts
    exact (Tables.getLast?_eq_of_perm parts (configured.access id)).trans
      (Tables.getLast?_eq_of_perm (Tables.perm_accessConfigs id shown') (configured.access id)).symm
  | pricingConfigs =>
    have parts := Tables.perm_pricingConfigs id shown
    rw [same.children] at parts
    exact (Tables.getLast?_eq_of_perm parts (configured.pricing id)).trans
      (Tables.getLast?_eq_of_perm (Tables.perm_pricingConfigs id shown') (configured.pricing id)).symm
  | targets =>
    have parts := Tables.perm_targets id shown
    rw [same.children] at parts
    refine RuleTargets.ext_idsFor fun family => TextSet.ext_mem fun target => ?_
    rw [Tables.targetsOf, Tables.targetsOf, RuleTargets.mem_idsFor_foldl,
      RuleTargets.mem_idsFor_foldl, (parts.trans (Tables.perm_targets id shown').symm).mem_iff]
  | tags =>
    have parts := Tables.perm_tags id shown
    rw [same.children] at parts
    refine TextSet.ext_mem fun tag => ?_
    rw [Tables.tagsOf, Tables.tagsOf, TextSet.mem_ofList, TextSet.mem_ofList]
    exact (parts.trans (Tables.perm_tags id shown').symm).mem_iff
  | links =>
    have parts := Tables.perm_links id shown
    rw [same.children] at parts
    exact parts.trans (Tables.perm_links id shown').symm
  | fees => trivial
  | promotions => trivial
  | taxRates => trivial

end SameFor

/-- Rows of rules with distinct ids are read as rules with distinct ids. -/
theorem nodup_readableRules {records : Records} {tables : Tables}
    (ids : (records.rules.map RuleRow.id).Nodup)
    (shown : tables.rules.Perm ((records.select .rules).map TableQuery.rules.stored)) :
    (tables.readableRules.map fun entry => entry.record.id).Nodup := by
  refine List.Nodup.sublist tables.sublist_ids_readableRules ?_
  refine (shown.map RuleRow.id).nodup_iff.mpr ?_
  rw [List.map_map]
  exact List.Nodup.sublist (List.filter_sublist.map _) ids

section Update

variable {records : Records} {id : String}

private theorem rules_updated (records : Records) (rule : Rule) (now : Instant) :
    (records.updated rule now).rules = (records.changeLive rule.id fun held =>
      { RuleRow.ofRule rule now with
        createdAt := held.createdAt, deletedAt := held.deletedAt }).2.rules := by
  rw [updated, after_cons, after_append, Server.childInserts, after_inserts]
  dsimp only
  rw [Server.childDeletes, (after_clears _ rule.id ChildTable.all).1]
  rfl

/-- Writing another version of a rule keeps the ids of all rules. -/
theorem ids_updated (records : Records) (rule : Rule) (now : Instant) :
    (records.updated rule now).rules.map RuleRow.id = records.rules.map RuleRow.id := by
  rw [rules_updated]
  exact records.ids_updateRule (.ofRule rule now)

/-- Emptying tables of what belongs to a rule leaves what belongs to others. -/
theorem childrenOf_after_clears_of_ne {ruleId : String} (other : id ≠ ruleId)
    (records : Records) (tables : List ChildTable) :
    (records.after (tables.map (.clearChildren · ruleId))).childrenOf id =
      records.childrenOf id := by
  induction tables generalizing records with
  | nil => rfl
  | cons table rest ih =>
    rw [List.map_cons, after_cons, ih]
    simp only [effect, clearChildren, childrenOf, List.filterMap_filter]
    refine List.filterMap_congr fun child _ => ?_
    by_cases own : child.1 = id
    · simp [own, other]
    · simp [own]

private theorem childrenOf_updated_of_ne {rule : Rule} (other : id ≠ rule.id) (records : Records)
    (now : Instant) : (records.updated rule now).childrenOf id = records.childrenOf id := by
  rw [updated, after_cons, after_append, Server.childInserts, after_inserts]
  have inserted : (((ChildRow.ofRule rule).map (Prod.mk rule.id)).filterMap fun child =>
      if child.1 = id then some child.2 else none) = [] := by
    simp [other.symm]
  rw [childrenOf, List.filterMap_append, inserted, List.append_nil]
  exact childrenOf_after_clears_of_ne other _ ChildTable.all

/-- Writing another version of a rule leaves what the records tell of other rules. -/
theorem sameFor_updated {rule : Rule} (other : id ≠ rule.id) (records : Records) (now : Instant) :
    records.SameFor (records.updated rule now) id := by
  refine ⟨?_, (childrenOf_updated_of_ne other records now).symm⟩
  rw [rules_updated]
  simp only [changeLive]
  induction records.rules with
  | nil => rfl
  | cons row rest ih =>
    rw [List.map_cons]
    split
    · rename_i live
      rw [List.filter_cons_of_neg (by simp [(RuleRow.isLiveUnder_iff.mp live).1, other.symm]),
        List.filter_cons_of_neg (by simp [RuleRow.ofRule, other.symm]), ih]
    · rw [List.filter_cons, List.filter_cons, ih]

/-- Writing another version of a rule that is there gives it at most one access group and one way
to enter prices. -/
theorem Configured.updated (configured : records.Configured) (consistent : records.Consistent)
    {rule : Rule} (live : records.HasLive rule.id) (now : Instant) :
    (records.updated rule now).Configured := by
  have own : (records.updated rule now).childrenOf rule.id = ChildRow.ofRule rule :=
    (consistent.stores_updated now live).children
  constructor
  · intro id
    by_cases same : id = rule.id
    · rw [same, own, ChildRow.filterMap_access?_ofRule]
      exact rule.accessConfig.length_toList_le
    · rw [childrenOf_updated_of_ne same]
      exact configured.access id
  · intro id
    by_cases same : id = rule.id
    · rw [same, own, ChildRow.filterMap_pricing?_ofRule]
      exact rule.pricingConfig.length_toList_le
    · rw [childrenOf_updated_of_ne same]
      exact configured.pricing id

end Update

end Records

end RuleBook
