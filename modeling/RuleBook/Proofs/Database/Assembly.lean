import Mathlib.Data.List.Perm.Basic
import RuleBook.Proofs.Database.Records

/-! # Putting a rule together

Records store a rule when its row is there once and the rows that belong to it are those of the
rule. Whatever the order in which a database yields its rows, a rule that is stored is put together
from them as it was: its row is read back name by name, and each of its parts from its own table.
Only its links may come in another order.
-/

namespace RuleBook

/-- Two sets with the same members are the same. -/
theorem TextSet.ext_mem {a b : TextSet} (same : ∀ text, text ∈ a ↔ text ∈ b) : a = b := by
  obtain ⟨as, as_sorted⟩ := a
  obtain ⟨bs, bs_sorted⟩ := b
  have perm : as.Perm bs := (List.perm_ext_iff_of_nodup (TextSet.nodup_toList ⟨as, as_sorted⟩)
    (TextSet.nodup_toList ⟨bs, bs_sorted⟩)).mpr same
  have equal : as = bs := by
    refine List.Perm.eq_of_pairwise ?_ as_sorted bs_sorted perm
    intro x y _ _ first second
    exact absurd (String.lt_trans first second) (Std.lt_irrefl)
  subst equal
  rfl

section Names

/-- Every name is read back as the value that has it. -/
class Named.Readable (α : Type) [Named α] : Prop where
  read : ∀ value : α, Named.ofName? (Named.name value) = some value

instance : Named.Readable TargetScope := ⟨fun value => by cases value <;> rfl⟩

instance : Named.Readable EntityType := ⟨fun value => by cases value <;> rfl⟩

instance : Named.Readable RuleEffect := ⟨fun value => by cases value <;> rfl⟩

instance : Named.Readable PriorityGroup := ⟨fun value => by cases value <;> rfl⟩

instance : Named.Readable StackingBehavior := ⟨fun value => by cases value <;> rfl⟩

instance : Named.Readable CalculationPhase := ⟨fun value => by cases value <;> rfl⟩

instance : Named.Readable EffectKind := ⟨fun value => by cases value <;> rfl⟩

private theorem Named.parse_name {α : Type} [Named α] [Named.Readable α] (value : α) :
    Named.parse (Named.name value) = .ok value := by
  rw [Named.parse, Named.Readable.read]

private theorem EntityType.parse_name (family : EntityType) :
    EntityType.parse (Named.name family) = .ok family := by
  rw [EntityType.parse, Named.Readable.read]

/-- A complete author is read back from its columns. -/
theorem Actor.ofColumns_columns {actor : Actor} (complete : actor.validate = .ok ()) :
    Actor.ofColumns (Named.name actor.kind) actor.actorId? actor.orgId? = .ok actor := by
  have itself : actor.complete = .ok actor := by
    simp only [Actor.complete, complete, bind, Except.bind]
    rfl
  cases actor with
  | system => rfl
  | user userId orgId => exact itself
  | apiToken orgId => exact itself

end Names

/-- A rule without what other tables than that of rules hold of it. -/
def Rule.bare (rule : Rule) : Rule :=
  { rule with
    accessConfig := none
    pricingConfig := none
    targets := .empty
    tags := .empty
    effects := [] }

/-- The row is that of a rule, as it was written at some time after it had been created at some
other time. -/
def RuleRow.Holds (row : RuleRow) (rule : Rule) : Prop :=
  ∃ now created, row = { RuleRow.ofRule rule now with createdAt := created }

/-- The row of a rule is read back as the rule, but for what other tables hold of it. -/
theorem RuleRow.Holds.toRule {row : RuleRow} {rule : Rule} (holds : row.Holds rule)
    (complete : rule.actor.validate = .ok ()) :
    ∃ entry, row.inMicroseconds.toRule = .ok entry ∧ entry.record = rule.bare ∧
      entry.deletedAt = none := by
  obtain ⟨now, created, rfl⟩ := holds
  have family : entityType? (inMicroseconds { ofRule rule now with createdAt := created }) =
      .ok rule.targetEntityType := by
    cases aimed : rule.targetEntityType with
    | none => simp [ofRule, inMicroseconds, entityType?, aimed]
    | some family =>
      simp [ofRule, inMicroseconds, entityType?, aimed, EntityType.parse_name, Except.map]
  have author := Actor.ofColumns_columns complete
  refine ⟨⟨rule.bare, created.wholeMicroseconds, now.wholeMicroseconds, none⟩, ?_, rfl, rfl⟩
  simp only [RuleRow.toRule, family]
  simp only [RuleRow.ofRule, RuleRow.inMicroseconds, Named.parse_name, author, bind, Except.bind]
  rfl

section Children

namespace ChildRow

/-- The access group in a row. -/
def access? : ChildRow → Option AccessConfig
  | access config => some config
  | _ => none

/-- The way of entering prices in a row. -/
def pricing? : ChildRow → Option PricingConfig
  | pricing config => some config
  | _ => none

/-- The entity in a row. -/
def target? : ChildRow → Option EntityRef
  | target family entityId => some ⟨family, entityId⟩
  | _ => none

/-- The tag in a row. -/
def tag? : ChildRow → Option String
  | tag text => some text
  | _ => none

/-- The link in a row. -/
def link? : ChildRow → Option EffectLink
  | link held => some held
  | _ => none

/-- What is taken from the rows of a rule is taken part by part. -/
theorem filterMap_ofRule {α : Type} (part? : ChildRow → Option α) (rule : Rule) :
    (ofRule rule).filterMap part? =
      rule.accessConfig.toList.filterMap (part? ∘ access) ++
        rule.pricingConfig.toList.filterMap (part? ∘ pricing) ++
        (Named.all (α := EntityType)).flatMap (fun family =>
          (rule.targets.idsFor family).toList.filterMap (part? ∘ target family)) ++
        rule.tags.toList.filterMap (part? ∘ tag) ++ rule.effects.filterMap (part? ∘ link) := by
  have optional {β : Type} (toRow : β → ChildRow) (value? : Option β) :
      (value?.map toRow).toList.filterMap part? = value?.toList.filterMap (part? ∘ toRow) := by
    cases value? with
    | none => rfl
    | some value => simp [List.filterMap_cons]
  simp only [ofRule, List.filterMap_append, List.filterMap_flatMap, List.filterMap_map, optional]

theorem filterMap_access?_ofRule (rule : Rule) :
    (ofRule rule).filterMap access? = rule.accessConfig.toList := by
  simp [filterMap_ofRule, Function.comp_def, access?]

theorem filterMap_pricing?_ofRule (rule : Rule) :
    (ofRule rule).filterMap pricing? = rule.pricingConfig.toList := by
  simp [filterMap_ofRule, Function.comp_def, pricing?]

theorem filterMap_tag?_ofRule (rule : Rule) :
    (ofRule rule).filterMap tag? = rule.tags.toList := by
  simp [filterMap_ofRule, Function.comp_def, tag?]

theorem filterMap_link?_ofRule (rule : Rule) : (ofRule rule).filterMap link? = rule.effects := by
  simp [filterMap_ofRule, Function.comp_def, link?]

theorem mem_filterMap_target?_ofRule {rule : Rule} {entity : EntityRef} :
    entity ∈ (ofRule rule).filterMap target? ↔ entity.id ∈ rule.targets.idsFor entity.family := by
  have families : (ofRule rule).filterMap target? =
      (Named.all (α := EntityType)).flatMap fun family =>
        (rule.targets.idsFor family).toList.map (EntityRef.mk family) := by
    simp [filterMap_ofRule, Function.comp_def, target?]
  have listed : entity.family ∈ Named.all (α := EntityType) := by
    cases entity.family <;> simp [Named.all]
  rw [families, List.mem_flatMap]
  constructor
  · rintro ⟨family, _, member⟩
    obtain ⟨id, held, rfl⟩ := List.mem_map.mp member
    exact held
  · intro held
    exact ⟨entity.family, listed, List.mem_map.mpr ⟨entity.id, held, rfl⟩⟩

end ChildRow

/-- The rows that belong to a rule, without its id. -/
def Records.childrenOf (records : Records) (ruleId : String) : List ChildRow :=
  records.children.filterMap fun child => if child.1 = ruleId then some child.2 else none

/-- Every row is of one kind, so taking the rows kind by kind takes them in another order. -/
theorem Records.perm_flatMap_kinds {κ α β : Type} {kinds : List κ} {ofKind? : κ → α → Option β}
    {any? : α → Option β} (one : ∀ row, kinds.filterMap (ofKind? · row) = (any? row).toList)
    (rows : List α) :
    (kinds.flatMap fun kind => rows.filterMap (ofKind? kind)).Perm (rows.filterMap any?) := by
  -- The first row comes in front of the rest of its own kind: bring it in front of all kinds.
  induction rows with
  | nil => simp
  | cons row rest ih =>
    have first (taken? : α → Option β) :
        (row :: rest).filterMap taken? = (taken? row).toList ++ rest.filterMap taken? := by
      cases taken : taken? row <;> simp [taken]
    have parted : kinds.flatMap (fun kind => (ofKind? kind row).toList) = (any? row).toList := by
      rw [← one row, List.filterMap_eq_flatMap_toList]
    simp only [first]
    rw [← parted]
    exact (List.flatMap_append_perm kinds _ _).symm.trans (ih.append_left _)

/-- When a query takes rows from those that belong to rules, and each row tells its owner and what
was taken, then the rows of one rule give back what was taken from those that belong to it. -/
theorem Records.perm_parts {α β : Type} {records : Records} {part? : ChildRow → Option α}
    {toRow : String → α → β} {ownerOf : β → String} {ofRow? : β → Option α} {rows : List β}
    {ruleId : String} (own : ∀ ruleId part, ownerOf (toRow ruleId part) = ruleId)
    (read : ∀ ruleId part, ofRow? (toRow ruleId part) = some part)
    (shown : rows.Perm
      (records.children.filterMap fun child => (part? child.2).map (toRow child.1))) :
    ((rows.filter fun row => ownerOf row == ruleId).filterMap ofRow?).Perm
      ((records.childrenOf ruleId).filterMap part?) := by
  refine ((shown.filter _).filterMap _).trans (.of_eq ?_)
  simp only [childrenOf]
  induction records.children with
  | nil => rfl
  | cons child rest ih =>
    obtain ⟨owner, row⟩ := child
    cases part : part? row <;> by_cases same : owner = ruleId <;> simp [part, same, own, read, ih]

end Children

section Parts

/-- The row of the access group of a rule. -/
def AccessConfigRow.ofConfig (ruleId : String) (config : AccessConfig) : AccessConfigRow :=
  ⟨ruleId, Named.name config.priorityGroup⟩

private theorem AccessConfigRow.toConfig?_ofConfig (ruleId : String) (config : AccessConfig) :
    (ofConfig ruleId config).toConfig? = some config := by
  rw [ofConfig, toConfig?, Named.Readable.read]
  rfl

/-- The row of the way a rule enters prices. -/
def PricingConfigRow.ofConfig (ruleId : String) (config : PricingConfig) : PricingConfigRow :=
  ⟨ruleId, Named.name config.stackingBehavior, Named.name config.calculationPhase⟩

private theorem PricingConfigRow.toConfig?_ofConfig (ruleId : String) (config : PricingConfig) :
    (ofConfig ruleId config).toConfig? = some config := by
  simp only [ofConfig, toConfig?, Named.Readable.read]
  rfl

/-- The row of an entity that a rule is aimed at. -/
def TargetRow.ofEntity (ruleId : String) (entity : EntityRef) : TargetRow :=
  ⟨ruleId, Named.name entity.family, entity.id⟩

private theorem TargetRow.toEntity?_ofEntity (ruleId : String) (entity : EntityRef) :
    (ofEntity ruleId entity).toEntity? = some entity := by
  rw [ofEntity, toEntity?, Named.Readable.read]
  rfl

/-- The row of a link. -/
def LinkRow.ofLink (ruleId : String) (link : EffectLink) : LinkRow :=
  ⟨ruleId, Named.name link.kind, link.effectId, link.priority⟩

private theorem LinkRow.toLink?_ofLink (ruleId : String) (link : EffectLink) :
    (ofLink ruleId link).toLink? = some link := by
  rw [ofLink, toLink?, Named.Readable.read]
  rfl

end Parts

namespace Records

variable (records : Records)

private theorem select_accessConfigs : records.select .accessConfigs =
    records.children.filterMap fun child =>
      child.2.access?.map (AccessConfigRow.ofConfig child.1) := by
  simp only [select]
  congr 1
  funext ⟨owner, row⟩
  cases row <;> rfl

private theorem select_pricingConfigs : records.select .pricingConfigs =
    records.children.filterMap fun child =>
      child.2.pricing?.map (PricingConfigRow.ofConfig child.1) := by
  simp only [select]
  congr 1
  funext ⟨owner, row⟩
  cases row <;> rfl

private theorem select_tags : records.select .tags =
    records.children.filterMap fun child => child.2.tag?.map (TagRow.mk child.1) := by
  simp only [select]
  congr 1
  funext ⟨owner, row⟩
  cases row <;> rfl

private theorem perm_select_targets : (records.select .targets).Perm
    (records.children.filterMap fun child => child.2.target?.map (TargetRow.ofEntity child.1)) := by
  refine perm_flatMap_kinds ?_ _
  rintro ⟨owner, row⟩
  cases row with
  | target family id => cases family <;> rfl
  | _ => rfl

private theorem perm_select_links : (records.select .links).Perm
    (records.children.filterMap fun child => child.2.link?.map (LinkRow.ofLink child.1)) := by
  refine perm_flatMap_kinds ?_ _
  rintro ⟨owner, row⟩
  cases row with
  | link link =>
    obtain ⟨kind, effectId, priority⟩ := link
    cases kind <;> rfl
  | _ => rfl

/-- The row of a rule is there once, and the rows that belong to the rule are its own. -/
structure Stores (records : Records) (rule : Rule) : Prop where
  row : ∃ row, records.rules.filter (·.id == rule.id) = [row] ∧ row.Holds rule
  children : records.childrenOf rule.id = ChildRow.ofRule rule

end Records

section Targets

theorem RuleTargets.ext_idsFor {a b : RuleTargets}
    (same : ∀ family, a.idsFor family = b.idsFor family) : a = b := by
  obtain ⟨products, variants, categories, salesChannels⟩ := a
  have product := same .product
  have variant := same .productVariant
  have category := same .productCategory
  have channel := same .salesChannel
  simp only [RuleTargets.idsFor] at product variant category channel
  subst product variant category channel
  rfl

/-- Putting entities into targets adds exactly these. -/
theorem RuleTargets.mem_idsFor_foldl {entities : List EntityRef} {targets : RuleTargets}
    {family : EntityType} {id : String} :
    id ∈ (entities.foldl (fun targets entity => targets.insertMany entity.family [entity.id])
        targets).idsFor family ↔ ⟨family, id⟩ ∈ entities ∨ id ∈ targets.idsFor family := by
  induction entities generalizing targets with
  | nil => simp
  | cons entity rest ih =>
    have put : id ∈ (targets.insertMany entity.family [entity.id]).idsFor family ↔
        ⟨family, id⟩ = entity ∨ id ∈ targets.idsFor family := by
      obtain ⟨held, entityId⟩ := entity
      cases held <;> cases family <;> simp [insertMany, idsFor]
    rw [List.foldl_cons, ih, put, List.mem_cons, or_left_comm, or_assoc]

end Targets

namespace Tables

/-- The rows of one query. -/
def rows (tables : Tables) : (query : TableQuery) → List query.Row
  | .rules => tables.rules
  | .accessConfigs => tables.accessConfigs
  | .pricingConfigs => tables.pricingConfigs
  | .targets => tables.targets
  | .tags => tables.tags
  | .links => tables.links
  | .fees => tables.fees
  | .promotions => tables.promotions
  | .taxRates => tables.taxRates

/-- The tables hold what the queries yield, the rows of each in any order. -/
def Show (tables : Tables) (records : Records) : Prop :=
  ∀ query, (tables.rows query).Perm ((records.select query).map query.stored)

/-- Of at most one value the last is the same in any order. -/
theorem getLast?_eq_of_perm {α : Type} {a b : List α} (perm : a.Perm b) (single : b.length ≤ 1) :
    a.getLast? = b.getLast? := by
  match b, single with
  | [], _ => rw [List.perm_nil.mp perm]
  | [value], _ => rw [List.perm_singleton.mp perm]

/-- In any order, at most one is the last. -/
theorem getLast?_of_perm_toList {α : Type} {list : List α} {value? : Option α}
    (perm : list.Perm value?.toList) : list.getLast? = value? := by
  rw [getLast?_eq_of_perm perm value?.length_toList_le]
  cases value? <;> rfl

section Parts

variable {tables : Tables} {records : Records} (id : String)

theorem perm_accessConfigs (shown : tables.accessConfigs.Perm
    ((records.select .accessConfigs).map TableQuery.accessConfigs.stored)) :
    ((tables.accessConfigs.filter (·.ruleId == id)).filterMap AccessConfigRow.toConfig?).Perm
      ((records.childrenOf id).filterMap ChildRow.access?) := by
  rw [TableQuery.stored, List.map_id, records.select_accessConfigs] at shown
  exact Records.perm_parts (fun _ _ => rfl) AccessConfigRow.toConfig?_ofConfig shown

theorem perm_pricingConfigs (shown : tables.pricingConfigs.Perm
    ((records.select .pricingConfigs).map TableQuery.pricingConfigs.stored)) :
    ((tables.pricingConfigs.filter (·.ruleId == id)).filterMap PricingConfigRow.toConfig?).Perm
      ((records.childrenOf id).filterMap ChildRow.pricing?) := by
  rw [TableQuery.stored, List.map_id, records.select_pricingConfigs] at shown
  exact Records.perm_parts (fun _ _ => rfl) PricingConfigRow.toConfig?_ofConfig shown

theorem perm_targets (shown : tables.targets.Perm
    ((records.select .targets).map TableQuery.targets.stored)) :
    ((tables.targets.filter (·.ruleId == id)).filterMap TargetRow.toEntity?).Perm
      ((records.childrenOf id).filterMap ChildRow.target?) := by
  rw [TableQuery.stored, List.map_id] at shown
  exact Records.perm_parts (fun _ _ => rfl) TargetRow.toEntity?_ofEntity
    (shown.trans records.perm_select_targets)

theorem perm_tags (shown : tables.tags.Perm
    ((records.select .tags).map TableQuery.tags.stored)) :
    ((tables.tags.filter (·.ruleId == id)).map TagRow.tag).Perm
      ((records.childrenOf id).filterMap ChildRow.tag?) := by
  rw [TableQuery.stored, List.map_id, records.select_tags] at shown
  rw [← List.filterMap_eq_map]
  exact Records.perm_parts (fun _ _ => rfl) (fun _ _ => rfl) shown

theorem perm_links (shown : tables.links.Perm
    ((records.select .links).map TableQuery.links.stored)) :
    (tables.linksOf id).Perm ((records.childrenOf id).filterMap ChildRow.link?) := by
  rw [TableQuery.stored, List.map_id] at shown
  exact Records.perm_parts (fun _ _ => rfl) LinkRow.toLink?_ofLink (shown.trans records.perm_select_links)

end Parts

section Show

variable {tables : Tables} {records : Records} {rule : Rule}

theorem Show.accessConfig? (shown : tables.Show records) (stores : records.Stores rule) :
    tables.accessConfig? rule.id = rule.accessConfig := by
  refine getLast?_of_perm_toList ?_
  rw [← ChildRow.filterMap_access?_ofRule, ← stores.children]
  exact perm_accessConfigs rule.id (shown .accessConfigs)

theorem Show.pricingConfig? (shown : tables.Show records) (stores : records.Stores rule) :
    tables.pricingConfig? rule.id = rule.pricingConfig := by
  refine getLast?_of_perm_toList ?_
  rw [← ChildRow.filterMap_pricing?_ofRule, ← stores.children]
  exact perm_pricingConfigs rule.id (shown .pricingConfigs)

theorem Show.targetsOf (shown : tables.Show records) (stores : records.Stores rule) :
    tables.targetsOf rule.id = rule.targets := by
  have perm := perm_targets rule.id (shown .targets)
  rw [stores.children] at perm
  refine RuleTargets.ext_idsFor fun family => TextSet.ext_mem fun id => ?_
  rw [Tables.targetsOf, RuleTargets.mem_idsFor_foldl, perm.mem_iff,
    ChildRow.mem_filterMap_target?_ofRule]
  cases family <;> simp [RuleTargets.empty, RuleTargets.idsFor]

theorem Show.tagsOf (shown : tables.Show records) (stores : records.Stores rule) :
    tables.tagsOf rule.id = rule.tags := by
  have perm := perm_tags rule.id (shown .tags)
  rw [stores.children, ChildRow.filterMap_tag?_ofRule] at perm
  refine TextSet.ext_mem fun tag => ?_
  rw [Tables.tagsOf, TextSet.mem_ofList]
  exact perm.mem_iff

private theorem Show.perm_linksOf (shown : tables.Show records) (stores : records.Stores rule) :
    (tables.linksOf rule.id).Perm rule.effects := by
  rw [← ChildRow.filterMap_link?_ofRule rule, ← stores.children]
  exact perm_links rule.id (shown .links)

/-- Completing the record of a rule that is stored makes it the rule, but for the order of its
links. -/
theorem Show.complete (shown : tables.Show records) (stores : records.Stores rule) :
    tables.complete rule.bare = { rule with effects := tables.linksOf rule.id } := by
  have id : rule.bare.id = rule.id := rfl
  rw [Tables.complete, id, shown.accessConfig? stores, shown.pricingConfig? stores,
    shown.targetsOf stores, shown.tagsOf stores]
  rfl

/-- Of the rules with an id the last is completed; when there is one it is that one. -/
theorem filter_completeLast {entries : List (Audited Rule)} {entry : Audited Rule} {id : String}
    (once : entries.filter (fun held => held.record.id == id) = [entry]) :
    (tables.completeLast entries).filter (fun held => held.record.id == id) =
      [{ entry with record := tables.complete entry.record }] := by
  induction entries with
  | nil => cases once
  | cons first rest ih =>
    by_cases same : first.record.id = id
    · -- No later rule has the id, so this one is the last and is completed.
      rw [List.filter_cons_of_pos (by simpa using same)] at once
      obtain ⟨rfl, others⟩ := List.cons.inj once
      have last : rest.any (fun later => later.record.id == first.record.id) = false := by
        rw [same]
        exact List.any_eq_false.mpr (List.filter_eq_nil_iff.mp others)
      have ended : (tables.completeLast rest).filter (fun held => held.record.id == id) = [] := by
        have ids := tables.ids_completeLast rest
        refine List.filter_eq_nil_iff.mpr fun held member => ?_
        obtain ⟨before, member, kept⟩ := List.mem_map.mp (ids ▸ List.mem_map_of_mem member)
        exact kept ▸ List.filter_eq_nil_iff.mp others before member
      rw [completeLast, last, if_neg Bool.false_ne_true, List.filter_cons_of_pos, ended]
      simpa [Tables.complete] using same
    · rw [List.filter_cons_of_neg (by simpa using same)] at once
      rw [completeLast, List.filter_cons_of_neg, ih once]
      split <;> simpa [Tables.complete] using same

/-- The readable rules with an id come from the rows with that id. -/
theorem filter_readableRules (id : String) :
    tables.readableRules.filter (fun held => held.record.id == id) =
      (tables.rules.filter (·.id == id)).filterMap fun row => row.toRule.toOption := by
  simp only [readableRules]
  induction tables.rules with
  | nil => rfl
  | cons row rest ih =>
    cases read : row.toRule with
    | error e =>
      have taken : row.toRule.toOption = none := by rw [read]; rfl
      by_cases same : row.id = id <;> simp [taken, same, ih]
    | ok entry =>
      have taken : row.toRule.toOption = some entry := by rw [read]; rfl
      have held := id_of_toRule read
      by_cases same : row.id = id <;> simp [taken, same, held, ih]

end Show

end Tables

/-- A snapshot gives a rule back: one entry has its id, that entry is not marked as deleted, it has
the links of the rule in some order, and all else in it is as in the rule. -/
def Snapshot.GivesBack (snapshot : Snapshot) (rule : Rule) : Prop :=
  ∃ entry, snapshot.rules.filter (fun held => held.record.id == rule.id) = [entry] ∧
    entry.deletedAt = none ∧ entry.record.effects.Perm rule.effects ∧
    { entry.record with effects := rule.effects } = rule

/-- What is put together from the rows of records gives back every rule that is stored there and has
a complete author. -/
theorem Tables.Show.givesBack {tables : Tables} {records : Records} {rule : Rule}
    (shown : tables.Show records) (stores : records.Stores rule)
    (complete : rule.actor.validate = .ok ()) : tables.snapshot.GivesBack rule := by
  obtain ⟨row, once, holds⟩ := stores.row
  obtain ⟨entry, read, bare, unmarked⟩ := holds.toRule complete
  have live : row.deletedAt = none := by
    obtain ⟨now, created, rfl⟩ := holds
    rfl
  have rows : tables.rules.filter (·.id == rule.id) = [row.inMicroseconds] := by
    refine List.perm_singleton.mp (((shown .rules).filter _).trans (.of_eq ?_))
    have selected : (records.select .rules).filter (·.id == rule.id) = [row] := by
      rw [Records.select, List.filter_comm, once]
      simp [live]
    rw [List.filter_map]
    exact congrArg (List.map RuleRow.inMicroseconds) selected
  have readable : tables.readableRules.filter (fun held => held.record.id == rule.id) =
      [entry] := by
    rw [filter_readableRules, rows, List.filterMap_cons, read]
    rfl
  refine ⟨_, filter_completeLast readable, unmarked, ?_, ?_⟩
  · rw [bare, shown.complete stores]
    exact shown.perm_linksOf stores
  · rw [bare, shown.complete stores]

end RuleBook
