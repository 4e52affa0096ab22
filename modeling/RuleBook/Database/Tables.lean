import RuleBook.Database.Row

/-! # Tables and snapshots

A snapshot of the rule database is put together from the rows of nine queries. A row of rules that
cannot be read is left out with everything that belongs to it. Of the other tables only the rows
that cannot be read are left out, so the rule stays and what it lacks is reported when it is
evaluated. Rows that belong to no rule are passed over.
-/

namespace RuleBook

/-- The rows of all queries. -/
structure Tables where
  rules : List RuleRow := []
  accessConfigs : List AccessConfigRow := []
  pricingConfigs : List PricingConfigRow := []
  targets : List TargetRow := []
  tags : List TagRow := []
  links : List LinkRow := []
  fees : List FeeRow := []
  promotions : List PromotionRow := []
  taxRates : List TaxRateRow := []

/-- The rules and effects of the database at some time. -/
structure Snapshot where
  rules : List (Audited Rule)
  effects : List (Audited LinkedEffect)

/-- The JSON form of rules with their times. -/
def Audited.rulesToJson (entries : List (Audited Rule)) : Json :=
  .array (entries.map (toJson Rule.toJson))

def Snapshot.toJson (snapshot : Snapshot) : Json :=
  .object [("effects", .array (snapshot.effects.map (Audited.toJson LinkedEffect.toJson))),
    ("rules", Audited.rulesToJson snapshot.rules)]

namespace Tables

/-- The access group of a rule: that of its last readable row. -/
def accessConfig? (tables : Tables) (ruleId : String) : Option AccessConfig :=
  ((tables.accessConfigs.filter (·.ruleId == ruleId)).filterMap
    AccessConfigRow.toConfig?).getLast?

/-- The way a rule enters prices: that of its last readable row. -/
def pricingConfig? (tables : Tables) (ruleId : String) : Option PricingConfig :=
  ((tables.pricingConfigs.filter (·.ruleId == ruleId)).filterMap
    PricingConfigRow.toConfig?).getLast?

/-- The entities that a rule is aimed at. -/
def targetsOf (tables : Tables) (ruleId : String) : RuleTargets :=
  ((tables.targets.filter (·.ruleId == ruleId)).filterMap TargetRow.toEntity?).foldl
    (fun targets entity => targets.insertMany entity.family [entity.id]) .empty

def tagsOf (tables : Tables) (ruleId : String) : TextSet :=
  .ofList ((tables.tags.filter (·.ruleId == ruleId)).map TagRow.tag)

/-- The links of a rule, in the order of their rows. -/
def linksOf (tables : Tables) (ruleId : String) : List EffectLink :=
  (tables.links.filter (·.ruleId == ruleId)).filterMap LinkRow.toLink?

/-- A rule with the rows that belong to it. -/
def complete (tables : Tables) (rule : Rule) : Rule :=
  { rule with
    accessConfig := tables.accessConfig? rule.id
    pricingConfig := tables.pricingConfig? rule.id
    targets := tables.targetsOf rule.id
    tags := tables.tagsOf rule.id
    effects := tables.linksOf rule.id }

/-- The rules with the rows that belong to them; of several rules with one id the last gets them. -/
def completeLast (tables : Tables) : List (Audited Rule) → List (Audited Rule)
  | [] => []
  | entry :: rest =>
    let isRepeated := rest.any fun later => later.record.id == entry.record.id
    (if isRepeated then entry else { entry with record := tables.complete entry.record }) ::
      tables.completeLast rest

/-- The rules of the readable rows, in the order of the rows. -/
def readableRules (tables : Tables) : List (Audited Rule) :=
  tables.rules.filterMap fun row => row.toRule.toOption

def assembledRules (tables : Tables) : List (Audited Rule) :=
  tables.completeLast tables.readableRules

/-- The effects of the readable rows: fees, then promotions, then tax rates. -/
def assembledEffects (tables : Tables) : List (Audited LinkedEffect) :=
  tables.fees.filterMap FeeRow.toEffect? ++ tables.promotions.filterMap PromotionRow.toEffect? ++
    tables.taxRates.filterMap TaxRateRow.toEffect?

def snapshot (tables : Tables) : Snapshot := ⟨tables.assembledRules, tables.assembledEffects⟩

end Tables

end RuleBook
