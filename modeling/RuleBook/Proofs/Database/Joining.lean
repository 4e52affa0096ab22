import Mathlib.Data.List.Forall2
import Mathlib.Data.List.Induction
import RuleBook.Proofs.Database.Versions

/-! # Joining tables row by row

Rules are put together in one go over the rows of each table: a row of rules that can be read adds a
rule and notes its place, and every other row that can be read is added to the rule in the place of
its owner. That comes to the same as completing each rule with the rows that belong to it:
`Tables.joinedRules_eq`. Where ids are distinct each rule gets exactly what can be read of its own
rows, and rows that cannot be read or belong to no rule might as well not be there.
-/

namespace RuleBook

/-- A part of a rule that can be put in place of another. -/
structure RulePart (β : Type) where
  get : Rule → β
  put : β → Rule → Rule
  get_put : ∀ value rule, get (put value rule) = value := by intros; rfl
  put_put : ∀ first second rule, put second (put first rule) = put second rule := by intros; rfl
  put_get : ∀ rule, put (get rule) rule = rule := by intros; rfl

/-- A table whose rows, as far as they can be read, are added to a part of the rules that they
belong to. -/
structure PartTable (ρ α β : Type) where
  owner : ρ → String
  read? : ρ → Option α
  part : RulePart β
  add : β → α → β

namespace PartTable

def accessConfigs : PartTable AccessConfigRow AccessConfig (Option AccessConfig) where
  owner := AccessConfigRow.ruleId
  read? := AccessConfigRow.toConfig?
  part :=
    { get := Rule.accessConfig
      put := fun config rule => { rule with accessConfig := config } }
  add _ config := some config

def pricingConfigs : PartTable PricingConfigRow PricingConfig (Option PricingConfig) where
  owner := PricingConfigRow.ruleId
  read? := PricingConfigRow.toConfig?
  part :=
    { get := Rule.pricingConfig
      put := fun config rule => { rule with pricingConfig := config } }
  add _ config := some config

def targets : PartTable TargetRow EntityRef RuleTargets where
  owner := TargetRow.ruleId
  read? := TargetRow.toEntity?
  part :=
    { get := Rule.targets
      put := fun targets rule => { rule with targets } }
  add targets entity := targets.insertMany entity.family [entity.id]

def tags : PartTable TagRow String TextSet where
  owner := TagRow.ruleId
  read? row := some row.tag
  part :=
    { get := Rule.tags
      put := fun tags rule => { rule with tags } }
  add := TextSet.insert

def links : PartTable LinkRow EffectLink (List EffectLink) where
  owner := LinkRow.ruleId
  read? := LinkRow.toLink?
  part :=
    { get := Rule.effects
      put := fun effects rule => { rule with effects } }
  add effects link := effects ++ [link]

/-- Add what a row says to an entry. -/
def fill {ρ α β : Type} (table : PartTable ρ α β) (item : α) (entry : Audited Rule) :
    Audited Rule :=
  { entry with
    record := table.part.put (table.add (table.part.get entry.record) item) entry.record }

end PartTable

/-- Rules, and the place of the last rule with each id. -/
structure Joined where
  rules : List (Audited Rule)
  places : Dictionary String Nat

namespace Joined

/-- Take a row of rules, unless it cannot be read. -/
def takeRule (joined : Joined) (row : RuleRow) : Joined :=
  match row.toRule with
  | .ok entry => ⟨joined.rules ++ [entry], joined.places.insert row.id joined.rules.length⟩
  | .error _ => joined

variable {ρ α β : Type}

/-- Take a row of another table, unless it cannot be read or its owner is not there. -/
def takeRow (table : PartTable ρ α β) (joined : Joined) (row : ρ) : Joined :=
  match joined.places.find? (table.owner row), table.read? row with
  | some place, some item =>
    { joined with rules := joined.rules.modify place (table.fill item) }
  | _, _ => joined

end Joined

/-- The rules of the tables, row by row. -/
def Tables.joinedRules (tables : Tables) : List (Audited Rule) :=
  let joined := tables.rules.foldl Joined.takeRule ⟨[], .empty⟩
  let joined := tables.accessConfigs.foldl (Joined.takeRow .accessConfigs) joined
  let joined := tables.pricingConfigs.foldl (Joined.takeRow .pricingConfigs) joined
  let joined := tables.targets.foldl (Joined.takeRow .targets) joined
  let joined := tables.tags.foldl (Joined.takeRow .tags) joined
  let joined := tables.links.foldl (Joined.takeRow .links) joined
  joined.rules

section Parts

variable {ρ α β : Type} (table : PartTable ρ α β)

/-- An entry with what can be read of some rows. -/
def PartTable.filled (rows : List ρ) (entry : Audited Rule) : Audited Rule :=
  { entry with
    record := table.part.put ((rows.filterMap table.read?).foldl table.add
      (table.part.get entry.record)) entry.record }

private theorem PartTable.filled_nil (entry : Audited Rule) : table.filled [] entry = entry := by
  simp only [filled, List.filterMap_nil, List.foldl_nil, table.part.put_get]

private theorem PartTable.filled_append (first second : List ρ) (entry : Audited Rule) :
    table.filled (first ++ second) entry = table.filled second (table.filled first entry) := by
  simp only [filled, List.filterMap_append, List.foldl_append, table.part.get_put,
    table.part.put_put]

namespace Joined

variable (joined : Joined)

/-- The rows that go to the rule in a place. -/
def rowsAt (rows : List ρ) (place : Nat) : List ρ :=
  rows.filter fun row => joined.places.find? (table.owner row) = some place

private theorem places_takeRow (row : ρ) : (joined.takeRow table row).places = joined.places := by
  unfold takeRow
  split <;> rfl

/-- A row fills the entry in the place of its owner and no other. -/
theorem rules_takeRow (row : ρ) (place : Nat) : (joined.takeRow table row).rules[place]? =
    joined.rules[place]?.map (table.filled (joined.rowsAt table [row] place)) := by
  have elsewhere : table.filled [] = id := funext table.filled_nil
  cases found : joined.places.find? (table.owner row) with
  | none =>
    have nowhere : joined.rowsAt table [row] place = [] := by simp [rowsAt, found]
    simp only [takeRow, found, nowhere, elsewhere, Option.map_id, id]
  | some there =>
    have here : joined.rowsAt table [row] place = if there = place then [row] else [] := by
      by_cases same : there = place <;> simp [rowsAt, found, same]
    cases read : table.read? row with
    | none =>
      have unread : table.filled [row] = id := by
        funext entry
        simp only [PartTable.filled, List.filterMap_cons, read, List.filterMap_nil, List.foldl_nil,
          table.part.put_get, id]
      have unchanged : table.filled (joined.rowsAt table [row] place) = id := by
        rw [here]
        split
        · exact unread
        · exact elsewhere
      simp only [takeRow, found, read, unchanged, Option.map_id, id]
    | some item =>
      have put : table.filled [row] = table.fill item := by
        funext entry
        simp only [PartTable.filled, List.filterMap_cons, read, List.filterMap_nil, List.foldl_cons,
          List.foldl_nil, PartTable.fill]
      simp only [takeRow, found, read, here, List.getElem?_modify, Option.map_eq_map]
      by_cases same : there = place
      · simp only [same, if_true, put]
      · simp only [same, if_false, elsewhere]
        rfl

/-- The rows of a table fill each entry with those that go to its place. -/
theorem rules_takeRows (rows : List ρ) (place : Nat) :
    (rows.foldl (takeRow table) joined).rules[place]? =
        joined.rules[place]?.map (table.filled (joined.rowsAt table rows place)) ∧
      (rows.foldl (takeRow table) joined).places = joined.places := by
  induction rows generalizing joined with
  | nil =>
    refine ⟨?_, rfl⟩
    have nothing : table.filled (joined.rowsAt table [] place) = id := funext table.filled_nil
    rw [nothing, Option.map_id, id, List.foldl_nil]
  | cons row rest ih =>
    obtain ⟨rules, places⟩ := ih (joined.takeRow table row)
    have split : joined.rowsAt table (row :: rest) place =
        joined.rowsAt table [row] place ++ joined.rowsAt table rest place :=
      List.filter_append [row] rest
    have later : (joined.takeRow table row).rowsAt table rest place =
        joined.rowsAt table rest place := by
      rw [rowsAt, places_takeRow, ← rowsAt]
    rw [List.foldl_cons, rules, places, places_takeRow, rules_takeRow, later, split, Option.map_map]
    exact ⟨congrArg (joined.rules[place]?.map ·) (funext fun entry =>
      (table.filled_append _ _ entry).symm), rfl⟩

private theorem rowsAt_takeRows {ρ' α' β' : Type} (other : PartTable ρ' α' β') (rows : List ρ)
    (rows' : List ρ') : (rows.foldl (takeRow table) joined).rowsAt other rows' =
      joined.rowsAt other rows' := by
  funext place
  rw [rowsAt, (rules_takeRows table joined rows place).2, ← rowsAt]

/-- The places are those of the last rules with their ids. -/
def Indexed : Prop := ∀ id place, joined.places.find? id = some place ↔
  (∃ entry, joined.rules[place]? = some entry ∧ entry.record.id = id) ∧
    ∀ later entry, place < later → joined.rules[later]? = some entry → entry.record.id ≠ id

end Joined

end Parts

namespace Joined

variable {joined : Joined}

private theorem getElem?_concat_eq_some_iff {α : Type} {items : List α} {last item : α}
    {place : Nat} :
    (items ++ [last])[place]? = some item ↔
      items[place]? = some item ∨ place = items.length ∧ last = item := by
  rcases Nat.lt_trichotomy place items.length with before | rfl | behind
  · rw [List.getElem?_append_left before]
    simp [Nat.ne_of_lt before]
  · simp
  · have length : (items ++ [last]).length = items.length + 1 := List.length_append
    rw [List.getElem?_eq_none (by omega), List.getElem?_eq_none (by omega)]
    simp [Nat.ne_of_gt behind]

private theorem Indexed.takeRule (indexed : joined.Indexed) (row : RuleRow) :
    (joined.takeRule row).Indexed := by
  unfold Joined.takeRule
  split
  · rename_i entry read
    have own : entry.record.id = row.id := Tables.id_of_toRule read
    intro id place
    simp only [Dictionary.find?_insert, getElem?_concat_eq_some_iff]
    split
    · -- The new rule is behind all others, so it is the last with its id.
      rename_i same
      rw [Option.some.injEq]
      constructor
      · rintro rfl
        refine ⟨⟨entry, .inr ⟨rfl, rfl⟩, own.trans same⟩, fun later other behind held => ?_⟩
        rcases held with held | ⟨rfl, -⟩
        · rw [List.getElem?_eq_none (by omega)] at held
          cases held
        · exact absurd behind (Nat.lt_irrefl _)
      · rintro ⟨⟨other, held | ⟨here, -⟩, -⟩, last⟩
        · have before := (List.getElem?_eq_some_iff.mp held).1
          exact absurd (own.trans same) (last _ entry before (.inr ⟨rfl, rfl⟩))
        · exact here.symm
    · rename_i different
      rw [indexed id place]
      constructor
      · rintro ⟨⟨other, held, named⟩, last⟩
        refine ⟨⟨other, .inl held, named⟩, fun later third behind found => ?_⟩
        rcases found with found | ⟨-, rfl⟩
        · exact last later third behind found
        · exact fun named => different (own.symm.trans named)
      · rintro ⟨⟨other, held, named⟩, last⟩
        refine ⟨⟨other, ?_, named⟩, fun later third behind found =>
          last later third behind (.inl found)⟩
        rcases held with held | ⟨-, rfl⟩
        · exact held
        · exact absurd (own.symm.trans named) different
  · exact indexed

/-- The rows of rules that can be read are taken in their order, and every id leads to its last
rule. -/
theorem Indexed.takeRules (indexed : joined.Indexed) (rows : List RuleRow) :
    (rows.foldl Joined.takeRule joined).Indexed ∧ (rows.foldl Joined.takeRule joined).rules =
      joined.rules ++ rows.filterMap fun row => row.toRule.toOption := by
  induction rows generalizing joined with
  | nil => exact ⟨indexed, (List.append_nil _).symm⟩
  | cons row rest ih =>
    obtain ⟨rest_indexed, rules⟩ := ih (indexed.takeRule row)
    refine ⟨rest_indexed, rules.trans ?_⟩
    cases read : row.toRule with
    | ok entry => simp [Joined.takeRule, read, Except.toOption]
    | error e => simp [Joined.takeRule, read, Except.toOption]

/-- An id leads to an entry that has it unless a later one has it too. -/
theorem Indexed.find?_eq_some_iff (indexed : joined.Indexed) {place : Nat} {entry : Audited Rule}
    (held : joined.rules[place]? = some entry) :
    joined.places.find? entry.record.id = some place ↔
      ¬ (joined.rules.drop (place + 1)).any fun later => later.record.id == entry.record.id := by
  rw [indexed, and_iff_right ⟨entry, held, rfl⟩, List.any_eq_true]
  constructor
  · rintro last ⟨other, member, same⟩
    obtain ⟨behind, found⟩ := List.mem_iff_getElem?.mp member
    rw [List.getElem?_drop] at found
    exact last _ other (by omega) found (beq_iff_eq.mp same)
  · intro last later other behind found same
    refine last ⟨other, List.mem_iff_getElem?.mpr ⟨later - (place + 1), ?_⟩, beq_iff_eq.mpr same⟩
    rw [List.getElem?_drop, Nat.add_sub_cancel' behind, found]

/-- The rows that go to the place of an entry are those with its id, if no later entry has it. -/
theorem Indexed.rowsAt_eq {ρ α β : Type} (indexed : joined.Indexed) (table : PartTable ρ α β)
    (rows : List ρ) {place : Nat} {entry : Audited Rule}
    (held : joined.rules[place]? = some entry) : joined.rowsAt table rows place =
      if joined.places.find? entry.record.id = some place then
        rows.filter fun row => table.owner row == entry.record.id
      else [] := by
  have owned (row : ρ) (goes : joined.places.find? (table.owner row) = some place) :
      table.owner row = entry.record.id := by
    obtain ⟨⟨other, found, named⟩, -⟩ := (indexed _ _).mp goes
    rw [← named, Option.some.inj (found.symm.trans held)]
  split
  · rename_i last
    refine List.filter_congr fun row _ => ?_
    rw [Bool.eq_iff_iff, decide_eq_true_eq, beq_iff_eq]
    exact ⟨owned row, fun same => same ▸ last⟩
  · rename_i earlier
    refine List.filter_eq_nil_iff.mpr fun row _ goes => earlier ?_
    rw [decide_eq_true_eq] at goes
    rw [← owned row goes]
    exact goes

end Joined

namespace Tables

variable (tables : Tables)

/-- An entry is completed unless a later one has its id. -/
theorem getElem?_completeLast (entries : List (Audited Rule)) (place : Nat) :
    (tables.completeLast entries)[place]? = entries[place]?.map fun entry =>
      if (entries.drop (place + 1)).any fun later => later.record.id == entry.record.id then entry
      else tables.completed entry := by
  induction entries generalizing place with
  | nil => rfl
  | cons first rest ih =>
    cases place with
    | zero =>
      rw [completeLast, List.getElem?_cons_zero, List.getElem?_cons_zero]
      rfl
    | succ place =>
      rw [completeLast, List.getElem?_cons_succ, List.getElem?_cons_succ, ih]
      rfl

private theorem foldl_last {α : Type} (items : List α) (before : Option α) :
    items.foldl (fun _ item => some item) before = items.getLast?.or before := by
  induction items generalizing before with
  | nil => rfl
  | cons item rest ih =>
    rw [List.foldl_cons, ih, List.getLast?_cons]
    cases rest.getLast? <;> rfl

private theorem foldl_concat {α : Type} (items before : List α) :
    items.foldl (fun items item => items ++ [item]) before = before ++ items := by
  induction items generalizing before with
  | nil => exact (List.append_nil before).symm
  | cons item rest ih => rw [List.foldl_cons, ih, List.append_assoc, List.singleton_append]

/-- An entry as it is read from its row becomes complete with all rows that have its id. -/
theorem filled_eq_completed {entry : Audited Rule} (bare : entry.record.bare = entry.record) :
    PartTable.links.filled (tables.links.filter (·.ruleId == entry.record.id))
      (PartTable.tags.filled (tables.tags.filter (·.ruleId == entry.record.id))
        (PartTable.targets.filled (tables.targets.filter (·.ruleId == entry.record.id))
          (PartTable.pricingConfigs.filled
            (tables.pricingConfigs.filter (·.ruleId == entry.record.id))
            (PartTable.accessConfigs.filled
              (tables.accessConfigs.filter (·.ruleId == entry.record.id)) entry)))) =
      tables.completed entry := by
  have access : entry.record.accessConfig = none := (congrArg Rule.accessConfig bare).symm
  have pricing : entry.record.pricingConfig = none := (congrArg Rule.pricingConfig bare).symm
  have targets : entry.record.targets = .empty := (congrArg Rule.targets bare).symm
  have tags : entry.record.tags = .empty := (congrArg Rule.tags bare).symm
  have effects : entry.record.effects = [] := (congrArg Rule.effects bare).symm
  simp only [PartTable.filled, PartTable.accessConfigs, PartTable.pricingConfigs,
    PartTable.targets, PartTable.tags, PartTable.links, access, pricing, targets, tags, effects,
    foldl_last, foldl_concat, Option.or_none, List.nil_append, List.filterMap_eq_map',
    completed, complete, accessConfig?, pricingConfig?, targetsOf, tagsOf, linksOf, TextSet.ofList,
    TextSet.insertMany]

/-- Joining the tables row by row, through the places of the rules, completes each rule with the rows
that belong to it. -/
theorem joinedRules_eq : tables.joinedRules = tables.assembledRules := by
  have start : (⟨[], .empty⟩ : Joined).Indexed := by
    intro id place
    simp
  obtain ⟨indexed, rules⟩ := start.takeRules tables.rules
  rw [List.nil_append, ← readableRules] at rules
  refine List.ext_getElem? fun place => ?_
  rw [assembledRules, getElem?_completeLast]
  simp only [joinedRules, Joined.rules_takeRows, Joined.rowsAt_takeRows]
  generalize tables.rules.foldl Joined.takeRule ⟨[], .empty⟩ = joined at indexed rules ⊢
  rw [← rules]
  cases held : joined.rules[place]? with
  | none => rfl
  | some entry =>
    have member : entry ∈ tables.readableRules := rules ▸ List.mem_of_getElem? held
    have bare := bare_of_mem_readableRules member
    simp only [Option.map_some, Option.some.injEq, indexed.rowsAt_eq _ _ held,
      indexed.find?_eq_some_iff held]
    split
    · rename_i last
      exact tables.filled_eq_completed bare
    · rename_i repeated
      simp only [if_pos (not_not.mp repeated), PartTable.filled_nil]

end Tables

/-- Some useless items are left out of a list. -/
inductive LeavesOut {α : Type} (useless : α → Prop) : List α → List α → Prop
  | nil : LeavesOut useless [] []
  | keep (item : α) {items fewer : List α} (rest : LeavesOut useless items fewer) :
    LeavesOut useless (item :: items) (item :: fewer)
  | drop {item : α} {items fewer : List α} (unused : useless item)
    (rest : LeavesOut useless items fewer) : LeavesOut useless (item :: items) fewer

private theorem LeavesOut.filterMap_eq {α β : Type} {useless : α → Prop} {items fewer : List α}
    {read? : α → Option β} (left : LeavesOut useless items fewer)
    (unread : ∀ item, useless item → read? item = none) :
    fewer.filterMap read? = items.filterMap read? := by
  induction left with
  | nil => rfl
  | keep item _ ih => rw [List.filterMap_cons, List.filterMap_cons, ih]
  | drop unused _ ih => rw [ih, List.filterMap_cons, unread _ unused]

/-- What the last readable row of an id says, if there is one. -/
inductive PartTable.LastOf {ρ α β : Type} (table : PartTable ρ α β) (rows : List ρ) (id : String) :
    Option α → Prop
  | none (unread : ∀ row ∈ rows, table.owner row = id → table.read? row = none) :
    table.LastOf rows id none
  | some {before after : List ρ} {row : ρ} {value : α} (place : rows = before ++ row :: after)
    (owned : table.owner row = id) (read : table.read? row = some value)
    (unread : ∀ later ∈ after, table.owner later = id → table.read? later = none) :
    table.LastOf rows id (some value)

/-- The last of what is read from the rows of an id comes from the last row that can be read. -/
theorem PartTable.lastOf_getLast? {ρ α β : Type} (table : PartTable ρ α β) (rows : List ρ)
    (id : String) : table.LastOf rows id
      ((rows.filter fun row => table.owner row == id).filterMap table.read?).getLast? := by
  induction rows using List.reverseRecOn with
  | nil => exact .none fun row member => absurd member List.not_mem_nil
  | append_singleton rows row ih =>
    by_cases unused : table.owner row = id → table.read? row = Option.none
    · have same : ((rows ++ [row]).filter fun row => table.owner row == id).filterMap table.read? =
          (rows.filter fun row => table.owner row == id).filterMap table.read? := by
        by_cases owned : table.owner row = id
        · simp [owned, unused owned]
        · simp [owned]
      rw [same]
      generalize List.getLast? _ = value? at ih ⊢
      cases ih with
      | none unread =>
        refine .none fun other member owned => ?_
        rcases List.mem_append.mp member with member | member
        · exact unread other member owned
        · obtain rfl := List.mem_singleton.mp member
          exact unused owned
      | some place owned read unread =>
        refine .some (place ▸ List.append_assoc _ _ _) owned read fun later member owned => ?_
        rcases List.mem_append.mp member with member | member
        · exact unread later member owned
        · obtain rfl := List.mem_singleton.mp member
          exact unused owned
    · obtain ⟨owned, read⟩ := Classical.not_imp.mp unused
      obtain ⟨value, read⟩ := Option.ne_none_iff_exists'.mp read
      have last : (((rows ++ [row]).filter fun row => table.owner row == id).filterMap
          table.read?).getLast? = Option.some value := by
        simp [owned, read]
      rw [last]
      exact .some rfl owned read fun later member => absurd member List.not_mem_nil

namespace Tables

/-- An entry is the rule of a row with exactly what can be read of the rows of the other tables that
have its id. -/
structure Joins (tables : Tables) (row : RuleRow) (entry : Audited Rule) : Prop where
  own : row.toRule = .ok { entry with record := entry.record.bare }
  access : PartTable.accessConfigs.LastOf tables.accessConfigs row.id entry.record.accessConfig
  pricing : PartTable.pricingConfigs.LastOf tables.pricingConfigs row.id entry.record.pricingConfig
  targets : ∀ entity : EntityRef, entity.id ∈ entry.record.targets.idsFor entity.family ↔
    ∃ target ∈ tables.targets, target.ruleId = row.id ∧ target.toEntity? = some entity
  tags : ∀ tag, tag ∈ entry.record.tags ↔ ⟨row.id, tag⟩ ∈ tables.tags
  links : List.Forall₂ (fun link read => link.toLink? = some read)
    (tables.links.filter fun link => link.toLink?.isSome && link.ruleId == row.id)
    entry.record.effects

/-- An id belongs to a rule that can be read. -/
def Knows (tables : Tables) (id : String) : Prop := ∃ row ∈ tables.rules, row.id = id ∧ row.toRule.isOk

/-- A row belongs to no rule that can be read, or cannot be read itself. -/
def IsUseless {ρ α β : Type} (tables : Tables) (table : PartTable ρ α β) (row : ρ) : Prop :=
  ¬ tables.Knows (table.owner row) ∨ table.read? row = none

/-- Rows that cannot be read, and rows of rules that are not there or cannot be read, are left out of
the tables. -/
structure Thinned (tables fewer : Tables) : Prop where
  rules : LeavesOut (fun row : RuleRow => row.toRule.isOk = false) tables.rules fewer.rules
  accessConfigs : LeavesOut (tables.IsUseless .accessConfigs) tables.accessConfigs
    fewer.accessConfigs
  pricingConfigs : LeavesOut (tables.IsUseless .pricingConfigs) tables.pricingConfigs
    fewer.pricingConfigs
  targets : LeavesOut (tables.IsUseless .targets) tables.targets fewer.targets
  tags : LeavesOut (tables.IsUseless .tags) tables.tags fewer.tags
  links : LeavesOut (tables.IsUseless .links) tables.links fewer.links

variable {tables fewer : Tables}

/-- Leaving out useless rows loses nothing of a rule that can be read. -/
theorem read_of_leavesOut {ρ α β : Type} {table : PartTable ρ α β} {rows fewer : List ρ}
    (left : LeavesOut (tables.IsUseless table) rows fewer) {id : String} (known : tables.Knows id) :
    (fewer.filter fun row => table.owner row == id).filterMap table.read? =
      (rows.filter fun row => table.owner row == id).filterMap table.read? := by
  rw [List.filterMap_filter, List.filterMap_filter]
  refine left.filterMap_eq fun row useless => ?_
  split
  · rename_i owned
    exact useless.resolve_left fun unknown => unknown (beq_iff_eq.mp owned ▸ known)
  · rfl

private theorem readableRules_of_thinned (thinned : tables.Thinned fewer) :
    fewer.readableRules = tables.readableRules :=
  thinned.rules.filterMap_eq fun row unread => by
    cases read : row.toRule with
    | ok entry => rw [read] at unread; cases unread
    | error e => rfl

private theorem knows_of_mem_readableRules {entry : Audited Rule}
    (member : entry ∈ tables.readableRules) :
    tables.Knows entry.record.id := by
  obtain ⟨row, held, read⟩ := mem_readableRules.mp member
  exact ⟨row, held, (id_of_toRule read).symm, by rw [read]; rfl⟩

private theorem completed_of_thinned (thinned : tables.Thinned fewer) {entry : Audited Rule}
    (member : entry ∈ tables.readableRules) : fewer.completed entry = tables.completed entry := by
  have known := knows_of_mem_readableRules member
  have access := read_of_leavesOut thinned.accessConfigs known
  have pricing := read_of_leavesOut thinned.pricingConfigs known
  have targets := read_of_leavesOut thinned.targets known
  have tags := read_of_leavesOut thinned.tags known
  have links := read_of_leavesOut thinned.links known
  simp only [PartTable.accessConfigs, PartTable.pricingConfigs, PartTable.targets, PartTable.tags,
    PartTable.links, List.filterMap_eq_map'] at access pricing targets tags links
  simp only [completed, complete, accessConfig?, pricingConfig?, targetsOf, tagsOf, linksOf, access,
    pricing, targets, tags, links]

private theorem completeLast_congr {entries : List (Audited Rule)}
    (same : ∀ entry ∈ entries, fewer.completed entry = tables.completed entry) :
    fewer.completeLast entries = tables.completeLast entries := by
  induction entries with
  | nil => rfl
  | cons entry rest ih =>
    obtain ⟨first, others⟩ := List.forall_mem_cons.mp same
    rw [completed, completed] at first
    rw [completeLast, completeLast, ih others, first]

private theorem assembledRules_of_thinned (thinned : tables.Thinned fewer) :
    fewer.assembledRules = tables.assembledRules := by
  rw [assembledRules, readableRules_of_thinned thinned]
  exact completeLast_congr fun entry member => completed_of_thinned thinned member

theorem forall₂_filterMap {α β : Type} (read? : α → Option β) (items : List α) :
    List.Forall₂ (fun item value => read? item = some value)
      (items.filter fun item => (read? item).isSome) (items.filterMap read?) := by
  induction items with
  | nil => exact .nil
  | cons item rest ih =>
    cases read : read? item with
    | none =>
      rw [List.filter_cons_of_neg (by simp [read]), List.filterMap_cons_none read]
      exact ih
    | some value =>
      rw [List.filter_cons_of_pos (by simp [read]), List.filterMap_cons_some read]
      exact .cons read ih

/-- A rule that is read from a row becomes complete by what belongs to the row. -/
theorem joins_completed (tables : Tables) {row : RuleRow} {entry : Audited Rule}
    (read : row.toRule = .ok entry) : tables.Joins row (tables.completed entry) where
  own := by
    have member : entry ∈ ({ rules := [row] } : Tables).readableRules :=
      mem_readableRules.mpr ⟨row, List.mem_singleton_self row, read⟩
    have bare : (tables.completed entry).record.bare = entry.record :=
      bare_of_mem_readableRules member
    rw [read, bare]
    rfl
  access := by
    rw [← id_of_toRule read]
    exact PartTable.accessConfigs.lastOf_getLast? _ _
  pricing := by
    rw [← id_of_toRule read]
    exact PartTable.pricingConfigs.lastOf_getLast? _ _
  targets entity := by
    have nothing : entity.id ∉ RuleTargets.empty.idsFor entity.family := by
      cases entity.family <;> exact fun member => TextSet.not_mem_empty member
    rw [← id_of_toRule read]
    refine RuleTargets.mem_idsFor_foldl.trans ?_
    simp only [nothing, or_false, List.mem_filterMap, List.mem_filter, beq_iff_eq, and_assoc]
  tags tag := by
    rw [← id_of_toRule read]
    refine TextSet.mem_ofList.trans ?_
    simp only [List.mem_map, List.mem_filter, beq_iff_eq]
    constructor
    · rintro ⟨⟨_, _⟩, ⟨member, rfl⟩, rfl⟩
      exact member
    · exact fun member => ⟨_, ⟨member, rfl⟩, rfl⟩
  links := by
    have all := forall₂_filterMap LinkRow.toLink? (tables.links.filter (·.ruleId == entry.record.id))
    rw [List.filter_filter] at all
    rw [← id_of_toRule read]
    exact all

private theorem isOk_eq_isSome_toOption {ε α : Type} (result : Except ε α) :
    result.isOk = result.toOption.isSome := by
  cases result <;> rfl

/-- Where the rows of rules have distinct ids, joining the tables row by row gives exactly one rule
for each of them that can be read, in their order and with exactly what can be read of the rows that
belong to it. Rows that cannot be read and rows of other rules make no difference. -/
theorem joins_assembledRules (ids : (tables.rules.map RuleRow.id).Nodup) :
    tables.joinedRules = tables.assembledRules ∧
      List.Forall₂ tables.Joins (tables.rules.filter fun row => row.toRule.isOk)
        tables.assembledRules ∧
      ∀ fewer, tables.Thinned fewer → fewer.assembledRules = tables.assembledRules := by
  refine ⟨tables.joinedRules_eq, ?_, fun fewer thinned => assembledRules_of_thinned thinned⟩
  have readable := forall₂_filterMap (fun row : RuleRow => row.toRule.toOption) tables.rules
  rw [assembledRules, completeLast_eq_map _ (ids.sublist (sublist_ids_readableRules tables)),
    List.forall₂_map_right_iff]
  simp only [isOk_eq_isSome_toOption]
  refine readable.imp fun row entry read => tables.joins_completed ?_
  cases taken : row.toRule with
  | ok other =>
    rw [taken] at read
    rw [Option.some.inj read]
  | error e =>
    rw [taken] at read
    cases read

/-- The row of a rule without condition. -/
def plainRow (id : String) : RuleRow := .ofRule (.ofCondition id accessDomain id (.bool true)) default

/-- Rows of three rules, the second of which cannot be read. Among the other rows are some of that
rule, of one that is not there, and some that cannot be read. -/
def interleaved : Tables where
  rules := [plainRow "night", { plainRow "day" with effect := "maybe" }, plainRow "weekend"]
  accessConfigs := [⟨"night", "deny"⟩, ⟨"day", "deny"⟩, ⟨"night", "require"⟩, ⟨"night", "maybe"⟩]
  pricingConfigs := [⟨"weekend", "max", "maybe"⟩]
  targets := [⟨"noon", "product", "tea"⟩, ⟨"weekend", "product", "tea"⟩]
  tags := [⟨"weekend", "late"⟩, ⟨"day", "early"⟩, ⟨"night", "late"⟩]
  links := [⟨"night", "fee", "service", 2⟩, ⟨"night", "maybe", "door", 1⟩, ⟨"night", "fee", "door", 1⟩]

/-- The same without some of the rows that make no difference. -/
def winnowed : Tables where
  rules := [plainRow "night", plainRow "weekend"]
  accessConfigs := [⟨"night", "deny"⟩, ⟨"night", "require"⟩]
  pricingConfigs := []
  targets := [⟨"weekend", "product", "tea"⟩]
  tags := [⟨"weekend", "late"⟩, ⟨"night", "late"⟩]
  links := [⟨"night", "fee", "service", 2⟩, ⟨"night", "fee", "door", 1⟩]

private theorem not_knows_interleaved {id : String} (other : id = "day" ∨ id = "noon") :
    ¬ interleaved.Knows id := by
  rintro ⟨row, member, rfl, read⟩
  simp only [interleaved, List.mem_cons, List.not_mem_nil, or_false] at member
  obtain rfl | rfl | rfl := member
  · exact absurd other (by decide)
  · exact absurd read (by decide)
  · exact absurd other (by decide)

private theorem thinned_interleaved : interleaved.Thinned winnowed where
  rules := .keep _ (.drop rfl (.keep _ .nil))
  accessConfigs := .keep _ (.drop (.inl (not_knows_interleaved (.inl rfl)))
    (.keep _ (.drop (.inr rfl) .nil)))
  pricingConfigs := .drop (.inr rfl) .nil
  targets := .drop (.inl (not_knows_interleaved (.inr rfl))) (.keep _ .nil)
  tags := .keep _ (.drop (.inl (not_knows_interleaved (.inl rfl))) (.keep _ .nil))
  links := .keep _ (.drop (.inr rfl) (.keep _ .nil))

theorem joins_assembledRules_interleaved :
    (interleaved.rules.map RuleRow.id).Nodup ∧
      (∃ night weekend, interleaved.assembledRules = [night, weekend] ∧
        interleaved.Joins (plainRow "night") night ∧
        interleaved.Joins (plainRow "weekend") weekend ∧
        night.record.accessConfig = some ⟨.require⟩ ∧ weekend.record.pricingConfig = none) ∧
      interleaved.Thinned winnowed ∧ winnowed.assembledRules = interleaved.assembledRules := by
  have ids : (interleaved.rules.map RuleRow.id).Nodup := by decide
  obtain ⟨-, rules, unchanged⟩ := joins_assembledRules ids
  refine ⟨ids, ?_, thinned_interleaved, unchanged winnowed thinned_interleaved⟩
  exact ⟨_, _, rfl, (List.forall₂_cons.mp rules).1,
    (List.forall₂_cons.mp (List.forall₂_cons.mp rules).2).1, rfl, rfl⟩

end Tables

end RuleBook
