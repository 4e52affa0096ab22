import RuleBook.Database.Repository
import RuleBook.Proofs.Database.Assembly

/-! # What statements leave in records

The effect of a statement is what it does to records where nothing refuses it: an insertion adds its
row, and a removal takes away the rows of a table that belong to a rule. From consistent records the
statements of a write lead to records that store the rule. A new rule finds no row that belongs to
it, and another version of a rule has removed those of the version before.
-/

namespace RuleBook

namespace Records

/-- The rows that a statement touches or yields where nothing refuses it, and the records after
it. -/
def effect (records : Records) : Statement → Nat × Records
  | .insertRule row =>
    if records.rules.any fun held => held.id == row.id then (0, records)
    else (1, { records with rules := records.rules ++ [row] })
  | .updateRule row => records.changeLive row.id fun held =>
      { row with createdAt := held.createdAt, deletedAt := held.deletedAt }
  | .markRuleDeleted id now => records.changeLive id fun held =>
      { held with deletedAt := some now, updatedAt := now }
  | .clearChildren table ruleId => records.clearChildren table ruleId
  | .insertChild ruleId row =>
    (1, { records with children := records.children ++ [(ruleId, row)] })
  | .ping => (1, records)
  | .query query => ((records.select query).length, records)
  | .begin => (0, records)
  | .commit => (0, records)
  | .rollback => (0, records)

/-- The records after a series of statements. -/
def after (records : Records) (statements : List Statement) : Records :=
  statements.foldl (fun records statement => (records.effect statement).2) records

theorem after_cons (records : Records) (statement : Statement) (rest : List Statement) :
    records.after (statement :: rest) = (records.effect statement).2.after rest := rfl

theorem after_append (records : Records) (first second : List Statement) :
    records.after (first ++ second) = (records.after first).after second := List.foldl_append

/-- The ids of rules are distinct, and what belongs to a rule belongs to one that is there. -/
structure Consistent (records : Records) : Prop where
  ids : (records.rules.map RuleRow.id).Nodup
  owners : ∀ child ∈ records.children, child.1 ∈ records.rules.map RuleRow.id

variable {records : Records} {rule : Rule} {id : String}

/-- Changes of rows that are not there change nothing. -/
theorem changeLive_of_untouched {change : RuleRow → RuleRow}
    (untouched : (records.changeLive id change).1 = 0) :
    records.changeLive id change = (0, records) := by
  have dead : ∀ row ∈ records.rules, ¬ row.isLiveUnder id = true := List.countP_eq_zero.mp untouched
  have same : records.rules.map (fun row => if row.isLiveUnder id then change row else row) =
      records.rules := by
    rw [List.map_congr_left fun row member => if_neg (dead row member), List.map_id']
  refine Prod.ext untouched ?_
  simp only [changeLive, same]

/-- What is not refused has its effect. -/
theorem effect_of_run {statement : Statement} {outcome : Nat × Records}
    (ran : records.run statement = .ok outcome) : records.effect statement = outcome := by
  cases statement with
  | insertRule row =>
    simp only [run, insertRule] at ran
    split at ran
    · cases ran
    · simp only [effect]
      split at ran <;> simp_all
  | updateRule row =>
    simp only [run, updateRule] at ran
    split at ran
    · split at ran
      · -- A row that would break a constraint is not looked at where there is none to replace.
        rename_i untouched
        cases ran
        exact changeLive_of_untouched untouched
      · cases ran
    · exact Except.ok.inj ran
  | insertChild ruleId row =>
    simp only [run, insertChild] at ran
    split at ran
    · cases ran
    · split at ran
      · exact Except.ok.inj ran
      · cases ran
  | _ => exact Except.ok.inj ran

section Children

/-- Inserting rows that belong to a rule adds them, and does nothing else. -/
theorem after_inserts (records : Records) (ruleId : String) (rows : List ChildRow) :
    records.after (rows.map (.insertChild ruleId)) =
      { records with children := records.children ++ rows.map (Prod.mk ruleId) } := by
  induction rows generalizing records with
  | nil => simp [after]
  | cons row rest ih =>
    rw [List.map_cons, after_cons, ih]
    simp [effect]

/-- Emptying tables of what belongs to a rule leaves what is in other tables, and all rules. -/
theorem after_clears (records : Records) (ruleId : String) (tables : List ChildTable) :
    (records.after (tables.map (.clearChildren · ruleId))).rules = records.rules ∧
      (records.after (tables.map (.clearChildren · ruleId))).childrenOf ruleId =
        (records.childrenOf ruleId).filter fun row => !tables.contains row.table := by
  induction tables generalizing records with
  | nil => simp [after]
  | cons table rest ih =>
    rw [List.map_cons, after_cons]
    obtain ⟨rules, children⟩ := ih (records.effect (.clearChildren table ruleId)).2
    refine ⟨rules, children.trans ?_⟩
    have cleared : (records.effect (.clearChildren table ruleId)).2.childrenOf ruleId =
        (records.childrenOf ruleId).filter fun row => !(row.table == table) := by
      simp only [effect, clearChildren, childrenOf]
      induction records.children with
      | nil => rfl
      | cons child others step =>
        obtain ⟨owner, row⟩ := child
        by_cases same : owner = ruleId <;> by_cases inTable : row.table = table <;>
          simp_all
    rw [cleared, List.filter_filter]
    refine List.filter_congr fun row _ => ?_
    by_cases inTable : row.table = table <;> simp [inTable]

theorem childrenOf_childDeletes (records : Records) (ruleId : String) :
    (records.after (Server.childDeletes ruleId)).childrenOf ruleId = [] := by
  refine (records.after_clears ruleId ChildTable.all).2.trans ?_
  refine List.filter_eq_nil_iff.mpr fun row _ => ?_
  cases row.table <;> decide

/-- Nothing belongs to a rule that is not there. -/
theorem Consistent.childrenOf_eq_nil (consistent : records.Consistent)
    (free : id ∉ records.rules.map RuleRow.id) : records.childrenOf id = [] := by
  refine List.filterMap_eq_nil_iff.mpr fun child member => if_neg ?_
  rintro rfl
  exact free (consistent.owners child member)

/-- Where nothing belongs to a rule, inserting its rows after its own row stores it. -/
theorem stores_childInserts (row : RuleRow)
    (once : records.rules.filter (·.id == rule.id) = [row]) (holds : row.Holds rule)
    (cleared : records.childrenOf rule.id = []) :
    (records.after (Server.childInserts rule)).Stores rule := by
  rw [Server.childInserts, after_inserts]
  refine ⟨⟨row, once, holds⟩, ?_⟩
  simp only [childrenOf] at cleared
  simp [childrenOf, List.filterMap_append, cleared, List.filterMap_map]

end Children

section Rules

/-- Changing a rule that is not marked as deleted changes the one row with its id. -/
theorem filter_id_changeLive {change : RuleRow → RuleRow} {held : RuleRow}
    (ids : (records.rules.map RuleRow.id).Nodup) (keeps : ∀ row, (change row).id = id)
    (member : held ∈ records.rules) (live : held.isLiveUnder id = true) :
    (records.changeLive id change).2.rules.filter (·.id == id) = [change held] := by
  have same : held.id = id := (RuleRow.isLiveUnder_iff.mp live).1
  have alike : ∀ row : RuleRow, ((if row.isLiveUnder id then change row else row).id == id) =
      (row.id == id) := by
    intro row
    split
    · rename_i under
      rw [keeps, (RuleRow.isLiveUnder_iff.mp under).1]
    · rfl
  simp only [changeLive, List.filter_map, Function.comp_def, alike]
  rw [← same, filter_key_of_mem ids member, List.map_singleton, same, if_pos live]

/-- A row whose id is free is added. -/
theorem effect_insertRule_of_free {row : RuleRow} (free : row.id ∉ records.rules.map RuleRow.id) :
    records.effect (.insertRule row) = (1, { records with rules := records.rules ++ [row] }) := by
  refine if_neg fun taken => ?_
  obtain ⟨held, member, same⟩ := List.any_eq_true.mp taken
  exact free (List.mem_map.mpr ⟨held, member, by simpa using same⟩)

/-- A new rule touches a row when its id is free. -/
theorem touched_insertRule {row : RuleRow} :
    (records.effect (.insertRule row)).1 ≠ 0 ↔ row.id ∉ records.rules.map RuleRow.id := by
  constructor
  · intro touched taken
    obtain ⟨held, member, same⟩ := List.mem_map.mp taken
    refine touched (congrArg Prod.fst (if_pos ?_))
    exact List.any_eq_true.mpr ⟨held, member, by simpa using same⟩
  · intro free
    rw [effect_insertRule_of_free free]
    exact Nat.one_ne_zero

/-- Another version of a rule touches a row when the rule is there. -/
theorem touched_updateRule {row : RuleRow} :
    (records.effect (.updateRule row)).1 ≠ 0 ↔ records.HasLive row.id := by
  refine Nat.pos_iff_ne_zero.symm.trans (List.countP_pos_iff.trans ?_)
  simp [HasLive, RuleRow.isLiveUnder]

/-- Writing a new rule stores it. -/
theorem Consistent.stores_insert (consistent : records.Consistent) (now : Instant)
    (free : rule.id ∉ records.rules.map RuleRow.id) :
    (records.after (.insertRule (.ofRule rule now) :: Server.childInserts rule)).Stores rule := by
  rw [after_cons, effect_insertRule_of_free free]
  refine stores_childInserts (.ofRule rule now) ?_ ⟨now, now, rfl⟩ ?_
  · have fresh : records.rules.filter (·.id == rule.id) = [] := by
      refine List.filter_eq_nil_iff.mpr fun row member same => ?_
      exact free (List.mem_map.mpr ⟨row, member, by simpa using same⟩)
    rw [List.filter_append, fresh]
    simp [RuleRow.ofRule]
  · exact consistent.childrenOf_eq_nil free

/-- The records after another version of a rule has been written. -/
def updated (records : Records) (rule : Rule) (now : Instant) : Records :=
  records.after (.updateRule (.ofRule rule now) ::
    (Server.childDeletes rule.id ++ Server.childInserts rule))

/-- Writing another version of a rule stores it, whatever belonged to the version before. -/
theorem Consistent.stores_updated (consistent : records.Consistent) (now : Instant)
    (live : records.HasLive rule.id) : (records.updated rule now).Stores rule := by
  obtain ⟨held, member, same, unmarked⟩ := live
  have under : held.isLiveUnder rule.id = true := by simp [RuleRow.isLiveUnder, same, unmarked]
  rw [updated, after_cons, after_append]
  let written := (records.effect (.updateRule (.ofRule rule now))).2
  obtain ⟨rules, _⟩ := written.after_clears rule.id ChildTable.all
  refine stores_childInserts
    { RuleRow.ofRule rule now with createdAt := held.createdAt, deletedAt := held.deletedAt }
    ?_ ⟨now, held.createdAt, ?_⟩ (written.childrenOf_childDeletes rule.id)
  · rw [Server.childDeletes, rules]
    exact filter_id_changeLive consistent.ids (fun _ => rfl) member under
  · rw [unmarked]
    rfl

end Rules

section Consistent

/-- Changing rules keeps their ids. -/
theorem ids_changeLive (records : Records) {change : RuleRow → RuleRow}
    (keeps : ∀ row, row.isLiveUnder id = true → (change row).id = row.id) :
    (records.changeLive id change).2.rules.map RuleRow.id = records.rules.map RuleRow.id := by
  simp only [changeLive, List.map_map]
  refine List.map_congr_left fun row _ => ?_
  by_cases live : row.isLiveUnder id
  · simp [live, keeps row live]
  · simp [live]

theorem ids_updateRule (records : Records) (row : RuleRow) :
    (records.effect (.updateRule row)).2.rules.map RuleRow.id = records.rules.map RuleRow.id :=
  records.ids_changeLive fun _ live => (RuleRow.isLiveUnder_iff.mp live).1.symm

theorem Consistent.changeLive (consistent : records.Consistent) {change : RuleRow → RuleRow}
    (keeps : ∀ row, row.isLiveUnder id = true → (change row).id = row.id) :
    (records.changeLive id change).2.Consistent := by
  have same := records.ids_changeLive keeps
  exact ⟨same ▸ consistent.ids, fun child member => same ▸ consistent.owners child member⟩

/-- Records that run a statement stay consistent. -/
theorem Consistent.run (consistent : records.Consistent) {statement : Statement}
    {outcome : Nat × Records} (ran : records.run statement = .ok outcome) :
    outcome.2.Consistent := by
  have effective := effect_of_run ran
  cases statement with
  | insertRule row =>
    rw [effect] at effective
    split at effective
    · rw [← effective]
      exact consistent
    · rename_i free
      rw [← effective]
      constructor
      · refine List.map_append ▸ List.nodup_append.mpr ⟨consistent.ids, List.nodup_singleton _, ?_⟩
        rintro id member other last rfl
        obtain ⟨held, held_member, same⟩ := List.mem_map.mp member
        rw [List.map_singleton, List.mem_singleton] at last
        exact free (List.any_eq_true.mpr ⟨held, held_member, by simp [same, last]⟩)
      · intro child member
        exact List.map_append ▸ List.mem_append_left _ (consistent.owners child member)
  | updateRule row =>
    rw [← effective]
    exact consistent.changeLive fun _ live => (RuleRow.isLiveUnder_iff.mp live).1.symm
  | markRuleDeleted id now =>
    rw [← effective]
    exact consistent.changeLive fun held _ => rfl
  | clearChildren table ruleId =>
    rw [← effective]
    refine ⟨consistent.ids, fun child member => ?_⟩
    exact consistent.owners child (List.mem_filter.mp member).1
  | insertChild ruleId row =>
    have anchored : records.isAnchored ruleId row = true := by
      simp only [Records.run, insertChild] at ran
      split at ran
      · cases ran
      · split at ran
        · assumption
        · cases ran
    rw [← effective]
    refine ⟨consistent.ids, fun child member => ?_⟩
    rcases List.mem_append.mp member with member | member
    · exact consistent.owners child member
    · rw [List.mem_singleton.mp member]
      simp only [isAnchored, Bool.and_eq_true, List.any_eq_true, beq_iff_eq] at anchored
      obtain ⟨held, held_member, same⟩ := anchored.1
      exact List.mem_map.mpr ⟨held, held_member, same⟩
  | _ =>
    rw [← effective]
    exact consistent

end Consistent

end Records

end RuleBook
