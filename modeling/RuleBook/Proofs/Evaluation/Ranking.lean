import Mathlib.Data.List.Nodup
import RuleBook.Evaluation.Engine

/-! # Rank order

Rules are ranked by priority, the highest first, and then by id. Between rules with distinct ids
the rank is a strict order in which any two are comparable, so the rules that match a question are
listed in one way, whatever the order in which a source lists its rules.
-/

namespace RuleBook

namespace Selection

/-- A rule stands above another: a higher priority, or the same and a smaller id. -/
def RanksAbove (a b : CompiledRule) : Prop :=
  b.rule.priority.toInt < a.rule.priority.toInt ∨
    (a.rule.priority = b.rule.priority ∧ a.id < b.id)

private theorem ranksBefore_iff {a b : CompiledRule} :
    ranksBefore a b = true ↔ b.rule.priority.toInt < a.rule.priority.toInt ∨
      (a.rule.priority.toInt = b.rule.priority.toInt ∧ a.id ≤ b.id) := by
  simp [ranksBefore, Int32.toInt_inj]

theorem ranksBefore_trans (a b c : CompiledRule) (first : ranksBefore a b = true)
    (second : ranksBefore b c = true) : ranksBefore a c = true := by
  rw [ranksBefore_iff] at first second ⊢
  rcases first with above | ⟨level, before⟩
  · left
    rcases second with above' | ⟨level', _⟩ <;> omega
  · rcases second with above' | ⟨level', before'⟩
    · left
      omega
    · exact .inr ⟨level.trans level', String.le_trans before before'⟩

theorem ranksBefore_total (a b : CompiledRule) : (ranksBefore a b || ranksBefore b a) = true := by
  rw [Bool.or_eq_true, ranksBefore_iff, ranksBefore_iff]
  rcases Int.lt_trichotomy a.rule.priority.toInt b.rule.priority.toInt with below | level | above
  · exact .inr (.inl below)
  · rcases String.le_total a.id b.id with before | after
    · exact .inl (.inr ⟨level, before⟩)
    · exact .inr (.inr ⟨level.symm, after⟩)
  · exact .inl (.inl above)

private theorem id_eq_of_ranksBefore {a b : CompiledRule} (first : ranksBefore a b = true)
    (second : ranksBefore b a = true) : a.id = b.id := by
  rw [ranksBefore_iff] at first second
  rcases first with above | ⟨_, before⟩
  · rcases second with above' | ⟨level, _⟩ <;> omega
  · rcases second with above | ⟨_, after⟩
    · omega
    · exact String.le_antisymm before after

private theorem ranksAbove_of_ranksBefore {a b : CompiledRule} (before : ranksBefore a b = true)
    (different : a.id ≠ b.id) : RanksAbove a b := by
  rw [ranksBefore_iff] at before
  rcases before with above | ⟨level, before⟩
  · exact .inl above
  · exact .inr ⟨Int32.toInt_inj.mp level, Std.lt_of_le_of_ne before different⟩

/-- Rules in rank order stand in one order only. -/
theorem mergeSort_eq_of_perm {a b : List CompiledRule} (perm : a.Perm b)
    (distinct : (a.map CompiledRule.id).Nodup) :
    a.mergeSort ranksBefore = b.mergeSort ranksBefore := by
  have sorted (rules : List CompiledRule) :=
    List.pairwise_mergeSort ranksBefore_trans ranksBefore_total rules
  have same := ((List.mergeSort_perm a ranksBefore).trans perm).trans
    (List.mergeSort_perm b ranksBefore).symm
  refine List.Perm.eq_of_pairwise ?_ (sorted a) (sorted b) same
  intro x y x_mem y_mem first second
  have y_mem' : y ∈ a := perm.mem_iff.mpr (List.mem_mergeSort.mp y_mem)
  exact List.inj_on_of_nodup_map distinct (List.mem_mergeSort.mp x_mem) y_mem'
    (id_eq_of_ranksBefore first second)

/-- In rank order every rule stands above those behind it. -/
theorem pairwise_ranksAbove {rules : List CompiledRule}
    (distinct : (rules.map CompiledRule.id).Nodup) :
    (rules.mergeSort ranksBefore).Pairwise RanksAbove := by
  have sorted := List.pairwise_mergeSort ranksBefore_trans ranksBefore_total rules
  have distinct' : ((rules.mergeSort ranksBefore).map CompiledRule.id).Nodup :=
    ((List.mergeSort_perm rules ranksBefore).map CompiledRule.id).nodup_iff.mpr distinct
  exact (sorted.and (List.pairwise_map.mp distinct')).imp fun ⟨before, different⟩ =>
    ranksAbove_of_ranksBefore before different

end Selection

namespace Question

/-- Whether a rule matches: it is a candidate, and its condition holds. -/
def isMatchedBy (question : Question) (compiled : CompiledRule) : Bool :=
  Targeting.isCandidate question.domain question.context compiled.rule &&
    (Selection.judge false question.facts compiled).isMatch

theorem matched_matchRules (question : Question) (rules : List CompiledRule) :
    (question.matchRules rules).matched =
      (rules.filter question.isMatchedBy).mergeSort Selection.ranksBefore := by
  simp only [matchRules, Selection.matched, Selection.verdicts, Targeting.candidates,
    List.filter_map, List.map_map, List.filter_filter]
  congr 1
  refine (List.map_id _).trans (List.filter_congr ?_)
  intro compiled _
  exact Bool.and_comm _ _

theorem mem_matched_matchRules {question : Question} {rules : List CompiledRule}
    {compiled : CompiledRule} :
    compiled ∈ (question.matchRules rules).matched ↔
      compiled ∈ rules ∧ question.isMatchedBy compiled = true := by
  rw [matched_matchRules, List.mem_mergeSort, List.mem_filter]

/-- The order in which rules are read does not show in the order of those that match. -/
theorem matched_eq_of_perm {question : Question} {a b : List CompiledRule} (perm : a.Perm b)
    (distinct : (a.map CompiledRule.id).Nodup) :
    (question.matchRules a).matched = (question.matchRules b).matched := by
  rw [matched_matchRules, matched_matchRules]
  exact Selection.mergeSort_eq_of_perm (perm.filter _)
    (distinct.sublist (List.filter_sublist.map CompiledRule.id))

/-- The reports of matching follow the order in which rules are read. -/
theorem diagnostics_perm (question : Question) {a b : List CompiledRule} (perm : a.Perm b) :
    (question.matchRules a).diagnostics.Perm (question.matchRules b).diagnostics := by
  apply List.Perm.append
  · exact perm.filterMap _
  · exact ((perm.filter _).map _).filterMap _

end Question

end RuleBook
