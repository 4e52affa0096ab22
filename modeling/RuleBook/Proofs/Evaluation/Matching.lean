import RuleBook.Proofs.Evaluation.Answer

/-! # The rules that match

`Question.AppliesTo` says, without the stages of an evaluation, what it takes for a rule to match a
question. An answer from a reachable store names exactly the live rules that apply, each once and in
strict rank order; so it does not depend on the order in which the store lists its rules.
-/

namespace RuleBook

namespace Rule

/-- A family of entities is set exactly when the rule is aimed at one family. -/
def ScopeConsistent (rule : Rule) : Prop :=
  rule.targetEntityType.isSome = true ↔ rule.targetScope = .entityType

/-- What the context is about lies within the scope of the rule. -/
inductive Covers (rule : Rule) (context : EvaluationContext) : Prop
  | universal (scope : rule.targetScope = .universal)
  | domain (scope : rule.targetScope = .domain)
  | family (scope : rule.targetScope = .entityType) (entity : EntityRef)
      (about : context.entity = some entity) (aimed : rule.targetEntityType = some entity.family)
  | listed (scope : rule.targetScope = .entities) (entity : EntityRef)
      (about : context.entity = some entity) (member : entity.id ∈ rule.targets.idsFor entity.family)

/-- The rule has no tags, or one that the context has too. -/
def SharesTag (rule : Rule) (context : EvaluationContext) : Prop :=
  (∀ tag, ¬ tag ∈ rule.tags) ∨ ∃ tag, tag ∈ rule.tags ∧ tag ∈ context.tags

theorem scopeViolation?_eq_none_iff {rule : Rule} :
    rule.scopeViolation?.isNone = true ↔ rule.ScopeConsistent := by
  unfold scopeViolation? ScopeConsistent
  cases rule.targetScope <;> cases rule.targetEntityType <;> simp

private theorem scopeMatches_iff {rule : Rule} {context : EvaluationContext} :
    Targeting.scopeMatches rule context = true ↔ rule.Covers context := by
  unfold Targeting.scopeMatches
  constructor
  · intro covered
    split at covered
    · exact .universal ‹_›
    · exact .domain ‹_›
    · split at covered
      · rename_i entity family about aimed
        exact .family ‹_› entity about (by rw [aimed, (beq_iff_eq.mp covered)])
      · cases covered
    · split at covered
      · rename_i entity about
        exact .listed ‹_› entity about (TextSet.contains_iff.mp covered)
      · cases covered
  · intro covers
    cases covers with
    | universal scope => rw [scope]
    | domain scope => rw [scope]
    | family scope entity about aimed => simp [scope, about, aimed]
    | listed scope entity about member =>
      simpa [scope, about, RuleTargets.contains] using TextSet.contains_iff.mpr member

private theorem tagsMatch_iff {rule : Rule} {context : EvaluationContext} :
    Targeting.tagsMatch rule context = true ↔ rule.SharesTag context := by
  simp only [Targeting.tagsMatch, SharesTag, Bool.or_eq_true, TextSet.isEmpty, TextSet.meets,
    List.any_eq_true, TextSet.contains_iff, List.isEmpty_iff]
  exact or_congr_left List.eq_nil_iff_forall_not_mem

end Rule

namespace Question

/-- What it takes for a rule to match: it is active and of the domain, its target is consistent and
covers what the context is about, it shares a tag or has none, and its condition is true. -/
structure AppliesTo (question : Question) (compiled : CompiledRule) : Prop where
  active : compiled.rule.isActive = true
  domain : compiled.rule.domain = question.domain
  consistent : compiled.rule.ScopeConsistent
  covers : compiled.rule.Covers question.context
  tagged : compiled.rule.SharesTag question.context
  holds : (compiled.evaluate false question.facts).truth = .true

private theorem isMatch_judge_iff {facts : List (String × Json)} {compiled : CompiledRule} :
    (Selection.judge false facts compiled).isMatch = true ↔
      compiled.rule.isActive = true ∧ (compiled.evaluate false facts).truth = .true := by
  unfold Selection.judge
  cases compiled.rule.isActive with
  | false => simp [Selection.Verdict.isMatch]
  | true =>
    cases condition : compiled.condition with
    | malformed error => simp [Selection.Verdict.isMatch, CompiledRule.evaluate, condition]
    | parsed parsed => simp [Selection.Verdict.isMatch, Condition.Outcome.isMatch]

theorem isMatchedBy_iff {question : Question} {compiled : CompiledRule} :
    question.isMatchedBy compiled = true ↔ question.AppliesTo compiled := by
  simp only [isMatchedBy, Targeting.isCandidate, Bool.and_eq_true, beq_iff_eq, isMatch_judge_iff,
    Rule.scopeViolation?_eq_none_iff, Rule.scopeMatches_iff, Rule.tagsMatch_iff]
  constructor
  · rintro ⟨⟨⟨⟨domain, consistent⟩, covers⟩, tagged⟩, active, holds⟩
    exact ⟨active, domain, consistent, covers, tagged, holds⟩
  · rintro ⟨active, domain, consistent, covers, tagged, holds⟩
    exact ⟨⟨⟨⟨domain, consistent⟩, covers⟩, tagged⟩, active, holds⟩

/-- An answer names the ids of the rules that match. -/
theorem matchedRuleIds_of_answer {question : Question} {source : RuleSource}
    {deadline? : Option Deadline} {result : EvaluationResult} {rules : List CompiledRule}
    (read : source.rules question.domain = .ok rules)
    (answered : question.answer source deadline? = .ok result) :
    result.matchedRuleIds = (question.matchRules rules).matched.map CompiledRule.id := by
  rw [(eq_of_answer read answered).2]

end Question

namespace Store

variable {store : Store} {question : Question}

/-- The active rules of the domain of a question that match are the live rules that apply. -/
theorem Keyed.mem_matched_iff (keyed : store.Keyed) {rules : List CompiledRule}
    (perm : rules.Perm (store.activeRules question.domain)) {compiled : CompiledRule} :
    compiled ∈ (question.matchRules rules).matched ↔
      ∃ entry, store.rules.find? compiled.id = some entry ∧ entry.deletedAt = none ∧
        entry.record = compiled ∧ question.AppliesTo compiled := by
  rw [Question.mem_matched_matchRules, perm.mem_iff, mem_activeRules, Question.isMatchedBy_iff]
  constructor
  · rintro ⟨⟨id, entry, found, live, rfl, _, _⟩, applies⟩
    have own := keyed.rules id entry found
    refine ⟨entry, own ▸ found, ?_, rfl, applies⟩
    simpa [Audited.isDeleted] using live
  · rintro ⟨entry, found, live, rfl, applies⟩
    exact ⟨⟨_, entry, found, by simp [Audited.isDeleted, live], rfl, applies.active, applies.domain⟩,
      applies⟩

/-- The rules that match have distinct ids and stand in strict rank order. -/
theorem Keyed.ranked_matched (keyed : store.Keyed) {rules : List CompiledRule}
    (perm : rules.Perm (store.activeRules question.domain)) :
    ((question.matchRules rules).matched.map CompiledRule.id).Nodup ∧
      (question.matchRules rules).matched.Pairwise Selection.RanksAbove := by
  have distinct : ((rules.filter question.isMatchedBy).map CompiledRule.id).Nodup :=
    ((perm.map _).nodup_iff.mpr (keyed.nodup_activeRules question.domain)).sublist
      (List.filter_sublist.map _)
  rw [Question.matched_matchRules]
  exact ⟨((List.mergeSort_perm _ _).map _).nodup_iff.mpr distinct,
    Selection.pairwise_ranksAbove distinct⟩

/-- The ids that an answer names are exactly those of the live rules that apply, each once and in
strict rank order. -/
structure NamesMatches (store : Store) (question : Question) (ids : List String) : Prop where
  mem_iff : ∀ id, id ∈ ids ↔ ∃ entry, store.rules.find? id = some entry ∧
    entry.deletedAt = none ∧ question.AppliesTo entry.record
  nodup : ids.Nodup
  ranked : ids.Pairwise fun a b => ∃ above below, store.rules.find? a = some above ∧
    store.rules.find? b = some below ∧ Selection.RanksAbove above.record below.record

/-- An answer from a reachable store names exactly the live rules that apply, each once and in
strict rank order, and it names the same rules and has the same outcome whatever the order in which
the store lists its rules. -/
theorem Reachable.matchedRuleIds_exact (reachable : store.Reachable) {source : RuleSource}
    (reads : source.Reads store) {deadline? : Option Deadline} {result : EvaluationResult}
    (answered : question.answer source deadline? = .ok result) :
    store.NamesMatches question result.matchedRuleIds ∧
      ∀ other : RuleSource, other.Reads store →
        ∃ again, question.answer other deadline? = .ok again ∧
          again.matchedRuleIds = result.matchedRuleIds ∧ again.outcome = result.outcome := by
  have keyed := reachable.keyed
  obtain ⟨rules, read, perm⟩ := reads.rules question.domain
  have ids := Question.matchedRuleIds_of_answer read answered
  have members {compiled : CompiledRule} :
      compiled ∈ (question.matchRules rules).matched ↔
        ∃ entry, store.rules.find? compiled.id = some entry ∧ entry.deletedAt = none ∧
          entry.record = compiled ∧ question.AppliesTo compiled := keyed.mem_matched_iff perm
  obtain ⟨distinct, ranked⟩ := keyed.ranked_matched perm
  refine ⟨⟨fun id => ?_, ids ▸ distinct, ?_⟩, ?_⟩
  · rw [ids, List.mem_map]
    constructor
    · rintro ⟨compiled, member, rfl⟩
      obtain ⟨entry, found, live, rfl, applies⟩ := members.mp member
      exact ⟨entry, found, live, applies⟩
    · rintro ⟨entry, found, live, applies⟩
      obtain rfl := keyed.rules id entry found
      exact ⟨entry.record, members.mpr ⟨entry, found, live, rfl, applies⟩, rfl⟩
  · rw [ids]
    refine List.pairwise_map.mpr (ranked.imp_of_mem fun a_mem b_mem above => ?_)
    obtain ⟨entry, found, _, rfl, _⟩ := members.mp a_mem
    obtain ⟨entry', found', _, rfl, _⟩ := members.mp b_mem
    exact ⟨entry, entry', found, found', above⟩
  · intro other reads_other
    have same : SameAnswer (question.answer source deadline?) (question.answer other deadline?) :=
      Question.sameAnswer_of_agreeOn keyed (.refl _ store) reads reads_other
    rw [answered] at same
    generalize question.answer other deadline? = again at same ⊢
    cases same with
    | result same => exact ⟨_, rfl, same.matchedRuleIds.symm, same.outcome.symm⟩

/-- Two rules that grant, and one that is deleted. -/
def staffed : Store :=
  (((Store.empty.write (.create (grantingRule "admin" accessDomain 5) default)).write
    (.create (grantingRule "guest" accessDomain 0) default)).write
    (.create (grantingRule "owner" accessDomain 9) default)).write (.softDelete "owner" default)

private theorem reachable_staffed : staffed.Reachable :=
  .write (.write (.write (.write .empty _) _) _) _

private theorem isOk_answer_staffed :
    (accessQuestion.answer (.ofStore staffed) none).isOk = true := by
  have ranked : ((staffed.activeRules accessQuestion.domain).filter
      accessQuestion.isMatchedBy).Pairwise fun a b => Selection.ranksBefore a b := by decide +kernel
  rw [Question.answer_of_rules rfl]
  simp only [Question.conclude, Question.matched_matchRules, List.mergeSort_of_pairwise ranked]
  decide +kernel

theorem matchedRuleIds_exact_staffed : ∃ result,
    accessQuestion.answer (.ofStore staffed) none = .ok result ∧ staffed.Reachable ∧
      (RuleSource.ofStore staffed).Reads staffed ∧
      staffed.NamesMatches accessQuestion result.matchedRuleIds := by
  have reads := RuleSource.reads_ofStore staffed
  obtain ⟨result, answered⟩ := Except.exists_of_isOk isOk_answer_staffed
  exact ⟨result, answered, reachable_staffed, reads,
    (reachable_staffed.matchedRuleIds_exact reads answered).1⟩

end Store

end RuleBook
