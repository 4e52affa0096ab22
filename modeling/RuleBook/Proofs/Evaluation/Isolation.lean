import Mathlib.Data.List.Find
import RuleBook.Proofs.Evaluation.Matching
import RuleBook.Proofs.Pricing.Exclusion

/-! # Broken rules

A broken rule comes into a store: its condition cannot be parsed, its target is inconsistent, the
configuration of its domain is missing, or one of its links leads nowhere. Either it does not match,
or it matches and has no say. So the answers are those without it, but for the reports, its id among
the rules that match, and phases without contributions.
-/

namespace RuleBook

namespace Selection

/-- Dropping rules keeps the others in rank order. -/
theorem filter_mergeSort {rules : List CompiledRule} (distinct : (rules.map CompiledRule.id).Nodup)
    (keep : CompiledRule → Bool) :
    (rules.mergeSort ranksBefore).filter keep = (rules.filter keep).mergeSort ranksBefore := by
  have sorted := List.pairwise_mergeSort ranksBefore_trans ranksBefore_total rules
  have perm : ((rules.mergeSort ranksBefore).filter keep).Perm (rules.filter keep) :=
    (List.mergeSort_perm rules ranksBefore).filter keep
  have distinct' : (((rules.mergeSort ranksBefore).filter keep).map CompiledRule.id).Nodup :=
    (perm.map _).nodup_iff.mpr (distinct.sublist (List.filter_sublist.map _))
  rw [← mergeSort_eq_of_perm perm distinct']
  exact (List.mergeSort_of_pairwise (sorted.filter keep)).symm

end Selection

/-- An access rule with a faulty configuration has none, and so has a pricing rule. -/
theorem Rule.unconfigured_of_configViolation? {rule : Rule} {fault : Rule.ConfigFault}
    (violation : rule.configViolation? = some fault) :
    (rule.domain = accessDomain → rule.accessConfig = none) ∧
      (rule.domain = pricingDomain → rule.pricingConfig = none) := by
  have apart : accessDomain ≠ pricingDomain := by decide
  unfold configViolation? at violation
  split at violation
  · rename_i missing
    exact ⟨fun _ => missing.2, fun pricing => absurd (missing.1.symm.trans pricing) apart⟩
  · split at violation
    · rename_i missing
      exact ⟨fun access => absurd (access.symm.trans missing.1) apart, fun _ => missing.2⟩
    · cases violation

namespace Access

/-- Rules without an access group have no say. -/
theorem decide_filter {matched : List CompiledRule} {keep : CompiledRule → Bool}
    (unconfigured : ∀ compiled ∈ matched, keep compiled = false → compiled.rule.accessConfig = none)
    (default? : Option Decision) :
    decide (matched.filter keep) default? = decide matched default? := by
  have first (group : PriorityGroup) : firstOf? group (matched.filter keep) =
      firstOf? group matched := by
    rw [firstOf?, firstOf?, List.find?_filter]
    refine List.find?_congr fun compiled member => ?_
    cases kept : keep compiled with
    | true =>
      rw [Bool.eq_iff_iff]
      simp
    | false => simp [unconfigured compiled member kept]
  simp only [decide, first]

end Access

namespace Store

variable {before after : Store} {compiled : CompiledRule}

/-- A rule comes into a store under an id that was not taken, and nothing else changes. -/
structure Gains (before : Store) (compiled : CompiledRule) (after : Store) : Prop where
  fresh : before.rules.find? compiled.id = none
  added : ∃ entry, after.rules.find? compiled.id = some entry ∧ entry.record = compiled
  others : ∀ id, id ≠ compiled.id → after.rules.find? id = before.rules.find? id
  effects : after.effects = before.effects

/-- A store gains a rule that is loaded under a fresh id, whatever is wrong with it. -/
theorem gains_load {entry : Audited Rule} (fresh : before.rules.find? entry.record.id = none) :
    before.Gains (compileEntry before.compiler entry).1.record (before.load entry) := by
  constructor
  · exact fresh
  · exact ⟨_, Dictionary.find?_insert_self _ _ _, rfl⟩
  · intro id different
    exact (Dictionary.find?_insert _ _ _ _).trans (if_neg (Ne.symm different))
  · rfl

/-- A store gains a rule that is created. -/
theorem gains_create {rule : Rule} {now : Instant}
    (created : before.create rule now = (.ok compiled, after)) : before.Gains compiled after := by
  rcases strict : before.compileStrict rule with ⟨outcome, checked⟩
  obtain ⟨compiler, rfl⟩ := store_of_compileStrict strict
  simp only [create, strict] at created
  cases outcome with
  | error e => cases created
  | ok accepted =>
    dsimp only at created
    split at created
    · cases created
    · rename_i free
      cases created
      constructor
      · simpa [contains, Dictionary.contains] using free
      · exact ⟨_, Dictionary.find?_insert_self _ _ _, rfl⟩
      · intro id different
        exact (Dictionary.find?_insert _ _ _ _).trans (if_neg (Ne.symm different))
      · rfl

namespace Gains

theorem keyed (gains : before.Gains compiled after) (keyed : before.Keyed) : after.Keyed := by
  constructor
  · intro id entry found
    by_cases same : id = compiled.id
    · obtain ⟨added, held, rfl⟩ := gains.added
      rw [same, held] at found
      rw [same, Option.some.inj found]
    · rw [gains.others id same] at found
      exact keyed.rules id entry found
  · rw [gains.effects]
    exact keyed.effects

private theorem effect?_eq (gains : before.Gains compiled after) :
    after.effect? = before.effect? := by
  funext key
  simp only [effect?, gains.effects]

/-- The only rule that is new among the active ones is the one that came in. -/
theorem eq_of_mem_activeRules (gains : before.Gains compiled after) (keyed : before.Keyed)
    {domain : String} {other : CompiledRule} (member : other ∈ after.activeRules domain)
    (same : other.id = compiled.id) : other = compiled := by
  obtain ⟨id, entry, found, _, rfl, _⟩ := mem_activeRules.mp member
  obtain ⟨added, held, rfl⟩ := gains.added
  have own := (gains.keyed keyed).rules id entry found
  rw [← own, same, held] at found
  rw [Option.some.inj found]

/-- The active rules but for the one that came in are those from before. -/
theorem perm_activeRules (gains : before.Gains compiled after) (keyed : before.Keyed)
    (domain : String) :
    ((after.activeRules domain).filter fun other => other.id != compiled.id).Perm
      (before.activeRules domain) := by
  have listed (store : Store) :
      (store.activeRules domain).filter (fun other => other.id != compiled.id) =
        (store.rules.values.filter fun entry => (entry.record.id != compiled.id) &&
          (!entry.isDeleted && entry.record.rule.isActive && entry.record.domain == domain)).map
            Audited.record := by
    rw [activeRules, List.filter_map, List.filter_filter]
    rfl
  have others : (before.activeRules domain).filter (fun other => other.id != compiled.id) =
      before.activeRules domain := by
    refine List.filter_eq_self.mpr fun other member => ?_
    obtain ⟨id, entry, found, _, rfl, _⟩ := mem_activeRules.mp member
    rw [bne_iff_ne]
    intro same
    have own := keyed.rules id entry found
    rw [← own, same, gains.fresh] at found
    cases found
  rw [← others, listed, listed]
  refine (Dictionary.perm_filter_values _ fun id => ?_).map _
  by_cases same : id = compiled.id
  · obtain ⟨added, held, rfl⟩ := gains.added
    rw [same, held, gains.fresh]
    simp [Option.filter]
  · rw [gains.others id same]

end Gains

/-- A rule is broken: its condition cannot be parsed, its target is inconsistent, the configuration
of its domain is missing, or it forms prices and links an effect that is missing, deleted or
inactive. -/
inductive IsBroken (store : Store) (compiled : CompiledRule) : Prop
  | malformed (error : Condition.ParseError) (condition : compiled.condition = .malformed error)
  | inconsistent (fault : Rule.ScopeFault) (violation : compiled.rule.scopeViolation? = some fault)
  | unconfigured (fault : Rule.ConfigFault)
      (violation : compiled.rule.configViolation? = some fault)
  | dangling (pricing : compiled.domain = pricingDomain) (link : EffectLink)
      (member : link ∈ compiled.rule.effects)
      (unusable : ∀ effect, store.effect? link.key = some effect → effect.isUsable = false)

/-- A broken rule that matches has no say: an access rule has no group, and a pricing rule has no
way of stacking or is left out. -/
theorem IsBroken.hasNoSay {store : Store} {compiled : CompiledRule}
    (broken : store.IsBroken compiled) {question : Question}
    (matched : question.isMatchedBy compiled = true) :
    (question.domain = accessDomain → compiled.rule.accessConfig = none) ∧
      (question.domain = pricingDomain → compiled.rule.pricingConfig = none ∨
        Pricing.IsLeftOut store.effect? compiled.rule) := by
  have applies := Question.isMatchedBy_iff.mp matched
  rw [← applies.domain]
  cases broken with
  | malformed error condition =>
    have indeterminate := applies.holds
    simp only [CompiledRule.evaluate, condition] at indeterminate
    cases indeterminate
  | inconsistent fault violation =>
    have consistent := Rule.scopeViolation?_eq_none_iff.mpr applies.consistent
    rw [violation] at consistent
    cases consistent
  | unconfigured fault violation =>
    obtain ⟨access, pricing⟩ := Rule.unconfigured_of_configViolation? violation
    exact ⟨access, fun priced => .inl (pricing priced)⟩
  | dangling pricing link member unusable =>
    constructor
    · intro access
      have same : accessDomain = pricingDomain := access.symm.trans pricing
      exact absurd same (by decide)
    · intro _
      refine .inr (Pricing.isLeftOut_of_dangling member ?_)
      unfold Pricing.isUsableIn
      split
      · exact unusable _ ‹_›
      · rfl

end Store

/-- Two outcomes are the same, in a price but for phases without contributions and the mark as
partial. -/
inductive EffectOutcome.SameEffect : EffectOutcome → EffectOutcome → Prop
  | access (outcome : AccessOutcome) : SameEffect (.access outcome) (.access outcome)
  | pricing {a b : PriceAdjustment} (same : a.SameCharges b) : SameEffect (.pricing a) (.pricing b)
  | matchOnly : SameEffect .matchOnly .matchOnly

/-- Two results are the same, but that the second may name one more rule among those that match and
differ in its reports. -/
structure EvaluationResult.SameWithout (id : String) (a b : EvaluationResult) : Prop where
  domain : a.domain = b.domain
  matchedRuleIds : a.matchedRuleIds = b.matchedRuleIds.filter (· != id)
  outcome : a.outcome.SameEffect b.outcome
  stale : a.stale = b.stale

namespace Question

variable {question : Question} {source source' : RuleSource} {before after : Store}
  {compiled : CompiledRule}

/-- Looking up the effects that rules link finds those that the store has. -/
theorem agreeOnLinks_lookupEffects (store : Store) (matched : List CompiledRule) :
    ∀ compiled ∈ matched, Pricing.AgreeOnLinks
      (store.lookupEffects (Pricing.effectRefs matched)) store.effect? compiled.rule := by
  intro compiled member link linked
  have listed : (Pricing.effectRefs matched).contains link.key = true :=
    List.contains_iff_mem.mpr (Pricing.mem_effectRefs.mpr ⟨compiled, member, link, linked, rfl⟩)
  rw [Store.lookupEffects, if_pos listed]

/-- The rules that match but for a broken one are those that match without it. -/
theorem matched_of_gains (gains : before.Gains compiled after) (keyed : before.Keyed)
    {rules rules' : List CompiledRule} (listed : rules.Perm (before.activeRules question.domain))
    (listed' : rules'.Perm (after.activeRules question.domain)) :
    (question.matchRules rules).matched =
      (question.matchRules rules').matched.filter fun other => other.id != compiled.id := by
  have distinct : (rules.map CompiledRule.id).Nodup :=
    (listed.map _).nodup_iff.mpr (keyed.nodup_activeRules question.domain)
  have distinct' : (rules'.map CompiledRule.id).Nodup :=
    (listed'.map _).nodup_iff.mpr ((gains.keyed keyed).nodup_activeRules question.domain)
  have perm : rules.Perm (rules'.filter fun other => other.id != compiled.id) :=
    listed.trans (((listed'.filter _).trans (gains.perm_activeRules keyed question.domain)).symm)
  rw [matched_eq_of_perm perm distinct, matched_matchRules, matched_matchRules,
    Selection.filter_mergeSort (distinct'.sublist (List.filter_sublist.map _)), List.filter_comm]

private theorem conclude_eq_bind (question : Question) (source : RuleSource)
    (deadline? : Option Deadline) (matching : Matching) :
    question.conclude source deadline? matching =
      (question.combine source deadline? matching.matched).result.bind fun outcome =>
        (Deadline.check deadline? .combined).bind fun () =>
          .ok ⟨question.domain, matching.matched.map CompiledRule.id, outcome,
            matching.diagnostics ++ (question.combine source deadline? matching.matched).notes,
            false⟩ := by
  unfold conclude
  cases (question.combine source deadline? matching.matched).result with
  | error e => rfl
  | ok outcome => cases Deadline.check deadline? .combined <;> rfl

/-- A rule that has no say does not change the outcome. -/
theorem combine_filter (reads : source.Reads before) (reads' : source'.Reads after)
    (effects : after.effect? = before.effect?) (deadline? : Option Deadline)
    {matched : List CompiledRule} {keep : CompiledRule → Bool}
    (access : question.domain = accessDomain → ∀ compiled ∈ matched, keep compiled = false →
      compiled.rule.accessConfig = none)
    (pricing : question.domain = pricingDomain → ∀ compiled ∈ matched, keep compiled = false →
      compiled.rule.pricingConfig = none ∨ Pricing.IsLeftOut before.effect? compiled.rule) :
    EndsAlike EffectOutcome.SameEffect
      (question.combine source deadline? (matched.filter keep)).result
      (question.combine source' deadline? matched).result := by
  simp only [combine]
  split
  · rename_i inAccess
    have decided := Access.decide_filter (access inAccess) question.context.defaultDecision
    simp only [Noted.result_bind, Access.resolve, decided]
    refine .bind (.of_eq rfl Eq.refl) ?_
    rintro outcome _ rfl
    exact .result (.access outcome)
  · split
    · rename_i inPricing
      rw [findEffects_eq reads, findEffects_eq reads']
      simp only [Noted.ofExcept, Noted.bind_ok, Noted.result_bind]
      refine .bind (.of_eq rfl Eq.refl) fun _ _ _ => ?_
      cases question.context.baseAmount with
      | none => exact .failure _
      | some baseAmount =>
        simp only [Noted.result_bind]
        rw [Pricing.resolve_congr (agreeOnLinks_lookupEffects before _),
          Pricing.resolve_congr (agreeOnLinks_lookupEffects after _), effects]
        refine (Pricing.resolve_filter (pricing inPricing)).bind fun a b same => ?_
        exact .result (.pricing same)
    · exact .result .matchOnly

end Question

/-- A broken rule that comes into a store under a fresh id changes no answer, but for the reports,
its own id among the rules that match, the mark as partial, and phases without contributions. -/
theorem Store.Gains.answer_withoutBroken {before after : Store} {compiled : CompiledRule}
    (gains : before.Gains compiled after) (reachable : before.Reachable)
    (broken : before.IsBroken compiled) (question : Question) {source source' : RuleSource}
    (reads : source.Reads before) (reads' : source'.Reads after) (deadline? : Option Deadline) :
    EndsAlike (EvaluationResult.SameWithout compiled.id) (question.answer source deadline?)
      (question.answer source' deadline?) := by
  have keyed := reachable.keyed
  obtain ⟨rules, read, listed⟩ := reads.rules question.domain
  obtain ⟨rules', read', listed'⟩ := reads'.rules question.domain
  have matched := Question.matched_of_gains gains keyed listed listed'
  have noSay : ∀ other ∈ (question.matchRules rules').matched, (other.id != compiled.id) = false →
      (question.domain = accessDomain → other.rule.accessConfig = none) ∧
        (question.domain = pricingDomain → other.rule.pricingConfig = none ∨
          Pricing.IsLeftOut before.effect? other.rule) := by
    intro other member dropped
    obtain ⟨present, holds⟩ := Question.mem_matched_matchRules.mp member
    rw [bne_eq_false_iff_eq] at dropped
    obtain rfl := gains.eq_of_mem_activeRules keyed (listed'.mem_iff.mp present) dropped
    exact broken.hasNoSay holds
  rw [Question.answer_of_rules read, Question.answer_of_rules read']
  refine .bind (.of_eq rfl Eq.refl) fun _ _ _ => ?_
  have combined := Question.combine_filter reads reads' gains.effect?_eq deadline?
    (fun access other member dropped => (noSay other member dropped).1 access)
    (fun pricing other member dropped => (noSay other member dropped).2 pricing)
  rw [← matched] at combined
  rw [Question.conclude_eq_bind, Question.conclude_eq_bind]
  refine combined.bind fun a b same => .bind (.of_eq rfl Eq.refl) fun _ _ _ => ?_
  refine .result ⟨rfl, ?_, same, rfl⟩
  rw [matched, List.filter_map]
  rfl

section Samples

/-- A pricing rule with a link to a fee that no store has. -/
def giftEntry : Audited Rule :=
  .create { Rule.ofCondition "gift" pricingDomain "gift" (.bool true) with
    pricingConfig := some ⟨.max, .preDiscount⟩
    effects := [⟨.fee, "gift", 0⟩] } default

/-- The store that charges a fee, with the broken rule loaded into it. -/
def brokenStore : Store := chargingStore.load giftEntry

/-- What evaluations see of the broken rule. -/
def giftRule : CompiledRule := (Store.compileEntry chargingStore.compiler giftEntry).1.record

theorem answer_withoutBroken_giftRule :
    chargingStore.Gains giftRule brokenStore ∧ chargingStore.Reachable ∧
      chargingStore.IsBroken giftRule ∧
      (RuleSource.ofStore chargingStore).Reads chargingStore ∧
      (RuleSource.ofStore brokenStore).Reads brokenStore ∧
      priceQuestion.isMatchedBy giftRule = true ∧
      (priceQuestion.answer (.ofStore chargingStore) none).isOk = true ∧
      EndsAlike (EvaluationResult.SameWithout "gift")
        (priceQuestion.answer (.ofStore chargingStore) none)
        (priceQuestion.answer (.ofStore brokenStore) none) := by
  have fresh : chargingStore.rules.find? "gift" = none :=
    Option.isNone_iff_eq_none.mp (by decide +kernel)
  have gains : chargingStore.Gains giftRule brokenStore := Store.gains_load fresh
  have reachable := reachable_chargingStore
  have broken : chargingStore.IsBroken giftRule := by
    refine .dangling rfl ⟨.fee, "gift", 0⟩ (List.mem_singleton.mpr rfl) fun effect found => ?_
    have missing : chargingStore.effect? ⟨.fee, "gift"⟩ = none := by decide +kernel
    cases missing.symm.trans found
  have matched : priceQuestion.isMatchedBy giftRule = true := by decide +kernel
  have answered : (priceQuestion.answer (.ofStore chargingStore) none).isOk = true := by
    decide +kernel
  have reads := RuleSource.reads_ofStore chargingStore
  have reads' := RuleSource.reads_ofStore brokenStore
  exact ⟨gains, reachable, broken, reads, reads', matched, answered,
    gains.answer_withoutBroken reachable broken priceQuestion reads reads' none⟩

end Samples

end RuleBook
