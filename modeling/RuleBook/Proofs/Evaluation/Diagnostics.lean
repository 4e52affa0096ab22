import RuleBook.Proofs.Evaluation.Isolation
import RuleBook.Proofs.Pricing.Reports

/-! # The reports of an answer

An answer carries the reports made in finding the matching rules and those made in combining their
effects. `MatchingReport` and `Combined` say which these can be; every report is about a rule that
was listed, for a reason that can be read off the rule and off the effects that it links.
-/

namespace RuleBook

namespace Question

variable {question : Question} {source : RuleSource} {deadline? : Option Deadline}
  {rules matched : List CompiledRule} {result : EvaluationResult}

/-- What can be reported about a rule in finding the rules that match. -/
inductive MatchingReport (question : Question) (compiled : CompiledRule) : Diagnostic → Prop
  | inconsistent (fault : Rule.ScopeFault) (violation : compiled.rule.scopeViolation? = some fault) :
      MatchingReport question compiled (.ofRule .dataIntegrityWarning compiled.id fault.message)
  | malformed (error : Condition.ParseError) (condition : compiled.condition = .malformed error) :
      MatchingReport question compiled
        (.ofRule .conditionParseError compiled.id error.toRuleError.message)
  | indeterminate
      (unknown : (compiled.evaluate false question.facts).truth = .indeterminate) :
      MatchingReport question compiled (.ofRule .indeterminateCondition compiled.id
        (Selection.reasons (compiled.evaluate false question.facts).findings))

/-- Every report made in finding the matching rules is about one of the rules. -/
theorem exists_of_mem_diagnostics_matchRules {diagnostic : Diagnostic}
    (member : diagnostic ∈ (question.matchRules rules).diagnostics) :
    ∃ compiled ∈ rules, question.MatchingReport compiled diagnostic := by
  rcases List.mem_append.mp member with targeting | selection
  · obtain ⟨compiled, present, violation⟩ := List.mem_filterMap.mp targeting
    unfold Targeting.diagnostic? at violation
    split at violation
    · obtain ⟨fault, faulty, rfl⟩ := Option.map_eq_some_iff.mp violation
      exact ⟨compiled, present, .inconsistent fault faulty⟩
    · cases violation
  · obtain ⟨⟨compiled, verdict⟩, judged, about⟩ := List.mem_filterMap.mp selection
    obtain ⟨_, listed, same⟩ := List.mem_map.mp judged
    cases same
    refine ⟨compiled, List.mem_of_mem_filter listed, ?_⟩
    dsimp only at about
    unfold Selection.judge at about
    split at about
    · split at about
      · rename_i error condition
        cases about
        exact .malformed error condition
      · simp only [Selection.Verdict.diagnostic?] at about
        split at about
        · rename_i unknown
          cases about
          exact .indeterminate unknown
        · cases about
    · cases about

/-- What is combined from the effects of the matching rules, with the reports made on the way. -/
inductive Combined (question : Question) (source : RuleSource) (matched : List CompiledRule) :
    EffectOutcome → List Diagnostic → Prop
  | access (domain : question.domain = accessDomain) (outcome : AccessOutcome) :
      Combined question source matched (.access outcome) (matched.filterMap Access.diagnostic?)
  | pricing (domain : question.domain = pricingDomain) (catalog : EffectCatalog)
      (found : findEffects source matched = .ok catalog) (base : Money)
      (given : question.context.baseAmount = some base) (price : PriceAdjustment)
      (priced : (Pricing.resolve matched base catalog).result = .ok price) :
      Combined question source matched (.pricing price) (Pricing.resolve matched base catalog).notes
  | matchOnly (access : question.domain ≠ accessDomain) (pricing : question.domain ≠ pricingDomain) :
      Combined question source matched .matchOnly []

private theorem combined_of_combine {outcome : EffectOutcome}
    (ended : (question.combine source deadline? matched).result = .ok outcome) :
    question.Combined source matched outcome (question.combine source deadline? matched).notes := by
  unfold combine at ended ⊢
  split at ended
  · rename_i domain
    obtain ⟨decided, _, same, notes⟩ := Noted.eq_of_bind ended
    cases same
    rw [if_pos domain, notes]
    exact (List.append_nil _) ▸ .access domain decided
  · rename_i not_access
    rw [if_neg not_access]
    split at ended
    · rename_i domain
      rw [if_pos domain]
      obtain ⟨catalog, found, rest, first⟩ := Noted.eq_of_bind ended
      obtain ⟨_, _, rest, second⟩ := Noted.eq_of_bind rest
      rw [first, second]
      split at rest
      · rename_i base given
        obtain ⟨price, priced, same, third⟩ := Noted.eq_of_bind rest
        cases same
        have notes := third.trans (List.append_nil _)
        simp only [Noted.ofExcept, List.nil_append, notes]
        exact .pricing domain catalog found base given price priced
      · cases rest
    · rename_i not_pricing
      cases ended
      rw [if_neg not_pricing]
      exact .matchOnly not_access not_pricing

/-- An answer holds what is combined from the matching rules, and both kinds of reports. -/
theorem combined_of_answer (read : source.rules question.domain = .ok rules)
    (answered : question.answer source deadline? = .ok result) :
    ∃ notes, question.Combined source (question.matchRules rules).matched result.outcome notes ∧
      result.diagnostics = (question.matchRules rules).diagnostics ++ notes := by
  obtain ⟨combined, same⟩ := eq_of_answer read answered
  exact ⟨_, combined_of_combine combined, by rw [same]⟩

end Question

end RuleBook
