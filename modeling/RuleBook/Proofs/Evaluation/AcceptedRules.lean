import RuleBook.Proofs.Evaluation.PartialPrices
import RuleBook.Proofs.Store.Lifecycle

/-! # Reports about accepted rules

What is checked before a rule is accepted from an author covers what is reported when it is
evaluated: its condition was parsed, its target is consistent, and it has the configuration of its
domain. What can still be reported depends on the facts and on the effects that it links.
-/

namespace RuleBook

namespace Rule

variable {rule : Rule}

/-- A rule without a faulty configuration has the one that its domain needs. -/
theorem configured_of_configViolation? (consistent : rule.configViolation? = none) :
    (rule.domain = accessDomain → rule.accessConfig ≠ none) ∧
      (rule.domain = pricingDomain → rule.pricingConfig ≠ none) := by
  unfold configViolation? at consistent
  split at consistent
  · cases consistent
  · rename_i access
    split at consistent
    · cases consistent
    · rename_i pricing
      exact ⟨fun domain missing => access ⟨domain, missing⟩,
        fun domain missing => pricing ⟨domain, missing⟩⟩

end Rule

namespace Question

variable {question : Question} {source : RuleSource} {deadline? : Option Deadline}
  {rules : List CompiledRule} {result : EvaluationResult} {rule : Rule}

/-- A price is asked for, and among the effects that are found for it a rule links one with a fixed
amount in another currency. -/
structure ChargesForeign (question : Question) (source : RuleSource) (matched : List CompiledRule)
    (rule : Rule) : Prop where
  pricing : question.domain = pricingDomain
  linked : ∃ base catalog, question.context.baseAmount = some base ∧
    findEffects source matched = .ok catalog ∧ Pricing.HasForeign catalog base.currency rule

/-- What can be reported about an accepted rule: that its condition cannot be decided, that one of
its effects is not there, or that one is in another currency than the price. -/
inductive AcceptedReport (question : Question) (source : RuleSource) (matched : List CompiledRule)
    (rule : Rule) : DiagnosticKind → Prop
  | indeterminate : AcceptedReport question source matched rule .indeterminateCondition
  | dangling : AcceptedReport question source matched rule .danglingEffectReference
  | foreign (charges : question.ChargesForeign source matched rule) :
      AcceptedReport question source matched rule .dataIntegrityWarning

/-- A rule is the one that is listed under its id. -/
def ListsOnly (rules : List CompiledRule) (rule : Rule) : Prop :=
  ∀ listed ∈ rules, listed.id = rule.id → ∃ version, listed = rule.compile version

theorem MatchingReport.accepted {version : Nat} {matched : List CompiledRule}
    {diagnostic : Diagnostic} (acceptable : rule.IsAcceptable)
    (report : question.MatchingReport (rule.compile version) diagnostic) :
    question.AcceptedReport source matched rule diagnostic.kind := by
  obtain ⟨consistent, _⟩ := Rule.violations_of_validate acceptable.valid
  cases report with
  | inconsistent fault violation => cases consistent.symm.trans violation
  | malformed error condition =>
    obtain ⟨parsed, read, _⟩ := acceptable.parsed
    cases read.symm.trans condition
  | indeterminate unknown => exact .indeterminate

/-- What is reported about an accepted rule in combining the effects. -/
theorem Combined.accepted {matched : List CompiledRule} {outcome : EffectOutcome}
    {notes : List Diagnostic} (combined : question.Combined source matched outcome notes)
    (acceptable : rule.IsAcceptable) (only : ListsOnly matched rule)
    (inDomain : ∀ compiled ∈ matched, compiled.domain = question.domain)
    {diagnostic : Diagnostic} (member : diagnostic ∈ notes)
    (about : diagnostic.ruleId = some rule.id) :
    question.AcceptedReport source matched rule diagnostic.kind := by
  obtain ⟨_, configured⟩ := Rule.violations_of_validate acceptable.valid
  obtain ⟨access, pricing⟩ := Rule.configured_of_configViolation? configured
  cases combined with
  | matchOnly _ _ => cases member
  | access domain outcome =>
    obtain ⟨compiled, present, missing⟩ := List.mem_filterMap.mp member
    unfold Access.diagnostic? at missing
    split at missing <;> cases missing
    rename_i lacks
    obtain ⟨version, rfl⟩ := only compiled present (Option.some.inj about)
    exact absurd (Option.isNone_iff_eq_none.mp lacks) (access ((inDomain _ present).trans domain))
  | pricing domain catalog found base given price priced =>
    obtain ⟨reports, _, _⟩ := Pricing.reports_of_resolve priced
    rcases List.mem_append.mp (reports.mem_iff.mp member) with unconfigured | reported
    · obtain ⟨compiled, present, lacks, _, own⟩ := Pricing.exists_of_mem_unconfigured unconfigured
      obtain ⟨version, rfl⟩ := only compiled present (Option.some.inj (own.symm.trans about))
      exact absurd lacks (pricing ((inDomain _ present).trans domain))
    · obtain ⟨priced, configured, report⟩ := List.mem_filterMap.mp reported
      obtain ⟨present, _⟩ := Pricing.mem_configured_iff.mp configured
      cases Pricing.reported catalog base.currency priced.1 with
      | dangling _ message same =>
        cases same.symm.trans report
        exact .dangling
      | foreign _ linked message same =>
        cases same.symm.trans report
        obtain ⟨version, compiled⟩ := only priced.1 present (Option.some.inj about)
        rw [compiled] at linked
        exact .foreign ⟨domain, base, catalog, given, found, linked⟩
      | nothing _ _ same => cases same.symm.trans report

/-- What an answer reports about an accepted rule. -/
theorem acceptedReport_of_answer (acceptable : rule.IsAcceptable)
    (read : source.rules question.domain = .ok rules) (only : ListsOnly rules rule)
    (inDomain : ∀ compiled ∈ rules, compiled.domain = question.domain)
    (answered : question.answer source deadline? = .ok result) {diagnostic : Diagnostic}
    (member : diagnostic ∈ result.diagnostics) (about : diagnostic.ruleId = some rule.id) :
    question.AcceptedReport source (question.matchRules rules).matched rule diagnostic.kind := by
  obtain ⟨notes, combined, diagnostics⟩ := combined_of_answer read answered
  have listed {compiled : CompiledRule}
      (matched : compiled ∈ (question.matchRules rules).matched) : compiled ∈ rules :=
    (mem_matched_matchRules.mp matched).1
  rw [diagnostics] at member
  rcases List.mem_append.mp member with matching | combining
  · obtain ⟨compiled, present, report⟩ := exists_of_mem_diagnostics_matchRules matching
    have same : compiled.id = rule.id := by
      cases report <;> exact Option.some.inj about
    obtain ⟨version, rfl⟩ := only compiled present same
    exact report.accepted acceptable
  · exact combined.accepted acceptable (fun compiled matched => only compiled (listed matched))
      (fun compiled matched => inDomain compiled (listed matched)) combining about

end Question

namespace Store

variable {store : Store} {compiler : Compiler} {rule : Rule} {entry : Audited CompiledRule}

/-- A reachable store lists a rule that it has as it is compiled. -/
theorem Reachable.listsOnly (reachable : store.Reachable)
    (held : store.rules.find? rule.id = some entry) (same : entry.record.rule = rule)
    {domain : String} {rules : List CompiledRule} (perm : rules.Perm (store.activeRules domain)) :
    Question.ListsOnly rules rule := by
  intro listed member own
  obtain ⟨id, other, found, _, rfl, _⟩ := mem_activeRules.mp (perm.mem_iff.mp member)
  obtain rfl := reachable.keyed.rules id other found
  rw [own, held] at found
  cases found
  obtain ⟨compiled, version, made⟩ := reachable.isCompiled held
  rw [made] at same ⊢
  exact ⟨version, by rw [← same]; rfl⟩

/-- A rule that is accepted from an author has a condition without empty groups wherever a store has
it, and no evaluation reports its condition as malformed, or the rule as faulty for anything but an
amount in another currency than the price. -/
theorem Reachable.reports_of_accepted (reachable : store.Reachable)
    (accepted : (compiler.compileStrict rule).1.isOk = true)
    (held : store.rules.find? rule.id = some entry) (same : entry.record.rule = rule) :
    (∃ condition, entry.record.condition = .parsed condition ∧
      ∀ part : Condition, part.IsPartOf condition → ¬ part.IsEmptyGroup) ∧
    ∀ (question : Question) (source : RuleSource) (deadline? : Option Deadline)
      (rules : List CompiledRule) (result : EvaluationResult),
      source.rules question.domain = .ok rules →
      rules.Perm (store.activeRules question.domain) →
      question.answer source deadline? = .ok result →
      ∀ diagnostic ∈ result.diagnostics, diagnostic.ruleId = some rule.id →
        diagnostic.kind ≠ .conditionParseError ∧
        (diagnostic.kind = .dataIntegrityWarning →
          question.ChargesForeign source (question.matchRules rules).matched rule) := by
  have acceptable := Compiler.isOk_compileStrict_iff.mp accepted
  constructor
  · obtain ⟨compiled, version, made⟩ := reachable.isCompiled held
    rw [made] at same ⊢
    subst same
    exact acceptable.parsed
  · intro question source deadline? rules result read perm answered diagnostic member about
    have inDomain : ∀ compiled ∈ rules, compiled.domain = question.domain := by
      intro compiled listed
      obtain ⟨_, _, _, _, _, _, inDomain⟩ := mem_activeRules.mp (perm.mem_iff.mp listed)
      exact inDomain
    have report := Question.acceptedReport_of_answer acceptable read
      (reachable.listsOnly held same perm) inDomain answered member about
    generalize diagnostic.kind = kind at report
    cases report with
    | indeterminate => exact ⟨by decide, fun kind => by cases kind⟩
    | dangling => exact ⟨by decide, fun kind => by cases kind⟩
    | foreign charges => exact ⟨by decide, fun _ => charges⟩

/-- A rule with a duty in another currency than the prices that are asked for. -/
def dutyRule : Rule :=
  { Rule.ofCondition "duty" pricingDomain "duty" (.bool true) with
    pricingConfig := some ⟨.sequential, .postDiscount⟩
    effects := [⟨.fee, "duty", 0⟩] }

/-- The store that has it. -/
def dutyStore : Store :=
  (Store.empty.write (.upsertEffect (.fee ⟨"duty", "duty", .fixed ⟨700, .eur, 2⟩, true, false⟩)
    default)).write (.load (.create dutyRule default))

theorem reports_of_accepted_dutyRule : ∃ entry result,
    dutyStore.Reachable ∧ (Compiler.new.compileStrict dutyRule).1.isOk = true ∧
      dutyStore.rules.find? dutyRule.id = some entry ∧ entry.record.rule = dutyRule ∧
      priceQuestion.answer (.ofStore dutyStore) none = .ok result ∧
      result.diagnostics.map (fun diagnostic => (diagnostic.kind, diagnostic.ruleId)) =
        [(.dataIntegrityWarning, some "duty")] ∧
      priceQuestion.ChargesForeign (.ofStore dutyStore)
        (priceQuestion.matchRules (dutyStore.activeRules pricingDomain)).matched dutyRule := by
  have reachable : dutyStore.Reachable := .write (.write .empty _) _
  have accepted : (Compiler.new.compileStrict dutyRule).1.isOk = true := by decide +kernel
  have held : dutyStore.rules.find? dutyRule.id =
      some (compileEntry _ (.create dutyRule default)).1 :=
    (find?_load_rules _ _ _).trans (if_pos rfl)
  have succeeds : (priceQuestion.answer (.ofStore dutyStore) none).isOk = true := by decide +kernel
  have shown : (priceQuestion.answer (.ofStore dutyStore) none).map (fun result =>
      result.diagnostics.map fun diagnostic => (diagnostic.kind, diagnostic.ruleId)) =
        .ok [(.dataIntegrityWarning, some "duty")] := by decide +kernel
  obtain ⟨result, answered⟩ := Except.exists_of_isOk succeeds
  have reported : result.diagnostics.map (fun diagnostic => (diagnostic.kind, diagnostic.ruleId)) =
      [(.dataIntegrityWarning, some "duty")] := by
    simpa [answered, Except.map] using shown
  obtain ⟨diagnostic, member, same⟩ := List.mem_map.mp
    (reported ▸ List.mem_singleton_self (DiagnosticKind.dataIntegrityWarning, some "duty"))
  obtain ⟨kind, about⟩ := Prod.mk.inj same
  obtain ⟨_, sound⟩ := reachable.reports_of_accepted accepted held rfl
  exact ⟨_, result, reachable, accepted, held, rfl, answered, reported,
    (sound priceQuestion (.ofStore dutyStore) none _ result rfl (.refl _) answered diagnostic member
      about).2 kind⟩

end Store

end RuleBook
