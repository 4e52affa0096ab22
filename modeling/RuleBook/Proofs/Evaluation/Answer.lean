import RuleBook.Proofs.Evaluation.Ranking
import RuleBook.Proofs.Pricing.Overflow
import RuleBook.Proofs.Store.Revision

/-! # Answers from a store

A source reads a store when it lists the active rules in some order and fails in nothing else.
Answers from stores that agree on the domain of a question are the same up to the order of the
reports, and no failure among them is one of the store or of the clock.
-/

namespace RuleBook

/-- A source reads a store: it lists the active rules of a domain in some order, and looks up
effects and revisions as they are. -/
structure RuleSource.Reads (source : RuleSource) (store : Store) : Prop where
  rules : ∀ domain, ∃ rules, source.rules domain = .ok rules ∧ rules.Perm (store.activeRules domain)
  effects : ∀ keys, source.effects keys = .ok (store.lookupEffects keys)
  revision : ∀ domain, source.revision domain = store.revision domain

theorem RuleSource.reads_ofStore (store : Store) : (RuleSource.ofStore store).Reads store :=
  ⟨fun _ => ⟨_, rfl, .refl _⟩, fun _ => rfl, fun _ => rfl⟩

/-- Two results differ at most in the order of their reports. -/
structure EvaluationResult.SameUpToOrder (a b : EvaluationResult) : Prop where
  domain : a.domain = b.domain
  matchedRuleIds : a.matchedRuleIds = b.matchedRuleIds
  outcome : a.outcome = b.outcome
  diagnostics : a.diagnostics.Perm b.diagnostics
  stale : a.stale = b.stale

/-- Two answers are the same: equal errors, or results that differ at most in the order of their
reports. -/
inductive SameAnswer :
    Except RuleError EvaluationResult → Except RuleError EvaluationResult → Prop
  | result {a b : EvaluationResult} (same : a.SameUpToOrder b) : SameAnswer (.ok a) (.ok b)
  | failure (e : RuleError) : SameAnswer (.error e) (.error e)

namespace SameAnswer

variable {a b c : Except RuleError EvaluationResult}

theorem refl (a : Except RuleError EvaluationResult) : SameAnswer a a := by
  cases a with
  | error e => exact .failure e
  | ok result => exact .result ⟨rfl, rfl, rfl, .refl _, rfl⟩

theorem symm (same : SameAnswer a b) : SameAnswer b a := by
  cases same with
  | failure e => exact .failure e
  | result same =>
    exact .result ⟨same.domain.symm, same.matchedRuleIds.symm, same.outcome.symm,
      same.diagnostics.symm, same.stale.symm⟩

theorem trans (first : SameAnswer a b) (second : SameAnswer b c) : SameAnswer a c := by
  cases first with
  | failure e => exact second
  | result first =>
    cases second with
    | result second =>
      exact .result ⟨first.domain.trans second.domain,
        first.matchedRuleIds.trans second.matchedRuleIds, first.outcome.trans second.outcome,
        first.diagnostics.trans second.diagnostics, first.stale.trans second.stale⟩

end SameAnswer

namespace Question

variable {question : Question} {source : RuleSource} {deadline? : Option Deadline}

/-- What can end an evaluation before the effects are combined, when the rules can be read. -/
def preflight (question : Question) (deadline? : Option Deadline) : Except RuleError Unit := do
  question.validate
  Deadline.check deadline? .rulesRead
  Deadline.check deadline? .targeted
  Deadline.check deadline? .selected

/-- The end of an evaluation, once the matching rules are known. -/
def conclude (question : Question) (source : RuleSource) (deadline? : Option Deadline)
    (matching : Matching) : Except RuleError EvaluationResult :=
  match (question.combine source deadline? matching.matched).result with
  | .error e => .error e
  | .ok outcome =>
    (Deadline.check deadline? .combined).map fun () =>
      ⟨question.domain, matching.matched.map CompiledRule.id, outcome,
        matching.diagnostics ++ (question.combine source deadline? matching.matched).notes, false⟩

/-- An evaluation whose rules can be read is cleared and then concluded. -/
theorem answer_of_rules {rules : List CompiledRule} (read : source.rules question.domain = .ok rules) :
    question.answer source deadline? = (question.preflight deadline?).bind fun () =>
      question.conclude source deadline? (question.matchRules rules) := by
  simp only [answer, findMatching, preflight, conclude, read, bind, Except.bind, pure, Except.pure]
  cases question.validate with
  | error e => rfl
  | ok _ =>
    cases Deadline.check deadline? .rulesRead with
    | error e => rfl
    | ok _ =>
      cases Deadline.check deadline? .targeted with
      | error e => rfl
      | ok _ =>
        cases Deadline.check deadline? .selected with
        | error e => rfl
        | ok _ =>
          dsimp only
          cases (question.combine source deadline? (question.matchRules rules).matched).result with
          | error e => rfl
          | ok outcome => cases Deadline.check deadline? .combined <;> rfl

/-- An answer is what is combined from the effects of the matching rules, with the reports of both
parts. -/
theorem eq_of_answer {rules : List CompiledRule} {result : EvaluationResult}
    (read : source.rules question.domain = .ok rules)
    (answered : question.answer source deadline? = .ok result) :
    (question.combine source deadline? (question.matchRules rules).matched).result =
        .ok result.outcome ∧
      result = ⟨question.domain, (question.matchRules rules).matched.map CompiledRule.id,
        result.outcome, (question.matchRules rules).diagnostics ++
          (question.combine source deadline? (question.matchRules rules).matched).notes, false⟩ := by
  rw [answer_of_rules read] at answered
  obtain ⟨_, _, concluded⟩ := Except.bind_eq_ok_iff.mp answered
  simp only [conclude] at concluded
  split at concluded
  · cases concluded
  · rename_i outcome combined
    cases checked : Deadline.check deadline? .combined with
    | error e => simp [checked, Except.map] at concluded
    | ok _ =>
      simp only [checked, Except.map, Except.ok.injEq] at concluded
      subst concluded
      exact ⟨combined, rfl⟩

end Question

namespace Pricing

theorem mem_effectRefs {matched : List CompiledRule} {key : EffectRef} :
    key ∈ effectRefs matched ↔ ∃ compiled ∈ matched, ∃ link ∈ compiled.rule.effects,
      link.key = key := by
  simp [effectRefs, EffectRef.sortUnique, List.mem_eraseDups]

end Pricing

namespace Store

theorem mem_activeRules {store : Store} {domain : String} {compiled : CompiledRule} :
    compiled ∈ store.activeRules domain ↔ ∃ id entry, store.rules.find? id = some entry ∧
      entry.isDeleted = false ∧ entry.record = compiled ∧ compiled.rule.isActive = true ∧
        compiled.domain = domain := by
  simp only [activeRules, List.mem_map, List.mem_filter, Dictionary.mem_values, Bool.and_eq_true,
    Bool.not_eq_true', beq_iff_eq]
  constructor
  · rintro ⟨entry, ⟨⟨id, found⟩, ⟨live, active⟩, inDomain⟩, rfl⟩
    exact ⟨id, entry, found, live, rfl, active, inDomain⟩
  · rintro ⟨id, entry, found, live, rfl, active, inDomain⟩
    exact ⟨entry, ⟨⟨id, found⟩, ⟨live, active⟩, inDomain⟩, rfl⟩

/-- Stores that agree on a domain find the same effects for its active rules. -/
theorem AgreeOn.lookupEffects_eq {domain : String} {a b : Store} (agree : AgreeOn domain a b)
    {matched : List CompiledRule} (active : ∀ compiled ∈ matched, compiled ∈ a.activeRules domain) :
    a.lookupEffects (Pricing.effectRefs matched) = b.lookupEffects (Pricing.effectRefs matched) := by
  funext key
  simp only [lookupEffects, List.contains_iff_mem]
  split
  · rename_i member
    obtain ⟨compiled, compiled_mem, link, link_mem, rfl⟩ := Pricing.mem_effectRefs.mp member
    obtain ⟨id, entry, found, _, rfl, _, inDomain⟩ := mem_activeRules.mp (active compiled compiled_mem)
    exact agree.effects id entry (ruleIn?_eq_some_iff.mpr ⟨found, inDomain⟩) link link_mem
  · rfl

end Store

namespace Question

variable {question : Question} {source source' : RuleSource} {store store' : Store}
  {deadline? : Option Deadline}

theorem findEffects_eq (reads : source.Reads store) (matched : List CompiledRule) :
    findEffects source matched = .ok (store.lookupEffects (Pricing.effectRefs matched)) := by
  unfold findEffects
  split
  · rename_i none_linked
    rw [none_linked]
    rfl
  · exact reads.effects _

theorem combine_eq (matched : List CompiledRule)
    (same : findEffects source matched = findEffects source' matched) :
    question.combine source deadline? matched = question.combine source' deadline? matched := by
  simp only [combine, same]

/-- From the same matching rules the same is concluded, but for the order of the reports. -/
theorem sameAnswer_conclude {a b : Matching} (matched : a.matched = b.matched)
    (diagnostics : a.diagnostics.Perm b.diagnostics)
    (same : findEffects source a.matched = findEffects source' a.matched) :
    SameAnswer (question.conclude source deadline? a) (question.conclude source' deadline? b) := by
  simp only [conclude, ← matched, combine_eq a.matched same]
  cases (question.combine source' deadline? a.matched).result with
  | error e => exact .failure e
  | ok outcome =>
    cases Deadline.check deadline? .combined with
    | error e => exact .failure e
    | ok _ => exact .result ⟨rfl, rfl, rfl, diagnostics.append_right _, rfl⟩

/-- Stores that agree on the domain of a question answer it in the same way, in whatever order
their active rules are listed. -/
theorem sameAnswer_of_agreeOn (keyed : store.Keyed)
    (agree : store.AgreeOn question.domain store') (reads : source.Reads store)
    (reads' : source'.Reads store') :
    SameAnswer (question.answer source deadline?) (question.answer source' deadline?) := by
  obtain ⟨rules, read, perm⟩ := reads.rules question.domain
  obtain ⟨rules', read', perm'⟩ := reads'.rules question.domain
  have listed : rules.Perm rules' := (perm.trans agree.perm_activeRules).trans perm'.symm
  have distinct : (rules.map CompiledRule.id).Nodup :=
    (perm.map _).nodup_iff.mpr (keyed.nodup_activeRules question.domain)
  have active : ∀ compiled ∈ (question.matchRules rules).matched,
      compiled ∈ store.activeRules question.domain := fun compiled member =>
    perm.mem_iff.mp (mem_matched_matchRules.mp member).1
  rw [answer_of_rules read, answer_of_rules read']
  cases question.preflight deadline? with
  | error e => exact .failure e
  | ok _ =>
    refine sameAnswer_conclude (matched_eq_of_perm listed distinct)
      (diagnostics_perm question listed) ?_
    rw [findEffects_eq reads, findEffects_eq reads', agree.lookupEffects_eq active]

end Question

namespace Question

variable {question : Question} {source : RuleSource} {store : Store}

/-- Combining the effects of rules of a store fails on the request or on amounts of money. -/
theorem isFailClosed_of_combine (reads : source.Reads store) {matched : List CompiledRule}
    {e : RuleError} (failed : (question.combine source none matched).result = .error e) :
    e.isFailClosed = false := by
  simp only [combine] at failed
  split at failed
  · simp only [Access.resolve] at failed
    cases decided : Access.decide matched question.context.defaultDecision with
    | ok outcome => simp [decided] at failed
    | error cause =>
      simp only [decided, Noted.bind_error, Except.error.injEq] at failed
      subst failed
      unfold Access.decide at decided
      split at decided <;> [cases decided; skip]
      split at decided <;> [cases decided; skip]
      split at decided <;> [cases decided; skip]
      split at decided <;> cases decided
      rfl
  · split at failed
    · rw [findEffects_eq reads] at failed
      simp only [Noted.ofExcept, Deadline.check, Noted.bind_ok] at failed
      split at failed
      · rename_i baseAmount _
        obtain rfl := Noted.OnlyOverflows.bind
          (Pricing.resolve_onlyOverflows matched baseAmount _) (fun _ _ => .ok _ _) e failed
        rfl
      · cases failed
        rfl
    · cases failed

/-- An answer from a store without a deadline fails, if it fails, on the request or on amounts of
money. -/
theorem isFailClosed_of_answer (reads : source.Reads store) {e : RuleError}
    (failed : question.answer source none = .error e) : e.isFailClosed = false := by
  obtain ⟨rules, read, _⟩ := reads.rules question.domain
  rw [answer_of_rules read] at failed
  cases cleared : question.preflight none with
  | error cause =>
    simp only [cleared, Except.bind, Except.error.injEq] at failed
    subst failed
    simp only [preflight, validate, Deadline.check] at cleared
    split at cleared <;> cases cleared
    rfl
  | ok _ =>
    simp only [cleared, Except.bind, conclude, Deadline.check] at failed
    split at failed
    · rename_i cause combined
      cases failed
      exact isFailClosed_of_combine reads combined
    · cases failed

end Question

section Samples

/-- An access rule for everything that grants before all others. -/
def grantingRule (id domain : String) (priority : Int32) : Rule :=
  { Rule.ofCondition id domain id (.bool true) with
    accessConfig := some ⟨.override⟩
    priority := priority }

/-- The question whether access is granted, where nothing is known and no rule decides. -/
def accessQuestion : Question := .ofAccess .empty [] .denied

/-- A store with one rule, which adds a fee to every price. -/
def chargingStore : Store :=
  (Store.empty.write (.upsertEffect (.fee ⟨"delivery", "delivery", .fixed ⟨150, .usd, 2⟩, true, false⟩)
    default)).write (.create { Rule.ofCondition "delivery" pricingDomain "delivery" (.bool true) with
      pricingConfig := some ⟨.compound, .postDiscount⟩
      effects := [⟨.fee, "delivery", 0⟩] } default)

theorem reachable_chargingStore : chargingStore.Reachable := .write (.write .empty _) _

/-- The question what ten dollars come to. -/
def priceQuestion : Question :=
  ⟨pricingDomain, { EvaluationContext.empty with baseAmount := some (.ofAmount 1000 .usd) }, []⟩

end Samples

end RuleBook
