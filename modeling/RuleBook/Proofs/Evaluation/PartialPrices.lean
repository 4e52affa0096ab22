import RuleBook.Proofs.Evaluation.Diagnostics

/-! # Partial prices

A price is partial when it leaves out a matching rule for an effect that is not there: the store
never had it, it is deleted, or it is a fee that is not active. Each such rule is reported once and
contributes nothing; every other rule whose fixed amounts are in the currency of the price
contributes once, in its own phase.
-/

namespace RuleBook

namespace Store

variable {store : Store} {key : EffectRef} {rule : Rule}

/-- The effect under a key takes no part in prices: the store has none, it is deleted, or it is a
fee that is not active. -/
inductive Lacks (store : Store) (key : EffectRef) : Prop
  | absent (missing : store.effects.find? key = none)
  | deleted (entry : Audited LinkedEffect) (held : store.effects.find? key = some entry)
      (gone : entry.isDeleted = true)
  | inactive (entry : Audited LinkedEffect) (held : store.effects.find? key = some entry)
      (fee : Fee) (charged : entry.record = .fee fee) (off : fee.isActive = false)

/-- A rule links an effect that takes no part in prices. -/
def LinksLacking (store : Store) (rule : Rule) : Prop := ∃ link ∈ rule.effects, store.Lacks link.key

/-- The fixed amounts of the effects that a rule links are in a currency. -/
def ChargesIn (store : Store) (currency : Currency) (rule : Rule) : Prop :=
  ∀ link ∈ rule.effects, ∀ effect, store.effect? link.key = some effect →
    ∀ amount, effect.fixedAmount? = some amount → amount.currency = currency

private theorem isUsableIn_eq_false_iff {link : EffectLink} :
    Pricing.isUsableIn store.effect? link = false ↔ store.Lacks link.key := by
  unfold Pricing.isUsableIn
  constructor
  · intro unusable
    cases held : store.effects.find? link.key with
    | none => exact .absent held
    | some entry =>
      cases gone : entry.isDeleted with
      | true => exact .deleted entry held gone
      | false =>
        have found : store.effect? link.key = some entry.record := by
          simp [effect?, held, Option.filter, gone]
        simp only [found] at unusable
        cases record : entry.record with
        | fee fee =>
          rw [record] at unusable
          exact .inactive entry held fee record unusable
        | promotion promotion =>
          rw [record] at unusable
          cases unusable
        | taxRate tax =>
          rw [record] at unusable
          cases unusable
  · intro lacks
    split
    · rename_i effect found
      obtain ⟨entry, kept, rfl⟩ := Option.map_eq_some_iff.mp found
      obtain ⟨held, live⟩ := Option.filter_eq_some_iff.mp kept
      cases lacks with
      | absent missing =>
        cases missing.symm.trans held
      | deleted other held' gone =>
        cases held'.symm.trans held
        simp [gone] at live
      | inactive other held' fee charged off =>
        cases held'.symm.trans held
        rw [charged]
        exact off
    · rfl

theorem hasDangling_iff : Pricing.HasDangling store.effect? rule ↔ store.LinksLacking rule := by
  simp only [Pricing.HasDangling, LinksLacking, isUsableIn_eq_false_iff]

private theorem not_hasForeign_iff {currency : Currency} :
    ¬ Pricing.HasForeign store.effect? currency rule ↔ store.ChargesIn currency rule := by
  simp only [Pricing.HasForeign, ChargesIn, not_exists, not_and, not_not]

/-- How an answer treats the rules that match: the price is partial exactly for the configured rules
that link a lacking effect, each of these is reported once and contributes nothing, and each of the
others whose fixed amounts are in the currency of the price contributes once, in its own phase. -/
structure Accounts (store : Store) (result : EvaluationResult) (price : PriceAdjustment) : Prop where
  held : ∀ id ∈ result.matchedRuleIds, ∃ entry, store.rules.find? id = some entry
  isPartial_iff : price.isPartial = true ↔ ∃ id ∈ result.matchedRuleIds,
    ∃ entry, store.rules.find? id = some entry ∧
      entry.record.rule.pricingConfig.isSome = true ∧ store.LinksLacking entry.record.rule
  lacking : ∀ id ∈ result.matchedRuleIds, ∀ entry, store.rules.find? id = some entry →
    entry.record.rule.pricingConfig.isSome = true → store.LinksLacking entry.record.rule →
      result.diagnostics.countP (fun diagnostic =>
        diagnostic.kind == .danglingEffectReference && diagnostic.ruleId == some id) = 1 ∧
      price.placesOf id = []
  contributing : ∀ id ∈ result.matchedRuleIds, ∀ entry, store.rules.find? id = some entry →
    ∀ config, entry.record.rule.pricingConfig = some config →
      ¬ store.LinksLacking entry.record.rule →
      store.ChargesIn price.baseAmount.currency entry.record.rule →
        price.placesOf id = [config.calculationPhase]

end Store

namespace Question

variable {question : Question} {source : RuleSource} {store : Store} {deadline? : Option Deadline}
  {rules : List CompiledRule} {result : EvaluationResult}

/-- A price that is answered from a store is formed with the effects that the store has. -/
theorem priced_of_answer (reads : source.Reads store) (pricing : question.domain = pricingDomain)
    (read : source.rules question.domain = .ok rules)
    (answered : question.answer source deadline? = .ok result) :
    ∃ base price, question.context.baseAmount = some base ∧ result.outcome = .pricing price ∧
      (Pricing.resolve (question.matchRules rules).matched base store.effect?).result = .ok price ∧
      result.diagnostics = (question.matchRules rules).diagnostics ++
        (Pricing.resolve (question.matchRules rules).matched base store.effect?).notes := by
  obtain ⟨notes, combined, diagnostics⟩ := combined_of_answer read answered
  generalize outcome : result.outcome = combinedOutcome at combined
  cases combined with
  | access domain _ => exact absurd (domain.symm.trans pricing) (by decide)
  | matchOnly _ other => exact absurd pricing other
  | pricing _ catalog found base given price priced =>
    rw [findEffects_eq reads, Except.ok.injEq] at found
    subst found
    -- the catalog was read for the links of these rules, so on them it is that of the store
    rw [Pricing.resolve_congr (agreeOnLinks_lookupEffects store _)] at priced diagnostics
    exact ⟨base, price, given, rfl, priced, diagnostics⟩

/-- Without a deadline a price that can be formed is answered. -/
theorem exists_answer_of_priced (reads : source.Reads store)
    (pricing : question.domain = pricingDomain)
    (read : source.rules question.domain = .ok rules) {base : Money}
    (given : question.context.baseAmount = some base) {price : PriceAdjustment}
    (priced : (Pricing.resolve (question.matchRules rules).matched base store.effect?).result =
      .ok price) :
    ∃ result, question.answer source none = .ok result ∧ result.outcome = .pricing price := by
  have apart : question.domain ≠ accessDomain := by
    rw [pricing]
    decide
  have cleared : question.preflight none = .ok () := by
    simp [preflight, validate, given, Deadline.check, bind, Except.bind]
  have combined : (question.combine source none (question.matchRules rules).matched).result =
      .ok (.pricing price) := by
    rw [← Pricing.resolve_congr (agreeOnLinks_lookupEffects store _)] at priced
    simp only [combine, if_neg apart, if_pos pricing, findEffects_eq reads, Noted.ofExcept,
      Deadline.check, Noted.bind_ok, given, Noted.bind_eq_ok_iff]
    exact ⟨price, priced, rfl⟩
  rw [answer_of_rules read, cleared]
  simp only [Except.bind, conclude, combined, Deadline.check, Except.map]
  exact ⟨_, rfl, rfl⟩

/-- No report made in finding the matching rules is about a dangling link. -/
theorem countP_dangling_matchRules (question : Question) (rules : List CompiledRule) (id : String) :
    (question.matchRules rules).diagnostics.countP (fun diagnostic =>
      diagnostic.kind == .danglingEffectReference && diagnostic.ruleId == some id) = 0 := by
  refine List.countP_eq_zero.mpr fun diagnostic member => ?_
  obtain ⟨compiled, _, about⟩ := exists_of_mem_diagnostics_matchRules member
  cases about <;> simp [Diagnostic.ofRule]

end Question

namespace Store

variable {store : Store} {question : Question} {source : RuleSource} {deadline? : Option Deadline}
  {result : EvaluationResult}

/-- A rule that matches is the record of the entry under its id. -/
theorem Keyed.exists_entry_of_matched (keyed : store.Keyed) {rules : List CompiledRule}
    (perm : rules.Perm (store.activeRules question.domain)) {compiled : CompiledRule}
    (matched : compiled ∈ (question.matchRules rules).matched) :
    ∃ entry, store.rules.find? compiled.id = some entry ∧ entry.record = compiled := by
  obtain ⟨entry, found, _, same, _⟩ := (keyed.mem_matched_iff perm).mp matched
  exact ⟨entry, found, same⟩

/-- The record of the entry under an id that an answer names matches. -/
theorem Keyed.matched_of_named (keyed : store.Keyed) {rules : List CompiledRule}
    (perm : rules.Perm (store.activeRules question.domain)) {id : String}
    (named : id ∈ (question.matchRules rules).matched.map CompiledRule.id)
    {entry : Audited CompiledRule} (found : store.rules.find? id = some entry) :
    entry.record ∈ (question.matchRules rules).matched ∧ entry.record.id = id := by
  obtain ⟨compiled, matched, rfl⟩ := List.mem_map.mp named
  obtain ⟨held, foundHeld, rfl⟩ := keyed.exists_entry_of_matched perm matched
  obtain rfl : held = entry := Option.some.inj (foundHeld.symm.trans found)
  exact ⟨matched, rfl⟩

/-- Every price that is answered from a reachable store accounts for the rules that match. -/
theorem Reachable.accounts_of_answer (reachable : store.Reachable) (reads : source.Reads store)
    (pricing : question.domain = pricingDomain)
    (answered : question.answer source deadline? = .ok result) :
    ∃ price, result.outcome = .pricing price ∧
      question.context.baseAmount = some price.baseAmount ∧ store.Accounts result price := by
  have keyed := reachable.keyed
  obtain ⟨rules, read, perm⟩ := reads.rules question.domain
  have ids := Question.matchedRuleIds_of_answer read answered
  obtain ⟨distinct, _⟩ := keyed.ranked_matched perm
  obtain ⟨base, price, given, outcome, priced, diagnostics⟩ :=
    Question.priced_of_answer reads pricing read answered
  obtain ⟨_, rfl, _⟩ := Pricing.eq_of_resolve priced
  refine ⟨price, outcome, given, ?_, ?_, ?_, ?_⟩
  · intro id named
    obtain ⟨compiled, matched, rfl⟩ := List.mem_map.mp (ids ▸ named)
    obtain ⟨entry, found, _⟩ := keyed.exists_entry_of_matched perm matched
    exact ⟨entry, found⟩
  · rw [Pricing.isPartial_iff priced, ids]
    simp only [hasDangling_iff]
    constructor
    · rintro ⟨compiled, matched, configured, lacking⟩
      obtain ⟨entry, found, rfl⟩ := keyed.exists_entry_of_matched perm matched
      exact ⟨entry.record.id, List.mem_map_of_mem matched, entry, found, configured, lacking⟩
    · rintro ⟨id, named, entry, found, configured, lacking⟩
      exact ⟨entry.record, (keyed.matched_of_named perm named found).1, configured, lacking⟩
  · intro id named entry found configured lacking
    obtain ⟨matched, rfl⟩ := keyed.matched_of_named perm (ids ▸ named) found
    obtain ⟨config, has⟩ := Option.isSome_iff_exists.mp configured
    rw [diagnostics, List.countP_append, Question.countP_dangling_matchRules, Nat.zero_add]
    exact Pricing.accounts_of_dangling priced distinct matched has (hasDangling_iff.mpr lacking)
  · intro id named entry found config has whole charges
    obtain ⟨matched, rfl⟩ := keyed.matched_of_named perm (ids ▸ named) found
    exact Pricing.placesOf_of_whole priced distinct matched has
      (fun linked => whole (hasDangling_iff.mp linked)) (not_hasForeign_iff.mpr charges)

/-- The rules of a store with a broken rule that match, in rank order. -/
theorem matched_brokenStore :
    (priceQuestion.matchRules (brokenStore.activeRules priceQuestion.domain)).matched =
      (brokenStore.activeRules priceQuestion.domain).filter priceQuestion.isMatchedBy := by
  have ranked : ((brokenStore.activeRules priceQuestion.domain).filter
      priceQuestion.isMatchedBy).Pairwise fun a b => Selection.ranksBefore a b := by decide +kernel
  rw [Question.matched_matchRules, List.mergeSort_of_pairwise ranked]

private theorem priced_brokenStore : ∃ price, (Pricing.resolve
      (priceQuestion.matchRules (brokenStore.activeRules priceQuestion.domain)).matched
      (.ofAmount 1000 .usd) brokenStore.effect?).result = .ok price ∧
    price.isPartial = true ∧ price.placesOf "delivery" = [.postDiscount] ∧
    price.placesOf "gift" = [] := by
  rw [matched_brokenStore]
  have succeeds : (Pricing.resolve ((brokenStore.activeRules priceQuestion.domain).filter
      priceQuestion.isMatchedBy) (.ofAmount 1000 .usd) brokenStore.effect?).result.isOk = true := by
    decide +kernel
  have shown : (Pricing.resolve ((brokenStore.activeRules priceQuestion.domain).filter
      priceQuestion.isMatchedBy) (.ofAmount 1000 .usd) brokenStore.effect?).result.map (fun price =>
        (price.isPartial, price.placesOf "delivery", price.placesOf "gift")) =
      .ok (true, [.postDiscount], []) := by
    decide +kernel
  obtain ⟨price, priced⟩ := Except.exists_of_isOk succeeds
  exact ⟨price, priced, by simpa [priced, Except.map] using shown⟩

theorem accounts_of_answer_brokenStore : ∃ result price,
    brokenStore.Reachable ∧ (RuleSource.ofStore brokenStore).Reads brokenStore ∧
      priceQuestion.answer (.ofStore brokenStore) none = .ok result ∧
      result.matchedRuleIds = ["delivery", "gift"] ∧ result.outcome = .pricing price ∧
      brokenStore.Accounts result price ∧ price.isPartial = true ∧
      price.placesOf "delivery" = [.postDiscount] ∧ price.placesOf "gift" = [] := by
  have reachable : brokenStore.Reachable := .write reachable_chargingStore (.load giftEntry)
  have reads := RuleSource.reads_ofStore brokenStore
  obtain ⟨price, priced, marked, delivery, gift⟩ := priced_brokenStore
  obtain ⟨result, answered, outcome⟩ := Question.exists_answer_of_priced reads rfl rfl rfl priced
  obtain ⟨again, same, _, accounts⟩ := reachable.accounts_of_answer reads rfl answered
  cases outcome.symm.trans same
  have named : result.matchedRuleIds = ["delivery", "gift"] := by
    rw [Question.matchedRuleIds_of_answer rfl answered, matched_brokenStore]
    decide +kernel
  exact ⟨result, price, reachable, reads, answered, named, outcome, accounts, marked, delivery, gift⟩

end Store

end RuleBook
