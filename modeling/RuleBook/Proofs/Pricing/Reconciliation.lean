import RuleBook.Proofs.Pricing.Phase

/-! # Prices reconcile

A phase is accumulated in three places: the running amount of the compound rules, the sum of the
sequential ones, and the choice among the max rules, which is marked as applied only at the end.
`Balanced` ties the three to the contributions after every rule, so that the breakdown of every
price adds up exactly, amounts of all scales being read as the numbers they stand for.
-/

namespace RuleBook

/-- What the applied contributions of a phase add up to. -/
def appliedValue (contributions : List RuleContribution) : ℚ :=
  ((contributions.filter RuleContribution.applied).map fun contribution =>
    contribution.adjustment.value).sum

/-- A phase adds up: it ends at its starting amount with the applied adjustments and what was
restored at the floor, all in one currency. -/
structure PhaseBreakdown.Reconciles (breakdown : PhaseBreakdown) (currency : Currency) : Prop where
  starting : breakdown.startingAmount.currency = currency
  ending : breakdown.endingAmount.currency = currency
  adjustments : ∀ contribution ∈ breakdown.contributions,
    contribution.adjustment.currency = currency
  floor : ∀ restored ∈ breakdown.floorAdjustment, restored.currency = currency
  balance : breakdown.endingAmount.value = breakdown.startingAmount.value +
    appliedValue breakdown.contributions + (breakdown.floorAdjustment.map Money.value).getD 0

/-- A price adds up: its phases lead from the base amount to the final amount, each from where the
one before it ended, each adds up, and the total is the difference. -/
structure PriceAdjustment.Reconciles (price : PriceAdjustment) (base : Money) : Prop where
  baseAmount : price.baseAmount = base
  chain : price.phases.map PhaseBreakdown.startingAmount ++ [price.finalAmount] =
    base :: price.phases.map PhaseBreakdown.endingAmount
  phases : ∀ breakdown ∈ price.phases, breakdown.Reconciles base.currency
  total : price.totalAdjustment.value = price.finalAmount.value - base.value

@[simp] theorem appliedValue_nil : appliedValue [] = 0 := rfl

@[simp] theorem appliedValue_append (first second : List RuleContribution) :
    appliedValue (first ++ second) = appliedValue first + appliedValue second := by
  simp [appliedValue]

private theorem appliedValue_cons (contribution : RuleContribution) (rest : List RuleContribution) :
    appliedValue (contribution :: rest) =
      (if contribution.applied then contribution.adjustment.value else 0) + appliedValue rest := by
  cases applied : contribution.applied <;> simp [appliedValue, applied]

/-- Marking one contribution as applied adds its adjustment. -/
theorem appliedValue_modify {contributions : List RuleContribution} {index : Nat}
    {contribution : RuleContribution} (found : contributions[index]? = some contribution)
    (unapplied : contribution.applied = false) :
    appliedValue (contributions.modify index fun c => { c with applied := true }) =
      appliedValue contributions + contribution.adjustment.value := by
  induction contributions generalizing index with
  | nil => cases found
  | cons head rest ih =>
    cases index with
    | zero =>
      obtain rfl : head = contribution := by simpa using found
      simp only [List.modify_zero_cons, appliedValue_cons, unapplied, if_true]
      simp [add_comm]
    | succ index =>
      rw [List.modify_succ_cons, appliedValue_cons, appliedValue_cons, ih (by simpa using found),
        add_assoc]

namespace Pricing

variable {catalog : EffectCatalog} {start : Money}

@[simp] theorem value_zeroOf (amount : Money) : (zeroOf amount).value = 0 := by
  simp [zeroOf, Money.value]

/-- The adjustment of a rule is in the currency of the amount it is computed against. -/
theorem currency_of_ruleAdjustment {base adjustment : Money} {lines : List EffectLine} {rule : Rule}
    (computed : ruleAdjustment catalog base rule = .ok (.computed adjustment lines)) :
    adjustment.currency = base.currency :=
  (Money.units_foldlM_add (eq_of_ruleAdjustment computed).2).1

/-- The state of a phase adds up: the running amount and the sequential sum are the starting amount
with what is applied, and the choice is one of the contributions, not yet applied. -/
structure Balanced (start : Money) (state : PhaseState) : Prop where
  compound : state.compound.currency = start.currency
  sequentialSum : state.sequentialSum.currency = start.currency
  contributions : ∀ contribution ∈ state.contributions,
    contribution.adjustment.currency = start.currency
  balance : state.compound.value + state.sequentialSum.value =
    start.value + appliedValue state.contributions
  choice : ∀ index adjustment, state.choice = some (index, adjustment) →
    ∃ contribution, state.contributions[index]? = some contribution ∧
      contribution.applied = false ∧ contribution.adjustment = adjustment

namespace Balanced

theorem of_start (amount : Money) : Balanced amount (.start amount) where
  compound := rfl
  sequentialSum := rfl
  contributions := fun _ member => by cases member
  balance := by simp [PhaseState.start]
  choice := fun _ _ chosen => by cases chosen

variable {state next : PhaseState} {rule : PricedRule}

private theorem contributions_append (balanced : Balanced start state)
    {contribution : RuleContribution}
    (currency : contribution.adjustment.currency = start.currency) :
    ∀ c ∈ state.contributions ++ [contribution], c.adjustment.currency = start.currency := by
  intro c member
  rcases List.mem_append.mp member with member | member
  · exact balanced.contributions c member
  · rw [List.mem_singleton.mp member, currency]

/-- What was chosen stays where it was when a contribution comes after it. -/
theorem choice_append (balanced : Balanced start state) (contribution : RuleContribution)
    {index : Nat} {adjustment : Money} (chosen : state.choice = some (index, adjustment)) :
    ∃ c, (state.contributions ++ [contribution])[index]? = some c ∧ c.applied = false ∧
      c.adjustment = adjustment := by
  obtain ⟨c, found, unapplied, same⟩ := balanced.choice index adjustment chosen
  obtain ⟨inside, _⟩ := List.getElem?_eq_some_iff.mp found
  exact ⟨c, by rw [List.getElem?_append_left inside, found], unapplied, same⟩

/-- Every step keeps the state adding up. -/
theorem step (positive : 0 < start.currency.base.toNat) (step : Step catalog start rule state next)
    (balanced : Balanced start state) : Balanced start next := by
  cases step with
  | leftOut _ _ => exact balanced
  | @compound adjustment running lines stacking computed added =>
    have currency := (currency_of_ruleAdjustment computed).trans balanced.compound
    have value : running.value = state.compound.value + adjustment.value :=
      Money.value_add (balanced.compound ▸ positive) added
    refine ⟨(Money.eq_of_add added).2.1.trans balanced.compound, balanced.sequentialSum,
      balanced.contributions_append currency, ?_, fun _ _ => balanced.choice_append _⟩
    have balance := balanced.balance
    simp only [appliedValue_append, appliedValue_cons, appliedValue_nil, if_true]
    linarith
  | @sequential adjustment sum lines stacking computed added =>
    have currency := currency_of_ruleAdjustment computed
    have value : sum.value = state.sequentialSum.value + adjustment.value :=
      Money.value_add (balanced.sequentialSum ▸ positive) added
    refine ⟨balanced.compound, (Money.eq_of_add added).2.1.trans balanced.sequentialSum,
      balanced.contributions_append currency, ?_, fun _ _ => balanced.choice_append _⟩
    have balance := balanced.balance
    simp only [appliedValue_append, appliedValue_cons, appliedValue_nil, if_true]
    linarith
  | @max adjustment lines wins stacking computed compared =>
    have currency := currency_of_ruleAdjustment computed
    refine ⟨balanced.compound, balanced.sequentialSum, balanced.contributions_append currency,
      ?_, fun index chosenAdjustment chosen => ?_⟩
    · simp [balanced.balance, appliedValue_cons]
    · cases wins with
      | true =>
        cases chosen
        exact ⟨_, List.getElem?_concat_length, rfl, rfl⟩
      | false => exact balanced.choice_append _ chosen

/-- At the end of a phase the applied contributions are those of the three ways of stacking. -/
theorem appliedValue_finalContributions (balanced : Balanced start state) :
    state.compound.value + state.sequentialSum.value + (state.chosenAdjustment start).value =
      start.value + appliedValue state.finalContributions := by
  have balance := balanced.balance
  cases chosen : state.choice with
  | none => simp [PhaseState.chosenAdjustment, PhaseState.finalContributions, chosen, balance]
  | some choice =>
    obtain ⟨index, adjustment⟩ := choice
    obtain ⟨contribution, found, unapplied, rfl⟩ := balanced.choice index adjustment chosen
    simp only [PhaseState.chosenAdjustment, PhaseState.finalContributions, chosen,
      appliedValue_modify found unapplied]
    linarith

private theorem currency_of_mem_finalContributions (balanced : Balanced start state)
    {contribution : RuleContribution} (member : contribution ∈ state.finalContributions) :
    contribution.adjustment.currency = start.currency := by
  obtain ⟨before, held, same⟩ := mem_finalContributions member
  rw [same]
  exact balanced.contributions before held

/-- A phase that is closed in a state that adds up, adds up. -/
theorem finished {breakdown : PhaseBreakdown} (balanced : Balanced start state)
    (positive : 0 < start.currency.base.toNat) (finished : Finished start state breakdown) :
    breakdown.Reconciles start.currency := by
  obtain ⟨part, summed, first, second, clamped⟩ := finished.ending
  have part_currency := (Money.eq_of_add first).2.1.trans balanced.compound
  have summed_currency := (Money.eq_of_add second).2.1.trans part_currency
  have floor_currency := currency_floorOf start
  have summed_value : summed.value = start.value + appliedValue breakdown.contributions := by
    rw [Money.value_add (part_currency ▸ positive) second,
      Money.value_add (balanced.compound ▸ positive) first, finished.contributions,
      balanced.appliedValue_finalContributions]
  have adjustments : ∀ contribution ∈ breakdown.contributions,
      contribution.adjustment.currency = start.currency := by
    rw [finished.contributions]
    exact fun _ => balanced.currency_of_mem_finalContributions
  rcases eq_of_clamp clamped with ⟨ending, floor, _⟩ | ⟨ending, restored, floor, subtracted⟩
  · refine ⟨by rw [finished.starting], by rw [ending, summed_currency], adjustments, ?_, ?_⟩
    · simp [floor]
    · simp [ending, floor, finished.starting, summed_value]
  · have value : restored.value = (floorOf start).value - summed.value :=
      Money.value_subtract (floor_currency ▸ positive) subtracted
    obtain ⟨opposite, _, added⟩ := Money.eq_of_subtract subtracted
    refine ⟨by rw [finished.starting], by rw [ending, floor_currency], adjustments, ?_, ?_⟩
    · rintro _ member
      obtain rfl : restored = _ := by simpa [floor] using member
      rw [(Money.eq_of_add added).2.1, floor_currency]
    · simp only [ending, floor, finished.starting, Option.map_some, Option.getD_some]
      linarith

end Balanced

/-- The phases of a run lead from its first amount to its last, and each adds up. -/
theorem PhasesRun.reconciles {rules : List PricedRule} {phases : List CalculationPhase}
    {breakdowns : List PhaseBreakdown} (positive : 0 < start.currency.base.toNat)
    (run : PhasesRun catalog rules start phases breakdowns) :
    breakdowns.map PhaseBreakdown.startingAmount ++ [finalAmountOf start breakdowns] =
        start :: breakdowns.map PhaseBreakdown.endingAmount ∧
      ∀ breakdown ∈ breakdowns, breakdown.Reconciles start.currency := by
  induction run with
  | done _ => simp [finalAmountOf]
  | skip _ _ ih => exact ih positive
  | @next running rest breakdown others state rulesRun finished _ ih =>
    have balanced : Balanced running state :=
      rulesRun.preserves _ (fun step => Balanced.step positive step) (.of_start running)
    have reconciles := balanced.finished positive finished
    obtain ⟨chain, each⟩ := ih (reconciles.ending ▸ positive)
    have last : finalAmountOf running (breakdown :: others) =
        finalAmountOf breakdown.endingAmount others := by
      cases others <;> simp [finalAmountOf, List.getLast?_cons]
    refine ⟨?_, fun other member => ?_⟩
    · rw [last, List.map_cons, List.cons_append, chain, finished.starting, List.map_cons]
    · rcases List.mem_cons.mp member with rfl | member
      · exact reconciles
      · exact reconciles.ending ▸ each other member

/-- Every price adds up exactly, for all ways in which its rules are stacked. -/
theorem reconciles_of_resolve {matched : List CompiledRule} {base : Money}
    {price : PriceAdjustment} (positive : 1 ≤ base.currency.base)
    (priced : (resolve matched base catalog).result = .ok price) : price.Reconciles base := by
  have base_positive : 0 < base.currency.base.toNat := UInt32.le_iff_toNat_le.mp positive
  obtain ⟨run, same, final, subtracted⟩ := eq_of_resolve priced
  obtain ⟨chain, each⟩ := run.reconciles base_positive
  have final_currency : price.finalAmount.currency = base.currency := by
    obtain ⟨opposite, negated, added⟩ := Money.eq_of_subtract subtracted
    rw [← (Money.eq_of_add added).1, (Money.eq_of_negate negated).2.1]
  refine ⟨same, final ▸ chain, each, ?_⟩
  exact Money.value_subtract (final_currency ▸ base_positive) subtracted

/-- All three ways of stacking in two phases: the promotions of the first are cut off at its floor,
and the second adds amounts of another scale. -/
def stackedRules : List CompiledRule :=
  [sampleRule "spring" .sequential .preDiscount [⟨.promotion, "spring", 0⟩],
    sampleRule "summer" .sequential .preDiscount [⟨.promotion, "summer", 0⟩],
    sampleRule "carriage" .max .postDiscount [⟨.fee, "carriage", 0⟩],
    sampleRule "handling" .compound .postDiscount [⟨.fee, "handling", 0⟩],
    sampleRule "tax" .compound .postDiscount [⟨.taxRate, "tax", 0⟩],
    sampleRule "levy" .max .postDiscount [⟨.taxRate, "levy", 0⟩]]

theorem reconciles_of_resolve_stackedRules : ∃ price,
    1 ≤ (Money.ofAmount 1000 .usd).currency.base ∧
      (resolve stackedRules (.ofAmount 1000 .usd) sampleCatalog).result = .ok price ∧
      price.Reconciles (.ofAmount 1000 .usd) := by
  have positive : 1 ≤ (Money.ofAmount 1000 .usd).currency.base := by decide
  have succeeds : (resolve stackedRules (.ofAmount 1000 .usd) sampleCatalog).result.isOk = true := by
    decide +kernel
  obtain ⟨price, priced⟩ := Except.exists_of_isOk succeeds
  exact ⟨price, positive, priced, reconciles_of_resolve positive priced⟩

end Pricing

end RuleBook
