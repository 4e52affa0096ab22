import Mathlib.Algebra.Order.BigOperators.Group.List
import RuleBook.Proofs.Pricing.Adjustment
import RuleBook.Proofs.Pricing.Floor

/-! # Charges and the floor

A phase whose rules link no promotion only charges. From an amount that is not negative its charges
are not negative either, and the floor has nothing to restore. But a share of a negative amount is
negative: from such an amount the shares can outweigh the fixed fees, and then the floor, which is
the starting amount, takes back all that the phase charges.
-/

namespace RuleBook

/-- What the applied contributions of a phase come to, in units at a scale. -/
def appliedUnits (contributions : List RuleContribution) (scale : Nat) : Int :=
  ((contributions.filter RuleContribution.applied).map fun contribution =>
    contribution.adjustment.units scale).sum

/-- No line shows a promotion. -/
def RuleContribution.IsCharge (contribution : RuleContribution) (catalog : EffectCatalog) : Prop :=
  ∀ line ∈ contribution.lines, ∀ effect, catalog ⟨line.kind, line.effectId⟩ = some effect →
    effect.kind ≠ .promotion

/-- A line shows a share of a negative amount that a fee or a tax takes. -/
structure EffectLine.IsNegativeShare (line : EffectLine) (catalog : EffectCatalog) : Prop where
  negative : line.amount.isNegative = true
  share : ∃ effect rate, catalog ⟨line.kind, line.effectId⟩ = some effect ∧
    effect.kind ≠ .promotion ∧ effect.rate? = some rate

namespace PhaseBreakdown

variable (breakdown : PhaseBreakdown)

/-- Every contribution is that of a rule that links no promotion. -/
def ChargesOnly (catalog : EffectCatalog) (rules : List Pricing.PricedRule) : Prop :=
  ∀ contribution ∈ breakdown.contributions, ∃ rule ∈ rules, ∃ amount,
    contribution.IsOf catalog amount rule ∧
      ∀ link ∈ rule.1.rule.effects, Pricing.isPromotionIn catalog link = false

/-- The applied contributions of a phase that comes to a sum take away more than they add. -/
def TakesAway : Prop :=
  ∃ summed, breakdown.unclampedSum = .ok summed ∧
    appliedUnits breakdown.contributions summed.scale.toNat < 0

/-- A phase from a negative amount, in which a fee or a tax takes a share of it, ends where it
starts: its floor restores exactly what its applied contributions come to. -/
structure CancelsCharges (catalog : EffectCatalog) : Prop where
  starting : breakdown.startingAmount.isNegative = true
  ending : breakdown.endingAmount = breakdown.startingAmount
  restored : ∃ restored, breakdown.floorAdjustment = some restored ∧
    restored.amount.toInt = -appliedUnits breakdown.contributions restored.scale.toNat
  share : ∃ contribution ∈ breakdown.contributions, contribution.applied = true ∧
    ∃ line ∈ contribution.lines, line.IsNegativeShare catalog

end PhaseBreakdown

section Units

variable {contributions before after : List RuleContribution} {contribution : RuleContribution}
  {scale : Nat}

@[simp] theorem appliedUnits_append : appliedUnits (before ++ after) scale =
    appliedUnits before scale + appliedUnits after scale := by
  simp [appliedUnits]

private theorem appliedUnits_cons : appliedUnits (contribution :: after) scale =
    (if contribution.applied then contribution.adjustment.units scale else 0) +
      appliedUnits after scale := by
  cases applied : contribution.applied <;> simp [appliedUnits, applied]

private theorem adjustmentsOf_cons {stacking : StackingBehavior} :
    adjustmentsOf stacking (contribution :: after) =
      (if contribution.stackingBehavior = stacking then [contribution.adjustment] else []) ++
        adjustmentsOf stacking after := by
  by_cases same : contribution.stackingBehavior = stacking <;> simp [adjustmentsOf, same]

/-- As long as no max rule is marked, the compound and the sequential contributions are applied. -/
theorem appliedUnits_of_unmarked
    (unmarked : contributions.map RuleContribution.unmarked = contributions) :
    appliedUnits contributions scale =
      ((adjustmentsOf .compound contributions).map fun amount => amount.units scale).sum +
        ((adjustmentsOf .sequential contributions).map fun amount => amount.units scale).sum := by
  induction contributions with
  | nil => rfl
  | cons contribution rest ih =>
    obtain ⟨own, others⟩ := List.cons.inj unmarked
    have applied : (contribution.stackingBehavior != .max) = contribution.applied :=
      congrArg RuleContribution.applied own
    rw [appliedUnits_cons, ih others, adjustmentsOf_cons, adjustmentsOf_cons, ← applied]
    cases contribution.stackingBehavior with
    | compound => simp [add_assoc]
    | sequential => simp [add_left_comm]
    | max => simp

/-- Applied contributions come to less than nothing only if one of them does. -/
theorem exists_applied_of_appliedUnits_neg (negative : appliedUnits contributions scale < 0) :
    ∃ contribution ∈ contributions, contribution.applied = true ∧
      contribution.adjustment.amount.toInt < 0 := by
  by_contra none_takes
  push Not at none_takes
  refine absurd negative (not_lt.mpr (List.sum_nonneg fun units member => ?_))
  obtain ⟨contribution, applied, rfl⟩ := List.mem_map.mp member
  obtain ⟨member, applied⟩ := List.mem_filter.mp applied
  exact Money.units_nonneg (none_takes contribution member applied) scale

end Units

/-- Of the effects that are no promotions, only a share of a negative amount is negative. -/
theorem LinkedEffect.rate_of_negative {effect : LinkedEffect} {base amount : Money}
    (valid : effect.validate = .ok ()) (charges : effect.kind ≠ .promotion)
    (adjusted : effect.adjustment base = .ok amount) (negative : amount.amount.toInt < 0) :
    base.amount.toInt < 0 ∧ ∃ rate, effect.rate? = some rate := by
  constructor
  · by_contra nonneg
    obtain ⟨signed, _⟩ := signed_of_adjustment valid (not_lt.mp nonneg) adjusted
    cases effect with
    | fee f => exact absurd negative (not_lt.mpr signed)
    | promotion p => exact charges rfl
    | taxRate t => exact absurd negative (not_lt.mpr signed)
  · cases effect with
    | promotion p => exact (charges rfl).elim
    | taxRate t => exact ⟨t.rate, rfl⟩
    | fee f =>
      obtain ⟨id, name, value, isActive, isTaxable⟩ := f
      cases value with
      | percentage rate => exact ⟨rate, rfl⟩
      | fixed held =>
        have same : held = amount := by
          simp only [adjustment, AdjustmentValue.magnitude] at adjusted
          split at adjusted
          · exact Except.ok.inj adjusted
          · cases adjusted
        simp only [validate, AdjustmentValue.validate] at valid
        split at valid
        · cases valid
        · rename_i nonneg
          exact (nonneg (same ▸ Money.isNegative_iff.mpr negative)).elim

namespace Pricing

variable {catalog : EffectCatalog} {start : Money}

section Rule

variable {base adjustment : Money} {lines : List EffectLine} {rule : Rule}

/-- A rule that takes away has a line that does. -/
theorem exists_negative_line
    (computed : ruleAdjustment catalog base rule = .ok (.computed adjustment lines))
    (negative : adjustment.amount.toInt < 0) :
    ∃ line ∈ lines, line.amount.amount.toInt < 0 := by
  obtain ⟨_, folded⟩ := eq_of_ruleAdjustment computed
  obtain ⟨_, _, _, counted⟩ := Money.units_foldlM_add folded
  have counted := counted adjustment.scale.toNat le_rfl
  rw [Money.units_self, units_zeroOf, Int.zero_add] at counted
  by_contra none_takes
  push Not at none_takes
  refine absurd negative (not_lt.mpr (counted ▸ List.sum_nonneg fun units member => ?_))
  rw [List.map_map] at member
  obtain ⟨line, shown, rfl⟩ := List.mem_map.mp member
  exact Money.units_nonneg (none_takes line shown) _

/-- A rule without promotions takes away only from a negative amount, by a share. -/
theorem exists_negativeShare (valid : IsValid catalog)
    (computed : ruleAdjustment catalog base rule = .ok (.computed adjustment lines))
    (charges : ∀ line ∈ lines, ∀ effect, catalog ⟨line.kind, line.effectId⟩ = some effect →
      effect.kind ≠ .promotion)
    (negative : adjustment.amount.toInt < 0) :
    base.amount.toInt < 0 ∧ ∃ line ∈ lines, line.IsNegativeShare catalog := by
  obtain ⟨line, member, line_negative⟩ := exists_negative_line computed negative
  obtain ⟨link, _, lineOf⟩ := exists_lineOf (eq_of_ruleAdjustment computed).1 member
  obtain ⟨effect, found, adjusted⟩ := lineOf.found
  have shown : catalog ⟨line.kind, line.effectId⟩ = some effect := by
    rw [lineOf.kind, lineOf.effectId]
    exact found
  have charge := charges line member effect shown
  obtain ⟨base_negative, rate, share⟩ :=
    LinkedEffect.rate_of_negative (valid _ _ found) charge adjusted line_negative
  exact ⟨base_negative, line, member, Money.isNegative_iff.mpr line_negative, effect, rate, shown,
    charge, share⟩

/-- A contribution of a rule without promotions is a charge. -/
theorem isCharge_of_isOf {contribution : RuleContribution} {amount : Money} {priced : PricedRule}
    (isOf : contribution.IsOf catalog amount priced)
    (without : ∀ link ∈ priced.1.rule.effects, isPromotionIn catalog link = false) :
    contribution.IsCharge catalog := by
  intro line member effect shown
  obtain ⟨link, among, lineOf⟩ := exists_lineOf (eq_of_ruleAdjustment isOf.computed).1 member
  have found : catalog link.key = some effect := by
    rw [← shown, lineOf.kind, lineOf.effectId]
    rfl
  have no_promotion := without link (List.mem_mergeSort.mp among)
  rw [isPromotionIn, found, Option.any_some, beq_eq_false_iff_ne] at no_promotion
  exact no_promotion

end Rule

section Phase

variable {rule : PricedRule} {rules : List PricedRule} {state next final : PhaseState}
  {breakdown : PhaseBreakdown}

/-- The running amount and the adjustments of a phase are not negative. -/
structure StaysCharged (state : PhaseState) : Prop where
  compound : 0 ≤ state.compound.amount.toInt
  adjustments : ∀ contribution ∈ state.contributions, 0 ≤ contribution.adjustment.amount.toInt

/-- From an amount that is not negative a step that charges leaves the running amount and the
adjustments so. -/
theorem StaysCharged.step (valid : IsValid catalog) (nonneg : 0 ≤ start.amount.toInt)
    (charged : StaysCharged state) (step : Step catalog start rule state next)
    (charges : ∀ contribution ∈ next.contributions, contribution.IsCharge catalog) :
    StaysCharged next := by
  have base_nonneg : 0 ≤ (state.baseFor start rule.2.stackingBehavior).amount.toInt := by
    cases rule.2.stackingBehavior with
    | compound => exact charged.compound
    | sequential => exact nonneg
    | max => exact nonneg
  have adjustments : ∀ contribution ∈ next.contributions,
      0 ≤ contribution.adjustment.amount.toInt := by
    intro contribution member
    rcases step.mem_contributions member with held | computed
    · exact charged.adjustments contribution held
    · by_contra negative
      obtain ⟨base_negative, _⟩ := exists_negativeShare valid computed (charges contribution member)
        (not_le.mp negative)
      omega
  refine ⟨?_, adjustments⟩
  cases step with
  | leftOut _ _ => exact charged.compound
  | sequential _ _ _ => exact charged.compound
  | max _ _ _ => exact charged.compound
  | @compound adjustment running lines _ _ added =>
    have adjustment_nonneg : 0 ≤ adjustment.amount.toInt :=
      adjustments _ (List.mem_append_right state.contributions (List.mem_singleton_self _))
    have sum := (Money.eq_of_add added).2.2.2
    have first := Money.units_nonneg charged.compound running.scale.toNat
    have second := Money.units_nonneg adjustment_nonneg running.scale.toNat
    change 0 ≤ running.amount.toInt
    omega

/-- From an amount that is not negative a phase that charges has no negative adjustment. -/
theorem Run.staysCharged (valid : IsValid catalog) (nonneg : 0 ≤ start.amount.toInt)
    (run : Run catalog start state rules final) (charged : StaysCharged state)
    (charges : ∀ contribution ∈ final.contributions, contribution.IsCharge catalog) :
    StaysCharged final := by
  induction run with
  | done _ => exact charged
  | next step run ih =>
    refine ih (charged.step valid nonneg step fun contribution member => ?_) charges
    exact charges contribution (run.prefix_contributions.subset member)

/-- What is applied at the end of a phase are the compound and the sequential adjustments and the
choice among the max rules. -/
theorem Stacked.appliedUnits_finalContributions (stacked : Stacked catalog rules start state)
    (scale : Nat) : appliedUnits state.finalContributions scale =
      ((adjustmentsOf .compound state.contributions).map fun amount => amount.units scale).sum +
        ((adjustmentsOf .sequential state.contributions).map fun amount => amount.units scale).sum +
          (state.chosenAdjustment start).units scale := by
  rw [← appliedUnits_of_unmarked stacked.unmarked]
  cases stacked.shows with
  | plain same _ unmade =>
    simp [same, PhaseState.chosenAdjustment, unmade]
  | @marked before after winner same split stacking _ made =>
    have unapplied : winner.applied = false := by
      have held : winner ∈ state.contributions :=
        split ▸ List.mem_append_right before (List.mem_cons_self ..)
      rw [stacked.applied_eq held, stacking]
      rfl
    rw [same, split, PhaseState.chosenAdjustment, made]
    simp only [appliedUnits_append, appliedUnits_cons, unapplied, if_true, Bool.false_eq_true,
      if_false]
    omega

/-- The sum of a phase is its starting amount with what is applied. -/
theorem Finished.amount_of_unclampedSum (finished : Finished start state breakdown)
    (stacked : Stacked catalog rules start state) {summed : Money}
    (unclamped : breakdown.unclampedSum = .ok summed) :
    start.scale.toNat ≤ summed.scale.toNat ∧
      summed.amount.toInt = start.units summed.scale.toNat +
        appliedUnits breakdown.contributions summed.scale.toNat := by
  simp only [PhaseBreakdown.unclampedSum, Except.bind_eq_ok_iff, stacked.maxPick_eq finished,
    finished.contributions, finished.starting,
    stacked.adjustmentsOf_finalContributions] at unclamped
  obtain ⟨compound, compound_added, sequential, sequential_added, part, first, second⟩ := unclamped
  obtain ⟨_, start_le, _, compound_units⟩ := Money.units_foldlM_add compound_added
  obtain ⟨_, _, _, sequential_units⟩ := Money.units_foldlM_add sequential_added
  have part_scale := Money.toNat_scale_of_add first
  have summed_scale := Money.toNat_scale_of_add second
  refine ⟨by omega, ?_⟩
  rw [(Money.eq_of_add second).2.2.2, Money.units_add first (by omega), compound_units _ (by omega),
    sequential_units _ (by omega), units_zeroOf, finished.contributions,
    stacked.appliedUnits_finalContributions]
  omega

/-- A phase is closed at its sum, which is no less than the floor, or at the floor, which is
more. -/
inductive Closed (start summed : Money) (breakdown : PhaseBreakdown) : Prop
  | above (kept : breakdown.floorAdjustment = none)
      (le : (floorOf start).units summed.scale.toNat ≤ summed.amount.toInt)
  | below {restored : Money} (cut : breakdown.floorAdjustment = some restored)
      (lt : summed.amount.toInt < (floorOf start).units summed.scale.toNat)
      (ending : breakdown.endingAmount = floorOf start)
      (scale : restored.scale.toNat = summed.scale.toNat)
      (amount : restored.amount.toInt =
        (floorOf start).units summed.scale.toNat - summed.amount.toInt)

private theorem closed_of_clamp {summed : Money} (le : start.scale.toNat ≤ summed.scale.toNat)
    (clamped : clamp start summed = .ok (breakdown.endingAmount, breakdown.floorAdjustment)) :
    Closed start summed breakdown := by
  have common : (max summed.scale (floorOf start).scale).toNat = summed.scale.toNat := by
    rw [Money.toNat_max, scale_floorOf]
    omega
  have restores := (endsAbove_of_clamp clamped).restores_iff
  rcases eq_of_clamp clamped with ⟨_, kept, order, compared, above⟩ | ⟨ending, restored, cut, less⟩
  · obtain ⟨_, rfl⟩ := Money.eq_of_compare compared
    rw [common, Money.units_self, Ne, compare_lt_iff_lt] at above
    exact .above kept (not_lt.mp above)
  · obtain ⟨_, ordered⟩ := Money.eq_of_compare (restores.mp (by rw [cut, Option.isSome_some]))
    rw [common, Money.units_self, eq_comm, compare_lt_iff_lt] at ordered
    obtain ⟨restored_scale, amount⟩ := Money.amount_of_subtract less
    have scale : restored.scale.toNat = summed.scale.toNat := by
      rw [restored_scale, scale_floorOf]
      omega
    rw [scale, Money.units_self] at amount
    exact .below cut ordered ending scale amount

/-- If a phase without promotions takes away, it does so from a negative amount, by a share. -/
theorem Finished.exists_negativeShare {scale : Nat} (valid : IsValid catalog)
    (finished : Finished start state breakdown) (run : Run catalog start (.start start) rules state)
    (charges : ∀ contribution ∈ breakdown.contributions, contribution.IsCharge catalog)
    (takes : appliedUnits breakdown.contributions scale < 0) :
    start.isNegative = true ∧ ∃ contribution ∈ breakdown.contributions,
      contribution.applied = true ∧ ∃ line ∈ contribution.lines, line.IsNegativeShare catalog := by
  have stacked := run.stacked (.of_start start) fun _ member => member
  obtain ⟨contribution, shown, applied, negative⟩ := exists_applied_of_appliedUnits_neg takes
  have member := shown
  rw [finished.contributions] at member
  obtain ⟨before, held, same⟩ := mem_finalContributions member
  rw [same] at negative
  constructor
  · by_contra nonneg
    have nonneg := Money.isNegative_eq_false_iff.mp (Bool.eq_false_iff.mpr nonneg)
    have all_charges : ∀ contribution ∈ state.contributions, contribution.IsCharge catalog := by
      rw [← stacked.map_unmarked_finalContributions, ← finished.contributions]
      intro contribution member
      obtain ⟨marked, shown, rfl⟩ := List.mem_map.mp member
      exact charges marked shown
    have charged := run.staysCharged valid nonneg ⟨nonneg, nofun⟩ all_charges
    exact absurd negative (not_lt.mpr (charged.adjustments before held))
  · rcases run.exists_of_mem_contributions held with at_start | ⟨_, _, _, _, _, _, computed⟩
    · cases at_start
    · have charge := charges contribution shown
      rw [same] at charge
      obtain ⟨_, line, member, share⟩ :=
        Pricing.exists_negativeShare valid computed charge negative
      refine ⟨contribution, shown, applied, line, ?_, share⟩
      rw [same]
      exact member

/-- A phase without promotions keeps its sum unless its charges take away, and then its floor
cancels them. -/
theorem Finished.cancelsCharges (valid : IsValid catalog)
    (finished : Finished start state breakdown) (run : Run catalog start (.start start) rules state)
    (charges : ∀ contribution ∈ breakdown.contributions, contribution.IsCharge catalog) :
    (breakdown.floorAdjustment = none ↔ ¬ breakdown.TakesAway) ∧
      (breakdown.TakesAway → breakdown.CancelsCharges catalog) := by
  have stacked := run.stacked (.of_start start) fun _ member => member
  obtain ⟨summed, unclamped, clamped⟩ := finished.unclampedSum stacked
  obtain ⟨le, amount⟩ := finished.amount_of_unclampedSum stacked unclamped
  have takesAway_iff : breakdown.TakesAway ↔
      appliedUnits breakdown.contributions summed.scale.toNat < 0 := by
    refine ⟨?_, fun takes => ⟨summed, unclamped, takes⟩⟩
    rintro ⟨other, again, takes⟩
    obtain rfl := Except.ok.inj (again.symm.trans unclamped)
    exact takes
  have floor := units_floorOf start summed.scale.toNat
  rw [takesAway_iff]
  cases closed_of_clamp le clamped with
  | above kept above =>
    have keeps : ¬ appliedUnits breakdown.contributions summed.scale.toNat < 0 := by
      intro takes
      obtain ⟨negative, _⟩ := finished.exists_negativeShare valid run charges takes
      rw [if_pos negative] at floor
      omega
    exact ⟨⟨fun _ => keeps, fun _ => kept⟩, fun takes => (keeps takes).elim⟩
  | @below restored cut lt ending scale restored_amount =>
    -- the floor does not lie above the starting amount, so what is below it was taken away
    have takes : appliedUnits breakdown.contributions summed.scale.toNat < 0 := by
      split at floor
      · omega
      · rename_i nonneg
        have nonneg := Money.isNegative_eq_false_iff.mp (Bool.eq_false_iff.mpr nonneg)
        have := Money.units_nonneg nonneg summed.scale.toNat
        omega
    obtain ⟨negative, share⟩ := finished.exists_negativeShare valid run charges takes
    have floor_eq : floorOf start = start := if_pos negative
    refine ⟨by simp [cut, takes], fun _ => ⟨?_, ?_, ⟨restored, cut, ?_⟩, share⟩⟩
    · rw [finished.starting, negative]
    · rw [ending, floor_eq, finished.starting]
    · rw [scale, restored_amount, floor_eq]
      omega

end Phase

section Prices

variable {matched : List CompiledRule} {base : Money} {price : PriceAdjustment}

/-- A phase of a price whose rules link no promotion keeps its sum unless its charges take away.
Then the base amount is negative, and the floor cancels them. -/
theorem floorAdjustment_eq_none_iff (valid : IsValid catalog)
    (priced : (resolve matched base catalog).result = .ok price) :
    ∀ breakdown ∈ price.phases,
      breakdown.ChargesOnly catalog (rulesOf breakdown.phase (configured matched)) →
        (breakdown.floorAdjustment = none ↔ ¬ breakdown.TakesAway) ∧
          (breakdown.TakesAway →
            base.isNegative = true ∧ breakdown.CancelsCharges catalog) := by
  intro breakdown member chargesOnly
  obtain ⟨run, _⟩ := eq_of_resolve priced
  obtain ⟨state, rulesRun, finished⟩ := run.exists_run member
  have charges : ∀ contribution ∈ breakdown.contributions, contribution.IsCharge catalog := by
    intro contribution shown
    obtain ⟨rule, _, amount, isOf, without⟩ := chargesOnly contribution shown
    exact isCharge_of_isOf isOf without
  obtain ⟨kept_iff, cancels⟩ := finished.cancelsCharges valid rulesRun charges
  refine ⟨kept_iff, fun takes => ⟨?_, cancels takes⟩⟩
  by_contra nonneg
  have starting := run.starting_nonneg (Bool.eq_false_iff.mpr nonneg) breakdown member
  rw [(cancels takes).starting] at starting
  cases starting

/-- A phase of rules without promotions only charges. -/
theorem chargesOnly_of_without (priced : (resolve matched base catalog).result = .ok price)
    (without : ∀ rule ∈ configured matched, ∀ link ∈ rule.1.rule.effects,
      isPromotionIn catalog link = false) :
    ∀ breakdown ∈ price.phases,
      breakdown.ChargesOnly catalog (rulesOf breakdown.phase (configured matched)) := by
  intro breakdown member contribution shown
  obtain ⟨run, _⟩ := eq_of_resolve priced
  obtain ⟨state, rulesRun, finished⟩ := run.exists_run member
  have stacked := rulesRun.stacked (.of_start breakdown.startingAmount) fun _ member => member
  rw [finished.contributions] at shown
  obtain ⟨before, after, split⟩ := List.append_of_mem shown
  obtain ⟨rule, among, amount, _, isOf⟩ := stacked.computed_finalContributions split
  exact ⟨rule, among, amount, isOf, without rule (List.mem_of_mem_filter among)⟩

/-- A fee with a tax, which the fee outweighs, and then the tax alone. -/
def chargingRules : List CompiledRule :=
  [sampleRule "handling" .compound .preDiscount [⟨.fee, "handling", 0⟩],
    sampleRule "tax" .compound .preDiscount [⟨.taxRate, "tax", 0⟩],
    sampleRule "levy" .max .postDiscount [⟨.taxRate, "levy", 0⟩]]

private theorem restored_chargingRules :
    (resolve chargingRules (.ofAmount (-1000) .usd) sampleCatalog).result.map
      (fun price => price.phases.map PhaseBreakdown.floorAdjustment) =
        .ok [none, some ⟨669, .usd, 3⟩] := by
  decide +kernel

theorem floorAdjustment_chargingRules : ∃ price, IsValid sampleCatalog ∧
    (resolve chargingRules (.ofAmount (-1000) .usd) sampleCatalog).result = .ok price ∧
    price.phases.map PhaseBreakdown.floorAdjustment = [none, some ⟨669, .usd, 3⟩] ∧
    ∀ breakdown ∈ price.phases,
      breakdown.ChargesOnly sampleCatalog (rulesOf breakdown.phase (configured chargingRules)) ∧
        (breakdown.floorAdjustment = none ↔ ¬ breakdown.TakesAway) ∧
          (breakdown.TakesAway → (Money.ofAmount (-1000) .usd).isNegative = true ∧
            breakdown.CancelsCharges sampleCatalog) := by
  obtain ⟨price, priced, restored⟩ := Except.exists_of_map_eq_ok restored_chargingRules
  have without : ∀ rule ∈ configured chargingRules, ∀ link ∈ rule.1.rule.effects,
      isPromotionIn sampleCatalog link = false := by decide +kernel
  refine ⟨price, isValid_sampleCatalog, priced, restored, fun breakdown member => ?_⟩
  have chargesOnly := chargesOnly_of_without priced without breakdown member
  exact ⟨chargesOnly,
    floorAdjustment_eq_none_iff isValid_sampleCatalog priced breakdown member chargesOnly⟩

/-- A tax alone. -/
def levyRules : List CompiledRule :=
  [sampleRule "levy" .compound .preDiscount [⟨.taxRate, "levy", 0⟩]]

private theorem restored_levyRules :
    (resolve levyRules (.ofAmount (-1000) .usd) sampleCatalog).result.map
      (fun price => price.phases.map PhaseBreakdown.floorAdjustment) =
        .ok [some (.ofAmount 83 .usd)] := by
  decide +kernel

/-- Not every phase without promotions keeps its sum: the tax of a negative amount is cancelled. -/
theorem not_kept_levyRules : ∃ price, IsValid sampleCatalog ∧
    (resolve levyRules (.ofAmount (-1000) .usd) sampleCatalog).result = .ok price ∧
    ∃ breakdown ∈ price.phases,
      breakdown.ChargesOnly sampleCatalog (rulesOf breakdown.phase (configured levyRules)) ∧
        breakdown.floorAdjustment = some (.ofAmount 83 .usd) := by
  obtain ⟨price, priced, restored⟩ := Except.exists_of_map_eq_ok restored_levyRules
  have without : ∀ rule ∈ configured levyRules, ∀ link ∈ rule.1.rule.effects,
      isPromotionIn sampleCatalog link = false := by decide +kernel
  have cancelled : some (Money.ofAmount 83 .usd) ∈
      price.phases.map PhaseBreakdown.floorAdjustment := by
    rw [restored]
    exact List.mem_singleton_self _
  obtain ⟨breakdown, member, restored⟩ := List.mem_map.mp cancelled
  exact ⟨price, isValid_sampleCatalog, priced, breakdown, member,
    chargesOnly_of_without priced without breakdown member, restored⟩

end Prices

end Pricing

end RuleBook
