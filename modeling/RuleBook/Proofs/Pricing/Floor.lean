import RuleBook.Proofs.Pricing.Exclusion
import RuleBook.Proofs.Pricing.Overdraft
import RuleBook.Proofs.Pricing.Stacking

/-! # The floor of a phase

A phase ends at the sum of its three ways of stacking, unless that lies below the smaller of its
starting amount and nothing; then it ends there, and shows what was restored. No check of the
effects is needed for this: the floor alone keeps a price from falling below nothing.
-/

namespace RuleBook

open Pricing (zeroOf)

/-- A phase that came to a sum ends at it or, where the sum lies below a bound, at the bound, and
then shows the difference as restored. -/
structure PhaseBreakdown.EndsAbove (breakdown : PhaseBreakdown) (bound summed : Money) : Prop where
  above : ∃ order, breakdown.endingAmount.compare bound = .ok order ∧ order ≠ .lt
  restores_iff : breakdown.floorAdjustment.isSome = true ↔ summed.compare bound = .ok .lt
  kept : breakdown.floorAdjustment = none → breakdown.endingAmount = summed
  restored : ∀ amount, breakdown.floorAdjustment = some amount →
    breakdown.endingAmount = bound ∧ 0 < amount.amount.toInt ∧
      breakdown.endingAmount.subtract summed = .ok amount

/-- A phase keeps to its floor, the smaller of its starting amount and nothing. -/
def PhaseBreakdown.KeepsFloor (breakdown : PhaseBreakdown) : Prop :=
  ∃ bound summed, breakdown.startingAmount.min (zeroOf breakdown.startingAmount) = .ok bound ∧
    breakdown.unclampedSum = .ok summed ∧ breakdown.EndsAbove bound summed

namespace Pricing

variable {catalog : EffectCatalog} {start summed ending : Money}

/-- The floor is the smaller of the starting amount and nothing. -/
theorem min_zeroOf (amount : Money) : amount.min (zeroOf amount) = .ok (floorOf amount) := by
  have compared : amount.compare (zeroOf amount) = .ok (Ord.compare amount.amount.toInt 0) :=
    Money.compare_of_sameScale rfl rfl
  simp only [Money.min, compared, floorOf, bind, Except.bind]
  cases negative : amount.isNegative with
  | true =>
    have below : Ord.compare amount.amount.toInt 0 = .lt :=
      Int.compare_eq_lt.mpr (Money.isNegative_iff.mp negative)
    rw [below]
    rfl
  | false =>
    have nonneg := Money.isNegative_eq_false_iff.mp negative
    split
    · rfl
    · rename_i not_above
      -- an amount that is neither negative nor above nothing is nothing already
      have zero : amount.amount = 0 := by
        rw [← Int64.toInt_inj, Int64.toInt_zero]
        have := mt Int.compare_eq_gt.mpr not_above
        omega
      simp only [zeroOf, ← zero]
      rfl

/-- What is restored is strictly more than nothing. -/
theorem restored_pos {bound restored : Money} (below : summed.compare bound = .ok .lt)
    (subtracted : bound.subtract summed = .ok restored) : 0 < restored.amount.toInt := by
  obtain ⟨_, ordered⟩ := Money.eq_of_compare below
  obtain ⟨scale, amount⟩ := Money.amount_of_subtract subtracted
  have common : (max summed.scale bound.scale).toNat = restored.scale.toNat := by
    rw [Money.toNat_max]
    omega
  have less := compare_lt_iff_lt.mp ordered.symm
  rw [common] at less
  omega

/-- Closing a phase at its sum keeps it to its floor. -/
theorem endsAbove_of_clamp {breakdown : PhaseBreakdown}
    (clamped : clamp start summed = .ok (breakdown.endingAmount, breakdown.floorAdjustment)) :
    breakdown.EndsAbove (floorOf start) summed := by
  simp only [clamp, Except.bind_eq_ok_iff] at clamped
  obtain ⟨order, compared, clamped⟩ := clamped
  split at clamped
  · simp only [Except.bind_eq_ok_iff] at clamped
    obtain ⟨restored, subtracted, same⟩ := clamped
    obtain ⟨ending, floor⟩ := Prod.mk.inj (Except.ok.inj same)
    refine ⟨⟨.eq, ?_, by decide⟩, ?_, ?_, ?_⟩
    · rw [← ending, Money.compare_self]
    · simp [← floor, compared]
    · simp [← floor]
    · rw [← ending, ← floor]
      rintro _ ⟨⟩
      exact ⟨rfl, restored_pos compared subtracted, subtracted⟩
  · rename_i not_below
    obtain ⟨ending, floor⟩ := Prod.mk.inj (Except.ok.inj clamped)
    refine ⟨⟨order, ?_, not_below⟩, ?_, ?_, ?_⟩
    · rw [← ending, compared]
    · rw [← floor, compared]
      simpa using not_below
    · exact fun _ => ending.symm
    · rw [← floor]
      rintro _ ⟨⟩

/-- A phase that ends keeps to its floor. -/
theorem Finished.keepsFloor {rules : List PricedRule} {state : PhaseState}
    {breakdown : PhaseBreakdown} (finished : Finished start state breakdown)
    (run : Run catalog start (.start start) rules state) : breakdown.KeepsFloor := by
  have stacked := run.stacked (.of_start start) fun _ member => member
  obtain ⟨summed, unclamped, clamped⟩ := finished.unclampedSum stacked
  refine ⟨floorOf start, summed, ?_, unclamped, endsAbove_of_clamp clamped⟩
  rw [finished.starting, min_zeroOf]

/-- A run of phases from an amount that is not negative ends at one. -/
theorem PhasesRun.finalAmount_nonneg {rules : List PricedRule} {phases : List CalculationPhase}
    {breakdowns : List PhaseBreakdown} (run : PhasesRun catalog rules start phases breakdowns)
    (nonneg : start.isNegative = false) :
    (finalAmountOf start breakdowns).isNegative = false := by
  induction run with
  | done _ => exact nonneg
  | skip _ _ ih => exact ih nonneg
  | next rulesRun finished _ ih =>
    rw [finalAmountOf_cons]
    exact ih (finished.ending_nonneg rulesRun nonneg)

/-- Every phase of a price keeps to its floor, and a price from an amount that is not negative is
not negative, whatever the effects are. -/
theorem keepsFloor_of_resolve {matched : List CompiledRule} {base : Money}
    {price : PriceAdjustment} (priced : (resolve matched base catalog).result = .ok price) :
    (∀ breakdown ∈ price.phases, breakdown.KeepsFloor) ∧
      (base.isNegative = false → price.finalAmount.isNegative = false) := by
  obtain ⟨run, _, final, _⟩ := eq_of_resolve priced
  constructor
  · intro breakdown member
    obtain ⟨state, rulesRun, finished⟩ := run.exists_run member
    exact finished.keepsFloor rulesRun
  · intro nonneg
    rw [final]
    exact run.finalAmount_nonneg nonneg

/-- Effects that no check would let pass: fees that take away, and promotions that add. -/
def uncheckedCatalog : EffectCatalog := fun key =>
  match key.kind with
  | .promotion => some (.promotion ⟨key.id, key.id, .fixed ⟨-75, .usd, 1⟩⟩)
  | .fee => some (.fee ⟨key.id, key.id, .fixed ⟨-25005, .usd, 3⟩, true, false⟩)
  | .taxRate => some (.taxRate ⟨key.id, key.id, ⟨-825, 3⟩, none⟩)

/-- Two phases that fall below their floors, the first at a finer scale than it starts at. -/
def sinkingRules : List CompiledRule :=
  [sampleRule "rebate" .compound .preDiscount [⟨.fee, "rebate", 0⟩],
    sampleRule "bonus" .max .preDiscount [⟨.promotion, "bonus", 0⟩],
    sampleRule "credit" .sequential .postDiscount [⟨.taxRate, "credit", 0⟩, ⟨.fee, "rebate", 0⟩]]

private theorem restored_sinkingRules :
    (resolve sinkingRules (.ofAmount 1000 .usd) uncheckedCatalog).result.map
      (fun price => price.phases.map PhaseBreakdown.floorAdjustment) =
        .ok [some ⟨7505, .usd, 3⟩, some ⟨25005, .usd, 3⟩] := by
  have first : rulesOf .preDiscount (configured sinkingRules) =
      (sinkingRules.take 2).zip [⟨.compound, .preDiscount⟩, ⟨.max, .preDiscount⟩] := rfl
  have second : rulesOf .postDiscount (configured sinkingRules) =
      (sinkingRules.drop 2).map (·, ⟨.sequential, .postDiscount⟩) := rfl
  simp only [resolve, result_calculate, Named.all, runPhases, first, second]
  simp only [sinkingRules, List.take, List.drop, List.zip, List.zipWith, List.map_cons,
    List.map_nil, runPhase, takeRules, ruleAdjustment, sortedLinks_eq_insertionSort]
  decide +kernel

theorem keepsFloor_of_resolve_sinkingRules : ∃ price,
    (resolve sinkingRules (.ofAmount 1000 .usd) uncheckedCatalog).result = .ok price ∧
      price.phases.map PhaseBreakdown.floorAdjustment =
        [some ⟨7505, .usd, 3⟩, some ⟨25005, .usd, 3⟩] ∧
      (∀ breakdown ∈ price.phases, breakdown.KeepsFloor) ∧
        ((Money.ofAmount 1000 .usd).isNegative = false → price.finalAmount.isNegative = false) := by
  obtain ⟨price, priced, restored⟩ := Except.exists_of_map_eq_ok restored_sinkingRules
  exact ⟨price, priced, restored, keepsFloor_of_resolve priced⟩

end Pricing

end RuleBook
