import RuleBook.Proofs.Money.Range
import RuleBook.Proofs.Pricing.Phase

/-! # Effects in other currencies

Amounts of one currency can fail to combine only where a result is out of range. So an effect
reports two currencies exactly when it has a fixed amount in another currency than the amount that
it adjusts; shares are taken in the currency of that amount.
-/

namespace RuleBook

namespace Money

theorem currency_of_multiply {a b : Money} {rate : Rate} (multiplied : a.multiply rate = .ok b) :
    b.currency = a.currency := by
  simp only [multiply_eq, Except.bind_eq_ok_iff] at multiplied
  obtain ⟨_, _, _, _, rounded⟩ := multiplied
  exact (ofInt_eq_ok_iff.mp rounded).2.2.1

end Money

/-- The fixed amount of an adjustment; a share has none. -/
def AdjustmentValue.fixedAmount? : AdjustmentValue → Option Money
  | .percentage _ => none
  | .fixed amount => some amount

namespace LinkedEffect

/-- The fixed amount of an effect; shares and tax rates have none. -/
def fixedAmount? : LinkedEffect → Option Money
  | fee f => f.value.fixedAmount?
  | promotion p => p.value.fixedAmount?
  | taxRate _ => none

/-- The fixed amount of an effect, if it is in another currency. -/
def foreignAmount? (currency : Currency) (effect : LinkedEffect) : Option Money :=
  effect.fixedAmount?.filter fun amount => amount.currency ≠ currency

end LinkedEffect

section Adjustment

variable {base : Money}

private theorem AdjustmentValue.magnitude_of_foreign {value : AdjustmentValue} {amount : Money}
    (fixed : value.fixedAmount? = some amount) (foreign : amount.currency ≠ base.currency) :
    value.magnitude base = .error (.currencyMismatch base.currency.code amount.currency.code) := by
  cases value with
  | percentage rate => cases fixed
  | fixed held =>
    cases fixed
    exact if_neg foreign

/-- An adjustment that has no amount in another currency is in that of the amount it adjusts. -/
theorem AdjustmentValue.magnitude_of_native {value : AdjustmentValue}
    (native : ∀ amount, value.fixedAmount? = some amount → amount.currency = base.currency) :
    OnlyOverflows (value.magnitude base) ∧
      ∀ amount, value.magnitude base = .ok amount → amount.currency = base.currency := by
  cases value with
  | percentage rate =>
    exact ⟨Money.multiply_onlyOverflows _ _, fun amount computed => Money.currency_of_multiply computed⟩
  | fixed held =>
    have same : held.currency = base.currency := native held rfl
    have computed : AdjustmentValue.magnitude (.fixed held) base = .ok held := if_pos same
    rw [computed]
    refine ⟨.ok _, ?_⟩
    rintro _ ⟨⟩
    exact same

theorem LinkedEffect.foreignAmount?_eq_some_iff {currency : Currency} {effect : LinkedEffect}
    {amount : Money} : effect.foreignAmount? currency = some amount ↔
      effect.fixedAmount? = some amount ∧ amount.currency ≠ currency := by
  simp [foreignAmount?, Option.filter_eq_some_iff]

/-- An effect with a fixed amount in another currency reports the two currencies. -/
theorem LinkedEffect.adjustment_of_foreign {effect : LinkedEffect} {amount : Money}
    (foreign : effect.foreignAmount? base.currency = some amount) :
    effect.adjustment base =
      .error (.currencyMismatch base.currency.code amount.currency.code) := by
  obtain ⟨fixed, different⟩ := foreignAmount?_eq_some_iff.mp foreign
  cases effect with
  | fee f => exact AdjustmentValue.magnitude_of_foreign fixed different
  | promotion p =>
    have mismatch := AdjustmentValue.magnitude_of_foreign fixed different
    simp only [adjustment, mismatch]
    rfl
  | taxRate t => cases fixed

/-- An effect without such an amount reports no currencies. -/
theorem LinkedEffect.adjustment_onlyOverflows {effect : LinkedEffect}
    (native : effect.foreignAmount? base.currency = none) :
    OnlyOverflows (effect.adjustment base) := by
  have native : ∀ amount, effect.fixedAmount? = some amount → amount.currency = base.currency := by
    intro amount fixed
    by_contra different
    have foreign := foreignAmount?_eq_some_iff.mpr ⟨fixed, different⟩
    rw [native] at foreign
    cases foreign
  cases effect with
  | fee f => exact (AdjustmentValue.magnitude_of_native native).1
  | promotion p =>
    obtain ⟨discounted, currency⟩ := AdjustmentValue.magnitude_of_native native
    refine .bind discounted fun discount computed => ?_
    refine .bind (Money.min_onlyOverflows ?_) fun capped _ => Money.negate_onlyOverflows _
    rw [currency discount computed]
    split <;> rfl
  | taxRate t => exact Money.multiply_onlyOverflows _ _

end Adjustment

end RuleBook
