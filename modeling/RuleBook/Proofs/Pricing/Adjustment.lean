import RuleBook.Proofs.Money.Order
import RuleBook.Proofs.Money.Rounding
import RuleBook.Proofs.Pricing.Overdraft
import RuleBook.Proofs.Pricing.Overflow

/-! # What one effect does to an amount

Against an amount that is not negative an effect that has passed its check adds, if it is a fee or a
tax, and takes away at most what is there, if it is a promotion: `LinkedEffect.KeepsSign`. A share of
at most the whole comes to at most the amount, and the check makes sure that it can be formed, but
not for tax rates: of these only the sign is checked. One of more than 38 places has no power of ten
in range and fails every price that needs it, so `LinkedEffect.Harmless` depends on the places.
-/

namespace RuleBook

open Pricing (ruleAdjustment sumLinks zeroOf)

/-- The rate of a share; a fixed amount has none. -/
def AdjustmentValue.rate? : AdjustmentValue → Option Rate
  | .percentage rate => some rate
  | .fixed _ => none

/-- A rule links an effect of a catalog that takes part, and nothing else. -/
def Rule.LinksOnly (rule : Rule) (catalog : EffectCatalog) (effect : LinkedEffect) : Prop :=
  ∃ link, rule.effects = [link] ∧ catalog link.key = some effect ∧ effect.isUsable = true

namespace LinkedEffect

/-- The rate at which an effect takes a share of an amount. -/
def rate? : LinkedEffect → Option Rate
  | fee f => f.value.rate?
  | promotion p => p.value.rate?
  | taxRate t => some t.rate

/-- Fees and taxes do not take away. A promotion takes away the smaller of its discount and the
amount, and so does not add and leaves nothing below zero. -/
structure KeepsSign (effect : LinkedEffect) (base amount : Money) : Prop where
  adds : effect.kind ≠ .promotion → 0 ≤ amount.value
  takes : effect.kind = .promotion → amount.value ≤ 0 ∧ 0 ≤ base.value + amount.value
  capped : ∀ p, effect = promotion p → ∃ discount, p.value.magnitude base = .ok discount ∧
    amount.value = -min discount.value base.value

/-- An effect adjusts an amount by at most that amount, in its currency and at its scale. -/
def StaysWithin (effect : LinkedEffect) (base : Money) : Prop :=
  ∃ amount, effect.adjustment base = .ok amount ∧ amount.currency = base.currency ∧
    amount.scale = base.scale ∧ |amount.amount.toInt| ≤ base.amount.toInt

/-- An effect adjusts an amount by at most that amount, and a rule that links nothing else can be
computed against it. -/
structure Harmless (effect : LinkedEffect) (base : Money) : Prop where
  within : effect.StaysWithin base
  computed : ∀ catalog rule, rule.LinksOnly catalog effect →
    ∃ amount lines, ruleAdjustment catalog base rule = .ok (.computed amount lines)

/-- No price is formed of matched rules one of which links an effect and nothing else. -/
def FailsPrices (effect : LinkedEffect) : Prop :=
  ∀ catalog matched base, ∀ compiled ∈ matched, compiled.rule.pricingConfig.isSome = true →
    compiled.rule.LinksOnly catalog effect →
      (Pricing.resolve matched base catalog).result = .error (.money .overflow)

end LinkedEffect

namespace Money

variable {a b : Money}

theorem value_nonneg (nonneg : 0 ≤ a.amount.toInt) : 0 ≤ a.value :=
  div_nonneg (by exact_mod_cast nonneg) (by positivity)

/-- Every amount that is not negative has an opposite. -/
theorem exists_negate (nonneg : 0 ≤ a.amount.toInt) : ∃ opposite, a.negate = .ok opposite := by
  have greatest := a.amount.toInt_lt
  have fits : IntRange.signed64.Holds (-a.amount.toInt) := by
    constructor <;> simp only [IntRange.signed64] <;> omega
  exact ⟨_, if_pos fits⟩

/-- The smaller of two amounts at one scale is the first one if it counts no more units. -/
theorem min_of_sameScale (currency : a.currency = b.currency) (scale : a.scale = b.scale)
    (le : a.amount.toInt ≤ b.amount.toInt) : a.min b = .ok a := by
  have not_greater : Ord.compare a.amount.toInt b.amount.toInt ≠ .gt := by
    rw [Ne, compare_gt_iff_gt]
    omega
  simp only [min, compare_of_sameScale currency scale, bind, Except.bind]
  rfl

end Money

namespace LinkedEffect

section Sign

variable {effect : LinkedEffect} {base amount : Money}

/-- A promotion takes away the smaller of its discount and the amount. -/
theorem value_of_discount {p : Promotion} (positive : 0 < base.currency.base.toNat)
    (nonneg : 0 ≤ base.amount.toInt) (adjusted : (promotion p).adjustment base = .ok amount) :
    ∃ discount, p.value.magnitude base = .ok discount ∧
      amount.value = -min discount.value base.value := by
  simp only [adjustment, Money.isNegative_eq_false_iff.mpr nonneg, Bool.false_eq_true, if_false,
    Except.bind_eq_ok_iff] at adjusted
  obtain ⟨discount, computed, capped, chosen, negated⟩ := adjusted
  obtain ⟨_, currency, _⟩ := Money.eq_of_min chosen
  obtain ⟨_, rfl⟩ := (Money.min_eq_ok_iff (currency ▸ positive)).mp chosen
  refine ⟨discount, computed, ?_⟩
  rw [Money.value_negate negated]
  split
  · rename_i below
    rw [min_eq_right below.le]
  · rename_i above
    rw [min_eq_left (not_lt.mp above)]

/-- An effect that has passed its check adjusts an amount that is not negative with the sign of its
kind, and a promotion takes away at most what is there. -/
theorem keepsSign_of_adjustment (positive : 1 ≤ base.currency.base)
    (valid : effect.validate = .ok ()) (nonneg : base.isNegative = false)
    (adjusted : effect.adjustment base = .ok amount) : effect.KeepsSign base amount := by
  have nonneg := Money.isNegative_eq_false_iff.mp nonneg
  have positive : 0 < base.currency.base.toNat := UInt32.le_iff_toNat_le.mp positive
  obtain ⟨signed, _⟩ := signed_of_adjustment valid nonneg adjusted
  cases effect with
  | fee f => exact ⟨fun _ => Money.value_nonneg signed, nofun, nofun⟩
  | taxRate t => exact ⟨fun _ => Money.value_nonneg signed, nofun, nofun⟩
  | promotion p =>
    obtain ⟨discount, computed, taken⟩ := value_of_discount positive nonneg adjusted
    have discount_nonneg := Money.value_nonneg (magnitude_nonneg valid nonneg computed)
    have base_nonneg := Money.value_nonneg nonneg
    refine ⟨fun other => (other rfl).elim, fun _ => ⟨?_, ?_⟩, ?_⟩
    · rw [taken]
      exact neg_nonpos.mpr (le_min discount_nonneg base_nonneg)
    · rw [taken]
      have := min_le_right discount.value base.value
      linarith
    · rintro _ ⟨⟩
      exact ⟨discount, computed, taken⟩

/-- A fixed discount at a finer scale than the amount, which it exceeds by less than a unit. -/
def excessiveDiscount : LinkedEffect :=
  .promotion ⟨"excessive", "excessive", .fixed ⟨100005, .usd, 4⟩⟩

theorem keepsSign_excessiveDiscount :
    1 ≤ (Money.ofAmount 1000 .usd).currency.base ∧ excessiveDiscount.validate = .ok () ∧
      (Money.ofAmount 1000 .usd).isNegative = false ∧
      excessiveDiscount.adjustment (.ofAmount 1000 .usd) = .ok (.ofAmount (-1000) .usd) ∧
      excessiveDiscount.KeepsSign (.ofAmount 1000 .usd) (.ofAmount (-1000) .usd) := by
  have positive : 1 ≤ (Money.ofAmount 1000 .usd).currency.base := by decide
  have valid : excessiveDiscount.validate = .ok () := rfl
  have nonneg : (Money.ofAmount 1000 .usd).isNegative = false := by decide
  have adjusted : excessiveDiscount.adjustment (.ofAmount 1000 .usd) =
      .ok (.ofAmount (-1000) .usd) := by decide +kernel
  exact ⟨positive, valid, nonneg, adjusted,
    keepsSign_of_adjustment positive valid nonneg adjusted⟩

end Sign

section Shares

variable {effect : LinkedEffect} {rate : Rate} {base : Money}

/-- The check of a share: it is not negative and at most the whole, and its power of ten fits. -/
theorem percentage_of_validate (valid : (AdjustmentValue.percentage rate).validate = .ok ()) :
    0 ≤ rate.amount.toInt ∧ rate.value ≤ 1 ∧ rate.scale.toNat ≤ 38 := by
  simp only [AdjustmentValue.validate, Except.bind_eq_ok_iff] at valid
  obtain ⟨whole, formed, within⟩ := valid
  obtain ⟨holds, rfl⟩ : IntRange.signed128.Holds (10 ^ rate.scale.toNat) ∧
      whole = 10 ^ rate.scale.toNat := by
    cases power : Money.power 10 rate.scale.toNat with
    | error e =>
      rw [power] at formed
      cases formed
    | ok n =>
      rw [power] at formed
      cases formed
      exact_mod_cast Money.power_eq_ok_iff.mp power
  split at within
  · cases within
  · rename_i inside
    refine ⟨by omega, ?_, Money.holds_ten_pow_iff.mp holds⟩
    rw [Rate.value, div_le_one (by positivity)]
    exact_mod_cast (by omega : rate.amount.toInt ≤ 10 ^ rate.scale.toNat)

/-- The rate of an effect that has passed its check is not negative. Unless the effect is a tax
rate, the rate is at most one and its power of ten fits. -/
theorem rate_of_validate (valid : effect.validate = .ok ()) (share : effect.rate? = some rate) :
    0 ≤ rate.amount.toInt ∧
      (effect.kind ≠ .taxRate → rate.value ≤ 1 ∧ rate.scale.toNat ≤ 38) := by
  have percentage {value : AdjustmentValue} (valid : value.validate = .ok ())
      (share : value.rate? = some rate) :
      0 ≤ rate.amount.toInt ∧ rate.value ≤ 1 ∧ rate.scale.toNat ≤ 38 := by
    cases value with
    | percentage held =>
      cases share
      exact percentage_of_validate valid
    | fixed _ => cases share
  cases effect with
  | fee f =>
    obtain ⟨nonneg, bounds⟩ := percentage valid share
    exact ⟨nonneg, fun _ => bounds⟩
  | promotion p =>
    obtain ⟨nonneg, bounds⟩ := percentage valid share
    exact ⟨nonneg, fun _ => bounds⟩
  | taxRate t =>
    cases share
    simp only [validate] at valid
    split at valid
    · cases valid
    · rename_i inside
      exact ⟨not_lt.mp inside, fun other => (other rfl).elim⟩

/-- A share of at most the whole stays within the amount if its power of ten fits. -/
theorem staysWithin_of_scale_le (valid : effect.validate = .ok ())
    (share : effect.rate? = some rate) (most : rate.value ≤ 1) (fits : rate.scale.toNat ≤ 38)
    (nonneg : 0 ≤ base.amount.toInt) : effect.StaysWithin base := by
  obtain ⟨rate_nonneg, _⟩ := rate_of_validate valid share
  obtain ⟨product, multiplied, product_nonneg, product_le, currency, scale⟩ :=
    Money.exists_multiply_le nonneg rate_nonneg most fits
  have bounded : |product.amount.toInt| ≤ base.amount.toInt := by
    rwa [abs_of_nonneg product_nonneg]
  have magnitude {value : AdjustmentValue} (share : value.rate? = some rate) :
      value.magnitude base = .ok product := by
    cases value with
    | percentage held =>
      cases share
      exact multiplied
    | fixed _ => cases share
  cases effect with
  | fee f => exact ⟨product, magnitude share, currency, scale, bounded⟩
  | taxRate t =>
    cases share
    exact ⟨product, multiplied, currency, scale, bounded⟩
  | promotion p =>
    -- the share is no more than the amount, so the cap leaves it as it is
    obtain ⟨opposite, negated⟩ := Money.exists_negate product_nonneg
    obtain ⟨amount, sameCurrency, sameScale⟩ := Money.eq_of_negate negated
    refine ⟨opposite, ?_, sameCurrency.trans currency, sameScale.trans scale, ?_⟩
    · simp only [adjustment, magnitude share, Money.isNegative_eq_false_iff.mpr nonneg,
        Bool.false_eq_true, if_false, bind, Except.bind,
        Money.min_of_sameScale currency scale product_le, negated]
    · rw [amount, abs_neg]
      exact bounded

/-- A share of more than 38 places that has passed its check is that of a tax rate, and adjusts no
amount. -/
theorem adjustment_of_fine (valid : effect.validate = .ok ()) (share : effect.rate? = some rate)
    (fine : 38 < rate.scale.toNat) (base : Money) : effect.adjustment base = .error .overflow := by
  cases isTax : effect.kind with
  | taxRate =>
    cases effect with
    | taxRate t =>
      cases share
      exact Money.multiply_of_fine fine
    | fee f => cases isTax
    | promotion p => cases isTax
  | fee =>
    have := ((rate_of_validate valid share).2 (by rw [isTax]; decide)).2
    omega
  | promotion =>
    have := ((rate_of_validate valid share).2 (by rw [isTax]; decide)).2
    omega

end Shares

end LinkedEffect

section Alone

variable {effect : LinkedEffect} {base : Money} {catalog : EffectCatalog} {rule : Rule}

/-- A rule that links nothing but an effect adds up the effect alone. -/
theorem Rule.LinksOnly.exists_link (linksOnly : rule.LinksOnly catalog effect) (base : Money) :
    ∃ link, catalog link.key = some effect ∧
      ruleAdjustment catalog base rule = sumLinks catalog base (zeroOf base) [] [link] := by
  obtain ⟨link, links, found, usable⟩ := linksOnly
  refine ⟨link, found, ?_⟩
  have sorted : Pricing.sortedLinks rule = [link] := by
    rw [Pricing.sortedLinks, links, List.mergeSort_singleton]
  have whole : Pricing.danglingLinks catalog [link] = [] := by
    rw [Pricing.danglingLinks_eq_nil_iff]
    intro other member
    rw [List.mem_singleton.mp member]
    exact ⟨effect, found, usable⟩
  simp only [ruleAdjustment, sorted, whole]

/-- Where the effect comes to an amount in the currency and at the scale of the base, so does the
rule. -/
theorem Rule.LinksOnly.exists_computed (linksOnly : rule.LinksOnly catalog effect)
    (within : effect.StaysWithin base) :
    ∃ amount lines, ruleAdjustment catalog base rule = .ok (.computed amount lines) := by
  obtain ⟨amount, adjusted, currency, scale, _⟩ := within
  obtain ⟨link, found, same⟩ := linksOnly.exists_link base
  have added := Money.zeroOf_add currency scale
  refine ⟨amount, [⟨link.kind, link.effectId, link.priority, amount⟩], ?_⟩
  simp only [same, sumLinks, found, adjusted, added, List.nil_append]

private theorem Rule.LinksOnly.ruleAdjustment_eq_error (linksOnly : rule.LinksOnly catalog effect)
    (failed : effect.adjustment base = .error .overflow) :
    ruleAdjustment catalog base rule = .error .overflow := by
  obtain ⟨link, found, same⟩ := linksOnly.exists_link base
  simp only [same, sumLinks, found, failed]

/-- No price is formed of rules one of which can be computed against no amount. -/
theorem Pricing.resolve_of_unpriceable {matched : List CompiledRule} {compiled : CompiledRule}
    (member : compiled ∈ matched) (configured : compiled.rule.pricingConfig.isSome = true)
    (unpriceable : ∀ base, ruleAdjustment catalog base compiled.rule = .error .overflow)
    (base : Money) : (resolve matched base catalog).result = .error (.money .overflow) := by
  cases ended : (resolve matched base catalog).result with
  | error e => rw [resolve_onlyOverflows matched base catalog e ended]
  | ok price =>
    obtain ⟨config, has⟩ := Option.isSome_iff_exists.mp configured
    obtain ⟨run, _⟩ := eq_of_resolve ended
    have placed : (compiled, config) ∈
        rulesOf config.calculationPhase (Pricing.configured matched) :=
      List.mem_filter.mpr ⟨mem_configured_iff.mpr ⟨member, has⟩, beq_self_eq_true _⟩
    have among : config.calculationPhase ∈ Named.all (α := CalculationPhase) := by
      cases config.calculationPhase <;> decide
    obtain ⟨start, fate, computed⟩ := run.exists_fate among placed
    cases (unpriceable start).symm.trans computed

end Alone

namespace LinkedEffect

variable {effect : LinkedEffect} {rate : Rate} {base : Money}

/-- A share of at most the whole that has passed its check stays within every amount that is not
negative, and never fails a rule by itself, exactly when its rate has at most 38 places. Only a tax
rate can have more, and then it fails every price. -/
theorem harmless_iff (valid : effect.validate = .ok ()) (share : effect.rate? = some rate)
    (most : effect.kind = .taxRate → rate.value ≤ 1) (nonneg : base.isNegative = false) :
    (effect.Harmless base ↔ rate.scale.toNat ≤ 38) ∧
      (effect.kind ≠ .taxRate → rate.scale.toNat ≤ 38) ∧
      (38 < rate.scale.toNat → effect.FailsPrices) := by
  have bounds := (rate_of_validate valid share).2
  have at_most_whole : rate.value ≤ 1 := by
    by_cases isTax : effect.kind = .taxRate
    · exact most isTax
    · exact (bounds isTax).1
  refine ⟨⟨fun harmless => ?_, fun fits => ?_⟩, fun other => (bounds other).2, fun fine => ?_⟩
  · by_contra fine
    obtain ⟨amount, adjusted, _⟩ := harmless.within
    cases (adjustment_of_fine valid share (not_le.mp fine) base).symm.trans adjusted
  · have within := staysWithin_of_scale_le valid share at_most_whole fits
      (Money.isNegative_eq_false_iff.mp nonneg)
    exact ⟨within, fun _ _ linksOnly => linksOnly.exists_computed within⟩
  · intro catalog matched base compiled member configured linksOnly
    have fails := adjustment_of_fine valid share fine
    exact Pricing.resolve_of_unpriceable member configured
      (fun base => linksOnly.ruleAdjustment_eq_error (fails base)) base

/-- A tax of exactly the whole, at the finest scale at which an amount can say so. -/
def wholeTax : LinkedEffect := .taxRate ⟨"whole", "whole", ⟨1000000000000000000, 18⟩, none⟩

theorem harmless_wholeTax :
    wholeTax.validate = .ok () ∧ wholeTax.rate? = some ⟨1000000000000000000, 18⟩ ∧
      (wholeTax.kind = .taxRate → (⟨1000000000000000000, 18⟩ : Rate).value ≤ 1) ∧
      (Money.ofAmount Int64.maxValue .usd).isNegative = false ∧
      wholeTax.Harmless (.ofAmount Int64.maxValue .usd) := by
  have valid : wholeTax.validate = .ok () := rfl
  have most : (⟨1000000000000000000, 18⟩ : Rate).value ≤ 1 := by
    have scale : (18 : UInt32).toNat = 18 := rfl
    have amount : (1000000000000000000 : Int64).toInt = 10 ^ 18 := rfl
    rw [Rate.value, scale, amount]
    norm_num
  have nonneg : (Money.ofAmount Int64.maxValue .usd).isNegative = false := by decide
  exact ⟨valid, rfl, fun _ => most, nonneg,
    (harmless_iff valid rfl (fun _ => most) nonneg).1.mpr (by decide)⟩

/-- A tax of next to nothing, at a scale whose power of ten is out of range. -/
def hairlineTax : LinkedEffect := .taxRate ⟨"hairline", "hairline", ⟨1, 39⟩, none⟩

/-- A rule that links the effect with its id as a tax. -/
def hairlineRule : CompiledRule :=
  Pricing.sampleRule "levy" .compound .postDiscount [⟨.taxRate, "hairline", 0⟩]

theorem not_harmless_hairlineTax :
    hairlineTax.validate = .ok () ∧ hairlineTax.rate? = some ⟨1, 39⟩ ∧
      (⟨1, 39⟩ : Rate).value ≤ 1 ∧ (Money.ofAmount 1000 .usd).isNegative = false ∧
      ¬ hairlineTax.Harmless (.ofAmount 1000 .usd) ∧
      (Pricing.resolve [hairlineRule] (.ofAmount 1000 .usd) fun _ => some hairlineTax).result =
        .error (.money .overflow) := by
  have valid : hairlineTax.validate = .ok () := rfl
  have most : (⟨1, 39⟩ : Rate).value ≤ 1 := by
    have scale : (39 : UInt32).toNat = 39 := rfl
    have amount : (1 : Int64).toInt = 1 := rfl
    rw [Rate.value, scale, amount]
    norm_num
  have fails := adjustment_of_fine valid rfl (by decide : 38 < (39 : UInt32).toNat)
  refine ⟨valid, rfl, most, by decide, fun harmless => ?_, ?_⟩
  · obtain ⟨amount, adjusted, _⟩ := harmless.within
    cases (fails _).symm.trans adjusted
  · have linksOnly : hairlineRule.rule.LinksOnly (fun _ => some hairlineTax) hairlineTax :=
      ⟨_, rfl, rfl, rfl⟩
    exact Pricing.resolve_of_unpriceable (List.mem_singleton_self _) rfl
      (fun base => linksOnly.ruleAdjustment_eq_error (fails base)) _

end LinkedEffect

end RuleBook
