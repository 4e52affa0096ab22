import RuleBook.Proofs.Pricing.Phase

/-! # Overdrawn running amounts

A promotion takes away at most the amount it is computed against, but the promotions of one rule
are all computed against the same amount and then added up. A compound rule with two promotions can
so leave a negative running amount, which the floor restores only at the end of the phase; a
compound rule in between is then computed against it. This is the only way in which a rule comes to
see a negative amount.
-/

namespace RuleBook

namespace LinkedEffect

/-- The sign of an amount is that of an effect: fees and taxes do not take away, and promotions do
not add. -/
def Signed (effect : LinkedEffect) (amount : Money) : Prop :=
  match effect.kind with
  | .promotion => amount.amount.toInt ≤ 0
  | .fee => 0 ≤ amount.amount.toInt
  | .taxRate => 0 ≤ amount.amount.toInt

variable {effect : LinkedEffect} {base amount : Money}

theorem magnitude_nonneg {value : AdjustmentValue} (valid : value.validate = .ok ())
    (nonneg : 0 ≤ base.amount.toInt) (computed : value.magnitude base = .ok amount) :
    0 ≤ amount.amount.toInt := by
  cases value with
  | percentage rate =>
    simp only [AdjustmentValue.validate, Except.bind_eq_ok_iff] at valid
    obtain ⟨whole, _, valid⟩ := valid
    split at valid
    · cases valid
    · rename_i within
      exact Money.multiply_nonneg (by omega) nonneg computed
  | fixed fee =>
    simp only [AdjustmentValue.validate] at valid
    split at valid
    · cases valid
    · rename_i within
      simp only [AdjustmentValue.magnitude] at computed
      split at computed <;> cases computed
      exact Money.isNegative_eq_false_iff.mp (Bool.eq_false_iff.mpr within)

/-- Against an amount that is not negative a valid effect has its sign, and takes away at most that
amount. -/
theorem signed_of_adjustment (valid : effect.validate = .ok ()) (nonneg : 0 ≤ base.amount.toInt)
    (adjusted : effect.adjustment base = .ok amount) :
    effect.Signed amount ∧ ∀ scale, base.scale.toNat ≤ scale → amount.scale.toNat ≤ scale →
      (if effect.kind = .promotion then -base.units scale else 0) ≤ amount.units scale := by
  cases effect with
  | fee fee =>
    have charged : 0 ≤ amount.amount.toInt := magnitude_nonneg valid nonneg adjusted
    exact ⟨charged, fun scale _ _ => Money.units_nonneg charged scale⟩
  | taxRate tax =>
    simp only [validate] at valid
    split at valid
    · cases valid
    · rename_i within
      have charged : 0 ≤ amount.amount.toInt :=
        Money.multiply_nonneg (not_lt.mp within) nonneg adjusted
      exact ⟨charged, fun scale _ _ => Money.units_nonneg charged scale⟩
  | promotion promotion =>
    simp only [adjustment, Money.isNegative_eq_false_iff.mpr nonneg, Bool.false_eq_true, if_false,
      Except.bind_eq_ok_iff] at adjusted
    obtain ⟨discount, computed, capped, chosen, negated⟩ := adjusted
    have discount_nonneg : 0 ≤ discount.amount.toInt := magnitude_nonneg valid nonneg computed
    obtain ⟨which, _, below⟩ := Money.eq_of_min chosen
    obtain ⟨opposite, currency, scale_eq⟩ := Money.eq_of_negate negated
    have capped_nonneg : 0 ≤ capped.amount.toInt := by
      rcases which with rfl | rfl <;> assumption
    refine ⟨?_, fun scale base_le amount_le => ?_⟩
    · change amount.amount.toInt ≤ 0
      omega
    · have units : amount.units scale = -capped.units scale := by
        rw [Money.units, Money.units, opposite, currency, scale_eq, neg_mul]
      have capped_le : capped.units scale ≤ base.units scale := by
        rcases which with rfl | rfl
        · exact below scale (scale_eq ▸ amount_le) base_le
        · exact le_rfl
      simp only [kind, if_true]
      omega

end LinkedEffect

/-- A line has the sign of the effect that it shows. -/
def EffectLine.IsSigned (catalog : EffectCatalog) (line : EffectLine) : Prop :=
  ∃ effect, catalog ⟨line.kind, line.effectId⟩ = some effect ∧ effect.Signed line.amount

namespace Pricing

variable {catalog : EffectCatalog}

/-- Every effect of a catalog has passed its check. -/
def IsValid (catalog : EffectCatalog) : Prop :=
  ∀ key effect, catalog key = some effect → effect.validate = .ok ()

/-- Whether a link leads to a promotion. -/
def isPromotionIn (catalog : EffectCatalog) (link : EffectLink) : Bool :=
  (catalog link.key).any fun effect => effect.kind == .promotion

section Rule

variable {base adjustment : Money} {lines : List EffectLine}

private theorem isSigned_of_lineOf (valid : IsValid catalog) (nonneg : 0 ≤ base.amount.toInt)
    {link : EffectLink} {line : EffectLine} (lineOf : LineOf catalog base link line) :
    line.IsSigned catalog := by
  obtain ⟨effect, found, adjusted⟩ := lineOf.found
  refine ⟨effect, ?_, (LinkedEffect.signed_of_adjustment (valid _ _ found) nonneg adjusted).1⟩
  rw [lineOf.kind, lineOf.effectId]
  exact found

/-- The lines of links take away at most as many times the amount as there are promotions. -/
theorem le_sum_units (valid : IsValid catalog) (nonneg : 0 ≤ base.amount.toInt)
    {links : List EffectLink} (each : List.Forall₂ (LineOf catalog base) links lines) {scale : Nat}
    (base_le : base.scale.toNat ≤ scale)
    (lines_le : ∀ line ∈ lines, line.amount.scale.toNat ≤ scale) :
    -((links.countP (isPromotionIn catalog) : Int) * base.units scale) ≤
      (lines.map fun line => line.amount.units scale).sum := by
  induction each with
  | nil => simp
  | @cons link line links lines lineOf _ ih =>
    obtain ⟨effect, found, adjusted⟩ := lineOf.found
    have least := (LinkedEffect.signed_of_adjustment (valid _ _ found) nonneg adjusted).2 scale
      base_le (lines_le line (List.mem_cons_self ..))
    have others := ih fun other member => lines_le other (List.mem_cons_of_mem _ member)
    have promotion : isPromotionIn catalog link = (effect.kind == .promotion) := by
      rw [isPromotionIn, found, Option.any_some]
    rw [List.map_cons, List.sum_cons, List.countP_cons, promotion]
    split at least
    · rename_i takes
      simp only [takes, beq_self_eq_true, if_true, Nat.cast_add, Nat.cast_one]
      linarith
    · rename_i gives
      simp only [beq_eq_false_iff_ne.mpr gives, Bool.false_eq_true, if_false, Nat.add_zero]
      linarith

/-- A rule that takes away more than the amount it is computed against, which is not negative,
links at least two promotions. -/
theorem two_le_countP_of_overdrawn (valid : IsValid catalog) (nonneg : 0 ≤ base.amount.toInt)
    {rule : Rule} {sum : Money}
    (computed : ruleAdjustment catalog base rule = .ok (.computed adjustment lines))
    (added : base.add adjustment = .ok sum) (overdrawn : sum.amount.toInt < 0) :
    2 ≤ rule.effects.countP (isPromotionIn catalog) := by
  obtain ⟨each, folded⟩ := eq_of_ruleAdjustment computed
  obtain ⟨_, _, _, amount⟩ := Money.eq_of_add added
  obtain ⟨_, _, lines_le, counted⟩ := Money.units_foldlM_add folded
  have own := Money.toNat_scale_of_add added
  have adjusted : adjustment.units sum.scale.toNat =
      (lines.map fun line => line.amount.units sum.scale.toNat).sum := by
    rw [counted _ (by omega), List.map_map]
    simp [Function.comp_def]
  have lines_le_sum : ∀ line ∈ lines, line.amount.scale.toNat ≤ sum.scale.toNat := by
    intro line member
    have le := lines_le line.amount (List.mem_map_of_mem member)
    omega
  have base_le : base.scale.toNat ≤ sum.scale.toNat := by omega
  have least := le_sum_units valid nonneg each base_le lines_le_sum
  have same_count : (sortedLinks rule).countP (isPromotionIn catalog) =
      rule.effects.countP (isPromotionIn catalog) := (List.mergeSort_perm _ _).countP_eq _
  have units_nonneg := Money.units_nonneg nonneg sum.scale.toNat
  by_contra few
  have most_one : ((sortedLinks rule).countP (isPromotionIn catalog) : Int) ≤ 1 := by omega
  have once : ((sortedLinks rule).countP (isPromotionIn catalog) : Int) *
      base.units sum.scale.toNat ≤ base.units sum.scale.toNat :=
    mul_le_of_le_one_left units_nonneg most_one
  omega

/-- Against an amount that is not negative every line of a rule has its sign. -/
theorem isSigned_of_mem (valid : IsValid catalog) (nonneg : 0 ≤ base.amount.toInt)
    {links : List EffectLink} (each : List.Forall₂ (LineOf catalog base) links lines)
    {line : EffectLine} (member : line ∈ lines) : line.IsSigned catalog := by
  obtain ⟨link, _, lineOf⟩ := exists_lineOf each member
  exact isSigned_of_lineOf valid nonneg lineOf

end Rule

section Run

variable {start : Money} {state mid final : PhaseState} {before after : List PricedRule}
  {rule : PricedRule}

/-- A compound rule takes away more than the running amount that it is handed, which is not
negative, while another compound rule is still to come. It links at least two promotions. -/
structure Overdraws (catalog : EffectCatalog) (running : Money) (rule : PricedRule)
    (after : List PricedRule) : Prop where
  stacking : rule.2.stackingBehavior = .compound
  handed : running.isNegative = false
  promotions : 2 ≤ rule.1.rule.effects.countP (isPromotionIn catalog)
  overdrawn : ∃ adjustment lines sum,
    ruleAdjustment catalog running rule.1.rule = .ok (.computed adjustment lines) ∧
      running.add adjustment = .ok sum ∧ sum.isNegative = true
  later : ∃ other ∈ after, other.2.stackingBehavior = .compound

/-- A step of a rule that is not compound leaves the running amount alone. -/
theorem Step.compound_eq {next : PhaseState} (step : Step catalog start rule state next)
    (other : rule.2.stackingBehavior ≠ .compound) : next.compound = state.compound := by
  cases step with
  | leftOut _ _ => rfl
  | compound stacking _ _ => exact (other stacking).elim
  | sequential _ _ _ => rfl
  | max _ _ _ => rfl

/-- A compound rule that is computed moves the running amount by its adjustment. -/
theorem Step.compound_eq_sum {next : PhaseState} (step : Step catalog start rule state next)
    (stacking : rule.2.stackingBehavior = .compound) {adjustment sum : Money}
    {lines : List EffectLine}
    (computed : ruleAdjustment catalog state.compound rule.1.rule =
      .ok (.computed adjustment lines))
    (added : state.compound.add adjustment = .ok sum) : next.compound = sum := by
  cases step with
  | leftOut excluded uncomputed =>
    rw [stacking] at excluded
    exact (uncomputed _ _ (Except.ok.inj (excluded.symm.trans computed))).elim
  | compound _ again summed =>
    obtain ⟨rfl, rfl⟩ := RuleAdjustment.computed.inj (Except.ok.inj (again.symm.trans computed))
    exact Except.ok.inj (summed.symm.trans added)
  | sequential other _ _ => rw [stacking] at other; cases other
  | max other _ _ => rw [stacking] at other; cases other

/-- While no compound rule overdraws, the running amount is not negative. -/
theorem Run.compound_nonneg (valid : IsValid catalog) (run : Run catalog start state before mid)
    (nonneg : state.compound.isNegative = false) (stacking : rule.2.stackingBehavior = .compound)
    (after : List PricedRule)
    (none_overdraws : ∀ earlier other later reached, before = earlier ++ other :: later →
      Run catalog start state earlier reached →
        ¬ Overdraws catalog reached.compound other (later ++ rule :: after)) :
    mid.compound.isNegative = false := by
  induction run with
  | done _ => exact nonneg
  | @next first rest state next mid step run ih =>
    refine ih ?_ fun earlier other later reached same reaches =>
      none_overdraws (first :: earlier) other later reached (by rw [same, List.cons_append])
        (.next step reaches)
    have fine := none_overdraws [] first rest state rfl (.done state)
    cases step with
    | leftOut _ _ => exact nonneg
    | sequential _ _ _ => exact nonneg
    | max _ _ _ => exact nonneg
    | compound first_stacking computed added =>
      by_contra negative
      rw [Bool.not_eq_false] at negative
      refine fine ⟨first_stacking, nonneg, ?_, ⟨_, _, _, computed, added, negative⟩, rule, by simp,
        stacking⟩
      exact two_le_countP_of_overdrawn valid (Money.isNegative_eq_false_iff.mp nonneg) computed added
        (Money.isNegative_iff.mp negative)

/-- A negative running amount is handed to the next compound rule. -/
theorem Run.exists_handed_negative (run : Run catalog start state after final)
    (negative : state.compound.isNegative = true)
    (later : ∃ other ∈ after, other.2.stackingBehavior = .compound) :
    ∃ before other rest reached, after = before ++ other :: rest ∧
      Run catalog start state before reached ∧ other.2.stackingBehavior = .compound ∧
        reached.compound.isNegative = true := by
  induction run with
  | done _ =>
    obtain ⟨other, member, _⟩ := later
    cases member
  | @next first rest state next final step run ih =>
    by_cases stacking : first.2.stackingBehavior = .compound
    · exact ⟨[], first, rest, state, rfl, .done state, stacking, negative⟩
    · obtain ⟨other, member, other_stacking⟩ := later
      have behind : other ∈ rest := by
        rcases List.mem_cons.mp member with rfl | member
        · exact (stacking other_stacking).elim
        · exact member
      have still : next.compound.isNegative = true := by rw [step.compound_eq stacking, negative]
      obtain ⟨before, handed, others, reached, rfl, reaches, found⟩ :=
        ih still ⟨other, behind, other_stacking⟩
      exact ⟨first :: before, handed, others, reached, rfl, .next step reaches, found⟩

/-- The running amount never comes to a smaller scale than the starting amount. -/
theorem Run.scale_le (run : Run catalog start (.start start) before mid) :
    start.scale.toNat ≤ mid.compound.scale.toNat := by
  refine run.preserves (fun reached => start.scale.toNat ≤ reached.compound.scale.toNat)
    (fun {rule state next} step le => ?_) (le_refl _)
  cases step with
  | leftOut _ _ => exact le
  | sequential _ _ _ => exact le
  | max _ _ _ => exact le
  | @compound adjustment running lines _ _ added =>
    have larger := Money.toNat_scale_of_add added
    change start.scale.toNat ≤ running.scale.toNat
    omega

/-- A phase from an amount that is not negative ends at one. -/
theorem Finished.ending_nonneg {breakdown : PhaseBreakdown}
    (run : Run catalog start (.start start) before final)
    (finished : Finished start final breakdown) (nonneg : start.isNegative = false) :
    breakdown.endingAmount.isNegative = false := by
  obtain ⟨part, summed, first, second, clamped⟩ := finished.ending
  have floor : floorOf start = zeroOf start := by simp [floorOf, nonneg]
  rcases eq_of_clamp clamped with ⟨ending, _, order, compared, above⟩ | ⟨ending, _⟩
  · obtain ⟨_, rfl⟩ := Money.eq_of_compare compared
    have scale_le := run.scale_le
    have part_scale := Money.toNat_scale_of_add first
    have summed_scale := Money.toNat_scale_of_add second
    have common : (max summed.scale (floorOf start).scale).toNat = summed.scale.toNat := by
      rw [Money.toNat_max, floor]
      change max summed.scale.toNat start.scale.toNat = _
      omega
    rw [common, Money.units_self, floor, units_zeroOf, Ne, compare_lt_iff_lt] at above
    rw [ending, Money.isNegative_eq_false_iff]
    exact not_lt.mp above
  · rw [ending, floor]
    rfl

/-- All phases from an amount that is not negative start at one. -/
theorem PhasesRun.starting_nonneg {rules : List PricedRule} {phases : List CalculationPhase}
    {breakdowns : List PhaseBreakdown} (run : PhasesRun catalog rules start phases breakdowns)
    (nonneg : start.isNegative = false) :
    ∀ breakdown ∈ breakdowns, breakdown.startingAmount.isNegative = false := by
  induction run with
  | done _ => simp
  | skip _ _ ih => exact ih nonneg
  | next rulesRun finished _ ih =>
    intro breakdown member
    rcases List.mem_cons.mp member with rfl | member
    · rw [finished.starting, nonneg]
    · exact ih (finished.ending_nonneg rulesRun nonneg) breakdown member

end Run

end Pricing

/-- In a phase a rule is reached in a state, with other rules still to come. -/
def PhaseBreakdown.Reaches (breakdown : PhaseBreakdown) (catalog : EffectCatalog)
    (rules : List Pricing.PricedRule) (rule : Pricing.PricedRule)
    (after : List Pricing.PricedRule) (state : Pricing.PhaseState) : Prop :=
  ∃ before, Pricing.rulesOf breakdown.phase rules = before ++ rule :: after ∧
    (Pricing.takeRules catalog breakdown.startingAmount (.start breakdown.startingAmount)
      before).result = .ok state

/-- The lines of a price, phase by phase and rule by rule. -/
def PriceAdjustment.lines (price : PriceAdjustment) : List EffectLine :=
  price.phases.flatMap fun breakdown => breakdown.contributions.flatMap RuleContribution.lines

/-- No rule of a price is handed a negative amount, and every line has the sign of its effect. -/
structure PriceAdjustment.StaysAboveZero (price : PriceAdjustment) (catalog : EffectCatalog)
    (rules : List Pricing.PricedRule) : Prop where
  handed : ∀ breakdown ∈ price.phases, ∀ rule after state,
    breakdown.Reaches catalog rules rule after state →
      (state.baseFor breakdown.startingAmount rule.2.stackingBehavior).isNegative = false
  signed : ∀ line ∈ price.lines, line.IsSigned catalog

namespace Pricing

variable {catalog : EffectCatalog}

namespace PhasesRun

variable {rules : List PricedRule} {start : Money} {phases : List CalculationPhase}
  {breakdowns : List PhaseBreakdown} {breakdown : PhaseBreakdown}

/-- Behind a rule that overdraws there is one that is handed a negative amount. -/
theorem exists_handed_negative (run : PhasesRun catalog rules start phases breakdowns)
    (member : breakdown ∈ breakdowns) {rule : PricedRule} {after : List PricedRule}
    {state : PhaseState} (reaches : breakdown.Reaches catalog rules rule after state)
    (overdraws : Overdraws catalog state.compound rule after) :
    ∃ other rest reached, breakdown.Reaches catalog rules other rest reached ∧
      (reached.baseFor breakdown.startingAmount other.2.stackingBehavior).isNegative = true := by
  obtain ⟨before, split, reached⟩ := reaches
  obtain ⟨final, rulesRun, _⟩ := run.exists_run member
  rw [split] at rulesRun
  obtain ⟨mid, first, others⟩ := Run.append_iff.mp rulesRun
  obtain rfl := first.unique (takeRules_eq_ok_iff.mp reached)
  cases others with
  | @next _ _ _ next _ step others =>
    obtain ⟨adjustment, lines, sum, computed, added, negative⟩ := overdraws.overdrawn
    have overdrawn : next.compound = sum := step.compound_eq_sum overdraws.stacking computed added
    obtain ⟨between, other, rest, handed, rfl, between_run, stacking, below⟩ :=
      others.exists_handed_negative (overdrawn ▸ negative) overdraws.later
    have handed_run := Run.append_iff.mpr ⟨mid, first, .next step between_run⟩
    refine ⟨other, rest, handed, ⟨before ++ rule :: between, ?_, takeRules_eq_ok_iff.mpr handed_run⟩,
      ?_⟩
    · simp [split]
    · rw [stacking]
      exact below

/-- From an amount that is not negative, a phase in which no rule overdraws hands no negative amount
to a rule. -/
theorem handed_nonneg (run : PhasesRun catalog rules start phases breakdowns)
    (nonneg : start.isNegative = false) (valid : IsValid catalog) (member : breakdown ∈ breakdowns)
    (none_overdraws : ∀ rule after state, breakdown.Reaches catalog rules rule after state →
      ¬ Overdraws catalog state.compound rule after)
    {rule : PricedRule} {after : List PricedRule} {state : PhaseState}
    (reaches : breakdown.Reaches catalog rules rule after state) :
    (state.baseFor breakdown.startingAmount rule.2.stackingBehavior).isNegative = false := by
  obtain ⟨before, split, reached⟩ := reaches
  have starting := run.starting_nonneg nonneg breakdown member
  cases stacking : rule.2.stackingBehavior with
  | sequential => exact starting
  | max => exact starting
  | compound =>
    refine (takeRules_eq_ok_iff.mp reached).compound_nonneg valid starting stacking after ?_
    rintro earlier other later mid rfl mid_run
    exact none_overdraws other (later ++ rule :: after) mid
      ⟨earlier, by simp [split], takeRules_eq_ok_iff.mpr mid_run⟩

/-- Where no rule is handed a negative amount every line has the sign of its effect. -/
theorem isSigned_of_handed (run : PhasesRun catalog rules start phases breakdowns)
    (valid : IsValid catalog) (member : breakdown ∈ breakdowns)
    (handed : ∀ rule after state, breakdown.Reaches catalog rules rule after state →
      (state.baseFor breakdown.startingAmount rule.2.stackingBehavior).isNegative = false)
    {contribution : RuleContribution} (contributed : contribution ∈ breakdown.contributions)
    {line : EffectLine} (shown : line ∈ contribution.lines) : line.IsSigned catalog := by
  obtain ⟨final, rulesRun, finished⟩ := run.exists_run member
  rw [finished.contributions] at contributed
  obtain ⟨marked, held, same⟩ := mem_finalContributions contributed
  rw [same] at shown
  rcases rulesRun.exists_of_mem_contributions held with at_start | reached
  · cases at_start
  · obtain ⟨before, rule, after, state, split, state_run, computed⟩ := reached
    have nonneg := handed rule after state ⟨before, split, takeRules_eq_ok_iff.mpr state_run⟩
    exact isSigned_of_mem valid (Money.isNegative_eq_false_iff.mp nonneg)
      (eq_of_ruleAdjustment computed).1 shown

end PhasesRun

/-- A price from an amount that is not negative stays above zero exactly when no compound rule
overdraws its running amount before another compound rule. -/
theorem staysAboveZero_iff {matched : List CompiledRule} {base : Money} {price : PriceAdjustment}
    (nonneg : base.isNegative = false) (valid : IsValid catalog)
    (priced : (resolve matched base catalog).result = .ok price) :
    price.StaysAboveZero catalog (configured matched) ↔
      ¬ ∃ breakdown ∈ price.phases, ∃ rule after state,
        breakdown.Reaches catalog (configured matched) rule after state ∧
          Overdraws catalog state.compound rule after := by
  obtain ⟨run, _⟩ := eq_of_resolve priced
  constructor
  · rintro above ⟨breakdown, member, rule, after, state, reaches, overdraws⟩
    obtain ⟨other, rest, reached, other_reaches, negative⟩ :=
      run.exists_handed_negative member reaches overdraws
    have fine := above.handed breakdown member other rest reached other_reaches
    exact Bool.false_ne_true (fine.symm.trans negative)
  · intro none_overdraws
    have handed : ∀ breakdown ∈ price.phases, ∀ rule after state,
        breakdown.Reaches catalog (configured matched) rule after state →
          (state.baseFor breakdown.startingAmount rule.2.stackingBehavior).isNegative = false := by
      intro breakdown member rule after state reaches
      refine run.handed_nonneg nonneg valid member ?_ reaches
      intro other rest reached other_reaches overdraws
      exact none_overdraws ⟨breakdown, member, other, rest, reached, other_reaches, overdraws⟩
    refine ⟨handed, fun line member => ?_⟩
    obtain ⟨breakdown, member, shown⟩ := List.mem_flatMap.mp member
    obtain ⟨contribution, contributed, shown⟩ := List.mem_flatMap.mp shown
    exact run.isSigned_of_handed valid member (handed breakdown member) contributed shown

theorem isValid_sampleCatalog : IsValid sampleCatalog := by
  rintro ⟨kind, id⟩ effect found
  cases kind <;> cases found <;> rfl

/-- Compound rules with one promotion each, and a tax behind them. -/
def chainedRules : List CompiledRule :=
  [sampleRule "spring" .compound .preDiscount [⟨.promotion, "spring", 0⟩],
    sampleRule "summer" .compound .preDiscount [⟨.promotion, "summer", 0⟩],
    sampleRule "tax" .compound .preDiscount [⟨.taxRate, "tax", 0⟩]]

theorem staysAboveZero_chainedRules : ∃ price,
    (Money.ofAmount 1000 .usd).isNegative = false ∧ IsValid sampleCatalog ∧
      (resolve chainedRules (.ofAmount 1000 .usd) sampleCatalog).result = .ok price ∧
      price.StaysAboveZero sampleCatalog (configured chainedRules) := by
  have nonneg : (Money.ofAmount 1000 .usd).isNegative = false := by decide
  have succeeds : (resolve chainedRules (.ofAmount 1000 .usd) sampleCatalog).result.isOk = true := by
    decide +kernel
  have single : ∀ rule ∈ configured chainedRules,
      rule.1.rule.effects.countP (isPromotionIn sampleCatalog) ≤ 1 := by decide +kernel
  obtain ⟨price, priced⟩ := Except.exists_of_isOk succeeds
  refine ⟨price, nonneg, isValid_sampleCatalog, priced,
    (staysAboveZero_iff nonneg isValid_sampleCatalog priced).mpr ?_⟩
  rintro ⟨breakdown, _, rule, after, state, ⟨before, split, _⟩, overdraws⟩
  have reached : rule ∈ rulesOf breakdown.phase (configured chainedRules) := by simp [split]
  have few := single rule (List.mem_of_mem_filter reached)
  have many := overdraws.promotions
  omega

/-- A compound rule with two promotions, and a tax behind it. -/
def overdrawingRules : List CompiledRule :=
  [sampleRule "deal" .compound .preDiscount [⟨.promotion, "spring", 0⟩, ⟨.promotion, "summer", 0⟩],
    sampleRule "tax" .compound .preDiscount [⟨.taxRate, "tax", 0⟩]]

private theorem lines_overdrawingRules :
    (resolve overdrawingRules (.ofAmount 1000 .usd) sampleCatalog).result.map
      PriceAdjustment.lines =
        .ok [⟨.promotion, "spring", 0, .ofAmount (-600) .usd⟩,
          ⟨.promotion, "summer", 0, .ofAmount (-600) .usd⟩,
          ⟨.taxRate, "tax", 0, .ofAmount (-17) .usd⟩] := by
  have rules : rulesOf .preDiscount (configured overdrawingRules) =
      overdrawingRules.map (·, ⟨.compound, .preDiscount⟩) := rfl
  have others : rulesOf .postDiscount (configured overdrawingRules) = [] := rfl
  simp only [resolve, result_calculate, Named.all, runPhases, rules, others]
  simp only [overdrawingRules, List.map_cons, List.map_nil, runPhase, takeRules, ruleAdjustment,
    sortedLinks_eq_insertionSort]
  decide +kernel

/-- A price does not always stay above zero: behind an overdrawing rule a tax is negative. -/
theorem not_staysAboveZero_overdrawingRules : ∃ price,
    (Money.ofAmount 1000 .usd).isNegative = false ∧ IsValid sampleCatalog ∧
      (resolve overdrawingRules (.ofAmount 1000 .usd) sampleCatalog).result = .ok price ∧
      ¬ price.StaysAboveZero sampleCatalog (configured overdrawingRules) := by
  have lines := lines_overdrawingRules
  cases priced : (resolve overdrawingRules (.ofAmount 1000 .usd) sampleCatalog).result with
  | error e =>
    rw [priced] at lines
    cases lines
  | ok price =>
    rw [priced] at lines
    refine ⟨price, by decide, isValid_sampleCatalog, rfl, fun above => ?_⟩
    have tax : (⟨.taxRate, "tax", 0, .ofAmount (-17) .usd⟩ : EffectLine) ∈ price.lines := by
      rw [Except.ok.inj lines]
      simp
    obtain ⟨effect, found, signed⟩ := above.signed _ tax
    cases found
    have negative : (Money.ofAmount (-17) .usd).amount.toInt < 0 := by decide
    exact absurd signed (not_le.mpr negative)

end Pricing

end RuleBook
