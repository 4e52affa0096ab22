import RuleBook.Proofs.Pricing.Exclusion
import RuleBook.Proofs.Pricing.Reports
import RuleBook.Proofs.Pricing.Stacking

/-! # Prices that are out of range

All amounts of a calculation are in the currency of the base amount, since a rule with an amount in
another one is left out. So a price is not formed for one reason only: a result on the way is out of
range (`Pricing.resolve_onlyOverflows`).
-/

namespace RuleBook

/-- The adjustment of an amount is in its currency. -/
theorem LinkedEffect.currency_of_adjustment {effect : LinkedEffect} {base amount : Money}
    (adjusted : effect.adjustment base = .ok amount) : amount.currency = base.currency := by
  have magnitude {value : AdjustmentValue} {amount : Money}
      (computed : value.magnitude base = .ok amount) : amount.currency = base.currency := by
    cases value with
    | percentage rate => exact Money.currency_of_multiply computed
    | fixed held =>
      simp only [AdjustmentValue.magnitude] at computed
      split at computed
      · rename_i same
        cases computed
        exact same
      · cases computed
  cases effect with
  | fee f => exact magnitude adjusted
  | taxRate t => exact Money.currency_of_multiply adjusted
  | promotion p =>
    simp only [adjustment, Except.bind_eq_ok_iff] at adjusted
    obtain ⟨discount, computed, capped, chosen, negated⟩ := adjusted
    obtain ⟨which, currency, _⟩ := Money.eq_of_min chosen
    rw [(Money.eq_of_negate negated).2.1, ← magnitude computed]
    rcases which with rfl | rfl
    · rfl
    · exact currency

namespace Noted

variable {α β : Type}

/-- A calculation with reports fails, if it fails, on a result out of range. -/
def OnlyOverflows (noted : Noted α) : Prop :=
  ∀ e, noted.result = .error e → e = .money .overflow

theorem OnlyOverflows.ok (value : α) (notes : List Diagnostic) :
    (⟨.ok value, notes⟩ : Noted α).OnlyOverflows := by
  intro e failed
  cases failed

theorem OnlyOverflows.ofMoney {result : Except MoneyError α}
    (only : RuleBook.OnlyOverflows result) : (Noted.ofMoney result).OnlyOverflows := by
  intro e failed
  cases result with
  | ok value => cases failed
  | error cause =>
    cases failed
    rw [only cause rfl]

theorem OnlyOverflows.bind {first : Noted α} {next : α → Noted β} (head : first.OnlyOverflows)
    (tail : ∀ value, first.result = .ok value → (next value).OnlyOverflows) :
    (first >>= next).OnlyOverflows := by
  intro e failed
  rw [Noted.result_bind] at failed
  cases ended : first.result with
  | error cause =>
    rw [ended] at failed
    cases failed
    exact head _ ended
  | ok value =>
    rw [ended] at failed
    exact tail value ended e failed

end Noted

namespace Pricing

section Rules

variable {catalog : EffectCatalog} {base adjustment : Money}

private theorem sumLinks_onlyOverflows {links : List EffectLink} {lines : List EffectLine}
    (same : adjustment.currency = base.currency) :
    OnlyOverflows (sumLinks catalog base adjustment lines links) := by
  induction links generalizing adjustment lines with
  | nil => exact .ok _
  | cons link rest ih =>
    simp only [sumLinks]
    split
    · exact ih same
    · rename_i effect _
      split
      · exact .ok _
      · rename_i e uncaught failed
        cases foreign : effect.foreignAmount? base.currency with
        | some amount =>
          cases (LinkedEffect.adjustment_of_foreign foreign).symm.trans failed
          exact (uncaught _ _ rfl).elim
        | none =>
          obtain rfl := LinkedEffect.adjustment_onlyOverflows foreign e failed
          exact .overflow
      · rename_i amount adjusted
        have currency := LinkedEffect.currency_of_adjustment adjusted
        split
        · rename_i e failed
          obtain rfl := Money.add_onlyOverflows (same.trans currency.symm) e failed
          exact .overflow
        · rename_i sum added
          exact ih ((Money.eq_of_add added).2.1.trans same)

/-- A rule can be computed, or left out, unless a result is out of range. -/
theorem ruleAdjustment_onlyOverflows (rule : Rule) :
    OnlyOverflows (ruleAdjustment catalog base rule) := by
  simp only [ruleAdjustment]
  split
  · exact sumLinks_onlyOverflows rfl
  · exact .ok _

end Rules

section Phases

variable {catalog : EffectCatalog} {start : Money} {rules all : List PricedRule}
  {state : PhaseState}

/-- The amounts of the state of a phase are in one currency. -/
structure PhaseState.IsIn (state : PhaseState) (currency : Currency) : Prop where
  compound : state.compound.currency = currency
  sequentialSum : state.sequentialSum.currency = currency
  choice : ∀ index best, state.choice = some (index, best) → best.currency = currency

theorem Stacked.isIn (stacked : Stacked catalog rules start state) :
    state.IsIn start.currency where
  compound := (Money.units_foldlM_add stacked.compound).1
  sequentialSum := (Money.units_foldlM_add stacked.sequential).1
  choice := by
    intro index best chosen
    have choice := stacked.choice
    rw [chosen] at choice
    cases choice with
    | made _ _ currency _ => exact currency

private theorem take_onlyOverflows {adjustment : Money} (isIn : state.IsIn start.currency)
    (currency : adjustment.currency = start.currency) (ruleId : String)
    (stacking : StackingBehavior) (lines : List EffectLine) :
    OnlyOverflows (state.take ruleId stacking adjustment lines) := by
  cases stacking with
  | compound =>
    exact .bind (Money.add_onlyOverflows (isIn.compound.trans currency.symm)) fun _ _ => .ok _
  | sequential =>
    exact .bind (Money.add_onlyOverflows (isIn.sequentialSum.trans currency.symm)) fun _ _ => .ok _
  | max =>
    refine .bind ?_ fun _ _ => .ok _
    cases chosen : state.choice with
    | none => exact .ok _
    | some choice =>
      obtain ⟨index, best⟩ := choice
      refine .bind (Money.abs_onlyOverflows _) fun size size_taken => ?_
      refine .bind (Money.abs_onlyOverflows _) fun bestSize best_taken => ?_
      refine .bind (Money.compare_onlyOverflows ?_) fun _ _ => .ok _
      rw [(Money.eq_of_abs size_taken).2.1, (Money.eq_of_abs best_taken).2.1, currency,
        isIn.choice index best chosen]

private theorem takeRules_onlyOverflows (stacked : Stacked catalog all start state)
    (among : ∀ rule ∈ rules, rule ∈ all) :
    (takeRules catalog start state rules).OnlyOverflows := by
  induction rules generalizing state with
  | nil => exact .ok _ _
  | cons rule rest ih =>
    obtain ⟨compiled, config⟩ := rule
    have others := fun rule member => among rule (List.mem_cons_of_mem _ member)
    refine .bind (.ofMoney (ruleAdjustment_onlyOverflows _)) fun fate adjusted => ?_
    have computed := Noted.ofMoney_eq_ok_iff.mp adjusted
    split
    · have currency := (currency_of_ruleAdjustment computed).trans
        (currency_baseFor stacked.isIn.compound config.stackingBehavior)
      refine .bind (.ofMoney (take_onlyOverflows stacked.isIn currency _ _ _)) fun next taken => ?_
      have step : Step catalog start (compiled, config) state next :=
        step_of_take computed (Noted.ofMoney_eq_ok_iff.mp taken)
      exact ih (stacked.step (among _ (List.mem_cons_self ..)) step) others
    · exact .bind (.ok _ _) fun _ _ => ih stacked others

private theorem finishPhase_onlyOverflows (isIn : state.IsIn start.currency)
    (phase : CalculationPhase) :
    OnlyOverflows (finishPhase phase start state) := by
  have chosen : (state.chosenAdjustment start).currency = start.currency := by
    unfold PhaseState.chosenAdjustment
    cases made : state.choice with
    | none => rfl
    | some choice => exact isIn.choice choice.1 choice.2 made
  have floor := currency_floorOf start
  refine .bind ?_ fun summed ended => ?_
  · refine .bind (Money.add_onlyOverflows (isIn.compound.trans isIn.sequentialSum.symm)) ?_
    intro part added
    refine Money.add_onlyOverflows ?_
    rw [(Money.eq_of_add added).2.1, isIn.compound, chosen]
  · have summed_currency : summed.currency = start.currency := by
      simp only [unclampedEnd, Except.bind_eq_ok_iff] at ended
      obtain ⟨part, first, second⟩ := ended
      rw [(Money.eq_of_add second).2.1, (Money.eq_of_add first).2.1, isIn.compound]
    refine .bind (.bind (Money.compare_onlyOverflows (summed_currency.trans floor.symm)) ?_)
      fun _ _ => .ok _
    intro order _
    split
    · exact .bind (Money.subtract_onlyOverflows (floor.trans summed_currency.symm)) fun _ _ => .ok _
    · exact .ok _

private theorem runPhases_onlyOverflows (phases : List CalculationPhase) :
    (runPhases catalog rules start phases).OnlyOverflows := by
  induction phases generalizing start with
  | nil => exact .ok _ _
  | cons phase rest ih =>
    rw [runPhases]
    split
    · exact ih
    · refine .bind (.bind ?_ fun state taken => ?_) fun _ _ => .bind ih fun _ _ => .ok _ _
      · exact takeRules_onlyOverflows (.of_start start) fun _ member => member
      · have stacked := (takeRules_eq_ok_iff.mp taken).stacked (.of_start start)
          fun _ member => member
        exact .ofMoney (finishPhase_onlyOverflows stacked.isIn phase)

/-- Phases end in the currency in which they start. -/
theorem PhasesRun.currency {phases : List CalculationPhase} {breakdowns : List PhaseBreakdown}
    (run : PhasesRun catalog rules start phases breakdowns) :
    (finalAmountOf start breakdowns).currency = start.currency := by
  induction run with
  | done _ => rfl
  | skip _ _ ih => exact ih
  | next rulesRun finished _ ih =>
    have stacked := rulesRun.stacked (.of_start _) fun _ member => member
    rw [finalAmountOf_cons, ih, finished.currency stacked.isIn.compound]

end Phases

/-- A price that is not formed is out of range. -/
theorem resolve_onlyOverflows (matched : List CompiledRule) (base : Money)
    (catalog : EffectCatalog) : (resolve matched base catalog).OnlyOverflows := by
  have calculated : (calculate matched base catalog).OnlyOverflows := by
    refine .bind (.ok _ _) fun _ _ => ?_
    refine .bind (runPhases_onlyOverflows _) fun phases ran => ?_
    refine .bind (.ofMoney (Money.subtract_onlyOverflows ?_)) fun _ _ => .ok _ _
    exact (phasesRun_of_runPhases ran).currency
  exact fun e failed => calculated e (resolve_eq_error_iff.mp failed)

end Pricing

end RuleBook
