import RuleBook.Proofs.Pricing.Overflow

/-! # The order of links

A rule adds up its effects in the order in which they are shown, which the priorities of its links
decide. The total does not depend on this order (`Pricing.computed_of_relinked`), but whether it can
be formed does: a sum on the way may leave the range of amounts in one order only, and an overflow
may come before an amount in another currency, for which the rule is left out, or behind it. So
matched rules and their twins, with the links in another order, come to the same price unless a rule
is reached whose twin overruns there.
-/

namespace RuleBook

/-- Two rules link the same effects, in whatever order and with whatever priorities, and differ in
nothing else. -/
structure CompiledRule.Relinked (a b : CompiledRule) : Prop where
  others : b = { a with rule := { a.rule with effects := b.rule.effects } }
  links : (a.rule.effects.map EffectLink.key).Perm (b.rule.effects.map EffectLink.key)

/-- The effect that a line shows, and what it does. -/
def EffectLine.charge (line : EffectLine) : EffectRef × Money :=
  (⟨line.kind, line.effectId⟩, line.amount)

/-- Two contributions differ at most in the order and the priorities of their lines. -/
structure RuleContribution.SameButLines (a b : RuleContribution) : Prop where
  ruleId : a.ruleId = b.ruleId
  stackingBehavior : a.stackingBehavior = b.stackingBehavior
  adjustment : a.adjustment = b.adjustment
  applied : a.applied = b.applied
  lines : (a.lines.map EffectLine.charge).Perm (b.lines.map EffectLine.charge)

/-- Two phases differ at most in the order and the priorities of the lines that they show. -/
structure PhaseBreakdown.SameButLines (a b : PhaseBreakdown) : Prop where
  phase : a.phase = b.phase
  startingAmount : a.startingAmount = b.startingAmount
  endingAmount : a.endingAmount = b.endingAmount
  contributions : List.Forall₂ RuleContribution.SameButLines a.contributions b.contributions
  floorAdjustment : a.floorAdjustment = b.floorAdjustment

/-- Two prices differ at most in the order and the priorities of the lines that they show. -/
structure PriceAdjustment.SameButLines (a b : PriceAdjustment) : Prop where
  baseAmount : a.baseAmount = b.baseAmount
  finalAmount : a.finalAmount = b.finalAmount
  totalAdjustment : a.totalAdjustment = b.totalAdjustment
  phases : List.Forall₂ PhaseBreakdown.SameButLines a.phases b.phases
  isPartial : a.isPartial = b.isPartial

/-- Changing an item in the same place of two lists keeps what holds between their items. -/
theorem forall₂_modify {α : Type} {related : α → α → Prop} {change : α → α} {items others : List α}
    (keeps : ∀ a b, related a b → related (change a) (change b))
    (each : List.Forall₂ related items others) (index : Nat) :
    List.Forall₂ related (items.modify index change) (others.modify index change) := by
  induction each generalizing index with
  | nil => simp
  | cons first rest ih =>
    cases index with
    | zero => exact .cons (keeps _ _ first) rest
    | succ index => exact .cons first (ih index)

namespace CompiledRule.Relinked

variable {a b : CompiledRule}

theorem symm (relinked : a.Relinked b) : b.Relinked a where
  others := by rw [relinked.others]
  links := relinked.links.symm

theorem id_eq (relinked : a.Relinked b) : b.id = a.id := by
  rw [relinked.others]
  rfl

theorem pricingConfig (relinked : a.Relinked b) :
    b.rule.pricingConfig = a.rule.pricingConfig := by
  rw [relinked.others]

/-- Both rules link the same keys. -/
theorem exists_link (relinked : a.Relinked b) (holds : EffectRef → Prop) :
    (∃ link ∈ a.rule.effects, holds link.key) ↔ ∃ link ∈ b.rule.effects, holds link.key := by
  have same := fun key => relinked.links.mem_iff (a := key)
  simp only [List.mem_map] at same
  constructor
  · rintro ⟨link, member, held⟩
    obtain ⟨twin, present, key⟩ := (same link.key).mp ⟨link, member, rfl⟩
    exact ⟨twin, present, key ▸ held⟩
  · rintro ⟨link, member, held⟩
    obtain ⟨twin, present, key⟩ := (same link.key).mpr ⟨link, member, rfl⟩
    exact ⟨twin, present, key ▸ held⟩

end CompiledRule.Relinked

namespace Pricing

section Rules

variable {catalog : EffectCatalog} {base adjustment : Money} {currency : Currency}
  {a b : CompiledRule}

/-- Adding up the effects of links one after the other overruns the range of amounts: the amount of
a link, or the sum with it, is out of range. -/
inductive Overruns (catalog : EffectCatalog) (base : Money) : Money → List EffectLink → Prop
  | here {sum : Money} {link : EffectLink} {rest : List EffectLink} {effect : LinkedEffect}
      (found : catalog link.key = some effect)
      (exceeds : (effect.adjustment base >>= sum.add) = .error .overflow) :
      Overruns catalog base sum (link :: rest)
  | later {sum amount next : Money} {link : EffectLink} {rest : List EffectLink}
      {effect : LinkedEffect} (found : catalog link.key = some effect)
      (adjusted : effect.adjustment base = .ok amount) (added : sum.add amount = .ok next)
      (overruns : Overruns catalog base next rest) : Overruns catalog base sum (link :: rest)

/-- A rule without dangling links overruns the range of amounts when it adds up its effects in the
order in which they are shown. -/
structure RuleOverruns (catalog : EffectCatalog) (base : Money) (rule : Rule) : Prop where
  whole : ¬ HasDangling catalog rule
  overruns : Overruns catalog base (zeroOf base) (sortedLinks rule)

private theorem sumLinks_eq_error_iff {links : List EffectLink} {lines : List EffectLine}
    (found : ∀ link ∈ links, (catalog link.key).isSome = true) :
    sumLinks catalog base adjustment lines links = .error .overflow ↔
      Overruns catalog base adjustment links := by
  induction links generalizing adjustment lines with
  | nil =>
    constructor
    · intro failed
      cases failed
    · intro overruns
      cases overruns
  | cons link rest ih =>
    obtain ⟨effect, held⟩ := Option.isSome_iff_exists.mp (found link (List.mem_cons_self ..))
    have others := fun link member => found link (List.mem_cons_of_mem _ member)
    simp only [sumLinks, held]
    constructor
    · intro failed
      split at failed
      · cases failed
      · rename_i adjusted
        cases failed
        exact .here held (by rw [adjusted]; rfl)
      · rename_i amount adjusted
        split at failed
        · rename_i added
          cases failed
          exact .here held (by rw [adjusted]; exact added)
        · rename_i next added
          exact .later held adjusted added ((ih others).mp failed)
    · intro overruns
      cases overruns with
      | here found exceeds =>
        obtain rfl := Option.some.inj (held.symm.trans found)
        cases adjusted : effect.adjustment base with
        | error e =>
          rw [adjusted] at exceeds
          cases exceeds
          rfl
        | ok amount =>
          have added : adjustment.add amount = .error .overflow := by
            rw [adjusted] at exceeds
            exact exceeds
          simp only [added]
      | later found adjusted added overruns =>
        obtain rfl := Option.some.inj (held.symm.trans found)
        simp only [adjusted, added]
        exact (ih others).mpr overruns

/-- A rule fails exactly when it overruns. -/
theorem ruleAdjustment_eq_error_iff {rule : Rule} :
    ruleAdjustment catalog base rule = .error .overflow ↔ RuleOverruns catalog base rule := by
  simp only [ruleAdjustment]
  cases dangling : danglingLinks catalog (sortedLinks rule) with
  | nil =>
    have whole : ¬ HasDangling catalog rule := by simp [hasDangling_iff, dangling]
    have found : ∀ link ∈ sortedLinks rule, (catalog link.key).isSome = true := by
      intro link member
      obtain ⟨effect, found, _⟩ := danglingLinks_eq_nil_iff.mp dangling link member
      rw [found, Option.isSome_some]
    refine (sumLinks_eq_error_iff found).trans ?_
    exact ⟨fun overruns => ⟨whole, overruns⟩, RuleOverruns.overruns⟩
  | cons link rest =>
    have linked : HasDangling catalog rule := by simp [hasDangling_iff, dangling]
    constructor
    · intro failed
      cases failed
    · intro overruns
      exact (overruns.whole linked).elim

/-- What a link comes to by its key. -/
def charge? (catalog : EffectCatalog) (base : Money) (key : EffectRef) :
    Option (EffectRef × Money) :=
  (catalog key).bind fun effect => (effect.adjustment base).toOption.map fun amount => (key, amount)

/-- What the lines of links show depends on the keys of the links only. -/
theorem map_charge_eq {links : List EffectLink} {lines : List EffectLine}
    (each : List.Forall₂ (LineOf catalog base) links lines) :
    lines.map EffectLine.charge = (links.map EffectLink.key).filterMap (charge? catalog base) := by
  induction each with
  | nil => rfl
  | @cons link line _ _ first _ ih =>
    obtain ⟨kind, id, _, effect, found, adjusted⟩ := first
    have charged : charge? catalog base link.key = some line.charge := by
      rw [charge?, found, Option.bind_some, adjusted, EffectLine.charge, kind, id]
      rfl
    rw [List.map_cons, List.map_cons, List.filterMap_cons, charged, ih]

private theorem hasDangling_relinked (relinked : a.Relinked b) (catalog : EffectCatalog) :
    HasDangling catalog a.rule ↔ HasDangling catalog b.rule :=
  relinked.exists_link fun key => isUsableIn catalog ⟨key.kind, key.id, 0⟩ = false

private theorem hasForeign_relinked (relinked : a.Relinked b) (catalog : EffectCatalog)
    (currency : Currency) :
    HasForeign catalog currency a.rule ↔ HasForeign catalog currency b.rule :=
  relinked.exists_link fun key => ∃ effect, catalog key = some effect ∧
    ∃ amount, effect.fixedAmount? = some amount ∧ amount.currency ≠ currency

/-- Whether a rule takes part does not depend on the order of its links. -/
theorem takesPart_relinked (relinked : a.Relinked b) :
    takesPart catalog currency a = takesPart catalog currency b := by
  have dangling := hasDangling_relinked relinked catalog
  have foreign := hasForeign_relinked relinked catalog currency
  rw [takesPart, takesPart]
  cases reported catalog currency a with
  | dangling linked _ report =>
    cases reported catalog currency b with
    | dangling _ _ other => rw [report, other]; rfl
    | foreign whole _ _ _ => exact (whole (dangling.mp linked)).elim
    | nothing whole _ _ => exact (whole (dangling.mp linked)).elim
  | foreign whole linked _ report =>
    cases reported catalog currency b with
    | dangling linked _ _ => exact (whole (dangling.mpr linked)).elim
    | foreign _ _ _ other => rw [report, other]; rfl
    | nothing _ native _ => exact (native (foreign.mp linked)).elim
  | nothing whole native report =>
    cases reported catalog currency b with
    | dangling linked _ _ => exact (whole (dangling.mpr linked)).elim
    | foreign _ linked _ _ => exact (native (foreign.mpr linked)).elim
    | nothing _ _ other => rw [report, other]

/-- Where a rule can be computed in one order of its links, it comes to the same in every other
order in which it does not fail. -/
theorem computed_of_relinked (relinked : a.Relinked b) {lines : List EffectLine}
    {fate : RuleAdjustment}
    (computed : ruleAdjustment catalog base a.rule = .ok (.computed adjustment lines))
    (ended : ruleAdjustment catalog base b.rule = .ok fate) :
    ∃ twins, fate = .computed adjustment twins ∧
      (lines.map EffectLine.charge).Perm (twins.map EffectLine.charge) := by
  have unreported : fate.diagnostic? b.id = none := by
    have partakes : takesPart catalog base.currency a = true := by
      rw [takesPart, ← diagnostic?_ruleAdjustment computed]
      rfl
    rw [takesPart_relinked relinked, takesPart, ← diagnostic?_ruleAdjustment ended] at partakes
    exact Option.isNone_iff_eq_none.mp partakes
  obtain ⟨total, twins, rfl⟩ := diagnostic?_eq_none_iff.mp unreported
  obtain ⟨each, summed⟩ := eq_of_ruleAdjustment computed
  obtain ⟨eachTwin, summedTwin⟩ := eq_of_ruleAdjustment ended
  have links : ((sortedLinks a.rule).map EffectLink.key).Perm
      ((sortedLinks b.rule).map EffectLink.key) :=
    ((List.mergeSort_perm _ _).map _).trans
      (relinked.links.trans ((List.mergeSort_perm _ _).map _).symm)
  have charges : (lines.map EffectLine.charge).Perm (twins.map EffectLine.charge) := by
    rw [map_charge_eq each, map_charge_eq eachTwin]
    exact links.filterMap _
  have amounts : (lines.map EffectLine.amount).Perm (twins.map EffectLine.amount) := by
    have amounts := charges.map Prod.snd
    rwa [List.map_map, List.map_map] at amounts
  exact ⟨twins, by rw [Money.foldlM_add_eq_of_perm amounts summed summedTwin], charges⟩

/-- A rule that does not overrun is computed or left out. -/
theorem not_ruleOverruns_iff {rule : Rule} : ¬ RuleOverruns catalog base rule ↔
    ∃ fate, ruleAdjustment catalog base rule = .ok fate := by
  rw [← ruleAdjustment_eq_error_iff]
  cases ended : ruleAdjustment catalog base rule with
  | ok fate => simp
  | error e => simp [ruleAdjustment_onlyOverflows rule e ended]

end Rules

section Runs

variable {catalog : EffectCatalog} {start : Money} {rule twin : PricedRule}
  {rules twins : List PricedRule} {state other next final : PhaseState}

/-- Two rules that are stacked in the same way, the one with the links of the other in another
order. -/
structure PricedRule.Relinked (rule twin : PricedRule) : Prop where
  compiled : rule.1.Relinked twin.1
  config : rule.2 = twin.2

/-- Two states of a phase differ at most in the order and the priorities of lines. -/
structure PhaseState.SameButLines (a b : PhaseState) : Prop where
  compound : a.compound = b.compound
  sequentialSum : a.sequentialSum = b.sequentialSum
  choice : a.choice = b.choice
  contributions : List.Forall₂ RuleContribution.SameButLines a.contributions b.contributions

/-- Taking in rules reaches one whose twin overruns the range of amounts. -/
inductive TwinOverruns (catalog : EffectCatalog) (start : Money) :
    PhaseState → List PricedRule → List PricedRule → Prop
  | here {state : PhaseState} {rule twin : PricedRule} {rules twins : List PricedRule}
      (overruns : RuleOverruns catalog (state.baseFor start rule.2.stackingBehavior) twin.1.rule) :
      TwinOverruns catalog start state (rule :: rules) (twin :: twins)
  | later {state next : PhaseState} {rule twin : PricedRule} {rules twins : List PricedRule}
      (step : Step catalog start rule state next)
      (overruns : TwinOverruns catalog start next rules twins) :
      TwinOverruns catalog start state (rule :: rules) (twin :: twins)

namespace PhaseState.SameButLines

theorem baseFor (same : state.SameButLines other) (stacking : StackingBehavior) :
    other.baseFor start stacking = state.baseFor start stacking := by
  cases stacking with
  | compound => exact same.compound.symm
  | sequential => rfl
  | max => rfl

theorem concat (same : state.SameButLines other) {a b : RuleContribution}
    (added : a.SameButLines b) : List.Forall₂ RuleContribution.SameButLines
      (state.contributions ++ [a]) (other.contributions ++ [b]) :=
  List.rel_append same.contributions (.cons added .nil)

theorem finalContributions (same : state.SameButLines other) :
    List.Forall₂ RuleContribution.SameButLines state.finalContributions
      other.finalContributions := by
  rw [PhaseState.finalContributions, PhaseState.finalContributions, ← same.choice]
  cases state.choice with
  | none => exact same.contributions
  | some choice =>
    exact forall₂_modify (fun _ _ same => ⟨same.ruleId, same.stackingBehavior, same.adjustment, rfl,
      same.lines⟩) same.contributions choice.1

end PhaseState.SameButLines

/-- A rule that takes a step does not overrun. -/
theorem Step.not_overruns (step : Step catalog start rule state next) :
    ¬ RuleOverruns catalog (state.baseFor start rule.2.stackingBehavior) rule.1.rule :=
  not_ruleOverruns_iff.mpr step.exists_fate

theorem Step.unique {second : PhaseState} (step : Step catalog start rule state next)
    (again : Step catalog start rule state second) : next = second :=
  (Run.next step (.done next)).unique (.next again (.done second))

/-- The twin of a rule takes the same step unless it overruns. -/
theorem Step.exists_twin (step : Step catalog start rule state next) (relinked : rule.Relinked twin)
    (same : state.SameButLines other)
    (fits : ¬ RuleOverruns catalog (state.baseFor start rule.2.stackingBehavior) twin.1.rule) :
    ∃ otherNext, Step catalog start twin other otherNext ∧ next.SameButLines otherNext := by
  obtain ⟨fate, ended⟩ := not_ruleOverruns_iff.mp fits
  have config := relinked.config
  cases step with
  | leftOut computed uncomputed =>
    refine ⟨other, .leftOut (by rw [same.baseFor, ← config]; exact ended) ?_, same⟩
    rintro adjustment lines rfl
    obtain ⟨_, excluded, _⟩ := computed_of_relinked relinked.compiled.symm ended computed
    exact uncomputed _ _ excluded
  | @compound adjustment running lines stacking computed added =>
    rw [stacking] at ended
    obtain ⟨twinLines, rfl, charges⟩ := computed_of_relinked relinked.compiled computed ended
    have base : state.compound = other.compound := same.compound
    refine ⟨_, .compound (config ▸ stacking) (base ▸ ended) (base ▸ added), rfl,
      same.sequentialSum, same.choice, same.concat ⟨?_, rfl, rfl, rfl, charges⟩⟩
    exact relinked.compiled.id_eq.symm
  | @sequential adjustment sum lines stacking computed added =>
    rw [stacking] at ended
    obtain ⟨twinLines, rfl, charges⟩ := computed_of_relinked relinked.compiled computed ended
    refine ⟨_, .sequential (config ▸ stacking) ended (same.sequentialSum ▸ added), same.compound,
      rfl, same.choice, same.concat ⟨?_, rfl, rfl, rfl, charges⟩⟩
    exact relinked.compiled.id_eq.symm
  | @max adjustment lines wins stacking computed compared =>
    rw [stacking] at ended
    obtain ⟨twinLines, rfl, charges⟩ := computed_of_relinked relinked.compiled computed ended
    refine ⟨_, .max (config ▸ stacking) ended (same.choice ▸ compared), same.compound,
      same.sequentialSum, ?_, same.concat ⟨?_, rfl, rfl, rfl, charges⟩⟩
    · rw [same.contributions.length_eq, same.choice]
    · exact relinked.compiled.id_eq.symm

/-- A rule and its twin that both take a step come to the same. -/
theorem Step.sameButLines {otherNext : PhaseState} (step : Step catalog start rule state next)
    (twinStep : Step catalog start twin other otherNext) (relinked : rule.Relinked twin)
    (same : state.SameButLines other) : next.SameButLines otherNext := by
  have fits := twinStep.not_overruns
  rw [same.baseFor, ← relinked.config] at fits
  obtain ⟨_, again, same⟩ := step.exists_twin relinked same fits
  exact again.unique twinStep ▸ same

/-- Rules and their twins that both run to an end come to the same. -/
theorem Run.sameButLines {otherFinal : PhaseState} (run : Run catalog start state rules final)
    (twinRun : Run catalog start other twins otherFinal)
    (relinked : List.Forall₂ PricedRule.Relinked rules twins) (same : state.SameButLines other) :
    final.SameButLines otherFinal := by
  induction run generalizing other twins with
  | done _ =>
    cases relinked
    cases twinRun
    exact same
  | next step _ ih =>
    cases relinked with
    | cons first rest =>
      cases twinRun with
      | next twinStep twinRun => exact ih twinRun rest (step.sameButLines twinStep first same)

/-- The twins of rules that run to an end do so too, unless one of them overruns where it is
reached. -/
theorem Run.exists_twin_iff (run : Run catalog start state rules final)
    (relinked : List.Forall₂ PricedRule.Relinked rules twins) (same : state.SameButLines other) :
    (∃ otherFinal, Run catalog start other twins otherFinal) ↔
      ¬ TwinOverruns catalog start state rules twins := by
  induction run generalizing other twins with
  | done _ =>
    cases relinked
    refine ⟨fun _ overruns => ?_, fun _ => ⟨other, .done other⟩⟩
    cases overruns
  | @next rule rest state next final step run ih =>
    cases relinked with
    | cons first rest =>
      constructor
      · rintro ⟨otherFinal, twinRun⟩ overruns
        cases twinRun with
        | next twinStep twinRun =>
          cases overruns with
          | here overruns =>
            rw [← same.baseFor, first.config] at overruns
            exact twinStep.not_overruns overruns
          | later again overruns =>
            obtain rfl := step.unique again
            exact (ih rest (step.sameButLines twinStep first same)).mp ⟨_, twinRun⟩ overruns
      · intro fits
        obtain ⟨otherNext, twinStep, same⟩ :=
          step.exists_twin first same fun overruns => fits (.here overruns)
        obtain ⟨otherFinal, twinRun⟩ := (ih rest same).mpr fun overruns =>
          fits (.later step overruns)
        exact ⟨otherFinal, .next twinStep twinRun⟩

end Runs

section Phases

variable {catalog : EffectCatalog} {start : Money} {rules twins : List PricedRule}
  {state other : PhaseState} {phase : CalculationPhase} {phases : List CalculationPhase}
  {breakdown : PhaseBreakdown} {breakdowns : List PhaseBreakdown}

/-- A phase reaches a rule whose twin overruns the range of amounts. -/
def TwinOverrunsIn (catalog : EffectCatalog) (rules twins : List PricedRule)
    (breakdown : PhaseBreakdown) : Prop :=
  TwinOverruns catalog breakdown.startingAmount (.start breakdown.startingAmount)
    (rulesOf breakdown.phase rules) (rulesOf breakdown.phase twins)

/-- States that differ in lines only are closed alike. -/
theorem PhaseState.SameButLines.finishPhase (same : state.SameButLines other)
    (finished : finishPhase phase start state = .ok breakdown) :
    ∃ twin, Pricing.finishPhase phase start other = .ok twin ∧ breakdown.SameButLines twin := by
  have chosen : other.chosenAdjustment start = state.chosenAdjustment start := by
    rw [PhaseState.chosenAdjustment, PhaseState.chosenAdjustment, same.choice]
  have summed : unclampedEnd start other = unclampedEnd start state := by
    rw [unclampedEnd, unclampedEnd, same.compound, same.sequentialSum, chosen]
  simp only [Pricing.finishPhase, Except.bind_eq_ok_iff] at finished
  obtain ⟨sum, ended, ⟨ending, floor⟩, clamped, shown⟩ := finished
  cases shown
  refine ⟨⟨phase, start, ending, other.finalContributions, floor⟩, ?_, rfl, rfl, rfl,
    same.finalContributions, rfl⟩
  rw [← summed] at ended
  simp only [Pricing.finishPhase, ended, clamped, bind, Except.bind]
  rfl

private theorem runPhase_eq_ok_iff : (runPhase catalog phase start rules).result = .ok breakdown ↔
    ∃ state, Run catalog start (.start start) rules state ∧
      finishPhase phase start state = .ok breakdown := by
  simp only [runPhase, Noted.bind_eq_ok_iff, Noted.ofMoney_eq_ok_iff, takeRules_eq_ok_iff]

private theorem PhaseState.sameButLines_start (amount : Money) :
    (PhaseState.start amount).SameButLines (.start amount) := ⟨rfl, rfl, rfl, .nil⟩

/-- A phase of rules and one of their twins that both end come to the same. -/
theorem sameButLines_of_runPhase {twin : PhaseBreakdown}
    (relinked : List.Forall₂ PricedRule.Relinked rules twins)
    (ran : (runPhase catalog phase start rules).result = .ok breakdown)
    (twinRan : (runPhase catalog phase start twins).result = .ok twin) :
    breakdown.SameButLines twin := by
  obtain ⟨state, run, finished⟩ := runPhase_eq_ok_iff.mp ran
  obtain ⟨other, twinRun, twinFinished⟩ := runPhase_eq_ok_iff.mp twinRan
  have same := run.sameButLines twinRun relinked (PhaseState.sameButLines_start start)
  obtain ⟨closed, again, same⟩ := same.finishPhase finished
  obtain rfl := Except.ok.inj (again.symm.trans twinFinished)
  exact same

/-- A phase of twins ends, unless one of them overruns where it is reached. -/
theorem exists_runPhase_iff (relinked : List.Forall₂ PricedRule.Relinked rules twins)
    (ran : (runPhase catalog phase start rules).result = .ok breakdown) :
    (∃ twin, (runPhase catalog phase start twins).result = .ok twin) ↔
      ¬ TwinOverruns catalog start (.start start) rules twins := by
  have same := PhaseState.sameButLines_start start
  obtain ⟨state, run, finished⟩ := runPhase_eq_ok_iff.mp ran
  rw [← run.exists_twin_iff relinked same]
  constructor
  · rintro ⟨twin, twinRan⟩
    obtain ⟨other, twinRun, _⟩ := runPhase_eq_ok_iff.mp twinRan
    exact ⟨other, twinRun⟩
  · rintro ⟨other, twinRun⟩
    obtain ⟨twin, closed, _⟩ := (run.sameButLines twinRun relinked same).finishPhase finished
    exact ⟨twin, runPhase_eq_ok_iff.mpr ⟨other, twinRun, closed⟩⟩

private theorem rulesOf_relinked (relinked : List.Forall₂ PricedRule.Relinked rules twins)
    (phase : CalculationPhase) :
    List.Forall₂ PricedRule.Relinked (rulesOf phase rules) (rulesOf phase twins) :=
  List.rel_filter (fun _ _ first => by simp only [first.config]) relinked

private theorem rulesOf_eq_nil_iff (relinked : List.Forall₂ PricedRule.Relinked rules twins) :
    rulesOf phase rules = [] ↔ rulesOf phase twins = [] := by
  rw [← List.length_eq_zero_iff, (rulesOf_relinked relinked phase).length_eq,
    List.length_eq_zero_iff]

/-- Phases of rules and of their twins that all end come to the same. -/
theorem sameButLines_of_runPhases {others : List PhaseBreakdown}
    (relinked : List.Forall₂ PricedRule.Relinked rules twins)
    (ran : (runPhases catalog rules start phases).result = .ok breakdowns)
    (twinsRan : (runPhases catalog twins start phases).result = .ok others) :
    List.Forall₂ PhaseBreakdown.SameButLines breakdowns others := by
  apply forall₂_of_runPhases (fun _ _ same => same.endingAmount) _ _ ran twinsRan
  · intro phase
    exact rulesOf_eq_nil_iff relinked
  · intro phase start a b
    exact sameButLines_of_runPhase (rulesOf_relinked relinked phase)

/-- The phases of twins end, unless one of them overruns where it is reached. -/
theorem exists_runPhases_iff (relinked : List.Forall₂ PricedRule.Relinked rules twins)
    (ran : (runPhases catalog rules start phases).result = .ok breakdowns) :
    (∃ others, (runPhases catalog twins start phases).result = .ok others) ↔
      ∀ breakdown ∈ breakdowns, ¬ TwinOverrunsIn catalog rules twins breakdown := by
  induction phases generalizing start breakdowns with
  | nil =>
    cases ran
    simp [runPhases]
  | cons phase rest ih =>
    by_cases empty : rulesOf phase rules = []
    · rw [runPhases_of_empty empty] at ran
      rw [runPhases_of_empty ((rulesOf_eq_nil_iff relinked).mp empty)]
      exact ih ran
    · have present := (rulesOf_eq_nil_iff relinked).not.mp empty
      obtain ⟨breakdown, tail, rfl, phaseRan, tailRan⟩ := (runPhases_cons_eq_ok_iff empty).mp ran
      have inPhase := rulesOf_relinked relinked phase
      have ends := exists_runPhase_iff inPhase phaseRan
      obtain ⟨rfl, state, _, finished⟩ := eq_of_runPhase phaseRan
      obtain rfl := finished.starting
      rw [List.forall_mem_cons, TwinOverrunsIn, ← ends, ← ih tailRan]
      constructor
      · rintro ⟨others, twinsRan⟩
        obtain ⟨twin, twinTail, _, twinRan, twinTailRan⟩ :=
          (runPhases_cons_eq_ok_iff present).mp twinsRan
        rw [← (sameButLines_of_runPhase inPhase phaseRan twinRan).endingAmount] at twinTailRan
        exact ⟨⟨twin, twinRan⟩, twinTail, twinTailRan⟩
      · rintro ⟨⟨twin, twinRan⟩, twinTail, twinTailRan⟩
        rw [(sameButLines_of_runPhase inPhase phaseRan twinRan).endingAmount] at twinTailRan
        exact ⟨twin :: twinTail,
          (runPhases_cons_eq_ok_iff present).mpr ⟨twin, twinTail, rfl, twinRan, twinTailRan⟩⟩

end Phases

section Prices

variable {catalog : EffectCatalog} {matched other : List CompiledRule} {base : Money}
  {price : PriceAdjustment}

private theorem configured_relinked (relinked : List.Forall₂ CompiledRule.Relinked matched other) :
    List.Forall₂ PricedRule.Relinked (configured matched) (configured other) := by
  refine List.rel_filterMap (fun compiled twin first => ?_) relinked
  rw [first.pricingConfig]
  cases compiled.rule.pricingConfig with
  | none => exact .none
  | some config => exact .some ⟨first, rfl⟩

/-- Matched rules outlast their twins: their price is formed, but on the way to it a rule is reached
whose twin overruns the range of amounts. -/
def Outlasts (catalog : EffectCatalog) (base : Money) (matched other : List CompiledRule) : Prop :=
  ∃ price, (resolve matched base catalog).result = .ok price ∧
    ∃ breakdown ∈ price.phases, TwinOverrunsIn catalog (configured matched) (configured other)
      breakdown

private theorem isPartial_relinked {twin : PriceAdjustment}
    (relinked : List.Forall₂ CompiledRule.Relinked matched other)
    (priced : (resolve matched base catalog).result = .ok price)
    (twinPriced : (resolve other base catalog).result = .ok twin) :
    price.isPartial = twin.isPartial := by
  rw [Bool.eq_iff_iff, isPartial_iff priced, isPartial_iff twinPriced]
  clear priced twinPriced
  induction relinked with
  | nil => simp
  | cons first _ ih =>
    rw [List.exists_mem_cons_iff, List.exists_mem_cons_iff, ih, first.pricingConfig,
      hasDangling_relinked first]

/-- Prices of matched rules and of their twins that are both formed are the same. -/
theorem sameButLines_of_resolve {twin : PriceAdjustment}
    (relinked : List.Forall₂ CompiledRule.Relinked matched other)
    (priced : (resolve matched base catalog).result = .ok price)
    (twinPriced : (resolve other base catalog).result = .ok twin) : price.SameButLines twin := by
  have phases := sameButLines_of_runPhases (configured_relinked relinked)
    (runPhases_of_resolve priced) (runPhases_of_resolve twinPriced)
  obtain ⟨_, baseAmount, final, subtracted⟩ := eq_of_resolve priced
  obtain ⟨_, twinBase, twinFinal, twinSubtracted⟩ := eq_of_resolve twinPriced
  have finalAmount : price.finalAmount = twin.finalAmount := by
    rw [final, twinFinal,
      finalAmountOf_eq_of_forall₂ (fun _ _ same => same.endingAmount) phases]
  rw [finalAmount] at subtracted
  refine ⟨baseAmount.trans twinBase.symm, finalAmount, ?_, phases, ?_⟩
  · exact Except.ok.inj (subtracted.symm.trans twinSubtracted)
  · exact isPartial_relinked relinked priced twinPriced

/-- The price of twins is formed, unless one of them overruns where it is reached. -/
theorem exists_resolve_iff (relinked : List.Forall₂ CompiledRule.Relinked matched other)
    (priced : (resolve matched base catalog).result = .ok price) :
    (∃ twin, (resolve other base catalog).result = .ok twin) ↔
      ¬ Outlasts catalog base matched other := by
  have twins := configured_relinked relinked
  have ran := runPhases_of_resolve priced
  have outlasts : ¬ Outlasts catalog base matched other ↔ ∀ breakdown ∈ price.phases,
      ¬ TwinOverrunsIn catalog (configured matched) (configured other) breakdown := by
    simp [Outlasts, priced]
  rw [outlasts, ← exists_runPhases_iff twins ran]
  constructor
  · rintro ⟨twin, twinPriced⟩
    exact ⟨twin.phases, runPhases_of_resolve twinPriced⟩
  · rintro ⟨others, twinsRan⟩
    obtain ⟨_, _, final, subtracted⟩ := eq_of_resolve priced
    have finalAmount : finalAmountOf base others = price.finalAmount := by
      rw [final, finalAmountOf_eq_of_forall₂ (fun _ _ same => same.endingAmount)
        (sameButLines_of_runPhases twins ran twinsRan)]
    have calculated : (calculate other base catalog).result =
        .ok ⟨base, price.finalAmount, price.totalAdjustment, others, false⟩ := by
      rw [result_calculate, twinsRan, Except.bind, finalAmount, subtracted]
      rfl
    exact ⟨_, resolve_eq_ok_iff.mpr ⟨_, calculated, rfl⟩⟩

/-- Matched rules and their twins, with the links in another order and under other priorities, come
to the same price, or fail with the same error, exactly when neither outlasts the other. -/
theorem endsAlike_relinked_iff (relinked : List.Forall₂ CompiledRule.Relinked matched other)
    (base : Money) (catalog : EffectCatalog) :
    EndsAlike PriceAdjustment.SameButLines (resolve matched base catalog).result
        (resolve other base catalog).result ↔
      ¬ Outlasts catalog base matched other ∧ ¬ Outlasts catalog base other matched := by
  have relinked' : List.Forall₂ CompiledRule.Relinked other matched :=
    relinked.flip.imp fun _ _ => CompiledRule.Relinked.symm
  have unformed {rules twins : List CompiledRule} {e : RuleError}
      (failed : (resolve rules base catalog).result = .error e) :
      ¬ Outlasts catalog base rules twins := by
    rintro ⟨price, formed, _⟩
    cases failed.symm.trans formed
  cases priced : (resolve matched base catalog).result with
  | ok price =>
    have ends := exists_resolve_iff relinked priced
    cases twinPriced : (resolve other base catalog).result with
    | ok twin =>
      have twinEnds := exists_resolve_iff relinked' twinPriced
      refine iff_of_true (.result (sameButLines_of_resolve relinked priced twinPriced)) ?_
      exact ⟨ends.mp ⟨twin, twinPriced⟩, twinEnds.mp ⟨price, priced⟩⟩
    | error e =>
      refine iff_of_false (fun alike => by cases alike) fun fits => ?_
      obtain ⟨twin, formed⟩ := ends.mpr fits.1
      cases twinPriced.symm.trans formed
  | error e =>
    cases twinPriced : (resolve other base catalog).result with
    | ok twin =>
      refine iff_of_false (fun alike => by cases alike) fun fits => ?_
      obtain ⟨price, formed⟩ := (exists_resolve_iff relinked' twinPriced).mpr fits.2
      cases priced.symm.trans formed
    | error e' =>
      refine iff_of_true ?_ ⟨unformed priced, unformed twinPriced⟩
      obtain rfl := resolve_onlyOverflows matched base catalog e priced
      obtain rfl := resolve_onlyOverflows other base catalog e' twinPriced
      exact .failure _

/-- A rule with two fees, one of the largest amount there is and one of a cent, and two promotions
that take away everything. -/
def bundleRules (feePriority promotionPriority : Int32) : List CompiledRule :=
  [sampleRule "bundle" .sequential .preDiscount
    [⟨.fee, "crane", feePriority⟩, ⟨.fee, "stamp", feePriority⟩,
      ⟨.promotion, "spring", promotionPriority⟩, ⟨.promotion, "summer", promotionPriority⟩]]

def bundleCatalog : EffectCatalog := fun key =>
  match key.kind with
  | .promotion => some (.promotion ⟨key.id, key.id, .percentage (.percent 100)⟩)
  | .fee =>
    let amount := if key.id = "crane" then 9223372036854775807 else 1
    some (.fee ⟨key.id, key.id, .fixed (.ofAmount amount .usd), true, false⟩)
  | .taxRate => none

private theorem relinked_bundleRules (feePriority promotionPriority fees promotions : Int32) :
    List.Forall₂ CompiledRule.Relinked (bundleRules feePriority promotionPriority)
      (bundleRules fees promotions) :=
  .cons ⟨rfl, .refl _⟩ .nil

private theorem preDiscount_bundleRules (feePriority promotionPriority : Int32) :
    rulesOf .preDiscount (configured (bundleRules feePriority promotionPriority)) =
      (bundleRules feePriority promotionPriority).map (·, ⟨.sequential, .preDiscount⟩) := rfl

private theorem postDiscount_bundleRules (feePriority promotionPriority : Int32) :
    rulesOf .postDiscount (configured (bundleRules feePriority promotionPriority)) = [] := rfl

/-- With the fees first the two of them are out of range. -/
theorem total_bundleRules_fees :
    (resolve (bundleRules 1 0) (.ofAmount 1000 .usd) bundleCatalog).result.map
      PriceAdjustment.totalAdjustment = .error (.money .overflow) := by
  simp only [resolve, result_calculate, Named.all, runPhases, preDiscount_bundleRules,
    postDiscount_bundleRules]
  simp only [bundleRules, List.map_cons, List.map_nil, runPhase, takeRules, ruleAdjustment,
    sortedLinks_eq_insertionSort]
  decide +kernel

/-- With the promotions first the sum is in range throughout. -/
theorem total_bundleRules_promotions :
    (resolve (bundleRules 0 1) (.ofAmount 1000 .usd) bundleCatalog).result.map
      PriceAdjustment.totalAdjustment = .ok (.ofAmount 9223372036854773808 .usd) := by
  simp only [resolve, result_calculate, Named.all, runPhases, preDiscount_bundleRules,
    postDiscount_bundleRules]
  simp only [bundleRules, List.map_cons, List.map_nil, runPhase, takeRules, ruleAdjustment,
    sortedLinks_eq_insertionSort]
  decide +kernel

/-- The one bundle has a price and the other has none. -/
theorem not_endsAlike_of_totals {first second : Except RuleError PriceAdjustment} {e : RuleError}
    {total : Money} (fails : first.map PriceAdjustment.totalAdjustment = .error e)
    (succeeds : second.map PriceAdjustment.totalAdjustment = .ok total) :
    ¬ EndsAlike PriceAdjustment.SameButLines first second := by
  intro alike
  cases alike with
  | result _ => cases fails
  | failure _ => cases succeeds

theorem outlasts_bundleRules :
    List.Forall₂ CompiledRule.Relinked (bundleRules 1 0) (bundleRules 0 1) ∧
      Outlasts bundleCatalog (.ofAmount 1000 .usd) (bundleRules 0 1) (bundleRules 1 0) := by
  have relinked := relinked_bundleRules 1 0 0 1
  have different := not_endsAlike_of_totals total_bundleRules_fees total_bundleRules_promotions
  rw [endsAlike_relinked_iff relinked (.ofAmount 1000 .usd) bundleCatalog] at different
  refine ⟨relinked, by_contra fun fits => different ⟨?_, fits⟩⟩
  rintro ⟨price, formed, _⟩
  have fails := total_bundleRules_fees
  rw [formed] at fails
  cases fails

/-- The order of links is not always for readers only: it decides whether there is a price. -/
theorem not_endsAlike_bundleRules :
    List.Forall₂ CompiledRule.Relinked (bundleRules 1 0) (bundleRules 0 1) ∧
      ¬ EndsAlike PriceAdjustment.SameButLines
        (resolve (bundleRules 1 0) (.ofAmount 1000 .usd) bundleCatalog).result
        (resolve (bundleRules 0 1) (.ofAmount 1000 .usd) bundleCatalog).result :=
  ⟨relinked_bundleRules 1 0 0 1,
    not_endsAlike_of_totals total_bundleRules_fees total_bundleRules_promotions⟩

end Prices

end Pricing

end RuleBook
