import Mathlib.Data.List.Nodup
import RuleBook.Data.Dictionary
import RuleBook.Proofs.Pricing.Currency

/-! # Reports and contributions

Whether a rule is left out of a price depends on the effects behind its links and on the currency of
the price, but on no amount: `Pricing.report?` is the report that a price makes about it, if any. A
price makes the reports of its rules, and shows one contribution for each of the others, in the
phase of the rule.
-/

namespace RuleBook

/-- The result of a calculation in two parts, with the reports of both. -/
theorem Noted.eq_of_bind {α β : Type} {first : Noted α} {next : α → Noted β} {value : β}
    (ended : (first >>= next).result = .ok value) :
    ∃ a, first.result = .ok a ∧ (next a).result = .ok value ∧
      (first >>= next).notes = first.notes ++ (next a).notes := by
  obtain ⟨result, notes⟩ := first
  cases result with
  | error e => cases ended
  | ok a => exact ⟨a, rfl, ended, rfl⟩

/-- Where the contributions of a phase stand: the rule of each, and the phase. -/
def PhaseBreakdown.places (breakdown : PhaseBreakdown) : List (String × CalculationPhase) :=
  breakdown.contributions.map fun contribution => (contribution.ruleId, breakdown.phase)

namespace PriceAdjustment

/-- Where the contributions of a price stand: the rule of each, and its phase. -/
def places (price : PriceAdjustment) : List (String × CalculationPhase) :=
  price.phases.flatMap PhaseBreakdown.places

/-- The phases of the contributions of a rule, one for each contribution. -/
def placesOf (price : PriceAdjustment) (ruleId : String) : List CalculationPhase :=
  (price.places.filter fun place => place.1 == ruleId).map Prod.snd

end PriceAdjustment

namespace Pricing

/-- Where the contribution of a rule belongs. -/
def PricedRule.place (rule : PricedRule) : String × CalculationPhase :=
  (rule.1.id, rule.2.calculationPhase)

section Rules

variable {catalog : EffectCatalog} {currency : Currency} {base : Money} {compiled : CompiledRule}

/-- The report about a link whose effect has a fixed amount in another currency. -/
def foreignReport? (catalog : EffectCatalog) (currency : Currency) (ruleId : String)
    (link : EffectLink) : Option Diagnostic :=
  (catalog link.key).bind fun effect => (effect.foreignAmount? currency).bind fun amount =>
    (RuleAdjustment.foreignCurrency link.key currency.code amount.currency.code).diagnostic? ruleId

/-- The report about a rule that is left out of prices in a currency: for its dangling links, or for
the first link to an amount in another currency. -/
def report? (catalog : EffectCatalog) (currency : Currency) (compiled : CompiledRule) :
    Option Diagnostic :=
  match danglingLinks catalog (sortedLinks compiled.rule) with
  | [] => (sortedLinks compiled.rule).findSome? (foreignReport? catalog currency compiled.id)
  | dangling => (RuleAdjustment.dangling (dangling.map EffectLink.key)).diagnostic? compiled.id

/-- A rule takes part in prices in a currency. -/
def takesPart (catalog : EffectCatalog) (currency : Currency) (compiled : CompiledRule) : Bool :=
  (report? catalog currency compiled).isNone

private theorem diagnostic?_sumLinks {links : List EffectLink} {adjustment : Money}
    {lines : List EffectLine} {fate : RuleAdjustment} {ruleId : String}
    (summed : sumLinks catalog base adjustment lines links = .ok fate) :
    fate.diagnostic? ruleId = links.findSome? (foreignReport? catalog base.currency ruleId) := by
  induction links generalizing adjustment lines with
  | nil =>
    cases summed
    rfl
  | cons link rest ih =>
    simp only [sumLinks] at summed
    cases found : catalog link.key with
    | none =>
      simp only [found] at summed
      rw [List.findSome?_cons, foreignReport?, found]
      exact ih summed
    | some effect =>
      simp only [found] at summed
      -- the sum stops at the first amount in another currency, which `findSome?` meets first too
      cases foreign : effect.foreignAmount? base.currency with
      | some amount =>
        simp only [LinkedEffect.adjustment_of_foreign foreign, Except.ok.injEq] at summed
        subst summed
        simp [foreignReport?, found, foreign, RuleAdjustment.diagnostic?]
      | none =>
        rw [List.findSome?_cons, foreignReport?, found, Option.bind_some, foreign, Option.bind_none]
        split at summed
        · rename_i left right mismatch
          have overflows := LinkedEffect.adjustment_onlyOverflows foreign _ mismatch
          cases overflows
        · cases summed
        · split at summed
          · cases summed
          · exact ih summed

/-- What a rule does to an amount is reported in one way for all amounts of a currency. -/
theorem diagnostic?_ruleAdjustment {fate : RuleAdjustment}
    (computed : ruleAdjustment catalog base compiled.rule = .ok fate) :
    fate.diagnostic? compiled.id = report? catalog base.currency compiled := by
  simp only [ruleAdjustment] at computed
  cases dangling : danglingLinks catalog (sortedLinks compiled.rule) with
  | nil =>
    simp only [dangling] at computed
    simp only [report?, dangling, diagnostic?_sumLinks computed]
  | cons link rest =>
    simp only [dangling, Except.ok.injEq] at computed
    simp only [report?, dangling, ← computed]

/-- The rule links an effect that is not there or takes no part. -/
def HasDangling (catalog : EffectCatalog) (rule : Rule) : Prop :=
  ∃ link ∈ rule.effects, isUsableIn catalog link = false

/-- The rule links an effect with a fixed amount in another currency. -/
def HasForeign (catalog : EffectCatalog) (currency : Currency) (rule : Rule) : Prop :=
  ∃ link ∈ rule.effects, ∃ effect, catalog link.key = some effect ∧
    ∃ amount, effect.fixedAmount? = some amount ∧ amount.currency ≠ currency

theorem hasDangling_iff {rule : Rule} :
    HasDangling catalog rule ↔ danglingLinks catalog (sortedLinks rule) ≠ [] := by
  simp [HasDangling, danglingLinks, sortedLinks]

private theorem foreignReport?_eq_some_iff {ruleId : String} {link : EffectLink}
    {report : Diagnostic} :
    foreignReport? catalog currency ruleId link = some report ↔
      ∃ effect, catalog link.key = some effect ∧
        ∃ amount, effect.fixedAmount? = some amount ∧ amount.currency ≠ currency ∧
          (RuleAdjustment.foreignCurrency link.key currency.code amount.currency.code).diagnostic?
            ruleId = some report := by
  simp only [foreignReport?, Option.bind_eq_some_iff, LinkedEffect.foreignAmount?_eq_some_iff,
    and_assoc]

/-- What is reported about a rule: a dangling link before all else, then an amount in another
currency, and nothing where there is neither. -/
inductive Reported (catalog : EffectCatalog) (currency : Currency) (compiled : CompiledRule) : Prop
  | dangling (linked : HasDangling catalog compiled.rule) (message : String)
      (reported : report? catalog currency compiled =
        some (.ofRule .danglingEffectReference compiled.id message))
  | foreign (whole : ¬ HasDangling catalog compiled.rule)
      (linked : HasForeign catalog currency compiled.rule) (message : String)
      (reported : report? catalog currency compiled =
        some (.ofRule .dataIntegrityWarning compiled.id message))
  | nothing (whole : ¬ HasDangling catalog compiled.rule)
      (native : ¬ HasForeign catalog currency compiled.rule)
      (unreported : report? catalog currency compiled = none)

theorem reported (catalog : EffectCatalog) (currency : Currency) (compiled : CompiledRule) :
    Reported catalog currency compiled := by
  cases links : danglingLinks catalog (sortedLinks compiled.rule) with
  | cons link rest =>
    have linked : HasDangling catalog compiled.rule := hasDangling_iff.mpr (by simp [links])
    exact .dangling linked _ (by simp only [report?, links]; rfl)
  | nil =>
    have whole : ¬ HasDangling catalog compiled.rule := by simp [hasDangling_iff, links]
    have report : report? catalog currency compiled =
        (sortedLinks compiled.rule).findSome? (foreignReport? catalog currency compiled.id) := by
      simp only [report?, links]
    cases found : (sortedLinks compiled.rule).findSome?
        (foreignReport? catalog currency compiled.id) with
    | some diagnostic =>
      obtain ⟨link, member, reported⟩ := List.exists_of_findSome?_eq_some found
      obtain ⟨effect, held, amount, fixed, different, text⟩ :=
        foreignReport?_eq_some_iff.mp reported
      cases text
      exact .foreign whole ⟨link, List.mem_mergeSort.mp member, effect, held, amount, fixed, different⟩
        _ (report.trans found)
    | none =>
      refine .nothing whole ?_ (report.trans found)
      rintro ⟨link, member, effect, held, amount, fixed, different⟩
      have unreported := List.findSome?_eq_none_iff.mp found link (List.mem_mergeSort.mpr member)
      have reported : foreignReport? catalog currency compiled.id link = some _ :=
        foreignReport?_eq_some_iff.mpr ⟨effect, held, amount, fixed, different, rfl⟩
      rw [unreported] at reported
      cases reported

theorem diagnostic?_eq_none_iff {fate : RuleAdjustment} {ruleId : String} :
    fate.diagnostic? ruleId = none ↔ ∃ adjustment lines, fate = .computed adjustment lines := by
  cases fate <;> simp [RuleAdjustment.diagnostic?]

end Rules

section Run

variable {catalog : EffectCatalog} {start : Money} {rule : PricedRule} {rules : List PricedRule}
  {state next final : PhaseState}

/-- The ids of the rules whose contributions a state has. -/
def PhaseState.ruleIds (state : PhaseState) : List String :=
  state.contributions.map RuleContribution.ruleId

theorem currency_baseFor (running : state.compound.currency = start.currency)
    (stacking : StackingBehavior) : (state.baseFor start stacking).currency = start.currency := by
  cases stacking
  · exact running
  · rfl
  · rfl

/-- The rules that take part in prices in a currency. -/
def included (catalog : EffectCatalog) (currency : Currency) (rules : List PricedRule) :
    List PricedRule :=
  rules.filter fun rule => takesPart catalog currency rule.1

/-- A step keeps the currency, and adds the contribution of a rule that takes part. -/
theorem Step.ruleIds_eq (step : Step catalog start rule state next)
    (running : state.compound.currency = start.currency) :
    next.compound.currency = start.currency ∧
      next.ruleIds = state.ruleIds ++ (included catalog start.currency [rule]).map (·.1.id) := by
  have same := currency_baseFor running rule.2.stackingBehavior
  have partakes {base : Money} {fate : RuleAdjustment} (currency : base.currency = start.currency)
      (computed : ruleAdjustment catalog base rule.1.rule = .ok fate) :
      takesPart catalog start.currency rule.1 = (fate.diagnostic? rule.1.id).isNone := by
    rw [takesPart, ← currency, diagnostic?_ruleAdjustment computed]
  cases step with
  | leftOut computed uncomputed =>
    have reported : takesPart catalog start.currency rule.1 = false := by
      rw [partakes same computed, Option.isNone_eq_false_iff, Option.isSome_iff_ne_none]
      intro unreported
      obtain ⟨adjustment, lines, same⟩ := diagnostic?_eq_none_iff.mp unreported
      exact uncomputed adjustment lines same
    simp [included, reported, running]
  | compound stacking computed added =>
    refine ⟨(Money.eq_of_add added).2.1.trans running, ?_⟩
    simp [PhaseState.ruleIds, included, partakes running computed, RuleAdjustment.diagnostic?]
  | sequential stacking computed added =>
    refine ⟨running, ?_⟩
    simp [PhaseState.ruleIds, included, partakes rfl computed, RuleAdjustment.diagnostic?]
  | max stacking computed compared =>
    refine ⟨running, ?_⟩
    simp [PhaseState.ruleIds, included, partakes rfl computed, RuleAdjustment.diagnostic?]

/-- A run keeps the currency, and adds the contributions of the rules that take part. -/
theorem Run.ruleIds_eq (run : Run catalog start state rules final)
    (running : state.compound.currency = start.currency) :
    final.compound.currency = start.currency ∧
      final.ruleIds = state.ruleIds ++ (included catalog start.currency rules).map (·.1.id) := by
  induction run with
  | done _ => exact ⟨running, by simp [included]⟩
  | @next rule rest state next final step _ ih =>
    obtain ⟨running, first⟩ := step.ruleIds_eq running
    obtain ⟨ending, others⟩ := ih running
    refine ⟨ending, ?_⟩
    rw [others, first, List.append_assoc, ← List.map_append, included, included, included,
      ← List.filter_append, List.singleton_append]

/-- Taking in rules reports those that do not take part. -/
theorem notes_takeRules (taken : (takeRules catalog start state rules).result = .ok final)
    (running : state.compound.currency = start.currency) :
    (takeRules catalog start state rules).notes =
      rules.filterMap fun rule => report? catalog start.currency rule.1 := by
  -- every rule is reported as for the starting amount, since each step keeps the currency
  induction rules generalizing state with
  | nil => rfl
  | cons rule rest ih =>
    obtain ⟨compiled, config⟩ := rule
    rw [takeRules] at taken ⊢
    obtain ⟨fate, adjusted, continued, notes⟩ := Noted.eq_of_bind taken
    have computed := Noted.ofMoney_eq_ok_iff.mp adjusted
    have reported := diagnostic?_ruleAdjustment computed
    rw [currency_baseFor running] at reported
    rw [notes, List.filterMap_cons, ← reported]
    split at continued
    · obtain ⟨next, took, others, more⟩ := Noted.eq_of_bind continued
      have step : Step catalog start (compiled, config) state next :=
        step_of_take computed (Noted.ofMoney_eq_ok_iff.mp took)
      rw [more, ih others (step.ruleIds_eq running).1]
      rfl
    · obtain ⟨_, _, others, more⟩ := Noted.eq_of_bind continued
      rw [more, ih others running]
      cases fate.diagnostic? compiled.id <;> rfl

/-- The contributions that are shown are those of the rules that were taken in. -/
theorem PhaseState.map_ruleId_finalContributions (state : PhaseState) :
    state.finalContributions.map RuleContribution.ruleId = state.ruleIds := by
  unfold finalContributions ruleIds
  split
  · refine List.ext_getElem? fun index => ?_
    rw [List.getElem?_map, List.getElem?_map, List.getElem?_modify]
    cases state.contributions[index]? with
    | none => rfl
    | some contribution => split <;> rfl
  · rfl

end Run

section Phases

variable {catalog : EffectCatalog} {start : Money} {rules : List PricedRule}
  {phase : CalculationPhase} {phases : List CalculationPhase} {breakdown : PhaseBreakdown}
  {breakdowns : List PhaseBreakdown}

/-- A phase ends in the currency in which it starts. -/
theorem Finished.currency {state : PhaseState} (finished : Finished start state breakdown)
    (running : state.compound.currency = start.currency) :
    breakdown.endingAmount.currency = start.currency := by
  obtain ⟨part, summed, first, second, clamped⟩ := finished.ending
  have summed_currency : summed.currency = start.currency :=
    (Money.eq_of_add second).2.1.trans ((Money.eq_of_add first).2.1.trans running)
  rcases eq_of_clamp clamped with ⟨ending, _⟩ | ⟨ending, _⟩
  · rw [ending, summed_currency]
  · rw [ending, currency_floorOf]

/-- What is known of a phase that ends: its currency, its reports, and whose contributions it
shows. -/
theorem reports_of_runPhase (ran : (runPhase catalog phase start rules).result = .ok breakdown) :
    breakdown.phase = phase ∧ breakdown.endingAmount.currency = start.currency ∧
      (runPhase catalog phase start rules).notes =
        rules.filterMap (fun rule => report? catalog start.currency rule.1) ∧
      breakdown.places =
        (included catalog start.currency rules).map fun rule => (rule.1.id, phase) := by
  obtain ⟨rfl, state, run, finished⟩ := eq_of_runPhase ran
  obtain ⟨running, ids⟩ := run.ruleIds_eq rfl
  refine ⟨rfl, finished.currency running, ?_, ?_⟩
  · rw [runPhase] at ran ⊢
    obtain ⟨final, taken, ended, notes⟩ := Noted.eq_of_bind ran
    rw [notes, notes_takeRules taken rfl]
    exact List.append_nil _
  · have shown : breakdown.contributions.map RuleContribution.ruleId =
        (included catalog start.currency rules).map (·.1.id) := by
      rw [finished.contributions, PhaseState.map_ruleId_finalContributions, ids]
      rfl
    have placed : breakdown.places =
        (breakdown.contributions.map RuleContribution.ruleId).map (·, breakdown.phase) := by
      rw [List.map_map]
      rfl
    rw [placed, shown, List.map_map]
    rfl

private theorem phase_of_mem_rulesOf {rule : PricedRule} (member : rule ∈ rulesOf phase rules) :
    rule.2.calculationPhase = phase := by
  simpa [rulesOf] using (List.mem_filter.mp member).2

/-- The rules of all phases are all rules. -/
theorem perm_flatMap_rulesOf (rules : List PricedRule) :
    ((Named.all (α := CalculationPhase)).flatMap fun phase => rulesOf phase rules).Perm rules := by
  have second : rulesOf .postDiscount rules =
      rules.filter fun rule => !(rule.2.calculationPhase == .preDiscount) := by
    refine List.filter_congr fun rule _ => ?_
    cases rule.2.calculationPhase <;> rfl
  have both : (Named.all (α := CalculationPhase)).flatMap (fun phase => rulesOf phase rules) =
      rulesOf .preDiscount rules ++ rulesOf .postDiscount rules := by
    simp [Named.all]
  rw [both, second]
  exact List.filter_append_perm _ rules

/-- Phases one after the other make the reports of their rules, and show the contributions of the
others. -/
theorem reports_of_runPhases (ran : (runPhases catalog rules start phases).result = .ok breakdowns) :
    (runPhases catalog rules start phases).notes = (phases.flatMap fun phase =>
        rulesOf phase rules).filterMap (fun rule => report? catalog start.currency rule.1) ∧
      breakdowns.flatMap PhaseBreakdown.places = (included catalog start.currency
        (phases.flatMap fun phase => rulesOf phase rules)).map PricedRule.place := by
  -- each phase starts where the one before it ended, in another amount of the same currency
  induction phases generalizing start breakdowns with
  | nil =>
    cases ran
    exact ⟨rfl, rfl⟩
  | cons phase rest ih =>
    rw [runPhases] at ran ⊢
    split at ran
    · rename_i empty
      simpa [empty] using ih ran
    · obtain ⟨breakdown, phaseRan, continued, notes⟩ := Noted.eq_of_bind ran
      obtain ⟨others, restRan, ended, more⟩ := Noted.eq_of_bind continued
      cases ended
      obtain ⟨rfl, currency, reports, places⟩ := reports_of_runPhase phaseRan
      obtain ⟨rest_reports, rest_places⟩ := ih restRan
      rw [currency] at rest_reports rest_places
      refine ⟨?_, ?_⟩
      · rw [notes, more, reports, rest_reports]
        simp
      · have own : breakdown.places = (included catalog start.currency
            (rulesOf breakdown.phase rules)).map PricedRule.place := by
          rw [places]
          refine List.map_congr_left fun rule member => ?_
          rw [PricedRule.place, phase_of_mem_rulesOf (List.mem_of_mem_filter member)]
        rw [List.flatMap_cons, rest_places, own]
        simp [included]

end Phases

section Prices

variable {catalog : EffectCatalog} {matched : List CompiledRule} {base : Money}
  {price : PriceAdjustment}

/-- The reports of a price are those of its phases, after those about rules without a way of
stacking. -/
theorem eq_of_calculate (priced : (calculate matched base catalog).result = .ok price) :
    (runPhases catalog (configured matched) base (Named.all (α := CalculationPhase))).result =
        .ok price.phases ∧
      (calculate matched base catalog).notes = matched.filterMap diagnostic? ++
        (runPhases catalog (configured matched) base (Named.all (α := CalculationPhase))).notes := by
  rw [calculate] at priced ⊢
  obtain ⟨_, _, continued, first⟩ := Noted.eq_of_bind priced
  obtain ⟨phases, ran, continued, second⟩ := Noted.eq_of_bind continued
  obtain ⟨total, _, ended, third⟩ := Noted.eq_of_bind continued
  cases ended
  refine ⟨ran, ?_⟩
  rw [first, second, third]
  simp [Noted.ofMoney]

/-- The phases of a price are run from its base amount. -/
theorem runPhases_of_resolve (priced : (resolve matched base catalog).result = .ok price) :
    (runPhases catalog (configured matched) base (Named.all (α := CalculationPhase))).result =
      .ok price.phases := by
  obtain ⟨whole, calculated, rfl⟩ := resolve_eq_ok_iff.mp priced
  exact (eq_of_calculate calculated).1

/-- A price reports the rules without a way of stacking and those that do not take part, and shows
the contributions of the others where they belong. -/
theorem reports_of_resolve (priced : (resolve matched base catalog).result = .ok price) :
    (resolve matched base catalog).notes.Perm (matched.filterMap diagnostic? ++
        (configured matched).filterMap fun rule => report? catalog base.currency rule.1) ∧
      price.places.Perm
        ((included catalog base.currency (configured matched)).map PricedRule.place) ∧
      price.isPartial = (resolve matched base catalog).notes.any
        (·.kind == .danglingEffectReference) := by
  have rules := perm_flatMap_rulesOf (configured matched)
  obtain ⟨whole, calculated, rfl⟩ := resolve_eq_ok_iff.mp priced
  obtain ⟨ran, notes⟩ := eq_of_calculate calculated
  obtain ⟨reports, places⟩ := reports_of_runPhases ran
  refine ⟨?_, ?_, rfl⟩
  · rw [resolve, notes, reports]
    exact (rules.filterMap _).append_left _
  · rw [PriceAdjustment.places, places]
    exact (rules.filter _).map _

theorem mem_configured_iff {rule : PricedRule} : rule ∈ configured matched ↔
    rule.1 ∈ matched ∧ rule.1.rule.pricingConfig = some rule.2 := by
  obtain ⟨compiled, config⟩ := rule
  simp only [configured, List.mem_filterMap, Option.map_eq_some_iff, Prod.mk.injEq]
  constructor
  · rintro ⟨_, member, _, has, rfl, rfl⟩
    exact ⟨member, has⟩
  · rintro ⟨member, has⟩
    exact ⟨compiled, member, config, has, rfl, rfl⟩

/-- A report about a missing way of stacking is about a matched rule that has none. -/
theorem exists_of_mem_unconfigured {diagnostic : Diagnostic}
    (member : diagnostic ∈ matched.filterMap diagnostic?) :
    ∃ compiled ∈ matched, compiled.rule.pricingConfig = none ∧
      diagnostic.kind = .dataIntegrityWarning ∧ diagnostic.ruleId = some compiled.id := by
  obtain ⟨compiled, present, missing⟩ := List.mem_filterMap.mp member
  unfold diagnostic? at missing
  split at missing
  · rename_i lacks
    cases missing
    exact ⟨compiled, present, Option.isNone_iff_eq_none.mp lacks, rfl, rfl⟩
  · cases missing

theorem nodup_configured (distinct : (matched.map CompiledRule.id).Nodup) :
    ((configured matched).map fun rule => rule.1.id).Nodup := by
  have kept : (configured matched).map (fun rule => rule.1.id) =
      (matched.filter fun compiled => compiled.rule.pricingConfig.isSome).map CompiledRule.id := by
    clear distinct
    induction matched with
    | nil => rfl
    | cons compiled rest ih =>
      cases config : compiled.rule.pricingConfig <;> simp_all [configured]
  rw [kept]
  exact distinct.sublist (List.filter_sublist.map _)

/-- A price is partial exactly when a rule with a way of stacking has a dangling link. -/
theorem isPartial_iff (priced : (resolve matched base catalog).result = .ok price) :
    price.isPartial = true ↔ ∃ compiled ∈ matched,
      compiled.rule.pricingConfig.isSome = true ∧ HasDangling catalog compiled.rule := by
  obtain ⟨notes, _, marked⟩ := reports_of_resolve priced
  rw [marked, notes.any_eq, List.any_eq_true]
  constructor
  · rintro ⟨diagnostic, member, kind⟩
    rcases List.mem_append.mp member with unconfigured | reportedHere
    · obtain ⟨_, _, _, warning, _⟩ := exists_of_mem_unconfigured unconfigured
      rw [warning] at kind
      cases kind
    · obtain ⟨rule, configured, reports⟩ := List.mem_filterMap.mp reportedHere
      obtain ⟨present, has⟩ := mem_configured_iff.mp configured
      cases reported catalog base.currency rule.1 with
      | dangling linked => exact ⟨rule.1, present, by rw [has]; rfl, linked⟩
      | foreign _ _ message report =>
        cases report.symm.trans reports
        cases kind
      | nothing _ _ report => cases report.symm.trans reports
  · rintro ⟨compiled, present, has, linked⟩
    obtain ⟨config, has⟩ := Option.isSome_iff_exists.mp has
    have configured : (compiled, config) ∈ configured matched := mem_configured_iff.mpr ⟨present, has⟩
    cases reported catalog base.currency compiled with
    | dangling _ message report =>
      exact ⟨_, List.mem_append.mpr (.inr (List.mem_filterMap.mpr ⟨_, configured, report⟩)), rfl⟩
    | foreign whole => exact (whole linked).elim
    | nothing whole => exact (whole linked).elim

section Standing

variable {compiled : CompiledRule} {config : PricingConfig}

/-- Of rules with distinct ids, a configured one is the only one under its id. -/
theorem configured_filter_id (distinct : (matched.map CompiledRule.id).Nodup)
    (member : compiled ∈ matched) (has : compiled.rule.pricingConfig = some config) :
    (configured matched).filter (fun rule => rule.1.id == compiled.id) = [(compiled, config)] := by
  have present : (compiled, config) ∈ configured matched := mem_configured_iff.mpr ⟨member, has⟩
  exact filter_key_of_mem (nodup_configured distinct) present

/-- A configured rule has one contribution, in its own phase, when it takes part, and none
otherwise. -/
theorem placesOf_eq (priced : (resolve matched base catalog).result = .ok price)
    (distinct : (matched.map CompiledRule.id).Nodup) (member : compiled ∈ matched)
    (has : compiled.rule.pricingConfig = some config) :
    price.placesOf compiled.id =
      if takesPart catalog base.currency compiled then [config.calculationPhase] else [] := by
  obtain ⟨_, places, _⟩ := reports_of_resolve priced
  have own : (included catalog base.currency (configured matched)).filter
      (fun rule => rule.1.id == compiled.id) =
        [(compiled, config)].filter fun rule => takesPart catalog base.currency rule.1 := by
    rw [included, ← configured_filter_id distinct member has, List.filter_comm]
  have perm : (price.placesOf compiled.id).Perm
      (([(compiled, config)].filter fun rule : PricedRule =>
        takesPart catalog base.currency rule.1).map fun rule => rule.2.calculationPhase) := by
    rw [← own]
    have perm := (places.filter fun place => place.1 == compiled.id).map Prod.snd
    rwa [List.filter_map, List.map_map] at perm
  cases partakes : takesPart catalog base.currency compiled with
  | true => exact List.perm_singleton.mp (by simpa [partakes] using perm)
  | false => exact List.perm_nil.mp (by simpa [partakes] using perm)

/-- The reports of a price about a configured rule: the one about its links, if any. -/
theorem reports_about (priced : (resolve matched base catalog).result = .ok price)
    (distinct : (matched.map CompiledRule.id).Nodup) (member : compiled ∈ matched)
    (has : compiled.rule.pricingConfig = some config) :
    (resolve matched base catalog).notes.filter (·.ruleId == some compiled.id) =
      (report? catalog base.currency compiled).toList := by
  obtain ⟨notes, _, _⟩ := reports_of_resolve priced
  have unconfigured : (matched.filterMap diagnostic?).filter (·.ruleId == some compiled.id) = [] := by
    refine List.filter_eq_nil_iff.mpr fun diagnostic reports => ?_
    obtain ⟨other, present, lacks, _, about⟩ := exists_of_mem_unconfigured reports
    intro same
    have same : other.id = compiled.id := by simpa [about] using same
    obtain rfl := List.inj_on_of_nodup_map distinct present member same
    cases lacks.symm.trans has
  have own : ((configured matched).filterMap fun rule =>
      report? catalog base.currency rule.1).filter (·.ruleId == some compiled.id) =
        [(compiled, config)].filterMap fun rule => report? catalog base.currency rule.1 := by
    rw [← configured_filter_id distinct member has, List.filter_filterMap, List.filterMap_filter]
    refine List.filterMap_congr fun rule _ => ?_
    cases reported catalog base.currency rule.1 with
    | dangling _ message report => simp [report, Option.filter, Diagnostic.ofRule]
    | foreign _ _ message report => simp [report, Option.filter, Diagnostic.ofRule]
    | nothing _ _ report => simp [report]
  have perm := notes.filter (·.ruleId == some compiled.id)
  rw [List.filter_append, unconfigured, own, List.nil_append] at perm
  cases report : report? catalog base.currency compiled with
  | none => exact List.perm_nil.mp (by simpa [report] using perm)
  | some diagnostic => exact List.perm_singleton.mp (by simpa [report] using perm)

/-- A configured rule with a dangling link is reported once and contributes nothing. -/
theorem accounts_of_dangling (priced : (resolve matched base catalog).result = .ok price)
    (distinct : (matched.map CompiledRule.id).Nodup) (member : compiled ∈ matched)
    (has : compiled.rule.pricingConfig = some config) (linked : HasDangling catalog compiled.rule) :
    (resolve matched base catalog).notes.countP (fun diagnostic =>
        diagnostic.kind == .danglingEffectReference && diagnostic.ruleId == some compiled.id) = 1 ∧
      price.placesOf compiled.id = [] := by
  have about := reports_about priced distinct member has
  have placed := placesOf_eq priced distinct member has
  rw [← List.countP_filter, about, placed, takesPart]
  cases reported catalog base.currency compiled with
  | dangling _ message report => simp [report, Diagnostic.ofRule]
  | foreign whole => exact (whole linked).elim
  | nothing whole => exact (whole linked).elim

/-- A configured rule with neither a dangling link nor an amount in another currency contributes
once, in its own phase. -/
theorem placesOf_of_whole (priced : (resolve matched base catalog).result = .ok price)
    (distinct : (matched.map CompiledRule.id).Nodup) (member : compiled ∈ matched)
    (has : compiled.rule.pricingConfig = some config)
    (whole : ¬ HasDangling catalog compiled.rule)
    (native : ¬ HasForeign catalog base.currency compiled.rule) :
    price.placesOf compiled.id = [config.calculationPhase] := by
  rw [placesOf_eq priced distinct member has, takesPart]
  cases reported catalog base.currency compiled with
  | dangling linked => exact (whole linked).elim
  | foreign _ linked => exact (native linked).elim
  | nothing _ _ report => simp [report]

end Standing

end Prices

end Pricing

end RuleBook
