import RuleBook.Proofs.Money.Order
import RuleBook.Proofs.Pricing.Phase

/-! # Rules that are left out

A rule with a link that leads nowhere is left out of its phase. It does not take part in the chain
of the compound rules, in the sum of the sequential ones or in the choice among the max rules, so
the price is the one without it; at most a phase without contributions shows that it was there.
-/

namespace RuleBook

section Ends

variable {ε α β γ δ : Type} {related : α → β → Prop} {next : α → Except ε γ}
  {next' : β → Except ε δ} {first : Except ε α} {second : Except ε β}

/-- Two calculations end alike: with the same error, or with related results. -/
inductive EndsAlike (related : α → β → Prop) : Except ε α → Except ε β → Prop
  | result {a : α} {b : β} (same : related a b) : EndsAlike related (.ok a) (.ok b)
  | failure (e : ε) : EndsAlike related (.error e) (.error e)

theorem EndsAlike.bind {related' : γ → δ → Prop} (head : EndsAlike related first second)
    (tail : ∀ a b, related a b → EndsAlike related' (next a) (next' b)) :
    EndsAlike related' (first.bind next) (second.bind next') := by
  cases head with
  | result same => exact tail _ _ same
  | failure e => exact .failure e

private theorem EndsAlike.bind_right {related' : α → δ → Prop}
    (head : EndsAlike related first second)
    (tail : ∀ a b, related a b → EndsAlike related' (.ok a) (next' b)) :
    EndsAlike related' first (second.bind next') := by
  cases head with
  | result same => exact tail _ _ same
  | failure e => exact .failure e

theorem EndsAlike.of_eq {related : α → α → Prop} {second : Except ε α} (same : first = second)
    (reflexive : ∀ a, related a a) : EndsAlike related first second := by
  subst same
  cases first with
  | ok a => exact .result (reflexive a)
  | error e => exact .failure e

end Ends

namespace Money

/-- Nothing can be added to every amount. -/
theorem add_zeroOf (money : Money) : money.add (Pricing.zeroOf money) = .ok money := by
  have added : money.add (Pricing.zeroOf money) =
      ofInt (money.amount.toInt + 0) money.currency money.scale := add_of_sameScale rfl rfl
  rw [added, Int.add_zero, ofInt_eq_ok_iff]
  exact ⟨money.holds_amount, rfl, rfl, rfl⟩

/-- Every amount can be added to nothing in its currency and at its scale. -/
theorem zeroOf_add {base amount : Money} (currency : amount.currency = base.currency)
    (scale : amount.scale = base.scale) : (Pricing.zeroOf base).add amount = .ok amount := by
  have added : (Pricing.zeroOf base).add amount =
      ofInt (0 + amount.amount.toInt) base.currency base.scale :=
    add_of_sameScale currency.symm scale.symm
  rw [added, Int.zero_add, ofInt_eq_ok_iff]
  exact ⟨amount.holds_amount, rfl, currency, scale⟩

end Money

/-- A phase shows the contribution of at least one rule. -/
def PhaseBreakdown.isContributed (breakdown : PhaseBreakdown) : Bool :=
  !breakdown.contributions.isEmpty

/-- Two prices come to the same amounts by the same phases, but for those without contributions. -/
structure PriceAdjustment.SameCharges (a b : PriceAdjustment) : Prop where
  baseAmount : a.baseAmount = b.baseAmount
  finalAmount : a.finalAmount = b.finalAmount
  totalAdjustment : a.totalAdjustment = b.totalAdjustment
  contributed :
    a.phases.filter PhaseBreakdown.isContributed = b.phases.filter PhaseBreakdown.isContributed

namespace Pricing

variable {catalog other : EffectCatalog} {start running : Money} {rules : List PricedRule}
  {phase : CalculationPhase} {phases : List CalculationPhase}

section LeftOut

/-- A rule is left out, whatever amount it is computed against. -/
def IsLeftOut (catalog : EffectCatalog) (rule : Rule) : Prop :=
  ∀ base, ∃ keys, ruleAdjustment catalog base rule = .ok (.dangling keys)

theorem isLeftOut_of_dangling {rule : Rule} {link : EffectLink} (member : link ∈ rule.effects)
    (unusable : isUsableIn catalog link = false) : IsLeftOut catalog rule := by
  intro base
  have dangling : link ∈ danglingLinks catalog (sortedLinks rule) := by
    rw [danglingLinks, List.mem_filter, sortedLinks, List.mem_mergeSort, unusable]
    exact ⟨member, rfl⟩
  simp only [ruleAdjustment]
  split
  · rename_i none_dangling
    rw [none_dangling] at dangling
    cases dangling
  · exact ⟨_, rfl⟩

/-- Taking in rules does not change with those that are left out. -/
theorem takeRules_filter {keep : PricedRule → Bool}
    (leftOut : ∀ rule ∈ rules, keep rule = false → IsLeftOut catalog rule.1.rule)
    (state : PhaseState) :
    (takeRules catalog start state (rules.filter keep)).result =
      (takeRules catalog start state rules).result := by
  induction rules generalizing state with
  | nil => rfl
  | cons rule rest ih =>
    have ih := ih fun rule member => leftOut rule (List.mem_cons_of_mem _ member)
    obtain ⟨compiled, config⟩ := rule
    cases kept : keep (compiled, config) with
    | false =>
      obtain ⟨keys, computed⟩ := leftOut (compiled, config) (List.mem_cons_self ..) kept
        (state.baseFor start config.stackingBehavior)
      rw [List.filter_cons_of_neg (by simp [kept]), ih]
      simp only [takeRules, computed, Noted.result_bind, Noted.ofMoney, RuleError.ofMoney,
        Except.bind]
    | true =>
      rw [List.filter_cons_of_pos kept]
      simp only [takeRules, Noted.result_bind]
      congr 1
      funext computed
      cases computed with
      | computed adjustment lines => simp only [Noted.result_bind, ih]
      | dangling keys => simp only [Noted.result_bind, ih]
      | foreignCurrency key base effect => simp only [Noted.result_bind, ih]

/-- The floor of a phase does not lie above its starting amount. -/
theorem clamp_self (amount : Money) : clamp amount amount = .ok (amount, none) := by
  have floor : (floorOf amount).currency = amount.currency ∧
      (floorOf amount).scale = amount.scale ∧
        (floorOf amount).amount.toInt ≤ amount.amount.toInt := by
    unfold floorOf
    cases negative : amount.isNegative with
    | true => simp
    | false =>
      have nonneg := Money.isNegative_eq_false_iff.mp negative
      exact ⟨rfl, rfl, nonneg⟩
  obtain ⟨currency, scale, below⟩ := floor
  have compared := Money.compare_of_sameScale currency.symm scale.symm
  have above : Ord.compare amount.amount.toInt (floorOf amount).amount.toInt ≠ .lt := by
    intro less
    have less := Int.compare_eq_lt.mp less
    omega
  simp only [clamp, compared, bind, Except.bind]
  rfl

/-- A phase without contributions ends where it starts. -/
theorem finishPhase_start (phase : CalculationPhase) (amount : Money) :
    finishPhase phase amount (.start amount) = .ok ⟨phase, amount, amount, [], none⟩ := by
  have summed : unclampedEnd amount (.start amount) = .ok amount := by
    simp only [unclampedEnd, PhaseState.start, PhaseState.chosenAdjustment, Money.add_zeroOf, bind,
      Except.bind]
  simp only [finishPhase, summed, clamp_self, bind, Except.bind]
  rfl

end LeftOut

section Phases

variable {keep : PricedRule → Bool}

/-- Phases from one amount come to the same amount, and differ at most in those without
contributions. -/
structure SamePhases (running : Money) (a b : List PhaseBreakdown) : Prop where
  finalAmount : finalAmountOf running a = finalAmountOf running b
  contributed : a.filter PhaseBreakdown.isContributed = b.filter PhaseBreakdown.isContributed

theorem finalAmountOf_cons (running : Money) (breakdown : PhaseBreakdown)
    (others : List PhaseBreakdown) :
    finalAmountOf running (breakdown :: others) = finalAmountOf breakdown.endingAmount others := by
  cases others with
  | nil => rfl
  | cons next rest => simp [finalAmountOf, List.getLast?_eq_some_getLast]

theorem SamePhases.cons {a b : List PhaseBreakdown} (breakdown : PhaseBreakdown)
    (same : SamePhases breakdown.endingAmount a b) :
    SamePhases running (breakdown :: a) (breakdown :: b) := by
  constructor
  · rw [finalAmountOf_cons, finalAmountOf_cons, same.finalAmount]
  · rw [List.filter_cons, List.filter_cons, same.contributed]

/-- A phase without contributions that ends where it starts makes no difference. -/
theorem SamePhases.cons_idle {a b : List PhaseBreakdown} (phase : CalculationPhase)
    (same : SamePhases running a b) :
    SamePhases running a (⟨phase, running, running, [], none⟩ :: b) := by
  constructor
  · rw [finalAmountOf_cons, same.finalAmount]
  · rw [List.filter_cons_of_neg (by simp [PhaseBreakdown.isContributed]), same.contributed]

private theorem rulesOf_filter : rulesOf phase (rules.filter keep) =
    (rulesOf phase rules).filter keep :=
  List.filter_comm _ _ rules

theorem runPhases_of_empty (empty : rulesOf phase rules = []) :
    runPhases catalog rules running (phase :: phases) = runPhases catalog rules running phases := by
  simp only [runPhases, empty]

private theorem runPhases_of_ne_nil (present : rulesOf phase rules ≠ []) :
    (runPhases catalog rules running (phase :: phases)).result =
      (runPhase catalog phase running (rulesOf phase rules)).result.bind fun breakdown =>
        (runPhases catalog rules breakdown.endingAmount phases).result.bind fun others =>
          .ok (breakdown :: others) := by
  simp only [runPhases, Noted.result_bind]
  rfl

/-- A phase with rules is run before the others, which start where it ends. -/
theorem runPhases_cons_eq_ok_iff {breakdowns : List PhaseBreakdown}
    (present : rulesOf phase rules ≠ []) :
    (runPhases catalog rules running (phase :: phases)).result = .ok breakdowns ↔
      ∃ breakdown rest, breakdowns = breakdown :: rest ∧
        (runPhase catalog phase running (rulesOf phase rules)).result = .ok breakdown ∧
        (runPhases catalog rules breakdown.endingAmount phases).result = .ok rest := by
  rw [runPhases_of_ne_nil present]
  constructor
  · intro ran
    obtain ⟨breakdown, phaseRan, ran⟩ := Except.bind_eq_ok_iff.mp ran
    obtain ⟨rest, restRan, same⟩ := Except.bind_eq_ok_iff.mp ran
    cases same
    exact ⟨breakdown, rest, rfl, phaseRan, restRan⟩
  · rintro ⟨breakdown, rest, rfl, phaseRan, restRan⟩
    simp only [phaseRan, restRan, Except.bind]

section Compared

variable {others : List PricedRule} {related : PhaseBreakdown → PhaseBreakdown → Prop}
  {a b : List PhaseBreakdown}

/-- Phases of two lists of rules compare when each phase compares that starts from one amount. -/
theorem forall₂_of_runPhases (ending : ∀ a b, related a b → a.endingAmount = b.endingAmount)
    (present : ∀ phase, rulesOf phase rules = [] ↔ rulesOf phase others = [])
    (each : ∀ phase running a b,
      (runPhase catalog phase running (rulesOf phase rules)).result = .ok a →
      (runPhase catalog phase running (rulesOf phase others)).result = .ok b → related a b)
    (ran : (runPhases catalog rules running phases).result = .ok a)
    (otherRan : (runPhases catalog others running phases).result = .ok b) :
    List.Forall₂ related a b := by
  induction phases generalizing running a b with
  | nil =>
    cases ran
    cases otherRan
    exact .nil
  | cons phase rest ih =>
    by_cases empty : rulesOf phase rules = []
    · rw [runPhases_of_empty empty] at ran
      rw [runPhases_of_empty ((present phase).mp empty)] at otherRan
      exact ih ran otherRan
    · have otherPresent := (present phase).not.mp empty
      obtain ⟨first, tail, rfl, firstRan, ran⟩ := (runPhases_cons_eq_ok_iff empty).mp ran
      obtain ⟨other, otherTail, rfl, otherFirst, otherRan⟩ :=
        (runPhases_cons_eq_ok_iff otherPresent).mp otherRan
      have same := each phase running first other firstRan otherFirst
      rw [← ending first other same] at otherRan
      exact .cons same (ih ran otherRan)

theorem finalAmountOf_eq_of_forall₂
    (ending : ∀ a b, related a b → a.endingAmount = b.endingAmount)
    (compared : List.Forall₂ related a b) : finalAmountOf running a = finalAmountOf running b := by
  induction compared generalizing running with
  | nil => rfl
  | cons first _ ih => rw [finalAmountOf_cons, finalAmountOf_cons, ending _ _ first, ih]

end Compared

/-- The rules that are left out do not show in the phases. -/
theorem runPhases_filter
    (leftOut : ∀ rule ∈ rules, keep rule = false → IsLeftOut catalog rule.1.rule) :
    EndsAlike (SamePhases running) (runPhases catalog (rules.filter keep) running phases).result
      (runPhases catalog rules running phases).result := by
  induction phases generalizing running with
  | nil => exact .result ⟨rfl, rfl⟩
  | cons phase rest ih =>
    have inPhase : ∀ rule ∈ rulesOf phase rules, keep rule = false →
        IsLeftOut catalog rule.1.rule := fun rule member =>
      leftOut rule (List.mem_of_mem_filter member)
    have taken : ∀ state,
        (takeRules catalog running state ((rulesOf phase rules).filter keep)).result =
          (takeRules catalog running state (rulesOf phase rules)).result :=
      takeRules_filter inPhase
    by_cases empty : rulesOf phase rules = []
    · have empty' : rulesOf phase (rules.filter keep) = [] := by
        rw [rulesOf_filter, empty, List.filter_nil]
      rw [runPhases_of_empty empty, runPhases_of_empty empty']
      exact ih
    · by_cases empty' : rulesOf phase (rules.filter keep) = []
      · -- every rule of the phase is left out, so that it ends where it starts
        have idle : (runPhase catalog phase running (rulesOf phase rules)).result =
            .ok ⟨phase, running, running, [], none⟩ := by
          rw [rulesOf_filter] at empty'
          rw [runPhase, Noted.result_bind, ← taken, empty']
          simp only [takeRules, Noted.pure_eq, Except.bind, Noted.ofMoney, finishPhase_start,
            RuleError.ofMoney]
        rw [runPhases_of_empty empty', runPhases_of_ne_nil empty, idle]
        exact ih.bind_right fun a b others => .result (others.cons_idle phase)
      · have same : (runPhase catalog phase running (rulesOf phase (rules.filter keep))).result =
            (runPhase catalog phase running (rulesOf phase rules)).result := by
          rw [rulesOf_filter, runPhase, runPhase, Noted.result_bind, Noted.result_bind, taken]
        rw [runPhases_of_ne_nil empty', runPhases_of_ne_nil empty, same]
        refine .bind (.of_eq rfl Eq.refl) ?_
        rintro breakdown _ rfl
        exact ih.bind fun a b others => .result (others.cons breakdown)

end Phases

section Prices

variable {matched : List CompiledRule} {base : Money}

private theorem configured_filter (keep : CompiledRule → Bool) :
    configured (matched.filter keep) = (configured matched).filter fun rule => keep rule.1 := by
  induction matched with
  | nil => rfl
  | cons compiled rest ih =>
    cases config : compiled.rule.pricingConfig <;> cases kept : keep compiled <;>
      simp_all [configured]

/-- A price does not change with the rules that are left out, or that have no way of stacking. -/
theorem resolve_filter {keep : CompiledRule → Bool}
    (leftOut : ∀ compiled ∈ matched, keep compiled = false →
      compiled.rule.pricingConfig = none ∨ IsLeftOut catalog compiled.rule) :
    EndsAlike PriceAdjustment.SameCharges (resolve (matched.filter keep) base catalog).result
      (resolve matched base catalog).result := by
  have phases : EndsAlike (SamePhases base)
      (runPhases catalog (configured (matched.filter keep)) base
        (Named.all (α := CalculationPhase))).result
      (runPhases catalog (configured matched) base (Named.all (α := CalculationPhase))).result := by
    rw [configured_filter]
    refine runPhases_filter fun rule member dropped => ?_
    obtain ⟨compiled, present, configured⟩ := List.mem_filterMap.mp member
    obtain ⟨config, has, rfl⟩ := Option.map_eq_some_iff.mp configured
    rcases leftOut compiled present dropped with missing | leftOut
    · rw [missing] at has
      cases has
    · exact leftOut
  have calculated : EndsAlike PriceAdjustment.SameCharges
      (calculate (matched.filter keep) base catalog).result
      (calculate matched base catalog).result := by
    rw [result_calculate, result_calculate]
    refine phases.bind fun a b same => ?_
    rw [same.finalAmount]
    refine .bind (.of_eq rfl Eq.refl) ?_
    rintro total _ rfl
    exact .result ⟨rfl, rfl, rfl, same.contributed⟩
  refine calculated.bind fun a b same => ?_
  exact .result ⟨same.baseAmount, same.finalAmount, same.totalAdjustment, same.contributed⟩

end Prices

section Catalogs

/-- Two catalogs have the same effects behind some links. -/
def AgreeOnLinks (catalog other : EffectCatalog) (rule : Rule) : Prop :=
  ∀ link ∈ rule.effects, catalog link.key = other link.key

private theorem sumLinks_congr {links : List EffectLink}
    (agree : ∀ link ∈ links, catalog link.key = other link.key) (base adjustment : Money)
    (lines : List EffectLine) :
    sumLinks catalog base adjustment lines links = sumLinks other base adjustment lines links := by
  induction links generalizing adjustment lines with
  | nil => rfl
  | cons link rest ih =>
    have ih := ih fun link member => agree link (List.mem_cons_of_mem _ member)
    simp only [sumLinks, agree link (List.mem_cons_self ..), ih]

private theorem ruleAdjustment_congr {rule : Rule} (agree : AgreeOnLinks catalog other rule)
    (base : Money) : ruleAdjustment catalog base rule = ruleAdjustment other base rule := by
  have sorted : ∀ link ∈ sortedLinks rule, catalog link.key = other link.key :=
    fun link member => agree link (List.mem_mergeSort.mp member)
  have dangling : danglingLinks catalog (sortedLinks rule) =
      danglingLinks other (sortedLinks rule) := by
    refine List.filter_congr fun link member => ?_
    rw [isUsableIn, isUsableIn, sorted link member]
  simp only [ruleAdjustment, dangling, sumLinks_congr sorted]

private theorem takeRules_congr (agree : ∀ rule ∈ rules, AgreeOnLinks catalog other rule.1.rule)
    (start : Money) (state : PhaseState) :
    takeRules catalog start state rules = takeRules other start state rules := by
  induction rules generalizing state with
  | nil => rfl
  | cons rule rest ih =>
    have ih := ih fun rule member => agree rule (List.mem_cons_of_mem _ member)
    have first := ruleAdjustment_congr (agree rule (List.mem_cons_self ..))
    obtain ⟨compiled, config⟩ := rule
    simp only [takeRules, first, ih]

private theorem runPhases_congr (agree : ∀ rule ∈ rules, AgreeOnLinks catalog other rule.1.rule)
    (running : Money) (phases : List CalculationPhase) :
    runPhases catalog rules running phases = runPhases other rules running phases := by
  induction phases generalizing running with
  | nil => rfl
  | cons phase rest ih =>
    cases inPhase : rulesOf phase rules with
    | nil => simp only [runPhases, inPhase, ih]
    | cons first others =>
      have agree : ∀ rule ∈ first :: others, AgreeOnLinks catalog other rule.1.rule := by
        intro rule member
        rw [← inPhase] at member
        exact agree rule (List.mem_of_mem_filter member)
      simp only [runPhases, inPhase, runPhase, takeRules_congr agree, ih]

/-- A price depends on no other effects than those that the rules link. -/
theorem resolve_congr {matched : List CompiledRule}
    (agree : ∀ compiled ∈ matched, AgreeOnLinks catalog other compiled.rule) (base : Money) :
    resolve matched base catalog = resolve matched base other := by
  have configuredAgree : ∀ rule ∈ configured matched, AgreeOnLinks catalog other rule.1.rule := by
    intro rule member
    obtain ⟨compiled, present, configured⟩ := List.mem_filterMap.mp member
    obtain ⟨config, _, rfl⟩ := Option.map_eq_some_iff.mp configured
    exact agree compiled present
  simp only [resolve, calculate, runPhases_congr configuredAgree]

end Catalogs

end Pricing

end RuleBook
