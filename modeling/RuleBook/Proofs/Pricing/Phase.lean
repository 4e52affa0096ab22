import Mathlib.Data.List.Sort
import Mathlib.Data.String.Basic
import RuleBook.Evaluation.Pricing
import RuleBook.Proofs.Money.Units

/-! # Phases, rule by rule

A price that is formed is a run: of its phases, in each phase of its rules, and in each rule of its
links. `Step` says what one rule can do to the state of a phase, `Run` what the rules of a phase
do one after the other, and `PhasesRun` how each phase starts where the one before it ended.
-/

namespace RuleBook

theorem EffectKind.rank_injective : Function.Injective EffectKind.rank := by
  intro a b same
  cases a <;> cases b <;> first | rfl | cases same

theorem EffectRef.before_iff {a b : EffectRef} :
    a.before b = true ↔ a.kind.rank < b.kind.rank ∨ a.kind.rank = b.kind.rank ∧ a.id ≤ b.id := by
  simp [before, EffectKind.rank_injective.eq_iff]

namespace Pricing

section Order

theorem linkBefore_iff {a b : EffectLink} :
    linkBefore a b = true ↔ b.priority.toInt < a.priority.toInt ∨
      a.priority.toInt = b.priority.toInt ∧ a.key.before b.key = true := by
  simp [linkBefore, Int32.toInt_inj]

instance : Std.Total fun a b : EffectLink => linkBefore a b = true where
  total a b := by
    simp only [linkBefore_iff, EffectRef.before_iff]
    grind [le_total a.key.id b.key.id]

instance : IsTrans EffectLink fun a b => linkBefore a b = true where
  trans a b c first second := by
    simp only [linkBefore_iff, EffectRef.before_iff] at *
    grind

instance : Std.Antisymm fun a b : EffectLink => linkBefore a b = true where
  antisymm a b first second := by
    obtain ⟨kind, id, priority⟩ := a
    obtain ⟨kind', id', priority'⟩ := b
    simp only [linkBefore_iff, EffectRef.before_iff, EffectLink.key] at first second
    have kinds : kind = kind' := EffectKind.rank_injective (by omega)
    have ids : id = id' := by grind
    have priorities : priority = priority' := Int32.toInt_inj.mp (by omega)
    rw [kinds, ids, priorities]

/-- No two different links share a place, so every way of sorting shows them in the same order. -/
theorem sortedLinks_eq_insertionSort (rule : Rule) :
    sortedLinks rule = rule.effects.insertionSort (linkBefore · · = true) := by
  simpa [sortedLinks] using List.mergeSort_eq_insertionSort (linkBefore · · = true) rule.effects

end Order

section Links

variable {catalog : EffectCatalog} {base adjustment total : Money} {lines : List EffectLine}

/-- A line shows what the effect of a link does to an amount. -/
structure LineOf (catalog : EffectCatalog) (base : Money) (link : EffectLink) (line : EffectLine) :
    Prop where
  kind : line.kind = link.kind
  effectId : line.effectId = link.effectId
  priority : line.priority = link.priority
  found : ∃ effect, catalog link.key = some effect ∧ effect.adjustment base = .ok line.amount

theorem danglingLinks_eq_nil_iff {links : List EffectLink} :
    danglingLinks catalog links = [] ↔
      ∀ link ∈ links, ∃ effect, catalog link.key = some effect ∧ effect.isUsable = true := by
  simp only [danglingLinks, List.filter_eq_nil_iff, Bool.not_eq_true', Bool.not_eq_false, isUsableIn]
  refine forall₂_congr fun link _ => ?_
  cases catalog link.key <;> simp

/-- When every link is found, the lines are one for each link, and their sum comes on top. -/
theorem lines_of_sumLinks {links : List EffectLink} {all : List EffectLine}
    (found : ∀ link ∈ links, (catalog link.key).isSome = true)
    (summed : sumLinks catalog base adjustment lines links = .ok (.computed total all)) :
    ∃ added, all = lines ++ added ∧ List.Forall₂ (LineOf catalog base) links added ∧
      (added.map EffectLine.amount).foldlM Money.add adjustment = .ok total := by
  induction links generalizing adjustment lines with
  | nil =>
    cases summed
    exact ⟨[], by simp, .nil, rfl⟩
  | cons link rest ih =>
    obtain ⟨effect, effect_found⟩ := Option.isSome_iff_exists.mp (found link (List.mem_cons_self ..))
    simp only [sumLinks, effect_found] at summed
    split at summed
    · cases summed
    · cases summed
    · rename_i amount adjusted
      split at summed
      · cases summed
      · rename_i sum added
        obtain ⟨others, rfl, each, folded⟩ :=
          ih (fun link member => found link (List.mem_cons_of_mem _ member)) summed
        refine ⟨⟨link.kind, link.effectId, link.priority, amount⟩ :: others, by simp, ?_, ?_⟩
        · exact .cons ⟨rfl, rfl, rfl, effect, effect_found, adjusted⟩ each
        · rw [List.map_cons, List.foldlM_cons, added]
          exact folded

/-- Every line is that of a link. -/
theorem exists_lineOf {links : List EffectLink} {line : EffectLine}
    (each : List.Forall₂ (LineOf catalog base) links lines) (member : line ∈ lines) :
    ∃ link ∈ links, LineOf catalog base link line := by
  induction each with
  | nil => cases member
  | cons lineOf _ ih =>
    rcases List.mem_cons.mp member with rfl | member
    · exact ⟨_, List.mem_cons_self .., lineOf⟩
    · obtain ⟨link, among, lineOf⟩ := ih member
      exact ⟨link, List.mem_cons_of_mem _ among, lineOf⟩

/-- What a computed rule does: one line for each of its links, and their sum. -/
theorem eq_of_ruleAdjustment {rule : Rule}
    (computed : ruleAdjustment catalog base rule = .ok (.computed adjustment lines)) :
    List.Forall₂ (LineOf catalog base) (sortedLinks rule) lines ∧
      (lines.map EffectLine.amount).foldlM Money.add (zeroOf base) = .ok adjustment := by
  simp only [ruleAdjustment] at computed
  split at computed
  · rename_i usable
    have found : ∀ link ∈ sortedLinks rule, (catalog link.key).isSome = true := by
      intro link member
      obtain ⟨effect, found, _⟩ := danglingLinks_eq_nil_iff.mp usable link member
      rw [found, Option.isSome_some]
    obtain ⟨added, rfl, each, folded⟩ := lines_of_sumLinks found computed
    exact ⟨each, folded⟩
  · cases computed

end Links

section Rules

variable {catalog : EffectCatalog} {start : Money}

/-- At the end of a phase at most the mark of a contribution has changed. -/
theorem mem_finalContributions {state : PhaseState} {contribution : RuleContribution}
    (member : contribution ∈ state.finalContributions) :
    ∃ before ∈ state.contributions, contribution = { before with applied := contribution.applied } := by
  unfold PhaseState.finalContributions at member
  split at member
  · obtain ⟨index, found⟩ := List.mem_iff_getElem?.mp member
    rw [List.getElem?_modify] at found
    obtain ⟨before, held, rfl⟩ := Option.map_eq_some_iff.mp found
    refine ⟨before, List.mem_of_getElem? held, ?_⟩
    split <;> rfl
  · exact ⟨contribution, member, rfl⟩

/-- What one rule does to the state of a phase: nothing, when it is left out, or one of the three
ways of stacking. -/
inductive Step (catalog : EffectCatalog) (start : Money) (rule : PricedRule) (state : PhaseState) :
    PhaseState → Prop
  | leftOut {excluded : RuleAdjustment}
      (computed : ruleAdjustment catalog (state.baseFor start rule.2.stackingBehavior) rule.1.rule =
        .ok excluded)
      (uncomputed : ∀ adjustment lines, excluded ≠ .computed adjustment lines) :
      Step catalog start rule state state
  | compound {adjustment running : Money} {lines : List EffectLine}
      (stacking : rule.2.stackingBehavior = .compound)
      (computed : ruleAdjustment catalog state.compound rule.1.rule =
        .ok (.computed adjustment lines))
      (added : state.compound.add adjustment = .ok running) :
      Step catalog start rule state { state with
        compound := running
        contributions := state.contributions ++
          [⟨rule.1.id, .compound, adjustment, true, lines⟩] }
  | sequential {adjustment sum : Money} {lines : List EffectLine}
      (stacking : rule.2.stackingBehavior = .sequential)
      (computed : ruleAdjustment catalog start rule.1.rule = .ok (.computed adjustment lines))
      (added : state.sequentialSum.add adjustment = .ok sum) :
      Step catalog start rule state { state with
        sequentialSum := sum
        contributions := state.contributions ++
          [⟨rule.1.id, .sequential, adjustment, true, lines⟩] }
  | max {adjustment : Money} {lines : List EffectLine} {wins : Bool}
      (stacking : rule.2.stackingBehavior = .max)
      (computed : ruleAdjustment catalog start rule.1.rule = .ok (.computed adjustment lines))
      (compared : PhaseState.beats state.choice adjustment = .ok wins) :
      Step catalog start rule state { state with
        choice := if wins then some (state.contributions.length, adjustment) else state.choice
        contributions := state.contributions ++ [⟨rule.1.id, .max, adjustment, false, lines⟩] }

/-- A step adds at most the contribution of its rule. -/
theorem Step.mem_contributions {rule : PricedRule} {state next : PhaseState}
    (step : Step catalog start rule state next) {contribution : RuleContribution}
    (member : contribution ∈ next.contributions) :
    contribution ∈ state.contributions ∨
      ruleAdjustment catalog (state.baseFor start rule.2.stackingBehavior) rule.1.rule =
        .ok (.computed contribution.adjustment contribution.lines) := by
  have of_added {added : RuleContribution}
      (computed : ruleAdjustment catalog (state.baseFor start rule.2.stackingBehavior) rule.1.rule =
        .ok (.computed added.adjustment added.lines))
      (member : contribution ∈ state.contributions ++ [added]) :
      contribution ∈ state.contributions ∨
        ruleAdjustment catalog (state.baseFor start rule.2.stackingBehavior) rule.1.rule =
          .ok (.computed contribution.adjustment contribution.lines) := by
    rcases List.mem_append.mp member with held | new
    · exact .inl held
    · rw [List.mem_singleton.mp new]
      exact .inr computed
  cases step with
  | leftOut _ _ => exact .inl member
  | compound stacking computed _ => exact of_added (by rw [stacking]; exact computed) member
  | sequential stacking computed _ => exact of_added (by rw [stacking]; exact computed) member
  | max stacking computed _ => exact of_added (by rw [stacking]; exact computed) member

/-- A rule that takes a step is computed or left out. -/
theorem Step.exists_fate {rule : PricedRule} {state next : PhaseState}
    (step : Step catalog start rule state next) :
    ∃ fate, ruleAdjustment catalog (state.baseFor start rule.2.stackingBehavior) rule.1.rule =
      .ok fate := by
  cases step with
  | leftOut computed _ => exact ⟨_, computed⟩
  | compound stacking computed _ => exact ⟨_, by rw [stacking]; exact computed⟩
  | sequential stacking computed _ => exact ⟨_, by rw [stacking]; exact computed⟩
  | max stacking computed _ => exact ⟨_, by rw [stacking]; exact computed⟩

/-- Taking in a computed rule is a step. -/
theorem step_of_take {rule : PricedRule} {state next : PhaseState} {adjustment : Money}
    {lines : List EffectLine}
    (computed : ruleAdjustment catalog (state.baseFor start rule.2.stackingBehavior) rule.1.rule =
      .ok (.computed adjustment lines))
    (taken : state.take rule.1.id rule.2.stackingBehavior adjustment lines = .ok next) :
    Step catalog start rule state next := by
  cases stacking : rule.2.stackingBehavior with
  | compound =>
    simp only [stacking, PhaseState.take, Except.bind_eq_ok_iff] at taken
    obtain ⟨running, added, same⟩ := taken
    cases same
    rw [stacking] at computed
    exact .compound stacking computed added
  | sequential =>
    simp only [stacking, PhaseState.take, Except.bind_eq_ok_iff] at taken
    obtain ⟨sum, added, same⟩ := taken
    cases same
    rw [stacking] at computed
    exact .sequential stacking computed added
  | max =>
    simp only [stacking, PhaseState.take, Except.bind_eq_ok_iff] at taken
    obtain ⟨wins, compared, same⟩ := taken
    cases same
    rw [stacking] at computed
    exact .max stacking computed compared

/-- The rules of a phase, one step after the other. -/
inductive Run (catalog : EffectCatalog) (start : Money) :
    PhaseState → List PricedRule → PhaseState → Prop
  | done (state : PhaseState) : Run catalog start state [] state
  | next {rule : PricedRule} {rest : List PricedRule} {state next final : PhaseState}
      (step : Step catalog start rule state next) (run : Run catalog start next rest final) :
      Run catalog start state (rule :: rest) final

/-- The first of some rules is taken in, or left out, before the others. -/
theorem takeRules_cons_eq_ok_iff {rule : PricedRule} {rest : List PricedRule}
    {state final : PhaseState} :
    (takeRules catalog start state (rule :: rest)).result = .ok final ↔
      ∃ next, Step catalog start rule state next ∧
        (takeRules catalog start next rest).result = .ok final := by
  obtain ⟨compiled, config⟩ := rule
  simp only [takeRules, Noted.bind_eq_ok_iff, Noted.ofMoney_eq_ok_iff]
  constructor
  · rintro ⟨computed, adjusted, taken⟩
    split at taken
    · simp only [Noted.bind_eq_ok_iff, Noted.ofMoney_eq_ok_iff] at taken
      obtain ⟨next, taken, others⟩ := taken
      exact ⟨next, step_of_take adjusted taken, others⟩
    · rename_i uncomputed
      exact ⟨state, .leftOut adjusted uncomputed, taken⟩
  · rintro ⟨next, step, others⟩
    cases step with
    | leftOut computed uncomputed =>
      refine ⟨_, computed, ?_⟩
      split
      · exact (uncomputed _ _ rfl).elim
      · exact others
    | compound stacking computed added =>
      dsimp only at stacking
      rw [stacking]
      refine ⟨_, computed, Noted.bind_eq_ok_iff.mpr ⟨_, Noted.ofMoney_eq_ok_iff.mpr ?_, others⟩⟩
      simp only [PhaseState.take, added]
      rfl
    | sequential stacking computed added =>
      dsimp only at stacking
      rw [stacking]
      refine ⟨_, computed, Noted.bind_eq_ok_iff.mpr ⟨_, Noted.ofMoney_eq_ok_iff.mpr ?_, others⟩⟩
      simp only [PhaseState.take, added]
      rfl
    | max stacking computed compared =>
      dsimp only at stacking
      rw [stacking]
      refine ⟨_, computed, Noted.bind_eq_ok_iff.mpr ⟨_, Noted.ofMoney_eq_ok_iff.mpr ?_, others⟩⟩
      simp only [PhaseState.take, compared]
      rfl

theorem takeRules_eq_ok_iff {rules : List PricedRule} {state final : PhaseState} :
    (takeRules catalog start state rules).result = .ok final ↔
      Run catalog start state rules final := by
  induction rules generalizing state with
  | nil =>
    constructor
    · intro same
      cases same
      exact .done _
    · intro run
      cases run
      rfl
  | cons rule rest ih =>
    rw [takeRules_cons_eq_ok_iff]
    constructor
    · rintro ⟨next, step, others⟩
      exact .next step (ih.mp others)
    · intro run
      cases run with
      | next step run => exact ⟨_, step, ih.mpr run⟩

namespace Run

variable {state mid final : PhaseState} {rules before rest : List PricedRule}

/-- From the same state the same rules lead to the same state. -/
theorem unique (run : Run catalog start state rules mid)
    (other : Run catalog start state rules final) : mid = final :=
  Except.ok.inj ((takeRules_eq_ok_iff.mpr run).symm.trans (takeRules_eq_ok_iff.mpr other))

/-- A run stops between any two of its rules. -/
theorem append_iff : Run catalog start state (before ++ rest) final ↔
    ∃ mid, Run catalog start state before mid ∧ Run catalog start mid rest final := by
  induction before generalizing state with
  | nil =>
    constructor
    · exact fun run => ⟨state, .done state, run⟩
    · rintro ⟨mid, run, others⟩
      cases run
      exact others
  | cons rule before ih =>
    constructor
    · intro run
      cases run with
      | next step run =>
        obtain ⟨mid, run, others⟩ := ih.mp run
        exact ⟨mid, .next step run, others⟩
    · rintro ⟨mid, run, others⟩
      cases run with
      | next step run => exact .next step (ih.mpr ⟨mid, run, others⟩)

/-- Every contribution comes from a rule that was reached and computed. -/
theorem exists_of_mem_contributions (run : Run catalog start state rules final)
    {contribution : RuleContribution} (member : contribution ∈ final.contributions) :
    contribution ∈ state.contributions ∨ ∃ before rule after reached,
      rules = before ++ rule :: after ∧ Run catalog start state before reached ∧
        ruleAdjustment catalog (reached.baseFor start rule.2.stackingBehavior) rule.1.rule =
          .ok (.computed contribution.adjustment contribution.lines) := by
  induction run with
  | done _ => exact .inl member
  | @next rule rest state next final step run ih =>
    rcases ih member with earlier | ⟨before, later, after, reached, rfl, run, computed⟩
    · rcases step.mem_contributions earlier with held | computed
      · exact .inl held
      · exact .inr ⟨[], rule, rest, state, rfl, .done state, computed⟩
    · exact .inr ⟨rule :: before, later, after, reached, rfl, .next step run, computed⟩

/-- Every rule of a run is computed or left out. -/
theorem exists_fate (run : Run catalog start state rules final) {rule : PricedRule}
    (member : rule ∈ rules) : ∃ base fate, ruleAdjustment catalog base rule.1.rule = .ok fate := by
  induction run with
  | done _ => cases member
  | next step _ ih =>
    rcases List.mem_cons.mp member with rfl | member
    · exact ⟨_, step.exists_fate⟩
    · exact ih member

/-- What every step keeps, a run keeps. -/
theorem preserves (invariant : PhaseState → Prop)
    (keeps : ∀ {rule state next}, Step catalog start rule state next → invariant state →
      invariant next)
    (run : Run catalog start state rules final) (holds : invariant state) : invariant final := by
  induction run with
  | done _ => exact holds
  | next step _ ih => exact ih (keeps step holds)

end Run

end Rules

section Phases

variable {catalog : EffectCatalog} {start summed ending : Money} {floor? : Option Money}

@[simp] theorem units_zeroOf (amount : Money) (scale : Nat) : (zeroOf amount).units scale = 0 := by
  simp [zeroOf, Money.units]

theorem currency_floorOf (amount : Money) : (floorOf amount).currency = amount.currency := by
  unfold floorOf
  split <;> rfl

theorem scale_floorOf (amount : Money) : (floorOf amount).scale = amount.scale := by
  unfold floorOf
  split <;> rfl

/-- The floor counts the smaller of the starting amount and nothing at every scale. -/
theorem units_floorOf (amount : Money) (scale : Nat) :
    (floorOf amount).units scale = if amount.isNegative then amount.units scale else 0 := by
  unfold floorOf
  split
  · rfl
  · exact units_zeroOf amount scale

/-- A phase ends at its sum, unless that lies below the floor; then it ends there, and what was
missing is shown. -/
theorem eq_of_clamp (clamped : clamp start summed = .ok (ending, floor?)) :
    (ending = summed ∧ floor? = none ∧
      ∃ order, summed.compare (floorOf start) = .ok order ∧ order ≠ .lt) ∨
    (ending = floorOf start ∧
      ∃ restored, floor? = some restored ∧ (floorOf start).subtract summed = .ok restored) := by
  simp only [clamp, Except.bind_eq_ok_iff] at clamped
  obtain ⟨order, compared, clamped⟩ := clamped
  split at clamped
  · simp only [Except.bind_eq_ok_iff] at clamped
    obtain ⟨restored, subtracted, same⟩ := clamped
    cases same
    exact .inr ⟨rfl, restored, rfl, subtracted⟩
  · rename_i above
    cases clamped
    exact .inl ⟨rfl, rfl, order, compared, above⟩

/-- A phase that is closed: the sum of the three ways of stacking, then the floor. -/
structure Finished (start : Money) (state : PhaseState) (breakdown : PhaseBreakdown) : Prop where
  starting : breakdown.startingAmount = start
  contributions : breakdown.contributions = state.finalContributions
  ending : ∃ part summed, state.compound.add state.sequentialSum = .ok part ∧
    part.add (state.chosenAdjustment start) = .ok summed ∧
    clamp start summed = .ok (breakdown.endingAmount, breakdown.floorAdjustment)

/-- Phases one after the other, each from where the one before it ended. -/
inductive PhasesRun (catalog : EffectCatalog) (rules : List PricedRule) :
    Money → List CalculationPhase → List PhaseBreakdown → Prop
  | done (running : Money) : PhasesRun catalog rules running [] []
  | skip {running : Money} {phase : CalculationPhase} {rest : List CalculationPhase}
      {breakdowns : List PhaseBreakdown} (empty : rulesOf phase rules = [])
      (run : PhasesRun catalog rules running rest breakdowns) :
      PhasesRun catalog rules running (phase :: rest) breakdowns
  | next {running : Money} {rest : List CalculationPhase} {breakdown : PhaseBreakdown}
      {others : List PhaseBreakdown} {state : PhaseState}
      (rulesRun : Run catalog running (.start running) (rulesOf breakdown.phase rules) state)
      (finished : Finished running state breakdown)
      (run : PhasesRun catalog rules breakdown.endingAmount rest others) :
      PhasesRun catalog rules running (breakdown.phase :: rest) (breakdown :: others)

/-- A phase that gives a breakdown takes in its rules and is closed. -/
theorem eq_of_runPhase {phase : CalculationPhase} {rules : List PricedRule}
    {breakdown : PhaseBreakdown} (ran : (runPhase catalog phase start rules).result = .ok breakdown) :
    breakdown.phase = phase ∧ ∃ state, Run catalog start (.start start) rules state ∧
      Finished start state breakdown := by
  simp only [runPhase, Noted.bind_eq_ok_iff, Noted.ofMoney_eq_ok_iff, takeRules_eq_ok_iff,
    finishPhase, unclampedEnd, Except.bind_eq_ok_iff] at ran
  obtain ⟨state, run, summed, ⟨part, first, second⟩, ⟨ending, floor⟩, clamped, same⟩ := ran
  cases same
  exact ⟨rfl, state, run, rfl, rfl, part, summed, first, second, clamped⟩

theorem phasesRun_of_runPhases {rules : List PricedRule} {phases : List CalculationPhase}
    {breakdowns : List PhaseBreakdown}
    (ran : (runPhases catalog rules start phases).result = .ok breakdowns) :
    PhasesRun catalog rules start phases breakdowns := by
  induction phases generalizing start breakdowns with
  | nil =>
    cases ran
    exact .done start
  | cons phase rest ih =>
    simp only [runPhases] at ran
    split at ran
    · rename_i empty
      exact .skip empty (ih ran)
    · simp only [Noted.bind_eq_ok_iff] at ran
      obtain ⟨breakdown, ran, others, rest_ran, same⟩ := ran
      cases same
      obtain ⟨rfl, state, run, finished⟩ := eq_of_runPhase ran
      exact .next run finished (ih rest_ran)

/-- A price is what was calculated, marked as partial or not. -/
theorem resolve_eq_ok_iff {matched : List CompiledRule} {base : Money} {price : PriceAdjustment} :
    (resolve matched base catalog).result = .ok price ↔
      ∃ whole, (calculate matched base catalog).result = .ok whole ∧ price = { whole with
        isPartial := (resolve matched base catalog).notes.any
          (·.kind == .danglingEffectReference) } := by
  simp only [resolve]
  cases (calculate matched base catalog).result with
  | error e => simp [Except.map]
  | ok whole => simp [Except.map, eq_comm]

theorem resolve_eq_error_iff {matched : List CompiledRule} {base : Money} {e : RuleError} :
    (resolve matched base catalog).result = .error e ↔
      (calculate matched base catalog).result = .error e := by
  simp only [resolve]
  cases (calculate matched base catalog).result with
  | error cause => simp [Except.map]
  | ok whole => simp [Except.map]

/-- A price is a run of its phases from the base amount. -/
theorem eq_of_resolve {matched : List CompiledRule} {base : Money} {price : PriceAdjustment}
    (priced : (resolve matched base catalog).result = .ok price) :
    PhasesRun catalog (configured matched) base (Named.all (α := CalculationPhase)) price.phases ∧
      price.baseAmount = base ∧ price.finalAmount = finalAmountOf base price.phases ∧
      price.finalAmount.subtract base = .ok price.totalAdjustment := by
  obtain ⟨whole, calculated, rfl⟩ := resolve_eq_ok_iff.mp priced
  simp only [calculate, Noted.bind_eq_ok_iff, Noted.ofMoney_eq_ok_iff] at calculated
  obtain ⟨_, _, phases, ran, total, subtracted, same⟩ := calculated
  cases same
  exact ⟨phasesRun_of_runPhases ran, rfl, rfl, subtracted⟩

theorem result_calculate (matched : List CompiledRule) (base : Money) (catalog : EffectCatalog) :
    (calculate matched base catalog).result =
      (runPhases catalog (configured matched) base (Named.all (α := CalculationPhase))).result.bind
        fun phases =>
          (RuleError.ofMoney ((finalAmountOf base phases).subtract base)).bind fun total =>
            .ok ⟨base, finalAmountOf base phases, total, phases, false⟩ := by
  simp only [calculate, Noted.result_bind]
  rfl

/-- Every phase of a run takes in its rules from its starting amount. -/
theorem PhasesRun.exists_run {rules : List PricedRule} {phases : List CalculationPhase}
    {breakdowns : List PhaseBreakdown} (run : PhasesRun catalog rules start phases breakdowns)
    {breakdown : PhaseBreakdown} (member : breakdown ∈ breakdowns) :
    ∃ state, Run catalog breakdown.startingAmount (.start breakdown.startingAmount)
        (rulesOf breakdown.phase rules) state ∧
      Finished breakdown.startingAmount state breakdown := by
  induction run with
  | done _ => cases member
  | skip _ _ ih => exact ih member
  | next rulesRun finished _ ih =>
    rcases List.mem_cons.mp member with rfl | member
    · obtain rfl := finished.starting
      exact ⟨_, rulesRun, finished⟩
    · exact ih member

/-- Every rule of a phase that is run is computed or left out. -/
theorem PhasesRun.exists_fate {rules : List PricedRule} {phases : List CalculationPhase}
    {breakdowns : List PhaseBreakdown} (run : PhasesRun catalog rules start phases breakdowns)
    {phase : CalculationPhase} (among : phase ∈ phases) {rule : PricedRule}
    (member : rule ∈ rulesOf phase rules) :
    ∃ base fate, ruleAdjustment catalog base rule.1.rule = .ok fate := by
  induction run with
  | done _ => cases among
  | skip empty _ ih =>
    rcases List.mem_cons.mp among with rfl | among
    · rw [empty] at member
      cases member
    · exact ih among
  | next rulesRun _ _ ih =>
    rcases List.mem_cons.mp among with rfl | among
    · exact rulesRun.exists_fate member
    · exact ih among

end Phases

section Samples

/-- A pricing rule for everything, with links. -/
def sampleRule (id : String) (stacking : StackingBehavior) (phase : CalculationPhase)
    (links : List EffectLink) : CompiledRule :=
  Rule.compile { Rule.ofCondition id pricingDomain id (.bool true) with
    pricingConfig := some ⟨stacking, phase⟩
    effects := links } 1

/-- Promotions take away 60 percent, fees are 2.505 dollars, and taxes 8.25 percent. -/
def sampleCatalog : EffectCatalog := fun key =>
  match key.kind with
  | .promotion => some (.promotion ⟨key.id, key.id, .percentage (.percent 60)⟩)
  | .fee => some (.fee ⟨key.id, key.id, .fixed ⟨2505, .usd, 3⟩, true, false⟩)
  | .taxRate => some (.taxRate ⟨key.id, key.id, ⟨825, 4⟩, none⟩)

end Samples

end Pricing

end RuleBook
