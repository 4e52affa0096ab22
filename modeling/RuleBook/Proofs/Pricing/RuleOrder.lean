import RuleBook.Proofs.Pricing.Exclusion
import RuleBook.Proofs.Pricing.Reports
import RuleBook.Proofs.Pricing.Stacking

/-! # The order of rules

The three ways of stacking do not see one another: the rules of one way take the same steps among
the others as they do alone (`Run.restrict`). So a price does not change when the matched rules come
in another order, as long as in each phase the compound rules keep theirs and so do the max rules;
sequential rules, whose adjustments are only added up, may stand anywhere.
-/

namespace RuleBook

/-- Two phases come to the same by the same contributions, in whatever order these are shown. -/
structure PhaseBreakdown.SameUpToOrder (a b : PhaseBreakdown) : Prop where
  phase : a.phase = b.phase
  startingAmount : a.startingAmount = b.startingAmount
  endingAmount : a.endingAmount = b.endingAmount
  floorAdjustment : a.floorAdjustment = b.floorAdjustment
  contributions : a.contributions.Perm b.contributions

/-- Two prices come to the same, phase by phase and rule by rule. -/
structure PriceAdjustment.SameUpToOrder (a b : PriceAdjustment) : Prop where
  finalAmount : a.finalAmount = b.finalAmount
  totalAdjustment : a.totalAdjustment = b.totalAdjustment
  phases : List.Forall₂ PhaseBreakdown.SameUpToOrder a.phases b.phases
  contribution? : ∀ ruleId, a.contribution? ruleId = b.contribution? ruleId

section Lists

private theorem modify_concat {α : Type} {items : List α} {item : α} {index : Nat} (change : α → α)
    (inside : index < items.length) :
    (items ++ [item]).modify index change = items.modify index change ++ [item] := by
  induction items generalizing index with
  | nil => cases inside
  | cons first rest ih =>
    cases index with
    | zero => rfl
    | succ index =>
      rw [List.cons_append, List.modify_succ_cons, List.modify_succ_cons, List.cons_append,
        ih (Nat.lt_of_succ_lt_succ inside)]

/-- Under distinct keys the order of the items makes no difference to a look-up. -/
theorem find?_key_eq_of_perm {α β : Type} [BEq β] [LawfulBEq β] {key : α → β}
    {items others : List α} (distinct : (items.map key).Nodup) (perm : items.Perm others)
    (wanted : β) : items.find? (key · == wanted) = others.find? (key · == wanted) := by
  rw [← List.head?_filter, ← List.head?_filter]
  have filtered := perm.filter (key · == wanted)
  by_cases present : ∃ item ∈ items, key item = wanted
  · obtain ⟨item, member, rfl⟩ := present
    rw [filter_key_of_mem distinct member] at filtered ⊢
    rw [List.singleton_perm.mp filtered]
  · have empty : items.filter (key · == wanted) = [] := by
      simpa [List.filter_eq_nil_iff] using present
    rw [empty] at filtered ⊢
    rw [List.nil_perm.mp filtered]

/-- Contributions are the same when those of each way of stacking are. -/
theorem perm_of_perm_filter {a b : List RuleContribution}
    (each : ∀ stacking : StackingBehavior, (a.filter (·.stackingBehavior == stacking)).Perm
      (b.filter (·.stackingBehavior == stacking))) : a.Perm b := by
  apply List.perm_iff_count.mpr
  intro contribution
  have counted := (each contribution.stackingBehavior).count_eq contribution
  rwa [List.count_filter (by simp), List.count_filter (by simp)] at counted

end Lists

namespace Pricing

/-- The rules of a phase that are stacked in one way, in their order. -/
def stackedIn (phase : CalculationPhase) (stacking : StackingBehavior)
    (matched : List CompiledRule) : List PricedRule :=
  (rulesOf phase (configured matched)).filter (·.2.stackingBehavior == stacking)

/-- Matched rules come in another order, but within each phase the compound rules keep theirs and so
do the max rules. -/
structure Reordered (matched other : List CompiledRule) : Prop where
  perm : matched.Perm other
  compound : ∀ phase, stackedIn phase .compound matched = stackedIn phase .compound other
  max : ∀ phase, stackedIn phase .max matched = stackedIn phase .max other

section Restriction

variable {catalog : EffectCatalog} {start : Money} {stacking : StackingBehavior}
  {rule : PricedRule} {rules : List PricedRule} {state next final alone : PhaseState}

namespace PhaseState

/-- The choice is one of the contributions. -/
def IsPlaced (state : PhaseState) : Prop :=
  ∀ index best, state.choice = some (index, best) → index < state.contributions.length

/-- A contribution that does not take over the choice is shown behind the others. -/
theorem finalContributions_concat (placed : state.IsPlaced) (compound sequentialSum : Money)
    (contribution : RuleContribution) :
    finalContributions ⟨compound, sequentialSum, state.choice,
      state.contributions ++ [contribution]⟩ = state.finalContributions ++ [contribution] := by
  rw [finalContributions, finalContributions]
  cases chosen : state.choice with
  | none => rfl
  | some choice => exact modify_concat _ (placed choice.1 choice.2 chosen)

/-- A contribution that takes over the choice is shown with the mark, and no other is. -/
theorem finalContributions_chosen (contributions : List RuleContribution)
    (compound sequentialSum best : Money) (contribution : RuleContribution) :
    finalContributions ⟨compound, sequentialSum, some (contributions.length, best),
      contributions ++ [contribution]⟩ =
        contributions ++ [{ contribution with applied := true }] :=
  modify_length_append _ _ _ _

/-- Whether an adjustment is larger depends on the one chosen so far, but not on its place. -/
theorem beats_congr {choice other : Option (Nat × Money)} (adjustment : Money)
    (same : choice.map Prod.snd = other.map Prod.snd) :
    beats choice adjustment = beats other adjustment := by
  cases choice with
  | none =>
    cases other with
    | none => rfl
    | some _ => cases same
  | some chosen =>
    cases other with
    | none => cases same
    | some _ =>
      obtain ⟨_, _⟩ := chosen
      cases same
      rfl

end PhaseState

/-- A state is what another state has of one way of stacking. -/
structure Restricts (stacking : StackingBehavior) (state alone : PhaseState) : Prop where
  placed : state.IsPlaced
  alone_placed : alone.IsPlaced
  base : ∀ start, alone.baseFor start stacking = state.baseFor start stacking
  sequentialSum : stacking = .sequential → alone.sequentialSum = state.sequentialSum
  contributions : alone.contributions =
    state.contributions.filter (·.stackingBehavior == stacking)
  choice : stacking = .max → alone.choice.map Prod.snd = state.choice.map Prod.snd
  shown : stacking = .max → alone.finalContributions =
    state.finalContributions.filter (·.stackingBehavior == stacking)

private theorem restricts_start (start : Money) :
    Restricts stacking (.start start) (.start start) where
  placed := fun _ _ chosen => by cases chosen
  alone_placed := fun _ _ chosen => by cases chosen
  base := fun _ => rfl
  sequentialSum := fun _ => rfl
  contributions := rfl
  choice := fun _ => rfl
  shown := fun _ => rfl

/-- Every step leaves the choice among the contributions. -/
theorem Step.isPlaced (step : Step catalog start rule state next) (placed : state.IsPlaced) :
    next.IsPlaced := by
  intro index best chosen
  cases step with
  | leftOut _ _ => exact placed index best chosen
  | compound _ _ _ =>
    have inside := placed index best chosen
    simp only [List.length_append]
    omega
  | sequential _ _ _ =>
    have inside := placed index best chosen
    simp only [List.length_append]
    omega
  | @max adjustment lines wins _ _ _ =>
    cases wins with
    | true =>
      cases chosen
      simp
    | false =>
      have inside := placed index best chosen
      simp only [List.length_append]
      omega

/-- A rule that is stacked in another way does not show. -/
theorem Step.restrict_other (step : Step catalog start rule state next)
    (other : rule.2.stackingBehavior ≠ stacking) (restricts : Restricts stacking state alone) :
    Restricts stacking next alone := by
  have placed := step.isPlaced restricts.placed
  have drops {contribution : RuleContribution}
      (own : contribution.stackingBehavior = rule.2.stackingBehavior)
      (items : List RuleContribution) :
      (items ++ [contribution]).filter (·.stackingBehavior == stacking) =
        items.filter (·.stackingBehavior == stacking) := by
    simp [own, other]
  cases step with
  | leftOut _ _ => exact restricts
  | compound own _ _ =>
    refine ⟨placed, restricts.alone_placed, fun start => ?_, restricts.sequentialSum, ?_,
      restricts.choice, fun isMax => ?_⟩
    · -- the running amount is no amount that rules of another way are computed against
      cases stacking with
      | compound => exact (other own).elim
      | sequential => rfl
      | max => rfl
    · rw [drops own.symm, restricts.contributions]
    · rw [PhaseState.finalContributions_concat restricts.placed, drops own.symm,
        restricts.shown isMax]
  | sequential own _ _ =>
    have not_sequential : stacking ≠ .sequential := fun same => other (own.trans same.symm)
    refine ⟨placed, restricts.alone_placed, restricts.base, fun same => (not_sequential same).elim,
      ?_, restricts.choice, fun isMax => ?_⟩
    · rw [drops own.symm, restricts.contributions]
    · rw [PhaseState.finalContributions_concat restricts.placed, drops own.symm,
        restricts.shown isMax]
  | max own _ _ =>
    have not_max : stacking ≠ .max := fun isMax => other (own.trans isMax.symm)
    refine ⟨placed, restricts.alone_placed, restricts.base, restricts.sequentialSum, ?_,
      fun isMax => (not_max isMax).elim, fun isMax => (not_max isMax).elim⟩
    rw [drops own.symm, restricts.contributions]

/-- A rule takes the same step among the others as it does alone. -/
theorem Step.restrict_own (step : Step catalog start rule state next)
    (own : rule.2.stackingBehavior = stacking) (restricts : Restricts stacking state alone) :
    ∃ aloneNext, Step catalog start rule alone aloneNext ∧ Restricts stacking next aloneNext := by
  have placed := step.isPlaced restricts.placed
  have keeps {contribution : RuleContribution}
      (same : contribution.stackingBehavior = rule.2.stackingBehavior)
      (items : List RuleContribution) :
      (items ++ [contribution]).filter (·.stackingBehavior == stacking) =
        items.filter (·.stackingBehavior == stacking) ++ [contribution] := by
    simp [same, own]
  cases step with
  | leftOut computed uncomputed =>
    refine ⟨alone, .leftOut ?_ uncomputed, restricts⟩
    rw [own, restricts.base, ← own]
    exact computed
  | compound isCompound computed added =>
    obtain rfl := own.symm.trans isCompound
    have running : state.compound = alone.compound := (restricts.base start).symm
    rw [running] at computed added
    have aloneStep : Step catalog start rule alone _ := .compound isCompound computed added
    refine ⟨_, aloneStep, placed, aloneStep.isPlaced restricts.alone_placed, fun _ => rfl, ?_, ?_,
      ?_, ?_⟩
    · rintro ⟨⟩
    · rw [keeps isCompound.symm, restricts.contributions]
    · rintro ⟨⟩
    · rintro ⟨⟩
  | sequential isSequential computed added =>
    obtain rfl := own.symm.trans isSequential
    rw [← restricts.sequentialSum rfl] at added
    have aloneStep : Step catalog start rule alone _ := .sequential isSequential computed added
    refine ⟨_, aloneStep, placed, aloneStep.isPlaced restricts.alone_placed, fun _ => rfl,
      fun _ => rfl, ?_, ?_, ?_⟩
    · rw [keeps isSequential.symm, restricts.contributions]
    · rintro ⟨⟩
    · rintro ⟨⟩
  | @max adjustment lines wins isMax computed compared =>
    obtain rfl := own.symm.trans isMax
    rw [← PhaseState.beats_congr adjustment (restricts.choice rfl)] at compared
    have aloneStep : Step catalog start rule alone _ := .max isMax computed compared
    refine ⟨_, aloneStep, placed, aloneStep.isPlaced restricts.alone_placed, fun _ => rfl, ?_, ?_,
      fun _ => ?_, fun _ => ?_⟩
    · rintro ⟨⟩
    · rw [keeps isMax.symm, restricts.contributions]
    · cases wins with
      | true => rfl
      | false => exact restricts.choice rfl
    · cases wins with
      | true =>
        simp only [if_true]
        rw [PhaseState.finalContributions_chosen, PhaseState.finalContributions_chosen,
          keeps isMax.symm, restricts.contributions]
      | false =>
        simp only [Bool.false_eq_true, if_false]
        rw [PhaseState.finalContributions_concat restricts.alone_placed,
          PhaseState.finalContributions_concat restricts.placed, keeps isMax.symm,
          restricts.shown rfl]

/-- The rules of one way of stacking take the same steps among the others as they do alone. -/
theorem Run.restrict (run : Run catalog start state rules final)
    (restricts : Restricts stacking state alone) :
    ∃ aloneFinal, Run catalog start alone (rules.filter (·.2.stackingBehavior == stacking))
      aloneFinal ∧ Restricts stacking final aloneFinal := by
  induction run generalizing alone with
  | done _ => exact ⟨alone, .done alone, restricts⟩
  | @next rule rest state next final step run ih =>
    by_cases own : rule.2.stackingBehavior = stacking
    · obtain ⟨aloneNext, aloneStep, restricts⟩ := step.restrict_own own restricts
      obtain ⟨aloneFinal, aloneRun, restricts⟩ := ih restricts
      rw [List.filter_cons_of_pos (by simpa using own)]
      exact ⟨aloneFinal, .next aloneStep aloneRun, restricts⟩
    · rw [List.filter_cons_of_neg (by simpa using own)]
      exact ih (step.restrict_other own restricts)

end Restriction

section Phases

variable {catalog : EffectCatalog} {start : Money} {rules others : List PricedRule}
  {state other final : PhaseState} {phase : CalculationPhase} {phases : List CalculationPhase}

/-- The contribution of a sequential rule, if it can be computed. -/
def sequentialContribution? (catalog : EffectCatalog) (start : Money) (rule : PricedRule) :
    Option RuleContribution :=
  match ruleAdjustment catalog start rule.1.rule with
  | .ok (.computed adjustment lines) => some ⟨rule.1.id, .sequential, adjustment, true, lines⟩
  | _ => none

/-- Each sequential rule contributes by itself. -/
theorem Run.contributions_sequential (run : Run catalog start state rules final)
    (sequential : ∀ rule ∈ rules, rule.2.stackingBehavior = .sequential) :
    final.contributions =
      state.contributions ++ rules.filterMap (sequentialContribution? catalog start) := by
  induction run with
  | done _ => simp
  | @next rule rest state next final step run ih =>
    have own := sequential rule (List.mem_cons_self ..)
    rw [ih fun rule member => sequential rule (List.mem_cons_of_mem _ member), List.filterMap_cons]
    cases step with
    | @leftOut excluded computed uncomputed =>
      rw [own] at computed
      have left_out : sequentialContribution? catalog start rule = none := by
        simp only [sequentialContribution?]
        split
        · rename_i adjustment lines computable
          exact (uncomputed _ _ (Except.ok.inj (computed.symm.trans computable))).elim
        · rfl
      rw [left_out]
    | compound isCompound _ _ => rw [own] at isCompound; cases isCompound
    | sequential _ computed _ =>
      simp only [sequentialContribution?, computed, List.append_assoc, List.singleton_append]
    | max isMax _ _ => rw [own] at isMax; cases isMax

/-- Two states at the end of a phase differ at most in the order of what they show. -/
structure PhaseState.SameUpToOrder (start : Money) (a b : PhaseState) : Prop where
  compound : a.compound = b.compound
  sequentialSum : a.sequentialSum = b.sequentialSum
  chosen : a.chosenAdjustment start = b.chosenAdjustment start
  shown : a.finalContributions.Perm b.finalContributions

private theorem PhaseState.chosenAdjustment_eq (state : PhaseState) (start : Money) :
    state.chosenAdjustment start = (state.choice.map Prod.snd).getD (zeroOf start) := by
  unfold chosenAdjustment
  cases state.choice with
  | none => rfl
  | some choice => rfl

/-- What is shown of the ways of stacking in which nothing is chosen is what was taken in. -/
theorem Stacked.filter_finalContributions (stacked : Stacked catalog rules start state)
    {stacking : StackingBehavior} (other : stacking ≠ .max) :
    state.finalContributions.filter (·.stackingBehavior == stacking) =
      state.contributions.filter (·.stackingBehavior == stacking) := by
  cases stacked.shows with
  | plain same _ _ => rw [same]
  | marked same split isMax _ _ => simp [same, split, isMax, other.symm]

/-- Rules in an order that keeps that of the compound and that of the max rules lead to the same
end of their phase. -/
theorem Run.sameUpToOrder (run : Run catalog start (.start start) rules state)
    (otherRun : Run catalog start (.start start) others other) (perm : rules.Perm others)
    (compound : rules.filter (·.2.stackingBehavior == .compound) =
      others.filter (·.2.stackingBehavior == .compound))
    (max : rules.filter (·.2.stackingBehavior == .max) =
      others.filter (·.2.stackingBehavior == .max)) :
    state.SameUpToOrder start other := by
  have stacked := run.stacked (.of_start start) fun _ member => member
  have otherStacked := otherRun.stacked (.of_start start) fun _ member => member
  -- the compound rules alone, and the max rules alone, run in the same way in both orders
  obtain ⟨compoundAlone, compoundRun, compoundOf⟩ :=
    run.restrict (restricts_start start : Restricts .compound _ _)
  obtain ⟨_, otherCompoundRun, otherCompoundOf⟩ :=
    otherRun.restrict (restricts_start start : Restricts .compound _ _)
  obtain rfl := (compound ▸ compoundRun).unique otherCompoundRun
  obtain ⟨maxAlone, maxRun, maxOf⟩ := run.restrict (restricts_start start : Restricts .max _ _)
  obtain ⟨_, otherMaxRun, otherMaxOf⟩ :=
    otherRun.restrict (restricts_start start : Restricts .max _ _)
  obtain rfl := (max ▸ maxRun).unique otherMaxRun
  -- the sequential rules contribute each by itself, in whatever order
  have sequential : (state.contributions.filter (·.stackingBehavior == .sequential)).Perm
      (other.contributions.filter (·.stackingBehavior == .sequential)) := by
    obtain ⟨alone, aloneRun, restricts⟩ :=
      run.restrict (restricts_start start : Restricts .sequential _ _)
    obtain ⟨otherAlone, otherAloneRun, otherRestricts⟩ :=
      otherRun.restrict (restricts_start start : Restricts .sequential _ _)
    rw [← restricts.contributions, ← otherRestricts.contributions,
      aloneRun.contributions_sequential (by simp), otherAloneRun.contributions_sequential (by simp)]
    exact (perm.filter _).filterMap _
  constructor
  · exact (compoundOf.base start).symm.trans (otherCompoundOf.base start)
  · exact Money.foldlM_add_eq_of_perm (sequential.map _) stacked.sequential otherStacked.sequential
  · rw [PhaseState.chosenAdjustment_eq, PhaseState.chosenAdjustment_eq, ← maxOf.choice rfl,
      ← otherMaxOf.choice rfl]
  · apply perm_of_perm_filter
    intro stacking
    cases stacking with
    | compound =>
      rw [stacked.filter_finalContributions (by decide),
        otherStacked.filter_finalContributions (by decide), ← compoundOf.contributions,
        ← otherCompoundOf.contributions]
    | sequential =>
      rw [stacked.filter_finalContributions (by decide),
        otherStacked.filter_finalContributions (by decide)]
      exact sequential
    | max => rw [← maxOf.shown rfl, ← otherMaxOf.shown rfl]

/-- A phase comes to the same when its rules come in an order that keeps that of the compound and
that of the max rules. -/
theorem sameUpToOrder_of_runPhase {a b : PhaseBreakdown} (perm : rules.Perm others)
    (compound : rules.filter (·.2.stackingBehavior == .compound) =
      others.filter (·.2.stackingBehavior == .compound))
    (max : rules.filter (·.2.stackingBehavior == .max) =
      others.filter (·.2.stackingBehavior == .max))
    (ran : (runPhase catalog phase start rules).result = .ok a)
    (otherRan : (runPhase catalog phase start others).result = .ok b) : a.SameUpToOrder b := by
  obtain ⟨named, state, run, finished⟩ := eq_of_runPhase ran
  obtain ⟨otherNamed, other, otherRun, otherFinished⟩ := eq_of_runPhase otherRan
  have same := run.sameUpToOrder otherRun perm compound max
  obtain ⟨ending, floor⟩ := finished.ending_eq otherFinished same.compound same.sequentialSum
    same.chosen
  refine ⟨named.trans otherNamed.symm, ?_, ending, floor, ?_⟩
  · rw [finished.starting, otherFinished.starting]
  · rw [finished.contributions, otherFinished.contributions]
    exact same.shown

end Phases

section Prices

variable {catalog : EffectCatalog} {matched other : List CompiledRule} {base : Money}
  {price otherPrice : PriceAdjustment}

/-- The contributions of a price, in their order. -/
theorem map_ruleId_contributions (price : PriceAdjustment) :
    (price.phases.flatMap (·.contributions)).map RuleContribution.ruleId =
      price.places.map Prod.fst := by
  rw [PriceAdjustment.places, List.map_flatMap, List.map_flatMap]
  refine List.flatMap_congr fun breakdown _ => ?_
  rw [PhaseBreakdown.places, List.map_map]
  rfl

/-- Distinct matched rules contribute at most once each. -/
theorem nodup_ruleIds (distinct : (matched.map CompiledRule.id).Nodup)
    (priced : (resolve matched base catalog).result = .ok price) :
    ((price.phases.flatMap (·.contributions)).map RuleContribution.ruleId).Nodup := by
  obtain ⟨_, places, _⟩ := reports_of_resolve priced
  rw [map_ruleId_contributions, (places.map Prod.fst).nodup_iff, List.map_map]
  exact (nodup_configured distinct).sublist (List.filter_sublist.map _)

private theorem perm_contributions {a b : List PhaseBreakdown}
    (same : List.Forall₂ PhaseBreakdown.SameUpToOrder a b) :
    (a.flatMap (·.contributions)).Perm (b.flatMap (·.contributions)) := by
  induction same with
  | nil => exact .nil
  | cons first _ ih => exact first.contributions.append ih

/-- A price does not change when the matched rules, with distinct ids, come in another order in
which within each phase the compound rules keep theirs and so do the max rules. -/
theorem sameUpToOrder_of_resolve (distinct : (matched.map CompiledRule.id).Nodup)
    (reordered : Reordered matched other)
    (priced : (resolve matched base catalog).result = .ok price)
    (otherPriced : (resolve other base catalog).result = .ok otherPrice) :
    price.SameUpToOrder otherPrice := by
  have perm : (configured matched).Perm (configured other) := reordered.perm.filterMap _
  have inPhase (phase : CalculationPhase) :
      (rulesOf phase (configured matched)).Perm (rulesOf phase (configured other)) := perm.filter _
  have phases : List.Forall₂ PhaseBreakdown.SameUpToOrder price.phases otherPrice.phases := by
    apply forall₂_of_runPhases (fun _ _ same => same.endingAmount) _ _
      (runPhases_of_resolve priced) (runPhases_of_resolve otherPriced)
    · intro phase
      rw [← List.length_eq_zero_iff, (inPhase phase).length_eq, List.length_eq_zero_iff]
    · intro phase start a b
      exact sameUpToOrder_of_runPhase (inPhase phase) (reordered.compound phase)
        (reordered.max phase)
  have final : finalAmountOf base price.phases = finalAmountOf base otherPrice.phases :=
    finalAmountOf_eq_of_forall₂ (fun _ _ same => same.endingAmount) phases
  obtain ⟨_, _, price_final, subtracted⟩ := eq_of_resolve priced
  obtain ⟨_, _, other_final, otherSubtracted⟩ := eq_of_resolve otherPriced
  have finalAmount : price.finalAmount = otherPrice.finalAmount := by
    rw [price_final, other_final, final]
  rw [finalAmount] at subtracted
  refine ⟨finalAmount, Except.ok.inj (subtracted.symm.trans otherSubtracted), phases, ?_⟩
  intro ruleId
  exact find?_key_eq_of_perm (nodup_ruleIds distinct priced) (perm_contributions phases) ruleId

/-- Rules with one effect each, by their way of stacking, phase, kind of effect and id. -/
def singleEffectRules
    (rules : List (StackingBehavior × CalculationPhase × EffectKind × String)) :
    List CompiledRule :=
  rules.map fun (stacking, phase, kind, id) => sampleRule id stacking phase [⟨kind, id, 0⟩]

/-- Rules of both phases that are stacked in all three ways. -/
def mixedRules : List CompiledRule := singleEffectRules
  [(.sequential, .preDiscount, .promotion, "club"), (.max, .preDiscount, .fee, "carriage"),
    (.compound, .preDiscount, .fee, "handling"), (.max, .preDiscount, .promotion, "spring"),
    (.compound, .preDiscount, .taxRate, "tax"), (.sequential, .preDiscount, .fee, "service"),
    (.compound, .postDiscount, .taxRate, "levy")]

/-- The same rules: the sequential ones change places, and so do those of different ways. -/
def remixedRules : List CompiledRule := singleEffectRules
  [(.compound, .postDiscount, .taxRate, "levy"), (.compound, .preDiscount, .fee, "handling"),
    (.sequential, .preDiscount, .fee, "service"), (.compound, .preDiscount, .taxRate, "tax"),
    (.max, .preDiscount, .fee, "carriage"), (.max, .preDiscount, .promotion, "spring"),
    (.sequential, .preDiscount, .promotion, "club")]

private theorem reordered_mixedRules : Reordered mixedRules remixedRules where
  perm := List.Perm.map _ (by decide)
  compound := fun phase => by cases phase <;> rfl
  max := fun phase => by cases phase <;> rfl

theorem sameUpToOrder_of_resolve_mixedRules : ∃ price otherPrice,
    (mixedRules.map CompiledRule.id).Nodup ∧ Reordered mixedRules remixedRules ∧
      (resolve mixedRules (.ofAmount 1000 .usd) sampleCatalog).result = .ok price ∧
      (resolve remixedRules (.ofAmount 1000 .usd) sampleCatalog).result = .ok otherPrice ∧
      price.SameUpToOrder otherPrice := by
  have distinct : (mixedRules.map CompiledRule.id).Nodup := by decide
  have reordered := reordered_mixedRules
  have succeeds : (resolve mixedRules (.ofAmount 1000 .usd) sampleCatalog).result.isOk = true := by
    decide +kernel
  have otherSucceeds :
      (resolve remixedRules (.ofAmount 1000 .usd) sampleCatalog).result.isOk = true := by
    decide +kernel
  obtain ⟨price, priced⟩ := Except.exists_of_isOk succeeds
  obtain ⟨otherPrice, otherPriced⟩ := Except.exists_of_isOk otherSucceeds
  exact ⟨price, otherPrice, distinct, reordered, priced, otherPriced,
    sameUpToOrder_of_resolve distinct reordered priced otherPriced⟩

end Prices

end Pricing

end RuleBook
