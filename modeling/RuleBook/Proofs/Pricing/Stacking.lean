import RuleBook.Proofs.Pricing.Reconciliation

/-! # Ways of stacking

What a phase shows of its rules tells how they were stacked. `Stacked` ties the state of a phase to
the contributions so far: the running amount and the sequential sum are the sums of their own
contributions in order, and the choice among the max rules is the first of the largest. Every rule
takes a step that keeps this, so a phase that ends shows the three parts of its sum, each
contribution is computed against the amount that its way of stacking says, and of the max rules
exactly the first of the largest is applied.
-/

namespace RuleBook

open Pricing (PricedRule zeroOf ruleAdjustment)

/-- The adjustments of the contributions that are stacked in one way. -/
def adjustmentsOf (stacking : StackingBehavior) (contributions : List RuleContribution) :
    List Money :=
  (contributions.filter (·.stackingBehavior == stacking)).map RuleContribution.adjustment

/-- The amount that a rule is computed against behind some contributions: the starting amount, to
which earlier compound adjustments are added for a compound rule. -/
def amountBehind (start : Money) (earlier : List RuleContribution) :
    StackingBehavior → Except MoneyError Money
  | .compound => (adjustmentsOf .compound earlier).foldlM Money.add start
  | .sequential => .ok start
  | .max => .ok start

namespace RuleContribution

/-- Whether a contribution is that of a max rule which is applied. -/
def isChosen (contribution : RuleContribution) : Bool :=
  contribution.stackingBehavior == .max && contribution.applied

/-- No max rule before a contribution has as large an adjustment, and none behind it a larger. -/
structure Leads (winner : RuleContribution) (before after : List RuleContribution) : Prop where
  earlier : ∀ contribution ∈ before, contribution.stackingBehavior = .max →
    |contribution.adjustment.value| < |winner.adjustment.value|
  later : ∀ contribution ∈ after, contribution.stackingBehavior = .max →
    |contribution.adjustment.value| ≤ |winner.adjustment.value|

/-- A contribution shows what a rule does to an amount. -/
structure IsOf (contribution : RuleContribution) (catalog : EffectCatalog) (amount : Money)
    (rule : PricedRule) : Prop where
  ruleId : contribution.ruleId = rule.1.id
  stackingBehavior : contribution.stackingBehavior = rule.2.stackingBehavior
  computed : ruleAdjustment catalog amount rule.1.rule =
    .ok (.computed contribution.adjustment contribution.lines)

end RuleContribution

namespace PhaseBreakdown

/-- The adjustment of the max rule that is applied, or nothing. -/
def maxPick (breakdown : PhaseBreakdown) : Money :=
  ((breakdown.contributions.find? RuleContribution.isChosen).map RuleContribution.adjustment).getD
    (zeroOf breakdown.startingAmount)

/-- What the three ways of stacking come to, before the floor. -/
def unclampedSum (breakdown : PhaseBreakdown) : Except MoneyError Money := do
  let compound ← (adjustmentsOf .compound breakdown.contributions).foldlM Money.add
    breakdown.startingAmount
  let sequential ← (adjustmentsOf .sequential breakdown.contributions).foldlM Money.add
    (zeroOf breakdown.startingAmount)
  let sum ← compound.add sequential
  sum.add breakdown.maxPick

/-- A phase shows how its rules are stacked: what each is computed against, that the compound and
the sequential ones are applied, and that of the max rules the first of the largest is applied and
no other. -/
structure StacksUp (breakdown : PhaseBreakdown) (catalog : EffectCatalog)
    (rules : List PricedRule) : Prop where
  computed : ∀ before contribution after,
    breakdown.contributions = before ++ contribution :: after →
      ∃ rule ∈ rules, ∃ amount, amountBehind breakdown.startingAmount before
          contribution.stackingBehavior = .ok amount ∧ contribution.IsOf catalog amount rule
  applied : ∀ contribution ∈ breakdown.contributions, contribution.stackingBehavior ≠ .max →
    contribution.applied = true
  chosen : (∃ rule ∈ rules, rule.2.stackingBehavior = .max ∧ ∃ adjustment lines,
      ruleAdjustment catalog breakdown.startingAmount rule.1.rule =
        .ok (.computed adjustment lines)) →
    ∃ before winner after, breakdown.contributions = before ++ winner :: after ∧
      winner.stackingBehavior = .max ∧ winner.applied = true ∧ winner.Leads before after ∧
        ∀ contribution ∈ before ++ after, contribution.stackingBehavior = .max →
          contribution.applied = false

end PhaseBreakdown

section Lists

variable {earlier : List RuleContribution} {contribution : RuleContribution}
  {stacking : StackingBehavior}

private theorem adjustmentsOf_concat_self (same : contribution.stackingBehavior = stacking) :
    adjustmentsOf stacking (earlier ++ [contribution]) =
      adjustmentsOf stacking earlier ++ [contribution.adjustment] := by
  simp [adjustmentsOf, same]

private theorem adjustmentsOf_concat_other (other : contribution.stackingBehavior ≠ stacking) :
    adjustmentsOf stacking (earlier ++ [contribution]) = adjustmentsOf stacking earlier := by
  simp [adjustmentsOf, other]

/-- A contribution without the mark of the chosen max rule. -/
def RuleContribution.unmarked (contribution : RuleContribution) : RuleContribution :=
  { contribution with applied := contribution.stackingBehavior != .max }

/-- The adjustments do not depend on what is marked. -/
theorem adjustmentsOf_map_unmarked :
    adjustmentsOf stacking (earlier.map RuleContribution.unmarked) =
      adjustmentsOf stacking earlier := by
  simp [adjustmentsOf, List.filter_map, Function.comp_def, RuleContribution.unmarked]

private theorem split_concat {α : Type} {items before after : List α} {item : α}
    (split : items = before ++ item :: after) (last : α) :
    items ++ [last] = before ++ item :: (after ++ [last]) := by
  rw [split, List.append_assoc, List.cons_append]

theorem modify_length_append {α : Type} (before after : List α) (item : α) (change : α → α) :
    (before ++ item :: after).modify before.length change = before ++ change item :: after := by
  induction before with
  | nil => rfl
  | cons first rest ih => simp [ih]

end Lists

namespace Pricing

/-- The choice among the max rules: none as long as there are none, then the first of the largest
adjustments, kept with its place. -/
inductive Choice (start : Money) (contributions : List RuleContribution) :
    Option (Nat × Money) → Prop
  | unmade (absent : ∀ contribution ∈ contributions, contribution.stackingBehavior ≠ .max) :
      Choice start contributions none
  | made {before after : List RuleContribution} {winner : RuleContribution}
      (split : contributions = before ++ winner :: after)
      (stacking : winner.stackingBehavior = .max)
      (currency : winner.adjustment.currency = start.currency)
      (leads : 0 < start.currency.base.toNat → winner.Leads before after) :
      Choice start contributions (some (before.length, winner.adjustment))

/-- The state of a phase belongs to the contributions so far, which come from some rules. -/
structure Stacked (catalog : EffectCatalog) (rules : List PricedRule) (start : Money)
    (state : PhaseState) : Prop where
  compound : (adjustmentsOf .compound state.contributions).foldlM Money.add start =
    .ok state.compound
  sequential : (adjustmentsOf .sequential state.contributions).foldlM Money.add (zeroOf start) =
    .ok state.sequentialSum
  unmarked : state.contributions.map RuleContribution.unmarked = state.contributions
  choice : Choice start state.contributions state.choice
  computed : ∀ before contribution after, state.contributions = before ++ contribution :: after →
    ∃ rule ∈ rules, ∃ amount, amountBehind start before contribution.stackingBehavior =
      .ok amount ∧ contribution.IsOf catalog amount rule

section Choices

variable {start adjustment : Money} {contributions : List RuleContribution}
  {contribution : RuleContribution} {choice : Option (Nat × Money)}

/-- A contribution of another kind changes nothing about the choice. -/
theorem Choice.concat (chosen : Choice start contributions choice)
    (other : contribution.stackingBehavior ≠ .max) :
    Choice start (contributions ++ [contribution]) choice := by
  cases chosen with
  | unmade absent =>
    refine .unmade fun c member => ?_
    rcases List.mem_append.mp member with member | member
    · exact absent c member
    · rw [List.mem_singleton.mp member]
      exact other
  | @made before after winner split stacking currency leads =>
    refine Choice.made (split_concat split contribution) stacking currency fun positive => ?_
    refine ⟨(leads positive).earlier, fun c member isMax => ?_⟩
    rcases List.mem_append.mp member with member | member
    · exact (leads positive).later c member isMax
    · rw [List.mem_singleton.mp member] at isMax
      exact (other isMax).elim

/-- Where a comparison of two adjustments succeeds, it compares what they come to without sign. -/
theorem lt_abs_value_iff_of_beats {index : Nat} {best : Money} {wins : Bool}
    (positive : 0 < adjustment.currency.base.toNat)
    (compared : PhaseState.beats (some (index, best)) adjustment = .ok wins) :
    wins = true ↔ |best.value| < |adjustment.value| := by
  simp only [PhaseState.beats, Except.bind_eq_ok_iff] at compared
  obtain ⟨size, size_taken, bestSize, best_taken, order, ordered, same⟩ := compared
  cases same
  rw [← (Money.eq_of_abs size_taken).2.1] at positive
  rw [Money.eq_compare_value positive ordered, ← Money.value_abs size_taken,
    ← Money.value_abs best_taken, beq_iff_eq]
  exact compare_gt_iff_gt

/-- A max rule takes over the choice, or leaves it, by the size of its adjustment. -/
theorem Choice.take (contribution : RuleContribution) {wins : Bool}
    (chosen : Choice start contributions choice) (isMax : contribution.stackingBehavior = .max)
    (currency : contribution.adjustment.currency = start.currency)
    (compared : PhaseState.beats choice contribution.adjustment = .ok wins) :
    Choice start (contributions ++ [contribution])
      (if wins then some (contributions.length, contribution.adjustment) else choice) := by
  cases chosen with
  | unmade absent =>
    cases compared
    refine Choice.made rfl isMax currency fun _ => ⟨fun c member other => ?_, by simp⟩
    exact (absent c member other).elim
  | @made before after winner split stacking winner_currency leads =>
    have decides : 0 < start.currency.base.toNat →
        (wins = true ↔ |winner.adjustment.value| < |contribution.adjustment.value|) :=
      fun positive => lt_abs_value_iff_of_beats (currency ▸ positive) compared
    cases wins with
    | true =>
      refine Choice.made rfl isMax currency fun positive => ⟨fun c member other => ?_, by simp⟩
      have larger := (decides positive).mp rfl
      rw [split] at member
      rcases List.mem_append.mp member with member | member
      · exact ((leads positive).earlier c member other).trans larger
      · rcases List.mem_cons.mp member with rfl | member
        · exact larger
        · exact ((leads positive).later c member other).trans_lt larger
    | false =>
      refine Choice.made (split_concat split contribution) stacking winner_currency fun positive => ?_
      have loses := (decides positive).not.mp Bool.false_ne_true
      refine ⟨(leads positive).earlier, fun c member other => ?_⟩
      rcases List.mem_append.mp member with member | member
      · exact (leads positive).later c member other
      · rw [List.mem_singleton.mp member]
        exact not_lt.mp loses

end Choices

section Steps

variable {catalog : EffectCatalog} {start : Money} {rule : PricedRule}
  {rules all : List PricedRule} {state next final : PhaseState}

theorem Stacked.of_start (start : Money) : Stacked catalog rules start (.start start) where
  compound := rfl
  sequential := rfl
  unmarked := rfl
  choice := .unmade fun _ member => by cases member
  computed := fun before _ _ split => by cases before <;> cases split

/-- A rule is computed against the amount behind the contributions so far. -/
theorem Stacked.amountBehind_eq (stacked : Stacked catalog rules start state)
    (stacking : StackingBehavior) :
    amountBehind start state.contributions stacking = .ok (state.baseFor start stacking) := by
  cases stacking with
  | compound => exact stacked.compound
  | sequential => rfl
  | max => rfl

/-- One more contribution is computed as the others are. -/
theorem Stacked.computed_concat (stacked : Stacked catalog rules start state)
    (member : rule ∈ rules) {added : RuleContribution}
    (isOf : added.IsOf catalog (state.baseFor start rule.2.stackingBehavior) rule) :
    ∀ before contribution after, state.contributions ++ [added] = before ++ contribution :: after →
      ∃ rule ∈ rules, ∃ amount, amountBehind start before contribution.stackingBehavior =
        .ok amount ∧ contribution.IsOf catalog amount rule := by
  intro before contribution after split
  rcases List.eq_nil_or_concat after with rfl | ⟨rest, last, rfl⟩
  · obtain ⟨rfl, rfl⟩ := List.append_inj' split rfl |>.imp_right List.singleton_inj.mp
    refine ⟨rule, member, _, ?_, isOf⟩
    rw [isOf.stackingBehavior]
    exact stacked.amountBehind_eq rule.2.stackingBehavior
  · rw [List.concat_eq_append, ← List.cons_append, ← List.append_assoc] at split
    obtain ⟨held, _⟩ := List.append_inj' split rfl
    exact stacked.computed before contribution rest held

/-- Every step keeps the state to its contributions. -/
theorem Stacked.step (stacked : Stacked catalog rules start state) (member : rule ∈ rules)
    (step : Step catalog start rule state next) : Stacked catalog rules start next := by
  cases step with
  | leftOut _ _ => exact stacked
  | @compound adjustment running lines stacking computed added =>
    have isOf : RuleContribution.IsOf ⟨rule.1.id, .compound, adjustment, true, lines⟩ catalog
        (state.baseFor start rule.2.stackingBehavior) rule :=
      ⟨rfl, stacking.symm, by rw [stacking]; exact computed⟩
    refine ⟨?_, ?_, ?_, stacked.choice.concat (by simp), stacked.computed_concat member isOf⟩
    · rw [adjustmentsOf_concat_self, Money.foldlM_add_concat stacked.compound]
      · exact added
      · rfl
    · rw [adjustmentsOf_concat_other (by simp)]
      exact stacked.sequential
    · rw [List.map_append, stacked.unmarked]
      rfl
  | @sequential adjustment sum lines stacking computed added =>
    have isOf : RuleContribution.IsOf ⟨rule.1.id, .sequential, adjustment, true, lines⟩ catalog
        (state.baseFor start rule.2.stackingBehavior) rule :=
      ⟨rfl, stacking.symm, by rw [stacking]; exact computed⟩
    refine ⟨?_, ?_, ?_, stacked.choice.concat (by simp), stacked.computed_concat member isOf⟩
    · rw [adjustmentsOf_concat_other (by simp)]
      exact stacked.compound
    · rw [adjustmentsOf_concat_self, Money.foldlM_add_concat stacked.sequential]
      · exact added
      · rfl
    · rw [List.map_append, stacked.unmarked]
      rfl
  | @max adjustment lines wins stacking computed compared =>
    have isOf : RuleContribution.IsOf ⟨rule.1.id, .max, adjustment, false, lines⟩ catalog
        (state.baseFor start rule.2.stackingBehavior) rule :=
      ⟨rfl, stacking.symm, by rw [stacking]; exact computed⟩
    have currency : adjustment.currency = start.currency := currency_of_ruleAdjustment computed
    have choice := stacked.choice.take ⟨rule.1.id, .max, adjustment, false, lines⟩ rfl currency
      compared
    refine ⟨?_, ?_, ?_, choice, stacked.computed_concat member isOf⟩
    · rw [adjustmentsOf_concat_other (by simp)]
      exact stacked.compound
    · rw [adjustmentsOf_concat_other (by simp)]
      exact stacked.sequential
    · rw [List.map_append, stacked.unmarked]
      rfl

/-- A run keeps the state to its contributions. -/
theorem Run.stacked (run : Run catalog start state rules final)
    (stacked : Stacked catalog all start state) (among : ∀ rule ∈ rules, rule ∈ all) :
    Stacked catalog all start final := by
  induction run with
  | done _ => exact stacked
  | next step _ ih =>
    exact ih (stacked.step (among _ (List.mem_cons_self ..)) step) fun rule member =>
      among rule (List.mem_cons_of_mem _ member)

/-- Contributions stay where they are. -/
theorem Run.prefix_contributions (run : Run catalog start state rules final) :
    state.contributions <+: final.contributions := by
  induction run with
  | done _ => exact List.prefix_refl _
  | next step _ ih =>
    cases step with
    | leftOut _ _ => exact ih
    | compound _ _ _ => exact (List.prefix_append _ _).trans ih
    | sequential _ _ _ => exact (List.prefix_append _ _).trans ih
    | max _ _ _ => exact (List.prefix_append _ _).trans ih

/-- A max rule that can be computed has a contribution. -/
theorem Run.exists_max (run : Run catalog start state rules final) (member : rule ∈ rules)
    (isMax : rule.2.stackingBehavior = .max) {adjustment : Money} {lines : List EffectLine}
    (computable : ruleAdjustment catalog start rule.1.rule = .ok (.computed adjustment lines)) :
    ∃ contribution ∈ final.contributions, contribution.stackingBehavior = .max := by
  induction run with
  | done _ => cases member
  | @next first rest state next final step run ih =>
    rcases List.mem_cons.mp member with rfl | member
    · cases step with
      | leftOut excluded uncomputed =>
        rw [isMax] at excluded
        exact (uncomputed _ _ (Except.ok.inj (excluded.symm.trans computable))).elim
      | compound stacking _ _ => rw [stacking] at isMax; cases isMax
      | sequential stacking _ _ => rw [stacking] at isMax; cases isMax
      | max _ _ _ =>
        have shown := run.prefix_contributions.subset
          (List.mem_append_right state.contributions (List.mem_singleton_self _))
        exact ⟨_, shown, rfl⟩
    · exact ih member

end Steps

section Shown

variable {catalog : EffectCatalog} {rules : List PricedRule} {start : Money} {state : PhaseState}
  {breakdown : PhaseBreakdown}

/-- Before the end of a phase the max rules, and no others, are not applied. -/
theorem Stacked.applied_eq (stacked : Stacked catalog rules start state)
    {contribution : RuleContribution} (member : contribution ∈ state.contributions) :
    contribution.applied = (contribution.stackingBehavior != .max) := by
  have each := List.map_inj_left.mp (stacked.unmarked.trans (List.map_id _).symm)
  exact (congrArg RuleContribution.applied (each contribution member)).symm

/-- What a phase shows: its contributions as they are where there is no max rule, and else with the
mark of the one that leads. -/
inductive Shows (start : Money) (state : PhaseState) (shown : List RuleContribution) : Prop
  | plain (same : shown = state.contributions)
      (absent : ∀ contribution ∈ state.contributions, contribution.stackingBehavior ≠ .max)
      (unmade : state.choice = none)
  | marked {before after : List RuleContribution} {winner : RuleContribution}
      (same : shown = before ++ { winner with applied := true } :: after)
      (split : state.contributions = before ++ winner :: after)
      (stacking : winner.stackingBehavior = .max)
      (leads : 0 < start.currency.base.toNat → winner.Leads before after)
      (made : state.choice = some (before.length, winner.adjustment))

theorem Stacked.shows (stacked : Stacked catalog rules start state) :
    Shows start state state.finalContributions := by
  have choice := stacked.choice
  cases chosen : state.choice with
  | none =>
    rw [chosen] at choice
    cases choice with
    | unmade absent =>
      exact .plain (by simp only [PhaseState.finalContributions, chosen]) absent chosen
  | some made =>
    rw [chosen] at choice
    cases choice with
    | @made before after winner split stacking _ leads =>
      refine .marked ?_ split stacking leads chosen
      simp only [PhaseState.finalContributions, chosen, split, modify_length_append]

/-- What is shown and what was taken in differ in no more than the mark. -/
theorem Stacked.map_unmarked_finalContributions (stacked : Stacked catalog rules start state) :
    state.finalContributions.map RuleContribution.unmarked = state.contributions := by
  rw [← stacked.unmarked]
  cases stacked.shows with
  | plain same _ _ => rw [same]
  | marked same split _ _ _ =>
    rw [same, split, List.map_append, List.map_append]
    rfl

theorem Stacked.adjustmentsOf_finalContributions (stacked : Stacked catalog rules start state)
    (stacking : StackingBehavior) : adjustmentsOf stacking state.finalContributions =
      adjustmentsOf stacking state.contributions := by
  rw [← adjustmentsOf_map_unmarked, stacked.map_unmarked_finalContributions]

/-- The max rule that is shown as applied is the one that was chosen. -/
theorem Stacked.maxPick_eq (stacked : Stacked catalog rules start state)
    (finished : Finished start state breakdown) :
    breakdown.maxPick = state.chosenAdjustment start := by
  have unchosen : ∀ contribution ∈ state.contributions, contribution.isChosen = false := by
    intro contribution member
    rw [RuleContribution.isChosen, stacked.applied_eq member, bne, Bool.and_not_self]
  rw [PhaseBreakdown.maxPick, finished.contributions, finished.starting]
  cases stacked.shows with
  | plain same absent unmade =>
    have none_found : state.contributions.find? RuleContribution.isChosen = none := by
      simpa using unchosen
    rw [same, none_found, PhaseState.chosenAdjustment, unmade]
    rfl
  | @marked before after winner same split stacking leads made =>
    have none_before : before.find? RuleContribution.isChosen = none := by
      rw [List.find?_eq_none]
      intro contribution member
      simp [unchosen contribution (split ▸ List.mem_append_left _ member)]
    have found : RuleContribution.isChosen { winner with applied := true } = true := by
      simp [RuleContribution.isChosen, stacking]
    rw [same, List.find?_append, none_before, Option.none_or, List.find?_cons_of_pos found,
      PhaseState.chosenAdjustment, made]
    rfl

/-- A phase is closed with the three parts of its sum as they are shown. -/
theorem Finished.unclampedSum (finished : Finished start state breakdown)
    (stacked : Stacked catalog rules start state) :
    ∃ summed, breakdown.unclampedSum = .ok summed ∧
      clamp start summed = .ok (breakdown.endingAmount, breakdown.floorAdjustment) := by
  obtain ⟨part, summed, first, second, clamped⟩ := finished.ending
  refine ⟨summed, ?_, clamped⟩
  rw [PhaseBreakdown.unclampedSum, stacked.maxPick_eq finished, finished.contributions,
    finished.starting, stacked.adjustmentsOf_finalContributions,
    stacked.adjustmentsOf_finalContributions, stacked.compound, stacked.sequential]
  simp only [Except.bind_eq_ok_iff]
  exact ⟨_, rfl, _, rfl, part, first, second⟩

/-- Where a phase ends depends on the three parts of its sum only. -/
theorem Finished.ending_eq {other : PhaseState} {otherBreakdown : PhaseBreakdown}
    (finished : Finished start state breakdown)
    (otherFinished : Finished start other otherBreakdown)
    (compound : state.compound = other.compound)
    (sequentialSum : state.sequentialSum = other.sequentialSum)
    (chosen : state.chosenAdjustment start = other.chosenAdjustment start) :
    breakdown.endingAmount = otherBreakdown.endingAmount ∧
      breakdown.floorAdjustment = otherBreakdown.floorAdjustment := by
  obtain ⟨part, summed, first, second, clamped⟩ := finished.ending
  obtain ⟨otherPart, otherSummed, otherFirst, otherSecond, otherClamped⟩ := otherFinished.ending
  rw [compound, sequentialSum, otherFirst] at first
  obtain rfl := Except.ok.inj first
  rw [chosen, otherSecond] at second
  obtain rfl := Except.ok.inj second
  exact Prod.mk.inj (Except.ok.inj (clamped.symm.trans otherClamped))

/-- A contribution that is shown was taken in behind the same contributions. -/
theorem Stacked.computed_finalContributions (stacked : Stacked catalog rules start state)
    {before after : List RuleContribution} {contribution : RuleContribution}
    (split : state.finalContributions = before ++ contribution :: after) :
    ∃ rule ∈ rules, ∃ amount, amountBehind start before contribution.stackingBehavior =
      .ok amount ∧ contribution.IsOf catalog amount rule := by
  have taken := stacked.map_unmarked_finalContributions
  rw [split, List.map_append, List.map_cons] at taken
  obtain ⟨rule, member, amount, behind, isOf⟩ := stacked.computed _ _ _ taken.symm
  refine ⟨rule, member, amount, ?_, isOf.ruleId, isOf.stackingBehavior, isOf.computed⟩
  rw [← behind]
  cases stacking : contribution.stackingBehavior with
  | compound =>
    simp only [RuleContribution.unmarked, stacking, amountBehind, adjustmentsOf_map_unmarked]
  | sequential => simp only [RuleContribution.unmarked, stacking, amountBehind]
  | max => simp only [RuleContribution.unmarked, stacking, amountBehind]

/-- Of the max rules that were computed, the first of the largest is shown as applied and no
other. -/
theorem Stacked.exists_chosen (stacked : Stacked catalog rules start state)
    (positive : 0 < start.currency.base.toNat)
    (present : ∃ contribution ∈ state.contributions, contribution.stackingBehavior = .max) :
    ∃ before winner after, state.finalContributions = before ++ winner :: after ∧
      winner.stackingBehavior = .max ∧ winner.applied = true ∧ winner.Leads before after ∧
        ∀ contribution ∈ before ++ after, contribution.stackingBehavior = .max →
          contribution.applied = false := by
  cases stacked.shows with
  | plain _ absent _ =>
    obtain ⟨contribution, member, isMax⟩ := present
    exact (absent contribution member isMax).elim
  | @marked before after winner same split stacking leads _ =>
    have lead := leads positive
    refine ⟨before, { winner with applied := true }, after, same, stacking, rfl,
      ⟨lead.earlier, lead.later⟩, fun contribution member isMax => ?_⟩
    have taken : contribution ∈ state.contributions := by
      rw [split]
      rcases List.mem_append.mp member with member | member
      · exact List.mem_append_left _ member
      · exact List.mem_append_right _ (List.mem_cons_of_mem _ member)
    rw [stacked.applied_eq taken, isMax]
    rfl

/-- A compound or sequential contribution that is shown was taken in as it is, and is applied. -/
theorem Stacked.mem_contributions_of_shown (stacked : Stacked catalog rules start state)
    {contribution : RuleContribution} (member : contribution ∈ state.finalContributions)
    (other : contribution.stackingBehavior ≠ .max) : contribution ∈ state.contributions := by
  cases stacked.shows with
  | plain same _ _ => exact same ▸ member
  | @marked before after winner same split stacking _ _ =>
    rw [same] at member
    rw [split]
    rcases List.mem_append.mp member with member | member
    · exact List.mem_append_left _ member
    · rcases List.mem_cons.mp member with rfl | member
      · exact (other stacking).elim
      · exact List.mem_append_right _ (List.mem_cons_of_mem _ member)

end Shown

section Prices

variable {catalog : EffectCatalog} {matched : List CompiledRule} {base : Money}
  {price : PriceAdjustment}

/-- A phase that ends shows how its rules are stacked. -/
theorem Finished.stacksUp {rules : List PricedRule} {start : Money} {state : PhaseState}
    {breakdown : PhaseBreakdown} (finished : Finished start state breakdown)
    (run : Run catalog start (.start start) rules state)
    (positive : 0 < start.currency.base.toNat) : breakdown.StacksUp catalog rules := by
  have stacked := run.stacked (.of_start start) fun _ member => member
  constructor
  · intro before contribution after split
    rw [finished.contributions] at split
    rw [finished.starting]
    exact stacked.computed_finalContributions split
  · intro contribution member other
    rw [finished.contributions] at member
    rw [stacked.applied_eq (stacked.mem_contributions_of_shown member other), bne_iff_ne]
    exact other
  · rintro ⟨rule, member, isMax, adjustment, lines, computable⟩
    rw [finished.starting] at computable
    rw [finished.contributions]
    exact stacked.exists_chosen positive (run.exists_max member isMax computable)

/-- Every phase of a price shows how its rules are stacked. -/
theorem stacksUp_of_resolve (positive : 1 ≤ base.currency.base)
    (priced : (resolve matched base catalog).result = .ok price) :
    ∀ breakdown ∈ price.phases,
      breakdown.StacksUp catalog (rulesOf breakdown.phase (configured matched)) := by
  intro breakdown member
  obtain ⟨run, _⟩ := eq_of_resolve priced
  obtain ⟨_, each⟩ := run.reconciles (UInt32.le_iff_toNat_le.mp positive)
  obtain ⟨state, rulesRun, finished⟩ := run.exists_run member
  refine finished.stacksUp rulesRun ?_
  rw [(each breakdown member).starting]
  exact UInt32.le_iff_toNat_le.mp positive

/-- Max rules of both signs and of two scales with a tie for the largest, among rules that are
stacked in the other ways. -/
def rivalRules : List CompiledRule :=
  [sampleRule "carriage" .max .preDiscount [⟨.fee, "carriage", 0⟩],
    sampleRule "handling" .compound .preDiscount [⟨.fee, "handling", 0⟩],
    sampleRule "spring" .max .preDiscount [⟨.promotion, "spring", 0⟩],
    sampleRule "tax" .compound .preDiscount [⟨.taxRate, "tax", 0⟩],
    sampleRule "summer" .max .preDiscount [⟨.promotion, "summer", 0⟩],
    sampleRule "club" .sequential .preDiscount [⟨.promotion, "club", 0⟩]]

private theorem applied_rivalRules :
    (resolve rivalRules (.ofAmount 1000 .usd) sampleCatalog).result.map
      (fun price => (price.phases.flatMap PhaseBreakdown.contributions).map fun contribution =>
        (contribution.ruleId, contribution.applied)) =
        .ok [("carriage", false), ("handling", true), ("spring", true), ("tax", true),
          ("summer", false), ("club", true)] := by
  decide +kernel

theorem stacksUp_of_resolve_rivalRules : ∃ price,
    1 ≤ (Money.ofAmount 1000 .usd).currency.base ∧
      (resolve rivalRules (.ofAmount 1000 .usd) sampleCatalog).result = .ok price ∧
      ((price.phases.flatMap PhaseBreakdown.contributions).map fun contribution =>
        (contribution.ruleId, contribution.applied)) =
          [("carriage", false), ("handling", true), ("spring", true), ("tax", true),
            ("summer", false), ("club", true)] ∧
      ∀ breakdown ∈ price.phases,
        breakdown.StacksUp sampleCatalog (rulesOf breakdown.phase (configured rivalRules)) := by
  have positive : 1 ≤ (Money.ofAmount 1000 .usd).currency.base := by decide
  obtain ⟨price, priced, applied⟩ := Except.exists_of_map_eq_ok applied_rivalRules
  exact ⟨price, positive, priced, applied, stacksUp_of_resolve positive priced⟩

end Prices

end Pricing

end RuleBook
