import RuleBook.Evaluation.Noted
import RuleBook.Rule.Compiled

/-! # Prices

Two phases run one after the other, each on the amount where the one before it ended. In a phase
the rules are taken in rank order. A compound rule adjusts the running amount of the compound rules
before it; a sequential rule adjusts the starting amount and all sequential adjustments are added
up; of the max rules, which adjust the starting amount too, only the one with the largest
adjustment is applied, the first of equal ones. The phase ends at the sum of the three, but never
below the smaller of its starting amount and zero.
-/

namespace RuleBook

/-- The effects that were found for a calculation. -/
abbrev EffectCatalog := EffectRef → Option LinkedEffect

namespace Pricing

/-- Whether a link does not come after another: the higher priority first, then kind and id. -/
def linkBefore (a b : EffectLink) : Bool :=
  decide (b.priority.toInt < a.priority.toInt) ||
    (a.priority == b.priority && a.key.before b.key)

/-- The links of a rule in the order in which they are shown. -/
def sortedLinks (rule : Rule) : List EffectLink := rule.effects.mergeSort linkBefore

/-- Whether a link leads to an effect that takes part. -/
def isUsableIn (catalog : EffectCatalog) (link : EffectLink) : Bool :=
  match catalog link.key with
  | some effect => effect.isUsable
  | none => false

/-- The links that lead to no effect that takes part. -/
def danglingLinks (catalog : EffectCatalog) (links : List EffectLink) : List EffectLink :=
  links.filter fun link => !isUsableIn catalog link

/-- What a rule does to an amount. -/
inductive RuleAdjustment where
  | computed (adjustment : Money) (lines : List EffectLine)
  | dangling (keys : List EffectRef)
  | foreignCurrency (key : EffectRef) (base effect : String)
deriving DecidableEq, Repr

/-- The report about a rule that is left out. -/
def RuleAdjustment.diagnostic? (ruleId : String) : RuleAdjustment → Option Diagnostic
  | .computed .. => none
  | .dangling keys => some (.ofRule .danglingEffectReference ruleId
      ("关联效果不存在或已删除: " ++ ", ".intercalate (keys.map EffectRef.text)))
  | .foreignCurrency key base effect => some (.ofRule .dataIntegrityWarning ruleId
      ("效果 " ++ key.text ++ " 币种 " ++ effect ++ " 与基础金额币种 " ++ base ++ " 不一致"))

/-- Nothing, in the currency and at the scale of an amount. -/
def zeroOf (amount : Money) : Money := { amount with amount := 0 }

/-- Add up the adjustments of linked effects to the same base amount. -/
def sumLinks (catalog : EffectCatalog) (base : Money) (adjustment : Money)
    (lines : List EffectLine) : List EffectLink → Except MoneyError RuleAdjustment
  | [] => .ok (.computed adjustment lines)
  | link :: rest =>
    match catalog link.key with
    | none => sumLinks catalog base adjustment lines rest
    | some effect =>
      match effect.adjustment base with
      | .error (.currencyMismatch left right) => .ok (.foreignCurrency link.key left right)
      | .error e => .error e
      | .ok amount =>
        match adjustment.add amount with
        | .error e => .error e
        | .ok sum =>
          sumLinks catalog base sum
            (lines ++ [⟨link.kind, link.effectId, link.priority, amount⟩]) rest

/-- What a rule does to an amount: the sum over its links, all against that amount. -/
def ruleAdjustment (catalog : EffectCatalog) (base : Money) (rule : Rule) :
    Except MoneyError RuleAdjustment :=
  let links := sortedLinks rule
  match danglingLinks catalog links with
  | [] => sumLinks catalog base (zeroOf base) [] links
  | dangling => .ok (.dangling (dangling.map EffectLink.key))

/-- The state of a phase between two rules. The choice of the max rules is kept by the place of
its contribution. -/
structure PhaseState where
  compound : Money
  sequentialSum : Money
  choice : Option (Nat × Money)
  contributions : List RuleContribution
deriving DecidableEq, Repr

namespace PhaseState

def start (startingAmount : Money) : PhaseState :=
  ⟨startingAmount, zeroOf startingAmount, none, []⟩

/-- The amount that a rule is computed against. -/
def baseFor (state : PhaseState) (startingAmount : Money) : StackingBehavior → Money
  | .compound => state.compound
  | .sequential => startingAmount
  | .max => startingAmount

/-- Whether an adjustment is larger than the one chosen so far. -/
def beats (choice : Option (Nat × Money)) (adjustment : Money) : Except MoneyError Bool :=
  match choice with
  | none => .ok true
  | some (_, best) => do
    let size ← adjustment.abs
    let bestSize ← best.abs
    return (← size.compare bestSize) == .gt

/-- Take in the adjustment of a rule. -/
def take (state : PhaseState) (ruleId : String) (stacking : StackingBehavior) (adjustment : Money)
    (lines : List EffectLine) : Except MoneyError PhaseState := do
  let contribution (applied : Bool) : RuleContribution :=
    ⟨ruleId, stacking, adjustment, applied, lines⟩
  match stacking with
  | .compound =>
    return { state with
      compound := ← state.compound.add adjustment
      contributions := state.contributions ++ [contribution true] }
  | .sequential =>
    return { state with
      sequentialSum := ← state.sequentialSum.add adjustment
      contributions := state.contributions ++ [contribution true] }
  | .max =>
    let wins ← beats state.choice adjustment
    return { state with
      choice := if wins then some (state.contributions.length, adjustment) else state.choice
      contributions := state.contributions ++ [contribution false] }

/-- The contributions, with the chosen max rule applied. -/
def finalContributions (state : PhaseState) : List RuleContribution :=
  match state.choice with
  | some (index, _) => state.contributions.modify index fun c => { c with applied := true }
  | none => state.contributions

/-- The adjustment of the chosen max rule, or nothing. -/
def chosenAdjustment (state : PhaseState) (startingAmount : Money) : Money :=
  match state.choice with
  | some (_, adjustment) => adjustment
  | none => zeroOf startingAmount

end PhaseState

abbrev PricedRule := CompiledRule × PricingConfig

/-- Take in rules one after the other; a rule that cannot be computed is left out and reported. -/
def takeRules (catalog : EffectCatalog) (startingAmount : Money) (state : PhaseState) :
    List PricedRule → Noted PhaseState
  | [] => pure state
  | (compiled, config) :: rest => do
    let stacking := config.stackingBehavior
    let computed ← Noted.ofMoney
      (ruleAdjustment catalog (state.baseFor startingAmount stacking) compiled.rule)
    match computed with
    | .computed adjustment lines =>
      let state ← Noted.ofMoney (state.take compiled.id stacking adjustment lines)
      takeRules catalog startingAmount state rest
    | excluded =>
      ⟨.ok (), (excluded.diagnostic? compiled.id).toList⟩
      takeRules catalog startingAmount state rest

/-- The least amount at which a phase may end. -/
def floorOf (startingAmount : Money) : Money :=
  if startingAmount.isNegative then startingAmount else zeroOf startingAmount

/-- The sum of the three ways of stacking, before the floor. -/
def unclampedEnd (startingAmount : Money) (state : PhaseState) : Except MoneyError Money := do
  let sum ← state.compound.add state.sequentialSum
  sum.add (state.chosenAdjustment startingAmount)

/-- Where a phase ends, and what was restored to reach the floor. -/
def clamp (startingAmount summed : Money) : Except MoneyError (Money × Option Money) := do
  let floor := floorOf startingAmount
  match ← summed.compare floor with
  | .lt => return (floor, some (← floor.subtract summed))
  | _ => return (summed, none)

def finishPhase (phase : CalculationPhase) (startingAmount : Money) (state : PhaseState) :
    Except MoneyError PhaseBreakdown := do
  let summed ← unclampedEnd startingAmount state
  let (endingAmount, floorAdjustment) ← clamp startingAmount summed
  return ⟨phase, startingAmount, endingAmount, state.finalContributions, floorAdjustment⟩

def runPhase (catalog : EffectCatalog) (phase : CalculationPhase) (startingAmount : Money)
    (rules : List PricedRule) : Noted PhaseBreakdown := do
  let state ← takeRules catalog startingAmount (.start startingAmount) rules
  Noted.ofMoney (finishPhase phase startingAmount state)

def rulesOf (phase : CalculationPhase) (rules : List PricedRule) : List PricedRule :=
  rules.filter fun entry => entry.2.calculationPhase == phase

/-- Run phases one after the other; a phase without rules is left out. -/
def runPhases (catalog : EffectCatalog) (rules : List PricedRule) (running : Money) :
    List CalculationPhase → Noted (List PhaseBreakdown)
  | [] => pure []
  | phase :: rest =>
    match rulesOf phase rules with
    | [] => runPhases catalog rules running rest
    | inPhase => do
      let breakdown ← runPhase catalog phase running inPhase
      let others ← runPhases catalog rules breakdown.endingAmount rest
      return breakdown :: others

/-- The matched rules that have a way of stacking. -/
def configured (matched : List CompiledRule) : List PricedRule :=
  matched.filterMap fun compiled => compiled.rule.pricingConfig.map fun config => (compiled, config)

/-- The report about a rule without a way of stacking. -/
def diagnostic? (compiled : CompiledRule) : Option Diagnostic :=
  if compiled.rule.pricingConfig.isNone then
    some (.ofRule .dataIntegrityWarning compiled.id "定价规则缺少 pricing 配置，已忽略")
  else none

/-- The amount where the last phase ends, or the base amount without phases. -/
def finalAmountOf (baseAmount : Money) (phases : List PhaseBreakdown) : Money :=
  (phases.getLast?.map PhaseBreakdown.endingAmount).getD baseAmount

/-- The price of the matched rules, complete but for its mark as partial. -/
def calculate (matched : List CompiledRule) (baseAmount : Money) (catalog : EffectCatalog) :
    Noted PriceAdjustment := do
  ⟨.ok (), matched.filterMap diagnostic?⟩
  let phases ← runPhases catalog (configured matched) baseAmount
    (Named.all (α := CalculationPhase))
  let finalAmount := finalAmountOf baseAmount phases
  let totalAdjustment ← Noted.ofMoney (finalAmount.subtract baseAmount)
  return ⟨baseAmount, finalAmount, totalAdjustment, phases, false⟩

/-- The price of the matched rules. It is partial when a rule was left out for a dangling link. -/
def resolve (matched : List CompiledRule) (baseAmount : Money) (catalog : EffectCatalog) :
    Noted PriceAdjustment :=
  let price := calculate matched baseAmount catalog
  let isPartial := price.notes.any (·.kind == .danglingEffectReference)
  ⟨price.result.map fun adjustment => { adjustment with isPartial }, price.notes⟩

/-- The effects that rules link, in key order and each once. -/
def effectRefs (matched : List CompiledRule) : List EffectRef :=
  EffectRef.sortUnique (matched.flatMap fun compiled => compiled.rule.effects.map EffectLink.key)

end Pricing

end RuleBook
