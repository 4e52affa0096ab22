import RuleBook.Evaluation.Access
import RuleBook.Evaluation.Pricing
import RuleBook.Evaluation.Selection
import RuleBook.Metrics
import RuleBook.Store.Basic

/-! # The engine

An evaluation reads the active rules of a domain once, finds the candidates, selects those that
match, looks up the linked effects at most once, and combines the effects. A failed read and a
passed deadline end it; what is wrong with a single rule is reported beside the answer.
-/

namespace RuleBook

/-- What an evaluation reads: the active rules of a domain in any order, the effects under keys, and
the revision of a domain. Reads can fail. -/
structure RuleSource where
  rules : String → Except RuleError (List CompiledRule)
  effects : List EffectRef → Except RuleError EffectCatalog
  revision : String → Nat

/-- Reading a store, which never fails. -/
def RuleSource.ofStore (store : Store) : RuleSource where
  rules domain := .ok (store.activeRules domain)
  effects keys := .ok (store.lookupEffects keys)
  revision := store.revision

/-- The points of an evaluation at which its deadline is checked. -/
inductive Stage where
  | rulesRead
  | targeted
  | selected
  | effectsRead
  | combined
deriving DecidableEq, Repr

/-- A time budget, and how much time has passed at each stage, in nanoseconds. -/
structure Deadline where
  budget : Nat
  elapsed : Stage → Nat

namespace Deadline

/-- Whole milliseconds in 64 bits. -/
def milliseconds (nanoseconds : Nat) : Nat := nanoseconds / 1000000 % 0x10000000000000000

/-- Refuse to go on once more time has passed than the budget allows. -/
def check (deadline? : Option Deadline) (stage : Stage) : Except RuleError Unit :=
  match deadline? with
  | none => .ok ()
  | some deadline =>
    if deadline.budget < deadline.elapsed stage then
      .error (.evaluationTimeout (milliseconds (deadline.elapsed stage))
        (milliseconds deadline.budget))
    else .ok ()

end Deadline

/-- What is asked: a domain, the context, and the facts. -/
structure Question where
  domain : String
  context : EvaluationContext
  facts : List (String × Json)

/-- One read of a store. -/
inductive StoreRead where
  | rules (domain : String)
  | effects (keys : List EffectRef)
deriving DecidableEq, Repr

namespace Question

/-- The rules that match, and the reports made in finding them. -/
structure Matching where
  matched : List CompiledRule
  diagnostics : List Diagnostic

/-- Prices need an amount to start from. -/
def validate (question : Question) : Except RuleError Unit :=
  if question.domain = pricingDomain ∧ question.context.baseAmount = none then
    .error (.invalidRequest .missingBaseAmount)
  else .ok ()

def matchRules (question : Question) (rules : List CompiledRule) : Matching :=
  let candidates := Targeting.candidates question.domain question.context rules
  let judged := Selection.verdicts false question.facts candidates
  ⟨Selection.matched judged,
    Targeting.diagnostics question.domain rules ++ Selection.diagnostics judged⟩

def findMatching (question : Question) (source : RuleSource) (deadline? : Option Deadline) :
    Except RuleError Matching := do
  question.validate
  let rules ← source.rules question.domain
  Deadline.check deadline? .rulesRead
  Deadline.check deadline? .targeted
  let matching := question.matchRules rules
  Deadline.check deadline? .selected
  return matching

/-- Read the effects that rules link; nothing is read when there is no link. -/
def findEffects (source : RuleSource) (matched : List CompiledRule) :
    Except RuleError EffectCatalog :=
  match Pricing.effectRefs matched with
  | [] => .ok fun _ => none
  | keys => source.effects keys

/-- Combine the effects of the matching rules in the way of the domain. -/
def combine (question : Question) (source : RuleSource) (deadline? : Option Deadline)
    (matched : List CompiledRule) : Noted EffectOutcome :=
  if question.domain = accessDomain then do
    return .access (← Access.resolve matched question.context.defaultDecision)
  else if question.domain = pricingDomain then do
    let catalog ← Noted.ofExcept (findEffects source matched)
    Noted.ofExcept (Deadline.check deadline? .effectsRead)
    match question.context.baseAmount with
    | some baseAmount => return .pricing (← Pricing.resolve matched baseAmount catalog)
    | none => Noted.ofExcept (.error (.invalidRequest .missingBaseAmount))
  else return .matchOnly

/-- Answer a question from a source. -/
def answer (question : Question) (source : RuleSource) (deadline? : Option Deadline) :
    Except RuleError EvaluationResult := do
  let matching ← question.findMatching source deadline?
  let combined := question.combine source deadline? matching.matched
  let outcome ← combined.result
  Deadline.check deadline? .combined
  return ⟨question.domain, matching.matched.map CompiledRule.id, outcome,
    matching.diagnostics ++ combined.notes, false⟩

/-- The reads that answering a question makes, in order. -/
def reads (question : Question) (source : RuleSource) (deadline? : Option Deadline) :
    List StoreRead :=
  match question.validate with
  | .error _ => []
  | .ok () =>
    let lookups := match question.findMatching source deadline? with
      | .ok matching =>
        if question.domain = pricingDomain then
          match Pricing.effectRefs matching.matched with
          | [] => []
          | keys => [StoreRead.effects keys]
        else []
      | .error _ => []
    .rules question.domain :: lookups

def events (question : Question) (answer : Except RuleError EvaluationResult) : List MetricEvent :=
  match answer with
  | .ok result =>
    .ruleEvaluation question.domain result.label ::
      result.diagnostics.map fun diagnostic =>
        .ruleDiagnostic question.domain (Named.name diagnostic.kind)
  | .error _ => [.ruleEvaluation question.domain "error"]

/-- The question whether access is granted, with a default. -/
def ofAccess (context : EvaluationContext) (facts : List (String × Json)) (default : Decision) :
    Question :=
  ⟨accessDomain, { context with defaultDecision := some default }, facts⟩

/-- The decision in an answer; everything that is no decision denies. -/
def decisionOf (answer : Except RuleError EvaluationResult) : Decision :=
  match answer with
  | .ok result => result.decision?.getD .denied
  | .error _ => .denied

end Question

end RuleBook
