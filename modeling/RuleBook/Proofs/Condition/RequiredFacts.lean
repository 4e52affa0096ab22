import RuleBook.Proofs.Rule.Acceptance

/-! # The facts that a rule reads

An evaluation resolves the names that its condition refers to and nothing else: scopes that resolve
them alike give the same outcome. A compiled rule lists these names as its required facts, together
with those that its author adds, but for the names of its own variables. Such a name still stands
for a fact where there is one, since facts come before variables; so an evaluation hangs on the
required facts and on the facts that stand before a variable.
-/

namespace RuleBook

namespace Scope

/-- Two scopes resolve the names of a list alike. -/
def AgreesOn (scope other : Scope) (names : List String) : Prop :=
  ∀ name ∈ names, scope.get? name = other.get? name

theorem AgreesOn.mono {scope other : Scope} {names fewer : List String}
    (agrees : scope.AgreesOn other names) (subset : fewer ⊆ names) : scope.AgreesOn other fewer :=
  fun name member => agrees name (subset member)

end Scope

namespace Condition

variable {scope other : Scope}

private theorem operandValue_congr {before after : Outcome} (same : before = after) :
    (operand : Condition) → scope.AgreesOn other operand.names →
      operandValue scope operand (fun _ => before) = operandValue other operand (fun _ => after)
  | .literal _, _ => rfl
  | .variable name, agrees => by
    simp only [operandValue, agrees name (List.mem_singleton_self name)]
  | .compare .., _ => by simp only [operandValue, same]
  | .and _, _ => by simp only [operandValue, same]
  | .or _, _ => by simp only [operandValue, same]
  | .not _, _ => by simp only [operandValue, same]

mutual

/-- Scopes that resolve the names of a condition alike give it the same outcome: the same truth, and
the same findings on the way. -/
theorem evaluateAt_congr (tracing : Bool) (path : Path) :
    (condition : Condition) → scope.AgreesOn other condition.names →
      evaluateAt tracing scope path condition = evaluateAt tracing other path condition
  | .literal _, _ => rfl
  | .variable name, agrees => by
    simp only [evaluateAt, variableOutcome, agrees name (List.mem_singleton_self name)]
  | .compare operator lhs rhs, agrees => by
    have left := agrees.mono (List.subset_append_left lhs.names rhs.names)
    have right := agrees.mono (List.subset_append_right lhs.names rhs.names)
    simp only [evaluateAt,
      operandValue_congr (evaluateAt_congr tracing (path ++ [.lhs]) lhs left) lhs left,
      operandValue_congr (evaluateAt_congr tracing (path ++ [.rhs]) rhs right) rhs right]
  | .and children, agrees => evaluateGroup_congr tracing path .and 0 .true children agrees
  | .or children, agrees => evaluateGroup_congr tracing path .or 0 .false children agrees
  | .not child, agrees => by
    simp only [evaluateAt, evaluateAt_congr tracing (path ++ [.child]) child agrees]

private theorem evaluateGroup_congr (tracing : Bool) (path : Path) (operator : LogicalOperator)
    (index : Nat) (result : Truth) :
    (children : List Condition) → scope.AgreesOn other (namesOf children) →
      evaluateGroup tracing scope path operator index result children =
        evaluateGroup tracing other path operator index result children
  | [], _ => rfl
  | child :: rest, agrees => by
    have first := evaluateAt_congr tracing (path ++ [.children index]) child
      (agrees.mono (List.subset_append_left child.names (namesOf rest)))
    have others (result : Truth) := evaluateGroup_congr tracing path operator (index + 1) result rest
      (agrees.mono (List.subset_append_right child.names (namesOf rest)))
    simp only [evaluateGroup, first, others]

end

end Condition

namespace Rule

variable {rule : Rule} {compiled : CompiledRule}

/-- The required facts are the names that the author adds, and those that the condition refers to
and that are no variables of the rule. -/
theorem mem_requiredFacts_compile {version : Nat} {name : String} :
    name ∈ (rule.compile version).requiredFacts ↔ name ∈ rule.factKeys.getD [] ∨
      name ∈ (CompiledCondition.ofJson rule.condition).referencedNames ∧
        rule.bindings.lookup name = none := by
  simp only [compile, TextSet.mem_insertMany, TextSet.mem_filter, Option.isNone_iff_eq_none]

end Rule

namespace CompiledRule

variable {compiled : CompiledRule} {facts others : List (String × Json)}

/-- Two fact contexts resolve alike what a compiled rule asks of them: the required facts, and the
facts that stand before a variable that the condition refers to. -/
structure AgreesOn (compiled : CompiledRule) (facts others : List (String × Json)) : Prop where
  required : ∀ name ∈ compiled.requiredFacts,
    Scope.lookupPath? facts name = Scope.lookupPath? others name
  shadowing : ∀ name ∈ compiled.condition.referencedNames,
    (compiled.rule.bindings.lookup name).isSome = true →
      Scope.lookupPath? facts name = Scope.lookupPath? others name

/-- Fact contexts that resolve the names of a condition alike give the rule the same outcome. -/
theorem evaluate_congr (tracing : Bool)
    (agrees : ∀ name ∈ compiled.condition.referencedNames,
      Scope.lookupPath? facts name = Scope.lookupPath? others name) :
    compiled.evaluate tracing facts = compiled.evaluate tracing others := by
  unfold evaluate
  split
  · rename_i condition parsed
    refine Condition.evaluateAt_congr tracing [] condition fun name member => ?_
    have referenced : name ∈ compiled.condition.referencedNames := by
      rw [parsed]
      exact TextSet.mem_ofList.mpr member
    simp only [Scope.get?, agrees name referenced]
  · rfl

end CompiledRule

namespace Rule

variable {rule : Rule} {compiled : CompiledRule}

/-- However a rule is compiled, its required facts are all names that its condition refers to but
for those of its variables, and those that its author adds; and it is evaluated alike wherever these
facts, and the facts that stand before its variables, resolve alike. -/
theorem CompilesTo.requiredFacts_exact (compiles : rule.CompilesTo compiled) :
    (∀ name, name ∈ compiled.requiredFacts ↔ name ∈ rule.factKeys.getD [] ∨
      name ∈ compiled.condition.referencedNames ∧ rule.bindings.lookup name = none) ∧
    ∀ facts others, compiled.AgreesOn facts others → ∀ tracing,
      compiled.evaluate tracing facts = compiled.evaluate tracing others := by
  obtain ⟨version, rfl⟩ := compiles.exists_version
  refine ⟨fun _ => mem_requiredFacts_compile, fun facts others agrees tracing => ?_⟩
  apply CompiledRule.evaluate_congr
  intro name referenced
  cases binding : rule.bindings.lookup name with
  | none => exact agrees.required name (mem_requiredFacts_compile.mpr (.inr ⟨referenced, binding⟩))
  | some value => exact agrees.shadowing name referenced (by simp [compile, binding])

/-- Who is of age, with the age as a variable of the rule. -/
def adultRule : Rule :=
  { Rule.ofCondition "adult" accessDomain "adult" (.object [("fact", .string "user.age"),
      ("operator", .string "gte"), ("value", .string "\x7b\x7bminimumAge\x7d\x7d")]) with
    accessConfig := some ⟨.require⟩
    bindings := [("minimumAge", .ofNat 18)] }

/-- The age of a user, under a name of its own or as a field of the user. -/
def flatAge : List (String × Json) := [("user.age", .ofNat 20)]
def nestedAge : List (String × Json) :=
  [("city", .string "Porto"), ("user", .object [("age", .ofNat 20)])]

private theorem requiredFacts_adultRule :
    (adultRule.compile 1).requiredFacts = .ofList ["user.age"] := by
  decide +kernel

private theorem referencedNames_adultRule :
    (adultRule.compile 1).condition.referencedNames = .ofList ["minimumAge", "user.age"] := by
  decide +kernel

private theorem agreesOn_adultRule : (adultRule.compile 1).AgreesOn flatAge nestedAge where
  required := by
    simp only [requiredFacts_adultRule, TextSet.mem_ofList, List.mem_singleton, forall_eq]
    rfl
  shadowing := by
    simp only [referencedNames_adultRule, TextSet.mem_ofList, List.mem_cons, List.not_mem_nil,
      or_false, forall_eq_or_imp, forall_eq]
    exact ⟨fun _ => rfl, fun _ => rfl⟩

theorem requiredFacts_exact_adultRule :
    (adultRule.compile 1).AgreesOn flatAge nestedAge ∧
      "user.age" ∈ (adultRule.compile 1).requiredFacts ∧
      ((adultRule.compile 1).evaluate false flatAge).truth = .true ∧
      (adultRule.compile 1).evaluate false nestedAge =
        (adultRule.compile 1).evaluate false flatAge := by
  have compiles : adultRule.CompilesTo (adultRule.compile 1) := .lenient .new rfl
  obtain ⟨listed, same⟩ := compiles.requiredFacts_exact
  have referenced : "user.age" ∈ (adultRule.compile 1).condition.referencedNames := by
    simp [referencedNames_adultRule]
  exact ⟨agreesOn_adultRule, (listed _).mpr (.inr ⟨referenced, by decide +kernel⟩),
    by decide +kernel, (same _ _ agreesOn_adultRule false).symm⟩

/-- A fact can stand before the variable of the same name, and the required facts do not list it. -/
theorem not_requiredFacts_complete_adultRule :
    ¬ ∀ (rule : Rule) (compiled : CompiledRule), rule.CompilesTo compiled →
      ∀ facts others, (∀ name ∈ compiled.requiredFacts,
        Scope.lookupPath? facts name = Scope.lookupPath? others name) →
      ∀ tracing, (compiled.evaluate tracing facts).truth =
        (compiled.evaluate tracing others).truth := by
  intro complete
  have required : ∀ name ∈ (adultRule.compile 1).requiredFacts, Scope.lookupPath? flatAge name =
      Scope.lookupPath? (("minimumAge", .ofNat 21) :: flatAge) name := by
    simp only [requiredFacts_adultRule, TextSet.mem_ofList, List.mem_singleton, forall_eq]
    rfl
  have same := complete adultRule (adultRule.compile 1) (.lenient .new rfl) _ _ required false
  exact absurd same (by decide +kernel)

end Rule

end RuleBook
