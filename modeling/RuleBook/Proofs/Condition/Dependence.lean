import RuleBook.Proofs.Condition.MissingFacts
import RuleBook.Proofs.Condition.RequiredFacts

/-! # What a condition depends on

A condition is evaluated by what the names that it refers to stand for, and by nothing else: not by
any other fact or variable, and not by whether a name stands for a fact or for a variable. A name is
looked up under two keys only, as a whole and by its first part, so facts and variables under all
other keys can come, go and change without a trace in the outcome.
-/

namespace RuleBook

namespace Scope

/-- Two lists of fields hold the same under the keys by which a name is looked up. -/
structure SameAt (fields others : List (String × Json)) (name : String) : Prop where
  whole : fields.lookup name = others.lookup name
  start : fields.lookup (head name) = others.lookup (head name)

private theorem SameAt.lookupPath?_eq {fields others : List (String × Json)} {name : String}
    (same : SameAt fields others name) : lookupPath? fields name = lookupPath? others name := by
  have start := same.start
  simp only [lookupPath?, same.whole]
  cases parts : splitPoints name.toList with
  | nil => rfl
  | cons first rest =>
    simp only [head, parts, List.headD_cons] at start
    simp only [start]

/-- Fields under a key by which a name is not looked up make no difference to it. -/
theorem sameAt_insert {fields : List (String × Json)} {name key : String} (value : Json)
    (whole : name ≠ key) (start : head name ≠ key) : SameAt ((key, value) :: fields) fields name := by
  constructor
  · rw [List.lookup_cons, beq_eq_false_iff_ne.mpr whole]
  · rw [List.lookup_cons, beq_eq_false_iff_ne.mpr start]

end Scope

namespace Condition

/-- Scopes in which all names that a condition refers to stand for the same give it one outcome,
down to the names without a value, the problems and the trace; and they do so where facts and
variables are the same under the keys by which these names are looked up. -/
theorem evaluate_eq_of_sameNames (condition : Condition) (tracing : Bool) :
    (∀ scope other : Scope,
      (∀ name ∈ condition.referencedNames, scope.get? name = other.get? name) →
        condition.evaluate tracing scope = condition.evaluate tracing other) ∧
    ∀ facts bindings facts' bindings',
      (∀ name ∈ condition.referencedNames, Scope.SameAt facts facts' name ∧
        Scope.SameAt bindings bindings' name) →
      condition.evaluate tracing ⟨facts, bindings⟩ =
        condition.evaluate tracing ⟨facts', bindings'⟩ := by
  have determined (scope other : Scope)
      (same : ∀ name ∈ condition.referencedNames, scope.get? name = other.get? name) :
      condition.evaluate tracing scope = condition.evaluate tracing other :=
    evaluateAt_congr tracing [] condition fun name mentioned =>
      same name (TextSet.mem_ofList.mpr mentioned)
  refine ⟨determined, fun facts bindings facts' bindings' same => determined _ _ ?_⟩
  intro name referenced
  obtain ⟨fact, binding⟩ := same name referenced
  simp only [Scope.get?, fact.lookupPath?_eq, binding.lookupPath?_eq]

/-- The plan of the user as a fact, and as a variable with another fact beside it. -/
def planAsFact : Scope := ⟨[("plan", .string "trial")], []⟩
def planAsVariable : Scope := ⟨[("city", .string "Porto")], [("plan", .string "trial")]⟩

private theorem referencedNames_memberOrPaying :
    memberOrPaying.referencedNames = .ofList ["member", "plan"] := by decide +kernel

theorem evaluate_eq_of_sameNames_memberOrPaying :
    (∀ name ∈ memberOrPaying.referencedNames,
      planAsFact.get? name = planAsVariable.get? name) ∧
    memberOrPaying.evaluate true planAsFact = memberOrPaying.evaluate true planAsVariable ∧
    memberOrPaying.evaluate true ⟨("city", .null) :: planAsFact.facts, planAsFact.bindings⟩ =
      memberOrPaying.evaluate true planAsFact := by
  have same : ∀ name ∈ memberOrPaying.referencedNames,
      planAsFact.get? name = planAsVariable.get? name := by
    simp only [referencedNames_memberOrPaying, TextSet.mem_ofList, List.mem_cons, List.not_mem_nil,
      or_false, forall_eq_or_imp, forall_eq]
    exact ⟨by rfl, by rfl⟩
  obtain ⟨by_names, by_keys⟩ := memberOrPaying.evaluate_eq_of_sameNames true
  refine ⟨same, by_names _ _ same, by_keys _ _ _ _ ?_⟩
  simp only [referencedNames_memberOrPaying, TextSet.mem_ofList, List.mem_cons, List.not_mem_nil,
    or_false, forall_eq_or_imp, forall_eq]
  exact ⟨⟨Scope.sameAt_insert _ (by decide) (by decide +kernel), ⟨rfl, rfl⟩⟩,
    ⟨Scope.sameAt_insert _ (by decide) (by decide +kernel), ⟨rfl, rfl⟩⟩⟩

end Condition

end RuleBook
