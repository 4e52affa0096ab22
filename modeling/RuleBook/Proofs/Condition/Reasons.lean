import Mathlib.Logic.Basic
import RuleBook.Proofs.Condition.MissingFacts

/-! # Why a condition is indeterminate

Reasons are noted at the leaves of a condition while its truth is found: a name without a value, or
a problem. The truth is then negated, and dropped by a group that another child decides. Whatever
becomes of it, a condition that ends up indeterminate has a reason, every name that is noted is one
that the condition refers to and that has no value, and every problem tells where it was met.
-/

namespace RuleBook

namespace Truth

private theorem eq_indeterminate_of_negate {truth : Truth}
    (undecided : truth.negate = .indeterminate) :
    truth = .indeterminate := by
  cases truth with
  | indeterminate => rfl
  | _ => cases undecided

private theorem eq_indeterminate_of_toJson? {truth : Truth} (absent : truth.toJson? = none) :
    truth = .indeterminate := by
  cases truth with
  | indeterminate => rfl
  | _ => cases absent

end Truth

namespace Condition

/-- Something was met that can leave a condition indeterminate. -/
def Findings.HasReason (findings : Findings) : Prop :=
  findings.unresolved ≠ [] ∨ findings.problems ≠ []

/-- The names that were met without a value are names of a list that have none in the scope, and
every problem tells where it was met. -/
structure Findings.Grounded (scope : Scope) (names : List String) (findings : Findings) : Prop where
  missing : ∀ name ∈ findings.unresolved, name ∈ names ∧ scope.get? name = .none
  placed : ∀ problem ∈ findings.problems, ∃ (path : Path) (detail : String),
    problem.message = path.text "root" ++ ": " ++ detail

/-- What was met on the way accounts for the truth. -/
structure Outcome.Explained (scope : Scope) (names : List String) (outcome : Outcome) : Prop where
  grounded : outcome.findings.Grounded scope names
  reason : outcome.truth = .indeterminate → outcome.findings.HasReason

namespace Findings

variable {scope : Scope} {names more : List String} {a b : Findings}

private theorem unresolved_append : (a ++ b).unresolved = a.unresolved ++ b.unresolved := rfl

private theorem problems_append : (a ++ b).problems = a.problems ++ b.problems := rfl

private theorem hasReason_append_iff : (a ++ b).HasReason ↔ a.HasReason ∨ b.HasReason := by
  simp only [HasReason, unresolved_append, problems_append, ne_eq, List.append_eq_nil_iff,
    not_and_or]
  exact or_or_or_comm

private theorem hasReason_missing (name : String) : (missing name).HasReason :=
  .inl (List.cons_ne_nil _ _)

private theorem hasReason_problem (problem : Problem) : (Findings.problem problem).HasReason :=
  .inr (List.cons_ne_nil _ _)

theorem Grounded.append (first : a.Grounded scope names) (second : b.Grounded scope names) :
    (a ++ b).Grounded scope names where
  missing := List.forall_mem_append.mpr ⟨first.missing, second.missing⟩
  placed := List.forall_mem_append.mpr ⟨first.placed, second.placed⟩

theorem Grounded.mono (grounded : a.Grounded scope names) (subset : names ⊆ more) :
    a.Grounded scope more where
  missing name member := (grounded.missing name member).imp_left (subset ·)
  placed := grounded.placed

theorem Grounded.both (first : a.Grounded scope names) (second : b.Grounded scope more) :
    (a ++ b).Grounded scope (names ++ more) :=
  (first.mono (List.subset_append_left names more)).append
    (second.mono (List.subset_append_right names more))

private theorem grounded_none : none.Grounded scope names :=
  ⟨List.forall_mem_nil _, List.forall_mem_nil _⟩

private theorem grounded_step (tracing : Bool) (entry : TraceEntry) :
    (step tracing entry).Grounded scope names := by
  cases tracing <;> exact ⟨List.forall_mem_nil _, List.forall_mem_nil _⟩

private theorem grounded_missing {name : String} (absent : scope.get? name = .none) :
    (missing name).Grounded scope [name] where
  missing := List.forall_mem_singleton.mpr ⟨List.mem_singleton_self name, absent⟩
  placed := List.forall_mem_nil _

private theorem grounded_problem {problem : Problem} (path : Path) (detail : String)
    (message : problem.message = path.text "root" ++ ": " ++ detail) :
    (Findings.problem problem).Grounded scope names where
  missing := List.forall_mem_nil _
  placed := List.forall_mem_singleton.mpr ⟨path, detail, message⟩

end Findings

section Leaves

variable {scope : Scope}

private theorem explained_ofBool (answer : Bool) (names : List String) :
    Outcome.Explained scope names ⟨.ofBool answer, .none⟩ :=
  ⟨Findings.grounded_none, fun undecided => absurd undecided (Truth.ofBool_ne_indeterminate answer)⟩

private theorem explained_literalOutcome (path : Path) (value : Json) :
    (literalOutcome path value).Explained scope [] := by
  unfold literalOutcome
  split
  · exact explained_ofBool _ _
  · refine ⟨Findings.grounded_problem path ("非布尔字面量 " ++ value.text) ?_,
      fun _ => Findings.hasReason_problem _⟩
    simp only [Problem.message, String.append_assoc]
    rfl

private theorem explained_variableOutcome (path : Path) (name : String) :
    (variableOutcome scope path name).Explained scope [name] := by
  unfold variableOutcome
  split
  · exact explained_ofBool _ _
  · rename_i value _ _
    refine ⟨Findings.grounded_problem path
      ("变量 " ++ name ++ " 不是布尔值 (" ++ value.typeName ++ ")") ?_,
      fun _ => Findings.hasReason_problem _⟩
    simp only [Problem.message, String.append_assoc]
    rfl
  · rename_i absent
    exact ⟨Findings.grounded_missing absent, fun _ => Findings.hasReason_missing name⟩

end Leaves

section Evaluation

variable {scope : Scope}

/-- A condition has no value as an operand only for a reason. -/
theorem Outcome.Explained.of_operand {names : List String} {outcome : Outcome}
    (explained : outcome.Explained scope names) :
    outcome.findings.Grounded scope names ∧
      (outcome.truth.toJson? = none → outcome.findings.HasReason) :=
  ⟨explained.grounded, fun absent => explained.reason (Truth.eq_indeterminate_of_toJson? absent)⟩

/-- What was met in finding the value of an operand accounts for its absence. -/
theorem explained_operandValue {evaluated : Outcome} : (operand : Condition) →
    evaluated.Explained scope operand.names →
    (operandValue scope operand fun _ => evaluated).2.Grounded scope operand.names ∧
      ((operandValue scope operand fun _ => evaluated).1 = none →
        (operandValue scope operand fun _ => evaluated).2.HasReason)
  | .literal value, _ =>
    ⟨Findings.grounded_none, fun absent => absurd absent (Option.some_ne_none value)⟩
  | .variable name, _ => by
    simp only [operandValue]
    cases found : scope.get? name with
    | some value =>
      exact ⟨Findings.grounded_none, fun absent => absurd absent (Option.some_ne_none value)⟩
    | none => exact ⟨Findings.grounded_missing found, fun _ => Findings.hasReason_missing name⟩
  | .compare .., inner => inner.of_operand
  | .and _, inner => inner.of_operand
  | .or _, inner => inner.of_operand
  | .not _, inner => inner.of_operand

/-- A comparison is indeterminate for want of a value, or for a problem. -/
theorem explained_compareOutcome (scope : Scope) (names : List String) (path : Path)
    (operator : ComparisonOperator) (lhs rhs : Option Json) :
    (compareOutcome path operator lhs rhs).findings.Grounded scope names ∧
      ((compareOutcome path operator lhs rhs).truth = .indeterminate →
        lhs = none ∨ rhs = none ∨ (compareOutcome path operator lhs rhs).findings.HasReason) := by
  cases lhs with
  | none => exact ⟨Findings.grounded_none, fun _ => .inl rfl⟩
  | some x =>
    cases rhs with
    | none => exact ⟨Findings.grounded_none, fun _ => .inr (.inl rfl)⟩
    | some y =>
      simp only [compareOutcome]
      cases Comparison.holds x operator y with
      | ok answer =>
        exact ⟨Findings.grounded_none,
          fun undecided => absurd undecided (Truth.ofBool_ne_indeterminate answer)⟩
      | error e =>
        exact ⟨Findings.grounded_problem path e.message rfl,
          fun _ => .inr (.inr (Findings.hasReason_problem _))⟩

mutual

/-- What is met in evaluating the condition at a path accounts for its truth. -/
theorem explained_evaluateAt (tracing : Bool) (path : Path) :
    (condition : Condition) →
      (evaluateAt tracing scope path condition).Explained scope condition.names
  | .literal value => explained_literalOutcome path value
  | .variable name => explained_variableOutcome path name
  | .compare operator lhs rhs => by
    have left := explained_operandValue lhs (explained_evaluateAt tracing (path ++ [.lhs]) lhs)
    have right := explained_operandValue rhs (explained_evaluateAt tracing (path ++ [.rhs]) rhs)
    have compared := explained_compareOutcome scope (lhs.names ++ rhs.names) path operator
      (operandValue scope lhs fun _ => evaluateAt tracing scope (path ++ [.lhs]) lhs).1
      (operandValue scope rhs fun _ => evaluateAt tracing scope (path ++ [.rhs]) rhs).1
    constructor
    · exact ((left.1.both right.1).append compared.1).append (Findings.grounded_step tracing _)
    · intro undecided
      simp only [evaluateAt, Findings.hasReason_append_iff]
      rcases compared.2 undecided with no_left | no_right | reason
      · exact .inl (.inl (.inl (left.2 no_left)))
      · exact .inl (.inl (.inr (right.2 no_right)))
      · exact .inl (.inr reason)
  | .and children =>
    have group := explained_evaluateGroup tracing path .and 0 .true children
    ⟨group.1, fun undecided => (group.2 undecided).resolve_left nofun⟩
  | .or children =>
    have group := explained_evaluateGroup tracing path .or 0 .false children
    ⟨group.1, fun undecided => (group.2 undecided).resolve_left nofun⟩
  | .not child => by
    have inner := explained_evaluateAt tracing (path ++ [.child]) child
    constructor
    · exact inner.grounded.append (Findings.grounded_step tracing _)
    · intro undecided
      have reason := inner.reason (Truth.eq_indeterminate_of_negate undecided)
      exact Findings.hasReason_append_iff.mpr (.inl reason)

/-- What is met in evaluating the children of a group from an index on accounts for its truth,
unless the group was indeterminate before. -/
theorem explained_evaluateGroup (tracing : Bool) (path : Path) (operator : LogicalOperator)
    (index : Nat) (result : Truth) :
    (children : List Condition) →
      (evaluateGroup tracing scope path operator index result children).findings.Grounded scope
          (namesOf children) ∧
        ((evaluateGroup tracing scope path operator index result children).truth =
            .indeterminate →
          result = .indeterminate ∨
            (evaluateGroup tracing scope path operator index result children).findings.HasReason)
  | [] => ⟨Findings.grounded_step tracing _, .inl⟩
  | child :: rest => by
    have first := explained_evaluateAt tracing (path ++ [.children index]) child
    have others (result : Truth) :=
      explained_evaluateGroup tracing path operator (index + 1) result rest
    simp only [evaluateGroup]
    split
    · rename_i decides
      have grounded := first.grounded.mono (List.subset_append_left child.names (namesOf rest))
      refine ⟨grounded.append (Findings.grounded_step tracing _), fun undecided => ?_⟩
      exact absurd (undecided.symm.trans decides) (decisive_ne_indeterminate operator)
    · refine ⟨first.grounded.both (others _).1, fun undecided => ?_⟩
      rw [Findings.hasReason_append_iff]
      -- Either the rest has a reason of its own, or the group was indeterminate when it was
      -- reached, and then for its first child or from before.
      rcases (others _).2 undecided with before | reason
      · split at before
        · rename_i undecided_child
          exact .inr (.inl (first.reason undecided_child))
        · exact .inl before
      · exact .inr (.inr reason)

end

theorem explained_evaluate (condition : Condition) (tracing : Bool) (scope : Scope) :
    (condition.evaluate tracing scope).Explained scope condition.names :=
  explained_evaluateAt tracing [] condition

end Evaluation

end Condition

end RuleBook
