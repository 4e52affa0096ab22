import Mathlib.Data.List.Perm.Basic
import Mathlib.Order.BoundedOrder.Basic
import Mathlib.Order.Lattice
import RuleBook.Condition.Evaluation

/-! # The meaning of conditions

What a condition means, apart from how it is evaluated. Truths are ordered: false, indeterminate,
true. A conjunction has the least truth of its children and a disjunction the greatest, so the
order of the children means nothing. Evaluation stops at the first child that decides a group and
keeps what it met on the way, and comes to the truth that a condition means.
-/

namespace RuleBook

namespace Truth

/-- The place of a truth: false comes before indeterminate, and indeterminate before true. -/
def rank : Truth → Nat
  | .false => 0
  | .indeterminate => 1
  | .true => 2

private theorem rank_injective : Function.Injective rank := by
  intro a b same
  cases a <;> cases b <;> first | rfl | cases same

instance : LinearOrder Truth := LinearOrder.lift' rank rank_injective

instance : BoundedOrder Truth where
  bot := .false
  bot_le truth := Nat.zero_le truth.rank
  top := .true
  le_top truth := show truth.rank ≤ 2 by cases truth <;> decide

/-- The truth that a value stands for: only truth values stand for a decided one. -/
def ofValue : Option Json → Truth
  | some (.bool answer) => .ofBool answer
  | _ => .indeterminate

/-- The truth of a comparison, indeterminate unless both values are there and can be compared. -/
def ofComparison (operator : ComparisonOperator) : Option Json → Option Json → Truth
  | some lhs, some rhs =>
    match Comparison.holds lhs operator rhs with
    | .ok answer => .ofBool answer
    | .error _ => .indeterminate
  | _, _ => .indeterminate

/-- The truth of a group with two children. -/
def combine : LogicalOperator → Truth → Truth → Truth
  | .or => max
  | _ => min

end Truth

namespace Condition

/-- The value of an operand: that of a literal or of a name, and for every other condition the value
of its truth. -/
def valueIn (scope : Scope) (operand : Condition) (truth : Truth) : Option Json :=
  match operand with
  | .literal value => some value
  | .variable name => scope.get? name
  | _ => truth.toJson?

mutual

/-- The truth that a condition means. -/
def kleene (scope : Scope) : Condition → Truth
  | .literal value => .ofValue (some value)
  | .variable name => .ofValue (scope.get? name)
  | .compare operator lhs rhs =>
    .ofComparison operator (lhs.valueIn scope (kleene scope lhs))
      (rhs.valueIn scope (kleene scope rhs))
  | .and children => (kleeneEach scope children).foldr min ⊤
  | .or children => (kleeneEach scope children).foldr max ⊥
  | .not child => (kleene scope child).negate

/-- The truths that conditions mean. -/
def kleeneEach (scope : Scope) : List Condition → List Truth
  | [] => []
  | child :: rest => kleene scope child :: kleeneEach scope rest

end

/-- One condition is another with the children of groups in another order, at any depth. -/
inductive Rearranged : Condition → Condition → Prop
  | refl (condition : Condition) : Rearranged condition condition
  | trans {a b c : Condition} (first : Rearranged a b) (second : Rearranged b c) : Rearranged a c
  | and {children others : List Condition} (perm : children.Perm others) :
      Rearranged (.and children) (.and others)
  | or {children others : List Condition} (perm : children.Perm others) :
      Rearranged (.or children) (.or others)
  | inAnd (before after : List Condition) {child other : Condition}
      (inner : Rearranged child other) :
      Rearranged (.and (before ++ child :: after)) (.and (before ++ other :: after))
  | inOr (before after : List Condition) {child other : Condition}
      (inner : Rearranged child other) :
      Rearranged (.or (before ++ child :: after)) (.or (before ++ other :: after))
  | inNot {child other : Condition} (inner : Rearranged child other) :
      Rearranged (.not child) (.not other)
  | inLhs (operator : ComparisonOperator) {lhs other : Condition} (rhs : Condition)
      (inner : Rearranged lhs other) :
      Rearranged (.compare operator lhs rhs) (.compare operator other rhs)
  | inRhs (operator : ComparisonOperator) (lhs : Condition) {rhs other : Condition}
      (inner : Rearranged rhs other) :
      Rearranged (.compare operator lhs rhs) (.compare operator lhs other)

section Evaluation

variable {scope : Scope}

private theorem literalOutcome_eq (path : Path) (value : Json) :
    (literalOutcome path value).truth = .ofValue (some value) := by
  cases value <;> rfl

private theorem variableOutcome_eq (path : Path) (name : String) :
    (variableOutcome scope path name).truth = .ofValue (scope.get? name) := by
  simp only [variableOutcome]
  cases scope.get? name with
  | none => rfl
  | some value => cases value <;> rfl

private theorem operandValue_eq (evaluated : Unit → Outcome) : (operand : Condition) →
    (operandValue scope operand evaluated).1 = operand.valueIn scope (evaluated ()).truth
  | .variable name => by
    simp only [operandValue, valueIn]
    cases scope.get? name <;> rfl
  | .literal _ => rfl
  | .compare .. => rfl
  | .and _ => rfl
  | .or _ => rfl
  | .not _ => rfl

private theorem compareOutcome_eq (path : Path) (operator : ComparisonOperator)
    (lhs rhs : Option Json) :
    (compareOutcome path operator lhs rhs).truth = .ofComparison operator lhs rhs := by
  cases lhs with
  | none => rfl
  | some x =>
    cases rhs with
    | none => rfl
    | some y =>
      simp only [compareOutcome, Truth.ofComparison]
      cases Comparison.holds x operator y <;> rfl

instance (operator : LogicalOperator) : Std.Associative (Truth.combine operator) where
  assoc := by cases operator <;> first | exact min_assoc | exact max_assoc

private theorem combine_comm (operator : LogicalOperator) (a b : Truth) :
    Truth.combine operator a b = Truth.combine operator b a := by
  cases operator <;> first | exact min_comm a b | exact max_comm a b

/-- A truth that decides a group outweighs all others. -/
theorem combine_decisive (operator : LogicalOperator) (truth : Truth) :
    Truth.combine operator (decisive operator).1 truth = (decisive operator).1 := by
  cases operator with
  | or => exact max_eq_left le_top
  | _ => exact min_eq_left bot_le

/-- What a child that decides nothing leaves of the truth of a group so far. -/
theorem combine_of_undecisive {operator : LogicalOperator} {truth result : Truth}
    (passes : truth ≠ (decisive operator).1) (result_open : result ≠ (decisive operator).1) :
    Truth.combine operator truth result =
      if truth = .indeterminate then .indeterminate else result := by
  cases operator <;> cases truth <;> cases result <;>
    first | rfl | exact absurd rfl passes | exact absurd rfl result_open

mutual

/-- The condition at a path is evaluated to the truth that it means. -/
theorem truth_evaluateAt (tracing : Bool) (path : Path) :
    (condition : Condition) → (evaluateAt tracing scope path condition).truth = condition.kleene scope
  | .literal value => literalOutcome_eq path value
  | .variable name => variableOutcome_eq path name
  | .compare operator lhs rhs => by
    simp only [evaluateAt, kleene, compareOutcome_eq, operandValue_eq,
      truth_evaluateAt tracing _ lhs, truth_evaluateAt tracing _ rhs]
  | .and children => truth_evaluateGroup tracing path 0 (by simp [decisive]) children
  | .or children => truth_evaluateGroup tracing path 0 (by simp [decisive]) children
  | .not child => by
    simp only [evaluateAt, kleene, truth_evaluateAt tracing _ child]

/-- The children of a group from an index on are evaluated to the truth that they mean together with
that of the group so far. -/
theorem truth_evaluateGroup (tracing : Bool) (path : Path) {operator : LogicalOperator} (index : Nat)
    {result : Truth} (result_open : result ≠ (decisive operator).1) :
    (children : List Condition) →
      (evaluateGroup tracing scope path operator index result children).truth =
        (kleeneEach scope children).foldr (Truth.combine operator) result
  | [] => rfl
  | child :: rest => by
    have first := truth_evaluateAt tracing (path ++ [.children index]) child
    simp only [evaluateGroup, kleeneEach, List.foldr_cons, first]
    split
    · rename_i decides
      rw [decides, combine_decisive]
    · rename_i passes
      have left := combine_of_undecisive passes result_open
      have left_open : Truth.combine operator (kleene scope child) result ≠
          (decisive operator).1 := by
        rw [left]
        split
        · cases operator <;> simp [decisive]
        · exact result_open
      rw [← left, truth_evaluateGroup tracing path (index + 1) left_open rest,
        combine_comm operator (kleene scope child) result, List.foldr_assoc, combine_comm operator]

end

end Evaluation

section Rearranged

theorem kleeneEach_eq_map (scope : Scope) (children : List Condition) :
    kleeneEach scope children = children.map (kleene scope) := by
  induction children with
  | nil => rfl
  | cons child rest ih => rw [kleeneEach, ih, List.map_cons]

/-- A group means as much as another whose children mean the same truths, in whatever order. -/
theorem kleene_group_congr {scope : Scope} {children others : List Condition}
    (perm : (others.map (kleene scope)).Perm (children.map (kleene scope))) :
    kleene scope (.and others) = kleene scope (.and children) ∧
      kleene scope (.or others) = kleene scope (.or children) := by
  simp only [kleene, kleeneEach_eq_map]
  exact ⟨perm.foldr_eq ⊤, perm.foldr_eq ⊥⟩

/-- Rearranging a condition changes neither the truth that it means nor the value that it has as an
operand. -/
theorem Rearranged.kleene_eq {condition other : Condition} (rearranged : condition.Rearranged other)
    (scope : Scope) :
    other.kleene scope = condition.kleene scope ∧
      other.valueIn scope (other.kleene scope) =
        condition.valueIn scope (condition.kleene scope) := by
  -- No leaf is rearranged into another, and beside leaves an operand has the value of its truth.
  induction rearranged with
  | refl => exact ⟨rfl, rfl⟩
  | trans _ _ first second => exact ⟨second.1.trans first.1, second.2.trans first.2⟩
  | and perm =>
    have same := (kleene_group_congr (perm.symm.map (kleene scope))).1
    exact ⟨same, congrArg Truth.toJson? same⟩
  | or perm =>
    have same := (kleene_group_congr (perm.symm.map (kleene scope))).2
    exact ⟨same, congrArg Truth.toJson? same⟩
  | @inAnd before after child other _ ih =>
    have each : (before ++ other :: after).map (kleene scope) =
        (before ++ child :: after).map (kleene scope) := by
      simp only [List.map_append, List.map_cons, ih.1]
    have same := (kleene_group_congr (.of_eq each)).1
    exact ⟨same, congrArg Truth.toJson? same⟩
  | @inOr before after child other _ ih =>
    have each : (before ++ other :: after).map (kleene scope) =
        (before ++ child :: after).map (kleene scope) := by
      simp only [List.map_append, List.map_cons, ih.1]
    have same := (kleene_group_congr (.of_eq each)).2
    exact ⟨same, congrArg Truth.toJson? same⟩
  | inNot _ ih =>
    have same := congrArg Truth.negate ih.1
    exact ⟨same, congrArg Truth.toJson? same⟩
  | inLhs operator rhs _ ih =>
    have same := congrArg (Truth.ofComparison operator · (rhs.valueIn scope (rhs.kleene scope))) ih.2
    exact ⟨same, congrArg Truth.toJson? same⟩
  | inRhs operator lhs _ ih =>
    have same := congrArg (Truth.ofComparison operator (lhs.valueIn scope (lhs.kleene scope))) ih.2
    exact ⟨same, congrArg Truth.toJson? same⟩

/-- Evaluation comes to the truth that a condition means, and to the same truth for every
rearrangement, traced or not. -/
theorem truth_evaluate_kleene (condition : Condition) (scope : Scope) (tracing : Bool) :
    (condition.evaluate tracing scope).truth = condition.kleene scope ∧
      ∀ other, condition.Rearranged other → ∀ tracing',
        (other.evaluate tracing' scope).truth = (condition.evaluate tracing scope).truth := by
  have meant (tracing : Bool) (condition : Condition) :
      (condition.evaluate tracing scope).truth = condition.kleene scope :=
    truth_evaluateAt tracing [] condition
  refine ⟨meant tracing condition, fun other rearranged tracing' => ?_⟩
  rw [meant, meant]
  exact (rearranged.kleene_eq scope).1

/-- Who is no paying member, or on trial. -/
def lapsedOrTrial : Condition :=
  .or [.not (.compare .eq (.and [.variable "member", .variable "paid"]) (.literal (.bool true))),
    .variable "trial"]

/-- The same with the children of both groups in the other order. -/
def trialOrLapsed : Condition :=
  .or [.variable "trial",
    .not (.compare .eq (.and [.variable "paid", .variable "member"]) (.literal (.bool true)))]

theorem truth_evaluate_kleene_lapsedOrTrial :
    let scope : Scope := ⟨[("paid", .bool false)], []⟩
    lapsedOrTrial.Rearranged trialOrLapsed ∧ lapsedOrTrial.kleene scope = .true ∧
      (lapsedOrTrial.evaluate false scope).truth = .true ∧
      (trialOrLapsed.evaluate true scope).truth = (lapsedOrTrial.evaluate false scope).truth := by
  intro scope
  have inner : Rearranged (.and [.variable "member", .variable "paid"])
      (.and [.variable "paid", .variable "member"]) := .and (.swap ..)
  have rearranged : lapsedOrTrial.Rearranged trialOrLapsed :=
    .trans (.inOr [] [.variable "trial"] (.inNot (.inLhs _ _ inner))) (.or (.swap ..))
  have meant : lapsedOrTrial.kleene scope = .true := by decide +kernel
  obtain ⟨evaluated, alike⟩ := lapsedOrTrial.truth_evaluate_kleene scope false
  exact ⟨rearranged, meant, evaluated.trans meant, alike trialOrLapsed rearranged true⟩

end Rearranged

end Condition

end RuleBook
