import RuleBook.Rule.Compiled

/-! # Missing facts

A name without a value leaves a condition undecided unless the rest of it decides. What is decided
stays so whatever the missing facts turn out to be: in a scope that keeps the values of all names
that have one, a condition that was true is true and one that was false is false. So a condition
whose truth hangs on a missing fact is no match, however it is nested.
-/

namespace RuleBook

/-- What a truth may become when more is known: everything if it is undecided, else only itself. -/
inductive Truth.LeadsTo : Truth → Truth → Prop
  | undecided (truth : Truth) : LeadsTo .indeterminate truth
  | same (truth : Truth) : LeadsTo truth truth

namespace Truth.LeadsTo

variable {a b : Truth}

private theorem eq_of_decided (leads : a.LeadsTo b) (decided : a ≠ .indeterminate) : b = a := by
  cases leads with
  | undecided => exact absurd rfl decided
  | same => rfl

theorem negate (leads : a.LeadsTo b) : a.negate.LeadsTo b.negate := by
  cases leads with
  | undecided => exact .undecided _
  | same => exact .same _

private theorem toJson?_eq (leads : a.LeadsTo b) {value : Json} (known : a.toJson? = some value) :
    b.toJson? = some value := by
  cases leads with
  | undecided => cases known
  | same => exact known

end Truth.LeadsTo

theorem Truth.ofBool_ne_indeterminate (answer : Bool) : Truth.ofBool answer ≠ .indeterminate := by
  cases answer <;> simp [Truth.ofBool]

namespace Scope

/-- The names of a list that have a value in a scope have the same value in another. -/
def ExtendedBy (scope wider : Scope) (names : List String) : Prop :=
  ∀ name ∈ names, ∀ value, scope.get? name = some value → wider.get? name = some value

theorem ExtendedBy.mono {scope wider : Scope} {names fewer : List String}
    (extended : scope.ExtendedBy wider names) (subset : fewer ⊆ names) :
    scope.ExtendedBy wider fewer :=
  fun name member => extended name (subset member)

/-- The part of a name up to its first point. -/
def head (name : String) : String := String.ofList ((splitPoints name.toList).headD [])

/-- A name has no value among fields that hold neither it nor its first part. -/
theorem lookupPath?_eq_none {fields : List (String × Json)} {name : String}
    (whole : fields.lookup name = none) (start : fields.lookup (head name) = none) :
    lookupPath? fields name = none := by
  simp only [lookupPath?, whole]
  cases parts : splitPoints name.toList with
  | nil => rfl
  | cons first rest =>
    simp only [head, parts, List.headD_cons] at start
    simp only [start, Option.bind_none]

/-- The facts hold those of a scope, and a new one only where every name that would be looked up
there had no value. -/
structure SuppliedBy (scope : Scope) (facts : List (String × Json)) : Prop where
  kept : ∀ key value, scope.facts.lookup key = some value → facts.lookup key = some value
  missing : ∀ key, scope.facts.lookup key = none → (facts.lookup key).isSome = true →
    ∀ name, name = key ∨ (head name = key ∧ scope.facts.lookup name = none) →
      scope.get? name = none

namespace SuppliedBy

variable {scope : Scope} {facts : List (String × Json)}

/-- Where a name with a value is looked up, the facts are the same. -/
theorem lookup_eq (supplied : scope.SuppliedBy facts) {name key : String} {value : Json}
    (found : scope.get? name = some value)
    (starts : name = key ∨ (head name = key ∧ scope.facts.lookup name = none)) :
    facts.lookup key = scope.facts.lookup key := by
  cases held : scope.facts.lookup key with
  | some other => exact supplied.kept key other held
  | none =>
    cases added : facts.lookup key with
    | none => rfl
    | some other =>
      have absent := supplied.missing key held (by simp [added]) name starts
      rw [found] at absent
      cases absent

private theorem extendedBy (supplied : scope.SuppliedBy facts) (names : List String) :
    scope.ExtendedBy ⟨facts, scope.bindings⟩ names := by
  intro name _ value found
  have whole := supplied.lookup_eq found (.inl rfl)
  have same : lookupPath? facts name = lookupPath? scope.facts name := by
    simp only [lookupPath?, whole]
    cases flat : scope.facts.lookup name with
    | some _ => rfl
    | none =>
      cases parts : splitPoints name.toList with
      | nil => rfl
      | cons first rest =>
        have start : head name = String.ofList first := by simp [head, parts]
        simp only [supplied.lookup_eq found (.inr ⟨start, flat⟩)]
  rw [← found]
  simp only [get?, same]

end SuppliedBy

end Scope

namespace Condition

variable {scope wider : Scope}

private theorem literalOutcome_truth (path path' : Path) (value : Json) :
    (literalOutcome path value).truth = (literalOutcome path' value).truth := by
  cases value <;> rfl

/-- A name in boolean position has the truth of its value. -/
theorem variableOutcome_truth {scope : Scope} {name : String} {value : Json} (path : Path)
    (found : scope.get? name = some value) :
    (variableOutcome scope path name).truth = (literalOutcome path value).truth := by
  simp only [variableOutcome, found]
  cases value <;> rfl

/-- An operand that has a value keeps it. -/
theorem operandValue_of_extendedBy {before after : Unit → Outcome} : (operand : Condition) →
    scope.ExtendedBy wider operand.names → (before ()).truth.LeadsTo (after ()).truth →
    ∀ value, (operandValue scope operand before).1 = some value →
      (operandValue wider operand after).1 = some value
  | .literal _, _, _, _, known => known
  | .variable name, extended, _, value, known => by
    simp only [operandValue] at known ⊢
    cases found : scope.get? name with
    | none => simp [found] at known
    | some held =>
      simp only [found, Option.some.injEq] at known
      simp [extended name (List.mem_singleton_self name) held found, known]
  | .compare .., _, leads, _, known => leads.toJson?_eq known
  | .and _, _, leads, _, known => leads.toJson?_eq known
  | .or _, _, leads, _, known => leads.toJson?_eq known
  | .not _, _, leads, _, known => leads.toJson?_eq known

/-- A comparison is undecided while an operand has no value. -/
theorem compareOutcome_leadsTo (path path' : Path) (operator : ComparisonOperator)
    {lhs rhs lhs' rhs' : Option Json}
    (left : ∀ value, lhs = some value → lhs' = some value)
    (right : ∀ value, rhs = some value → rhs' = some value) :
    (compareOutcome path operator lhs rhs).truth.LeadsTo
      (compareOutcome path' operator lhs' rhs').truth := by
  cases lhs with
  | none => exact .undecided _
  | some x =>
    cases rhs with
    | none => exact .undecided _
    | some y =>
      rw [left x rfl, right y rfl]
      simp only [compareOutcome]
      cases Comparison.holds x operator y with
      | error e => exact .undecided _
      | ok answer => exact .same _

theorem decisive_ne_indeterminate (operator : LogicalOperator) :
    Truth.indeterminate ≠ (decisive operator).1 := by
  cases operator <;> simp [decisive]

/-- A group with an undecided child stays undecided unless another child decides it. -/
theorem evaluateGroup_undecided (tracing : Bool) (scope : Scope) (path : Path)
    (operator : LogicalOperator) (index : Nat) (children : List Condition) :
    (evaluateGroup tracing scope path operator index .indeterminate children).truth =
        .indeterminate ∨
      (evaluateGroup tracing scope path operator index .indeterminate children).truth =
        (decisive operator).1 := by
  induction children generalizing index with
  | nil => exact .inl rfl
  | cons child rest ih =>
    simp only [evaluateGroup]
    split
    · rename_i decides
      exact .inr decides
    · simp only [ite_self]
      exact ih (index + 1)

mutual

/-- What is decided in a scope stays so in every scope that keeps the values of its names. -/
theorem evaluateAt_leadsTo (tracing tracing' : Bool) (path path' : Path) :
    (condition : Condition) → scope.ExtendedBy wider condition.names →
      (evaluateAt tracing scope path condition).truth.LeadsTo
        (evaluateAt tracing' wider path' condition).truth
  | .literal value, _ => by
    simp only [evaluateAt, literalOutcome_truth path path' value]
    exact .same _
  | .variable name, extended => by
    simp only [evaluateAt]
    cases found : scope.get? name with
    | none =>
      simp only [variableOutcome, found]
      exact .undecided _
    | some value =>
      have found' := extended name (List.mem_singleton_self name) value found
      rw [variableOutcome_truth path found, variableOutcome_truth path' found',
        literalOutcome_truth path path']
      exact .same _
  | .compare operator lhs rhs, extended => by
    have left := extended.mono (List.subset_append_left lhs.names rhs.names)
    have right := extended.mono (List.subset_append_right lhs.names rhs.names)
    exact compareOutcome_leadsTo path path' operator
      (operandValue_of_extendedBy lhs left (evaluateAt_leadsTo tracing tracing' _ _ lhs left))
      (operandValue_of_extendedBy rhs right (evaluateAt_leadsTo tracing tracing' _ _ rhs right))
  | .and children, extended =>
    evaluateGroup_leadsTo tracing tracing' path path' .and 0 (.same _) children extended
  | .or children, extended =>
    evaluateGroup_leadsTo tracing tracing' path path' .or 0 (.same _) children extended
  | .not child, extended =>
    (evaluateAt_leadsTo tracing tracing' _ _ child extended).negate

private theorem evaluateGroup_leadsTo (tracing tracing' : Bool) (path path' : Path)
    (operator : LogicalOperator) (index : Nat) {result result' : Truth}
    (leads : result.LeadsTo result') :
    (children : List Condition) → scope.ExtendedBy wider (namesOf children) →
      (evaluateGroup tracing scope path operator index result children).truth.LeadsTo
        (evaluateGroup tracing' wider path' operator index result' children).truth
  | [], _ => leads
  | child :: rest, extended => by
    have first := evaluateAt_leadsTo tracing tracing' (path ++ [.children index])
      (path' ++ [.children index]) child
      (extended.mono (List.subset_append_left child.names (namesOf rest)))
    have others := extended.mono (List.subset_append_right child.names (namesOf rest))
    simp only [evaluateGroup]
    generalize evaluateAt tracing scope (path ++ [.children index]) child = before at first ⊢
    generalize evaluateAt tracing' wider (path' ++ [.children index]) child = after at first ⊢
    obtain ⟨before, _⟩ := before
    obtain ⟨after, _⟩ := after
    cases first with
    | undecided =>
      simp only [decisive_ne_indeterminate, if_false, if_true]
      split
      · -- the child decides the group only later on: until then it was undecided, or decided alike
        rename_i decides
        rcases evaluateGroup_undecided tracing scope path operator (index + 1) rest with open_ | done
        · rw [open_]
          exact .undecided _
        · rw [done, ← decides]
          exact .same _
      · exact evaluateGroup_leadsTo tracing tracing' path path' operator (index + 1)
          (.undecided _) rest others
    | same =>
      split
      · exact .same _
      · refine evaluateGroup_leadsTo tracing tracing' path path' operator (index + 1) ?_ rest others
        split
        · exact .same _
        · exact leads

end

private theorem evaluate_leadsTo (condition : Condition) (tracing tracing' : Bool)
    (extended : scope.ExtendedBy wider condition.names) :
    (condition.evaluate tracing scope).truth.LeadsTo
      (condition.evaluate tracing' wider).truth :=
  evaluateAt_leadsTo tracing tracing' [] [] condition extended

/-- What a condition decides while facts are missing it decides for all values that they could
take, so a truth that hangs on a missing fact is undecided. -/
theorem decision_stable (condition : Condition) (scope : Scope) (tracing tracing' : Bool) :
    (∀ wider : Scope, scope.ExtendedBy wider condition.names → ∀ answer : Bool,
      (condition.evaluate tracing scope).truth = .ofBool answer →
        (condition.evaluate tracing' wider).truth = .ofBool answer) ∧
    ((condition.evaluate tracing scope).isMatch = true →
      ∀ facts, scope.SuppliedBy facts →
        (condition.evaluate tracing' ⟨facts, scope.bindings⟩).isMatch = true) ∧
    (∀ one another : Scope, scope.ExtendedBy one condition.names →
      scope.ExtendedBy another condition.names →
      (condition.evaluate tracing' one).truth ≠ (condition.evaluate tracing' another).truth →
        (condition.evaluate tracing scope).truth = .indeterminate) := by
  refine ⟨?_, ?_, ?_⟩
  · intro wider extended answer decided
    have leads := condition.evaluate_leadsTo tracing tracing' extended
    rw [decided] at leads
    exact leads.eq_of_decided (Truth.ofBool_ne_indeterminate answer)
  · intro holds facts supplied
    rw [Outcome.isMatch, beq_iff_eq] at holds ⊢
    have leads := condition.evaluate_leadsTo tracing tracing' (supplied.extendedBy condition.names)
    rw [holds] at leads
    exact leads.eq_of_decided (by simp)
  · intro one another extended_one extended_another differ
    refine Decidable.byContradiction fun decided => ?_
    have leads_one := condition.evaluate_leadsTo tracing tracing' extended_one
    have leads_another := condition.evaluate_leadsTo tracing tracing' extended_another
    exact differ ((leads_one.eq_of_decided decided).trans
      (leads_another.eq_of_decided decided).symm)

/-- Who is a member, or has a plan that is no trial. -/
def memberOrPaying : Condition :=
  .or [.variable "member",
    .not (.compare .eq (.variable "plan") (.literal (.string "trial")))]

theorem decision_stable_memberOrPaying :
    (∃ facts, facts.lookup "plan" = some (Json.string "trial") ∧
      Scope.SuppliedBy ⟨[("member", .bool true)], []⟩ facts ∧
      (memberOrPaying.evaluate true ⟨facts, []⟩).isMatch = true) ∧
    (memberOrPaying.evaluate false ⟨[], []⟩).truth = .indeterminate := by
  constructor
  · have supplied : Scope.SuppliedBy ⟨[("member", .bool true)], []⟩
        [("member", .bool true), ("plan", .string "trial")] := by
      constructor
      · intro key value found
        simp only [List.lookup_cons, List.lookup_nil] at found ⊢
        split at found
        · exact found
        · cases found
      · intro key absent added name starts
        have other : (key == "member") = false := by
          cases same : key == "member" with
          | false => rfl
          | true => simp [List.lookup_cons, same] at absent
        obtain rfl : key = "plan" := by
          cases same : key == "plan" with
          | true => exact beq_iff_eq.mp same
          | false => simp [List.lookup_cons, List.lookup_nil, other, same] at added
        have nowhere : Scope.lookupPath? [("member", .bool true)] name = none := by
          rcases starts with rfl | ⟨start, whole⟩
          · decide +kernel
          · exact Scope.lookupPath?_eq_none whole (start ▸ absent)
        simp only [Scope.get?, nowhere, Option.none_or]
        exact Scope.lookupPath?_eq_none rfl rfl
    exact ⟨_, rfl, supplied,
      (memberOrPaying.decision_stable _ false true).2.1 (by decide +kernel) _ supplied⟩
  · have unknown (wider : Scope) : Scope.ExtendedBy ⟨[], []⟩ wider memberOrPaying.names := by
      intro name _ value found
      have absent : Scope.lookupPath? [] name = none := Scope.lookupPath?_eq_none rfl rfl
      simp [Scope.get?, absent] at found
    exact (memberOrPaying.decision_stable _ false false).2.2
      ⟨[("plan", .string "trial")], []⟩ ⟨[("plan", .string "team")], []⟩ (unknown _) (unknown _)
      (by decide +kernel)

end Condition

end RuleBook
