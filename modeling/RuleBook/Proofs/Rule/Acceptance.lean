import RuleBook.Money.Error
import RuleBook.Rule.Compiled

/-! # Accepted rules

A rule is compiled as it is, or accepted from an author first; both give the same compilation, but
for its number. `Rule.IsAcceptable` says what acceptance takes: the rule passes its check, and its
condition can be parsed and has no group without children, however deep inside.
-/

namespace RuleBook

namespace Condition

/-- One condition is another, or stands somewhere inside it. -/
inductive IsPartOf (part : Condition) : Condition → Prop
  | whole : IsPartOf part part
  | inLhs (operator : ComparisonOperator) {lhs : Condition} (rhs : Condition)
      (inner : IsPartOf part lhs) : IsPartOf part (.compare operator lhs rhs)
  | inRhs (operator : ComparisonOperator) (lhs : Condition) {rhs : Condition}
      (inner : IsPartOf part rhs) : IsPartOf part (.compare operator lhs rhs)
  | inAnd {child : Condition} {children : List Condition} (member : child ∈ children)
      (inner : IsPartOf part child) : IsPartOf part (.and children)
  | inOr {child : Condition} {children : List Condition} (member : child ∈ children)
      (inner : IsPartOf part child) : IsPartOf part (.or children)
  | inNot {child : Condition} (inner : IsPartOf part child) : IsPartOf part (.not child)

/-- A condition is a group without children. -/
def IsEmptyGroup (condition : Condition) : Prop := condition = .and [] ∨ condition = .or []

private theorem emptyGroupIn?_eq_none_iff {children : List Condition} :
    emptyGroupIn? children = none ↔ ∀ child ∈ children, child.emptyGroup? = none := by
  induction children with
  | nil => simp [emptyGroupIn?]
  | cons child rest ih => simp [emptyGroupIn?, ih]

private theorem emptyGroup?_and_eq_none_iff {children : List Condition} :
    (Condition.and children).emptyGroup? = none ↔
      children ≠ [] ∧ ∀ child ∈ children, child.emptyGroup? = none := by
  rw [emptyGroup?, ← emptyGroupIn?_eq_none_iff]
  cases children <;> simp

private theorem emptyGroup?_or_eq_none_iff {children : List Condition} :
    (Condition.or children).emptyGroup? = none ↔
      children ≠ [] ∧ ∀ child ∈ children, child.emptyGroup? = none := by
  rw [emptyGroup?, ← emptyGroupIn?_eq_none_iff]
  cases children <;> simp

private theorem emptyGroup?_compare_eq_none_iff {operator : ComparisonOperator}
    {lhs rhs : Condition} :
    (Condition.compare operator lhs rhs).emptyGroup? = none ↔
      lhs.emptyGroup? = none ∧ rhs.emptyGroup? = none := by
  rw [emptyGroup?, Option.or_eq_none_iff]

/-- Where no empty group is found, there is none at any depth. -/
theorem IsPartOf.not_isEmptyGroup {part condition : Condition} (inside : part.IsPartOf condition)
    (none_found : condition.emptyGroup? = none) : ¬ part.IsEmptyGroup := by
  induction inside with
  | whole =>
    rintro (rfl | rfl)
    · exact (emptyGroup?_and_eq_none_iff.mp none_found).1 rfl
    · exact (emptyGroup?_or_eq_none_iff.mp none_found).1 rfl
  | inLhs operator rhs _ ih => exact ih (emptyGroup?_compare_eq_none_iff.mp none_found).1
  | inRhs operator lhs _ ih => exact ih (emptyGroup?_compare_eq_none_iff.mp none_found).2
  | inAnd member _ ih => exact ih ((emptyGroup?_and_eq_none_iff.mp none_found).2 _ member)
  | inOr member _ ih => exact ih ((emptyGroup?_or_eq_none_iff.mp none_found).2 _ member)
  | inNot _ ih => exact ih (by rwa [emptyGroup?] at none_found)

/-- Where an empty group is found, there is one. -/
theorem emptyGroup?_eq_none : (condition : Condition) →
    (∀ part : Condition, part.IsPartOf condition → ¬ part.IsEmptyGroup) → condition.emptyGroup? = none
  | .literal _, _ => rfl
  | .variable _, _ => rfl
  | .compare operator lhs rhs, filled =>
    emptyGroup?_compare_eq_none_iff.mpr
      ⟨emptyGroup?_eq_none lhs fun part inside => filled part (.inLhs operator rhs inside),
        emptyGroup?_eq_none rhs fun part inside => filled part (.inRhs operator lhs inside)⟩
  | .and children, filled => by
    refine emptyGroup?_and_eq_none_iff.mpr ⟨?_, fun child member => ?_⟩
    · rintro rfl
      exact filled _ .whole (.inl rfl)
    · exact emptyGroup?_eq_none child fun part inside => filled part (.inAnd member inside)
  | .or children, filled => by
    refine emptyGroup?_or_eq_none_iff.mpr ⟨?_, fun child member => ?_⟩
    · rintro rfl
      exact filled _ .whole (.inr rfl)
    · exact emptyGroup?_eq_none child fun part inside => filled part (.inOr member inside)
  | .not child, filled => by
    rw [emptyGroup?]
    exact emptyGroup?_eq_none child fun part inside => filled part (.inNot inside)

private theorem emptyGroup?_eq_none_iff {condition : Condition} :
    condition.emptyGroup? = none ↔ ∀ part : Condition, part.IsPartOf condition → ¬ part.IsEmptyGroup :=
  ⟨fun none_found _ inside => inside.not_isEmptyGroup none_found, condition.emptyGroup?_eq_none⟩

end Condition

namespace Rule

/-- What acceptance from an author takes: the rule passes its check, and its condition can be parsed
and has no group without children inside. -/
structure IsAcceptable (rule : Rule) : Prop where
  valid : rule.validate = .ok ()
  parsed : ∃ condition, CompiledCondition.ofJson rule.condition = .parsed condition ∧
    ∀ part : Condition, part.IsPartOf condition → ¬ part.IsEmptyGroup

/-- A rule that passes its check has a consistent target and the configuration of its domain. -/
theorem violations_of_validate {rule : Rule} (valid : rule.validate = .ok ()) :
    rule.scopeViolation? = none ∧ rule.configViolation? = none := by
  simp only [validate] at valid
  -- the id, the name and the domain come first, then the author
  split at valid
  · cases valid
  split at valid
  · cases valid
  split at valid
  · cases valid
  obtain ⟨_, _, valid⟩ := Except.bind_eq_ok_iff.mp valid
  split at valid
  · cases valid
  · rename_i consistent
    split at valid
    · cases valid
    · rename_i configured
      exact ⟨consistent, configured⟩

/-- The compiled rule comes from the rule: compiled as it is, or accepted from an author. -/
inductive CompilesTo (rule : Rule) (compiled : CompiledRule) : Prop
  | lenient (compiler : Compiler) (made : (compiler.compile rule).1 = compiled)
  | strict (compiler : Compiler) (accepted : (compiler.compileStrict rule).1 = .ok compiled)

end Rule

namespace Compiler

variable {compiler : Compiler} {rule : Rule} {compiled : CompiledRule}

/-- Exactly the acceptable rules are accepted, and they are compiled as they are. -/
theorem compileStrict_eq_ok_iff : (compiler.compileStrict rule).1 = .ok compiled ↔
    rule.IsAcceptable ∧ rule.compile (compiler.compilations + 1) = compiled := by
  simp only [compileStrict]
  constructor
  · intro accepted
    split at accepted
    · cases accepted
    · rename_i valid
      simp only [compile, CompiledRule.accept] at accepted
      split at accepted
      · cases accepted
      · rename_i condition parsed
        split at accepted
        · cases accepted
        · rename_i none_found
          exact ⟨⟨valid, condition, parsed, Condition.emptyGroup?_eq_none_iff.mp none_found⟩,
            Except.ok.inj accepted⟩
  · rintro ⟨⟨valid, condition, parsed, filled⟩, rfl⟩
    have none_found := Condition.emptyGroup?_eq_none_iff.mpr filled
    simp only [valid, compile, CompiledRule.accept, Rule.compile, parsed, none_found]

theorem isOk_compileStrict_iff :
    (compiler.compileStrict rule).1.isOk = true ↔ rule.IsAcceptable := by
  constructor
  · intro accepted
    obtain ⟨compiled, accepted⟩ := Except.exists_of_isOk accepted
    exact (compileStrict_eq_ok_iff.mp accepted).1
  · intro acceptable
    rw [compileStrict_eq_ok_iff.mpr ⟨acceptable, rfl⟩]
    rfl

end Compiler

/-- In whichever way a rule is compiled, it is compiled as it is. -/
theorem Rule.CompilesTo.exists_version {rule : Rule} {compiled : CompiledRule}
    (compiles : rule.CompilesTo compiled) : ∃ version, rule.compile version = compiled := by
  cases compiles with
  | lenient compiler made => exact ⟨_, made⟩
  | strict compiler accepted => exact ⟨_, (Compiler.compileStrict_eq_ok_iff.mp accepted).2⟩

end RuleBook
