import RuleBook.Proofs.Condition.ComparisonLaws
import RuleBook.Proofs.Condition.Kleene

/-! # Membership

Whether a list holds a value can be asked as a disjunction: does the value equal one of the items?
An item that cannot be compared with the value then leaves the answer open unless another item is
equal. The search for a member gives the same answer but in one case: it passes over items that
cannot be compared, so where no item is equal it answers no instead of leaving the question open.
The negation of that answer is a match, which nothing that the list says supports:
`Comparison.answersAsDisjunction_iff`.
-/

namespace RuleBook

namespace Truth

/-- A disjunction holds when one of its parts does. -/
theorem foldr_max_eq_true_iff (truths : List Truth) :
    truths.foldr max ⊥ = .true ↔ .true ∈ truths := by
  induction truths with
  | nil => exact ⟨nofun, nofun⟩
  | cons first rest ih =>
    have top : Truth.true = ⊤ := rfl
    rw [top] at ih ⊢
    rw [List.foldr_cons, max_eq_top, ih, List.mem_cons, eq_comm]

/-- A disjunction fails when all of its parts do. -/
theorem foldr_max_eq_false_iff (truths : List Truth) :
    truths.foldr max ⊥ = .false ↔ ∀ truth ∈ truths, truth = .false := by
  induction truths with
  | nil => exact ⟨fun _ => nofun, fun _ => rfl⟩
  | cons first rest ih =>
    have bottom : Truth.false = ⊥ := rfl
    rw [bottom] at ih ⊢
    rw [List.foldr_cons, max_eq_bot, ih, List.forall_mem_cons]

/-- A disjunction is left open when no part of it holds and one is left open. -/
theorem foldr_max_eq_indeterminate_iff (truths : List Truth) :
    truths.foldr max ⊥ = .indeterminate ↔ .true ∉ truths ∧ .indeterminate ∈ truths := by
  rw [← foldr_max_eq_true_iff]
  constructor
  · intro undecided
    have some_passes : ¬ ∀ truth ∈ truths, truth = .false := by
      rw [← foldr_max_eq_false_iff, undecided]
      exact nofun
    obtain ⟨truth, member, passes⟩ := not_forall₂.mp some_passes
    refine ⟨by rw [undecided]; exact nofun, ?_⟩
    cases truth with
    | true =>
      rw [(foldr_max_eq_true_iff truths).mpr member] at undecided
      cases undecided
    | false => exact absurd rfl passes
    | indeterminate => exact member
  · rintro ⟨not_true, member⟩
    cases outcome : truths.foldr max ⊥ with
    | true => exact absurd outcome not_true
    | false => cases (foldr_max_eq_false_iff truths).mp outcome _ member
    | indeterminate => rfl

section Comparison

variable {lhs rhs : Json} {operator : ComparisonOperator}

private theorem ofComparison_eq_ofBool_iff {answer : Bool} :
    ofComparison operator (some lhs) (some rhs) = ofBool answer ↔
      Comparison.holds lhs operator rhs = .ok answer := by
  simp only [ofComparison]
  cases Comparison.holds lhs operator rhs with
  | ok held => cases held <;> cases answer <;> simp [ofBool]
  | error e => cases answer <;> simp [ofBool]

private theorem ofComparison_eq_indeterminate_iff :
    ofComparison operator (some lhs) (some rhs) = .indeterminate ↔
      (Comparison.holds lhs operator rhs).isOk = Bool.false := by
  simp only [ofComparison]
  cases Comparison.holds lhs operator rhs with
  | ok held =>
    constructor
    · intro undecided
      cases held <;> cases undecided
    · intro refused
      cases refused
  | error e => exact iff_of_true rfl rfl

end Comparison

end Truth

namespace Condition

/-- The value of a condition as an operand. -/
def value? (scope : Scope) (operand : Condition) : Option Json :=
  operand.valueIn scope (operand.kleene scope)

/-- The condition that an operand equals one of the items. -/
def equalsOne (operand : Condition) (items : List Json) : Condition :=
  .or (items.map fun item => .compare .eq operand (.literal item))

/-- A condition asks whether a value is among items: so its operands come out in a scope. -/
structure AsksFor (scope : Scope) (operand list : Condition) (value : Json) (items : List Json) :
    Prop where
  value : operand.value? scope = some value
  items : list.value? scope = some (.array items)

end Condition

namespace Comparison

/-- The truth that a value is among items. -/
def memberTruth (value : Json) (items : List Json) : Truth :=
  .ofComparison .isIn (some value) (some (.array items))

/-- The truth that a value equals one of the items. -/
def equalityTruth (value : Json) (items : List Json) : Truth :=
  (items.map fun item => .ofComparison .eq (some value) (some item)).foldr max ⊥

/-- Two amounts that cannot be compared: they are of two currencies, or one cannot be counted at the
larger of their scales. -/
def Incomparable (lhs rhs : Json) : Prop :=
  ∃ a b, Money.ofJson? lhs = some a ∧ Money.ofJson? rhs = some b ∧ ¬ a.Alignable b

/-- No item equals the value, and one cannot be compared with it. -/
structure Obscured (value : Json) (items : List Json) : Prop where
  not_found : ∀ item ∈ items, equal value item ≠ .ok true
  incomparable : ∃ item ∈ items, Incomparable value item

/-- Whether a value is among items is answered as the disjunction of its comparisons with them,
wherever a condition asks: yes if an item is equal, else not at all if a comparison is undefined,
else no. So the value is found missing only where it differs from every item. -/
structure AnswersAsDisjunction (value : Json) (items : List Json) : Prop where
  truth : memberTruth value items = equalityTruth value items
  found_iff : memberTruth value items = .true ↔ ∃ item ∈ items, equal value item = .ok true
  undecided_iff : memberTruth value items = .indeterminate ↔
    (∀ item ∈ items, equal value item ≠ .ok true) ∧
      ∃ item ∈ items, (equal value item).isOk = false
  refused_iff : memberTruth value items = .false ↔ ∀ item ∈ items, equal value item = .ok false
  evaluated : ∀ scope operand list, Condition.AsksFor scope operand list value items →
    ∀ tracing, ((Condition.compare .isIn operand list).evaluate tracing scope).truth =
      ((operand.equalsOne items).evaluate tracing scope).truth
  missing : ∀ scope operand list, Condition.AsksFor scope operand list value items →
    ∀ tracing, ((Condition.compare .isIn operand list).not.evaluate tracing scope).isMatch = true →
      ∀ item ∈ items, equal value item = .ok false

section Evaluated

variable {scope : Scope} {operand list : Condition} {value : Json} {items : List Json}

private theorem truth_isIn (asks : Condition.AsksFor scope operand list value items)
    (tracing : Bool) :
    ((Condition.compare .isIn operand list).evaluate tracing scope).truth =
      memberTruth value items := by
  rw [Condition.evaluate, Condition.truth_evaluateAt, memberTruth, ← asks.value, ← asks.items]
  rfl

private theorem truth_equalsOne (known : operand.value? scope = some value) (items : List Json)
    (tracing : Bool) : ((operand.equalsOne items).evaluate tracing scope).truth =
      equalityTruth value items := by
  rw [Condition.evaluate, Condition.truth_evaluateAt, equalityTruth, ← known, Condition.equalsOne,
    Condition.kleene, Condition.kleeneEach_eq_map, List.map_map]
  rfl

/-- The negation of a question after a member is a match where the answer is no. -/
theorem isMatch_not_isIn (asks : Condition.AsksFor scope operand list value items)
    (tracing : Bool) :
    ((Condition.compare .isIn operand list).not.evaluate tracing scope).isMatch = true ↔
      memberTruth value items = .false := by
  rw [Condition.Outcome.isMatch, beq_iff_eq, Condition.evaluate, Condition.truth_evaluateAt,
    Condition.kleene, ← truth_isIn asks tracing, Condition.evaluate, Condition.truth_evaluateAt]
  cases (Condition.compare .isIn operand list).kleene scope <;> simp [Truth.negate]

end Evaluated

section Search

variable {value : Json} {items : List Json}

/-- Whether two values are equal is unknown only of two amounts that cannot be compared. -/
theorem isOk_equal_eq_false_iff (lhs rhs : Json) :
    (equal lhs rhs).isOk = false ↔ Incomparable lhs rhs := by
  by_cases amounts : ∃ a b, Money.ofJson? lhs = some a ∧ Money.ofJson? rhs = some b
  · obtain ⟨a, b, left, right⟩ := amounts
    have apart_iff : Incomparable lhs rhs ↔ ¬ a.Alignable b := by
      simp [Incomparable, left, right]
    rw [apart_iff, equal, left, right]
    cases compared : a.compare b with
    | ok order =>
      have alignable := (Money.compare_eq_ok_iff_units.mp compared).1
      simp only [amountOrder, compared]
      refine iff_of_false ?_ (not_not.mpr alignable)
      intro refused
      cases refused
    | error e =>
      have apart : ¬ a.Alignable b := by
        intro alignable
        rw [Money.compare_eq_ok_iff_units.mpr ⟨alignable, rfl⟩] at compared
        cases compared
      simp only [amountOrder, compared]
      exact iff_of_true rfl apart
  · obtain ⟨-, -, plain, -⟩ := (amounts_or_plain lhs rhs).resolve_left amounts
    rw [plain]
    constructor
    · intro refused
      cases refused
    · rintro ⟨a, b, left, right, -⟩
      exact absurd ⟨a, b, left, right⟩ amounts

private theorem memberOf_eq_true_iff : memberOf value items = true ↔
    ∃ item ∈ items, equal value item = .ok true := by
  rw [memberOf, List.any_eq_true]
  refine exists_congr fun item => and_congr_right fun _ => ?_
  cases equal value item with
  | ok same => simp
  | error e => simp

/-- The search always comes to an answer. -/
theorem memberTruth_eq (value : Json) (items : List Json) :
    memberTruth value items = .ofBool (memberOf value items) := rfl

private theorem memberTruth_eq_true_iff : memberTruth value items = .true ↔
    ∃ item ∈ items, equal value item = .ok true := by
  rw [memberTruth_eq, ← memberOf_eq_true_iff]
  cases memberOf value items <;> simp [Truth.ofBool]

private theorem memberTruth_eq_false_iff : memberTruth value items = .false ↔
    ∀ item ∈ items, equal value item ≠ .ok true := by
  have not_found : memberOf value items = false ↔ ∀ item ∈ items, equal value item ≠ .ok true := by
    rw [← Bool.not_eq_true, memberOf_eq_true_iff, not_exists]
    simp only [not_and, ne_eq]
  rw [memberTruth_eq, ← not_found]
  cases memberOf value items <;> simp [Truth.ofBool]

private theorem equalityTruth_eq_true_iff : equalityTruth value items = .true ↔
    ∃ item ∈ items, equal value item = .ok true := by
  rw [equalityTruth, Truth.foldr_max_eq_true_iff, List.mem_map]
  exact exists_congr fun item => and_congr_right fun _ =>
    @Truth.ofComparison_eq_ofBool_iff value item .eq true

private theorem equalityTruth_eq_false_iff : equalityTruth value items = .false ↔
    ∀ item ∈ items, equal value item = .ok false := by
  rw [equalityTruth, Truth.foldr_max_eq_false_iff, List.forall_mem_map]
  exact forall₂_congr fun item _ => @Truth.ofComparison_eq_ofBool_iff value item .eq false

/-- The disjunction is left open exactly where the value is obscured. -/
theorem equalityTruth_eq_indeterminate_iff : equalityTruth value items = .indeterminate ↔
    Obscured value items := by
  have not_found : .true ∉ items.map (fun item => Truth.ofComparison .eq (some value) (some item)) ↔
      ∀ item ∈ items, equal value item ≠ .ok true := by
    rw [← Truth.foldr_max_eq_true_iff, ← equalityTruth, equalityTruth_eq_true_iff, not_exists]
    simp only [not_and, ne_eq]
  rw [equalityTruth, Truth.foldr_max_eq_indeterminate_iff, not_found, List.mem_map]
  have undefined (item : Json) : Truth.ofComparison .eq (some value) (some item) = .indeterminate ↔
      Incomparable value item :=
    Truth.ofComparison_eq_indeterminate_iff.trans (isOk_equal_eq_false_iff value item)
  simp only [undefined]
  exact ⟨fun ⟨not_found, incomparable⟩ => ⟨not_found, incomparable⟩,
    fun obscured => ⟨obscured.not_found, obscured.incomparable⟩⟩

/-- Unless the value is obscured, the search and the disjunction come to the same truth. -/
theorem memberTruth_eq_equalityTruth (clear : ¬ Obscured value items) :
    memberTruth value items = equalityTruth value items := by
  cases outcome : equalityTruth value items with
  | true => rwa [memberTruth_eq_true_iff, ← equalityTruth_eq_true_iff]
  | false =>
    rw [memberTruth_eq_false_iff]
    intro item member
    rw [equalityTruth_eq_false_iff.mp outcome item member]
    exact nofun
  | indeterminate => exact absurd (equalityTruth_eq_indeterminate_iff.mp outcome) clear

private theorem answersAsDisjunction (clear : ¬ Obscured value items) :
    AnswersAsDisjunction value items where
  truth := memberTruth_eq_equalityTruth clear
  found_iff := memberTruth_eq_true_iff
  undecided_iff := by
    simp only [isOk_equal_eq_false_iff]
    rw [memberTruth_eq_equalityTruth clear, equalityTruth_eq_indeterminate_iff]
    exact ⟨fun obscured => absurd obscured clear, fun ⟨not_found, incomparable⟩ =>
      ⟨not_found, incomparable⟩⟩
  refused_iff := by rw [memberTruth_eq_equalityTruth clear, equalityTruth_eq_false_iff]
  evaluated scope operand list asks tracing := by
    rw [truth_isIn asks, truth_equalsOne asks.value, memberTruth_eq_equalityTruth clear]
  missing scope operand list asks tracing missed := by
    rw [isMatch_not_isIn asks, memberTruth_eq_equalityTruth clear] at missed
    exact equalityTruth_eq_false_iff.mp missed

end Search

/-- The search for a member answers as the disjunction of its comparisons unless the value is
obscured; and exactly then it says no where the disjunction is left open. -/
theorem answersAsDisjunction_iff (value : Json) (items : List Json) :
    (AnswersAsDisjunction value items ↔ ¬ Obscured value items) ∧
      (memberTruth value items = .false ∧ equalityTruth value items = .indeterminate ↔
        Obscured value items) := by
  have says_no (obscured : Obscured value items) : memberTruth value items = .false :=
    memberTruth_eq_false_iff.mpr obscured.not_found
  refine ⟨⟨fun answers obscured => ?_, answersAsDisjunction⟩, ?_⟩
  · have undecided := equalityTruth_eq_indeterminate_iff.mpr obscured
    rw [← answers.truth, says_no obscured] at undecided
    cases undecided
  · rw [equalityTruth_eq_indeterminate_iff]
    exact ⟨fun both => both.2, fun obscured => ⟨says_no obscured, obscured⟩⟩

/-- A price in dollars, and a list of one price in euros. -/
def dollarPrice : Json := (Money.ofAmount 2500 .usd).toJson
def euroPrices : List Json := [(Money.ofAmount 2500 .eur).toJson]

/-- That a price in dollars is not among prices in euros is a match, though the two cannot be
compared. -/
theorem not_answersAsDisjunction_euroPrices :
    ¬ AnswersAsDisjunction dollarPrice euroPrices ∧
      ((Condition.compare .isIn (.variable "price") (.literal (.array euroPrices))).not.evaluate
        false ⟨[("price", dollarPrice)], []⟩).isMatch = true := by
  have asks : Condition.AsksFor ⟨[("price", dollarPrice)], []⟩ (.variable "price")
      (.literal (.array euroPrices)) dollarPrice euroPrices := ⟨rfl, rfl⟩
  have says_no : memberTruth dollarPrice euroPrices = .false := by decide +kernel
  refine ⟨fun answers => ?_, (isMatch_not_isIn asks false).mpr says_no⟩
  rw [answers.truth] at says_no
  exact absurd says_no (by decide +kernel)

end Comparison

end RuleBook
