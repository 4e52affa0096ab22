import RuleBook.Condition.Comparison
import RuleBook.Proofs.Money.Order

/-! # Laws of the comparisons

Equality and the order of values go by case distinctions of their own, over amounts, the integers of
both ranges, texts and everything else. They agree: values with an order are smaller, equal or
greater, whichever of the two is asked about first, and equality answers alike in both directions.
-/

namespace RuleBook

theorem RuleError.ofMoney_eq_ok_iff {α : Type} {result : Except MoneyError α} {a : α} :
    ofMoney result = .ok a ↔ result = .ok a := by
  cases result <;> simp [ofMoney]

/-- Amounts that are compared in the other direction are in the opposite order. -/
theorem Money.compare_swap {a b : Money} {order : Ordering} (compared : a.compare b = .ok order) :
    b.compare a = .ok order.swap := by
  obtain ⟨alignable, rfl⟩ := compare_eq_ok_iff_units.mp compared
  rw [compare_eq_ok_iff_units, Nat.max_comm]
  exact ⟨alignable.symm, Std.OrientedOrd.eq_swap.symm⟩

private theorem Double.order_swap (x y : Double) : (x.order y).swap = y.order x :=
  Std.OrientedOrd.eq_swap.symm

private theorem Double.same_comm (x y : Double) : x.same y = y.same x := by
  rw [same, same, ← order_swap y x]
  cases y.order x <;> rfl

namespace JsonNumber

section Integers

variable {x y : JsonInt}

private theorem value_of_int64? {a : Int64} (signed : (int x).int64? = some a) :
    x.value = a.toInt := by
  simp only [int64?, Option.map_eq_some_iff, IntRange.check?_eq_some_iff] at signed
  obtain ⟨_, ⟨⟨least, greatest⟩, rfl⟩, rfl⟩ := signed
  rw [Int64.toInt_ofInt_of_le least (Int.lt_add_one_of_le greatest)]

private theorem value_of_uint64? {a : UInt64} (unsigned : (int x).uint64? = some a) :
    x.value = a.toNat := by
  simp only [uint64?, Option.map_eq_some_iff, IntRange.check?_eq_some_iff] at unsigned
  obtain ⟨_, ⟨⟨least, greatest⟩, rfl⟩, rfl⟩ := unsigned
  simp only [IntRange.unsigned64] at least greatest
  rw [UInt64.toNat_ofNat', Nat.mod_eq_of_lt (by omega)]
  omega

private theorem isSome_int64?_int :
    (int x).int64?.isSome = true ↔ x.value ≤ 0x7fffffffffffffff := by
  rw [Option.isSome_iff_ne_none, ne_eq, int64?, Option.map_eq_none_iff,
    IntRange.check?_eq_none_iff, not_not]
  exact ⟨fun holds => holds.2, fun below => ⟨x.least_le, below⟩⟩

private theorem isSome_uint64?_int : (int x).uint64?.isSome = true ↔ 0 ≤ x.value := by
  rw [Option.isSome_iff_ne_none, ne_eq, uint64?, Option.map_eq_none_iff,
    IntRange.check?_eq_none_iff, not_not]
  exact ⟨fun holds => holds.1, fun above => ⟨above, Int.le_of_lt_add_one x.lt_bound⟩⟩

private theorem compare_int64 (a b : Int64) : Ord.compare a b = Ord.compare a.toInt b.toInt := by
  simp only [Ord.compare, compareOfLessAndEq, Int64.lt_iff_toInt_lt, ← Int64.toInt_inj]

private theorem compare_uint64 (a b : UInt64) :
    Ord.compare a b = Ord.compare (a.toNat : Int) (b.toNat : Int) := by
  simp only [Ord.compare, compareOfLessAndEq, UInt64.lt_iff_toNat_lt, ← UInt64.toNat_inj,
    Int.ofNat_lt, Int.ofNat_inj]

/-- Integers are in the order of their values, also a negative one and one above the signed
numbers. -/
theorem order_int (x y : JsonInt) : (int x).order (int y) = Ord.compare x.value y.value := by
  rw [order]
  split
  · rename_i a b left right
    rw [value_of_int64? left, value_of_int64? right, compare_int64]
  rename_i not_signed
  split
  · rename_i a b left right
    rw [value_of_uint64? left, value_of_uint64? right, compare_uint64]
  rename_i not_unsigned
  -- Neither range holds both, so that one is negative and the other above the signed numbers.
  have one_above : x.value ≤ 0x7fffffffffffffff → ¬ y.value ≤ 0x7fffffffffffffff := by
    intro left right
    obtain ⟨a, left⟩ := Option.isSome_iff_exists.mp (isSome_int64?_int.mpr left)
    obtain ⟨b, right⟩ := Option.isSome_iff_exists.mp (isSome_int64?_int.mpr right)
    exact not_signed a b left right
  have one_negative : 0 ≤ x.value → ¬ 0 ≤ y.value := by
    intro left right
    obtain ⟨a, left⟩ := Option.isSome_iff_exists.mp (isSome_uint64?_int.mpr left)
    obtain ⟨b, right⟩ := Option.isSome_iff_exists.mp (isSome_uint64?_int.mpr right)
    exact not_unsigned a b left right
  simp only [Bool.and_eq_true, isSome_int64?_int, isSome_uint64?_int]
  by_cases negative : x.value < 0
  · rw [if_neg (by omega), if_pos (by omega), compare_lt_iff_lt.mpr (by omega)]
  · rw [if_pos (by omega), compare_gt_iff_gt.mpr (by omega)]

end Integers

private theorem order_float_left (x : Double) (y : JsonNumber) :
    (float x).order y = x.order y.toDouble :=
  rfl

private theorem order_float_right (x : JsonNumber) (y : Double) :
    x.order (float y) = x.toDouble.order y := by
  simp [order, int64?, uint64?, toDouble]

private theorem order_swap (x y : JsonNumber) : (x.order y).swap = y.order x := by
  cases x with
  | int x =>
    cases y with
    | int y =>
      rw [order_int, order_int]
      exact Std.OrientedOrd.eq_swap.symm
    | float y => rw [order_float_left, order_float_right, Double.order_swap]
  | float x => rw [order_float_left, order_float_right, Double.order_swap]

private theorem same_comm (x y : JsonNumber) : x.same y = y.same x := by
  cases x with
  | int x =>
    cases y with
    | int y => exact Bool.beq_comm
    | float y => rfl
  | float x =>
    cases y with
    | int y => rfl
    | float y => exact Double.same_comm x y

end JsonNumber

namespace Json

mutual

private theorem same_comm : (x y : Json) → x.same y = y.same x
  | .null, y => by cases y <;> rfl
  | .bool x, y => by
    cases y with
    | bool y => exact Bool.beq_comm
    | _ => rfl
  | .number x, y => by
    cases y with
    | number y => exact x.same_comm y
    | _ => rfl
  | .string x, y => by
    cases y with
    | string y => exact Bool.beq_comm
    | _ => rfl
  | .array xs, y => by
    cases y with
    | array ys => exact sameItems_comm xs ys
    | _ => rfl
  | .object xs, y => by
    cases y with
    | object ys => exact sameFields_comm xs ys
    | _ => rfl

private theorem sameItems_comm : (xs ys : List Json) → sameItems xs ys = sameItems ys xs
  | [], [] | [], _ :: _ | _ :: _, [] => by simp only [sameItems]
  | x :: xs, y :: ys => by
    rw [sameItems, sameItems, same_comm x y, sameItems_comm xs ys]

private theorem sameFields_comm :
    (xs ys : List (String × Json)) → sameFields xs ys = sameFields ys xs
  | [], [] | [], _ :: _ | _ :: _, [] => by simp only [sameFields]
  | (key, x) :: xs, (other, y) :: ys => by
    rw [sameFields, sameFields, same_comm x y, sameFields_comm xs ys, Bool.beq_comm (a := key)]

end

end Json

/-- The comparison that asks for an order. -/
def ComparisonOperator.ofOrdering : Ordering → ComparisonOperator
  | .lt => lt
  | .eq => eq
  | .gt => gt

namespace Comparison

section Plain

variable {lhs rhs : Json} {sign : Ordering}

/-- Two numbers and two texts have an order. -/
theorem plainOrder_eq_ok_iff : plainOrder lhs rhs = .ok sign ↔
    (∃ x y, lhs = .number x ∧ rhs = .number y ∧ x.order y = sign) ∨
      ∃ x y, lhs = .string x ∧ rhs = .string y ∧ Ord.compare x y = sign := by
  constructor
  · intro ordered
    unfold plainOrder at ordered
    split at ordered
    · rename_i x y
      exact .inl ⟨x, y, rfl, rfl, Except.ok.inj ordered⟩
    · rename_i x y
      exact .inr ⟨x, y, rfl, rfl, Except.ok.inj ordered⟩
    · cases ordered
  · rintro (⟨x, y, rfl, rfl, rfl⟩ | ⟨x, y, rfl, rfl, rfl⟩) <;> rfl

private theorem plainOrder_swap (ordered : plainOrder lhs rhs = .ok sign) :
    plainOrder rhs lhs = .ok sign.swap := by
  rw [plainOrder_eq_ok_iff] at ordered ⊢
  obtain ⟨x, y, rfl, rfl, rfl⟩ | ⟨x, y, rfl, rfl, rfl⟩ := ordered
  · exact .inl ⟨y, x, rfl, rfl, (JsonNumber.order_swap x y).symm⟩
  · exact .inr ⟨y, x, rfl, rfl, Std.OrientedOrd.eq_swap⟩

private theorem plainEqual_comm (lhs rhs : Json) : plainEqual lhs rhs = plainEqual rhs lhs := by
  cases lhs with
  | number x =>
    cases rhs with
    | number y =>
      rw [plainEqual, plainEqual, ← JsonNumber.order_swap y x]
      cases y.order x <;> rfl
    | _ => rfl
  | _ => cases rhs <;> exact Json.same_comm ..

/-- Values with an order are equal as they are in that order. -/
theorem plainEqual_of_plainOrder (ordered : plainOrder lhs rhs = .ok sign) :
    plainEqual lhs rhs = (sign == .eq) := by
  obtain ⟨x, y, rfl, rfl, rfl⟩ | ⟨x, y, rfl, rfl, rfl⟩ := plainOrder_eq_ok_iff.mp ordered
  · rfl
  · rw [Bool.eq_iff_iff, beq_iff_eq, Std.compare_eq_iff_eq]
    exact beq_iff_eq

end Plain

section Directions

variable {lhs rhs : Json} {sign : Ordering} {answer : Bool}

/-- Both values are amounts, or they are compared as if neither were one, in both directions. -/
theorem amounts_or_plain (lhs rhs : Json) :
    (∃ a b, Money.ofJson? lhs = some a ∧ Money.ofJson? rhs = some b) ∨
      order lhs rhs = plainOrder lhs rhs ∧ order rhs lhs = plainOrder rhs lhs ∧
        equal lhs rhs = .ok (plainEqual lhs rhs) ∧ equal rhs lhs = .ok (plainEqual rhs lhs) := by
  cases left : Money.ofJson? lhs <;> cases right : Money.ofJson? rhs <;>
    simp [order, equal, left, right]

private theorem order_swap (ordered : order lhs rhs = .ok sign) :
    order rhs lhs = .ok sign.swap := by
  obtain ⟨a, b, left, right⟩ | ⟨there, back, -, -⟩ := amounts_or_plain lhs rhs
  · simp only [order, left, right, amountOrder, RuleError.ofMoney_eq_ok_iff] at ordered ⊢
    exact Money.compare_swap ordered
  · rw [there] at ordered
    rw [back, plainOrder_swap ordered]

private theorem isOk_order_comm (lhs rhs : Json) : (order lhs rhs).isOk = (order rhs lhs).isOk := by
  cases there : order lhs rhs with
  | ok sign =>
    rw [order_swap there]
    rfl
  | error e =>
    cases back : order rhs lhs with
    | ok sign =>
      rw [order_swap back] at there
      cases there
    | error e => rfl

/-- Where values have an order, equality is answered by it. -/
theorem equal_of_order (ordered : order lhs rhs = .ok sign) :
    equal lhs rhs = .ok (sign == .eq) := by
  obtain ⟨a, b, left, right⟩ | ⟨there, -, plain, -⟩ := amounts_or_plain lhs rhs
  · simp only [order, left, right] at ordered
    simp only [equal, left, right, ordered]
    rfl
  · rw [there] at ordered
    rw [plain, plainEqual_of_plainOrder ordered]

private theorem equal_comm_of_ok (same : equal lhs rhs = .ok answer) :
    equal rhs lhs = .ok answer := by
  obtain ⟨a, b, left, right⟩ | ⟨-, -, there, back⟩ := amounts_or_plain lhs rhs
  · have answered : ∃ sign, order lhs rhs = .ok sign := by
      simp only [equal, left, right] at same
      obtain ⟨sign, ordered, -⟩ := Except.exists_of_map_eq_ok same
      exact ⟨sign, by simpa only [order, left, right] using ordered⟩
    obtain ⟨sign, ordered⟩ := answered
    rw [equal_of_order ordered] at same
    rw [equal_of_order (order_swap ordered), ← same]
    cases sign <;> rfl
  · rw [there, plainEqual_comm] at same
    rw [back, same]

/-- An answer that the order gives is given by it in the other direction, too. -/
theorem map_order_swap {f g : Ordering → Bool} (mirrors : ∀ sign, g sign.swap = f sign)
    (answered : (order lhs rhs).map f = .ok answer) : (order rhs lhs).map g = .ok answer := by
  obtain ⟨sign, ordered, rfl⟩ := Except.exists_of_map_eq_ok answered
  rw [order_swap ordered, ← mirrors sign]
  rfl

private theorem isOk_holds {operator : ComparisonOperator} (ordering : operator.isOrdering = true) :
    (holds lhs operator rhs).isOk = (order lhs rhs).isOk := by
  cases operator with
  | gt | gte | lt | lte =>
    rw [holds]
    cases order lhs rhs <;> rfl
  | eq | ne | isIn => cases ordering

private theorem holds_ofOrdering (ordered : order lhs rhs = .ok sign) (relation : Ordering) :
    holds lhs (.ofOrdering relation) rhs = .ok (sign == relation) := by
  cases relation with
  | eq => exact equal_of_order ordered
  | lt | gt =>
    rw [ComparisonOperator.ofOrdering, holds, ordered]
    rfl

/-- Values with an order are smaller, equal or greater. -/
theorem existsUnique_of_order (ordered : order lhs rhs = .ok sign) :
    ∃! relation : Ordering, holds lhs (.ofOrdering relation) rhs = .ok true := by
  refine ⟨sign, ?_, fun relation held => ?_⟩
  · simp only [holds_ofOrdering ordered, beq_self_eq_true]
  · have answered := (holds_ofOrdering ordered relation).symm.trans held
    exact (beq_iff_eq.mp (Except.ok.inj answered)).symm

end Directions

/-- The laws that connect the comparisons of two values. Those that need an order are answered all
or none, whichever value comes first; where they are, equality is answered, too, and the values are
smaller, equal or greater. Integers of both ranges are in the order of their values. -/
structure Lawful (lhs rhs : Json) : Prop where
  together : ∀ operator other : ComparisonOperator, operator.isOrdering = true →
    other.isOrdering = true → (holds lhs operator rhs).isOk = (holds lhs other rhs).isOk ∧
      (holds lhs operator rhs).isOk = (holds rhs other lhs).isOk
  decided : ∀ operator : ComparisonOperator, operator.isOrdering = true →
    (holds lhs operator rhs).isOk = true →
      (holds lhs .eq rhs).isOk = true ∧ (holds lhs .ne rhs).isOk = true ∧
        ∃! relation : Ordering, holds lhs (.ofOrdering relation) rhs = .ok true
  not_less : holds lhs .gte rhs = (holds lhs .lt rhs).map (!·)
  not_greater : holds lhs .lte rhs = (holds lhs .gt rhs).map (!·)
  mirrored : ∀ answer, holds lhs .gt rhs = .ok answer ↔ holds rhs .lt lhs = .ok answer
  symmetric : ∀ answer, holds lhs .eq rhs = .ok answer ↔ holds rhs .eq lhs = .ok answer
  not_equal : holds lhs .ne rhs = (holds lhs .eq rhs).map (!·)
  exact_integers : ∀ x y : JsonInt, lhs = .number (.int x) → rhs = .number (.int y) →
    holds lhs .lt rhs = .ok (decide (x.value < y.value)) ∧
      holds lhs .eq rhs = .ok (decide (x.value = y.value)) ∧
        holds lhs .gt rhs = .ok (decide (y.value < x.value))

private theorem holds_integers {x y : JsonInt} {relation : Ordering} {meaning : Prop}
    [Decidable meaning] (means : Ord.compare x.value y.value = relation ↔ meaning) :
    holds (.number (.int x)) (.ofOrdering relation) (.number (.int y)) =
      .ok (decide meaning) := by
  have ordered : order (.number (.int x)) (.number (.int y)) =
      .ok (Ord.compare x.value y.value) := congrArg Except.ok (JsonNumber.order_int x y)
  rw [holds_ofOrdering ordered, Except.ok.injEq, Bool.eq_iff_iff, beq_iff_eq, decide_eq_true_eq]
  exact means

/-- Any two values are compared lawfully. -/
theorem lawful (lhs rhs : Json) : Lawful lhs rhs where
  together operator other ordering ordering_too := by
    rw [isOk_holds ordering, isOk_holds ordering_too, isOk_holds ordering_too]
    exact ⟨rfl, isOk_order_comm lhs rhs⟩
  decided operator ordering answered := by
    rw [isOk_holds ordering] at answered
    obtain ⟨sign, ordered⟩ := Except.exists_of_isOk answered
    refine ⟨?_, ?_, existsUnique_of_order ordered⟩
    · rw [holds, equal_of_order ordered]
      rfl
    · rw [holds, equal_of_order ordered]
      rfl
  not_less := by
    rw [holds, holds]
    cases order lhs rhs with
    | ok sign => cases sign <;> rfl
    | error e => rfl
  not_greater := by
    rw [holds, holds]
    cases order lhs rhs with
    | ok sign => cases sign <;> rfl
    | error e => rfl
  mirrored answer :=
    ⟨map_order_swap fun sign => by cases sign <;> rfl,
      map_order_swap fun sign => by cases sign <;> rfl⟩
  symmetric answer := ⟨equal_comm_of_ok, equal_comm_of_ok⟩
  not_equal := rfl
  exact_integers := by
    rintro x y rfl rfl
    exact ⟨holds_integers compare_lt_iff_lt, holds_integers compare_eq_iff_eq,
      holds_integers compare_gt_iff_gt⟩

example : holds (.ofInt64 (-1)) .lt (.ofNat 0xffffffffffffffff) = .ok true := by rfl

end Comparison

end RuleBook
