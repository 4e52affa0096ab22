import Mathlib.Algebra.Order.Field.Basic
import Mathlib.Algebra.Order.Field.Rat
import Mathlib.Tactic.FieldSimp
import Mathlib.Tactic.Linarith
import Mathlib.Tactic.Ring
import RuleBook.Money.Basic

/-! # Units and values

`Money.units` counts an amount at a scale that is not smaller than its own, and `Money.value` is the
rational number that it stands for. Sums and differences are exact at every common scale, and so in
value.
-/

namespace RuleBook

namespace Money

/-- The count of units at a scale that is not smaller than the amount's own. -/
def units (money : Money) (scale : Nat) : Int :=
  money.amount.toInt * (money.currency.base.toNat : Int) ^ (scale - money.scale.toNat)

/-- The rational number that an amount stands for. -/
def value (money : Money) : ℚ :=
  money.amount.toInt / (money.currency.base.toNat : ℚ) ^ money.scale.toNat

section Checked

theorem intermediate_eq_ok_iff {n m : Int} :
    intermediate n = .ok m ↔ IntRange.signed128.Holds n ∧ m = n := by
  unfold intermediate
  split <;> simp_all [eq_comm]

theorem ofInt_eq_ok_iff {n : Int} {currency : Currency} {scale : UInt32} {money : Money} :
    ofInt n currency scale = .ok money ↔ IntRange.signed64.Holds n ∧
      money.amount.toInt = n ∧ money.currency = currency ∧ money.scale = scale := by
  unfold ofInt
  split
  · rename_i holds
    have exact_amount : (Int64.ofInt n).toInt = n := by
      obtain ⟨least, greatest⟩ := holds
      simp only [IntRange.signed64] at least greatest
      exact Int64.toInt_ofInt_of_le (by omega) (by omega)
    simp only [holds, true_and, Except.ok.injEq]
    constructor
    · rintro rfl
      exact ⟨exact_amount, rfl, rfl⟩
    · rintro ⟨amount, rfl, rfl⟩
      obtain ⟨units, currency, scale⟩ := money
      simp only [Money.mk.injEq, and_true]
      rw [← Int64.toInt_inj, exact_amount, amount]
  · rename_i outside
    simp [outside]

/-- A power is formed exactly when it fits 128 bits. -/
theorem power128?_eq (base exponent : Nat) :
    IntRange.power128? base exponent = IntRange.signed128.check? ((base : Int) ^ exponent) := by
  match base with
  | 0 =>
    cases exponent with
    | zero => rfl
    | succ n => simp [IntRange.power128?, IntRange.check?, IntRange.Holds, IntRange.signed128]
  | 1 => simp [IntRange.power128?, IntRange.check?, IntRange.Holds, IntRange.signed128]
  | n + 2 =>
    simp only [IntRange.power128?]
    split
    · rw [Nat.pow_eq, Int.natCast_pow]
    · rename_i large
      have grows : 2 ^ 127 ≤ (n + 2) ^ exponent :=
        (Nat.pow_le_pow_right (by omega) (Nat.le_of_not_lt large)).trans
          (Nat.pow_le_pow_left (by omega) exponent)
      have outside : ¬ IntRange.signed128.Holds (((n + 2 : Nat) : Int) ^ exponent) := by
        rintro ⟨_, greatest⟩
        rw [← Int.natCast_pow] at greatest
        simp only [IntRange.signed128] at greatest
        omega
      exact (IntRange.check?_eq_none_iff.mpr outside).symm

theorem power_eq_ok_iff {base exponent : Nat} {n : Int} :
    power base exponent = .ok n ↔
      IntRange.signed128.Holds ((base : Int) ^ exponent) ∧ n = (base : Int) ^ exponent := by
  rw [← IntRange.check?_eq_some_iff, ← power128?_eq, power]
  cases IntRange.power128? base exponent <;> simp

end Checked

section Units

variable {money a b c : Money} {scale : Nat}

@[simp] theorem units_self (money : Money) : money.units money.scale.toNat = money.amount.toInt := by
  simp [units]

/-- At a larger scale every unit counts a power of the base. -/
theorem units_of_le {larger : Nat} (own : money.scale.toNat ≤ scale) (le : scale ≤ larger) :
    money.units larger =
      money.units scale * (money.currency.base.toNat : Int) ^ (larger - scale) := by
  rw [units, units, mul_assoc, ← pow_add]
  congr 2
  omega

/-- An amount is aligned to a scale exactly when its factor and its count fit 128 bits. -/
theorem amountAt_eq_ok_iff {scale : UInt32} {n : Int} :
    money.amountAt scale = .ok n ↔
      IntRange.signed128.Holds
        ((money.currency.base.toNat : Int) ^ (scale.toNat - money.scale.toNat)) ∧
      IntRange.signed128.Holds (money.units scale.toNat) ∧ n = money.units scale.toNat := by
  simp only [amountAt, Except.bind_eq_ok_iff, power_eq_ok_iff, intermediate_eq_ok_iff]
  constructor
  · rintro ⟨_, ⟨factor, rfl⟩, aligned, rfl⟩
    exact ⟨factor, aligned, rfl⟩
  · rintro ⟨factor, aligned, rfl⟩
    exact ⟨_, ⟨factor, rfl⟩, aligned, rfl⟩

theorem requireSameCurrency_eq_ok_iff : requireSameCurrency a b = .ok () ↔
    a.currency = b.currency := by
  unfold requireSameCurrency
  split <;> simp_all

theorem toNat_max (a b : UInt32) : (max a b).toNat = max a.toNat b.toNat := by
  change (if a ≤ b then b else a).toNat = _
  split <;> rename_i le <;> rw [UInt32.le_iff_toNat_le] at le <;> omega

/-- What a sum is: in the currency of both, at the larger scale, and exact there. -/
theorem eq_of_add (added : a.add b = .ok c) :
    b.currency = a.currency ∧ c.currency = a.currency ∧ c.scale = max a.scale b.scale ∧
      c.amount.toInt = a.units c.scale.toNat + b.units c.scale.toNat := by
  simp only [add, Except.bind_eq_ok_iff] at added
  obtain ⟨_, same, left, left_aligned, right, right_aligned, sum, summed, fits⟩ := added
  obtain ⟨_, _, rfl⟩ := amountAt_eq_ok_iff.mp left_aligned
  obtain ⟨_, _, rfl⟩ := amountAt_eq_ok_iff.mp right_aligned
  obtain ⟨_, rfl⟩ := intermediate_eq_ok_iff.mp summed
  obtain ⟨_, amount, currency, scale⟩ := ofInt_eq_ok_iff.mp fits
  rw [scale]
  exact ⟨(requireSameCurrency_eq_ok_iff.mp same).symm, currency, rfl, amount⟩

theorem toNat_scale_of_add (added : a.add b = .ok c) :
    c.scale.toNat = max a.scale.toNat b.scale.toNat := by
  rw [(eq_of_add added).2.2.1, toNat_max]

/-- A sum counts the units of both at every scale that it can be aligned to. -/
theorem units_add (added : a.add b = .ok c) (le : c.scale.toNat ≤ scale) :
    c.units scale = a.units scale + b.units scale := by
  obtain ⟨same, currency, _, amount⟩ := eq_of_add added
  have own := toNat_scale_of_add added
  have left : a.scale.toNat ≤ c.scale.toNat := by omega
  have right : b.scale.toNat ≤ c.scale.toNat := by omega
  rw [units_of_le (Nat.le_refl _) le, units_self, amount, units_of_le left le,
    units_of_le right le, currency, same]
  ring

/-- The order of two amounts is that of their units at the larger scale. -/
theorem eq_of_compare {order : Ordering} (compared : a.compare b = .ok order) :
    b.currency = a.currency ∧
      order = Ord.compare (a.units (max a.scale b.scale).toNat)
        (b.units (max a.scale b.scale).toNat) := by
  simp only [compare, Except.bind_eq_ok_iff] at compared
  obtain ⟨_, same, left, left_aligned, right, right_aligned, ordered⟩ := compared
  obtain ⟨_, _, rfl⟩ := amountAt_eq_ok_iff.mp left_aligned
  obtain ⟨_, _, rfl⟩ := amountAt_eq_ok_iff.mp right_aligned
  exact ⟨(requireSameCurrency_eq_ok_iff.mp same).symm, (Except.ok.inj ordered).symm⟩

theorem eq_of_negate (negated : a.negate = .ok b) :
    b.amount.toInt = -a.amount.toInt ∧ b.currency = a.currency ∧ b.scale = a.scale :=
  (ofInt_eq_ok_iff.mp negated).2

theorem eq_of_abs (taken : a.abs = .ok b) :
    b.amount.toInt = a.amount.toInt.natAbs ∧ b.currency = a.currency ∧ b.scale = a.scale :=
  (ofInt_eq_ok_iff.mp taken).2

theorem eq_of_subtract (subtracted : a.subtract b = .ok c) :
    ∃ opposite, b.negate = .ok opposite ∧ a.add opposite = .ok c := by
  simpa only [subtract, Except.bind_eq_ok_iff] using subtracted

/-- What a difference is: at the larger scale, and exact there. -/
theorem amount_of_subtract (subtracted : a.subtract b = .ok c) :
    c.scale.toNat = max a.scale.toNat b.scale.toNat ∧
      c.amount.toInt = a.units c.scale.toNat - b.units c.scale.toNat := by
  obtain ⟨opposite, negated, added⟩ := eq_of_subtract subtracted
  obtain ⟨amount, currency, scale⟩ := eq_of_negate negated
  obtain ⟨_, _, _, exact_amount⟩ := eq_of_add added
  have opposed : opposite.units c.scale.toNat = -b.units c.scale.toNat := by
    rw [units, units, amount, currency, scale, neg_mul]
  refine ⟨by rw [toNat_scale_of_add added, scale], ?_⟩
  rw [exact_amount, opposed, sub_eq_add_neg]

/-- A sum of many amounts is in the currency of the first and at no smaller scale than any, and
counts the units of all. -/
theorem units_foldlM_add {amounts : List Money} {total : Money}
    (added : amounts.foldlM Money.add a = .ok total) :
    total.currency = a.currency ∧ a.scale.toNat ≤ total.scale.toNat ∧
      (∀ amount ∈ amounts, amount.scale.toNat ≤ total.scale.toNat) ∧
      ∀ scale, total.scale.toNat ≤ scale →
        total.units scale = a.units scale + (amounts.map fun amount => amount.units scale).sum := by
  induction amounts generalizing a with
  | nil =>
    cases added
    simp
  | cons amount rest ih =>
    rw [List.foldlM_cons, Except.bind_eq_ok_iff] at added
    obtain ⟨sum, first, others⟩ := added
    obtain ⟨_, currency, _, _⟩ := eq_of_add first
    obtain ⟨total_currency, sum_le, rest_le, counted⟩ := ih others
    have own := toNat_scale_of_add first
    refine ⟨total_currency.trans currency, by omega, ?_, fun scale le => ?_⟩
    · intro other member
      rcases List.mem_cons.mp member with rfl | member
      · omega
      · exact rest_le other member
    · rw [counted scale le, units_add first (by omega), List.map_cons, List.sum_cons, add_assoc]

/-- One more amount comes on top of a sum. -/
theorem foldlM_add_concat {amounts : List Money} {total amount : Money}
    (added : amounts.foldlM Money.add a = .ok total) :
    (amounts ++ [amount]).foldlM Money.add a = total.add amount := by
  rw [List.foldlM_append, added]
  exact bind_pure (total.add amount)

/-- A sum of many amounts stands at the largest of their scales. -/
theorem toNat_scale_foldlM_add {amounts : List Money} {total : Money}
    (added : amounts.foldlM Money.add a = .ok total) :
    total.scale.toNat = (amounts.map fun amount => amount.scale.toNat).foldl max a.scale.toNat := by
  induction amounts generalizing a with
  | nil =>
    cases added
    rfl
  | cons amount rest ih =>
    rw [List.foldlM_cons, Except.bind_eq_ok_iff] at added
    obtain ⟨sum, first, others⟩ := added
    rw [ih others, toNat_scale_of_add first, List.map_cons, List.foldl_cons]

/-- Amounts of one currency at one scale that count the same units there are the same. -/
theorem eq_of_units (currency : a.currency = b.currency) (scale : a.scale = b.scale)
    (units : a.units a.scale.toNat = b.units a.scale.toNat) : a = b := by
  rw [units_self, scale, units_self] at units
  obtain ⟨amount, _, _⟩ := a
  obtain ⟨amount', _, _⟩ := b
  obtain rfl : amount = amount' := Int64.toInt_inj.mp units
  rw [Money.mk.injEq]
  exact ⟨rfl, currency, scale⟩

/-- Amounts come to the same sum in every order in which they can be added up. -/
theorem foldlM_add_eq_of_perm {amounts others : List Money} {total sum : Money}
    (perm : amounts.Perm others) (added : amounts.foldlM Money.add a = .ok total)
    (again : others.foldlM Money.add a = .ok sum) : total = sum := by
  obtain ⟨currency, _, _, counted⟩ := units_foldlM_add added
  obtain ⟨sum_currency, _, _, sum_counted⟩ := units_foldlM_add again
  have scale : total.scale.toNat = sum.scale.toNat := by
    rw [toNat_scale_foldlM_add added, toNat_scale_foldlM_add again]
    exact (perm.map _).foldl_eq _
  refine eq_of_units (currency.trans sum_currency.symm) (UInt32.toNat_inj.mp scale) ?_
  rw [counted _ (le_refl _), scale, sum_counted _ (le_refl _), (perm.map _).sum_eq]

theorem isNegative_iff : a.isNegative = true ↔ a.amount.toInt < 0 := by
  simp [isNegative, Int64.lt_iff_toInt_lt]

theorem isNegative_eq_false_iff : a.isNegative = false ↔ 0 ≤ a.amount.toInt := by
  rw [Bool.eq_false_iff, Ne, isNegative_iff, not_lt]

/-- An amount that is not negative is not negative at any scale. -/
theorem units_nonneg (nonneg : 0 ≤ a.amount.toInt) (scale : Nat) : 0 ≤ a.units scale :=
  mul_nonneg nonneg (pow_nonneg (Int.natCast_nonneg _) _)

/-- An order that holds at the larger scale of two amounts holds at every larger one. -/
theorem units_le_units {larger : Nat} (same : b.currency = a.currency)
    (a_own : a.scale.toNat ≤ scale) (b_own : b.scale.toNat ≤ scale) (le : scale ≤ larger)
    (ordered : a.units scale ≤ b.units scale) : a.units larger ≤ b.units larger := by
  rw [units_of_le a_own le, units_of_le b_own le, same]
  exact mul_le_mul_of_nonneg_right ordered (pow_nonneg (Int.natCast_nonneg _) _)

/-- The smaller of two amounts is one of them, and at no common scale larger than the other. -/
theorem eq_of_min (chosen : a.min b = .ok c) :
    (c = a ∨ c = b) ∧ b.currency = a.currency ∧
      ∀ scale, a.scale.toNat ≤ scale → b.scale.toNat ≤ scale → c.units scale ≤ b.units scale := by
  simp only [min, Except.bind_eq_ok_iff] at chosen
  obtain ⟨order, compared, chosen⟩ := chosen
  obtain ⟨same, rfl⟩ := eq_of_compare compared
  split at chosen
  · cases chosen
    exact ⟨.inr rfl, same, fun _ _ _ => le_rfl⟩
  · rename_i not_greater
    cases chosen
    refine ⟨.inl rfl, same, fun scale a_own b_own => ?_⟩
    have larger := toNat_max a.scale b.scale
    refine units_le_units same (by omega) (by omega) (by omega : (max a.scale b.scale).toNat ≤ scale)
      (not_lt.mp fun less => not_greater (compare_gt_iff_gt.mpr less))

/-- A rounded quotient keeps the sign of its numerator. -/
theorem roundedQuotient_nonneg {numerator denominator doubledRest : Int} (positive : 0 ≤ denominator)
    (nonneg : 0 ≤ numerator) : 0 ≤ roundedQuotient numerator denominator doubledRest := by
  have quotient : 0 ≤ numerator.tdiv denominator := Int.tdiv_nonneg nonneg positive
  have sign : 0 ≤ numerator.sign := Int.sign_nonneg_iff.mpr nonneg
  unfold roundedQuotient
  dsimp only
  split <;> omega

/-- A share of an amount that is not negative is not negative. -/
theorem multiply_nonneg {rate : Rate} (rate_nonneg : 0 ≤ rate.amount.toInt)
    (nonneg : 0 ≤ a.amount.toInt) (multiplied : a.multiply rate = .ok b) :
    0 ≤ b.amount.toInt := by
  simp only [multiply_eq, Except.bind_eq_ok_iff, intermediate_eq_ok_iff, power_eq_ok_iff]
    at multiplied
  obtain ⟨_, ⟨_, rfl⟩, _, ⟨_, rfl⟩, rounded⟩ := multiplied
  rw [(ofInt_eq_ok_iff.mp rounded).2.1]
  exact roundedQuotient_nonneg (pow_nonneg (by decide) _) (mul_nonneg nonneg rate_nonneg)

end Units

section Value

variable {a b c : Money}

/-- The units at a scale are the value times a power of the base. -/
theorem units_eq_value_mul (positive : 0 < a.currency.base.toNat) {scale : Nat}
    (le : a.scale.toNat ≤ scale) :
    (a.units scale : ℚ) = a.value * (a.currency.base.toNat : ℚ) ^ scale := by
  have nonzero : (a.currency.base.toNat : ℚ) ≠ 0 := by
    exact_mod_cast Nat.pos_iff_ne_zero.mp positive
  have split_power : (a.currency.base.toNat : ℚ) ^ scale =
      (a.currency.base.toNat : ℚ) ^ a.scale.toNat *
        (a.currency.base.toNat : ℚ) ^ (scale - a.scale.toNat) := by
    rw [← pow_add, Nat.add_sub_cancel' le]
  rw [units, value, split_power]
  push_cast
  field_simp

/-- Sums are exact. -/
theorem value_add (positive : 0 < a.currency.base.toNat) (added : a.add b = .ok c) :
    c.value = a.value + b.value := by
  obtain ⟨same, currency, _, _⟩ := eq_of_add added
  have own := toNat_scale_of_add added
  have nonzero : (a.currency.base.toNat : ℚ) ^ c.scale.toNat ≠ 0 :=
    pow_ne_zero _ (by exact_mod_cast Nat.pos_iff_ne_zero.mp positive)
  have counted : (c.units c.scale.toNat : ℚ) =
      a.units c.scale.toNat + b.units c.scale.toNat := by
    exact_mod_cast units_add added (Nat.le_refl _)
  rw [units_eq_value_mul (currency ▸ positive) (Nat.le_refl _),
    units_eq_value_mul positive (by omega), units_eq_value_mul (same ▸ positive) (by omega),
    currency, same, ← add_mul] at counted
  exact mul_right_cancel₀ nonzero counted

theorem value_negate (negated : a.negate = .ok b) : b.value = -a.value := by
  obtain ⟨amount, currency, scale⟩ := eq_of_negate negated
  rw [value, value, amount, currency, scale]
  push_cast
  ring

/-- Differences are exact. -/
theorem value_subtract (positive : 0 < a.currency.base.toNat) (subtracted : a.subtract b = .ok c) :
    c.value = a.value - b.value := by
  obtain ⟨opposite, negated, added⟩ := eq_of_subtract subtracted
  rw [value_add positive added, value_negate negated, sub_eq_add_neg]

theorem value_abs (taken : a.abs = .ok b) : b.value = |a.value| := by
  obtain ⟨amount, currency, scale⟩ := eq_of_abs taken
  have denominator : (0 : ℚ) ≤ (a.currency.base.toNat : ℚ) ^ a.scale.toNat := by positivity
  rw [value, value, amount, currency, scale, abs_div, abs_of_nonneg denominator]
  simp

/-- Where amounts can be compared, their order is that of the values. -/
theorem eq_compare_value {order : Ordering} (positive : 0 < a.currency.base.toNat)
    (compared : a.compare b = .ok order) : order = Ord.compare a.value b.value := by
  obtain ⟨same, rfl⟩ := eq_of_compare compared
  have larger := toNat_max a.scale b.scale
  have factor : (0 : ℚ) < (a.currency.base.toNat : ℚ) ^ (max a.scale b.scale).toNat := by positivity
  rw [← cmp_eq_compare, ← cmp_eq_compare, ← Int.cast_strictMono (R := ℚ) |>.cmp_map_eq,
    units_eq_value_mul positive (by omega), units_eq_value_mul (same ▸ positive) (by omega), same,
    cmp_mul_pos_right factor]

end Value

end Money

end RuleBook
