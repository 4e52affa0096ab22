import Mathlib.Algebra.Order.Field.Power
import Mathlib.Tactic.FieldSimp
import Mathlib.Tactic.GCongr
import Mathlib.Tactic.NormNum
import Mathlib.Tactic.Positivity
import Mathlib.Tactic.Ring
import RuleBook.Number.Positional

/-! # Texts of floating-point numbers

Two floating-point numbers with one text are the same. The text gives back the decimal that was
laid out, the decimal has no zeros at its end and is rounded to the magnitude or is the magnitude,
and a magnitude is rounded to itself.
-/

namespace RuleBook

namespace Decimal

/-- The number that a decimal stands for. -/
def value (decimal : Decimal) : ℚ := decimal.digits * 10 ^ decimal.exponent

/-- Some digits are left, and the last of them is not zero. -/
def IsTrimmed (decimal : Decimal) : Prop := decimal.digits % 10 ≠ 0

private theorem value_trim (decimal : Decimal) (fuel : Nat) :
    (decimal.trim fuel).value = decimal.value := by
  induction fuel generalizing decimal with
  | zero => rfl
  | succ fuel ih =>
    rw [trim]
    split
    · rename_i zero
      have digits : (decimal.digits : ℚ) = (decimal.digits / 10 : Nat) * 10 := by
        exact_mod_cast (Nat.div_mul_cancel (Nat.dvd_of_mod_eq_zero zero)).symm
      rw [ih, value, value, digits, zpow_add_one₀ (by norm_num)]
      ring
    · rfl

private theorem isTrimmed_trim {decimal : Decimal} {fuel : Nat} (positive : 0 < decimal.digits)
    (fits : decimal.digits < 10 ^ fuel) : (decimal.trim fuel).IsTrimmed := by
  induction fuel generalizing decimal with
  | zero => omega
  | succ fuel ih =>
    rw [trim]
    split
    · refine ih (Nat.div_pos (by omega) (by decide)) ?_
      rw [Nat.pow_succ] at fits
      exact Nat.div_lt_of_lt_mul (by omega)
    · assumption

@[simp] theorem value_trimmed (decimal : Decimal) : decimal.trimmed.value = decimal.value :=
  value_trim ..

private theorem isTrimmed_trimmed {decimal : Decimal} (positive : 0 < decimal.digits) :
    decimal.trimmed.IsTrimmed := by
  refine isTrimmed_trim positive (Nat.lt_log2_self.trans_le ?_)
  exact Nat.pow_le_pow_left (by decide) _

/-- The digits of a trimmed decimal are those of its value. -/
theorem IsTrimmed.eq_of_value_eq {a b : Decimal} (a_trimmed : a.IsTrimmed) (b_trimmed : b.IsTrimmed)
    (same : a.value = b.value) : a = b := by
  have ends {a b : Decimal} (trimmed : a.IsTrimmed) (below : a.exponent ≤ b.exponent)
      (same : a.value = b.value) : a = b := by
    obtain ⟨places, apart⟩ := Int.le.dest below
    have digits : a.digits = b.digits * 10 ^ places := by
      have scale : (10 : ℚ) ^ a.exponent ≠ 0 := zpow_ne_zero _ (by norm_num)
      rw [value, value, ← apart, zpow_add₀ (by norm_num), zpow_natCast, ← mul_assoc,
        mul_right_comm] at same
      exact_mod_cast mul_right_cancel₀ scale same
    cases places with
    | zero =>
      obtain ⟨_, _⟩ := a
      obtain ⟨_, _⟩ := b
      simp_all
    | succ places =>
      refine absurd ?_ trimmed
      rw [digits, Nat.pow_succ, ← Nat.mul_assoc, Nat.mul_mod_left]
  rcases le_total a.exponent b.exponent with below | above
  · exact ends a_trimmed below same
  · exact (ends b_trimmed above same.symm).symm

end Decimal

namespace Double

section Rounding

/-- A fraction reaches a power of two when the products say so. -/
theorem two_zpow_le_div_iff (numerator : Nat) {denominator : Nat} (positive : 0 < denominator)
    (place : Int) :
    (2 : ℚ) ^ place ≤ numerator / denominator ↔
      if 0 ≤ place then denominator * 2 ^ place.toNat ≤ numerator
      else denominator ≤ numerator * 2 ^ (-place).toNat := by
  have scale : (0 : ℚ) < denominator := by exact_mod_cast positive
  rw [le_div_iff₀ scale]
  split
  · rename_i above
    obtain ⟨n, rfl⟩ := Int.eq_ofNat_of_zero_le above
    rw [zpow_natCast, mul_comm, Int.toNat_natCast]
    exact_mod_cast Iff.rfl
  · obtain ⟨n, same⟩ := Int.eq_ofNat_of_zero_le (a := -place) (by omega)
    obtain rfl : place = -n := by omega
    rw [zpow_neg, zpow_natCast, neg_neg, Int.toNat_natCast, ← div_eq_inv_mul,
      div_le_iff₀ (by positivity)]
    exact_mod_cast Iff.rfl

/-- The leading binary digit of a fraction. -/
theorem leadingPlace_spec {numerator denominator : Nat} (positive : 0 < numerator)
    (positive' : 0 < denominator) :
    (2 : ℚ) ^ leadingPlace numerator denominator ≤ numerator / denominator ∧
      (numerator : ℚ) / denominator < 2 ^ (leadingPlace numerator denominator + 1) := by
  have scale : (0 : ℚ) < denominator := by exact_mod_cast positive'
  have low : (2 : ℚ) ^ (numerator.log2 : ℤ) ≤ numerator := by
    exact_mod_cast Nat.log2_self_le positive.ne'
  have high : (numerator : ℚ) < 2 ^ (numerator.log2 + 1 : ℤ) := by
    exact_mod_cast Nat.lt_log2_self (n := numerator)
  have low' : (2 : ℚ) ^ (denominator.log2 : ℤ) ≤ denominator := by
    exact_mod_cast Nat.log2_self_le positive'.ne'
  have high' : (denominator : ℚ) < 2 ^ (denominator.log2 + 1 : ℤ) := by
    exact_mod_cast Nat.lt_log2_self (n := denominator)
  have above : (numerator : ℚ) / denominator <
      2 ^ ((numerator.log2 : ℤ) - denominator.log2 + 1) := by
    rw [div_lt_iff₀ scale]
    calc (numerator : ℚ) < 2 ^ (numerator.log2 + 1 : ℤ) := high
      _ = 2 ^ ((numerator.log2 : ℤ) - denominator.log2 + 1) * 2 ^ (denominator.log2 : ℤ) := by
        rw [← zpow_add₀ (by norm_num)]
        congr 1
        ring
      _ ≤ 2 ^ ((numerator.log2 : ℤ) - denominator.log2 + 1) * denominator := by gcongr
  have below : (2 : ℚ) ^ ((numerator.log2 : ℤ) - denominator.log2 - 1) ≤
      numerator / denominator := by
    rw [le_div_iff₀ scale]
    calc (2 : ℚ) ^ ((numerator.log2 : ℤ) - denominator.log2 - 1) * denominator
        ≤ 2 ^ ((numerator.log2 : ℤ) - denominator.log2 - 1) * 2 ^ (denominator.log2 + 1 : ℤ) := by
          gcongr
      _ = 2 ^ (numerator.log2 : ℤ) := by
        rw [← zpow_add₀ (by norm_num)]
        congr 1
        ring
      _ ≤ numerator := low
  have reaches := two_zpow_le_div_iff numerator positive'
    ((numerator.log2 : ℤ) - denominator.log2)
  have place : leadingPlace numerator denominator =
      if (2 : ℚ) ^ ((numerator.log2 : ℤ) - denominator.log2) ≤ numerator / denominator then
        (numerator.log2 : ℤ) - denominator.log2
      else (numerator.log2 : ℤ) - denominator.log2 - 1 := by
    rw [if_congr reaches rfl rfl, leadingPlace]
    split <;> simp
  rw [place]
  split
  · rename_i reached
    exact ⟨reached, above⟩
  · rename_i missed
    rw [sub_add_cancel]
    exact ⟨below, not_le.mp missed⟩

/-- A number lies between only one power of two and the next. -/
theorem place_unique {value : ℚ} {a b : Int} (low : 2 ^ a ≤ value) (high : value < 2 ^ (b + 1)) :
    a ≤ b :=
  Int.lt_add_one_iff.mp ((zpow_lt_zpow_iff_right₀ (by norm_num)).mp (low.trans_lt high))

private theorem divideToEven_mul {n d : Nat} (positive : 0 < d) : divideToEven (n * d) d = n := by
  rw [divideToEven, Nat.mul_div_cancel _ positive, Nat.mul_mod_left]
  exact if_pos (by omega)

/-- A fraction that is a significand of 53 bits at some place, or one of fewer bits at the least
place, is rounded to itself. -/
theorem nearestBits_of_eq {numerator denominator significand : Nat} {place : Int}
    (positive : 0 < numerator) (positive' : 0 < denominator)
    (value : (numerator : ℚ) / denominator = significand * 2 ^ place)
    (fits : significand < 2 * hiddenBit)
    (scaled : hiddenBit ≤ significand ∧ -1074 ≤ place ∨ significand < hiddenBit ∧ place = -1074) :
    nearestBits numerator denominator =
      min infinityBits ((place + 1074).toNat * hiddenBit + significand) := by
  obtain ⟨low, high⟩ := leadingPlace_spec positive positive'
  have scale : (0 : ℚ) < 2 ^ place := by positivity
  have same_place : max (leadingPlace numerator denominator) (-1022) - 52 = place := by
    rw [value] at low high
    rcases scaled with ⟨full, least⟩ | ⟨few, rfl⟩
    · have low' : (2 : ℚ) ^ (52 + place) ≤ significand * 2 ^ place := by
        rw [zpow_add₀ (by norm_num)]
        exact mul_le_mul_of_nonneg_right (by exact_mod_cast full) scale.le
      have high' : significand * 2 ^ place < (2 : ℚ) ^ (52 + place + 1) := by
        rw [add_right_comm, zpow_add₀ (by norm_num)]
        exact mul_lt_mul_of_pos_right (by exact_mod_cast fits) scale
      have first := place_unique low high'
      have second := place_unique low' high
      omega
    · have high' : significand * 2 ^ (-1074 : ℤ) < (2 : ℚ) ^ (-1023 + 1 : ℤ) := by
        rw [show (-1023 + 1 : ℤ) = 52 + -1074 by norm_num, zpow_add₀ (by norm_num)]
        exact mul_lt_mul_of_pos_right (by exact_mod_cast few) scale
      have first := place_unique low high'
      omega
  have cast : (denominator : ℚ) ≠ 0 := by exact_mod_cast positive'.ne'
  rw [nearestBits, if_neg positive.ne']
  simp only [same_place]
  congr 2
  rw [div_eq_iff cast] at value
  split
  · rename_i above
    have whole : numerator = significand * (denominator * 2 ^ place.toNat) := by
      obtain ⟨n, rfl⟩ := Int.eq_ofNat_of_zero_le above
      rw [zpow_natCast] at value
      have whole : (numerator : ℚ) = significand * (denominator * 2 ^ n) := by
        rw [value]
        ring
      exact_mod_cast whole
    rw [whole]
    exact divideToEven_mul (by positivity)
  · rename_i below
    have whole : numerator * 2 ^ (-place).toNat = significand * denominator := by
      obtain ⟨n, same⟩ := Int.eq_ofNat_of_zero_le (a := -place) (by omega)
      obtain rfl : place = -n := by omega
      have whole : (numerator : ℚ) * 2 ^ n = significand * denominator := by
        rw [value, zpow_neg, zpow_natCast]
        field_simp
      simpa using (show numerator * 2 ^ n = significand * denominator by exact_mod_cast whole)
    exact (congrArg (divideToEven · denominator) whole).trans (divideToEven_mul positive')

/-- The number that the pattern of a magnitude stands for, also beyond the finite ones. -/
def magnitude (x : Double) : ℚ := x.significand * 2 ^ (x.exponent - 1075 : ℤ)

variable {x y : Double}

/-- The significand and the exponent of a number, and how the pattern is made of them. -/
theorem pattern_spec (nonzero : x.isZero = false) :
    0 < x.significand ∧ x.significand < 2 * hiddenBit ∧ 1 ≤ x.exponent ∧ x.exponent ≤ 2047 ∧
      (hiddenBit ≤ x.significand ∨ x.significand < hiddenBit ∧ x.exponent = 1) ∧
      x.magnitudeBits = (x.exponent - 1) * hiddenBit + x.significand := by
  have some_bits : x.magnitudeBits ≠ 0 := by simpa [isZero] using nonzero
  have bounded : x.magnitudeBits < signBit := Nat.mod_lt _ (by decide)
  simp only [significand, exponent]
  generalize x.magnitudeBits = bits at *
  by_cases few : bits < hiddenBit
  · rw [if_pos few]
    simp only [hiddenBit, signBit] at *
    omega
  · rw [if_neg few]
    simp only [hiddenBit, signBit] at *
    omega

private theorem magnitudeBits_signed {magnitude : Nat} (bounded : magnitude < signBit) :
    (signed false magnitude).magnitudeBits = magnitude := by
  simp only [signed, magnitudeBits, Bool.false_eq_true, if_false, UInt64.toNat_ofNat', signBit] at *
  omega

private theorem nearestBits_le (numerator denominator : Nat) :
    nearestBits numerator denominator ≤ infinityBits := by
  rw [nearestBits]
  split
  · exact Nat.zero_le _
  · exact Nat.min_le_left ..

private theorem magnitudeBits_ofRatio (numerator denominator : Nat) :
    (ofRatio false numerator denominator).magnitudeBits = nearestBits numerator denominator :=
  magnitudeBits_signed ((nearestBits_le ..).trans_lt (by decide))

/-- A fraction that is the magnitude of a number is rounded to the pattern of the number, or to
infinity. -/
theorem nearestBits_of_eq_magnitude (nonzero : x.isZero = false) {numerator denominator : Nat}
    (positive' : 0 < denominator) (exact : (numerator : ℚ) / denominator = x.magnitude) :
    nearestBits numerator denominator = min infinityBits x.magnitudeBits := by
  obtain ⟨some_digits, fits, least, -, scaled, pattern⟩ := pattern_spec nonzero
  have positive : 0 < numerator := by
    refine Nat.pos_of_ne_zero fun zero => ?_
    have some_value : 0 < x.magnitude := by
      have := some_digits
      rw [magnitude]
      positivity
    rw [zero, Nat.cast_zero, zero_div] at exact
    exact some_value.ne exact
  rw [nearestBits_of_eq positive positive' exact fits (by omega), pattern]
  congr 3
  omega

private theorem magnitude_bounds (nonzero : x.isZero = false) :
    (2 : ℚ) ^ (-1074 : ℤ) ≤ x.magnitude ∧ x.magnitude < 2 ^ (1025 : ℤ) := by
  obtain ⟨some_digits, fits, least, most, -⟩ := pattern_spec nonzero
  have low : (1 : ℚ) ≤ x.significand := by exact_mod_cast some_digits
  have high : (x.significand : ℚ) < 2 ^ (53 : ℤ) := by exact_mod_cast fits
  constructor
  · calc (2 : ℚ) ^ (-1074 : ℤ) ≤ 2 ^ (x.exponent - 1075 : ℤ) :=
        zpow_le_zpow_right₀ (by norm_num) (by omega)
      _ ≤ x.magnitude := le_mul_of_one_le_left (by positivity) low
  · calc x.magnitude < 2 ^ (53 : ℤ) * 2 ^ (x.exponent - 1075 : ℤ) :=
        mul_lt_mul_of_pos_right high (by positivity)
      _ = 2 ^ (53 + (x.exponent - 1075) : ℤ) := (zpow_add₀ (by norm_num) ..).symm
      _ ≤ 2 ^ (1025 : ℤ) := zpow_le_zpow_right₀ (by norm_num) (by omega)

private theorem two_zpow_le_ten_zpow : (2 : ℚ) ^ (1074 : ℤ) ≤ 10 ^ (401 : ℤ) := by
  calc (2 : ℚ) ^ (1074 : ℤ) ≤ 2 ^ (3 * 401 : ℤ) := zpow_le_zpow_right₀ (by norm_num) (by norm_num)
    _ = (2 ^ (3 : ℤ)) ^ (401 : ℤ) := zpow_mul ..
    _ ≤ 10 ^ (401 : ℤ) := zpow_le_zpow_left₀ (by norm_num) (by norm_num) (by norm_num)

/-- A decimal far outside the range of magnitudes is none. -/
theorem decimal_bounds (nonzero : x.isZero = false) {decimal : Decimal}
    (exact : decimal.value = x.magnitude) :
    decimal.digits ≠ 0 ∧ decimal.exponent ≤ 400 ∧
      -400 ≤ decimal.exponent + (decimal.digits.log2 + 1 : Nat) := by
  obtain ⟨low, high⟩ := magnitude_bounds nonzero
  rw [← exact] at low high
  have filled : decimal.digits ≠ 0 := by
    intro zero
    rw [Decimal.value, zero, Nat.cast_zero, zero_mul] at low
    exact absurd low (not_le.mpr (by positivity))
  have one_le : (1 : ℚ) ≤ decimal.digits := by exact_mod_cast Nat.pos_of_ne_zero filled
  refine ⟨filled, ?_, ?_⟩
  · refine not_lt.mp fun large => absurd high (not_lt.mpr ?_)
    calc (2 : ℚ) ^ (1025 : ℤ) ≤ 2 ^ (1074 : ℤ) := zpow_le_zpow_right₀ (by norm_num) (by norm_num)
      _ ≤ 10 ^ (401 : ℤ) := two_zpow_le_ten_zpow
      _ ≤ 10 ^ decimal.exponent := zpow_le_zpow_right₀ (by norm_num) (by omega)
      _ ≤ decimal.value := le_mul_of_one_le_left (by positivity) one_le
  · refine not_lt.mp fun small => absurd low (not_le.mpr ?_)
    have digits : (decimal.digits : ℚ) < 10 ^ ((decimal.digits.log2 + 1 : Nat) : ℤ) := by
      rw [zpow_natCast]
      exact_mod_cast Nat.lt_log2_self.trans_le (Nat.pow_le_pow_left (by decide) _)
    calc decimal.value
        < 10 ^ ((decimal.digits.log2 + 1 : Nat) : ℤ) * 10 ^ decimal.exponent :=
          mul_lt_mul_of_pos_right digits (by positivity)
      _ = 10 ^ (((decimal.digits.log2 + 1 : Nat) : ℤ) + decimal.exponent) :=
          (zpow_add₀ (by norm_num) ..).symm
      _ ≤ 10 ^ (-401 : ℤ) := zpow_le_zpow_right₀ (by norm_num) (by omega)
      _ ≤ 2 ^ (-1074 : ℤ) := by
        rw [zpow_neg, zpow_neg]
        exact inv_anti₀ (by positivity) two_zpow_le_ten_zpow

/-- A decimal that is the magnitude of a number is rounded to the pattern of the number, or to
infinity. -/
theorem magnitudeBits_ofDecimal (nonzero : x.isZero = false) {decimal : Decimal}
    (exact : decimal.value = x.magnitude) :
    (ofDecimal false decimal.digits decimal.exponent).magnitudeBits =
      min infinityBits x.magnitudeBits := by
  obtain ⟨filled, large, small⟩ := decimal_bounds nonzero exact
  rw [ofDecimal, if_neg filled, if_neg (by omega), if_neg (by omega)]
  split
  · rename_i above
    rw [magnitudeBits_ofRatio]
    refine nearestBits_of_eq_magnitude nonzero (by decide) (.trans ?_ exact)
    obtain ⟨n, same⟩ := Int.eq_ofNat_of_zero_le above
    simp [Decimal.value, same]
  · rw [magnitudeBits_ofRatio]
    refine nearestBits_of_eq_magnitude nonzero (by simp) (.trans ?_ exact)
    obtain ⟨n, same⟩ := Int.eq_ofNat_of_zero_le (a := -decimal.exponent) (by omega)
    have exponent : decimal.exponent = -n := by omega
    simp [Decimal.value, exponent, div_eq_mul_inv]

end Rounding

section Digits

variable {x y : Double}

private theorem isTrimmed_exactDecimal (nonzero : x.isZero = false) : x.exactDecimal.IsTrimmed := by
  obtain ⟨some_digits, -⟩ := pattern_spec nonzero
  refine Decimal.isTrimmed_trimmed (Nat.mul_pos (Nat.mul_pos some_digits ?_) ?_) <;>
    exact Nat.pow_pos (by decide)

private theorem value_exactDecimal (x : Double) : x.exactDecimal.value = x.magnitude := by
  rw [exactDecimal, Decimal.value_trimmed, Decimal.value, magnitude, magnitudeNumerator]
  simp only [Nat.pow_eq, Nat.cast_mul, Nat.cast_pow, Nat.cast_ofNat, zpow_neg, zpow_natCast]
  rcases Nat.le_total x.exponent 1075 with small | large
  · obtain ⟨n, same⟩ := Nat.le.dest small
    have exponent : (x.exponent - 1075 : ℤ) = -n := by omega
    have scale : 1075 - x.exponent = n := by omega
    rw [exponent, scale, Nat.sub_eq_zero_of_le small, pow_zero, mul_one, zpow_neg, zpow_natCast,
      show (10 : ℚ) = 5 * 2 by norm_num, mul_pow]
    field_simp
  · obtain ⟨n, same⟩ := Nat.le.dest large
    have exponent : (x.exponent - 1075 : ℤ) = n := by omega
    have scale : x.exponent - 1075 = n := by omega
    rw [exponent, scale, Nat.sub_eq_zero_of_le large]
    simp

/-- A decimal that was tried has no zeros at its end, unless it is zero. -/
theorem isTrimmed_of_mem_decimalsAt {exponent : Int} {decimal : Decimal}
    (tried : decimal ∈ x.decimalsAt exponent) (filled : decimal.digits ≠ 0) :
    decimal.IsTrimmed := by
  obtain ⟨digits, -, rfl⟩ := List.mem_map.mp tried
  refine Decimal.isTrimmed_trimmed (Nat.pos_of_ne_zero ?_)
  rintro rfl
  exact filled (by simp [Decimal.trimmed, Decimal.trim])

/-- Only zero stands for zero. -/
theorem digits_ne_zero_of_hasDecimal (nonzero : x.isZero = false) {decimal : Decimal}
    (stands : x.hasDecimal decimal = true) : decimal.digits ≠ 0 := by
  intro zero
  rw [hasDecimal, Bool.and_eq_true, beq_iff_eq, ofDecimal, if_pos zero,
    magnitudeBits_signed (by decide)] at stands
  simp [isZero, ← stands.2] at nonzero

/-- The shortest decimal stands for a finite number, or it is the magnitude itself. Either way it
has no zeros at its end. -/
theorem shortest_spec (nonzero : x.isZero = false) :
    x.shortest.IsTrimmed ∧ (x.hasDecimal x.shortest = true ∨ x.shortest.value = x.magnitude) := by
  rw [shortest]
  cases found : (List.range 17).findSome? fun n =>
    (x.decimalsAt (x.decimalPlace - (n + 1 : Nat))).find? x.hasDecimal with
  | some decimal =>
    obtain ⟨n, -, at_n⟩ := List.exists_of_findSome?_eq_some found
    have stands := List.find?_some at_n
    exact ⟨isTrimmed_of_mem_decimalsAt (List.mem_of_find?_eq_some at_n)
      (digits_ne_zero_of_hasDecimal nonzero stands), .inl stands⟩
  | none => exact ⟨isTrimmed_exactDecimal nonzero, .inr (value_exactDecimal x)⟩

/-- The shortest decimal is rounded to the pattern of the number, or to infinity. -/
theorem magnitudeBits_shortest (nonzero : x.isZero = false) :
    (ofDecimal false x.shortest.digits x.shortest.exponent).magnitudeBits =
      min infinityBits x.magnitudeBits := by
  obtain ⟨-, stands | exact⟩ := shortest_spec nonzero
  · rw [hasDecimal, Bool.and_eq_true, beq_iff_eq, isFinite, decide_eq_true_eq] at stands
    rw [stands.2, Nat.min_eq_right stands.1.le]
  · exact magnitudeBits_ofDecimal nonzero exact

/-- Two numbers with one shortest decimal have one magnitude. -/
theorem magnitudeBits_eq_of_shortest_eq (x_nonzero : x.isZero = false) (y_nonzero : y.isZero = false)
    (same : x.shortest = y.shortest) : x.magnitudeBits = y.magnitudeBits := by
  have rounded := magnitudeBits_shortest x_nonzero
  rw [same, magnitudeBits_shortest y_nonzero] at rounded
  by_cases finite : x.magnitudeBits < infinityBits ∨ y.magnitudeBits < infinityBits
  · omega
  · -- Beyond the finite numbers the decimals are the magnitudes themselves.
    obtain ⟨x_large, y_large⟩ := not_or.mp finite
    have exact {z : Double} (nonzero : z.isZero = false) (large : ¬ z.magnitudeBits < infinityBits) :
        z.shortest.value = z.magnitude :=
      (shortest_spec nonzero).2.resolve_left (by simp [hasDecimal, isFinite, large])
    have magnitudes := exact x_nonzero x_large
    rw [same, exact y_nonzero y_large, magnitude, magnitude] at magnitudes
    have topmost {z : Double} (nonzero : z.isZero = false)
        (large : ¬ z.magnitudeBits < infinityBits) : z.exponent = 2047 := by
      obtain ⟨-, fits, -, most, -, pattern⟩ := pattern_spec nonzero
      simp only [infinityBits, hiddenBit] at *
      omega
    obtain ⟨-, -, -, -, -, x_pattern⟩ := pattern_spec x_nonzero
    obtain ⟨-, -, -, -, -, y_pattern⟩ := pattern_spec y_nonzero
    rw [topmost x_nonzero x_large] at magnitudes x_pattern
    rw [topmost y_nonzero y_large] at magnitudes y_pattern
    have significands : (y.significand : ℚ) = x.significand :=
      mul_right_cancel₀ (zpow_ne_zero _ (by norm_num)) magnitudes
    rw [x_pattern, y_pattern, Nat.cast_inj.mp significands]

end Digits

section Layouts

/-- The characters of a laid-out decimal, from its digits. -/
def layOutDigits (digits : List Char) (exponent : Int) : List Char :=
  let point : Int := digits.length + exponent
  if 0 ≤ exponent ∧ point ≤ 16 then
    digits ++ List.replicate exponent.toNat '0' ++ '.' :: ['0']
  else if 0 < point ∧ point ≤ 16 then
    digits.take point.toNat ++ '.' :: digits.drop point.toNat
  else if -5 < point ∧ point ≤ 0 then
    ['0'] ++ '.' :: (List.replicate (-point).toNat '0' ++ digits)
  else
    let power := 'e' :: (if 0 < point then '+' else '-') :: Nat.toDigits 10 (point - 1).natAbs
    if digits.length = 1 then digits ++ power else digits.take 1 ++ '.' :: (digits.drop 1 ++ power)

theorem toList_layOut (decimal : Decimal) :
    (layOut decimal).toList =
      layOutDigits (Nat.toDigits 10 decimal.digits) decimal.exponent := by
  have count : (toString decimal.digits).length = (Nat.toDigits 10 decimal.digits).length := by
    rw [← String.length_toList, Nat.toString_eq_repr, Nat.toList_repr]
  have sign (above : Prop) [Decidable above] : (if above then "+" else "-").toList =
      [if above then '+' else '-'] := by
    split <;> rfl
  rw [layOut, layOutDigits]
  simp only [count]
  split
  · simp [zeros]
  split
  · simp
  split
  · simp [zeros]
  split <;> simp [sign]

private theorem foldl_digits (digits : List Char) (n : Nat) :
    digits.foldl (fun n c => n * 10 + (c.toNat - 48)) n =
      n * 10 ^ digits.length + digitsNumber digits := by
  induction digits generalizing n with
  | nil => simp [digitsNumber]
  | cons c rest ih =>
    rw [digitsNumber, List.foldl_cons, List.foldl_cons, ih, ih (0 * 10 + _), List.length_cons]
    ring

private theorem digitsNumber_append (front back : List Char) :
    digitsNumber (front ++ back) = digitsNumber front * 10 ^ back.length + digitsNumber back := by
  rw [digitsNumber, List.foldl_append, foldl_digits]
  rfl

@[simp] theorem digitsNumber_zeros (n : Nat) : digitsNumber (List.replicate n '0') = 0 := by
  induction n with
  | zero => rfl
  | succ n ih => rw [List.replicate_succ', digitsNumber_append, ih]; rfl

@[simp] theorem digitsNumber_toDigits (n : Nat) : digitsNumber (Nat.toDigits 10 n) = n := by
  have same : digitsNumber (Nat.toDigits 10 n) = Nat.ofDigitChars 10 (Nat.toDigits 10 n) 0 := by
    rw [digitsNumber, Nat.ofDigitChars]
    simp only [Nat.mul_comm]
    rfl
  rw [same, Nat.ofDigitChars_ten_toDigits]

/-- A decimal is read from digits before a point, digits behind it, and an exponent. Point and
exponent may be missing. -/
theorem decimal?_eq (whole dotted fraction behind : List Char) (exponent : Int)
    (filled : whole ≠ []) (whole_digits : ∀ c ∈ whole, c.isDigit = true)
    (fraction_digits : ∀ c ∈ fraction, c.isDigit = true)
    (point : dotted = '.' :: fraction ∨ dotted = [] ∧ fraction = [])
    (scaled : behind = [] ∧ exponent = 0 ∨
      ∃ rest, behind = 'e' :: rest ∧ exponent? rest = some exponent) :
    decimal? (whole ++ (dotted ++ behind)) =
      some ⟨digitsNumber (whole ++ fraction), exponent - fraction.length⟩ := by
  have digit_ne {c d : Char} (digit : c.isDigit = true) (other : d.isDigit = false) : c ≠ d := by
    rintro rfl
    exact Bool.noConfusion (digit.symm.trans other)
  have unmarked : ∀ c ∈ whole ++ dotted, (!(c = 'e' || c = 'E')) = true := by
    intro c member
    have known : c.isDigit = true ∨ c = '.' := by
      rcases point with rfl | ⟨rfl, -⟩
      · rcases List.mem_append.mp member with member | member
        · exact .inl (whole_digits c member)
        · exact (List.mem_cons.mp member).symm.imp (fraction_digits c) id
      · exact .inl (whole_digits c (by simpa using member))
    rcases known with digit | rfl
    · simp [digit_ne digit (d := 'e') rfl, digit_ne digit (d := 'E') rfl]
    · rfl
  have stops : behind.takeWhile (fun c => !(c = 'e' || c = 'E')) = [] := by
    rcases scaled with ⟨rfl, -⟩ | ⟨rest, rfl, -⟩ <;> rfl
  have mantissa : (whole ++ (dotted ++ behind)).takeWhile (fun c => !(c = 'e' || c = 'E')) =
      whole ++ dotted := by
    rw [← List.append_assoc, List.takeWhile_append_of_pos unmarked, stops, List.append_nil]
  have whole_part : (whole ++ dotted).takeWhile (· ≠ '.') = whole := by
    rw [List.takeWhile_append_of_pos fun c member => by
      simpa using digit_ne (whole_digits c member) rfl]
    rcases point with rfl | ⟨rfl, -⟩ <;> simp
  have fraction_part : ((whole ++ dotted).drop whole.length).drop 1 = fraction := by
    rw [List.drop_left]
    rcases point with rfl | ⟨rfl, rfl⟩ <;> rfl
  have power : (whole ++ (dotted ++ behind)).drop (whole ++ dotted).length = behind := by
    rw [← List.append_assoc, List.drop_left]
  have all_digits : (whole ++ fraction).all Char.isDigit = true := by
    rw [List.all_append, Bool.and_eq_true, List.all_eq_true, List.all_eq_true]
    exact ⟨whole_digits, fraction_digits⟩
  simp only [decimal?, mantissa, whole_part, fraction_part, power, all_digits]
  rw [if_neg (by simp [filled])]
  rcases scaled with ⟨rfl, rfl⟩ | ⟨rest, rfl, read⟩
  · rfl
  · simp only [read]
    rfl

/-- The written exponent of a number with its leading digit at some place. -/
theorem exponent?_power (point : Int) :
    exponent? ((if 0 < point then '+' else '-') :: Nat.toDigits 10 (point - 1).natAbs) =
      some (point - 1) := by
  have filled : (Nat.toDigits 10 (point - 1).natAbs).isEmpty = false := by
    rw [List.isEmpty_eq_false_iff]
    exact Nat.toDigits_ne_nil
  have all_digits : (Nat.toDigits 10 (point - 1).natAbs).all Char.isDigit = true :=
    List.all_eq_true.mpr fun _ => Nat.isDigit_of_mem_toDigits (by decide) (by decide)
  by_cases positive : 0 < point
  · have magnitude : ((point - 1).natAbs : Int) = point - 1 := by omega
    rw [if_pos positive]
    simp only [exponent?, filled, all_digits, digitsNumber_toDigits, magnitude]
    rfl
  · have magnitude : -((point - 1).natAbs : Int) = point - 1 := by omega
    rw [if_neg positive]
    simp only [exponent?, filled, all_digits, digitsNumber_toDigits, magnitude]
    rfl

/-- What is laid out is read as a decimal of the same value. -/
theorem exists_decimal?_layOutDigits {digits : List Char} (filled : digits ≠ [])
    (all_digits : ∀ c ∈ digits, c.isDigit = true) (exponent : Int) :
    ∃ read, decimal? (layOutDigits digits exponent) = some read ∧
      read.value = Decimal.value ⟨digitsNumber digits, exponent⟩ := by
  have zeros (n : Nat) : ∀ c ∈ List.replicate n '0', c.isDigit = true := by
    intro c member
    rw [List.eq_of_mem_replicate member]
    rfl
  have front {n : Nat} : ∀ c ∈ digits.take n, c.isDigit = true :=
    fun c member => all_digits c (List.mem_of_mem_take member)
  have back {n : Nat} : ∀ c ∈ digits.drop n, c.isDigit = true :=
    fun c member => all_digits c (List.mem_of_mem_drop member)
  have some_digits : 0 < digits.length := List.length_pos_iff.mpr filled
  rw [layOutDigits]
  split
  · -- A whole number has zeros up to the point, and one behind it.
    rename_i whole
    obtain ⟨n, rfl⟩ := Int.eq_ofNat_of_zero_le whole.1
    have read := decimal?_eq (digits ++ List.replicate n '0') ['.', '0'] ['0'] [] 0
      (List.append_ne_nil_of_left_ne_nil filled _)
      (fun c member => (List.mem_append.mp member).elim (all_digits c) (zeros _ c))
      (zeros 1) (.inl rfl) (.inl ⟨rfl, rfl⟩)
    refine ⟨_, (congrArg decimal? ?_).trans read, ?_⟩
    · simp
    · have zero : digitsNumber ['0'] = 0 := rfl
      rw [digitsNumber_append, digitsNumber_append, zero, digitsNumber_zeros]
      simp [Decimal.value]
  split
  · have read := decimal?_eq (digits.take (digits.length + exponent).toNat)
      ('.' :: digits.drop (digits.length + exponent).toNat)
      (digits.drop (digits.length + exponent).toNat) [] 0 (by simp [filled]; omega) front back
      (.inl rfl) (.inl ⟨rfl, rfl⟩)
    refine ⟨_, (congrArg decimal? ?_).trans read, ?_⟩
    · simp
    · rw [List.take_append_drop, List.length_drop]
      congr 2
      omega
  split
  · have read := decimal?_eq ['0']
      ('.' :: (List.replicate (-(digits.length + exponent)).toNat '0' ++ digits))
      (List.replicate (-(digits.length + exponent)).toNat '0' ++ digits) [] 0
      (List.cons_ne_nil _ _) (zeros 1)
      (fun c member => (List.mem_append.mp member).elim (zeros _ c) (all_digits c))
      (.inl rfl) (.inl ⟨rfl, rfl⟩)
    refine ⟨_, (congrArg decimal? ?_).trans read, ?_⟩
    · simp
    · rw [← List.append_assoc, digitsNumber_append, List.length_append, List.length_replicate]
      have zeros : digitsNumber (['0'] ++ List.replicate (-(digits.length + exponent)).toNat '0') =
          0 := digitsNumber_zeros (_ + 1)
      rw [zeros, Nat.zero_mul, Nat.zero_add]
      congr 2
      omega
  by_cases single : digits.length = 1
  · have read := decimal?_eq digits [] [] _ _ filled all_digits (zeros 0) (.inr ⟨rfl, rfl⟩)
      (.inr ⟨_, rfl, exponent?_power (digits.length + exponent)⟩)
    rw [if_pos single]
    refine ⟨_, read, ?_⟩
    rw [List.append_nil, List.length_nil]
    congr 2
    omega
  · have read := decimal?_eq (digits.take 1) ('.' :: digits.drop 1) (digits.drop 1) _ _
      (by simp [filled]) front back (.inl rfl)
      (.inr ⟨_, rfl, exponent?_power (digits.length + exponent)⟩)
    rw [if_neg single]
    refine ⟨_, read, ?_⟩
    rw [List.take_append_drop, List.length_drop]
    congr 2
    omega

end Layouts

/-- The text of a floating-point number behind its sign. -/
def magnitudeText (x : Double) : String := if x.isZero then "0.0" else layOut x.shortest

theorem text_eq (x : Double) :
    x.text = (if x.isNegative then "-" else "") ++ x.magnitudeText := by
  rw [text, magnitudeText]
  split <;> rfl

section Texts

variable {x y : Double}

/-- What is written of a magnitude is read as a decimal: zero, or the shortest one. -/
theorem exists_decimal?_magnitudeText (x : Double) :
    ∃ read, decimal? x.magnitudeText.toList = some read ∧
      read.value = if x.isZero then 0 else x.shortest.value := by
  rw [magnitudeText]
  cases x.isZero with
  | true =>
    have zero : decimal? "0.0".toList = some ⟨0, -1⟩ := by decide +kernel
    exact ⟨_, zero, by simp [Decimal.value]⟩
  | false =>
    have all_digits : ∀ c ∈ Nat.toDigits 10 x.shortest.digits, c.isDigit = true :=
      fun _ => Nat.isDigit_of_mem_toDigits (by decide) (by decide)
    obtain ⟨read, found, same⟩ :=
      exists_decimal?_layOutDigits Nat.toDigits_ne_nil all_digits x.shortest.exponent
    rw [digitsNumber_toDigits] at same
    exact ⟨read, (congrArg decimal? (toList_layOut _)).trans found, same⟩

/-- A magnitude that is not zero is not written like zero. -/
theorem value_shortest_ne_zero (nonzero : x.isZero = false) : x.shortest.value ≠ 0 := by
  have trimmed := (shortest_spec nonzero).1
  refine mul_ne_zero (Nat.cast_ne_zero.mpr ?_) (zpow_ne_zero _ (by norm_num))
  intro zero
  exact trimmed (by rw [zero])

/-- What is written of a magnitude tells its pattern. -/
theorem magnitudeBits_eq_of_magnitudeText_eq (same : x.magnitudeText = y.magnitudeText) :
    x.magnitudeBits = y.magnitudeBits := by
  obtain ⟨read, x_read, x_value⟩ := x.exists_decimal?_magnitudeText
  obtain ⟨read', y_read, y_value⟩ := y.exists_decimal?_magnitudeText
  rw [same, y_read] at x_read
  obtain rfl := Option.some.inj x_read
  rw [x_value] at y_value
  cases x_zero : x.isZero <;> cases y_zero : y.isZero <;>
    simp only [x_zero, y_zero, if_true, Bool.false_eq_true, if_false] at y_value
  · exact magnitudeBits_eq_of_shortest_eq x_zero y_zero
      ((shortest_spec x_zero).1.eq_of_value_eq (shortest_spec y_zero).1 y_value)
  · exact absurd y_value (value_shortest_ne_zero x_zero)
  · exact absurd y_value.symm (value_shortest_ne_zero y_zero)
  · rw [isZero, beq_iff_eq] at x_zero y_zero
    rw [x_zero, y_zero]

/-- No decimal starts with a sign. -/
theorem decimal?_sign (cs : List Char) : decimal? ('-' :: cs) = none := by
  simp [decimal?]

private theorem eq_of_pattern_eq (sign : x.isNegative = y.isNegative)
    (magnitude : x.magnitudeBits = y.magnitudeBits) : x = y := by
  obtain ⟨x⟩ := x
  obtain ⟨y⟩ := y
  have x_bounded := x.toNat_lt
  have y_bounded := y.toNat_lt
  rw [isNegative, isNegative, decide_eq_decide] at sign
  simp only [magnitudeBits, signBit] at sign magnitude
  rw [mk.injEq, ← UInt64.toNat_inj]
  omega

/-- Numbers with one text are the same, the two zeros told apart by their sign. -/
theorem text_inj : x.text = y.text ↔ x = y := by
  refine ⟨fun same => ?_, congrArg text⟩
  have apart {x y : Double} (same : '-' :: x.magnitudeText.toList = y.magnitudeText.toList) :
      False := by
    obtain ⟨read, found, -⟩ := y.exists_decimal?_magnitudeText
    rw [← same, decimal?_sign] at found
    cases found
  have characters := congrArg String.toList same
  rw [text_eq, text_eq, String.toList_append, String.toList_append] at characters
  cases x_sign : x.isNegative <;> cases y_sign : y.isNegative <;>
    simp only [x_sign, y_sign, if_true, Bool.false_eq_true, if_false, String.toList_empty,
      List.nil_append] at characters
  · exact eq_of_pattern_eq (x_sign.trans y_sign.symm)
      (magnitudeBits_eq_of_magnitudeText_eq (String.toList_inj.mp characters))
  · exact (apart characters.symm).elim
  · exact (apart characters).elim
  · exact eq_of_pattern_eq (x_sign.trans y_sign.symm)
      (magnitudeBits_eq_of_magnitudeText_eq (String.toList_inj.mp (List.cons.inj characters).2))

end Texts

end Double

end RuleBook
