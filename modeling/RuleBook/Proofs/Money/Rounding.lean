import Mathlib.Data.Rat.Floor
import RuleBook.Proofs.Money.Units

/-! # Products with a rate

An amount times a rate is a share, a rational number of units, and `roundAway` rounds it to the
nearest integer with a half away from zero. `Money.multiplyIn` computes it by a division with rest
in 128 bits. `Money.IsProduct` says what it owes, and every build does so for all amounts and rates
but one pair: the least amount times the least rate at scale 38, where twice the rest is `2 ^ 127`,
one more than 128 bits hold. There a build with overflow checks stops, and one without them rounds
the wrong way.
-/

namespace RuleBook

section Rounding

/-- The nearest integer, and of two equally near ones the one farther from zero. -/
def roundAway (q : ℚ) : Int := if 0 ≤ q then ⌊q + 1 / 2⌋ else -⌊-q + 1 / 2⌋

private theorem roundAway_neg (q : ℚ) : roundAway (-q) = -roundAway q := by
  rcases lt_trichotomy q 0 with negative | rfl | positive
  · rw [roundAway, roundAway, if_pos (by linarith), if_neg (by linarith), neg_neg]
  · norm_num [roundAway]
  · rw [roundAway, roundAway, if_neg (by linarith), if_pos positive.le, neg_neg]

/-- The rounded number is within a half, and beyond the number where it is a half away. -/
theorem roundAway_eq_iff {q : ℚ} {n : Int} :
    roundAway q = n ↔ |q - n| ≤ 1 / 2 ∧ (|q - n| = 1 / 2 → |q| < |(n : ℚ)|) := by
  wlog nonneg : 0 ≤ q generalizing q n
  · have opposite := this (q := -q) (n := -n) (by linarith)
    rw [roundAway_neg, neg_inj] at opposite
    rw [opposite]
    push_cast
    rw [show -q - -(n : ℚ) = -(q - n) by ring, abs_neg, abs_neg, abs_neg]
  have abs_of_near (near : q ≤ n + 1 / 2) : |(n : ℚ)| = n := by
    have above : (-1 : ℚ) < n := by linarith
    have above : (-1 : Int) < n := by exact_mod_cast above
    exact abs_of_nonneg (by exact_mod_cast (by omega : 0 ≤ n))
  rw [roundAway, if_pos nonneg, Int.floor_eq_iff, abs_of_nonneg nonneg]
  constructor
  · rintro ⟨below, above⟩
    rw [abs_of_near (by linarith)]
    refine ⟨abs_le.mpr ⟨by linarith, by linarith⟩, fun half => ?_⟩
    rcases abs_cases (q - n) with ⟨same, _⟩ | ⟨same, _⟩ <;> linarith
  · rintro ⟨near, away⟩
    obtain ⟨below, above⟩ := abs_le.mp near
    rw [abs_of_near (by linarith)] at away
    refine ⟨by linarith, lt_of_le_of_ne (by linarith) fun half => ?_⟩
    have beyond := away (by rw [abs_of_nonneg] <;> linarith)
    linarith

/-- A number between nothing and an integer is rounded to an integer between them. -/
theorem roundAway_mem_of_le {q : ℚ} {n : Int} (nonneg : 0 ≤ q) (le : q ≤ n) :
    0 ≤ roundAway q ∧ roundAway q ≤ n := by
  rw [roundAway, if_pos nonneg]
  constructor
  · apply Int.floor_nonneg.mpr
    linarith
  · rw [← Int.lt_add_one_iff, Int.floor_lt]
    push_cast
    linarith

end Rounding

/-- The number that a rate stands for. -/
def Rate.value (rate : Rate) : ℚ := rate.amount.toInt / 10 ^ rate.scale.toNat

namespace Money

section Division

variable {n d : Int}

private theorem roundedQuotient_neg (n d doubledRest : Int) :
    roundedQuotient (-n) d doubledRest = -roundedQuotient n d doubledRest := by
  simp only [roundedQuotient, Int.neg_tdiv, Int.sign_neg]
  split
  · omega
  · rfl

/-- With twice the rest as it is, the division with rest rounds the quotient. -/
theorem roundedQuotient_eq (positive : 0 < d) :
    roundedQuotient n d ((n.tmod d).natAbs * 2) = roundAway (n / d) := by
  wlog nonneg : 0 ≤ n generalizing n
  · have opposite := this (n := -n) (by omega)
    rw [Int.neg_tmod, Int.natAbs_neg, roundedQuotient_neg] at opposite
    have same : (((-n : Int) : ℚ) / d) = -(n / d) := by push_cast; ring
    rw [same, roundAway_neg] at opposite
    exact neg_inj.mp opposite
  have d_positive : (0 : ℚ) < d := by exact_mod_cast positive
  have n_nonneg : (0 : ℚ) ≤ n := by exact_mod_cast nonneg
  have rest_nonneg : 0 ≤ n % d := Int.emod_nonneg n positive.ne'
  have rest_lt : n % d < d := Int.emod_lt_of_pos n positive
  have parts : d * (n / d) + n % d = n := Int.mul_ediv_add_emod n d
  have quotient : (n : ℚ) / d = (n / d : Int) + (n % d : Int) / d := by
    rw [div_eq_iff d_positive.ne', add_mul, div_mul_cancel₀ _ d_positive.ne']
    exact_mod_cast (by linarith : n = n / d * d + n % d)
  have within : (0 : ℚ) ≤ ((n % d : Int) : ℚ) / d :=
    div_nonneg (by exact_mod_cast rest_nonneg) d_positive.le
  have within' : ((n % d : Int) : ℚ) / d < 1 :=
    (div_lt_one d_positive).mpr (by exact_mod_cast rest_lt)
  rw [roundedQuotient, Int.tdiv_eq_ediv_of_nonneg nonneg, Int.tmod_eq_emod_of_nonneg nonneg,
    Int.natAbs_of_nonneg rest_nonneg, roundAway, if_pos (div_nonneg n_nonneg d_positive.le),
    eq_comm, Int.floor_eq_iff, quotient]
  split
  · rename_i up
    have half : (1 : ℚ) / 2 ≤ ((n % d : Int) : ℚ) / d := by
      rw [div_le_div_iff₀ two_pos d_positive]
      exact_mod_cast (by omega : 1 * d ≤ n % d * 2)
    have sign : n.sign = 1 := Int.sign_eq_one_of_pos (by
      rcases nonneg.lt_or_eq with above | rfl
      · exact above
      · simp at up; omega)
    rw [sign]
    push_cast
    constructor <;> linarith
  · rename_i down
    have half : ((n % d : Int) : ℚ) / d < 1 / 2 := by
      rw [div_lt_div_iff₀ d_positive two_pos]
      exact_mod_cast (by omega : n % d * 2 < 1 * d)
    constructor <;> linarith

/-- Where twice the rest fits 128 bits, every build rounds the quotient. -/
theorem divideAwayFromZero_eq (build : Build) (positive : 0 < d)
    (fits : IntRange.signed128.Holds ((n.tmod d).natAbs * 2)) :
    divideAwayFromZero build n d = some (roundAway (n / d)) := by
  rw [divideAwayFromZero, Build.form_of_holds fits, Option.map_some, roundedQuotient_eq positive]

end Division

section Product

variable {money : Money} {rate : Rate}

/-- The number of units that an amount times a rate comes to. -/
def share (money : Money) (rate : Rate) : ℚ :=
  money.amount.toInt * rate.amount.toInt / 10 ^ rate.scale.toNat

/-- The power of ten of the rate fits 128 bits, and the rounded share fits an amount. -/
def ShareFits (money : Money) (rate : Rate) : Prop :=
  IntRange.signed128.Holds (10 ^ rate.scale.toNat) ∧
    IntRange.signed64.Holds (roundAway (money.share rate))

/-- What multiplying an amount by a rate owes: an overflow exactly where the power of ten or the
rounded share is out of range, and otherwise the rounded share in the amount's own currency and at
its own scale. -/
structure IsProduct (money : Money) (rate : Rate) (result : Except MoneyError Money) : Prop where
  overflows : result = .error .overflow ↔ ¬ money.ShareFits rate
  rounded : money.ShareFits rate → ∃ product, result = .ok product ∧
    product.amount.toInt = roundAway (money.share rate) ∧
    product.currency = money.currency ∧ product.scale = money.scale

/-- The numbers formed on the way fit 128 bits: the product of the two amounts, and twice the rest
of its division by the power of ten. -/
structure StaysInRange (money : Money) (rate : Rate) : Prop where
  product : IntRange.signed128.Holds (money.amount.toInt * rate.amount.toInt)
  doubledRest : IntRange.signed128.Holds (10 ^ rate.scale.toNat) →
    IntRange.signed128.Holds
      (((money.amount.toInt * rate.amount.toInt).tmod (10 ^ rate.scale.toNat)).natAbs * 2)

/-- The least amount is multiplied by the least rate, at scale 38. -/
structure AtLimit (money : Money) (rate : Rate) : Prop where
  least_amount : money.amount = Int64.minValue
  least_rate : rate.amount = Int64.minValue
  scale : rate.scale = 38

/-- A product of two amounts is at most `2 ^ 126` away from zero, and as far only for the least
ones. -/
theorem natAbs_product_le (a b : Int64) : (a.toInt * b.toInt).natAbs ≤ 2 ^ 126 ∧
    ((a.toInt * b.toInt).natAbs = 2 ^ 126 → a = Int64.minValue ∧ b = Int64.minValue) := by
  have a_le : a.toInt.natAbs ≤ 2 ^ 63 := by have := a.le_toInt; have := a.toInt_lt; omega
  have b_le : b.toInt.natAbs ≤ 2 ^ 63 := by have := b.le_toInt; have := b.toInt_lt; omega
  have least {c : Int64} (far : c.toInt.natAbs = 2 ^ 63) : c = Int64.minValue := by
    rw [← Int64.toInt_inj, Int64.toInt_minValue]
    have := c.toInt_lt
    omega
  rw [Int.natAbs_mul]
  refine ⟨(Nat.mul_le_mul a_le b_le).trans (by norm_num), fun far => ?_⟩
  refine ⟨least (by_contra fun near => ?_), least (by_contra fun near => ?_)⟩
  · have := Nat.mul_le_mul (by omega : a.toInt.natAbs ≤ 2 ^ 63 - 1) b_le
    omega
  · have := Nat.mul_le_mul a_le (by omega : b.toInt.natAbs ≤ 2 ^ 63 - 1)
    omega

theorem holds_ten_pow_iff {n : Nat} : IntRange.signed128.Holds (10 ^ n) ↔ n ≤ 38 := by
  constructor
  · rintro ⟨_, fits⟩
    by_contra large
    have grows : (10 : Int) ^ 39 ≤ 10 ^ n := pow_le_pow_right₀ (by norm_num) (by omega)
    simp only [IntRange.signed128] at fits
    omega
  · intro small
    have bounded : (10 : Int) ^ n ≤ 10 ^ 38 := pow_le_pow_right₀ (by norm_num) small
    have positive : (0 : Int) < 10 ^ n := by positivity
    constructor <;> simp only [IntRange.signed128] <;> omega

private theorem toNat_limitScale : (38 : UInt32).toNat = 38 := rfl

/-- Nothing formed on the way leaves 128 bits, but at the limit. -/
theorem staysInRange_iff : money.StaysInRange rate ↔ ¬ money.AtLimit rate := by
  constructor
  · rintro ⟨-, doubled⟩ ⟨amount, rate_amount, scale⟩
    rw [amount, rate_amount, scale, toNat_limitScale] at doubled
    exact absurd (doubled (by decide)) (by decide)
  · intro elsewhere
    obtain ⟨bounded, extreme⟩ := natAbs_product_le money.amount rate.amount
    constructor
    · constructor <;> simp only [IntRange.signed128] <;> omega
    · intro power
      by_contra large
      have positive : (0 : Int) < 10 ^ rate.scale.toNat := by positivity
      have rest_eq := Int.natAbs_tmod (money.amount.toInt * rate.amount.toInt)
        (10 ^ rate.scale.toNat)
      have rest_le := Nat.mod_le (money.amount.toInt * rate.amount.toInt).natAbs
        (10 ^ rate.scale.toNat : Int).natAbs
      have rest_lt := Nat.mod_lt (money.amount.toInt * rate.amount.toInt).natAbs
        (Int.natAbs_pos.mpr positive.ne')
      have far : 2 ^ 126 ≤ ((money.amount.toInt * rate.amount.toInt).tmod
          (10 ^ rate.scale.toNat)).natAbs := by
        by_contra near
        exact large (by constructor <;> simp only [IntRange.signed128] <;> omega)
      obtain ⟨amount, rate_amount⟩ := extreme (by omega)
      refine elsewhere ⟨amount, rate_amount, ?_⟩
      have least : 38 ≤ rate.scale.toNat := by
        by_contra small
        have bounded : (10 : Int) ^ rate.scale.toNat ≤ 10 ^ 37 :=
          pow_le_pow_right₀ (by norm_num) (by omega)
        omega
      have greatest := holds_ten_pow_iff.mp power
      have same : rate.scale.toNat = 38 := Nat.le_antisymm greatest least
      exact UInt32.toNat_inj.mp (same.trans toNat_limitScale.symm)

/-- In a build, a multiplication comes to a result, and it is what is owed. -/
def MultipliesIn (build : Build) (money : Money) (rate : Rate) : Prop :=
  ∃ result, multiplyIn build money rate = some result ∧ money.IsProduct rate result

/-- Away from the limit every build gives what it owes. -/
theorem multipliesIn_of_not_atLimit (build : Build) (elsewhere : ¬ money.AtLimit rate) :
    money.MultipliesIn build rate := by
  obtain ⟨product, doubled⟩ := staysInRange_iff.mpr elsewhere
  have formed : intermediate (money.amount.toInt * rate.amount.toInt) =
      .ok (money.amount.toInt * rate.amount.toInt) := if_pos product
  by_cases power : IntRange.signed128.Holds (10 ^ rate.scale.toNat)
  · have divisor : Money.power 10 rate.scale.toNat = .ok (10 ^ rate.scale.toNat) :=
      power_eq_ok_iff.mpr ⟨power, rfl⟩
    have rounded : divideAwayFromZero build (money.amount.toInt * rate.amount.toInt)
        (10 ^ rate.scale.toNat) = some (roundAway (money.share rate)) := by
      rw [divideAwayFromZero_eq build (by positivity) (doubled power), share]
      push_cast
      rfl
    have result : multiplyIn build money rate =
        some (ofInt (roundAway (money.share rate)) money.currency money.scale) := by
      simp only [multiplyIn, formed, divisor, rounded, Option.map_some]
    refine ⟨_, result, ?_⟩
    by_cases fits : IntRange.signed64.Holds (roundAway (money.share rate))
    · obtain ⟨_, ok⟩ : ∃ product, ofInt (roundAway (money.share rate)) money.currency money.scale =
          .ok product := ⟨_, if_pos fits⟩
      rw [ok]
      exact ⟨iff_of_false (by simp) (not_not.mpr ⟨power, fits⟩),
        fun _ => ⟨_, rfl, (ofInt_eq_ok_iff.mp ok).2⟩⟩
    · have failed : ofInt (roundAway (money.share rate)) money.currency money.scale =
          .error .overflow := if_neg fits
      rw [failed]
      exact ⟨iff_of_true rfl fun shareFits => fits shareFits.2, fun shareFits =>
        absurd shareFits.2 fits⟩
  · have divisor : Money.power 10 rate.scale.toNat = .error .overflow := by
      rw [Money.power, power128?_eq, IntRange.check?_eq_none_iff.mpr (by exact_mod_cast power)]
    have result : multiplyIn build money rate = some (.error .overflow) := by
      simp only [multiplyIn, formed, divisor]
    exact ⟨_, result, iff_of_true rfl fun shareFits => power shareFits.1, fun shareFits =>
      absurd shareFits.1 power⟩

/-- Prices are computed with what is owed, away from the limit. -/
theorem isProduct_multiply (elsewhere : ¬ money.AtLimit rate) :
    money.IsProduct rate (money.multiply rate) := by
  obtain ⟨result, multiplied, owed⟩ := multipliesIn_of_not_atLimit .wrapping elsewhere
  rw [multiplyIn_wrapping] at multiplied
  exact Option.some.inj multiplied ▸ owed

/-- At the limit twice the rest does not fit: a build with overflow checks stops, and in one without
them it wraps around, so that the share, which is more than a half, is rounded down. -/
theorem multiplyIn_atLimit (limit : money.AtLimit rate) :
    multiplyIn .checked money rate = none ∧
      multiplyIn .wrapping money rate = some (.ok { money with amount := 0 }) ∧
      roundAway (money.share rate) = 1 := by
  obtain ⟨units, currency, scale⟩ := money
  obtain ⟨rate_units, rate_scale⟩ := rate
  obtain ⟨rfl, rfl, rfl⟩ := limit
  have formed : intermediate (Int64.minValue.toInt * Int64.minValue.toInt) = .ok (2 ^ 126) :=
    intermediate_eq_ok_iff.mpr (by decide)
  have divisor : Money.power 10 (38 : UInt32).toNat = .ok (10 ^ 38) :=
    power_eq_ok_iff.mpr (by decide)
  have stops : divideAwayFromZero .checked (2 ^ 126) (10 ^ 38) = none := by decide
  have down : divideAwayFromZero .wrapping (2 ^ 126) (10 ^ 38) = some 0 := by decide
  have zero : ofInt 0 currency scale = .ok ⟨0, currency, scale⟩ := rfl
  refine ⟨?_, ?_, roundAway_eq_iff.mpr ?_⟩
  · simp only [multiplyIn, formed, divisor, stops, Option.map_none]
  · simp only [multiplyIn, formed, divisor, down, Option.map_some, zero]
  have value : share ⟨Int64.minValue, currency, scale⟩ ⟨Int64.minValue, 38⟩ =
      2 ^ 126 / 10 ^ 38 := by
    simp only [share, toNat_limitScale, Int64.toInt_minValue]
    norm_num
  rw [value]
  norm_num [abs_lt, abs_le, abs_of_neg, abs_of_pos]

/-- At the limit no build gives what it owes. -/
theorem not_multipliesIn_atLimit (build : Build) (limit : money.AtLimit rate) :
    ¬ money.MultipliesIn build rate := by
  rintro ⟨result, multiplied, owed⟩
  obtain ⟨stops, wraps, rounded⟩ := multiplyIn_atLimit limit
  cases build with
  | checked => cases stops.symm.trans multiplied
  | wrapping =>
    obtain rfl := Option.some.inj (wraps.symm.trans multiplied)
    have fits : money.ShareFits rate := by
      constructor
      · rw [limit.scale, toNat_limitScale]
        decide
      · rw [rounded]
        decide
    obtain ⟨product, same, amount, _⟩ := owed.rounded fits
    cases same
    rw [rounded] at amount
    cases amount

/-- However the program is built, a multiplication gives the rounded share, or an overflow exactly
where the power of ten or the result is out of range, and all that it forms on the way fits 128
bits; both fail for one amount and one rate at one scale, and for no others. There the program stops
if it is built with overflow checks, and otherwise gives nothing for a share that is rounded to
one. -/
theorem multipliesIn_iff (build : Build) (money : Money) (rate : Rate) :
    (money.MultipliesIn build rate ↔ ¬ money.AtLimit rate) ∧
      (money.StaysInRange rate ↔ ¬ money.AtLimit rate) ∧
      (money.AtLimit rate → roundAway (money.share rate) = 1 ∧
        multiplyIn build money rate = match build with
          | .checked => none
          | .wrapping => some (.ok { money with amount := 0 })) := by
  refine ⟨⟨fun owed limit => not_multipliesIn_atLimit build limit owed,
    multipliesIn_of_not_atLimit build⟩, staysInRange_iff, fun limit => ?_⟩
  obtain ⟨stops, wraps, rounded⟩ := multiplyIn_atLimit limit
  cases build with
  | checked => exact ⟨rounded, stops⟩
  | wrapping => exact ⟨rounded, wraps⟩

/-- The least amount of dollars. -/
def leastDollars : Money := .ofAmount Int64.minValue .usd

/-- The least rate at scale 38. -/
def leastRate : Rate := ⟨Int64.minValue, 38⟩

theorem not_multipliesIn_leastDollars :
    (multiplyIn .checked leastDollars leastRate = none ∧
      ¬ leastDollars.MultipliesIn .checked leastRate) ∧
      (multiplyIn .wrapping leastDollars leastRate = some (.ok (.ofAmount 0 .usd)) ∧
        ¬ leastDollars.MultipliesIn .wrapping leastRate) ∧
      ¬ leastDollars.StaysInRange leastRate := by
  have limit : leastDollars.AtLimit leastRate := ⟨rfl, rfl, rfl⟩
  obtain ⟨stops, wraps, _⟩ := multiplyIn_atLimit limit
  exact ⟨⟨stops, not_multipliesIn_atLimit _ limit⟩, ⟨wraps, not_multipliesIn_atLimit _ limit⟩,
    fun stays => staysInRange_iff.mp stays limit⟩

end Product

section Share

variable {money : Money} {rate : Rate}

private theorem share_eq_mul_value : money.share rate = money.amount.toInt * rate.value :=
  mul_div_assoc ..

/-- A share of at most the whole of an amount that is not negative is at most that amount, and is
formed if its power of ten fits. -/
theorem exists_multiply_le (nonneg : 0 ≤ money.amount.toInt) (rate_nonneg : 0 ≤ rate.amount.toInt)
    (most : rate.value ≤ 1) (fits : rate.scale.toNat ≤ 38) : ∃ product,
      money.multiply rate = .ok product ∧ 0 ≤ product.amount.toInt ∧
        product.amount.toInt ≤ money.amount.toInt ∧ product.currency = money.currency ∧
        product.scale = money.scale := by
  have elsewhere : ¬ money.AtLimit rate := by
    intro limit
    rw [limit.least_amount] at nonneg
    exact absurd nonneg (by decide)
  have amount_nonneg : (0 : ℚ) ≤ money.amount.toInt := by exact_mod_cast nonneg
  have value_nonneg : 0 ≤ rate.value :=
    div_nonneg (by exact_mod_cast rate_nonneg) (by positivity)
  have share_nonneg : 0 ≤ money.share rate := by
    rw [share_eq_mul_value]
    exact mul_nonneg amount_nonneg value_nonneg
  have share_le : money.share rate ≤ money.amount.toInt := by
    rw [share_eq_mul_value]
    exact mul_le_of_le_one_right amount_nonneg most
  obtain ⟨rounded_nonneg, rounded_le⟩ := roundAway_mem_of_le share_nonneg share_le
  have shareFits : money.ShareFits rate := by
    refine ⟨holds_ten_pow_iff.mpr fits, ?_, ?_⟩
    · exact le_trans (by decide) rounded_nonneg
    · have := money.amount.toInt_lt
      simp only [IntRange.signed64]
      omega
  obtain ⟨product, multiplied, amount, currency, scale⟩ :=
    (isProduct_multiply elsewhere).rounded shareFits
  exact ⟨product, multiplied, by omega, by omega, currency, scale⟩

/-- The power of ten of a rate of more than 38 places is out of range, so no amount can be
multiplied by it. -/
theorem multiply_of_fine (fine : 38 < rate.scale.toNat) :
    money.multiply rate = .error .overflow := by
  have elsewhere : ¬ money.AtLimit rate := by
    intro limit
    rw [limit.scale, toNat_limitScale] at fine
    omega
  refine (isProduct_multiply elsewhere).overflows.mpr fun shareFits => ?_
  have := holds_ten_pow_iff.mp shareFits.1
  omega

end Share

end Money

end RuleBook
