import RuleBook.Proofs.Money.Units

/-! # The order of amounts

Amounts of one currency are compared at the larger of their scales, where each counts a whole number
of units. Every pair has a scale of its own, so the order of units says little about three amounts
at once; but it is the order of the values, and so hangs together across all scales at which amounts
can be counted: `Money.ComparesByValue`.
-/

namespace RuleBook

/-- In a chain that does not descend the ends are ordered as by its first step that ascends. -/
theorem compare_then_of_isLE {x y z : ℚ} (below : (compare x y).isLE = true)
    (above : (compare y z).isLE = true) : compare x z = (compare x y).then (compare y z) := by
  rcases lt_trichotomy x y with less | rfl | greater
  · have le : y ≤ z := by
      by_contra greater
      rw [compare_gt_iff_gt.mpr (not_le.mp greater)] at above
      cases above
    rw [compare_lt_iff_lt.mpr less, compare_lt_iff_lt.mpr (less.trans_le le)]
    rfl
  · rw [compare_eq_iff_eq.mpr (rfl : x = x)]
    rfl
  · rw [compare_gt_iff_gt.mpr greater] at below
    cases below

namespace Money

/-- An amount can be counted at a scale: the power of the base and the count fit 128 bits. -/
structure FitsAt (money : Money) (scale : Nat) : Prop where
  factor : IntRange.signed128.Holds
    ((money.currency.base.toNat : Int) ^ (scale - money.scale.toNat))
  units : IntRange.signed128.Holds (money.units scale)

/-- Two amounts of one currency can both be counted at the larger of their scales. -/
structure Alignable (a b : Money) : Prop where
  currency : a.currency = b.currency
  left : a.FitsAt (max a.scale.toNat b.scale.toNat)
  right : b.FitsAt (max a.scale.toNat b.scale.toNat)

/-- Three amounts stand in the order of their values wherever it is defined, and the smaller of two
amounts is the one with the smaller value. -/
structure ComparesByValue (a b c : Money) : Prop where
  defined_iff : ∀ order, a.compare b = .ok order ↔
    a.Alignable b ∧ order = Ord.compare a.value b.value
  reflexive : a.compare a = .ok .eq
  mirrored : ∀ order, a.compare b = .ok order → b.compare a = .ok order.swap
  antisymmetric : ∀ there back, a.compare b = .ok there → b.compare a = .ok back →
    there.isLE = true → back.isLE = true → there = .eq ∧ a.value = b.value
  transitive : ∀ first second whole, a.compare b = .ok first → b.compare c = .ok second →
    a.compare c = .ok whole → first.isLE = true → second.isLE = true →
      whole = first.then second
  smaller : ∀ least, a.min b = .ok least ↔
    a.Alignable b ∧ least = if b.value < a.value then b else a

section Aligned

variable {a b : Money} {order : Ordering}

theorem Alignable.symm (alignable : a.Alignable b) : b.Alignable a where
  currency := alignable.currency.symm
  left := by rw [Nat.max_comm]; exact alignable.right
  right := by rw [Nat.max_comm]; exact alignable.left

theorem amountAt_eq_ok_iff_fitsAt {scale : UInt32} {n : Int} :
    a.amountAt scale = .ok n ↔ a.FitsAt scale.toNat ∧ n = a.units scale.toNat := by
  rw [amountAt_eq_ok_iff]
  constructor
  · rintro ⟨factor, units, counted⟩
    exact ⟨⟨factor, units⟩, counted⟩
  · rintro ⟨fits, counted⟩
    exact ⟨fits.factor, fits.units, counted⟩

/-- Amounts are compared exactly when they can be aligned, by their units at the larger scale. -/
theorem compare_eq_ok_iff_units : a.compare b = .ok order ↔ a.Alignable b ∧
    order = Ord.compare (a.units (max a.scale.toNat b.scale.toNat))
      (b.units (max a.scale.toNat b.scale.toNat)) := by
  simp only [compare, Except.bind_eq_ok_iff, amountAt_eq_ok_iff_fitsAt, toNat_max]
  constructor
  · rintro ⟨_, same, _, ⟨left, rfl⟩, _, ⟨right, rfl⟩, ordered⟩
    exact ⟨⟨requireSameCurrency_eq_ok_iff.mp same, left, right⟩, (Except.ok.inj ordered).symm⟩
  · rintro ⟨alignable, rfl⟩
    have same := requireSameCurrency_eq_ok_iff.mpr alignable.currency
    exact ⟨_, same, _, ⟨alignable.left, rfl⟩, _, ⟨alignable.right, rfl⟩, rfl⟩

/-- Amounts are compared exactly when they can be aligned, and by their values. -/
theorem compare_eq_ok_iff (positive : 0 < a.currency.base.toNat) : a.compare b = .ok order ↔
    a.Alignable b ∧ order = Ord.compare a.value b.value := by
  constructor
  · intro compared
    exact ⟨(compare_eq_ok_iff_units.mp compared).1, eq_compare_value positive compared⟩
  · rintro ⟨alignable, rfl⟩
    have compared := compare_eq_ok_iff_units.mpr ⟨alignable, rfl⟩
    rwa [eq_compare_value positive compared] at compared

/-- The smaller of two amounts is the second one exactly when its value is smaller. -/
theorem min_eq_ok_iff (positive : 0 < a.currency.base.toNat) {least : Money} :
    a.min b = .ok least ↔ a.Alignable b ∧ least = if b.value < a.value then b else a := by
  simp only [min, Except.bind_eq_ok_iff, compare_eq_ok_iff positive]
  constructor
  · rintro ⟨order, ⟨alignable, ordered⟩, chosen⟩
    refine ⟨alignable, ?_⟩
    split at chosen
    · cases chosen
      rw [if_pos (compare_gt_iff_gt.mp ordered.symm)]
    · rename_i not_greater
      cases chosen
      rw [if_neg fun less => not_greater (ordered.trans (compare_gt_iff_gt.mpr less))]
  · rintro ⟨alignable, rfl⟩
    refine ⟨_, ⟨alignable, rfl⟩, ?_⟩
    by_cases less : b.value < a.value
    · rw [compare_gt_iff_gt.mpr less, if_pos less]
      rfl
    · rw [if_neg less]
      split
      · rename_i greater
        exact (less (compare_gt_iff_gt.mp greater)).elim
      · rfl

end Aligned

section SameScale

variable {a b : Money}

private theorem max_scale_self (scale : UInt32) : max scale scale = scale := by
  rw [← UInt32.toNat_inj, toNat_max, Nat.max_self]

theorem holds_amount (money : Money) : IntRange.signed64.Holds money.amount.toInt := by
  have least := money.amount.le_toInt
  have greatest := money.amount.toInt_lt
  constructor <;> simp only [IntRange.signed64] <;> omega

/-- Every amount can be counted at its own scale. -/
theorem fitsAt_self (money : Money) : money.FitsAt money.scale.toNat := by
  obtain ⟨least, greatest⟩ := money.holds_amount
  constructor
  · rw [Nat.sub_self, pow_zero]
    exact ⟨by decide, by decide⟩
  · rw [units_self]
    exact ⟨le_trans (by decide) least, le_trans greatest (by decide)⟩

private theorem amountAt_self (money : Money) :
    money.amountAt money.scale = .ok money.amount.toInt :=
  amountAt_eq_ok_iff_fitsAt.mpr ⟨money.fitsAt_self, (units_self money).symm⟩

/-- Amounts of one currency at one scale can be compared. -/
theorem compare_of_sameScale (currency : a.currency = b.currency) (scale : a.scale = b.scale) :
    a.compare b = .ok (Ord.compare a.amount.toInt b.amount.toInt) := by
  have left := a.amountAt_self
  have right := b.amountAt_self
  rw [scale] at left
  simp only [compare, requireSameCurrency, currency, if_true, scale, max_scale_self, left, right]
  rfl

theorem compare_self (amount : Money) : amount.compare amount = .ok .eq := by
  rw [compare_of_sameScale rfl rfl, Int.compare_eq_eq.mpr rfl]

/-- Amounts of one currency at one scale can be added unless the sum is out of range. -/
theorem add_of_sameScale (currency : a.currency = b.currency) (scale : a.scale = b.scale) :
    a.add b = ofInt (a.amount.toInt + b.amount.toInt) a.currency a.scale := by
  have left := a.amountAt_self
  have right := b.amountAt_self
  have sum : intermediate (a.amount.toInt + b.amount.toInt) =
      .ok (a.amount.toInt + b.amount.toInt) := by
    have left := a.holds_amount
    have right := b.holds_amount
    refine intermediate_eq_ok_iff.mpr ⟨?_, rfl⟩
    simp only [IntRange.Holds, IntRange.signed64, IntRange.signed128] at left right ⊢
    omega
  rw [← scale] at right
  simp only [add, requireSameCurrency, currency, if_true, ← scale, max_scale_self, left, right,
    bind, Except.bind, sum]

end SameScale

/-- Amounts are compared by their values, at every mix of scales. -/
theorem comparesByValue (a b c : Money) (positive : 1 ≤ a.currency.base) :
    a.ComparesByValue b c := by
  have base : 0 < a.currency.base.toNat := UInt32.le_iff_toNat_le.mp positive
  have mirrored : ∀ order, a.compare b = .ok order → b.compare a = .ok order.swap := by
    intro order compared
    obtain ⟨alignable, rfl⟩ := (compare_eq_ok_iff base).mp compared
    rw [compare_eq_ok_iff (alignable.currency ▸ base)]
    refine ⟨alignable.symm, ?_⟩
    rw [← cmp_eq_compare, ← cmp_eq_compare, cmp_swap]
  refine ⟨fun _ => compare_eq_ok_iff base, compare_self a, mirrored, ?_, ?_,
    fun _ => min_eq_ok_iff base⟩
  · intro there back compared returned below above
    rw [mirrored there compared] at returned
    cases returned
    have same : there = .eq := by
      cases there with
      | lt => cases above
      | eq => rfl
      | gt => cases below
    obtain ⟨_, ordered⟩ := (compare_eq_ok_iff base).mp compared
    exact ⟨same, compare_eq_iff_eq.mp (ordered.symm.trans same)⟩
  · intro first second whole compared continued spanned below above
    obtain ⟨alignable, rfl⟩ := (compare_eq_ok_iff base).mp compared
    obtain ⟨_, rfl⟩ := (compare_eq_ok_iff (alignable.currency ▸ base)).mp continued
    obtain ⟨_, rfl⟩ := (compare_eq_ok_iff base).mp spanned
    exact compare_then_of_isLE below above

/-- Three amounts of different scales, of which the first two are equal and below the third. -/
theorem comparesByValue_mixedScales :
    1 ≤ (Money.ofAmount 1000 .usd).currency.base ∧
      (Money.ofAmount 1000 .usd).compare ⟨10000, .usd, 3⟩ = .ok .eq ∧
      (⟨10000, .usd, 3⟩ : Money).compare ⟨1000000001, .usd, 8⟩ = .ok .lt ∧
      (Money.ofAmount 1000 .usd).ComparesByValue ⟨10000, .usd, 3⟩ ⟨1000000001, .usd, 8⟩ := by
  have positive : 1 ≤ (Money.ofAmount 1000 .usd).currency.base := by decide
  exact ⟨positive, by decide +kernel, by decide +kernel, comparesByValue _ _ _ positive⟩

end Money

end RuleBook
