import RuleBook.Proofs.Money.Order
import RuleBook.Proofs.Money.Range

/-! # Sums of amounts

Two amounts of one currency are added at the larger of their scales, and the sum is exact. It is
refused only where an amount cannot be counted there, or where the sum is out of range; so the order
of the two does not matter, and of more amounts only which sums can be formed on the way depends on
how they are grouped: `Money.AddsByValue`.
-/

namespace RuleBook

/-- The same failure of a calculation whose two amounts come in the other order. -/
def MoneyError.swap : MoneyError → MoneyError
  | currencyMismatch left right => currencyMismatch right left
  | overflow => overflow
  | invalidRate text => invalidRate text

namespace Money

/-- The units of two amounts together, at the larger of their scales. -/
def unitsTogether (a b : Money) : Int :=
  a.units (max a.scale.toNat b.scale.toNat) + b.units (max a.scale.toNat b.scale.toNat)

/-- Three amounts are added by their values: two of them exactly where they can be aligned and their
sum is in range, in either order, and all of them to one sum, however they are grouped; and what was
added can be taken away again. -/
structure AddsByValue (a b c : Money) : Prop where
  defined_iff : (a.add b).isOk = true ↔
    a.Alignable b ∧ IntRange.signed64.Holds (a.unitsTogether b)
  sum : ∀ total, a.add b = .ok total →
    total.currency = a.currency ∧ total.scale = max a.scale b.scale ∧
      total.value = a.value + b.value
  commutative : b.add a = (a.add b).mapError MoneyError.swap
  associative : ∀ total total', (a.add b >>= fun sum => sum.add c) = .ok total →
    (b.add c >>= fun sum => a.add sum) = .ok total' → total = total'
  cancels : ∀ rest, (a.add b >>= fun sum => sum.subtract b) = .ok rest →
    rest.currency = a.currency ∧ rest.value = a.value

section Sums

variable {a b c : Money}

private theorem unitsTogether_comm (a b : Money) : a.unitsTogether b = b.unitsTogether a := by
  rw [unitsTogether, unitsTogether, Nat.max_comm, add_comm]

/-- Amounts are added exactly when they can be aligned and their sum is in range, and the sum is
exact at the larger scale. -/
theorem add_eq_ok_iff : a.add b = .ok c ↔
    a.Alignable b ∧ IntRange.signed64.Holds (a.unitsTogether b) ∧
      c.amount.toInt = a.unitsTogether b ∧ c.currency = a.currency ∧
      c.scale = max a.scale b.scale := by
  simp only [add, Except.bind_eq_ok_iff, amountAt_eq_ok_iff_fitsAt, intermediate_eq_ok_iff,
    ofInt_eq_ok_iff, toNat_max]
  constructor
  · rintro ⟨_, same, _, ⟨left, rfl⟩, _, ⟨right, rfl⟩, _, ⟨_, rfl⟩, holds, amount, rest⟩
    exact ⟨⟨requireSameCurrency_eq_ok_iff.mp same, left, right⟩, holds, amount, rest⟩
  · rintro ⟨alignable, holds, amount, rest⟩
    have same := requireSameCurrency_eq_ok_iff.mpr alignable.currency
    have wide : IntRange.signed128.Holds (a.unitsTogether b) :=
      ⟨le_trans (by decide) holds.1, le_trans holds.2 (by decide)⟩
    exact ⟨_, same, _, ⟨alignable.left, rfl⟩, _, ⟨alignable.right, rfl⟩, _, ⟨wide, rfl⟩, holds,
      amount, rest⟩

private theorem isOk_add_iff : (a.add b).isOk = true ↔
    a.Alignable b ∧ IntRange.signed64.Holds (a.unitsTogether b) := by
  constructor
  · intro succeeds
    obtain ⟨sum, added⟩ := Except.exists_of_isOk succeeds
    obtain ⟨alignable, holds, _⟩ := add_eq_ok_iff.mp added
    exact ⟨alignable, holds⟩
  · rintro ⟨alignable, holds⟩
    have formed : ofInt (a.unitsTogether b) a.currency (max a.scale b.scale) =
        .ok ⟨Int64.ofInt (a.unitsTogether b), a.currency, max a.scale b.scale⟩ := if_pos holds
    have added := add_eq_ok_iff.mpr ⟨alignable, ofInt_eq_ok_iff.mp formed⟩
    rw [added]
    rfl

/-- A sum that is formed is formed in the other order as well. -/
theorem add_eq_ok_comm : a.add b = .ok c ↔ b.add a = .ok c := by
  have flips {a b : Money} (added : a.add b = .ok c) : b.add a = .ok c := by
    obtain ⟨alignable, holds, amount, currency, scale⟩ := add_eq_ok_iff.mp added
    have larger : max a.scale b.scale = max b.scale a.scale := by
      rw [← UInt32.toNat_inj, toNat_max, toNat_max, Nat.max_comm]
    rw [unitsTogether_comm] at holds amount
    exact add_eq_ok_iff.mpr ⟨alignable.symm, holds, amount,
      currency.trans alignable.currency, scale.trans larger⟩
  exact ⟨flips, flips⟩

/-- Two amounts are added in either order alike; where they are of two currencies, the failure names
these in the order of the amounts. -/
theorem add_comm_swap (a b : Money) : b.add a = (a.add b).mapError MoneyError.swap := by
  by_cases same : a.currency = b.currency
  · cases added : a.add b with
    | ok sum => exact add_eq_ok_comm.mp added
    | error e =>
      obtain rfl := add_onlyOverflows same e added
      cases again : b.add a with
      | ok sum => exact absurd (added.symm.trans (add_eq_ok_comm.mpr again)) nofun
      | error e' =>
        obtain rfl := add_onlyOverflows same.symm e' again
        rfl
  · simp only [add, requireSameCurrency, same, Ne.symm same, if_false]
    rfl

/-- Three amounts come to one sum, whichever two are added first, wherever both sums on the way can
be formed. -/
theorem add_assoc_of_ok {left right total total' : Money} (first : a.add b = .ok left)
    (then_last : left.add c = .ok total) (last : b.add c = .ok right)
    (then_first : a.add right = .ok total') : total = total' := by
  obtain ⟨_, left_currency, _, _⟩ := eq_of_add first
  obtain ⟨_, total_currency, _, _⟩ := eq_of_add then_last
  obtain ⟨_, total_currency', _, _⟩ := eq_of_add then_first
  have left_scale := toNat_scale_of_add first
  have total_scale := toNat_scale_of_add then_last
  have right_scale := toNat_scale_of_add last
  have total_scale' := toNat_scale_of_add then_first
  have scale : total.scale = total'.scale := by
    rw [← UInt32.toNat_inj]
    omega
  refine eq_of_units ((total_currency.trans left_currency).trans total_currency'.symm) scale ?_
  rw [units_add then_last (by omega), units_add first (by omega), units_add then_first (by omega),
    units_add last (by omega), add_assoc]

/-- What was added to an amount can be taken away again. -/
theorem value_of_add_subtract (positive : 0 < a.currency.base.toNat) {sum rest : Money}
    (added : a.add b = .ok sum) (subtracted : sum.subtract b = .ok rest) :
    rest.currency = a.currency ∧ rest.value = a.value := by
  obtain ⟨_, sum_currency, _, _⟩ := eq_of_add added
  obtain ⟨opposite, _, again⟩ := eq_of_subtract subtracted
  obtain ⟨_, rest_currency, _, _⟩ := eq_of_add again
  refine ⟨rest_currency.trans sum_currency, ?_⟩
  rw [value_subtract (sum_currency ▸ positive) subtracted, value_add positive added,
    add_sub_cancel_right]

end Sums

/-- Amounts are added by their values, at every mix of scales. -/
theorem addsByValue (a b c : Money) (positive : 1 ≤ a.currency.base) : a.AddsByValue b c := by
  have base : 0 < a.currency.base.toNat := UInt32.le_iff_toNat_le.mp positive
  refine ⟨isOk_add_iff, ?_, add_comm_swap a b, ?_, ?_⟩
  · intro total added
    obtain ⟨_, _, _, currency, scale⟩ := add_eq_ok_iff.mp added
    exact ⟨currency, scale, value_add base added⟩
  · intro total total' grouped regrouped
    obtain ⟨left, first, then_last⟩ := Except.bind_eq_ok_iff.mp grouped
    obtain ⟨right, last, then_first⟩ := Except.bind_eq_ok_iff.mp regrouped
    exact add_assoc_of_ok first then_last last then_first
  · intro rest restored
    obtain ⟨sum, added, subtracted⟩ := Except.bind_eq_ok_iff.mp restored
    exact value_of_add_subtract base added subtracted

/-- Ten dollars, a discount and a surcharge of a fraction of a cent, all counted at scales of their
own. -/
theorem addsByValue_fractions :
    let price := Money.ofAmount 1000 .usd
    let discount : Money := ⟨-12345, .usd, 4⟩
    let surcharge : Money := ⟨7, .usd, 3⟩
    1 ≤ price.currency.base ∧
      (price.add discount >>= fun sum => sum.add surcharge) = .ok ⟨87725, .usd, 4⟩ ∧
      (discount.add surcharge >>= fun sum => price.add sum) = .ok ⟨87725, .usd, 4⟩ ∧
      (price.add discount >>= fun sum => sum.subtract discount) = .ok ⟨100000, .usd, 4⟩ ∧
      price.AddsByValue discount surcharge := by
  have positive : 1 ≤ (Money.ofAmount 1000 .usd).currency.base := by decide
  exact ⟨positive, by decide +kernel, by decide +kernel, by decide +kernel,
    addsByValue _ _ _ positive⟩

end Money

end RuleBook
