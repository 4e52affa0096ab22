import RuleBook.Proofs.Money.Units

/-! # Amounts out of range

A calculation with amounts fails on two currencies or on a result out of range. Between amounts of
one currency only the second is left (`OnlyOverflows`).
-/

namespace RuleBook

/-- A calculation with amounts fails, if it fails, on a result out of range. -/
def OnlyOverflows {α : Type} (result : Except MoneyError α) : Prop :=
  ∀ e, result = .error e → e = .overflow

namespace OnlyOverflows

variable {α β : Type}

theorem ok (value : α) : OnlyOverflows (.ok value) := by
  intro e failed
  cases failed

theorem overflow : OnlyOverflows (.error .overflow : Except MoneyError α) := by
  intro e failed
  cases failed
  rfl

theorem bind {first : Except MoneyError α} {next : α → Except MoneyError β}
    (head : OnlyOverflows first) (tail : ∀ value, first = .ok value → OnlyOverflows (next value)) :
    OnlyOverflows (first >>= next) := by
  intro e failed
  cases first with
  | error cause =>
    cases failed
    exact head _ rfl
  | ok value => exact tail value rfl e failed

end OnlyOverflows

namespace Money

variable {a b : Money}

private theorem ofInt_onlyOverflows (n : Int) (currency : Currency) (scale : UInt32) :
    OnlyOverflows (ofInt n currency scale) := by
  unfold ofInt
  split
  · exact .ok _
  · exact .overflow

private theorem intermediate_onlyOverflows (n : Int) : OnlyOverflows (intermediate n) := by
  unfold intermediate
  split
  · exact .ok _
  · exact .overflow

private theorem power_onlyOverflows (base exponent : Nat) :
    OnlyOverflows (power base exponent) := by
  unfold power
  split
  · exact .ok _
  · exact .overflow

private theorem amountAt_onlyOverflows (money : Money) (scale : UInt32) :
    OnlyOverflows (money.amountAt scale) :=
  .bind (power_onlyOverflows _ _) fun _ _ => intermediate_onlyOverflows _

theorem negate_onlyOverflows (money : Money) : OnlyOverflows money.negate :=
  ofInt_onlyOverflows _ _ _

theorem multiply_onlyOverflows (money : Money) (rate : Rate) :
    OnlyOverflows (money.multiply rate) := by
  rw [multiply_eq]
  exact .bind (intermediate_onlyOverflows _) fun _ _ =>
    .bind (power_onlyOverflows _ _) fun _ _ => ofInt_onlyOverflows _ _ _

/-- Amounts of one currency can be compared unless they cannot be aligned. -/
theorem compare_onlyOverflows (same : a.currency = b.currency) : OnlyOverflows (a.compare b) := by
  have required : requireSameCurrency a b = .ok () := requireSameCurrency_eq_ok_iff.mpr same
  refine .bind (required ▸ .ok ()) fun _ _ => ?_
  exact .bind (amountAt_onlyOverflows _ _) fun _ _ =>
    .bind (amountAt_onlyOverflows _ _) fun _ _ => .ok _

theorem min_onlyOverflows (same : a.currency = b.currency) : OnlyOverflows (a.min b) := by
  refine .bind (compare_onlyOverflows same) fun order _ => ?_
  cases order <;> exact .ok _

/-- Amounts of one currency can be added unless the sum is out of range. -/
theorem add_onlyOverflows (same : a.currency = b.currency) : OnlyOverflows (a.add b) := by
  have required : requireSameCurrency a b = .ok () := requireSameCurrency_eq_ok_iff.mpr same
  refine .bind (required ▸ .ok ()) fun _ _ => .bind (amountAt_onlyOverflows _ _) fun _ _ => ?_
  refine .bind (amountAt_onlyOverflows _ _) fun _ _ => .bind (intermediate_onlyOverflows _) ?_
  exact fun _ _ => ofInt_onlyOverflows _ _ _

theorem abs_onlyOverflows (money : Money) : OnlyOverflows money.abs :=
  ofInt_onlyOverflows _ _ _

theorem subtract_onlyOverflows (same : a.currency = b.currency) : OnlyOverflows (a.subtract b) :=
  .bind (negate_onlyOverflows b) fun _ negated =>
    add_onlyOverflows (same.trans (eq_of_negate negated).2.1.symm)

end Money

end RuleBook
