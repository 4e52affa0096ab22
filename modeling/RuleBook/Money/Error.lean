/-! # Why an amount cannot be formed -/

namespace RuleBook

/-- A calculation with amounts fails on two currencies, on a result out of range, or on a text that
is no rate. -/
inductive MoneyError where
  | currencyMismatch (left right : String)
  | overflow
  | invalidRate (text : String)
deriving DecidableEq, Repr

namespace MoneyError

def name : MoneyError → String
  | currencyMismatch .. => "CurrencyMismatch"
  | overflow => "Overflow"
  | invalidRate _ => "InvalidRate"

def message : MoneyError → String
  | currencyMismatch left right => "币种不一致: " ++ left ++ " 与 " ++ right
  | overflow => "金额溢出"
  | invalidRate text => "无效的比率: " ++ text

end MoneyError

theorem Except.ok_bind {ε α β : Type} (value : α) (next : α → Except ε β) :
    (.ok value >>= next : Except ε β) = next value := rfl

/-- A chain of steps that may fail gives a value when each of its steps does. -/
theorem Except.bind_eq_ok_iff {ε α β : Type} {first : Except ε α} {next : α → Except ε β}
    {value : β} :
    (first >>= next) = .ok value ↔ ∃ a, first = .ok a ∧ next a = .ok value := by
  cases first with
  | error e => simp [bind, Except.bind]
  | ok a => simp [bind, Except.bind]

/-- A result that is no error is a value. -/
theorem Except.exists_of_isOk {ε α : Type} {result : Except ε α} (succeeds : result.isOk = true) :
    ∃ value, result = .ok value := by
  cases result with
  | error e => cases succeeds
  | ok value => exact ⟨value, rfl⟩

/-- What is made of a result is made of a value, unless it is an error. -/
theorem Except.exists_of_map_eq_ok {ε α β : Type} {result : Except ε α} {make : α → β} {made : β}
    (succeeds : result.map make = .ok made) : ∃ value, result = .ok value ∧ make value = made := by
  cases result with
  | error e => cases succeeds
  | ok value => exact ⟨value, rfl, Except.ok.inj succeeds⟩

end RuleBook
