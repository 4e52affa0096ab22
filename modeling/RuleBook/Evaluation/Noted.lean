import RuleBook.Evaluation.Result
import RuleBook.Error

/-! # Results with reports

Combining the effects of rules yields a result, or ends with an error, and reports on single rules
on the way. The reports made before an error are kept.
-/

namespace RuleBook

/-- A result and the reports made on the way. -/
structure Noted (α : Type) where
  result : Except RuleError α
  notes : List Diagnostic

namespace Noted

variable {α β : Type}

def ok (value : α) : Noted α := ⟨.ok value, []⟩

/-- A report alone. -/
def note (diagnostic : Diagnostic) : Noted Unit := ⟨.ok (), [diagnostic]⟩

def ofExcept (result : Except RuleError α) : Noted α := ⟨result, []⟩

/-- The result of a calculation with amounts. -/
def ofMoney (result : Except MoneyError α) : Noted α := ⟨RuleError.ofMoney result, []⟩

/-- Continue with the result, unless it is an error. -/
def andThen (first : Noted α) (next : α → Noted β) : Noted β :=
  match first.result with
  | .ok value => ⟨(next value).result, first.notes ++ (next value).notes⟩
  | .error e => ⟨.error e, first.notes⟩

instance : Monad Noted where
  pure := ok
  bind := andThen

@[simp] theorem pure_eq (value : α) : (pure value : Noted α) = ⟨.ok value, []⟩ := rfl

@[simp] theorem bind_ok (value : α) (notes : List Diagnostic) (next : α → Noted β) :
    ((⟨.ok value, notes⟩ : Noted α) >>= next) =
      ⟨(next value).result, notes ++ (next value).notes⟩ := rfl

@[simp] theorem bind_error (e : RuleError) (notes : List Diagnostic) (next : α → Noted β) :
    ((⟨.error e, notes⟩ : Noted α) >>= next) = ⟨.error e, notes⟩ := rfl

theorem result_bind (first : Noted α) (next : α → Noted β) :
    (first >>= next).result = first.result.bind fun value => (next value).result := by
  obtain ⟨result, notes⟩ := first
  cases result with
  | ok value => rfl
  | error e => rfl

/-- A calculation in two parts gives a result when both parts do. -/
theorem bind_eq_ok_iff {first : Noted α} {next : α → Noted β} {value : β} :
    (first >>= next).result = .ok value ↔
      ∃ a, first.result = .ok a ∧ (next a).result = .ok value := by
  obtain ⟨result, notes⟩ := first
  cases result with
  | error e => simp
  | ok a => simp

theorem ofMoney_eq_ok_iff {result : Except MoneyError α} {value : α} :
    (ofMoney result).result = .ok value ↔ result = .ok value := by
  cases result with
  | error e => simp [ofMoney, RuleError.ofMoney]
  | ok a => simp [ofMoney, RuleError.ofMoney]

end Noted

end RuleBook
