import RuleBook.Money.Rate

/-! # Amounts of money

An amount is an immutable snapshot: a count of smallest units, a currency, and the scale that says
how small a unit is. Its value is `amount / base ^ scale`. Amounts of one currency but different
scales are aligned to the larger scale, which loses nothing. Aligned amounts must fit 128 bits and
results 64 bits; whatever does not is an overflow.
-/

namespace RuleBook

/-- A currency: its code, the base of its units, and its usual scale. -/
structure Currency where
  code : String
  base : UInt32
  exponent : UInt32
deriving DecidableEq, Repr

namespace Currency

def usd : Currency := ⟨"USD", 10, 2⟩

def eur : Currency := ⟨"EUR", 10, 2⟩

def toJson (currency : Currency) : Json :=
  .object [("base", .ofUInt32 currency.base), ("code", .string currency.code),
    ("exponent", .ofUInt32 currency.exponent)]

def decoder : Decoder Currency :=
  .record ["code", "base", "exponent"] fun entries =>
    Currency.mk <$> entries.required "code" .text <*> entries.required "base" .uint32
      <*> entries.required "exponent" .uint32

end Currency

/-- An amount: `amount / base ^ scale` in units of the currency. -/
structure Money where
  amount : Int64
  currency : Currency
  scale : UInt32
deriving DecidableEq, Repr

namespace Money

/-- An amount at the currency's usual scale. -/
def ofAmount (amount : Int64) (currency : Currency) : Money := ⟨amount, currency, currency.exponent⟩

/-- Nothing, at the currency's usual scale. -/
def zero (currency : Currency) : Money := ofAmount 0 currency

def isZero (money : Money) : Bool := money.amount == 0

def isNegative (money : Money) : Bool := decide (money.amount < 0)

/-- The amount, if it fits the range of amounts. -/
def ofInt (amount : Int) (currency : Currency) (scale : UInt32) : Except MoneyError Money :=
  if IntRange.signed64.Holds amount then .ok ⟨Int64.ofInt amount, currency, scale⟩
  else .error .overflow

/-- The number, if it fits the range of intermediate results. -/
def intermediate (n : Int) : Except MoneyError Int :=
  if IntRange.signed128.Holds n then .ok n else .error .overflow

/-- A power, if it fits the range of intermediate results. -/
def power (base exponent : Nat) : Except MoneyError Int :=
  match IntRange.power128? base exponent with
  | some n => .ok n
  | none => .error .overflow

/-- Two amounts can be combined when their currencies agree in every part. -/
def requireSameCurrency (a b : Money) : Except MoneyError Unit :=
  if a.currency = b.currency then .ok ()
  else .error (.currencyMismatch a.currency.code b.currency.code)

/-- The count of units at a scale that is not smaller. -/
def amountAt (money : Money) (scale : UInt32) : Except MoneyError Int := do
  let factor ← power money.currency.base.toNat (scale.toNat - money.scale.toNat)
  intermediate (money.amount.toInt * factor)

/-- The sum, at the larger scale. -/
def add (a b : Money) : Except MoneyError Money := do
  requireSameCurrency a b
  let scale := max a.scale b.scale
  let left ← a.amountAt scale
  let right ← b.amountAt scale
  let sum ← intermediate (left + right)
  ofInt sum a.currency scale

def negate (money : Money) : Except MoneyError Money :=
  ofInt (-money.amount.toInt) money.currency money.scale

def abs (money : Money) : Except MoneyError Money :=
  ofInt money.amount.toInt.natAbs money.currency money.scale

/-- The difference: the sum with the opposite amount. -/
def subtract (a b : Money) : Except MoneyError Money := do
  a.add (← b.negate)

/-- The order of the values of two amounts of one currency. -/
def compare (a b : Money) : Except MoneyError Ordering := do
  requireSameCurrency a b
  let scale := max a.scale b.scale
  let left ← a.amountAt scale
  let right ← b.amountAt scale
  return Ord.compare left right

/-- The smaller amount, the first one of two equal values. -/
def min (a b : Money) : Except MoneyError Money := do
  match ← a.compare b with
  | .gt => return b
  | _ => return a

/-- The quotient, one farther from zero where twice the rest, as it was formed, reaches the
denominator. -/
def roundedQuotient (numerator denominator doubledRest : Int) : Int :=
  let quotient := numerator.tdiv denominator
  if denominator ≤ doubledRest then quotient + numerator.sign else quotient

/-- The quotient rounded to the nearest integer, a half away from zero. Twice the rest is formed in
128 bits, and no step asks whether it fits: there is no quotient where that stops the program. -/
def divideAwayFromZero (build : Build) (numerator denominator : Int) : Option Int :=
  (build.form .signed128 ((numerator.tmod denominator).natAbs * 2)).map
    (roundedQuotient numerator denominator)

/-- The amount times a rate, rounded to the amount's own scale, `none` where the program stops. -/
def multiplyIn (build : Build) (money : Money) (rate : Rate) : Option (Except MoneyError Money) :=
  match intermediate (money.amount.toInt * rate.amount.toInt), power 10 rate.scale.toNat with
  | .ok product, .ok divisor => (divideAwayFromZero build product divisor).map fun rounded =>
      ofInt rounded money.currency money.scale
  | .ok _, .error e => some (.error e)
  | .error e, _ => some (.error e)

/-- A build that wraps around never stops. -/
theorem isSome_multiplyIn_wrapping (money : Money) (rate : Rate) :
    (multiplyIn .wrapping money rate).isSome = true := by
  unfold multiplyIn
  split <;> rfl

/-- The amount times a rate in a build that wraps around. Prices are computed by it. -/
def multiply (money : Money) (rate : Rate) : Except MoneyError Money :=
  (multiplyIn .wrapping money rate).get (isSome_multiplyIn_wrapping money rate)

theorem multiplyIn_wrapping (money : Money) (rate : Rate) :
    multiplyIn .wrapping money rate = some (money.multiply rate) := (Option.some_get _).symm

/-- The steps of a multiplication in a build that wraps around. -/
theorem multiply_eq (money : Money) (rate : Rate) : money.multiply rate = (do
    let product ← intermediate (money.amount.toInt * rate.amount.toInt)
    let divisor ← power 10 rate.scale.toNat
    ofInt (roundedQuotient product divisor
      (IntRange.signed128.wrap ((product.tmod divisor).natAbs * 2))) money.currency money.scale) := by
  have divided (product divisor : Int) : divideAwayFromZero .wrapping product divisor =
      some (roundedQuotient product divisor
        (IntRange.signed128.wrap ((product.tmod divisor).natAbs * 2))) := by
    rw [divideAwayFromZero, Build.form, Option.map_some]
  refine Option.some_inj.mp ((multiplyIn_wrapping money rate).symm.trans ?_)
  simp only [multiplyIn, divided, Option.map_some]
  cases intermediate (money.amount.toInt * rate.amount.toInt) with
  | error e => rfl
  | ok product =>
    cases power 10 rate.scale.toNat with
    | error e => rfl
    | ok divisor => rw [Except.ok_bind, Except.ok_bind]

/-- The text for readers: code, count of units, and scale. -/
def text (money : Money) : String :=
  money.currency.code ++ " " ++ toString money.amount.toInt ++ "e-" ++ toString money.scale.toNat

def toJson (money : Money) : Json :=
  .object [("amount", .ofInt64 money.amount), ("currency", money.currency.toJson),
    ("scale", .ofUInt32 money.scale)]

def decoder : Decoder Money :=
  .record ["amount", "currency", "scale"] fun entries =>
    Money.mk <$> entries.required "amount" .int64 <*> entries.required "currency" Currency.decoder
      <*> entries.required "scale" .uint32

/-- The amount that a JSON value holds: an object with a currency and an amount that has the JSON
form of an amount. -/
def ofJson? (value : Json) : Option Money :=
  match value with
  | .object fields =>
    if (fields.lookup "currency").isSome && (fields.lookup "amount").isSome then
      decoder.ofJson? value
    else none
  | _ => none

end Money

end RuleBook
