import RuleBook.Number.Double

/-! # Shortest decimals

`Double.shortest` writes a finite magnitude with the fewest decimal digits that read back as the
same number. `Double.text` lays these digits out: positional from `0.00001` up to sixteen digits
before the point, with an exponent outside.
-/

namespace RuleBook

/-- The decimal number `digits * 10 ^ exponent`. -/
structure Decimal where
  digits : Nat
  exponent : Int
deriving DecidableEq, Repr

namespace Decimal

/-- The same number without the zeros at the end of its digits; at most `fuel` are dropped. -/
def trim (decimal : Decimal) : Nat → Decimal
  | 0 => decimal
  | fuel + 1 =>
    if decimal.digits % 10 = 0 then trim ⟨decimal.digits / 10, decimal.exponent + 1⟩ fuel
    else decimal

/-- The same number without any zero at the end of its digits, of which it has no more than binary
ones. -/
def trimmed (decimal : Decimal) : Decimal := decimal.trim (decimal.digits.log2 + 1)

end Decimal

namespace Double

/-- The place of the leading digit: the magnitude is below `10 ^ place` and not below
`10 ^ (place - 1)`. Every magnitude is above `10 ^ (-340)`, so the count of integer digits after
scaling by that power gives it. -/
def decimalPlace (x : Double) : Int :=
  ((Nat.toDigits 10 (x.magnitudeNumerator * Nat.pow 10 340 / x.denominator)).length : Int) - 340

/-- The decimals of the grid `10 ^ exponent` around the magnitude, the nearest one first. -/
def decimalsAt (x : Double) (exponent : Int) : List Decimal :=
  let top := if 0 ≤ exponent then x.magnitudeNumerator
    else x.magnitudeNumerator * Nat.pow 10 (-exponent).toNat
  let bottom := if 0 ≤ exponent then x.denominator * Nat.pow 10 exponent.toNat else x.denominator
  let below := top / bottom
  [divideToEven top bottom, below, below + 1].map fun digits => Decimal.trimmed ⟨digits, exponent⟩

/-- Whether a decimal stands for the magnitude of a finite number: it is rounded to it. -/
def hasDecimal (x : Double) (decimal : Decimal) : Bool :=
  x.isFinite && (ofDecimal false decimal.digits decimal.exponent).magnitudeBits == x.magnitudeBits

/-- The decimal that is the magnitude itself. -/
def exactDecimal (x : Double) : Decimal :=
  let places := 1075 - x.exponent
  Decimal.trimmed ⟨x.magnitudeNumerator * Nat.pow 5 places, -(places : Int)⟩

/-- The decimal of fewest digits that stands for the magnitude; seventeen always suffice. -/
def shortest (x : Double) : Decimal :=
  let place := x.decimalPlace
  let found := (List.range 17).findSome? fun n =>
    (x.decimalsAt (place - (n + 1 : Nat))).find? x.hasDecimal
  found.getD x.exactDecimal

def zeros (n : Nat) : String := String.ofList (List.replicate n '0')

def layOut (decimal : Decimal) : String :=
  let digits := toString decimal.digits
  let point : Int := digits.length + decimal.exponent
  if 0 ≤ decimal.exponent ∧ point ≤ 16 then digits ++ zeros decimal.exponent.toNat ++ ".0"
  else if 0 < point ∧ point ≤ 16 then
    (digits.take point.toNat).toString ++ "." ++ (digits.drop point.toNat).toString
  else if -5 < point ∧ point ≤ 0 then "0." ++ zeros (-point).toNat ++ digits
  else
    let mantissa := if digits.length = 1 then digits
      else (digits.take 1).toString ++ "." ++ (digits.drop 1).toString
    let sign := if 0 < point then "+" else "-"
    mantissa ++ "e" ++ sign ++ toString (point - 1).natAbs

def text (x : Double) : String :=
  let sign := if x.isNegative then "-" else ""
  if x.isZero then sign ++ "0.0" else sign ++ layOut x.shortest

end Double

end RuleBook
