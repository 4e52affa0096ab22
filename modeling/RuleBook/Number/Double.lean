/-! # Floating-point numbers of 64 bits

A `Double` is kept by its bit pattern. Its value is the exact fraction `numerator / denominator`,
the order compares these fractions, and every operation forms the exact result and rounds it once,
to the nearest representable number and of two equally near ones to the even one.
-/

namespace RuleBook

/-- A floating-point number of 64 bits, by its bit pattern. -/
structure Double where
  bits : UInt64
deriving DecidableEq, Repr, Inhabited

namespace Double

/-- The bit of the sign, above the 63 others. -/
def signBit : Nat := 0x8000000000000000

/-- The bit that normal numbers have above the 52 of their fraction, and that is not written. -/
def hiddenBit : Nat := 0x10000000000000

def isNegative (x : Double) : Bool := decide (signBit ≤ x.bits.toNat)

def magnitudeBits (x : Double) : Nat := x.bits.toNat % signBit

/-- The pattern of infinity, the least one that is no finite magnitude. -/
def infinityBits : Nat := 2047 * hiddenBit

/-- Finite numbers are those below the pattern of infinity. -/
def isFinite (x : Double) : Bool := decide (x.magnitudeBits < infinityBits)

/-- Whether the magnitude is zero; both signs count. -/
def isZero (x : Double) : Bool := x.magnitudeBits == 0

/-- The integer significand: the magnitude is `significand * 2 ^ (exponent - 1075)`. -/
def significand (x : Double) : Nat :=
  let fraction := x.magnitudeBits % hiddenBit
  if x.magnitudeBits < hiddenBit then fraction else fraction + hiddenBit

/-- The biased exponent, one for the numbers below the normal ones. -/
def exponent (x : Double) : Nat := max 1 (x.magnitudeBits / hiddenBit)

def magnitudeNumerator (x : Double) : Nat := x.significand * Nat.pow 2 (x.exponent - 1075)

/-- The denominator of the value, a power of two. -/
def denominator (x : Double) : Nat := Nat.pow 2 (1075 - x.exponent)

def numerator (x : Double) : Int :=
  if x.isNegative then -(x.magnitudeNumerator : Int) else x.magnitudeNumerator

/-- The quotient rounded to the nearest natural number, a half to the even neighbour. -/
def divideToEven (numerator denominator : Nat) : Nat :=
  let quotient := numerator / denominator
  let rest := numerator % denominator
  if 2 * rest < denominator then quotient
  else if denominator < 2 * rest then quotient + 1
  else if quotient % 2 = 0 then quotient else quotient + 1

/-- The place of the leading binary digit: a positive fraction is at least `2 ^ place` and less
than `2 ^ (place + 1)`. -/
def leadingPlace (numerator denominator : Nat) : Int :=
  let guess : Int := (numerator.log2 : Int) - denominator.log2
  let reaches : Bool :=
    if 0 ≤ guess then decide (denominator * Nat.pow 2 guess.toNat ≤ numerator)
    else decide (denominator ≤ numerator * Nat.pow 2 (-guess).toNat)
  if reaches then guess else guess - 1

/-- The pattern of the magnitude nearest to a fraction. The fraction is scaled so that its integer
part has 53 bits, or fewer below the normal numbers, and rounded there; a carry out of the
significand reaches the exponent by itself. -/
def nearestBits (numerator denominator : Nat) : Nat :=
  if numerator = 0 then 0
  else
    let place : Int := max (leadingPlace numerator denominator) (-1022) - 52
    let rounded :=
      if 0 ≤ place then divideToEven numerator (denominator * Nat.pow 2 place.toNat)
      else divideToEven (numerator * Nat.pow 2 (-place).toNat) denominator
    min infinityBits ((place + 1074).toNat * hiddenBit + rounded)

/-- Put a sign in front of a magnitude pattern. -/
def signed (negative : Bool) (magnitude : Nat) : Double :=
  ⟨UInt64.ofNat (if negative then signBit + magnitude else magnitude)⟩

/-- The number nearest to a signed fraction. -/
def ofRatio (negative : Bool) (numerator denominator : Nat) : Double :=
  signed negative (nearestBits numerator denominator)

def ofInt (n : Int) : Double := ofRatio (decide (n < 0)) n.natAbs 1

/-- The number nearest to `digits * 10 ^ exponent`. Decimals far outside the range of magnitudes
are settled before the power of ten is formed. -/
def ofDecimal (negative : Bool) (digits : Nat) (exponent : Int) : Double :=
  if digits = 0 then signed negative 0
  else if 400 < exponent then signed negative infinityBits
  else if exponent + (digits.log2 + 1 : Nat) < -400 then signed negative 0
  else if 0 ≤ exponent then ofRatio negative (digits * Nat.pow 10 exponent.toNat) 1
  else ofRatio negative digits (Nat.pow 10 (-exponent).toNat)

def negate (x : Double) : Double := signed (!x.isNegative) x.magnitudeBits

/-- The rounded product of two finite numbers. -/
def multiply (x y : Double) : Double :=
  ofRatio (x.isNegative != y.isNegative) (x.magnitudeNumerator * y.magnitudeNumerator)
    (x.denominator * y.denominator)

/-- The rounded quotient of two finite numbers, the second not zero. -/
def divide (x y : Double) : Double :=
  ofRatio (x.isNegative != y.isNegative) (x.magnitudeNumerator * y.denominator)
    (x.denominator * y.magnitudeNumerator)

/-- The order of the values of two finite numbers; the two zeros are equal. -/
def order (x y : Double) : Ordering :=
  Ord.compare (x.numerator * y.denominator) (y.numerator * x.denominator)

/-- Equality of the values of two finite numbers. -/
def same (x y : Double) : Bool := x.order y == .eq

/-- The number nearest to a power of ten. -/
def powerOfTen (exponent : Nat) : Double := ofDecimal false 1 exponent

/-- Scale by a power of ten in steps of at most 308 places, rounding after each step. A result
beyond the finite numbers is refused. -/
def scaleByTen? (x : Double) (exponent : Int) : Option Double :=
  if exponent.natAbs ≤ 308 then
    if 0 ≤ exponent then
      let scaled := x.multiply (powerOfTen exponent.natAbs)
      if scaled.isFinite then some scaled else none
    else some (x.divide (powerOfTen exponent.natAbs))
  else if x.isZero then some x
  else if 0 ≤ exponent then none
  else (x.divide (powerOfTen 308)).scaleByTen? (exponent + 308)
termination_by exponent.natAbs
decreasing_by omega

end Double

end RuleBook
