import RuleBook.Number.Shortest

/-! # Positional decimals

A number is written with its fewest digits and never with an exponent; a whole number has no point.
It is read with or without a point or an exponent, and rounded once. Infinities and what is not a
number have names, which are read in any case.
-/

namespace RuleBook

/-- Lay out a decimal without an exponent. -/
def Decimal.positional (decimal : Decimal) : String :=
  let digits := (toString decimal.digits).toList
  let zeros (n : Nat) : List Char := List.replicate n '0'
  let places := (-decimal.exponent).toNat
  if places = 0 then String.ofList (digits ++ zeros decimal.exponent.toNat)
  else
    let padded := zeros (places + 1 - digits.length) ++ digits
    let whole := padded.length - places
    String.ofList (padded.take whole ++ '.' :: padded.drop whole)

namespace Double

def infinity (negative : Bool) : Double := signed negative infinityBits

def notANumber : Double := ⟨0x7ff8000000000000⟩

/-- Whether the pattern is beyond infinity. -/
def isNotANumber (x : Double) : Bool := decide (infinityBits < x.magnitudeBits)

def positionalText (x : Double) : String :=
  if x.isNotANumber then "NaN"
  else
    let magnitude := if x.isZero then "0"
      else if x.isFinite then x.shortest.positional
      else "inf"
    (if x.isNegative then "-" else "") ++ magnitude

/-- The nearest number that is not negative and fits 64 bits; a half goes up. What is not a number
counts as zero. -/
def toUInt64Rounded (x : Double) : UInt64 :=
  if x.isNotANumber ∨ x.isNegative then 0
  else if x.isFinite then
    UInt64.ofNat (min 0xffffffffffffffff
      ((2 * x.magnitudeNumerator + x.denominator) / (2 * x.denominator)))
  else UInt64.ofNat 0xffffffffffffffff

def digitsNumber (digits : List Char) : Nat :=
  digits.foldl (fun n c => n * 10 + (c.toNat - 48)) 0

/-- Read an exponent behind its mark. -/
def exponent? (cs : List Char) : Option Int :=
  let (negative, digits) := match cs with
    | '-' :: rest => (true, rest)
    | '+' :: rest => (false, rest)
    | rest => (false, rest)
  if digits.isEmpty ∨ !digits.all Char.isDigit then none
  else some (if negative then -(digitsNumber digits : Int) else digitsNumber digits)

/-- Read a decimal: digits with a point anywhere among them, or at an end. -/
def decimal? (cs : List Char) : Option Decimal :=
  let isMark (c : Char) : Bool := c = 'e' || c = 'E'
  let mantissa := cs.takeWhile fun c => !isMark c
  let whole := mantissa.takeWhile (· ≠ '.')
  let fraction := (mantissa.drop whole.length).drop 1
  let exponent := match cs.drop mantissa.length with
    | [] => some 0
    | _ :: rest => exponent? rest
  let digits := whole ++ fraction
  if digits.isEmpty ∨ !digits.all Char.isDigit then none
  else exponent.map fun exponent => ⟨digitsNumber digits, exponent - fraction.length⟩

def magnitude? (negative : Bool) (cs : List Char) : Option Double :=
  (decimal? cs).map fun decimal => ofDecimal negative decimal.digits decimal.exponent

/-- Read a number with an optional sign, or the name of one. -/
def parse? (text : String) : Option Double :=
  let (negative, cs) := match text.toList with
    | '-' :: rest => (true, rest)
    | '+' :: rest => (false, rest)
    | cs => (false, cs)
  let name := String.ofList (cs.map Char.toLower)
  if name = "inf" ∨ name = "infinity" then some (infinity negative)
  else if name = "nan" then some notANumber
  else magnitude? negative cs

end Double

end RuleBook
