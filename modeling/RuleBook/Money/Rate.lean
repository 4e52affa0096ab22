import RuleBook.Json.Decode
import RuleBook.Money.Error
import RuleBook.Text.Blank
import RuleBook.Text.Integer

/-! # Rates

A rate is the decimal fraction `amount / 10 ^ scale`: 8.25 percent is `825 / 10 ^ 4`.
-/

namespace RuleBook

/-- The fraction `amount / 10 ^ scale`. -/
structure Rate where
  amount : Int64
  scale : UInt32
deriving DecidableEq, Repr

namespace Rate

def percent (percent : Int64) : Rate := ⟨percent, 2⟩

def isZero (rate : Rate) : Bool := rate.amount == 0

/-- Read a decimal number of percents. The zeros at the end of the fraction are dropped, the parts
around the point are joined and read as one integer, and the scale counts the fraction's places
and the two of the percent. The places must be countable in 32 bits; the two are added there, and
the sum wraps around. -/
def ofPercentText (text : String) : Except MoneyError Rate :=
  let trimmed := Text.trim text.toList
  let invalid := Except.error (.invalidRate (String.ofList trimmed))
  let whole := trimmed.takeWhile (· != '.')
  let behind := (trimmed.dropWhile (· != '.')).drop 1
  let fraction := (behind.reverse.dropWhile (· == '0')).reverse
  if whole.isEmpty && fraction.isEmpty then invalid
  else
    match (Text.integer? (whole ++ fraction)).bind IntRange.signed64.check? with
    | some amount =>
      if IntRange.unsigned32.Holds fraction.length then
        .ok ⟨Int64.ofInt amount, UInt32.ofNat (fraction.length + 2)⟩
      else invalid
    | none => invalid

def toJson (rate : Rate) : Json :=
  .object [("amount", .ofInt64 rate.amount), ("scale", .ofUInt32 rate.scale)]

def decoder : Decoder Rate :=
  .record ["amount", "scale"] fun entries =>
    Rate.mk <$> entries.required "amount" .int64 <*> entries.required "scale" .uint32

end Rate

end RuleBook
