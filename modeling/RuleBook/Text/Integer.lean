/-! # Integers in decimal

Digits with an optional sign in front, nothing else around them. Leading zeros are allowed, and a
plus sign is.
-/

namespace RuleBook.Text

/-- The number that a list of decimal digits writes; there must be at least one. -/
def digits? (cs : List Char) : Option Nat :=
  if cs.isEmpty ∨ !cs.all Char.isDigit then none
  else some (cs.foldl (fun n c => n * 10 + (c.toNat - 48)) 0)

/-- A natural number, with or without a plus sign. -/
def natural? : List Char → Option Nat
  | '+' :: rest => digits? rest
  | cs => digits? cs

def integer? : List Char → Option Int
  | '-' :: rest => (digits? rest).map fun n => -(n : Int)
  | cs => (natural? cs).map fun n => (n : Int)

end RuleBook.Text
