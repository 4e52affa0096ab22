import RuleBook.Text.Utf8

/-! # Percent-encoding

A percent sign before two hexadecimal digits stands for a byte; any other percent sign stands for
itself. In the query of an address a plus sign stands for a blank, and pairs of keys and values are
separated by ampersands.
-/

namespace RuleBook.Percent

def hexValue? (byte : UInt8) : Option Nat :=
  let n := byte.toNat
  if 48 ≤ n ∧ n ≤ 57 then some (n - 48)
  else if 65 ≤ n ∧ n ≤ 70 then some (n - 55)
  else if 97 ≤ n ∧ n ≤ 102 then some (n - 87)
  else none

/-- The bytes that percent-encoded bytes stand for. -/
def decodeBytes : List UInt8 → List UInt8
  | [] => []
  | [a] => [a]
  | [a, b] => [a, b]
  | a :: b :: c :: rest =>
    match decide (a = 37), hexValue? b, hexValue? c with
    | true, some high, some low => UInt8.ofNat (16 * high + low) :: decodeBytes rest
    | _, _, _ => a :: decodeBytes (b :: c :: rest)

/-- The text that a segment of a path stands for, if its bytes encode one. -/
def decode? (segment : String) : Option String :=
  Utf8.decode? (decodeBytes (Utf8.encode segment))

/-- The text that a key or value of a query stands for. -/
def decodeQueryText (text : String) : String :=
  let spaced := text.toList.map fun c => if c = '+' then ' ' else c
  Utf8.decodeLenient (decodeBytes (Utf8.encode (String.ofList spaced)))

/-- A key and its value, which is empty when there is no equals sign. -/
def queryPair (part : List Char) : String × String :=
  (decodeQueryText (String.ofList (part.takeWhile (· ≠ '='))),
    decodeQueryText (String.ofList ((part.dropWhile (· ≠ '=')).drop 1)))

def queryPairs (query : String) : List (String × String) :=
  ((query.toList.splitOn '&').filter (· ≠ [])).map queryPair

end RuleBook.Percent
