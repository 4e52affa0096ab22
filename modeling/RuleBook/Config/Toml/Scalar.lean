import RuleBook.Config.Setting
import RuleBook.Json.Reader
import RuleBook.Time.Instant

/-! # Plain values in TOML

Truth values, integers of 64 bits in four bases, floating-point numbers, and dates and times, which
become texts of one spelling. Underscores may stand between two digits.
-/

namespace RuleBook.Toml

def isScalarChar (c : Char) : Bool := c.isAlphanum || ['+', '-', '_', '.', ':'].contains c

/-- Digits without the underscores between them; there must be digits around each. -/
def digits? (isDigit : Char → Bool) (cs : List Char) : Option (List Char) :=
  let groups := cs.splitOn '_'
  if groups.all fun group => !group.isEmpty && group.all isDigit then some groups.flatten else none

/-- The digits of a whole decimal number: no zero in front of others. -/
def wholeDigits? (cs : List Char) : Option (List Char) :=
  (digits? Char.isDigit cs).bind fun digits =>
    if digits.head? = some '0' ∧ 1 < digits.length then none else some digits

/-- The number that digits write in a base. -/
def numberOf (base : Nat) (digits : List Char) : Nat :=
  digits.foldl (fun n c => n * base + (Document.hexDigit? c).getD 0) 0

/-- A sign in front, and what is behind it. -/
def splitSign : List Char → Bool × List Char
  | '-' :: rest => (true, rest)
  | '+' :: rest => (false, rest)
  | cs => (false, cs)

/-- Read an integer; other bases than ten take no sign. -/
def integer? (cs : List Char) : Option Int :=
  let inBase (base : Nat) (cs : List Char) : Option Int :=
    (digits? (fun c => ((Document.hexDigit? c).map fun n => decide (n < base)).getD false) cs).map
      fun digits => numberOf base digits
  match cs with
  | '0' :: 'x' :: rest => inBase 16 rest
  | '0' :: 'o' :: rest => inBase 8 rest
  | '0' :: 'b' :: rest => inBase 2 rest
  | cs =>
    let (negative, cs) := splitSign cs
    (wholeDigits? cs).map fun digits =>
      if negative then -(numberOf 10 digits : Int) else numberOf 10 digits

/-- Read a floating-point number: a fraction or an exponent makes the difference to an integer. -/
def float? (cs : List Char) : Option Double :=
  let (negative, cs) := splitSign cs
  let mantissa := cs.takeWhile fun c => c ≠ 'e' ∧ c ≠ 'E'
  let whole := mantissa.takeWhile (· ≠ '.')
  let behind (cs : List Char) : Option (List Char) :=
    match cs with
    | [] => some []
    | _ :: rest => digits? Char.isDigit rest
  let exponent : Option Int :=
    match cs.drop mantissa.length with
    | [] => some 0
    | _ :: rest =>
      let (negative, rest) := splitSign rest
      (digits? Char.isDigit rest).map fun digits =>
        if negative then -(numberOf 10 digits : Int) else numberOf 10 digits
  match cs, wholeDigits? whole, behind (mantissa.drop whole.length), exponent with
  | ['i', 'n', 'f'], _, _, _ => some (.infinity negative)
  | ['n', 'a', 'n'], _, _, _ => some .notANumber
  | _, some whole, some fraction, some exponent =>
    let x := Double.ofDecimal negative (numberOf 10 (whole ++ fraction))
      (exponent - fraction.length)
    if x.isFinite then some x else none
  | _, _, _, _ => none

/-- Read a number of exactly so many digits. -/
def readDigits (width : Nat) (cs : List Char) : Option (Nat × List Char) :=
  let digits := cs.take width
  if digits.length = width ∧ digits.all Char.isDigit then
    some (numberOf 10 digits, cs.drop width)
  else none

/-- Read a date, and write it. -/
def readDate (cs : List Char) : Option (String × List Char) := do
  let (year, cs) ← readDigits 4 cs
  let cs ← Instant.readMark '-' cs
  let (month, cs) ← readDigits 2 cs
  let cs ← Instant.readMark '-' cs
  let (day, cs) ← readDigits 2 cs
  if 1 ≤ month ∧ month ≤ 12 ∧ 1 ≤ day ∧ day ≤ Instant.daysInMonth year month then
    some (Instant.padded 4 year ++ "-" ++ Instant.padded 2 month ++ "-" ++ Instant.padded 2 day,
      cs)
  else none

/-- The places after the second without zeros at their end, of which one stays if there is nothing
else. Nine places are kept. -/
def fractionText (digits : List Char) : String :=
  let places := ((digits.take 9).reverse.dropWhile (· = '0')).reverse
  "." ++ String.ofList (if places.isEmpty then ['0'] else places)

/-- Read the seconds of a time of day, and write them. They may be left out. -/
def readSeconds (cs : List Char) : Option (String × List Char) :=
  match cs with
  | ':' :: rest => do
    let (second, rest) ← readDigits 2 rest
    if 60 < second then none
    else
      match rest with
      | '.' :: rest =>
        let digits := rest.takeWhile Char.isDigit
        if digits.isEmpty then none
        else
          some (":" ++ Instant.padded 2 second ++ fractionText digits, rest.drop digits.length)
      | rest => some (":" ++ Instant.padded 2 second, rest)
  | cs => some ("", cs)

/-- Read a time of day, and write it. -/
def readTime (cs : List Char) : Option (String × List Char) := do
  let (hour, cs) ← readDigits 2 cs
  let cs ← Instant.readMark ':' cs
  let (minute, cs) ← readDigits 2 cs
  let (seconds, cs) ← readSeconds cs
  if hour ≤ 23 ∧ minute ≤ 59 then
    some (Instant.padded 2 hour ++ ":" ++ Instant.padded 2 minute ++ seconds, cs)
  else none

/-- Read the rest of a value as an offset from UTC, and write it; the sign of none is a plus. -/
def offset? : List Char → Option String
  | [] => some ""
  | ['Z'] => some "Z"
  | ['z'] => some "Z"
  | sign :: rest => do
    let (hour, rest) ← readDigits 2 rest
    let rest ← Instant.readMark ':' rest
    let (minute, rest) ← readDigits 2 rest
    if (sign = '+' ∨ sign = '-') ∧ hour ≤ 23 ∧ minute ≤ 59 ∧ rest.isEmpty then
      let sign := if hour = 0 ∧ minute = 0 then '+' else sign
      some (String.ofList [sign] ++ Instant.padded 2 hour ++ ":" ++ Instant.padded 2 minute)
    else none

/-- Read a date, a time of day, or both; only both together may have an offset. -/
def dateTime? (cs : List Char) : Option String :=
  match readDate cs with
  | some (date, []) => some date
  | some (date, mark :: rest) =>
    if mark = 'T' ∨ mark = 't' ∨ mark = ' ' then do
      let (time, rest) ← readTime rest
      let offset ← offset? rest
      some (date ++ "T" ++ time ++ offset)
    else none
  | none =>
    match readTime cs with
    | some (time, []) => some time
    | _ => none

/-- Split off the characters of a plain value; a blank between a date and a time belongs to it. -/
def takeScalar (cs : List Char) : List Char × List Char :=
  let word := cs.takeWhile isScalarChar
  let rest := cs.drop word.length
  match readDate word, rest with
  | some (_, []), ' ' :: c :: more =>
    if c.isDigit then
      let time := (c :: more).takeWhile isScalarChar
      (word ++ ' ' :: time, (c :: more).drop time.length)
    else (word, rest)
  | _, _ => (word, rest)

def scalar? (cs : List Char) : Option Setting :=
  match cs with
  | ['t', 'r', 'u', 'e'] => some (.bool true)
  | ['f', 'a', 'l', 's', 'e'] => some (.bool false)
  | cs =>
    match integer? cs with
    | some n => (IntRange.signed64.check? n).map fun n => .int (Int64.ofInt n)
    | none =>
      match float? cs with
      | some x => some (.float x)
      | none => (dateTime? cs).map .text

end RuleBook.Toml
