import RuleBook.Json.Decode
import RuleBook.Text.Blank

/-! # Instants

A point in time, in seconds since the start of 1970 in UTC and nanoseconds within the second. It is
written as a date and a time of day in UTC, with three, six or nine places after the second when
they are needed. Reading is lenient about blanks between the parts, the letter between date and
time, and the form of the offset. A second of the value 60 is kept as a longer 59th second.
-/

namespace RuleBook

/-- A point in time. In a leap second the nanoseconds reach past one second. -/
structure Instant where
  seconds : Int
  nanoseconds : Nat
deriving DecidableEq, Repr, Inhabited

namespace Instant

/-- The days from the start of 1970 to a date of the civil calendar. Years are counted from March,
so the leap day is the last of its year. -/
def daysOfDate (year : Int) (month day : Nat) : Int :=
  let shifted := if month ≤ 2 then year - 1 else year
  let era := shifted.fdiv 400
  let yearOfEra := shifted - era * 400
  let dayOfYear : Int := (153 * ((month + 9) % 12) + 2) / 5 + day - 1
  let dayOfEra := yearOfEra * 365 + yearOfEra / 4 - yearOfEra / 100 + dayOfYear
  era * 146097 + dayOfEra - 719468

/-- The date of the civil calendar that is a count of days after the start of 1970. -/
def dateOfDays (days : Int) : Int × Nat × Nat :=
  let shifted := days + 719468
  let era := shifted.fdiv 146097
  let dayOfEra := (shifted - era * 146097).toNat
  let yearOfEra := (dayOfEra - dayOfEra / 1460 + dayOfEra / 36524 - dayOfEra / 146096) / 365
  let dayOfYear := dayOfEra - (365 * yearOfEra + yearOfEra / 4 - yearOfEra / 100)
  let monthFromMarch := (5 * dayOfYear + 2) / 153
  let day := dayOfYear - (153 * monthFromMarch + 2) / 5 + 1
  let month := if monthFromMarch < 10 then monthFromMarch + 3 else monthFromMarch - 9
  let year := (yearOfEra : Int) + era * 400 + (if month ≤ 2 then 1 else 0)
  (year, month, day)

def isLeapYear (year : Int) : Bool := year % 4 == 0 && (year % 100 != 0 || year % 400 == 0)

def daysInMonth (year : Int) (month : Nat) : Nat :=
  if month = 2 then (if isLeapYear year then 29 else 28)
  else if month = 4 ∨ month = 6 ∨ month = 9 ∨ month = 11 then 30
  else 31

/-- The least and the greatest year of a date. -/
def yearRange : IntRange := ⟨-262143, 262142⟩

/-- A number with zeros in front up to a width. -/
def padded (width n : Nat) : String :=
  let digits := toString n
  String.ofList (List.replicate (width - digits.length) '0') ++ digits

/-- The text of a year: four digits, with a sign outside the years 0 to 9999. -/
def yearText (year : Int) : String :=
  if 0 ≤ year ∧ year ≤ 9999 then padded 4 year.natAbs
  else (if year < 0 then "-" else "+") ++ padded 4 year.natAbs

/-- The places after the second, in groups of three. -/
def fractionText (nanoseconds : Nat) : String :=
  if nanoseconds = 0 then ""
  else if nanoseconds % 1000000 = 0 then "." ++ padded 3 (nanoseconds / 1000000)
  else if nanoseconds % 1000 = 0 then "." ++ padded 6 (nanoseconds / 1000)
  else "." ++ padded 9 nanoseconds

def text (instant : Instant) : String :=
  let days := instant.seconds.fdiv 86400
  let secondOfDay := (instant.seconds - days * 86400).toNat
  let (year, month, day) := dateOfDays days
  let leap := instant.nanoseconds / 1000000000
  yearText year ++ "-" ++ padded 2 month ++ "-" ++ padded 2 day ++ "T" ++
    padded 2 (secondOfDay / 3600) ++ ":" ++ padded 2 (secondOfDay / 60 % 60) ++ ":" ++
    padded 2 (secondOfDay % 60 + leap) ++ fractionText (instant.nanoseconds % 1000000000) ++ "Z"

private def digitsValue (digits : List Char) : Nat :=
  digits.foldl (fun n c => n * 10 + (c.toNat - 48)) 0

/-- Read a number of one to `width` digits behind blanks. -/
def readNumber (width : Nat) (cs : List Char) : Option (Nat × List Char) :=
  let cs := Text.trimStart cs
  let digits := (cs.take width).takeWhile Char.isDigit
  if digits.isEmpty then none else some (digitsValue digits, cs.drop digits.length)

/-- Read a year: up to four digits, or any number behind a sign. -/
def readYear (cs : List Char) : Option (Int × List Char) :=
  match Text.trimStart cs with
  | '-' :: rest => (readNumberHere rest).map fun (n, rest) => (-(n : Int), rest)
  | '+' :: rest => (readNumberHere rest).map fun (n, rest) => ((n : Int), rest)
  | cs => (readNumber 4 cs).map fun (n, rest) => ((n : Int), rest)
where
  /-- Read a number of any length without blanks before it. -/
  readNumberHere (cs : List Char) : Option (Nat × List Char) :=
    let digits := cs.takeWhile Char.isDigit
    if digits.isEmpty then none else some (digitsValue digits, cs.drop digits.length)

def readMark (mark : Char) (cs : List Char) : Option (List Char) :=
  match Text.trimStart cs with
  | c :: rest => if c = mark then some rest else none
  | [] => none

/-- Read the places after the second; digits beyond the ninth are dropped. -/
def readFraction (cs : List Char) : Option (Nat × List Char) :=
  match cs with
  | '.' :: rest =>
    let digits := rest.takeWhile Char.isDigit
    if digits.isEmpty then none
    else
      let kept := digits.take 9
      some (digitsValue kept * Nat.pow 10 (9 - kept.length), rest.drop digits.length)
  | cs => some (0, cs)

def readOffset (cs : List Char) : Option (Int × List Char) :=
  match cs with
  | 'Z' :: rest => some (0, rest)
  | 'z' :: rest => some (0, rest)
  | sign :: rest =>
    let negative? : Option Bool :=
      if sign = '+' then some false
      else if sign = '-' ∨ sign.toNat = 0x2212 then some true
      else none
    match negative?, rest with
    | some negative, h :: h' :: rest =>
      if h.isDigit && h'.isDigit then
        match rest.dropWhile fun c => c == ':' || Text.isBlank c with
        | m :: m' :: rest =>
          if m.isDigit && m'.isDigit && m.toNat < 54 then
            let seconds : Int := (digitsValue [h, h'] * 3600 + digitsValue [m, m'] * 60 : Nat)
            some (if negative then -seconds else seconds, rest)
          else none
        | _ => none
      else none
    | _, _ => none
  | [] => none

/-- Read the letters of UTC in any case, or an offset. -/
def readZone (cs : List Char) : Option (Int × List Char) :=
  match cs with
  | u :: t :: c :: rest =>
    if u.toUpper = 'U' ∧ t.toUpper = 'T' ∧ c.toUpper = 'C' then some (0, rest) else readOffset cs
  | cs => readOffset cs

/-- The instant of a date and a time of day at an offset, if all parts are in range. -/
def ofParts? (year : Int) (month day hour minute second nanoseconds : Nat) (offset : Int) :
    Option Instant :=
  if yearRange.Holds year ∧ 1 ≤ month ∧ month ≤ 12 ∧ 1 ≤ day ∧ day ≤ daysInMonth year month ∧
      hour ≤ 23 ∧ minute ≤ 59 ∧ second ≤ 60 ∧ -86400 < offset ∧ offset < 86400 then
    let seconds := daysOfDate year month day * 86400 + hour * 3600 + minute * 60 +
      (min second 59 : Nat) - offset
    if yearRange.Holds (dateOfDays (seconds.fdiv 86400)).1 then
      some ⟨seconds, nanoseconds + (if second = 60 then 1000000000 else 0)⟩
    else none
  else none

def parse? (text : String) : Option Instant := do
  let (year, cs) ← readYear text.toList
  let cs ← readMark '-' cs
  let (month, cs) ← readNumber 2 cs
  let cs ← readMark '-' cs
  let (day, cs) ← readNumber 2 cs
  let cs ← match cs with
    | 't' :: rest => some rest
    | 'T' :: rest => some rest
    | ' ' :: rest => some rest
    | _ => none
  let (hour, cs) ← readNumber 2 cs
  let cs ← readMark ':' cs
  let (minute, cs) ← readNumber 2 cs
  let cs ← readMark ':' cs
  let (second, cs) ← readNumber 2 cs
  let (nanoseconds, cs) ← readFraction cs
  let (offset, cs) ← readZone (Text.trimStart cs)
  if (Text.trimStart cs).isEmpty then ofParts? year month day hour minute second nanoseconds offset
  else none

/-- The instant at a count of microseconds after the start of 2000. -/
def ofMicroseconds (microseconds : Int) : Instant :=
  ⟨946684800 + microseconds.fdiv 1000000, ((microseconds.fmod 1000000) * 1000).toNat⟩

/-- The instant as a clock of microseconds keeps it, which starts with the year 2000; what is less
than a microsecond is cut off toward the start of the clock. -/
def wholeMicroseconds (instant : Instant) : Instant :=
  let nanoseconds := (instant.seconds - 946684800) * 1000000000 + instant.nanoseconds
  ofMicroseconds (nanoseconds.tdiv 1000)

def toJson (instant : Instant) : Json := .string instant.text

def decoder : Decoder Instant := Decoder.filterMap .text parse?

end Instant

end RuleBook
