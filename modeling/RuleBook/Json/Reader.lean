import RuleBook.Json.Decode

/-! # Reading JSON texts

`Document.read` reads a text by the strict grammar: no comments, no commas before a closing
bracket, no leading zeros, no control characters in strings. Containers may be nested 127 deep; a
deeper one is unreadable. A number keeps as many leading digits as fit 64 bits, rounds them, and
is then scaled by its power of ten; one beyond the finite numbers is unreadable, and so is a
string with half a surrogate pair.
-/

namespace RuleBook

namespace Document

/-- What was read, and the rest of the text; no rest when the text breaks off. -/
structure Step (α : Type) where
  value : α
  rest : Option (List Char)

def isBlank (c : Char) : Bool := c == ' ' || c == '\n' || c == '\t' || c == '\r'

def skipBlanks (cs : List Char) : List Char := cs.dropWhile isBlank

def hexDigit? (c : Char) : Option Nat :=
  if '0' ≤ c ∧ c ≤ '9' then some (c.toNat - 48)
  else if 'a' ≤ c ∧ c ≤ 'f' then some (c.toNat - 87)
  else if 'A' ≤ c ∧ c ≤ 'F' then some (c.toNat - 55)
  else none

/-- The value of four hexadecimal digits. -/
def hexUnit? (a b c d : Char) : Option Nat :=
  match hexDigit? a, hexDigit? b, hexDigit? c, hexDigit? d with
  | some a, some b, some c, some d => some (((a * 16 + b) * 16 + c) * 16 + d)
  | _, _, _, _ => none

/-- A part of a string: a character, or a unit of 16 bits given by its number. -/
inductive Piece where
  | char (c : Char)
  | unit (n : Nat)

/-- Read the parts of a string up to its closing quote. -/
def readPieces : List Char → Option (List Piece × List Char)
  | '"' :: rest => some ([], rest)
  | '\\' :: 'u' :: a :: b :: c :: d :: rest =>
    match hexUnit? a b c d, readPieces rest with
    | some n, some (pieces, rest) => some (.unit n :: pieces, rest)
    | _, _ => none
  | '\\' :: c :: rest =>
    let plain? : Option Char := match c with
      | '"' => some '"'
      | '\\' => some '\\'
      | '/' => some '/'
      | 'b' => some (Char.ofNat 8)
      | 'f' => some (Char.ofNat 12)
      | 'n' => some '\n'
      | 'r' => some '\r'
      | 't' => some '\t'
      | _ => none
    match plain?, readPieces rest with
    | some c, some (pieces, rest) => some (.char c :: pieces, rest)
    | _, _ => none
  | c :: rest =>
    if c.toNat < 32 then none
    else (readPieces rest).map fun (pieces, rest) => (.char c :: pieces, rest)
  | [] => none

/-- Join the parts of a string; half a surrogate pair cannot be joined. -/
def joinPieces : List Piece → Option (List Char)
  | [] => some []
  | .char c :: rest => (joinPieces rest).map (c :: ·)
  | .unit high :: .unit low :: rest =>
    if 0xd800 ≤ high ∧ high < 0xdc00 then
      if 0xdc00 ≤ low ∧ low < 0xe000 then
        (joinPieces rest).map
          (Char.ofNat (0x10000 + (high - 0xd800) * 0x400 + (low - 0xdc00)) :: ·)
      else none
    else if 0xdc00 ≤ high ∧ high < 0xe000 then none
    else (joinPieces (.unit low :: rest)).map (Char.ofNat high :: ·)
  | .unit n :: rest =>
    if 0xd800 ≤ n ∧ n < 0xe000 then none else (joinPieces rest).map (Char.ofNat n :: ·)

/-- Read a string behind its opening quote. -/
def readString (cs : List Char) : Step (Option String) :=
  match readPieces cs with
  | some (pieces, rest) => ⟨(joinPieces pieces).map String.ofList, some rest⟩
  | none => ⟨none, none⟩

def digitValue (c : Char) : Nat := c.toNat - 48

/-- Take digits into a significand as long as it fits 64 bits; the digits that are left over. -/
def absorb (significand : Nat) : List Char → Nat × List Char
  | [] => (significand, [])
  | c :: rest =>
    let next := significand * 10 + digitValue c
    if next < 0x10000000000000000 then absorb next rest else (significand, c :: rest)

/-- A number with the given sign, digits before and after the point, and power of ten. -/
def scaledNumber? (negative : Bool) (whole fraction : List Char) (exponent : Int) :
    Option JsonNumber :=
  let (significand, dropped) := absorb 0 whole
  let (significand, unused) := absorb significand fraction
  let place : Int := dropped.length - (fraction.length - unused.length : Nat) + exponent
  ((Double.ofInt significand).scaleByTen? place).map fun x =>
    .float (if negative then x.negate else x)

/-- A number without fraction and exponent. -/
def wholeNumber? (negative : Bool) (whole : List Char) : Option JsonNumber :=
  let (significand, dropped) := absorb 0 whole
  if dropped.isEmpty && (!negative || significand != 0) then
    match JsonInt.ofInt? (if negative then -(significand : Int) else significand) with
    | some n => some (.int n)
    | none => scaledNumber? negative whole [] 0
  else scaledNumber? negative whole [] 0

def takeDigits (cs : List Char) : List Char × List Char :=
  (cs.takeWhile Char.isDigit, cs.dropWhile Char.isDigit)

/-- Read an exponent, if there is one: its value, or `none` when no digit follows the mark. -/
def readExponent (cs : List Char) : Option (Option Int × List Char) :=
  match cs with
  | c :: rest =>
    if c = 'e' ∨ c = 'E' then
      let (negative, rest) := match rest with
        | '+' :: rest => (false, rest)
        | '-' :: rest => (true, rest)
        | rest => (false, rest)
      let (digits, rest) := takeDigits rest
      if digits.isEmpty then none
      else
        let value : Int := digits.foldl (fun n c => n * 10 + digitValue c) 0
        some (some (if negative then -value else value), rest)
    else some (none, cs)
  | [] => some (none, [])

def readNumber (negative : Bool) (cs : List Char) : Step Document :=
  let broken : Step Document := ⟨.unreadable, none⟩
  let leaf (number : Option JsonNumber) (rest : List Char) : Step Document :=
    ⟨(number.map .number).getD .unreadable, some rest⟩
  let (whole, rest) := takeDigits cs
  if whole.isEmpty ∨ (whole.head? = some '0' ∧ 1 < whole.length) then broken
  else
    match rest with
    | '.' :: rest =>
      let (fraction, rest) := takeDigits rest
      if fraction.isEmpty then broken
      else
        match readExponent rest with
        | some (exponent, rest) =>
          leaf (scaledNumber? negative whole fraction (exponent.getD 0)) rest
        | none => broken
    | rest =>
      match readExponent rest with
      | some (some exponent, rest) => leaf (scaledNumber? negative whole [] exponent) rest
      | some (none, rest) => leaf (wholeNumber? negative whole) rest
      | none => broken

/-- Behind the brace of an object: a key, the end, or nothing more. -/
def opensEntries : List Char → Bool
  | [] => true
  | c :: _ => c == '"' || c == '}'

mutual

/-- Read a value. `depth` counts the containers that may still be opened, and every call spends
fuel, of which twice the length of the text is enough. -/
def readValue (fuel depth : Nat) (cs : List Char) : Step Document :=
  match fuel with
  | 0 => ⟨.unreadable, none⟩
  | fuel + 1 =>
    match skipBlanks cs with
    | 'n' :: 'u' :: 'l' :: 'l' :: rest => ⟨.null, some rest⟩
    | 't' :: 'r' :: 'u' :: 'e' :: rest => ⟨.bool true, some rest⟩
    | 'f' :: 'a' :: 'l' :: 's' :: 'e' :: rest => ⟨.bool false, some rest⟩
    | '"' :: rest =>
      let step := readString rest
      ⟨(step.value.map .string).getD .unreadable, step.rest⟩
    | '[' :: rest =>
      let step := readItems fuel (depth - 1) true (skipBlanks rest)
      ⟨if depth = 0 then .unreadable else .array step.value step.rest.isSome, step.rest⟩
    | '{' :: rest =>
      let cs := skipBlanks rest
      if opensEntries cs then
        let step := readEntries fuel (depth - 1) true cs
        ⟨if depth = 0 then .unreadable else .object step.value.1 step.value.2, step.rest⟩
      else
        ⟨if depth = 0 then .unreadable else .stray (readValue fuel (depth - 1) cs).value, none⟩
    | '-' :: rest => readNumber true rest
    | rest => readNumber false rest

/-- Read the items of an array up to its bracket. -/
def readItems (fuel depth : Nat) (isFirst : Bool) (cs : List Char) : Step (List Document) :=
  match fuel with
  | 0 => ⟨[], none⟩
  | fuel + 1 =>
    match cs with
    | ']' :: rest => ⟨[], some rest⟩
    | cs =>
      let item? : Option (List Char) := match isFirst, cs with
        | true, cs => some cs
        | false, ',' :: rest => some rest
        | false, _ => none
      match item? with
      | none => ⟨[], none⟩
      | some cs =>
        let item := readValue fuel depth cs
        match item.rest with
        | none => ⟨[item.value], none⟩
        | some rest =>
          let others := readItems fuel depth false (skipBlanks rest)
          ⟨item.value :: others.value, others.rest⟩

/-- Read the entries of an object up to its bracket, and whether all of them are readable. -/
def readEntries (fuel depth : Nat) (isFirst : Bool) (cs : List Char) :
    Step (List (String × Document) × Bool) :=
  match fuel with
  | 0 => ⟨([], false), none⟩
  | fuel + 1 =>
    match cs with
    | '}' :: rest => ⟨([], true), some rest⟩
    | cs =>
      let entry? : Option (List Char) := match isFirst, cs with
        | true, cs => some cs
        | false, ',' :: rest => some (skipBlanks rest)
        | false, _ => none
      match entry? with
      | some ('"' :: cs) =>
        let key := readString cs
        match key.rest.map skipBlanks with
        | some (':' :: rest) =>
          let value := readValue fuel depth rest
          match value.rest with
          | none =>
            match key.value with
            | some key => ⟨([(key, value.value)], false), none⟩
            | none => ⟨([], false), none⟩
          | some rest =>
            let others := readEntries fuel depth false (skipBlanks rest)
            match key.value with
            | some key => ⟨((key, value.value) :: others.value.1, others.value.2), others.rest⟩
            | none => ⟨([], false), others.rest⟩
        | _ =>
          match key.value with
          | some key => ⟨([(key, .unreadable)], false), none⟩
          | none => ⟨([], false), none⟩
      | _ => ⟨([], false), none⟩

end

/-- Read a text: the value at its start, and whether only blanks follow it. -/
def read (text : String) : Document × Bool :=
  let cs := text.toList
  let step := readValue (2 * cs.length + 2) 127 cs
  (step.value, (step.rest.map fun rest => (skipBlanks rest).isEmpty).getD false)

end Document

/-- Read a text that holds one value and nothing else. -/
def Decoder.readAll {α : Type} (decode : Decoder α) (text : String) : Decoded α :=
  let (document, complete) := Document.read text
  Decoder.close complete (decode .asWritten document)

def Json.read? (text : String) : Option Json := (Decoder.json.readAll text).toOption

end RuleBook
