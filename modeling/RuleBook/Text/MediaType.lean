/-! # Media types

A media type is a type and a subtype with a slash between them, and parameters behind semicolons. A
subtype may end with a suffix behind a plus sign.
-/

namespace RuleBook.MediaType

/-- The marks that may stand in the parts of a media type beside letters and digits. -/
def marks : List Char := "!#$%&'*+-.^_`|~".toList

/-- The characters of the parts of a media type. -/
def isTokenChar (c : Char) : Bool := c.isAlphanum || marks.contains c

def isQuotedChar (c : Char) : Bool := 32 ≤ c.toNat && c.toNat < 127 && c ≠ '"'

/-- A type and a subtype, which ends before its last plus sign if it has one, and the suffix behind
that sign. -/
structure Essence where
  type : List Char
  subtype : List Char
  suffix : Option (List Char)
deriving DecidableEq, Repr

/-- Split a subtype at its last plus sign, unless it starts with that. -/
def splitSuffix (subtype : List Char) : List Char × Option (List Char) :=
  let suffix := (subtype.reverse.takeWhile (· ≠ '+')).reverse
  let front := subtype.take (subtype.length - suffix.length - 1)
  if subtype.contains '+' ∧ front ≠ [] then (front, some suffix) else (subtype, none)

/-- What may stand behind the value of a parameter: blanks, and then the end or a semicolon. -/
def afterQuoted (cs : List Char) : Option (List Char) :=
  match cs.dropWhile (· = ' ') with
  | [] => some []
  | c :: rest => if c = ';' then some rest else none

/-- Read a parameter from behind its semicolon, and go on behind it. Blanks may stand before its
name, and a value that is not at the end of the text is not empty. -/
def skipParameter (cs : List Char) : Option (List Char) :=
  let cs := cs.dropWhile (· = ' ')
  let name := cs.takeWhile isTokenChar
  match cs.dropWhile isTokenChar with
  | [] => if name.isEmpty then some [] else none
  | mark :: rest =>
    if mark ≠ '=' ∨ name.isEmpty then none
    else
      match rest with
      | '"' :: quoted =>
        let value := quoted.takeWhile isQuotedChar
        match quoted.dropWhile isQuotedChar with
        | c :: behind => if c = '"' ∧ ¬value.isEmpty then afterQuoted behind else none
        | [] => none
      | _ =>
        let value := rest.takeWhile isTokenChar
        match rest.dropWhile isTokenChar with
        | [] => some []
        | c :: behind => if c = ';' ∧ ¬value.isEmpty then some behind else none

/-- Whether a text is a list of parameters, of at most a given number of characters. -/
def areParameters : Nat → List Char → Bool
  | _, [] => true
  | 0, _ => false
  | bound + 1, cs =>
    match skipParameter cs with
    | some rest => areParameters bound rest
    | none => false

/-- Read a media type. Case does not matter. -/
def parse? (text : String) : Option Essence :=
  let cs := text.toList.map Char.toLower
  let type := cs.takeWhile isTokenChar
  match cs.dropWhile isTokenChar with
  | '/' :: rest =>
    let subtype := rest.takeWhile isTokenChar
    let (front, suffix) := splitSuffix subtype
    let essence : Essence := ⟨type, front, suffix⟩
    if type.isEmpty ∨ subtype.isEmpty then none
    else
      match rest.dropWhile isTokenChar with
      | [] => some essence
      | c :: parameters =>
        if c = ';' ∧ areParameters parameters.length parameters then some essence else none
  | _ => none

/-- Whether a media type is that of JSON, or of a format that is written as JSON. -/
def isJson (text : String) : Bool :=
  match parse? text with
  | some essence => essence.type == "application".toList &&
      (essence.subtype == "json".toList || essence.suffix == some "json".toList)
  | none => false

end RuleBook.MediaType
