import RuleBook.Json.Basic
import RuleBook.Number.Shortest
import RuleBook.Text.Quoted

/-! # JSON texts

The compact text of a value: no blanks, strings with the short escapes of JSON and four
hexadecimal digits for the other controls, every other character as it is.
-/

namespace RuleBook

def JsonNumber.text : JsonNumber → String
  | .int n => toString n.value
  | .float x => x.text

namespace Json

/-- Two hexadecimal digits of a control character. -/
private def twoHexDigits (n : Nat) : String :=
  if n < 16 then "0" ++ Text.hexDigits n else Text.hexDigits n

def escapeChar (c : Char) : String :=
  match c with
  | '\"' => "\\\""
  | '\\' => "\\\\"
  | '\n' => "\\n"
  | '\r' => "\\r"
  | '\t' => "\\t"
  | c =>
    if c.toNat = 8 then "\\b"
    else if c.toNat = 12 then "\\f"
    else if c.toNat < 32 then "\\u00" ++ twoHexDigits c.toNat
    else c.toString

def escape (s : String) : String := "\"" ++ String.join (s.toList.map escapeChar) ++ "\""

mutual

/-- The compact text of a value. -/
def text : Json → String
  | .null => "null"
  | .bool true => "true"
  | .bool false => "false"
  | .number n => n.text
  | .string s => escape s
  | .array items => "[" ++ textItems items ++ "]"
  | .object fields => "\x7b" ++ textFields fields ++ "\x7d"

def textItems : List Json → String
  | [] => ""
  | [item] => item.text
  | item :: rest => item.text ++ "," ++ textItems rest

def textFields : List (String × Json) → String
  | [] => ""
  | [(key, value)] => escape key ++ ":" ++ value.text
  | (key, value) :: rest => escape key ++ ":" ++ value.text ++ "," ++ textFields rest

end

end Json

end RuleBook
