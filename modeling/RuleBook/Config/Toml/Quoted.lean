import RuleBook.Json.Reader

/-! # Strings in TOML

Basic strings have escapes, literal strings have none. A long string, between three quotes on each
side, may hold line breaks, which stay as they are written, and up to two quotes next to its end; a
line break right after its beginning is dropped, and so is all the blank space behind a backslash at
the end of a line.
-/

namespace RuleBook.Toml

def isBlank (c : Char) : Bool := c = ' ' || c = '\t'

/-- The characters of comments and strings: no control characters but tabs. -/
def isPlain (c : Char) : Bool := c = '\t' || (32 ≤ c.toNat && c.toNat ≠ 127)

/-- The character that a backslash and a letter stand for. -/
def escaped? (c : Char) : Option Char :=
  match c with
  | 'b' => some (Char.ofNat 8)
  | 't' => some '\t'
  | 'n' => some '\n'
  | 'f' => some (Char.ofNat 12)
  | 'r' => some '\r'
  | 'e' => some (Char.ofNat 27)
  | '"' => some '"'
  | '\\' => some '\\'
  | _ => none

/-- The character with a number, if there is one. -/
def charOf? (n : Nat) : Option Char := if n.isValidChar then some (Char.ofNat n) else none

/-- The character with a number of two hexadecimal digits. -/
def byteCode? (a b : Char) : Option Char := (Document.hexUnit? '0' '0' a b).bind charOf?

/-- The character with a number of four hexadecimal digits. -/
def shortCode? (a b c d : Char) : Option Char := (Document.hexUnit? a b c d).bind charOf?

/-- The character with a number of eight hexadecimal digits. -/
def longCode? (a b c d e f g h : Char) : Option Char :=
  match Document.hexUnit? a b c d, Document.hexUnit? e f g h with
  | some high, some low => charOf? (high * 0x10000 + low)
  | _, _ => none

/-- Put a character, if there is one, before what was read after it. -/
def before (c? : Option Char) (read : Option (List Char × List Char)) :
    Option (List Char × List Char) :=
  match c?, read with
  | some c, some (cs, rest) => some (c :: cs, rest)
  | _, _ => none

/-- Read a basic string behind its quote. -/
def readBasic : List Char → Option (List Char × List Char)
  | '"' :: rest => some ([], rest)
  | '\\' :: 'x' :: a :: b :: rest => before (byteCode? a b) (readBasic rest)
  | '\\' :: 'u' :: a :: b :: c :: d :: rest => before (shortCode? a b c d) (readBasic rest)
  | '\\' :: 'U' :: a :: b :: c :: d :: e :: f :: g :: h :: rest =>
    before (longCode? a b c d e f g h) (readBasic rest)
  | '\\' :: c :: rest => before (escaped? c) (readBasic rest)
  | c :: rest => if isPlain c then before (some c) (readBasic rest) else none
  | [] => none

/-- Read a literal string behind its quote. -/
def readLiteral : List Char → Option (List Char × List Char)
  | '\x27' :: rest => some ([], rest)
  | c :: rest => if isPlain c then before (some c) (readLiteral rest) else none
  | [] => none

/-- How the text of a long string goes on. -/
inductive Continuation where
  | text
  | gap (broken : Bool)

/-- Read a long basic string. In a gap blank space is dropped, and the gap may end behind a line
break only. -/
def readLongBasic : Continuation → List Char → Option (List Char × List Char)
  | .gap _, '\n' :: rest => readLongBasic (.gap true) rest
  | .gap _, '\r' :: '\n' :: rest => readLongBasic (.gap true) rest
  | .gap broken, ' ' :: rest => readLongBasic (.gap broken) rest
  | .gap broken, '\t' :: rest => readLongBasic (.gap broken) rest
  | .gap false, _ => none
  | _, '"' :: '"' :: '"' :: '"' :: '"' :: rest => some (['"', '"'], rest)
  | _, '"' :: '"' :: '"' :: '"' :: rest => some (['"'], rest)
  | _, '"' :: '"' :: '"' :: rest => some ([], rest)
  | _, '\\' :: 'x' :: a :: b :: rest => before (byteCode? a b) (readLongBasic .text rest)
  | _, '\\' :: 'u' :: a :: b :: c :: d :: rest =>
    before (shortCode? a b c d) (readLongBasic .text rest)
  | _, '\\' :: 'U' :: a :: b :: c :: d :: e :: f :: g :: h :: rest =>
    before (longCode? a b c d e f g h) (readLongBasic .text rest)
  | _, '\\' :: '\n' :: rest => readLongBasic (.gap true) rest
  | _, '\\' :: '\r' :: '\n' :: rest => readLongBasic (.gap true) rest
  | _, '\\' :: c :: rest =>
    if isBlank c then readLongBasic (.gap false) rest
    else before (escaped? c) (readLongBasic .text rest)
  | _, '\r' :: '\n' :: rest =>
    before (some '\r') (before (some '\n') (readLongBasic .text rest))
  | _, c :: rest =>
    if isPlain c || c = '\n' then before (some c) (readLongBasic .text rest) else none
  | _, [] => none

def readLongLiteral : List Char → Option (List Char × List Char)
  | '\x27' :: '\x27' :: '\x27' :: '\x27' :: '\x27' :: rest => some (['\x27', '\x27'], rest)
  | '\x27' :: '\x27' :: '\x27' :: '\x27' :: rest => some (['\x27'], rest)
  | '\x27' :: '\x27' :: '\x27' :: rest => some ([], rest)
  | '\r' :: '\n' :: rest => before (some '\r') (before (some '\n') (readLongLiteral rest))
  | c :: rest => if isPlain c || c = '\n' then before (some c) (readLongLiteral rest) else none
  | [] => none

def dropBreak : List Char → List Char
  | '\n' :: rest => rest
  | '\r' :: '\n' :: rest => rest
  | cs => cs

/-- Read a string on one line, if there is one. -/
def readShort? (cs : List Char) : Option (List Char × List Char) :=
  match cs with
  | '"' :: rest => readBasic rest
  | '\x27' :: rest => readLiteral rest
  | _ => none

/-- Read a string of any kind, if there is one. -/
def readString? (cs : List Char) : Option (List Char × List Char) :=
  match cs with
  | '"' :: '"' :: '"' :: rest => readLongBasic .text (dropBreak rest)
  | '\x27' :: '\x27' :: '\x27' :: rest => readLongLiteral (dropBreak rest)
  | cs => readShort? cs

end RuleBook.Toml
