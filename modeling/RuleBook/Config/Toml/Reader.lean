import RuleBook.Config.Toml.Quoted
import RuleBook.Config.Toml.Scalar
import RuleBook.Config.Toml.Table

/-! # Reading TOML

A text is a sequence of statements on lines of their own: keys with values, and headers of tables.
`Toml.read?` gives the fields that they come to, or nothing when a line is malformed or something is
defined twice. Lists and tables within values may be nested 80 deep, and a key may have 80 parts.
-/

namespace RuleBook.Toml

/-- The characters of keys without quotes. -/
def isKeyChar (c : Char) : Bool := c.isAlphanum || c = '_' || c = '-'

def skipBlanks (cs : List Char) : List Char := cs.dropWhile isBlank

/-- Drop blanks, line breaks and comments. -/
def skipLines (inComment : Bool) : List Char → List Char
  | '\n' :: rest => skipLines false rest
  | '\r' :: '\n' :: rest => skipLines false rest
  | c :: rest =>
    if inComment then (if isPlain c then skipLines true rest else c :: rest)
    else if isBlank c then skipLines false rest
    else if c = '#' then skipLines true rest
    else c :: rest
  | [] => []

/-- Go to the end of a line behind a statement: only blanks and a comment may follow. -/
def lineEnd? (cs : List Char) : Option (List Char) :=
  let rest := match skipBlanks cs with
    | '#' :: rest => rest.dropWhile isPlain
    | rest => rest
  match rest with
  | [] => some []
  | '\n' :: rest => some rest
  | '\r' :: '\n' :: rest => some rest
  | _ => none

/-- How deep values may be nested, and how many parts a key may have. -/
def nesting : Nat := 80

/-- Read at most `count` parts of a key, with points between them. -/
def readParts (count : Nat) (cs : List Char) : Option (List String × List Char) :=
  match count with
  | 0 => none
  | count + 1 =>
    let cs := skipBlanks cs
    let bare := cs.takeWhile isKeyChar
    let part? := if bare.isEmpty then readShort? cs else some (bare, cs.drop bare.length)
    part?.bind fun (part, rest) =>
      match skipBlanks rest with
      | '.' :: rest =>
        (readParts count rest).map fun (parts, rest) => (String.ofList part :: parts, rest)
      | rest => some ([String.ofList part], rest)

/-- Read a key, and drop the blanks behind it. -/
def readKey (cs : List Char) : Option (List String × List Char) := readParts nesting cs

mutual

/-- Read a value. `depth` counts the lists and tables that may still be opened, and every call
spends fuel, of which twice the length of the text is enough. -/
def readValue (fuel depth : Nat) (cs : List Char) : Option (Setting × List Char) :=
  match fuel with
  | 0 => none
  | fuel + 1 =>
    match cs with
    | '[' :: rest =>
      if depth = 0 then none
      else (readItems fuel (depth - 1) rest).map fun (items, rest) => (.list items, rest)
    | '{' :: rest =>
      if depth = 0 then none
      else
        (readEntries fuel (depth - 1) [] rest).bind fun (fields, rest) =>
          (Node.table .headed fields).toSetting?.map fun setting => (setting, rest)
    | cs =>
      if cs.head? = some '"' ∨ cs.head? = some '\x27' then
        (readString? cs).map fun (text, rest) => (.text (String.ofList text), rest)
      else
        let (word, rest) := takeScalar cs
        (scalar? word).map fun setting => (setting, rest)

/-- Read the items of a list up to its bracket; a comma may stand behind the last one. -/
def readItems (fuel depth : Nat) (cs : List Char) : Option (List Setting × List Char) :=
  match fuel with
  | 0 => none
  | fuel + 1 =>
    match skipLines false cs with
    | ']' :: rest => some ([], rest)
    | cs =>
      (readValue fuel depth cs).bind fun (item, rest) =>
        match skipLines false rest with
        | ']' :: rest => some ([item], rest)
        | ',' :: rest => (readItems fuel depth rest).map fun (items, rest) => (item :: items, rest)
        | _ => none

/-- Read the entries of a table within a value up to its brace; a comma may stand behind the last
one. -/
def readEntries (fuel depth : Nat) (fields : Fields) (cs : List Char) : Option (Fields × List Char) :=
  match fuel with
  | 0 => none
  | fuel + 1 =>
    match skipLines false cs with
    | '}' :: rest => some (fields, rest)
    | cs =>
      (readEntry fuel depth (skipLines false) cs).bind fun (key, value, rest) =>
        (fields.define value key).bind fun fields =>
          match skipLines false rest with
          | '}' :: rest => some (fields, rest)
          | ',' :: rest => readEntries fuel depth fields rest
          | _ => none

/-- Read a key and its value; `skip` drops what may stand on both sides of the sign between them. -/
def readEntry (fuel depth : Nat) (skip : List Char → List Char) (cs : List Char) :
    Option (List String × Setting × List Char) :=
  match fuel with
  | 0 => none
  | fuel + 1 =>
    (readKey cs).bind fun (key, rest) =>
      match skip rest with
      | '=' :: rest =>
        (readValue fuel depth (skip rest)).map fun (value, rest) => (key, value, rest)
      | _ => none

end

/-- The fields so far, and the path of the table that keys go into. -/
structure Draft where
  root : Fields
  current : List String

def Draft.open? (draft : Draft) (enter : String → Fields → Option Fields) (path : List String) :
    Option Draft :=
  path.getLast?.bind fun name =>
    (draft.root.within (enter name) path.dropLast).map fun root => ⟨root, path⟩

def readStatement (fuel : Nat) (draft : Draft) (cs : List Char) : Option (Draft × List Char) :=
  match cs with
  | '[' :: '[' :: rest =>
    (readKey rest).bind fun (path, rest) =>
      match rest with
      | ']' :: ']' :: rest => (draft.open? Fields.addTable path).map fun draft => (draft, rest)
      | _ => none
  | '[' :: rest =>
    (readKey rest).bind fun (path, rest) =>
      match rest with
      | ']' :: rest => (draft.open? Fields.openTable path).map fun draft => (draft, rest)
      | _ => none
  | cs =>
    (readEntry fuel nesting skipBlanks cs).bind fun (key, value, rest) =>
      (draft.root.within (Fields.define value key) draft.current).map fun root =>
        ({ draft with root }, rest)

def readStatements (valueFuel : Nat) : Nat → Draft → List Char → Option Fields
  | 0, _, _ => none
  | fuel + 1, draft, cs =>
    match skipLines false cs with
    | [] => some draft.root
    | cs =>
      (readStatement valueFuel draft cs).bind fun (draft, rest) =>
        (lineEnd? rest).bind fun rest => readStatements valueFuel fuel draft rest

/-- Read a text; a mark of the byte order at its start is dropped. The text as a whole is a table
and no date. -/
def read? (text : String) : Option (List (String × Setting)) :=
  let cs := match text.toList with
    | '\ufeff' :: rest => rest
    | cs => cs
  let fields? := readStatements (2 * cs.length + 4) (cs.length + 1) ⟨[], []⟩ cs
  (fields?.bind Node.fieldSettings?).filter fun fields => fields.head?.map Prod.fst != some dateName

end RuleBook.Toml
