import RuleBook.Json.Basic
import RuleBook.Number.Positional
import RuleBook.Number.Range
import RuleBook.Text.Integer

/-! # Settings

Settings come in layers: a later layer goes over the earlier ones, table by table, and every other
value replaces what was there. What is read from a setting is converted if it can be: a text that
writes a number will do for a number, and a number for a text.
-/

namespace RuleBook

/-- A setting: a plain value, a list, or a table whose names are in order. -/
inductive Setting where
  | absent
  | bool (value : Bool)
  | int (value : Int64)
  | float (value : Double)
  | text (value : String)
  | list (items : List Setting)
  | table (fields : List (String × Setting))
deriving Repr, Inhabited

/-- A step into a setting: to a name in a table, or to a place in a list, counted from the end if it
is negative. -/
inductive Place where
  | key (name : String)
  | index (position : Int)
deriving DecidableEq, Repr

namespace Place

def isNameChar (c : Char) : Bool := c.isAlphanum || c = '_' || c = '-'

/-- Read a position between brackets, perhaps with blanks around it. -/
def index? (cs : List Char) : Option Int :=
  let isBlank (c : Char) : Bool := c = ' ' || c = '\t'
  let inner := ((cs.dropWhile isBlank).reverse.dropWhile isBlank).reverse
  match inner with
  | '+' :: _ => none
  | _ => (Text.integer? inner).bind IntRange.signed64.check?

/-- Read places: points before names, and brackets around positions. -/
def parseAll? : List Char → Option (List Place)
  | [] => some []
  | c :: rest =>
    if c = '.' then
      let name := rest.takeWhile isNameChar
      if name.isEmpty then none
      else (parseAll? (rest.dropWhile isNameChar)).map (.key (String.ofList name) :: ·)
    else if c = '[' then
      match index? (rest.takeWhile (· ≠ ']')), parseAll? ((rest.dropWhile (· ≠ ']')).drop 1) with
      | some position, some places =>
        if rest.contains ']' then some (.index position :: places) else none
      | _, _ => none
    else none
termination_by cs => cs.length
decreasing_by
  · have := (List.dropWhile_suffix (l := rest) isNameChar).length_le
    simp only [List.length_cons]
    omega
  · have := (List.dropWhile_suffix (l := rest) (· ≠ ']')).length_le
    simp only [List.length_cons, List.length_drop]
    omega

/-- The path that a text writes; a text that writes none is a name as a whole. -/
def path (text : String) : List Place := (parseAll? ('.' :: text.toList)).getD [.key text]

/-- The position in a list, after the list was made long enough for it. -/
def reach (position : Int) (items : List Setting) : List Setting × Nat :=
  let missing (n : Nat) : List Setting := List.replicate n .absent
  let count := position.natAbs
  if 0 ≤ position then (items ++ missing (count + 1 - items.length), count)
  else if count ≤ items.length then (items, items.length - count)
  else (missing (count - items.length) ++ items, 0)

end Place

namespace Setting

/-- The fields of a table; anything else has none. -/
def fields : Setting → List (String × Setting)
  | table fields => fields
  | _ => []

/-- The items of a list; anything else has none. -/
def items : Setting → List Setting
  | list items => items
  | _ => []

mutual

/-- The setting of a JSON value; a whole number that does not fit 64 bits is rounded. -/
def ofJson : Json → Setting
  | .null => absent
  | .bool value => bool value
  | .number (.int n) =>
    match IntRange.signed64.check? n.value with
    | some value => int (Int64.ofInt value)
    | none => float (Double.ofInt n.value)
  | .number (.float x) => float x
  | .string value => text value
  | .array items => list (ofJsonItems items)
  | .object fields => table (ofJsonFields fields)

def ofJsonItems : List Json → List Setting
  | [] => []
  | item :: rest => ofJson item :: ofJsonItems rest

/-- The settings of the fields of a JSON object. -/
def ofJsonFields : List (String × Json) → List (String × Setting)
  | [] => []
  | (name, value) :: rest => (name, ofJson value) :: ofJsonFields rest

end

def layerOfJson? (value : Json) : Option (List (String × Setting)) := value.fields?.map ofJsonFields

/-- Edit what is at a path. What is on the way and cannot be stepped into is given up. -/
def edit (change : Setting → Setting) : List Place → Setting → Setting
  | [], setting => change setting
  | .key name :: rest, setting =>
    let fields := setting.fields
    table (Json.insertField name (edit change rest ((fields.lookup name).getD absent)) fields)
  | .index position :: rest, setting =>
    let (items, place) := Place.reach position setting.items
    list (items.set place (edit change rest (items[place]?.getD absent)))

mutual

/-- Lay a setting over another one. -/
def covering : Setting → Setting → Setting
  | table fields, below => table (fieldsCovering fields below.fields)
  | setting, _ => setting

/-- Lay the fields of a table over those of another one. -/
def fieldsCovering : List (String × Setting) → List (String × Setting) → List (String × Setting)
  | [], below => below
  | (name, setting) :: rest, below =>
    fieldsCovering rest (Json.insertField name (setting.covering ((below.lookup name).getD absent)) below)

end

/-- Lay a layer over a setting; the names of its settings write paths. -/
def addLayer (setting : Setting) (layer : List (String × Setting)) : Setting :=
  layer.foldl (fun below (name, value) => below.edit value.covering (Place.path name)) setting

/-- The setting that layers come to, the latest one last. -/
def ofLayers (layers : List (List (String × Setting))) : Setting :=
  layers.foldl addLayer (table [])

/-- The words for yes and no, in any case. -/
def wordBool? (text : String) : Option Bool :=
  let word := text.map Char.toLower
  if ["true", "on", "yes"].contains word then some true
  else if ["false", "off", "no"].contains word then some false
  else none

/-- A truth value; a number is true unless it is zero. -/
def toBool? : Setting → Option Bool
  | bool value => some value
  | int value => some (value != 0)
  | float value => some !value.isZero
  | text value =>
    if value = "1" then some true else if value = "0" then some false else wordBool? value
  | _ => none

/-- A number of 64 bits that is not negative; of a fraction the nearest one. -/
def toUInt64? : Setting → Option UInt64
  | bool value => some value.toUInt64
  | int value => if 0 ≤ value then some value.toUInt64 else none
  | float value => some value.toUInt64Rounded
  | text value =>
    match wordBool? value with
    | some word => some word.toUInt64
    | none =>
      ((Text.natural? value.toList).bind fun n =>
        IntRange.unsigned64.check? n).map fun n => UInt64.ofNat n.toNat
  | _ => none

/-- A number of 32 bits: one of 64 that is not too large for it. -/
def toUInt32? (setting : Setting) : Option UInt32 :=
  (setting.toUInt64?.bind fun n => IntRange.unsigned32.check? n.toNat).map UInt32.ofInt

/-- A number of 16 bits: one of 64 that is not too large for it. -/
def toUInt16? (setting : Setting) : Option UInt16 :=
  (setting.toUInt64?.bind fun n => IntRange.unsigned16.check? n.toNat).map UInt16.ofInt

/-- A text; plain values are written out. -/
def toText? : Setting → Option String
  | text value => some value
  | bool value => some (if value then "true" else "false")
  | int value => some (toString value.toInt)
  | float value => some value.positionalText
  | _ => none

/-- The fields of a record: a table, or a list of its fields in their declared order. -/
def record? (names : List String) : Setting → Option (List (String × Setting))
  | table fields => some fields
  | list items => some (names.zip items)
  | _ => none

end Setting

end RuleBook
