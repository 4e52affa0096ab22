import RuleBook.Config.Setting
import RuleBook.Config.Toml.Scalar

/-! # Tables in TOML

A table comes into being by its header, by the header of a table inside of it, or by a key with
points, and each of these says what may be added later: nothing is defined twice, a header may take
over what only headers of inner tables made, and keys with points may go on with what had no header
of its own, which no header can take over any more. One name is reserved: a table that starts with
it stands for a date.
-/

namespace RuleBook.Toml

/-- How a table came into being. -/
inductive Origin where
  | implied
  | headed
  | pointed
deriving DecidableEq, Repr

/-- What a name stands for: a value, a table, or a list of tables made by headers. -/
inductive Node where
  | value (setting : Setting)
  | table (origin : Origin) (fields : List (String × Node))
  | tables (items : List Node)

abbrev Fields := List (String × Node)

namespace Fields

/-- Put a value under a key with points. The way may lead through the last one of a list of tables,
but not end in it. -/
def define (value : Setting) : List String → Fields → Option Fields
  | [], _ => none
  | [name], fields =>
    if (fields.lookup name).isSome then none else some (Json.insertField name (.value value) fields)
  | name :: rest, fields =>
    let keep (node : Node) : Fields := Json.insertField name node fields
    match fields.lookup name with
    | none => (define value rest []).map fun inner => keep (.table .pointed inner)
    | some (.table origin inner) =>
      if origin = .headed then none
      else (define value rest inner).map fun inner => keep (.table .pointed inner)
    | some (.tables items) =>
      match items.getLast? with
      | some (.table origin inner) =>
        if rest.length ≤ 1 then none
        else
          (define value rest inner).map fun inner =>
            keep (.tables (items.dropLast ++ [.table origin inner]))
      | _ => none
    | some (.value _) => none

/-- Edit the table at a path of headers; the last one of a list of tables counts. -/
def within (edit : Fields → Option Fields) : List String → Fields → Option Fields
  | [], fields => edit fields
  | name :: rest, fields =>
    let keep (node : Node) : Fields := Json.insertField name node fields
    match fields.lookup name with
    | none => (within edit rest []).map fun inner => keep (.table .implied inner)
    | some (.table origin inner) =>
      (within edit rest inner).map fun inner => keep (.table origin inner)
    | some (.tables items) =>
      match items.getLast? with
      | some (.table origin inner) =>
        (within edit rest inner).map fun inner =>
          keep (.tables (items.dropLast ++ [.table origin inner]))
      | _ => none
    | some (.value _) => none

def openTable (name : String) (fields : Fields) : Option Fields :=
  match fields.lookup name with
  | none => some (Json.insertField name (.table .headed []) fields)
  | some (.table .implied inner) => some (Json.insertField name (.table .headed inner) fields)
  | some _ => none

def addTable (name : String) (fields : Fields) : Option Fields :=
  match fields.lookup name with
  | none => some (Json.insertField name (.tables [.table .headed []]) fields)
  | some (.tables items) =>
    some (Json.insertField name (.tables (items ++ [.table .headed []])) fields)
  | some _ => none

end Fields

/-- The reserved name. -/
def dateName : String := "$__toml_private_datetime"

/-- The setting that a table stands for. Its names are in order; if the first one is the reserved
name, it stands for the date or time of day that the text behind that name writes. -/
def tableSetting? : List (String × Setting) → Option Setting
  | (name, setting) :: rest =>
    if name = dateName then
      match setting with
      | .text text => (dateTime? text.toList).map .text
      | _ => none
    else some (.table ((name, setting) :: rest))
  | [] => some (.table [])

namespace Node

mutual

def toSetting? : Node → Option Setting
  | value setting => some setting
  | table _ fields => (fieldSettings? fields).bind tableSetting?
  | tables items => (itemSettings? items).map .list

def fieldSettings? : List (String × Node) → Option (List (String × Setting))
  | [] => some []
  | (name, node) :: rest =>
    match node.toSetting?, fieldSettings? rest with
    | some setting, some settings => some ((name, setting) :: settings)
    | _, _ => none

def itemSettings? : List Node → Option (List Setting)
  | [] => some []
  | node :: rest =>
    match node.toSetting?, itemSettings? rest with
    | some setting, some settings => some (setting :: settings)
    | _, _ => none

end

end Node

end RuleBook.Toml
