import RuleBook.Json.Document
import RuleBook.Number.Range

/-! # Reading shapes from documents

A decoder reads a value of one shape. Records are objects whose unknown keys are passed over and
whose known keys occur at most once, or arrays of the fields in their declared order. A field is
required, optional (`null` or left out), or has a default when it is left out. Of several faults the
one that is written first is reported; that a field is missing shows at the end of its record.
-/

namespace RuleBook

/-- How a document is held when it is read: as it came, or put aside until the variant of its record
was known. What was put aside is read less strictly where a variant is named. -/
inductive Held where
  | asWritten
  | aside
deriving DecidableEq, Repr

/-- Reads a value of one shape from a document. -/
abbrev Decoder (α : Type) := Held → Document → Decoded α

namespace Decoder

variable {α β : Type}

def json : Decoder Json := fun _ => Document.toJson

def bool : Decoder Bool
  | _, .bool b => .ok b
  | _, .unreadable => .fault .unreadable
  | _, _ => .fault .mismatch

def text : Decoder String
  | _, .string s => .ok s
  | _, .unreadable => .fault .unreadable
  | _, _ => .fault .mismatch

def int (range : IntRange) : Decoder Int
  | _, .number (.int n) => .ofOption (range.check? n.value)
  | _, .unreadable => .fault .unreadable
  | _, _ => .fault .mismatch

def map (f : α → β) (decode : Decoder α) : Decoder β :=
  fun held document => (decode held document).map f

/-- The value, if it satisfies a test. -/
def filterMap (decode : Decoder α) (f : α → Option β) : Decoder β :=
  fun held document => (decode held document).andThen fun a => .ofOption (f a)

def int64 : Decoder Int64 := (int .signed64).map Int64.ofInt

def int32 : Decoder Int32 := (int .signed32).map Int32.ofInt

def uint32 : Decoder UInt32 := (int .unsigned32).map UInt32.ofInt

def uint16 : Decoder UInt16 := (int .unsigned16).map UInt16.ofInt

def uint64 : Decoder UInt64 := (int .unsigned64).map UInt64.ofInt

def each (decode : Document → Decoded α) : List Document → Decoded (List α)
  | [] => .ok []
  | item :: rest => (decode item).andThen fun a => (each decode rest).map (a :: ·)

/-- What was read from a container, unless the text breaks off inside it. -/
def close (closed : Bool) (read : Decoded α) : Decoded α :=
  read.andThen fun a => if closed then .ok a else .fault .unreadable

def list (decode : Decoder α) : Decoder (List α)
  | held, .array items closed => close closed (each (decode held) items)
  | _, .unreadable => .fault .unreadable
  | _, _ => .fault .mismatch

/-- Read the fields of an object with plain values. -/
def fields : Decoder (List (String × Json))
  | _, .object entries closed =>
    (Document.toJson (.object entries closed)).andThen fun value => .ofOption value.fields?
  | _, .stray _ => .fault .unreadable
  | _, .unreadable => .fault .unreadable
  | _, _ => .fault .mismatch

def nullable (decode : Decoder α) : Decoder (Option α)
  | _, .null => .ok none
  | held, document => (decode held document).map some

/-- Read that there is nothing: `null`, or in what was put aside an object without entries. -/
def nothing : Decoder Unit
  | _, .null => .ok ()
  | .aside, .object [] true => .ok ()
  | _, .unreadable => .fault .unreadable
  | _, _ => .fault .mismatch

/-- Read one of the values that have a name: the name itself, or an object whose only key is the
name and whose value is nothing. Where neither a text nor an object stands nothing is read. -/
def named (ofName? : String → Option α) : Decoder α
  | _, .string name => .ofOption (ofName? name)
  | held, .object ((name, value) :: rest) closed =>
    (Decoded.ofOption (ofName? name)).andThen fun a =>
      (nothing held value).andThen fun () =>
        if rest.isEmpty && closed then .ok a else .fault .unreadable
  | held, .stray key => (text held key).andThen fun _ => .fault .unreadable
  | _, _ => .fault .unreadable

end Decoder

/-- The entries of a record, each with its place: by key, or by position in the declared order. -/
structure Entries where
  entries : List (String × Nat × Document)
  positional : Bool
  count : Nat
  held : Held

namespace Entries

variable {α : Type}

/-- The place and the content of a field. -/
def find? (record : Entries) (key : String) : Option (Nat × Document) := record.entries.lookup key

def required (record : Entries) (key : String) (decode : Decoder α) : Gathered α :=
  match record.find? key with
  | some (place, document) => .ofDecoded place (decode record.held document)
  | none => .fault record.count .mismatch

/-- A field that takes a default when it is left out. -/
def default (record : Entries) (key : String) (decode : Decoder α) (value : α) : Gathered α :=
  match record.find? key with
  | some (place, document) => .ofDecoded place (decode record.held document)
  | none => .ok value

/-- A field that may be `null` or left out; in an array it may not be left out. -/
def optional (record : Entries) (key : String) (decode : Decoder α) : Gathered (Option α) :=
  if record.positional then record.required key (.nullable decode)
  else record.default key (.nullable decode) none

/-- A field that stands before another one is put aside, for which it has to be readable. -/
def putAside (record : Entries) (key other : String) : Gathered Unit :=
  match record.find? key, record.find? other with
  | some (place, document), some (place', _) =>
    if place < place' then .map (fun _ => ()) (.ofDecoded place document.toJson) else .ok ()
  | some (place, document), none => .map (fun _ => ()) (.ofDecoded place document.toJson)
  | none, _ => .ok ()

end Entries

namespace Decoder

variable {α : Type}

/-- The place of the first entry whose key stands before it too. -/
def repetition? (entries : List (String × Nat × Document)) : Option Nat :=
  match entries with
  | [] => none
  | (key, _, _) :: rest =>
    match (rest.lookup key).map Prod.fst, repetition? rest with
    | some place, some other => some (min place other)
    | some place, none => some place
    | none, other => other

/-- What was gathered from `count` entries: the fault that is written first, if there is one. -/
def finish (count : Nat) (closed : Bool) : Gathered α → Decoded α
  | .ok a => if closed then .ok a else .fault .unreadable
  | .fault place e => if place < count ∨ closed then .fault e else .fault .unreadable

/-- Read a record from the entries of an object: no known key may occur twice. -/
def recordEntries (names : List String) (held : Held) (entries : List (String × Document))
    (closed : Bool) (read : Entries → Gathered α) : Decoded α :=
  let placed := entries.zipIdx.map fun ((key, document), place) => (key, place, document)
  let known := placed.filter fun entry => names.contains entry.1
  let unique : Gathered Unit := match repetition? known with
    | some place => .fault place .mismatch
    | none => .ok ()
  finish entries.length closed
    ((fun () a => a) <$> unique <*> read ⟨known, false, entries.length, held⟩)

/-- Read a record from the items of an array: at most one for each declared name. -/
def recordItems (names : List String) (held : Held) (items : List Document) (closed : Bool)
    (read : Entries → Gathered α) : Decoded α :=
  let placed := (names.zip items).zipIdx.map fun ((key, document), place) => (key, place, document)
  finish items.length (closed && items.length ≤ names.length)
    (read ⟨placed, true, items.length, held⟩)

/-- Read a record with the given names, in their declared order. -/
def record (names : List String) (read : Entries → Gathered α) : Decoder α
  | held, .object entries closed => recordEntries names held entries closed read
  | held, .array items closed => recordItems names held items closed read
  | _, .stray _ => .fault .unreadable
  | _, .unreadable => .fault .unreadable
  | _, _ => .fault .mismatch

/-- Look for the tag among entries; the others only have to be readable. -/
def findTag {τ : Type} (tag : String) (ofName? : String → Option τ) :
    Option τ → List (String × Document) → Decoded (Option τ)
  | found, [] => .ok found
  | found, (key, value) :: rest =>
    if key = tag then
      if found.isSome then .fault .mismatch
      else (filterMap text ofName? .asWritten value).andThen fun kind =>
        findTag tag ofName? (some kind) rest
    else value.toJson.andThen fun _ => findTag tag ofName? found rest

/-- Read a record whose variant is named by a field next to the others: the only entry with the
key `tag`, or the first item of an array. What remains is put aside for the variant. -/
def tagged {τ : Type} (tag : String) (ofName? : String → Option τ)
    (variant : τ → Decoder α) : Decoder α
  | _, .object entries closed =>
    (close closed (findTag tag ofName? none entries)).andThen fun
      | some kind => (variant kind .aside (.object (entries.filter (·.1 != tag)) true)).late
      | none => .fault .mismatch
  | _, .array (name :: rest) closed =>
    (filterMap text ofName? .asWritten name).andThen fun kind =>
      (Document.toJson (.array rest closed)).andThen fun _ =>
        (variant kind .aside (.array rest true)).late
  | _, .array [] closed => .fault (if closed then .mismatch else .unreadable)
  | _, .stray _ => .fault .unreadable
  | _, .unreadable => .fault .unreadable
  | _, _ => .fault .mismatch

/-- Read the name of a variant in an array: a text, or in what was put aside a position among the
variants. -/
def label {τ : Type} (ofName? : String → Option τ) (all : List τ) : Decoder τ
  | .aside, .number (.int n) => .ofOption (if n.value < 0 then none else all[n.value.toNat]?)
  | held, document => filterMap text ofName? held document

/-- Read a variant from a record of two fields, its name and its content. -/
def labelled {τ : Type} (names : String × String) (ofName? : String → Option τ) (all : List τ)
    (variant : τ → Decoder α) : Decoder α :=
  record [names.1, names.2] fun entries =>
    let kind := if entries.positional then label ofName? all else named ofName?
    (entries.putAside names.2 names.1).andThen fun () =>
      (entries.required names.1 kind).andThen fun kind => entries.required names.2 (variant kind)

/-- A variant without fields: any object, or an array without items. -/
def noFields (value : α) : Decoder α
  | _, .object _ _ => .ok value
  | _, .array [] _ => .ok value
  | _, _ => .fault .mismatch

/-- Read a value that is there as a whole. -/
def ofJson? (decode : Decoder α) (value : Json) : Option α :=
  (decode .asWritten (.ofJson value)).toOption

end Decoder

end RuleBook
