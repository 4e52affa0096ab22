import RuleBook.Json.Basic

/-! # JSON texts as written

A `Document` keeps what a JSON text holds in the order it was written: repeated keys stay apart,
and the places where the text cannot be read are marked. A value of a known shape is read from a
document without forming the plain value first, so repeated fields are noticed, and fields that
the shape does not know are passed over even where their content is out of range.
-/

namespace RuleBook

/-- A JSON text as written. A container is `closed` unless the text breaks off inside it, and
`unreadable` stands for a value that the text spoils or that is out of range. An object that has
another value in the place of its first key is `stray`, and the text breaks off there. -/
inductive Document where
  | null
  | bool (value : Bool)
  | number (value : JsonNumber)
  | string (value : String)
  | array (items : List Document) (closed : Bool)
  | object (entries : List (String × Document)) (closed : Bool)
  | stray (key : Document)
  | unreadable
deriving Repr, Inhabited

/-- Why a document holds no value of the wanted shape: the text itself cannot be read, or what it
holds has another shape. -/
inductive Fault where
  | unreadable
  | mismatch
deriving DecidableEq, Repr

/-- The outcome of reading a value of some shape; of several faults the one that is met first when
reading along the text. -/
inductive Decoded (α : Type) where
  | ok (value : α)
  | fault (fault : Fault)
deriving DecidableEq, Repr

namespace Decoded

variable {α β : Type}

def map (f : α → β) : Decoded α → Decoded β
  | ok a => ok (f a)
  | fault e => fault e

def andThen (x : Decoded α) (f : α → Decoded β) : Decoded β :=
  match x with
  | ok a => f a
  | fault e => fault e

instance : Monad Decoded where
  pure := ok
  bind := andThen

/-- A value that may be absent because it has the wrong shape. -/
def ofOption : Option α → Decoded α
  | some a => ok a
  | none => fault .mismatch

def toOption : Decoded α → Option α
  | ok a => some a
  | fault _ => none

/-- A fault in what was put aside before it is told apart from the text: the text was readable. -/
def late : Decoded α → Decoded α
  | ok a => ok a
  | fault _ => fault .mismatch

@[simp] theorem pure_eq (a : α) : (pure a : Decoded α) = ok a := rfl

@[simp] theorem bind_ok (a : α) (f : α → Decoded β) : (ok a : Decoded α) >>= f = f a := rfl

@[simp] theorem bind_fault (e : Fault) (f : α → Decoded β) :
    (fault e : Decoded α) >>= f = fault e := rfl

end Decoded

/-- The outcome of reading the fields of a record, which may be read in another order than they are
written. A fault has a place: the number of entries before it. -/
inductive Gathered (α : Type) where
  | ok (value : α)
  | fault (place : Nat) (fault : Fault)
deriving DecidableEq, Repr

namespace Gathered

variable {α β : Type}

def map (f : α → β) : Gathered α → Gathered β
  | ok a => ok (f a)
  | fault place e => fault place e

/-- Combine two parts of a record; of two faults the one written first counts. -/
def apply (f : Gathered (α → β)) (x : Gathered α) : Gathered β :=
  match f, x with
  | ok f, ok a => ok (f a)
  | ok _, fault place e => fault place e
  | fault place e, ok _ => fault place e
  | fault place e, fault other e' => if place ≤ other then fault place e else fault other e'

instance : Applicative Gathered where
  pure := ok
  seq f x := f.apply (x ())
  map f x := x.map f

def andThen (x : Gathered α) (f : α → Gathered β) : Gathered β :=
  match x with
  | ok a => f a
  | fault place e => fault place e

def ofDecoded (place : Nat) : Decoded α → Gathered α
  | .ok a => ok a
  | .fault e => fault place e

@[simp] theorem map_ok (f : α → β) (a : α) : f <$> (ok a : Gathered α) = ok (f a) := rfl

@[simp] theorem map_fault (f : α → β) (place : Nat) (e : Fault) :
    f <$> (fault place e : Gathered α) = fault place e := rfl

@[simp] theorem seq_ok (f : α → β) (a : α) :
    (ok f : Gathered (α → β)) <*> ok a = ok (f a) := rfl

@[simp] theorem pure_eq (a : α) : (pure a : Gathered α) = ok a := rfl

end Gathered

namespace Document

mutual

def ofJson : Json → Document
  | .null => .null
  | .bool b => .bool b
  | .number n => .number n
  | .string s => .string s
  | .array items => .array (ofItems items) true
  | .object fields => .object (ofFields fields) true

def ofItems : List Json → List Document
  | [] => []
  | item :: rest => ofJson item :: ofItems rest

def ofFields : List (String × Json) → List (String × Document)
  | [] => []
  | (key, value) :: rest => (key, ofJson value) :: ofFields rest

end

mutual

/-- The value that a document holds, the last of repeated keys kept. -/
def toJson : Document → Decoded Json
  | .null => .ok .null
  | .bool b => .ok (.bool b)
  | .number n => .ok (.number n)
  | .string s => .ok (.string s)
  | .array items closed =>
    if closed then (toItems items).map .array else .fault .unreadable
  | .object entries closed =>
    if closed then (toFields entries).map .ofFields else .fault .unreadable
  | .stray _ => .fault .unreadable
  | .unreadable => .fault .unreadable

def toItems : List Document → Decoded (List Json)
  | [] => .ok []
  | item :: rest => (toJson item).andThen fun value => (toItems rest).map (value :: ·)

def toFields : List (String × Document) → Decoded (List (String × Json))
  | [] => .ok []
  | (key, value) :: rest =>
    (toJson value).andThen fun value => (toFields rest).map ((key, value) :: ·)

end

end Document

end RuleBook
