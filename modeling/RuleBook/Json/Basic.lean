import RuleBook.Number.Double

/-! # JSON values

Numbers written without fraction and exponent are integers of 64 bits, signed or unsigned; all
others are floating-point numbers, and `1` is not `1.0`. The fields of an object are kept in the
order of their keys, each key once: `Json.ofFields` builds such an object, and `Json.WellFormed`
says that every object in a value is built so.
-/

namespace RuleBook

/-- An integer that fits 64 bits, signed or unsigned. -/
structure JsonInt where
  value : Int
  least_le : -0x8000000000000000 ≤ value
  lt_bound : value < 0x10000000000000000
deriving DecidableEq, Repr

namespace JsonInt

def ofInt? (n : Int) : Option JsonInt :=
  if h : -0x8000000000000000 ≤ n ∧ n < 0x10000000000000000 then some ⟨n, h.1, h.2⟩ else none

def ofInt64 (n : Int64) : JsonInt :=
  ⟨n.toInt, n.le_toInt, by have := n.toInt_lt; omega⟩

def ofUInt64 (n : UInt64) : JsonInt :=
  ⟨n.toNat, by omega, by have := n.toNat_lt; omega⟩

def ofUInt32 (n : UInt32) : JsonInt :=
  ⟨n.toNat, by omega, by have := n.toNat_lt; omega⟩

def ofInt32 (n : Int32) : JsonInt :=
  ⟨n.toInt, by have := n.le_toInt; omega, by have := n.toInt_lt; omega⟩

end JsonInt

/-- A JSON number. -/
inductive JsonNumber where
  | int (value : JsonInt)
  | float (value : Double)
deriving DecidableEq, Repr

/-- A JSON value. -/
inductive Json where
  | null
  | bool (value : Bool)
  | number (value : JsonNumber)
  | string (value : String)
  | array (items : List Json)
  | object (fields : List (String × Json))
deriving Repr, Inhabited

namespace Json

/-- Put a field into fields in key order; a field with that key is replaced. -/
def insertField {α : Type} (key : String) (value : α) : List (String × α) → List (String × α)
  | [] => [(key, value)]
  | (other, held) :: rest =>
    if key < other then (key, value) :: (other, held) :: rest
    else if key = other then (key, value) :: rest
    else (other, held) :: insertField key value rest

/-- Fields in key order; of several with one key the last is kept. -/
def sortFields {α : Type} (fields : List (String × α)) : List (String × α) :=
  fields.foldl (fun sorted (key, value) => insertField key value sorted) []

def ofFields (fields : List (String × Json)) : Json := .object (sortFields fields)

def fields? : Json → Option (List (String × Json))
  | .object fields => some fields
  | _ => none

/-- The field of an object with a given key. -/
def field? (value : Json) (key : String) : Option Json := value.fields?.bind (·.lookup key)

def string? : Json → Option String
  | .string text => some text
  | _ => none

def array? : Json → Option (List Json)
  | .array items => some items
  | _ => none

/-- A signed number of 64 bits as a JSON number. -/
def ofInt64 (n : Int64) : Json := .number (.int (.ofInt64 n))

/-- A number of 32 bits as a JSON number. -/
def ofUInt32 (n : UInt32) : Json := .number (.int (.ofUInt32 n))

/-- A signed number of 32 bits as a JSON number. -/
def ofInt32 (n : Int32) : Json := .number (.int (.ofInt32 n))

/-- A count as a JSON number, modulo `2 ^ 64`. -/
def ofNat (n : Nat) : Json := .number (.int (.ofUInt64 (UInt64.ofNat n)))

def ofStrings (texts : List String) : Json := .array (texts.map .string)

/-- An optional value, `null` when there is none. -/
def ofOption {α : Type} (encode : α → Json) : Option α → Json
  | some value => encode value
  | none => .null

end Json

/-- Equality of numbers: integers by value, floating-point numbers by value, and never an integer
with a floating-point number. -/
def JsonNumber.same : JsonNumber → JsonNumber → Bool
  | .int x, .int y => x.value == y.value
  | .float x, .float y => x.same y
  | _, _ => false

namespace Json

mutual

/-- Equality of values; it differs from `=` on the two floating-point zeros alone. -/
def same : Json → Json → Bool
  | .null, .null => true
  | .bool x, .bool y => x == y
  | .number x, .number y => x.same y
  | .string x, .string y => x == y
  | .array xs, .array ys => sameItems xs ys
  | .object xs, .object ys => sameFields xs ys
  | _, _ => false

def sameItems : List Json → List Json → Bool
  | [], [] => true
  | x :: xs, y :: ys => x.same y && sameItems xs ys
  | _, _ => false

def sameFields : List (String × Json) → List (String × Json) → Bool
  | [], [] => true
  | (key, x) :: xs, (other, y) :: ys => key == other && x.same y && sameFields xs ys
  | _, _ => false

end

mutual

/-- Every object in the value has its keys in strictly increasing order. -/
def WellFormed : Json → Prop
  | .array items => WellFormedItems items
  | .object fields =>
    (fields.map Prod.fst).Pairwise (· < ·) ∧ WellFormedFields fields
  | _ => True

/-- Every value of a list is well-formed. -/
def WellFormedItems : List Json → Prop
  | [] => True
  | item :: rest => item.WellFormed ∧ WellFormedItems rest

/-- The value of every field is well-formed. -/
def WellFormedFields : List (String × Json) → Prop
  | [] => True
  | (_, value) :: rest => value.WellFormed ∧ WellFormedFields rest

end

end Json

end RuleBook
