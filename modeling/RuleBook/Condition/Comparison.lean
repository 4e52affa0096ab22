import RuleBook.Condition.Operator
import RuleBook.Number.Range

/-! # Comparing values

Amounts of money compare by their value, whatever their scales. Integers compare exactly; only an
integer with a floating-point number compares as two of the latter. Texts compare by code points.
Operands without an order are a type mismatch, which leaves a condition undecided.
-/

namespace RuleBook

def Json.typeName : Json → String
  | .null => "null"
  | .bool _ => "boolean"
  | .number _ => "number"
  | .string _ => "string"
  | .array _ => "array"
  | .object fields => if (fields.lookup "currency").isSome then "money" else "object"

namespace JsonNumber

/-- The signed number of 64 bits that a number is, if it is one. -/
def int64? : JsonNumber → Option Int64
  | .int n => (IntRange.signed64.check? n.value).map Int64.ofInt
  | .float _ => none

/-- The unsigned number of 64 bits that a number is, if it is one. -/
def uint64? : JsonNumber → Option UInt64
  | .int n => (IntRange.unsigned64.check? n.value).map (UInt64.ofNat ·.toNat)
  | .float _ => none

/-- A number as a floating-point number, rounded if need be. -/
def toDouble : JsonNumber → Double
  | .int n => .ofInt n.value
  | .float x => x

/-- The order of two numbers. Two integers that are neither both signed nor both unsigned numbers
of 64 bits are a negative one and one above the signed numbers. -/
def order (x y : JsonNumber) : Ordering :=
  match x.int64?, y.int64? with
  | some a, some b => Ord.compare a b
  | _, _ =>
    match x.uint64?, y.uint64? with
    | some a, some b => Ord.compare a b
    | _, _ =>
      if x.uint64?.isSome && y.int64?.isSome then .gt
      else if x.int64?.isSome && y.uint64?.isSome then .lt
      else x.toDouble.order y.toDouble

end JsonNumber

namespace Comparison

def amountOrder (a b : Money) : Except RuleError Ordering := RuleError.ofMoney (a.compare b)

/-- The order of two values that are not both amounts. -/
def plainOrder : Json → Json → Except RuleError Ordering
  | .number x, .number y => .ok (x.order y)
  | .string x, .string y => .ok (Ord.compare x y)
  | lhs, rhs => .error (.typeMismatch lhs.typeName rhs.typeName)

/-- Equality of two values that are not both amounts. -/
def plainEqual : Json → Json → Bool
  | .number x, .number y => x.order y == .eq
  | lhs, rhs => lhs.same rhs

def order (lhs rhs : Json) : Except RuleError Ordering :=
  match Money.ofJson? lhs, Money.ofJson? rhs with
  | some a, some b => amountOrder a b
  | _, _ => plainOrder lhs rhs

def equal (lhs rhs : Json) : Except RuleError Bool :=
  match Money.ofJson? lhs, Money.ofJson? rhs with
  | some a, some b => (amountOrder a b).map (· == .eq)
  | _, _ => .ok (plainEqual lhs rhs)

/-- Whether a list holds a value; an item that cannot be compared with it does not count. -/
def memberOf (value : Json) (items : List Json) : Bool :=
  items.any fun item =>
    match equal value item with
    | .ok same => same
    | .error _ => false

def holds (lhs : Json) (operator : ComparisonOperator) (rhs : Json) : Except RuleError Bool :=
  match operator with
  | .eq => equal lhs rhs
  | .ne => (equal lhs rhs).map (!·)
  | .gt => (order lhs rhs).map (· == .gt)
  | .gte => (order lhs rhs).map (· != .lt)
  | .lt => (order lhs rhs).map (· == .lt)
  | .lte => (order lhs rhs).map (· != .gt)
  | .isIn =>
    match rhs with
    | .array items => .ok (memberOf lhs items)
    | _ => .error (.typeMismatch "array" rhs.typeName)

end Comparison

end RuleBook
