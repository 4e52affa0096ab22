/-! # Ranges of fixed-width integers

Arithmetic on amounts is exact and then checked against the range that its result must fit.
A range is a pair of bounds; `check?` keeps a number inside it and refuses every other.
-/

namespace RuleBook

/-- The integers from `least` to `greatest`, both included. -/
structure IntRange where
  least : Int
  greatest : Int
deriving DecidableEq, Repr

namespace IntRange

def signed64 : IntRange := ⟨-0x8000000000000000, 0x7fffffffffffffff⟩

def signed128 : IntRange :=
  ⟨-0x80000000000000000000000000000000, 0x7fffffffffffffffffffffffffffffff⟩

def signed32 : IntRange := ⟨-0x80000000, 0x7fffffff⟩

def unsigned32 : IntRange := ⟨0, 0xffffffff⟩

def unsigned16 : IntRange := ⟨0, 0xffff⟩

def unsigned64 : IntRange := ⟨0, 0xffffffffffffffff⟩

/-- A number lies in a range when it is between the bounds. -/
def Holds (range : IntRange) (n : Int) : Prop := range.least ≤ n ∧ n ≤ range.greatest

instance (range : IntRange) (n : Int) : Decidable (range.Holds n) :=
  inferInstanceAs (Decidable (_ ∧ _))

/-- Keep a number that the range holds. -/
def check? (range : IntRange) (n : Int) : Option Int :=
  if range.Holds n then some n else none

theorem check?_eq_some_iff {range : IntRange} {n m : Int} :
    range.check? n = some m ↔ range.Holds n ∧ m = n := by
  simp only [check?]
  split <;> simp_all [eq_comm]

theorem check?_eq_none_iff {range : IntRange} {n : Int} :
    range.check? n = none ↔ ¬ range.Holds n := by
  simp [check?]

/-- The number of a range that stands for an integer in arithmetic that wraps around: the two differ
by a multiple of the size of the range. -/
def wrap (range : IntRange) (n : Int) : Int :=
  (n - range.least) % (range.greatest - range.least + 1) + range.least

private theorem wrap_of_holds {range : IntRange} {n : Int} (holds : range.Holds n) :
    range.wrap n = n := by
  obtain ⟨least, greatest⟩ := holds
  rw [wrap, Int.emod_eq_of_lt (by omega) (by omega)]
  omega

/-- The power `base ^ exponent`, if it fits 128 bits. An exponent of 127 or more is out of range
for every base but zero and one, so the power is never formed for it. -/
def power128? (base exponent : Nat) : Option Int :=
  match base with
  | 0 => some (if exponent = 0 then 1 else 0)
  | 1 => some 1
  | base => if exponent < 127 then signed128.check? (Nat.pow base exponent) else none

end IntRange

/-- How the program is built: where arithmetic leaves its range and no step asks whether it does, a
build with overflow checks stops the program, and one without them wraps around. -/
inductive Build where
  | checked
  | wrapping
deriving DecidableEq, Repr

/-- The number that arithmetic forms in a range, `none` where it stops the program. -/
def Build.form (range : IntRange) (n : Int) : Build → Option Int
  | checked => range.check? n
  | wrapping => some (range.wrap n)

theorem Build.form_of_holds {build : Build} {range : IntRange} {n : Int} (holds : range.Holds n) :
    build.form range n = some n := by
  cases build with
  | checked => exact if_pos holds
  | wrapping => exact congrArg some (IntRange.wrap_of_holds holds)

end RuleBook
