import RuleBook.Json.Decode

/-! # Sets of texts

A finite set of texts is kept as its strictly increasing list, so two sets with the same members
are equal, and the members are always listed in one order.
-/

namespace RuleBook

/-- A finite set of texts. -/
structure TextSet where
  toList : List String
  sorted : toList.Pairwise (· < ·)
deriving DecidableEq

namespace TextSet

/-- Put a text into an increasing list, once. -/
def insertSorted (text : String) : List String → List String
  | [] => [text]
  | other :: rest =>
    if text < other then text :: other :: rest
    else if text = other then other :: rest
    else other :: insertSorted text rest

private theorem mem_insertSorted {text other : String} {texts : List String} :
    other ∈ insertSorted text texts ↔ other = text ∨ other ∈ texts := by
  induction texts with
  | nil => simp [insertSorted]
  | cons first rest ih =>
    simp only [insertSorted]
    split
    · simp
    · split
      · rename_i same
        subst same
        simp
      · simp only [List.mem_cons, ih]
        constructor
        · rintro (h | h | h) <;> simp [h]
        · rintro (h | h | h) <;> simp [h]

private theorem pairwise_insertSorted {text : String} {texts : List String}
    (sorted : texts.Pairwise (· < ·)) : (insertSorted text texts).Pairwise (· < ·) := by
  induction texts with
  | nil => simp [insertSorted]
  | cons first rest ih =>
    obtain ⟨below, rest_sorted⟩ := List.pairwise_cons.mp sorted
    simp only [insertSorted]
    split
    · rename_i less
      refine List.pairwise_cons.mpr ⟨fun other mem => ?_, sorted⟩
      rcases List.mem_cons.mp mem with rfl | mem
      · exact less
      · exact String.lt_trans less (below other mem)
    · split
      · exact sorted
      · rename_i not_less not_same
        refine List.pairwise_cons.mpr ⟨fun other mem => ?_, ih rest_sorted⟩
        rcases mem_insertSorted.mp mem with rfl | mem
        · exact Std.lt_of_le_of_ne (Std.not_lt.mp not_less) (Ne.symm not_same)
        · exact below other mem

def empty : TextSet := ⟨[], .nil⟩

instance : Inhabited TextSet := ⟨empty⟩

def insert (set : TextSet) (text : String) : TextSet :=
  ⟨insertSorted text set.toList, pairwise_insertSorted set.sorted⟩

def insertMany (set : TextSet) (texts : List String) : TextSet := texts.foldl insert set

def ofList (texts : List String) : TextSet := empty.insertMany texts

def union (a b : TextSet) : TextSet := a.insertMany b.toList

def contains (set : TextSet) (text : String) : Bool := set.toList.contains text

def isEmpty (set : TextSet) : Bool := set.toList.isEmpty

def filter (set : TextSet) (keep : String → Bool) : TextSet :=
  ⟨set.toList.filter keep, set.sorted.filter keep⟩

def meets (a b : TextSet) : Bool := a.toList.any b.contains

def size (set : TextSet) : Nat := set.toList.length

instance : Membership String TextSet := ⟨fun set text => text ∈ set.toList⟩

theorem nodup_toList (set : TextSet) : set.toList.Nodup :=
  set.sorted.imp fun less => Std.ne_of_lt less

theorem contains_iff {set : TextSet} {text : String} : set.contains text = true ↔ text ∈ set := by
  simp [contains, Membership.mem]

@[simp] theorem mem_insert {set : TextSet} {text other : String} :
    other ∈ set.insert text ↔ other = text ∨ other ∈ set := mem_insertSorted

@[simp] theorem mem_filter {set : TextSet} {keep : String → Bool} {text : String} :
    text ∈ set.filter keep ↔ text ∈ set ∧ keep text = true := List.mem_filter

@[simp] theorem not_mem_empty {text : String} : ¬ text ∈ empty := List.not_mem_nil

@[simp] theorem mem_insertMany {set : TextSet} {texts : List String} {text : String} :
    text ∈ set.insertMany texts ↔ text ∈ texts ∨ text ∈ set := by
  induction texts generalizing set with
  | nil => simp [insertMany]
  | cons first rest ih =>
    have step : set.insertMany (first :: rest) = (set.insert first).insertMany rest := rfl
    rw [step, ih, mem_insert, List.mem_cons]
    constructor
    · rintro (h | h | h) <;> simp [h]
    · rintro ((h | h) | h) <;> simp [h]

@[simp] theorem mem_union {a b : TextSet} {text : String} :
    text ∈ a.union b ↔ text ∈ a ∨ text ∈ b := by
  rw [union, mem_insertMany, or_comm]
  rfl

@[simp] theorem mem_ofList {texts : List String} {text : String} :
    text ∈ ofList texts ↔ text ∈ texts := by
  simp [ofList]

/-- The JSON form: the members in increasing order. -/
def toJson (set : TextSet) : Json := .ofStrings set.toList

def decoder : Decoder TextSet := .map ofList (.list .text)

end TextSet

end RuleBook
