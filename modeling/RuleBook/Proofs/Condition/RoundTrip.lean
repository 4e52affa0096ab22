import RuleBook.Condition.Reader

/-! # Saving conditions again

A condition that is written and read is the same condition, whatever its literals hold: every part
is written as an object with a `type`, so nothing in operand position is taken for a template, a
short form or a plain literal. The one exception are names without a character that is not blank,
and no such name is ever read.
-/

namespace RuleBook

namespace Text

/-- What is dropped at the start is blank, so nothing else is lost. -/
theorem all_isBlank_dropWhile (s : List Char) :
    (s.dropWhile isBlank).all isBlank = s.all isBlank := by
  induction s with
  | nil => rfl
  | cons c rest ih => cases blank : isBlank c <;> simp [blank, ih]

private theorem all_isBlank_trim (s : List Char) : (trim s).all isBlank = s.all isBlank := by
  rw [trim, trimEnd, List.all_reverse, all_isBlank_dropWhile, List.all_reverse, trimStart,
    all_isBlank_dropWhile]

end Text

namespace Condition

/-- Names that are read back: each has a character that is not blank. -/
def Readable (names : List String) : Prop := ∀ name ∈ names, Text.isBlankText name = false

private theorem readable_append_iff {first second : List String} :
    Readable (first ++ second) ↔ Readable first ∧ Readable second := List.forall_mem_append

theorem readable_singleton_iff {name : String} : Readable [name] ↔ Text.isBlankText name = false :=
  List.forall_mem_singleton

section Writing

private theorem operatorIn_toJson (operator : ComparisonOperator) :
    operatorIn (some (Named.toJson operator)) = .ok operator := by
  cases operator <;> rfl

private theorem read_literal (position : Position) (value : Json) :
    read position (toJson (.literal value)) = .ok (.literal value) := by
  cases position <;> rfl

private theorem read_variable {name : String} (filled : Text.isBlankText name = false)
    (position : Position) : read position (toJson (.variable name)) = .ok (.variable name) := by
  have required (rest : List (String × Json)) :
      requiredName (("name", .string name) :: rest) "name" = .ok name := by
    simp [requiredName, filled]
  have typed : read position (toJson (.variable name)) =
      (requiredName [("name", .string name), ("type", .string "var")] "name").map .variable := by
    cases position <;> rfl
  rw [typed, required]
  rfl

private theorem read_compare (position : Position) (operator : ComparisonOperator)
    (lhs rhs : Condition) :
    read position (toJson (.compare operator lhs rhs)) = (do
      let operator ← operatorIn (some (Named.toJson operator))
      let lhs ← within .lhs (read .operand lhs.toJson)
      let rhs ← within .rhs (read .operand rhs.toJson)
      return .compare operator lhs rhs) := by
  cases position <;> rfl

private theorem read_and (position : Position) (children : List Condition) :
    read position (toJson (.and children)) = (readList 0 (toJsonList children)).map .and := by
  cases position <;> rfl

private theorem read_or (position : Position) (children : List Condition) :
    read position (toJson (.or children)) = (readList 0 (toJsonList children)).map .or := by
  cases position <;> rfl

private theorem read_not (position : Position) (child : Condition) :
    read position (toJson (.not child)) = (within .child (read .node child.toJson)).map .not := by
  cases position <;> rfl

mutual

/-- In every position the written form of a condition is read as the condition. -/
theorem read_toJson (position : Position) : (condition : Condition) → Readable condition.names →
    read position condition.toJson = .ok condition
  | .literal value, _ => read_literal position value
  | .variable name, readable => read_variable (readable_singleton_iff.mp readable) position
  | .compare operator lhs rhs, readable => by
    obtain ⟨left, right⟩ := readable_append_iff.mp readable
    rw [read_compare, operatorIn_toJson, read_toJson .operand lhs left,
      read_toJson .operand rhs right]
    rfl
  | .and children, readable => by
    rw [read_and, readList_toJsonList 0 children readable]
    rfl
  | .or children, readable => by
    rw [read_or, readList_toJsonList 0 children readable]
    rfl
  | .not child, readable => by
    rw [read_not, read_toJson .node child readable]
    rfl

private theorem readList_toJsonList (index : Nat) : (children : List Condition) →
    Readable (namesOf children) → readList index (toJsonList children) = .ok children
  | [], _ => rfl
  | child :: rest, readable => by
    obtain ⟨first, others⟩ := readable_append_iff.mp readable
    rw [toJsonList, readList, read_toJson .node child first,
      readList_toJsonList (index + 1) rest others]
    rfl

end

end Writing

section Reading

/-- A template refers to a name that is not blank. -/
theorem readable_of_templateName? {text name : String} (template : templateName? text = some name) :
    Readable [name] := by
  simp only [templateName?] at template
  split at template
  · split at template
    · split at template
      · cases template
      · rename_i filled
        obtain rfl := Option.some.inj template
        rw [List.isEmpty_iff, Text.trim_eq_nil_iff] at filled
        rw [readable_singleton_iff, Text.isBlankText, String.toList_ofList, Text.all_isBlank_trim]
        exact Bool.eq_false_iff.mpr filled
    · cases template
  · cases template

private theorem readable_operandOf (value : Json) : Readable (operandOf value).names := by
  cases value with
  | string text =>
    simp only [operandOf]
    split
    · rename_i name template
      exact readable_of_templateName? template
    · exact List.forall_mem_nil _
  | _ => exact List.forall_mem_nil _

private theorem readable_of_requiredName {fields : List (String × Json)} {key name : String}
    (required : requiredName fields key = .ok name) : Readable [name] := by
  simp only [requiredName] at required
  split at required
  · split at required
    · cases required
    · rename_i filled
      obtain rfl := Except.ok.inj required
      exact readable_singleton_iff.mpr (Bool.eq_false_iff.mpr filled)
  · cases required

private theorem within_eq_ok_iff {α : Type} {step : Step} {result : Except ParseError α}
    {value : α} :
    within step result = .ok value ↔ result = .ok value := by
  cases result <;> simp [within]

/-- What is read of a value that is no object. -/
def readPlain (position : Position) (value : Json) : Except ParseError Condition :=
  match position, value with
  | .operand, value => .ok (operandOf value)
  | .node, .bool b => .ok (.literal (.bool b))
  | .node, value => refuse (.notNode value)

private theorem readable_of_readPlain (position : Position) (value : Json) {condition : Condition}
    (done : readPlain position value = .ok condition) : Readable condition.names := by
  simp only [readPlain] at done
  split at done
  · obtain rfl := Except.ok.inj done
    exact readable_operandOf _
  · obtain rfl := Except.ok.inj done
    exact List.forall_mem_nil _
  · cases done

mutual

/-- Every name of a condition that is read has a character that is not blank. -/
theorem readable_of_read (position : Position) : (value : Json) → {condition : Condition} →
    read position value = .ok condition → Readable condition.names
  | .object fields, condition, done => by
    rw [read] at done
    split at done
    -- An object that stands for itself in operand position has no names.
    · cases done
      exact List.forall_mem_nil _
    split at done
    -- The short form: its fact is a name, and its value an operand.
    · obtain ⟨fact, named, done⟩ := Except.bind_eq_ok_iff.mp done
      obtain ⟨operator, _, done⟩ := Except.bind_eq_ok_iff.mp done
      split at done
      · cases done
      · rename_i found
        obtain ⟨operand, inner, done⟩ := Except.bind_eq_ok_iff.mp done
        cases done
        rw [within_eq_ok_iff.mp inner] at found
        exact readable_append_iff.mpr ⟨readable_of_requiredName named,
          readable_of_readField .operand "value" fields found⟩
    -- The full form: the cases are the types, in the order the reader tries them.
    · obtain ⟨kind, _, done⟩ := Except.bind_eq_ok_iff.mp done
      split at done
      · split at done
        · cases done
          exact List.forall_mem_nil _
        · cases done
      · obtain ⟨name, named, done⟩ := Except.bind_eq_ok_iff.mp done
        cases done
        exact readable_of_requiredName named
      · obtain ⟨operator, _, done⟩ := Except.bind_eq_ok_iff.mp done
        split at done
        · cases done
        · cases done
        · rename_i left right
          obtain ⟨lhs, first, done⟩ := Except.bind_eq_ok_iff.mp done
          obtain ⟨rhs, second, done⟩ := Except.bind_eq_ok_iff.mp done
          cases done
          rw [within_eq_ok_iff.mp first] at left
          rw [within_eq_ok_iff.mp second] at right
          exact readable_append_iff.mpr ⟨readable_of_readField .operand "lhs" fields left,
            readable_of_readField .operand "rhs" fields right⟩
      · split at done
        · cases done
        · rename_i found
          obtain ⟨children, read, done⟩ := Except.bind_eq_ok_iff.mp done
          cases done
          exact readable_of_readChildren "children" fields (read ▸ found)
      · split at done
        · cases done
        · rename_i found
          obtain ⟨children, read, done⟩ := Except.bind_eq_ok_iff.mp done
          cases done
          exact readable_of_readChildren "children" fields (read ▸ found)
      · split at done
        · cases done
        · rename_i found
          obtain ⟨child, read, done⟩ := Except.bind_eq_ok_iff.mp done
          cases done
          rw [within_eq_ok_iff.mp read] at found
          have readable := readable_of_readField .node "child" fields found
          exact readable
      · cases done
  | .null, _, done => readable_of_readPlain position .null done
  | .bool answer, _, done => readable_of_readPlain position (.bool answer) done
  | .number n, _, done => readable_of_readPlain position (.number n) done
  | .string text, _, done => readable_of_readPlain position (.string text) done
  | .array items, _, done => readable_of_readPlain position (.array items) done

private theorem readable_of_readField (position : Position) (key : String) :
    (fields : List (String × Json)) → {condition : Condition} →
    readField position key fields = some (.ok condition) → Readable condition.names
  | [], condition, done => by
    cases done
  | (other, value) :: rest, condition, done => by
    rw [readField] at done
    split at done
    · exact readable_of_read position value (Option.some.inj done)
    · exact readable_of_readField position key rest done

private theorem readable_of_readChildren (key : String) :
    (fields : List (String × Json)) → {children : List Condition} →
    readChildren key fields = some (.ok children) → Readable (namesOf children)
  | [], children, done => by
    cases done
  | (other, value) :: rest, children, done => by
    cases value with
    | array items =>
      rw [readChildren] at done
      split at done
      · exact readable_of_readList 0 items (Option.some.inj done)
      · exact readable_of_readChildren key rest done
    | _ =>
      rw [readChildren] at done
      split at done
      · cases done
      · exact readable_of_readChildren key rest done
      · exact nofun

private theorem readable_of_readList (index : Nat) :
    (items : List Json) → {children : List Condition} →
    readList index items = .ok children → Readable (namesOf children)
  | [], children, done => by
    cases done
    exact List.forall_mem_nil _
  | item :: rest, children, done => by
    rw [readList] at done
    obtain ⟨child, first, done⟩ := Except.bind_eq_ok_iff.mp done
    obtain ⟨others, remaining, done⟩ := Except.bind_eq_ok_iff.mp done
    cases done
    exact readable_append_iff.mpr ⟨readable_of_read .node item (within_eq_ok_iff.mp first),
      readable_of_readList (index + 1) rest remaining⟩

end

end Reading

/-- A condition that is written is read as the same condition exactly when each of its names has a
character that is not blank; so every condition that was read is, whatever it was read from. -/
theorem parse_toJson_iff (condition : Condition) :
    (parse condition.toJson = .ok condition ↔
        ∀ name ∈ condition.names, Text.isBlankText name = false) ∧
      ∀ value, parse value = .ok condition → parse condition.toJson = .ok condition := by
  have written : Readable condition.names → parse condition.toJson = .ok condition :=
    read_toJson .node condition
  refine ⟨⟨readable_of_read .node condition.toJson, written⟩, fun value done => ?_⟩
  exact written (readable_of_read .node value done)

/-- Who is old enough, and has not got a plan that looks like a template or a node. -/
def templatedDocument : Json :=
  .object [("children", .array [
      .object [("fact", .string "age"), ("operator", .string "gte"),
        ("value", .string " {{ least age }} ")],
      .object [("lhs", .object [("type", .string "literal"), ("value", .string "{{plan}}")]),
        ("op", .string "neq"),
        ("rhs", .object [("type", .string "literal"),
          ("value", .object [("fact", .null), ("type", .string "var")])]),
        ("type", .string "compare")]]),
    ("type", .string "and")]

/-- The condition in the document. -/
def templatedCondition : Condition :=
  .and [.compare .gte (.variable "age") (.variable "least age"),
    .compare .ne (.literal (.string "{{plan}}"))
      (.literal (.object [("fact", .null), ("type", .string "var")]))]

theorem parse_toJson_iff_templated :
    parse templatedDocument = .ok templatedCondition ∧
      parse templatedCondition.toJson = .ok templatedCondition ∧
      ∀ name ∈ templatedCondition.names, Text.isBlankText name = false := by
  have read : parse templatedDocument = .ok templatedCondition := by rfl
  obtain ⟨writes_iff, rewritten⟩ := templatedCondition.parse_toJson_iff
  have again := rewritten templatedDocument read
  exact ⟨read, again, writes_iff.mp again⟩

end Condition

end RuleBook
