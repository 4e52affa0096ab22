import RuleBook.Condition.Evaluation
import RuleBook.Proofs.Condition.RoundTrip

/-! # Conditions written out

A short comparison stands for a node that compares a name with an operand, and a template for a node
with a name. Written out wherever a node or an operand stands, at any depth, a stored condition has
neither of them left, and it is read as the same condition, or refused as before.
-/

namespace RuleBook

namespace Condition

/-- What a field of a node holds: a part in a position, or an array of nodes. -/
inductive Holding where
  | part (position : Position)
  | nodes
deriving DecidableEq

/-- What a field holds in a node of a type, if it holds parts of the condition. -/
def holding? (kind key : String) : Option Holding :=
  if kind = "compare" ∧ (key = "lhs" ∨ key = "rhs") then some (.part .operand)
  else if (kind = "and" ∨ kind = "or") ∧ key = "children" then some .nodes
  else if kind = "not" ∧ key = "child" then some (.part .node)
  else none

/-- A node with a name. -/
def nameNode (name : Json) : Json := .object [("name", name), ("type", .string "var")]

/-- The fields of a node that compares a name, with the operator and the other operand where they
are given. -/
def compareFields (name : Json) (operator operand : Option Json) : List (String × Json) :=
  ("lhs", nameNode name) :: (operator.map (("op", ·))).toList ++
    (operand.map (("rhs", ·))).toList ++ [("type", .string "compare")]

mutual

/-- The part of a stored condition that stands in a position, with every short comparison and every
template in it written out. -/
def writtenOut (position : Position) : Json → Json
  | .object fields =>
    if !position.admits fields then .object fields
    else
      match fields.lookup "fact", fields.lookup "type" with
      | some fact, _ =>
        .object (compareFields fact (fields.lookup "operator")
          (writtenOutField .operand "value" fields))
      | none, some (.string kind) => .object (writtenOutFields kind fields)
      | none, _ => .object fields
  | .string text =>
    match position, templateName? text with
    | .operand, some name => nameNode (.string name)
    | _, _ => .string text
  | value => value

/-- The part in a field, written out. -/
def writtenOutField (position : Position) (key : String) : List (String × Json) → Option Json
  | [] => none
  | (other, value) :: rest =>
    if key == other then some (writtenOut position value) else writtenOutField position key rest

/-- The fields of a node of a type, with the parts of the condition in them written out. -/
def writtenOutFields (kind : String) : List (String × Json) → List (String × Json)
  | [] => []
  | (key, value) :: rest =>
    (key,
      match holding? kind key, value with
      | some (.part position), value => writtenOut position value
      | some .nodes, .array items => .array (writtenOutNodes items)
      | _, value => value) :: writtenOutFields kind rest

/-- Nodes, written out. -/
def writtenOutNodes : List Json → List Json
  | [] => []
  | item :: rest => writtenOut .node item :: writtenOutNodes rest

end

section Fields

variable {position : Position} {key : String} {fields : List (String × Json)}

/-- What a field of a node is after what it holds is written out. -/
def writtenOutPart (holding : Option Holding) (value : Json) : Json :=
  match holding, value with
  | some (.part position), value => writtenOut position value
  | some .nodes, .array items => .array (writtenOutNodes items)
  | _, value => value

private theorem writtenOutField_eq :
    writtenOutField position key fields = (fields.lookup key).map (writtenOut position) := by
  induction fields with
  | nil => rfl
  | cons field rest ih =>
    rw [writtenOutField, List.lookup_cons]
    cases key == field.1 with
    | true => rfl
    | false => exact ih

private theorem writtenOutFields_cons (kind key : String) (value : Json)
    (rest : List (String × Json)) :
    writtenOutFields kind ((key, value) :: rest) =
      (key, writtenOutPart (holding? kind key) value) :: writtenOutFields kind rest := by
  rw [writtenOutFields.eq_def]
  rfl

private theorem lookup_writtenOutFields (kind : String) :
    (writtenOutFields kind fields).lookup key =
      (fields.lookup key).map (writtenOutPart (holding? kind key)) := by
  induction fields with
  | nil => rfl
  | cons field rest ih =>
    rw [writtenOutFields_cons, List.lookup_cons, List.lookup_cons]
    cases same : key == field.1 with
    | true =>
      rw [beq_iff_eq.mp same]
      rfl
    | false => exact ih

theorem readField_eq :
    readField position key fields = (fields.lookup key).map (read position) := by
  induction fields with
  | nil => rfl
  | cons field rest ih =>
    rw [readField, List.lookup_cons]
    cases key == field.1 with
    | true => rfl
    | false => exact ih

theorem readChildren_eq :
    readChildren key fields =
      (fields.lookup key).bind fun value => value.array?.map (readList 0) := by
  induction fields with
  | nil => rfl
  | cons field rest ih =>
    obtain ⟨other, value⟩ := field
    rw [List.lookup_cons]
    cases value with
    | array items =>
      rw [readChildren]
      cases key == other with
      | true => rfl
      | false => exact ih
    | _ =>
      rw [readChildren]
      · cases key == other with
        | true => rfl
        | false => exact ih
      · rintro items ⟨⟩

end Fields

section Acceptance

variable {α β : Type}

private theorem toOption_bind (first : Except ParseError α) (next : α → Except ParseError β) :
    (first >>= next).toOption = first.toOption.bind fun a => (next a).toOption := by
  cases first <;> rfl

private theorem toOption_bind_pure (first : Except ParseError α) (make : α → β) :
    (first >>= fun a => pure (make a)).toOption = first.toOption.map make := by
  cases first <;> rfl

theorem ok_bind (a : α) (next : α → Except ParseError β) : (Except.ok a >>= next) = next a := rfl

private theorem toOption_within (step : Step) (result : Except ParseError α) :
    (within step result).toOption = result.toOption := by
  cases result <;> rfl

/-- The condition that is read where a part of a stored condition stands, if it is accepted. -/
def accepted? (position : Position) (value : Json) : Option Condition :=
  (read position value).toOption

/-- The conditions that nodes are read as, if they are accepted. -/
def acceptedNodes? (items : List Json) : Option (List Condition) := (readList 0 items).toOption

/-- The name in a field, if there is a text that is not blank. -/
def nameIn? : Option Json → Option String
  | some (.string text) => if Text.isBlankText text then none else some text
  | _ => none

/-- The nodes in the field of a group, if there is such an array and it is accepted. -/
def childrenIn? (field : Option Json) : Option (List Condition) :=
  (field.bind Json.array?).bind acceptedNodes?

private theorem toOption_requiredName (fields : List (String × Json)) (key : String) :
    (requiredName fields key).toOption = nameIn? (fields.lookup key) := by
  rw [requiredName]
  split
  · rename_i text found
    rw [found, nameIn?]
    split <;> rfl
  · rename_i other
    rw [nameIn?]
    · rfl
    · exact other

/-- What is accepted as a short comparison. -/
theorem accepted?_short {position : Position} {fields : List (String × Json)} {fact : Json}
    (found : fields.lookup "fact" = some fact) :
    accepted? position (.object fields) =
      (nameIn? (some fact)).bind fun name =>
        (operatorIn (fields.lookup "operator")).toOption.bind fun operator =>
          ((fields.lookup "value").bind (accepted? .operand)).map
            (.compare operator (.variable name)) := by
  have admitted : position.admits fields = true := by simp [Position.admits, found]
  rw [accepted?, read, admitted]
  simp only [Bool.not_true, Bool.false_eq_true, if_false, found, Option.isSome_some, if_true,
    toOption_bind, toOption_requiredName, readField_eq]
  cases fields.lookup "value" with
  | none => rfl
  | some value =>
    simp only [Option.map_some, Option.bind_some, toOption_bind_pure, toOption_within]
    rfl

/-- What is accepted as a node of a type. -/
def acceptedKind? (kind : String) (fields : List (String × Json)) : Option Condition :=
  match kind with
  | "literal" => (fields.lookup "value").map .literal
  | "var" => (nameIn? (fields.lookup "name")).map .variable
  | "compare" =>
    (operatorIn (fields.lookup "op")).toOption.bind fun operator =>
      ((fields.lookup "lhs").bind (accepted? .operand)).bind fun lhs =>
        ((fields.lookup "rhs").bind (accepted? .operand)).map (.compare operator lhs)
  | "and" => (childrenIn? (fields.lookup "children")).map .and
  | "or" => (childrenIn? (fields.lookup "children")).map .or
  | "not" => ((fields.lookup "child").bind (accepted? .node)).map .not
  | _ => none

private theorem toOption_group (keyword : String) (make : List Condition → Condition)
    (fields : List (String × Json)) :
    (match readChildren "children" fields with
      | none => refuse (.noChildren keyword)
      | some children => do return make (← children)).toOption =
      (childrenIn? (fields.lookup "children")).map make := by
  rw [readChildren_eq]
  cases fields.lookup "children" with
  | none => rfl
  | some value =>
    cases value with
    | array items => exact toOption_bind_pure (readList 0 items) make
    | _ => rfl

private theorem accepted?_typed {position : Position} {fields : List (String × Json)}
    {kind : String}
    (absent : fields.lookup "fact" = none) (typed : fields.lookup "type" = some (.string kind)) :
    accepted? position (.object fields) = acceptedKind? kind fields := by
  have admitted : position.admits fields = true := by simp [Position.admits, typed]
  have kind_read : typeIn fields = .ok kind := by simp [typeIn, typed]
  rw [accepted?, read, admitted]
  simp only [Bool.not_true, Bool.false_eq_true, if_false, absent, Option.isSome_none, kind_read,
    ok_bind]
  -- The cases are the types, in the order the reader tries them.
  split
  case h_1 => cases found : fields.lookup "value" <;> simp [acceptedKind?, found] <;> rfl
  case h_2 =>
    rw [toOption_bind_pure, toOption_requiredName]
    rfl
  case h_3 =>
    rw [toOption_bind, acceptedKind?]
    refine congrArg _ (funext fun operator => ?_)
    rw [readField_eq, readField_eq]
    cases fields.lookup "lhs" with
    | none => rfl
    | some lhs =>
      cases fields.lookup "rhs" with
      | none =>
        show none = (accepted? .operand lhs).bind fun _ => none
        cases accepted? .operand lhs <;> rfl
      | some rhs =>
        show Except.toOption (within .lhs (read .operand lhs) >>= fun lhs =>
          within .rhs (read .operand rhs) >>= fun rhs => pure (compare operator lhs rhs)) = _
        rw [toOption_bind, toOption_within]
        simp only [toOption_bind_pure, toOption_within]
        rfl
  case h_4 => exact toOption_group "and" .and fields
  case h_5 => exact toOption_group "or" .or fields
  case h_6 =>
    rw [readField_eq, acceptedKind?]
    cases fields.lookup "child" with
    | none => rfl
    | some child =>
      show Except.toOption (within .child (read .node child) >>= fun child => pure child.not) = _
      rw [toOption_bind_pure, toOption_within]
      rfl
  case h_7 =>
    rw [acceptedKind?]
    · rfl
    all_goals assumption

end Acceptance

section Reading

variable {position : Position} {fields : List (String × Json)}

/-- A part is accepted as before, in whatever position, when it is written out. -/
def Stable (value : Json) : Prop :=
  ∀ position, accepted? position (writtenOut position value) = accepted? position value

/-- Nodes are accepted as before when they are written out. -/
def StableNodes (items : List Json) : Prop :=
  acceptedNodes? (writtenOutNodes items) = acceptedNodes? items

/-- Every field holds a part that is accepted as before when it is written out, and so are the nodes
in it. -/
def StableFields (fields : List (String × Json)) : Prop :=
  ∀ key value, fields.lookup key = some value →
    Stable value ∧ ∀ items, value = .array items → StableNodes items

private theorem accepted?_nameNode (name : Json) :
    accepted? position (nameNode name) = (nameIn? (some name)).map .variable := by
  have written : accepted? position (nameNode name) =
      acceptedKind? "var" [("name", name), ("type", .string "var")] := accepted?_typed rfl rfl
  exact written

private theorem lookup_compareFields (name : Json) (operator operand : Option Json) :
    (compareFields name operator operand).lookup "fact" = none ∧
      (compareFields name operator operand).lookup "type" = some (.string "compare") ∧
      (compareFields name operator operand).lookup "lhs" = some (nameNode name) ∧
      (compareFields name operator operand).lookup "op" = operator ∧
      (compareFields name operator operand).lookup "rhs" = operand := by
  cases operator <;> cases operand <;> exact ⟨rfl, rfl, rfl, rfl, rfl⟩

private theorem accepted?_compareFields (name : Json) (operator operand : Option Json) :
    accepted? position (.object (compareFields name operator operand)) =
      (nameIn? (some name)).bind fun name =>
        (operatorIn operator).toOption.bind fun operator =>
          (operand.bind (accepted? .operand)).map (.compare operator (.variable name)) := by
  obtain ⟨absent, typed, left, op, right⟩ := lookup_compareFields name operator operand
  rw [accepted?_typed absent typed, acceptedKind?, left, op, right, Option.bind_some,
    accepted?_nameNode]
  cases nameIn? (some name) <;> cases (operatorIn operator).toOption <;> rfl

/-- What stands in a field is accepted as before when it is written out. -/
theorem bind_writtenOut (stable : StableFields fields) (key : String) :
    ((fields.lookup key).map (writtenOut position)).bind (accepted? position) =
      (fields.lookup key).bind (accepted? position) := by
  cases found : fields.lookup key with
  | none => rfl
  | some value => exact (stable key value found).1 position

private theorem childrenIn?_writtenOutPart (stable : StableFields fields) (key : String) :
    childrenIn? ((fields.lookup key).map (writtenOutPart (some .nodes))) =
      childrenIn? (fields.lookup key) := by
  cases found : fields.lookup key with
  | none => rfl
  | some value =>
    cases value with
    | array items => exact (stable key _ found).2 items rfl
    | _ => rfl

private theorem lookup_writtenOutFields_of_none {kind key : String}
    (other : holding? kind key = none) :
    (writtenOutFields kind fields).lookup key = fields.lookup key := by
  have unchanged : writtenOutPart none = id := rfl
  rw [lookup_writtenOutFields, other, unchanged, Option.map_id_fun, id]

/-- The type of a node is no part of the condition. -/
theorem lookup_type_writtenOutFields (kind : String) :
    (writtenOutFields kind fields).lookup "type" = fields.lookup "type" :=
  lookup_writtenOutFields_of_none (by simp [holding?])

/-- A node of a type is accepted as before when its parts are written out. -/
theorem acceptedKind?_writtenOutFields (stable : StableFields fields) (kind : String) :
    acceptedKind? kind (writtenOutFields kind fields) = acceptedKind? kind fields := by
  have operand : writtenOutPart (some (.part .operand)) = writtenOut .operand := rfl
  have node : writtenOutPart (some (.part .node)) = writtenOut .node := rfl
  rw [acceptedKind?.eq_def]
  split
  case h_1 => rw [lookup_writtenOutFields_of_none (by decide)]; rfl
  case h_2 => rw [lookup_writtenOutFields_of_none (by decide)]; rfl
  case h_3 =>
    have left : holding? "compare" "lhs" = some (.part .operand) := by decide
    have right : holding? "compare" "rhs" = some (.part .operand) := by decide
    rw [lookup_writtenOutFields_of_none (by decide), lookup_writtenOutFields,
      lookup_writtenOutFields, left, right, operand, bind_writtenOut stable,
      bind_writtenOut stable]
    rfl
  case h_4 =>
    have children : holding? "and" "children" = some .nodes := by decide
    rw [lookup_writtenOutFields, children, childrenIn?_writtenOutPart stable]
    rfl
  case h_5 =>
    have children : holding? "or" "children" = some .nodes := by decide
    rw [lookup_writtenOutFields, children, childrenIn?_writtenOutPart stable]
    rfl
  case h_6 =>
    have child : holding? "not" "child" = some (.part .node) := by decide
    rw [lookup_writtenOutFields, child, node, bind_writtenOut stable]
    rfl
  case h_7 =>
    rw [acceptedKind?]
    all_goals assumption

private theorem toOption_readList_cons (index : Nat) (item : Json) (rest : List Json) :
    (readList index (item :: rest)).toOption = (accepted? .node item).bind fun child =>
      (readList (index + 1) rest).toOption.map (child :: ·) := by
  rw [readList, toOption_bind, toOption_within]
  simp only [toOption_bind_pure]
  rfl

/-- The index of the first node only shows in what is wrong. -/
theorem toOption_readList (index : Nat) (items : List Json) :
    (readList index items).toOption = acceptedNodes? items := by
  suffices same : ∀ index index', (readList index items).toOption = (readList index' items).toOption
    from same index 0
  induction items with
  | nil => exact fun _ _ => rfl
  | cons item rest ih =>
    intro index index'
    rw [toOption_readList_cons, toOption_readList_cons, ih (index + 1) (index' + 1)]

private theorem acceptedNodes?_cons (item : Json) (rest : List Json) :
    acceptedNodes? (item :: rest) = (accepted? .node item).bind fun child =>
      (acceptedNodes? rest).map (child :: ·) := by
  rw [acceptedNodes?, toOption_readList_cons, toOption_readList]

/-- A template is accepted as the node with its name. -/
theorem accepted?_template {text name : String} (template : templateName? text = some name) :
    accepted? .operand (nameNode (.string name)) = accepted? .operand (.string text) := by
  have filled := readable_singleton_iff.mp (readable_of_templateName? template)
  have read_as : accepted? .operand (.string text) = some (operandOf (.string text)) := rfl
  rw [accepted?_nameNode, read_as, operandOf, template, nameIn?, filled]
  rfl

mutual

/-- In every position a value is accepted as before when it is written out. -/
theorem stable_writtenOut : (value : Json) → Stable value
  | .object fields, position => by
    have stable := stableFields_writtenOut fields
    rw [writtenOut]
    split
    · rfl
    -- A short comparison is taken for one before its type is looked at.
    split
    · rename_i fact _ found
      rw [accepted?_compareFields, accepted?_short found, writtenOutField_eq,
        bind_writtenOut stable]
    · rename_i kind absent typed
      have absent_after : (writtenOutFields kind fields).lookup "fact" = none := by
        rw [lookup_writtenOutFields, absent]
        rfl
      have typed_after : (writtenOutFields kind fields).lookup "type" = some (.string kind) :=
        (lookup_type_writtenOutFields kind).trans typed
      rw [accepted?_typed absent_after typed_after, accepted?_typed absent typed,
        acceptedKind?_writtenOutFields stable]
    · rfl
  | .string text, .node => rfl
  | .string text, .operand => by
    cases template : templateName? text with
    | none => simp only [writtenOut, template]
    | some name =>
      simp only [writtenOut, template]
      exact accepted?_template template
  | .null, _ => rfl
  | .bool _, _ => rfl
  | .number _, _ => rfl
  | .array _, _ => rfl

private theorem stableFields_writtenOut : (fields : List (String × Json)) → StableFields fields
  | [], _, _, found => nomatch found
  | (other, held) :: rest, key, value, found => by
    have nodes : ∀ items, held = .array items → StableNodes items := by
      cases held with
      | array items =>
        rintro _ ⟨⟩
        exact stableNodes_writtenOut items
      | _ => exact nofun
    rw [List.lookup_cons] at found
    split at found
    · cases found
      exact ⟨stable_writtenOut held, nodes⟩
    · exact stableFields_writtenOut rest key value found

private theorem stableNodes_writtenOut : (items : List Json) → StableNodes items
  | [] => rfl
  | item :: rest => by
    have first := stable_writtenOut item .node
    have others := stableNodes_writtenOut rest
    rw [StableNodes, writtenOutNodes, acceptedNodes?_cons, acceptedNodes?_cons, first, others]

end

end Reading

section Abbreviations

/-- A short comparison or a template stands in a position, or in a part of the node that does. -/
inductive Abbreviated : Position → Json → Prop
  | short {position : Position} {fields : List (String × Json)}
      (given : (fields.lookup "fact").isSome) : Abbreviated position (.object fields)
  | template {text name : String} (template : templateName? text = some name) :
      Abbreviated .operand (.string text)
  | part {position inner : Position} {fields : List (String × Json)} {kind key : String}
      {value : Json} (typed : fields.lookup "type" = some (.string kind))
      (holds : holding? kind key = some (.part inner)) (found : fields.lookup key = some value)
      (abbreviated : Abbreviated inner value) : Abbreviated position (.object fields)
  | nodes {position : Position} {fields : List (String × Json)} {kind key : String}
      {items : List Json} {item : Json} (typed : fields.lookup "type" = some (.string kind))
      (holds : holding? kind key = some .nodes) (found : fields.lookup key = some (.array items))
      (member : item ∈ items) (abbreviated : Abbreviated .node item) :
      Abbreviated position (.object fields)

variable {position : Position} {fields : List (String × Json)}

/-- An object with a part of a condition in it is a node. -/
theorem Abbreviated.admits (abbreviated : Abbreviated position (.object fields)) :
    position.admits fields = true := by
  cases abbreviated with
  | short given => simp [Position.admits, given]
  | part typed => simp [Position.admits, typed]
  | nodes typed => simp [Position.admits, typed]

private theorem holding?_compare {key : String} {holding : Holding}
    (holds : holding? "compare" key = some holding) :
    holding = .part .operand ∧ (key = "lhs" ∨ key = "rhs") := by
  by_cases operand : key = "lhs" ∨ key = "rhs"
  · simp only [holding?, operand, and_self, if_true, Option.some.injEq] at holds
    exact ⟨holds.symm, operand⟩
  · simp [holding?, operand] at holds

private theorem not_abbreviated_nameNode (name : Json) :
    ¬ Abbreviated position (nameNode name) := by
  intro abbreviated
  cases abbreviated with
  | short given => cases given
  | part typed holds =>
    cases typed
    simp [holding?] at holds
  | nodes typed holds =>
    cases typed
    simp [holding?] at holds

/-- A comparison of a name holds no more abbreviations than its second operand. -/
theorem not_abbreviated_compareFields {name : Json} {operator operand : Option Json}
    (written : ∀ value, operand = some value → ¬ Abbreviated .operand value) :
    ¬ Abbreviated position (.object (compareFields name operator operand)) := by
  obtain ⟨absent, compares, left, -, right⟩ := lookup_compareFields name operator operand
  intro abbreviated
  cases abbreviated with
  | short given =>
    rw [absent] at given
    cases given
  | part typed holds found abbreviated =>
    rw [compares] at typed
    cases typed
    obtain ⟨same, rfl | rfl⟩ := holding?_compare holds
    · rw [left] at found
      cases found
      exact not_abbreviated_nameNode name abbreviated
    · rw [right] at found
      cases same
      exact written _ found abbreviated
  | nodes typed holds =>
    rw [compares] at typed
    cases typed
    cases (holding?_compare holds).1

/-- No abbreviation is left in a value, in whatever position, when it is written out. -/
def Plain (value : Json) : Prop := ∀ position, ¬ Abbreviated position (writtenOut position value)

/-- No abbreviation is left in nodes when they are written out. -/
def PlainNodes (items : List Json) : Prop :=
  ∀ item ∈ writtenOutNodes items, ¬ Abbreviated .node item

/-- No abbreviation is left in what a field holds when it is written out, nor in nodes in it. -/
def PlainFields (fields : List (String × Json)) : Prop :=
  ∀ key value, fields.lookup key = some value →
    Plain value ∧ ∀ items, value = .array items → PlainNodes items

/-- No abbreviation is left in a node of a type when its parts are written out. -/
theorem not_abbreviated_writtenOutFields {kind : String} (plain : PlainFields fields)
    (absent : fields.lookup "fact" = none) (typed : fields.lookup "type" = some (.string kind)) :
    ¬ Abbreviated position (.object (writtenOutFields kind fields)) := by
  have same_kind : (writtenOutFields kind fields).lookup "type" = some (.string kind) :=
    (lookup_type_writtenOutFields kind).trans typed
  intro abbreviated
  cases abbreviated with
  | short given =>
    rw [lookup_writtenOutFields, absent] at given
    cases given
  | @part _ inner _ other key value typed holds found abbreviated =>
    rw [same_kind] at typed
    cases typed
    rw [lookup_writtenOutFields, holds] at found
    obtain ⟨before, held, rfl⟩ := Option.map_eq_some_iff.mp found
    exact (plain key before held).1 inner abbreviated
  | @nodes _ _ other key items item typed holds found member abbreviated =>
    rw [same_kind] at typed
    cases typed
    rw [lookup_writtenOutFields, holds] at found
    obtain ⟨before, held, array⟩ := Option.map_eq_some_iff.mp found
    cases before with
    | array nodes =>
      cases array
      exact (plain key _ held).2 nodes rfl item member abbreviated
    | _ => cases array

mutual

/-- No abbreviation is left in a value that is written out. -/
theorem plain_writtenOut : (value : Json) → Plain value
  | .object fields, position => by
    have plain := plainFields_writtenOut fields
    rw [writtenOut]
    split
    · rename_i literal
      intro abbreviated
      rw [abbreviated.admits] at literal
      cases literal
    split
    · rw [writtenOutField_eq]
      refine not_abbreviated_compareFields fun value operand => ?_
      obtain ⟨before, held, rfl⟩ := Option.map_eq_some_iff.mp operand
      exact (plain "value" before held).1 .operand
    · rename_i kind absent typed
      exact not_abbreviated_writtenOutFields plain absent typed
    · rename_i absent untyped
      intro abbreviated
      cases abbreviated with
      | short given =>
        rw [absent] at given
        cases given
      | part typed => exact untyped _ typed
      | nodes typed => exact untyped _ typed
  | .string text, .node => nofun
  | .string text, .operand => by
    cases template : templateName? text with
    | none =>
      simp only [writtenOut, template]
      intro abbreviated
      cases abbreviated with
      | template found =>
        rw [template] at found
        cases found
    | some name =>
      simp only [writtenOut, template]
      exact not_abbreviated_nameNode _
  | .null, _ => nofun
  | .bool _, _ => nofun
  | .number _, _ => nofun
  | .array _, _ => nofun

private theorem plainFields_writtenOut : (fields : List (String × Json)) → PlainFields fields
  | [], _, _, found => nomatch found
  | (other, held) :: rest, key, value, found => by
    have nodes : ∀ items, held = .array items → PlainNodes items := by
      cases held with
      | array items =>
        rintro _ ⟨⟩
        exact plainNodes_writtenOut items
      | _ => exact nofun
    rw [List.lookup_cons] at found
    split at found
    · cases found
      exact ⟨plain_writtenOut held, nodes⟩
    · exact plainFields_writtenOut rest key value found

private theorem plainNodes_writtenOut : (items : List Json) → PlainNodes items
  | [] => nofun
  | item :: rest =>
    List.forall_mem_cons.mpr ⟨plain_writtenOut item .node, plainNodes_writtenOut rest⟩

end

end Abbreviations

/-- A stored condition that is written out holds no abbreviation, and it is read as the same
condition as before or refused as before, so that it is evaluated alike. -/
theorem parse_writtenOut (value : Json) :
    ¬ Abbreviated .node (writtenOut .node value) ∧
      (∀ condition, parse (writtenOut .node value) = .ok condition ↔ parse value = .ok condition) ∧
      ∀ tracing scope,
        (parse (writtenOut .node value)).toOption.map (evaluate tracing scope) =
          (parse value).toOption.map (evaluate tracing scope) := by
  have accepted : (parse (writtenOut .node value)).toOption = (parse value).toOption :=
    stable_writtenOut value .node
  have read_iff {document : Json} {condition : Condition} :
      parse document = .ok condition ↔ (parse document).toOption = some condition := by
    cases parse document <;> simp [Except.toOption]
  refine ⟨plain_writtenOut value .node, fun condition => ?_, fun tracing scope => ?_⟩
  · rw [read_iff, read_iff, accepted]
  · rw [accepted]

/-- A short comparison with a template, and the node for which it stands. -/
example :
    writtenOut .node (.object [("fact", .string "user.age"), ("operator", .string "gte"),
        ("value", .string "{{minimumAge}}")]) =
      .object [("lhs", .object [("name", .string "user.age"), ("type", .string "var")]),
        ("op", .string "gte"),
        ("rhs", .object [("name", .string "minimumAge"), ("type", .string "var")]),
        ("type", .string "compare")] := by
  rfl

end Condition

end RuleBook
