import RuleBook.Proofs.Condition.WrittenOut

/-! # Where a stored condition is wrong

A stored condition that is refused is refused for one of its nodes. The path of the error leads
there, through nodes that are in order themselves, and the node alone would be refused for the same
fault, at its own root. What is wrong with a node itself, whatever its parts are, is checked before
its parts are read. In the message the path is written before the fault, and can be read off again.
-/

namespace RuleBook

private theorem Except.bind_eq_error_iff {ε α β : Type} {first : Except ε α} {next : α → Except ε β}
    {e : ε} : first >>= next = .error e ↔
      first = .error e ∨ ∃ a, first = .ok a ∧ next a = .error e := by
  cases first <;> simp [bind, Except.bind]

namespace Condition

/-- The part of a node that a step leads to. -/
def part? (value : Json) : Step → Option Json
  | .lhs => value.field? "lhs"
  | .rhs => value.field? "rhs"
  | .value => value.field? "value"
  | .child => value.field? "child"
  | .children index => ((value.field? "children").bind Json.array?).bind fun items => items[index]?

/-- The part that a path leads to. -/
def at? : Path → Json → Option Json
  | [], value => some value
  | step :: rest, value => (part? value step).bind (at? rest)

section OwnFaults

/-- A fault, unless something is found. -/
def lacks {α : Type} (found : Option α) (fault : NodeFault) : Option NodeFault :=
  if found.isSome then none else some fault

/-- What is wrong with the operator in a field. -/
def operatorFault? : Option Json → Option NodeFault
  | some (.string text) => lacks (ComparisonOperator.ofText? text) (.unknownOperator text)
  | _ => some .noOperator

/-- What is wrong with a node of a type itself. -/
def kindFault? (kind : String) (fields : List (String × Json)) : Option NodeFault :=
  match kind with
  | "literal" => lacks (fields.lookup "value") .noLiteralValue
  | "var" => lacks (nameIn? (fields.lookup "name")) (.blankName "name")
  | "compare" =>
    ((operatorFault? (fields.lookup "op")).or (lacks (fields.lookup "lhs") .noLhs)).or
      (lacks (fields.lookup "rhs") .noRhs)
  | "and" => lacks ((fields.lookup "children").bind Json.array?) (.noChildren "and")
  | "or" => lacks ((fields.lookup "children").bind Json.array?) (.noChildren "or")
  | "not" => lacks (fields.lookup "child") .noChild
  | other => some (.unknownType other)

/-- What is wrong with a node itself, whatever its parts are. -/
def ownFault? : Json → Option NodeFault
  | .bool _ => none
  | .object fields =>
    match fields.lookup "fact", fields.lookup "type" with
    | some fact, _ =>
      ((lacks (nameIn? (some fact)) (.blankName "fact")).or
        (operatorFault? (fields.lookup "operator"))).or
          (lacks (fields.lookup "value") .noShorthandValue)
    | none, some (.string kind) => kindFault? kind fields
    | none, _ => some .noType
  | value => some (.notNode value)

end OwnFaults

section Checks

variable {α β : Type}

/-- A check of a node finds a fault of the node itself, or none. -/
inductive Checks (fault? : Option NodeFault) : Except ParseError α → Prop
  | passed (found : α) (sound : fault? = none) : Checks fault? (.ok found)
  | failed (fault : NodeFault) (wrong : fault? = some fault) : Checks fault? (.error ⟨[], fault⟩)

/-- A reading that begins with a check and is refused is refused for the fault that the check finds,
or it passes the check and is refused later. -/
theorem Checks.of_bind {fault? : Option NodeFault} {first : Except ParseError α}
    {next : α → Except ParseError β} {error : ParseError} (checks : Checks fault? first)
    (refused : first >>= next = .error error) :
    (∃ fault, error = ⟨[], fault⟩ ∧ fault? = some fault) ∨
      (fault? = none ∧ ∃ found, next found = .error error) := by
  cases checks with
  | passed found sound => exact .inr ⟨sound, found, refused⟩
  | failed fault wrong =>
    cases refused
    exact .inl ⟨fault, rfl, wrong⟩

private theorem checks_requiredName (fields : List (String × Json)) (key : String) :
    Checks (lacks (nameIn? (fields.lookup key)) (.blankName key)) (requiredName fields key) := by
  unfold requiredName
  split
  · rename_i text found
    simp only [found, nameIn?]
    cases Text.isBlankText text with
    | true => exact .failed _ rfl
    | false => exact .passed text rfl
  · rename_i other
    have unnamed : nameIn? (fields.lookup key) = none := by
      rw [nameIn?]
      exact other
    exact .failed _ (by rw [unnamed]; rfl)

private theorem checks_operatorIn (field : Option Json) :
    Checks (operatorFault? field) (operatorIn field) := by
  unfold operatorIn
  split
  · rename_i text
    simp only [operatorFault?]
    cases ComparisonOperator.ofText? text with
    | none => exact .failed _ rfl
    | some operator => exact .passed operator rfl
  · rename_i other
    refine .failed _ ?_
    rw [operatorFault?]
    exact other

private theorem bind_pure_eq_error_iff {first : Except ParseError α} {make : α → β}
    {error : ParseError} :
    (do return make (← first)) = .error error ↔ first = .error error := by
  rw [Except.bind_eq_error_iff]
  exact or_iff_left nofun

private theorem within_eq_error_iff {step : Step} {result : Except ParseError α}
    {error : ParseError} :
    within step result = .error error ↔
      ∃ inner, result = .error inner ∧ error = inner.under step := by
  cases result with
  | ok a => simp [within]
  | error inner => simp [within, eq_comm]

/-- The first node that is refused, and its index. -/
theorem exists_of_readList {items : List Json} {index : Nat} {error : ParseError}
    (refused : readList index items = .error error) :
    ∃ count item inner, items[count]? = some item ∧ read .node item = .error inner ∧
      error = inner.under (.children (index + count)) := by
  induction items generalizing index with
  | nil => cases refused
  | cons item rest ih =>
    rw [readList] at refused
    rcases Except.bind_eq_error_iff.mp refused with first | ⟨child, _, others⟩
    · obtain ⟨inner, refused_alone, same⟩ := within_eq_error_iff.mp first
      exact ⟨0, item, inner, rfl, refused_alone, same⟩
    · obtain ⟨count, later, inner, found, refused_alone, same⟩ :=
        ih (bind_pure_eq_error_iff.mp others)
      refine ⟨count + 1, later, inner, found, refused_alone, ?_⟩
      rw [same, Nat.add_right_comm, Nat.add_assoc]

end Checks

/-- How a part of a stored condition can be refused: for a fault of its own, or, being in order
itself, for one of its parts. -/
inductive Refused (value : Json) : ParseError → Prop
  | own (fault : NodeFault) (wrong : ownFault? value = some fault) : Refused value ⟨[], fault⟩
  | inner (sound : ownFault? value = none) (step : Step) (part : Json)
      (found : part? value step = some part) (position : Position) (error : ParseError)
      (refused : read position part = .error error) : Refused value (error.under step)

section Reading

variable {position : Position} {value : Json} {fields : List (String × Json)} {error : ParseError}

private theorem ownFault?_short {fact : Json} (short : fields.lookup "fact" = some fact) :
    ownFault? (.object fields) = ((lacks (nameIn? (some fact)) (.blankName "fact")).or
      (operatorFault? (fields.lookup "operator"))).or
        (lacks (fields.lookup "value") .noShorthandValue) := by
  simp only [ownFault?, short]

private theorem ownFault?_typed {kind : String} (absent : fields.lookup "fact" = none)
    (typed : fields.lookup "type" = some (.string kind)) :
    ownFault? (.object fields) = kindFault? kind fields := by
  simp only [ownFault?, absent, typed]

/-- A part in a field is refused one step further in. -/
theorem Refused.field (step : Step) {value part : Json} (sound : ownFault? value = none)
    (found : part? value step = some part)
    (refused : within step (read position part) = .error error) : Refused value error := by
  obtain ⟨inner, refused_alone, rfl⟩ := within_eq_error_iff.mp refused
  exact .inner sound step part found position inner refused_alone

/-- A group is refused for want of children, or for one of them. -/
theorem Refused.group {keyword : String} {make : List Condition → Condition}
    (own : ownFault? (.object fields) =
      lacks ((fields.lookup "children").bind Json.array?) (.noChildren keyword))
    (refused : (match readChildren "children" fields with
      | none => refuse (.noChildren keyword)
      | some children => do return make (← children)) = .error error) :
    Refused (.object fields) error := by
  have children_read : readChildren "children" fields =
      ((fields.lookup "children").bind Json.array?).map (readList 0) :=
    readChildren_eq.trans Option.map_bind.symm
  rw [children_read] at refused
  cases children : (fields.lookup "children").bind Json.array? with
  | none =>
    rw [children] at refused own
    cases refused
    exact .own _ own
  | some items =>
    rw [children] at refused own
    obtain ⟨index, item, inner, found, refused_alone, rfl⟩ :=
      exists_of_readList (bind_pure_eq_error_iff.mp refused)
    rw [Nat.zero_add]
    refine .inner own (.children index) item ?_ .node inner refused_alone
    simp only [part?, Json.field?, Json.fields?, Option.bind_some, children, found]

/-- A short comparison is refused for its fact, its operator, the want of a value, or the value. -/
theorem Refused.short {fact : Json} (found : fields.lookup "fact" = some fact)
    (refused : read position (.object fields) = .error error) : Refused (.object fields) error := by
  have admitted : position.admits fields = true := by simp [Position.admits, found]
  have own := ownFault?_short found
  have named := checks_requiredName fields "fact"
  rw [found] at named
  rw [read, admitted] at refused
  simp only [Bool.not_true, Bool.false_eq_true, if_false, found, Option.isSome_some, if_true,
    readField_eq] at refused
  rcases named.of_bind refused with ⟨fault, rfl, wrong⟩ | ⟨sound, name, refused⟩
  · exact .own fault (by rw [own, wrong]; rfl)
  rw [sound] at own
  rcases (checks_operatorIn _).of_bind refused with ⟨fault, rfl, wrong⟩ | ⟨sound, operator, refused⟩
  · exact .own fault (by rw [own, wrong]; rfl)
  rw [sound] at own
  cases value : fields.lookup "value" with
  | none =>
    rw [value] at refused own
    cases refused
    exact .own _ own
  | some part =>
    rw [value] at refused own
    exact .field .value own value (bind_pure_eq_error_iff.mp refused)

/-- A comparison is refused for its operator, for want of an operand, or for one of the operands. -/
theorem Refused.compare (own : ownFault? (.object fields) =
      ((operatorFault? (fields.lookup "op")).or (lacks (fields.lookup "lhs") .noLhs)).or
        (lacks (fields.lookup "rhs") .noRhs))
    (refused : (do
      let operator ← operatorIn (fields.lookup "op")
      match readField .operand "lhs" fields, readField .operand "rhs" fields with
      | none, _ => refuse .noLhs
      | _, none => refuse .noRhs
      | some lhs, some rhs =>
        let lhs ← within .lhs lhs
        let rhs ← within .rhs rhs
        return Condition.compare operator lhs rhs) = .error error) :
    Refused (.object fields) error := by
  simp only [readField_eq] at refused
  rcases (checks_operatorIn _).of_bind refused with ⟨fault, rfl, wrong⟩ | ⟨sound, operator, refused⟩
  · exact .own fault (by rw [own, wrong]; rfl)
  rw [sound] at own
  cases left : fields.lookup "lhs" with
  | none =>
    rw [left] at refused own
    cases refused
    exact .own _ own
  | some lhs =>
    cases right : fields.lookup "rhs" with
    | none =>
      rw [left, right] at refused own
      cases refused
      exact .own _ own
    | some rhs =>
      rw [left, right] at refused own
      rcases Except.bind_eq_error_iff.mp refused with failed | ⟨_, _, refused⟩
      · exact .field .lhs own left failed
      · exact .field .rhs own right (bind_pure_eq_error_iff.mp refused)

/-- A node of a type is refused for a fault of its own, or for one of its parts. -/
theorem Refused.typed {kind : String} (absent : fields.lookup "fact" = none)
    (typed : fields.lookup "type" = some (.string kind))
    (refused : read position (.object fields) = .error error) : Refused (.object fields) error := by
  have admitted : position.admits fields = true := by simp [Position.admits, typed]
  have kind_read : typeIn fields = .ok kind := by simp [typeIn, typed]
  have own := ownFault?_typed absent typed
  rw [read, admitted] at refused
  simp only [Bool.not_true, Bool.false_eq_true, if_false, absent, Option.isSome_none, kind_read,
    ok_bind] at refused
  -- The cases are the types, in the order the reader tries them.
  split at refused
  case h_1 =>
    split at refused
    · cases refused
    · rename_i no_value
      cases refused
      exact .own _ (by rw [own, kindFault?, no_value]; rfl)
  case h_2 =>
    rcases (checks_requiredName _ _).of_bind refused with ⟨fault, rfl, wrong⟩ | ⟨_, _, done⟩
    · exact .own fault (own.trans wrong)
    · cases done
  case h_3 => exact .compare own refused
  case h_4 => exact .group own refused
  case h_5 => exact .group own refused
  case h_6 =>
    rw [readField_eq] at refused
    rw [kindFault?] at own
    cases child : fields.lookup "child" with
    | none =>
      rw [child] at refused own
      cases refused
      exact .own _ own
    | some part =>
      rw [child] at refused own
      exact .field .child own child (bind_pure_eq_error_iff.mp refused)
  case h_7 =>
    cases refused
    refine .own _ (own.trans ?_)
    rw [kindFault?]
    all_goals assumption

/-- An object without a type is refused for the want of one. -/
theorem Refused.untyped (absent : fields.lookup "fact" = none)
    (untyped : ∀ kind, fields.lookup "type" ≠ some (.string kind))
    (refused : read position (.object fields) = .error error) : Refused (.object fields) error := by
  have no_type : typeIn fields = refuse .noType := by
    rw [typeIn]
    split
    · rename_i typed
      exact absurd typed (untyped _)
    · rfl
  have own : ownFault? (.object fields) = some .noType := by
    simp only [ownFault?, absent]
  rw [read] at refused
  split at refused
  · cases refused
  · simp only [absent, Option.isSome_none, Bool.false_eq_true, if_false, no_type] at refused
    cases refused
    exact .own _ own

/-- A part of a stored condition is refused for a fault of its own, or, being in order itself, for
one of its parts. -/
theorem refused_of_read (refused : read position value = .error error) : Refused value error := by
  cases value with
  | object fields =>
    cases short : fields.lookup "fact" with
    | some fact => exact .short short refused
    | none =>
      by_cases typed : ∃ kind, fields.lookup "type" = some (.string kind)
      · obtain ⟨kind, typed⟩ := typed
        exact .typed short typed refused
      · exact .untyped short (not_exists.mp typed) refused
  | bool answer => cases position <;> cases refused
  | _ =>
    cases position with
    | operand => cases refused
    | node =>
      cases refused
      exact .own _ rfl

/-- What is refused where an operand stands is refused as well, for the same, where a node does. -/
theorem read_node_of_read (refused : read position value = .error error) :
    read .node value = .error error := by
  cases position with
  | node => exact refused
  | operand =>
    cases value with
    | object fields =>
      rw [read] at refused ⊢
      split at refused
      · cases refused
      · exact refused
    | _ => cases refused

end Reading

section Places

variable {position : Position} {value : Json} {error : ParseError}

/-- A path leads in a stored condition to the node that is wrong: that node alone is refused for the
fault, which is its own, and the nodes on the way are in order themselves. -/
structure Blames (value : Json) (error : ParseError) (part : Json) : Prop where
  found : at? error.path value = some part
  alone : parse part = .error ⟨[], error.fault⟩
  own : ownFault? part = some error.fault
  passed : ∀ before step rest, error.path = before ++ step :: rest →
    ∃ node, at? before value = some node ∧ ownFault? node = none

theorem Blames.under {step : Step} {part target : Json} (sound : ownFault? value = none)
    (found : part? value step = some part) (blames : Blames part error target) :
    Blames value (error.under step) target where
  found := by
    rw [ParseError.under, at?, found]
    exact blames.found
  alone := blames.alone
  own := blames.own
  passed before next rest same := by
    cases before with
    | nil => exact ⟨value, rfl, sound⟩
    | cons first before =>
      obtain ⟨rfl, inner⟩ := List.cons.inj same
      obtain ⟨node, reached, node_sound⟩ := blames.passed before next rest inner
      exact ⟨node, by rw [at?, found]; exact reached, node_sound⟩

/-- By induction on the path: each step leads into the part that was refused. -/
theorem exists_blames (path : Path) (fault : NodeFault) {position : Position} {value : Json}
    (refused : read position value = .error ⟨path, fault⟩) :
    ∃ part, Blames value ⟨path, fault⟩ part := by
  induction path generalizing position value with
  | nil =>
    refine ⟨value, rfl, read_node_of_read refused, ?_, fun before _ _ same => ?_⟩
    · generalize error : ParseError.mk [] fault = error at refused
      cases refused_of_read refused with
      | own _ wrong =>
        cases error
        exact wrong
      | inner => cases error
    · simp at same
  | cons step path ih =>
    generalize error : ParseError.mk (step :: path) fault = error at refused
    cases refused_of_read refused with
    | own => cases error
    | inner sound next part found position inner refused_alone =>
      cases error
      obtain ⟨target, blames⟩ := ih refused_alone
      exact ⟨target, blames.under sound found⟩

end Places

section Messages

private theorem toList_text_children (index : Nat) : (Step.children index).text.toList =
    ['.', 'c', 'h', 'i', 'l', 'd', 'r', 'e', 'n', '['] ++ (Nat.toDigits 10 index ++ [']']) := by
  simp [Step.text, Nat.toString_eq_repr, Nat.toList_repr]

private theorem toList_text_step (step : Step) : ∃ rest, step.text.toList = '.' :: rest := by
  cases step with
  | children index => exact ⟨_, toList_text_children index⟩
  | _ => exact ⟨_, rfl⟩

/-- A number in brackets can be read off a text that goes on behind it. -/
theorem index_append_inj {i j : Nat} {a b : List Char}
    (same : Nat.toDigits 10 i ++ ']' :: a = Nat.toDigits 10 j ++ ']' :: b) : i = j ∧ a = b := by
  have digits (n : Nat) (rest : List Char) :
      (Nat.toDigits 10 n ++ ']' :: rest).takeWhile Char.isDigit = Nat.toDigits 10 n := by
    rw [List.takeWhile_append_of_pos fun c => Nat.isDigit_of_mem_toDigits (by decide) (by decide)]
    simp
  have equal : Nat.toDigits 10 i = Nat.toDigits 10 j := by rw [← digits i a, same, digits]
  have indices : i = j := calc
    i = Nat.ofDigitChars 10 (Nat.toDigits 10 i) 0 := Nat.ofDigitChars_ten_toDigits.symm
    _ = Nat.ofDigitChars 10 (Nat.toDigits 10 j) 0 := by rw [equal]
    _ = j := Nat.ofDigitChars_ten_toDigits
  rw [equal] at same
  exact ⟨indices, (List.cons.inj (List.append_cancel_left same)).2⟩

/-- A text that goes on behind a child with another letter than `r` does not lead to children. -/
theorem child_append_ne_children (index : Nat) {a b : List Char} (follows : a.head? ≠ some 'r') :
    Step.child.text.toList ++ a ≠ (Step.children index).text.toList ++ b := by
  intro same
  rw [toList_text_children] at same
  have behind : a = ['r', 'e', 'n', '['] ++ (Nat.toDigits 10 index ++ [']']) ++ b :=
    List.append_cancel_left same
  exact follows (congrArg List.head? behind)

/-- A step can be read off a text that goes on behind it with another letter than `r`. -/
theorem step_append_inj {s t : Step} {a b : List Char} (follows : a.head? ≠ some 'r')
    (follows' : b.head? ≠ some 'r') (same : s.text.toList ++ a = t.text.toList ++ b) :
    s = t ∧ a = b := by
  cases s with
  | lhs =>
    cases t with
    | lhs => exact ⟨rfl, List.append_cancel_left same⟩
    | _ => simp [Step.text] at same
  | rhs =>
    cases t with
    | rhs => exact ⟨rfl, List.append_cancel_left same⟩
    | _ => simp [Step.text] at same
  | value =>
    cases t with
    | value => exact ⟨rfl, List.append_cancel_left same⟩
    | _ => simp [Step.text] at same
  | child =>
    cases t with
    | child => exact ⟨rfl, List.append_cancel_left same⟩
    | children index => exact absurd same (child_append_ne_children index follows)
    | _ => simp [Step.text] at same
  | children i =>
    cases t with
    | children j =>
      simp only [toList_text_children, List.append_assoc] at same
      obtain ⟨rfl, rest⟩ := index_append_inj (List.append_cancel_left same)
      exact ⟨rfl, rest⟩
    | child => exact absurd same.symm (child_append_ne_children i follows')
    | _ => simp [Step.text] at same

theorem toList_text (path : Path) (behind : String) : (path.text "$" ++ ": " ++ behind).toList =
    '$' :: (path.flatMap (·.text.toList) ++ ':' :: ' ' :: behind.toList) := by
  simp [Path.text, String.toList_join, List.flatMap_map]

/-- Behind a path there is a point or the colon that ends it. -/
theorem head?_steps_append (path : Path) (rest : List Char) :
    (path.flatMap (·.text.toList) ++ ':' :: rest).head? =
      some (if path = [] then ':' else '.') := by
  cases path with
  | nil => rfl
  | cons step path =>
    obtain ⟨tail, text⟩ := toList_text_step step
    rw [List.flatMap_cons, text]
    rfl

private theorem colon_ne_steps_append (step : Step) (path : Path) (a b : List Char) :
    ':' :: a ≠ (step :: path).flatMap (·.text.toList) ++ ':' :: b := by
  intro same
  have heads := congrArg List.head? same
  rw [head?_steps_append] at heads
  simp at heads

/-- A path can be read off a text in which a colon ends it. -/
theorem steps_append_inj {p q : Path} {a b : List Char}
    (same : p.flatMap (·.text.toList) ++ ':' :: a = q.flatMap (·.text.toList) ++ ':' :: b) :
    p = q ∧ a = b := by
  have follows (path : Path) (rest : List Char) :
      (path.flatMap (·.text.toList) ++ ':' :: rest).head? ≠ some 'r' := by
    rw [head?_steps_append]
    split <;> decide
  induction p generalizing q with
  | nil =>
    cases q with
    | nil => exact ⟨rfl, (List.cons.inj same).2⟩
    | cons step q => exact absurd same (colon_ne_steps_append step q a b)
  | cons step p ih =>
    cases q with
    | nil => exact absurd same.symm (colon_ne_steps_append step p b a)
    | cons other q =>
      rw [List.flatMap_cons, List.flatMap_cons, List.append_assoc, List.append_assoc] at same
      obtain ⟨rfl, rest⟩ := step_append_inj (follows p a) (follows q b) same
      obtain ⟨rfl, behind⟩ := ih rest
      exact ⟨rfl, behind⟩

/-- The message of an error can be taken apart in one way only. -/
theorem ParseError.detail_eq_iff {error : ParseError} {path : Path} {message : String} :
    error.detail = path.text "$" ++ ": " ++ message ↔
      path = error.path ∧ message = error.fault.message := by
  constructor
  · intro same
    have chars := congrArg String.toList same
    rw [detail, toList_text, toList_text] at chars
    obtain ⟨rfl, rest⟩ := steps_append_inj (List.cons.inj chars).2
    exact ⟨rfl, (String.toList_inj.mp (List.cons.inj rest).2).symm⟩
  · rintro ⟨rfl, rfl⟩
    rfl

end Messages

/-- A stored condition that is refused is refused for the node to which the path of the error leads:
that node alone is refused for the same, and the fault is its own, not that of a node on the way or
of a part. So it is for the path that stands in the message, in whatever way that is taken apart. -/
theorem parse_blames_part {value : Json} {error : ParseError}
    (refused : parse value = .error error) :
    (∃ part, Blames value error part) ∧
      error.detail = error.path.text "$" ++ ": " ++ error.fault.message ∧
      ∀ (path : Path) (message : String), error.detail = path.text "$" ++ ": " ++ message →
        ∃ part again, at? path value = some part ∧ parse part = .error again ∧
          again.detail = "$: " ++ message := by
  obtain ⟨part, blames⟩ := exists_blames error.path error.fault refused
  refine ⟨⟨part, blames⟩, rfl, fun path message written => ?_⟩
  obtain ⟨rfl, rfl⟩ := ParseError.detail_eq_iff.mp written
  exact ⟨part, _, blames.found, blames.alone, rfl⟩

/-- A node whose name is blank. -/
def blankNode : Json := .object [("name", .string " "), ("type", .string "var")]

/-- A short comparison with that node for a value, deep in a stored condition. -/
def blankNameDocument : Json :=
  .object [("children", .array [
      .bool true,
      .object [("child", .object [
          ("lhs", .object [("fact", .string "plan"), ("operator", .string "eq"),
            ("value", blankNode)]),
          ("op", .string "eq"), ("rhs", .bool true), ("type", .string "compare")]),
        ("type", .string "not")]]),
    ("type", .string "or")]

theorem parse_blames_part_blankName :
    let error : ParseError := ⟨[.children 1, .child, .lhs, .value], .blankName "name"⟩
    parse blankNameDocument = .error error ∧ Blames blankNameDocument error blankNode ∧
      error.detail = "$.children[1].child.lhs.value: name 必须是非空字符串" ∧
      ∃ part again, at? error.path blankNameDocument = some part ∧ parse part = .error again ∧
        again.detail = "$: " ++ error.fault.message := by
  intro error
  have refused : parse blankNameDocument = .error error := by rfl
  obtain ⟨⟨part, blames⟩, written, reads⟩ := parse_blames_part refused
  obtain rfl : blankNode = part := Option.some.inj blames.found
  exact ⟨refused, blames, by decide +kernel, reads error.path error.fault.message written⟩

end Condition

end RuleBook
