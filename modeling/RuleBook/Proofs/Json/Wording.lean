import RuleBook.Proofs.Json.Shapes
import RuleBook.Proofs.Json.Texts

/-! # Values with one text

The text of a value is its own. The text of a part shows where it ends, whatever follows it there,
so the parts of two equal texts are equal one by one, quotes and backslashes inside of strings
included; and numbers with one text are one number.

Where objects are maps from keys to values, two of them have one text exactly when they are written
alike, in whatever orders they were filled.
-/

namespace RuleBook

namespace Json

/-- Values that are written alike: numbers by what is printed of them, arrays item by item, and
objects by the values under their keys. -/
inductive WrittenAlike : Json → Json → Prop
  | null : WrittenAlike .null .null
  | bool (value : Bool) : WrittenAlike (.bool value) (.bool value)
  | number {x y : JsonNumber} (printed : x.text = y.text) : WrittenAlike (.number x) (.number y)
  | string (text : String) : WrittenAlike (.string text) (.string text)
  | emptyArray : WrittenAlike (.array []) (.array [])
  | array {x y : Json} {xs ys : List Json} (first : WrittenAlike x y)
      (others : WrittenAlike (.array xs) (.array ys)) :
      WrittenAlike (.array (x :: xs)) (.array (y :: ys))
  | object {xs ys : List (String × Json)}
      (keys : ∀ key, (xs.lookup key).isSome = (ys.lookup key).isSome)
      (values : ∀ key x y, xs.lookup key = some x → ys.lookup key = some y → WrittenAlike x y) :
      WrittenAlike (.object xs) (.object ys)

section Kinds

/-- Values of one kind. -/
inductive SameKind : Json → Json → Prop
  | null : SameKind .null .null
  | bool (x y : Bool) : SameKind (.bool x) (.bool y)
  | number (x y : JsonNumber) : SameKind (.number x) (.number y)
  | string (x y : String) : SameKind (.string x) (.string y)
  | array (xs ys : List Json) : SameKind (.array xs) (.array ys)
  | object (xs ys : List (String × Json)) : SameKind (.object xs) (.object ys)

/-- Where a number is read, it is one or it is unreadable. -/
theorem readNumber_cases (negative : Bool) (cs : List Char) :
    (∃ n, (Document.readNumber negative cs).value = .number n) ∨
      (Document.readNumber negative cs).value = .unreadable := by
  have leaf (number : Option JsonNumber) :
      (∃ n, (number.map Document.number).getD .unreadable = .number n) ∨
        (number.map Document.number).getD .unreadable = .unreadable := by
    cases number with
    | none => exact .inr rfl
    | some n => exact .inl ⟨n, rfl⟩
  simp only [Document.readNumber]
  split
  · exact .inr rfl
  split
  · split
    · exact .inr rfl
    split
    · exact leaf _
    · exact .inr rfl
  · split
    · exact leaf _
    · exact leaf _
    · exact .inr rfl

/-- Only a number is read where a number stands. -/
theorem exists_number_of_reread_eq {value : Json} {n : JsonNumber}
    (alike : value.reread 127 = n.reread) : ∃ m, value = .number m := by
  have read : (∃ m, value.reread 127 = .number m) ∨ value.reread 127 = .unreadable :=
    alike ▸ readNumber_cases ..
  cases value with
  | number m => exact ⟨m, rfl⟩
  | _ => rcases read with ⟨_, ⟨⟩⟩ | ⟨⟨⟩⟩

private theorem reread_eq_of_text_eq {a b : Json} (same : a.text = b.text) :
    a.reread 127 = b.reread 127 := by
  have read := Document.read_text a
  rw [same, Document.read_text b] at read
  exact (Prod.mk.inj read).1.symm

/-- The text of a value tells its kind. -/
theorem sameKind_of_text_eq {a b : Json} (same : a.text = b.text) : SameKind a b := by
  have alike := reread_eq_of_text_eq same
  cases a with
  | number n =>
    obtain ⟨m, rfl⟩ := exists_number_of_reread_eq alike.symm
    exact .number n m
  | null =>
    cases b with
    | null => exact .null
    | number n => obtain ⟨_, ⟨⟩⟩ := exists_number_of_reread_eq alike
    | _ => cases alike
  | bool x =>
    cases b with
    | bool y => exact .bool x y
    | number n => obtain ⟨_, ⟨⟩⟩ := exists_number_of_reread_eq alike
    | _ => cases alike
  | string x =>
    cases b with
    | string y => exact .string x y
    | number n => obtain ⟨_, ⟨⟩⟩ := exists_number_of_reread_eq alike
    | _ => cases alike
  | array xs =>
    cases b with
    | array ys => exact .array xs ys
    | number n => obtain ⟨_, ⟨⟩⟩ := exists_number_of_reread_eq alike
    | _ => cases alike
  | object xs =>
    cases b with
    | object ys => exact .object xs ys
    | number n => obtain ⟨_, ⟨⟩⟩ := exists_number_of_reread_eq alike
    | _ => cases alike

end Kinds

section Parts

variable {a b : Json} {rest rest' : List Char}

/-- The text of a value shows where it ends. -/
theorem text_append_inj (ends : Document.Ends rest) (ends' : Document.Ends rest')
    (same : a.text.toList ++ rest = b.text.toList ++ rest') : a.text = b.text ∧ rest = rest' := by
  -- The reader takes a text and no more, so what it leaves of the common whole is either rest.
  let fuel := 2 * (a.text.toList.length + b.text.toList.length)
  have first := Document.readValue_text a fuel 127 (by omega) ends
  have second := Document.readValue_text b fuel 127 (by omega) ends'
  rw [same, second] at first
  injection first with _ left
  obtain rfl := Option.some.inj left
  exact ⟨String.toList_inj.mp (List.append_cancel_right same), rfl⟩

/-- An escaped text shows where it ends. -/
theorem escape_append_inj {s t : String}
    (same : (escape s).toList ++ rest = (escape t).toList ++ rest') : s = t ∧ rest = rest' := by
  rw [toList_escape, toList_escape] at same
  have first := Document.readString_escapeAll s rest
  rw [List.tail_eq_of_cons_eq same, Document.readString_escapeAll t rest'] at first
  injection first with read left
  exact ⟨(Option.some.inj read).symm, (Option.some.inj left).symm⟩

private theorem textItems_ne_empty (item : Json) (others : List Json) :
    textItems (item :: others) ≠ "" := by
  intro empty
  have positive := Document.text_length_pos item
  have none_left := congrArg (·.toList.length) empty
  simp only [Document.toList_textItems, List.length_append, String.toList_empty,
    List.length_nil] at none_left
  omega

private theorem textFields_ne_empty (key : String) (value : Json) (others : List (String × Json)) :
    textFields ((key, value) :: others) ≠ "" := by
  intro empty
  have positive := Document.text_length_pos value
  have none_left := congrArg (·.toList.length) empty
  simp only [Document.toList_textFields, List.length_append, List.length_cons,
    String.toList_empty, List.length_nil] at none_left
  omega

/-- Arrays with one text agree in what is written of their items behind another item. -/
theorem text_array_eq_iff {xs ys : List Json} :
    (Json.array xs).text = (Json.array ys).text ↔ textFurtherItems xs = textFurtherItems ys := by
  have items : (Json.array xs).text = (Json.array ys).text ↔ textItems xs = textItems ys := by
    simp [text]
  rw [items]
  cases xs with
  | nil =>
    cases ys with
    | nil => exact Iff.rfl
    | cons y ys => simp [textFurtherItems, textItems, (textItems_ne_empty y ys).symm]
  | cons x xs =>
    cases ys with
    | nil => simp [textFurtherItems, textItems, textItems_ne_empty x xs]
    | cons y ys => simp [textFurtherItems]

/-- Objects with one text agree in what is written of their fields behind another field. -/
theorem text_object_eq_iff {xs ys : List (String × Json)} :
    (Json.object xs).text = (Json.object ys).text ↔
      textFurtherFields xs = textFurtherFields ys := by
  have fields : (Json.object xs).text = (Json.object ys).text ↔ textFields xs = textFields ys := by
    simp [text]
  rw [fields]
  cases xs with
  | nil =>
    cases ys with
    | nil => exact Iff.rfl
    | cons y ys => simp [textFurtherFields, textFields, (textFields_ne_empty y.1 y.2 ys).symm]
  | cons x xs =>
    cases ys with
    | nil => simp [textFurtherFields, textFields, textFields_ne_empty x.1 x.2 xs]
    | cons y ys => simp [textFurtherFields]

/-- What is written of items behind another one shows the first of them. -/
theorem textFurtherItems_cons_inj {x y : Json} {xs ys : List Json}
    (same : textFurtherItems (x :: xs) = textFurtherItems (y :: ys)) :
    x.text = y.text ∧ textFurtherItems xs = textFurtherItems ys := by
  have closed := congrArg (fun text => text.toList ++ [']']) same
  simp only [Document.toList_furtherItems, List.cons_append, List.cons.injEq, true_and,
    List.append_assoc] at closed
  obtain ⟨first, others⟩ := text_append_inj (Document.ends_furtherItems xs []).1
    (Document.ends_furtherItems ys []).1 closed
  exact ⟨first, String.toList_inj.mp (List.append_cancel_right others)⟩

/-- What is written of fields behind another one shows the first of them. -/
theorem textFurtherFields_cons_inj {key key' : String} {x y : Json} {xs ys : List (String × Json)}
    (same : textFurtherFields ((key, x) :: xs) = textFurtherFields ((key', y) :: ys)) :
    key = key' ∧ x.text = y.text ∧ textFurtherFields xs = textFurtherFields ys := by
  have closed := congrArg (fun text => text.toList ++ ['}']) same
  simp only [Document.toList_furtherFields, List.cons_append, List.cons.injEq, true_and,
    List.append_assoc] at closed
  obtain ⟨same_key, closed⟩ := escape_append_inj closed
  obtain ⟨first, others⟩ := text_append_inj (Document.ends_furtherFields xs []).1
    (Document.ends_furtherFields ys []).1 (List.tail_eq_of_cons_eq closed)
  exact ⟨same_key, first, String.toList_inj.mp (List.append_cancel_right others)⟩

end Parts

private theorem optionRel_of_isSome_eq {α β : Type} {r : α → β → Prop} {left : Option α}
    {right : Option β} (known : left.isSome = right.isSome)
    (related : ∀ x y, left = some x → right = some y → r x y) : Option.Rel r left right := by
  cases left with
  | none =>
    cases right with
    | none => exact .none
    | some y => cases known
  | some x =>
    cases right with
    | none => cases known
    | some y => exact .some (related x y rfl rfl)

/-- Objects are written alike when the values under every key are. -/
theorem writtenAlike_object_iff {xs ys : List (String × Json)} :
    WrittenAlike (.object xs) (.object ys) ↔
      ∀ key, Option.Rel WrittenAlike (xs.lookup key) (ys.lookup key) := by
  constructor
  · intro alike key
    cases alike with
    | object keys values => exact optionRel_of_isSome_eq (keys key) (values key)
  · intro found
    refine .object (fun key => ?_) (fun key x y left right => ?_)
    · have alike := found key
      generalize xs.lookup key = left, ys.lookup key = right at alike
      cases alike <;> rfl
    · have alike := found key
      rw [left, right] at alike
      cases alike
      assumption

section Numbers

/-- The text of a floating-point number has a point or an exponent. -/
theorem exists_mark_mem_text (x : Double) : ∃ c ∈ x.text.toList, c = '.' ∨ c = 'e' := by
  have magnitude : ∃ c ∈ x.magnitudeText.toList, c = '.' ∨ c = 'e' := by
    rw [Double.magnitudeText]
    split
    · exact ⟨'.', by decide, .inl rfl⟩
    · rw [Double.toList_layOut, Double.layOutDigits]
      dsimp only
      split
      · exact ⟨'.', by simp, .inl rfl⟩
      split
      · exact ⟨'.', by simp, .inl rfl⟩
      split
      · exact ⟨'.', by simp, .inl rfl⟩
      split <;> exact ⟨'e', by simp, .inr rfl⟩
  obtain ⟨c, member, mark⟩ := magnitude
  rw [Double.text_eq, String.toList_append]
  exact ⟨c, List.mem_append_right _ member, mark⟩

/-- The text of an integer has nothing but a sign and digits. -/
theorem isDigit_of_mem_text_int {n : JsonInt} {c : Char}
    (member : c ∈ (JsonNumber.int n).text.toList) : c = '-' ∨ c.isDigit = true := by
  rw [JsonNumber.toList_text, List.mem_append] at member
  rcases member with member | member
  · split at member
    · exact .inl (List.mem_singleton.mp member)
    · cases member
  · rw [JsonNumber.magnitudeText, Nat.toString_eq_repr, Nat.toList_repr] at member
    exact .inr (isDigit_of_mem_toDigits member)

private theorem text_int_ne_text_float (n : JsonInt) (x : Double) :
    (JsonNumber.int n).text ≠ (JsonNumber.float x).text := by
  intro same
  obtain ⟨c, member, mark⟩ := exists_mark_mem_text x
  have written : c ∈ (JsonNumber.int n).text.toList := by rwa [same]
  rcases mark with rfl | rfl <;> simpa using isDigit_of_mem_text_int written

/-- Numbers with one text are the same. -/
theorem number_eq_of_text_eq {n m : JsonNumber} (same : n.text = m.text) : n = m := by
  cases n with
  | int n =>
    cases m with
    | int m =>
      have texts : (Json.number (.int n)).text = (Json.number (.int m)).text := same
      have read : JsonNumber.reread (.int n) = JsonNumber.reread (.int m) :=
        reread_eq_of_text_eq texts
      rw [JsonNumber.reread_int, JsonNumber.reread_int] at read
      exact Document.number.inj read
    | float y => exact absurd same (text_int_ne_text_float n y)
  | float x =>
    cases m with
    | int m => exact absurd same.symm (text_int_ne_text_float m x)
    | float y => rw [Double.text_inj.mp same]

end Numbers

mutual

/-- Values with one text are the same. -/
theorem eq_of_text_eq : (a : Json) → ∀ {b : Json}, a.text = b.text → a = b
  | .null, b, same => by
    cases sameKind_of_text_eq same
    rfl
  | .bool x, b, same => by
    have alike := reread_eq_of_text_eq same
    cases sameKind_of_text_eq same
    cases alike
    rfl
  | .number n, b, same => by
    cases sameKind_of_text_eq same
    rw [number_eq_of_text_eq same]
  | .string s, b, same => by
    have alike := reread_eq_of_text_eq same
    cases sameKind_of_text_eq same
    cases alike
    rfl
  | .array xs, b, same => by
    cases sameKind_of_text_eq same
    rw [eq_of_textFurtherItems_eq xs (text_array_eq_iff.mp same)]
  | .object xs, b, same => by
    cases sameKind_of_text_eq same
    rw [eq_of_textFurtherFields_eq xs (text_object_eq_iff.mp same)]

private theorem eq_of_textFurtherItems_eq : (xs : List Json) → ∀ {ys : List Json},
    textFurtherItems xs = textFurtherItems ys → xs = ys
  | [], [], _ => rfl
  | [], y :: ys, same => absurd same (by simp [textFurtherItems])
  | x :: xs, [], same => absurd same (by simp [textFurtherItems])
  | x :: xs, y :: ys, same => by
    obtain ⟨first, others⟩ := textFurtherItems_cons_inj same
    rw [eq_of_text_eq x first, eq_of_textFurtherItems_eq xs others]

private theorem eq_of_textFurtherFields_eq : (xs : List (String × Json)) →
    ∀ {ys : List (String × Json)}, textFurtherFields xs = textFurtherFields ys → xs = ys
  | [], [], _ => rfl
  | [], y :: ys, same => absurd same (by simp [textFurtherFields])
  | x :: xs, [], same => absurd same (by simp [textFurtherFields])
  | (key, x) :: xs, (key', y) :: ys, same => by
    obtain ⟨same_key, first, others⟩ := textFurtherFields_cons_inj same
    rw [same_key, eq_of_text_eq x first, eq_of_textFurtherFields_eq xs others]

end

/-- The text of a value is its own. -/
theorem text_inj {a b : Json} : a.text = b.text ↔ a = b := ⟨eq_of_text_eq a, congrArg text⟩

mutual

theorem WrittenAlike.refl : (a : Json) → WrittenAlike a a
  | .null => .null
  | .bool value => .bool value
  | .number _ => .number rfl
  | .string text => .string text
  | .array items => WrittenAlike.refl_array items
  | .object fields => by
    refine .object (fun _ => rfl) fun key x y left right => ?_
    obtain rfl := Option.some.inj (left.symm.trans right)
    exact WrittenAlike.refl_of_lookup fields left

private theorem WrittenAlike.refl_array : (items : List Json) →
    WrittenAlike (.array items) (.array items)
  | [] => .emptyArray
  | item :: others => .array (WrittenAlike.refl item) (WrittenAlike.refl_array others)

private theorem WrittenAlike.refl_of_lookup : (fields : List (String × Json)) → ∀ {key : String}
    {value : Json}, fields.lookup key = some value → WrittenAlike value value
  | [], _, _, found => nomatch found
  | (other, held) :: rest, key, value, found => by
    rw [List.lookup_cons] at found
    split at found
    · cases found
      exact WrittenAlike.refl held
    · exact WrittenAlike.refl_of_lookup rest found

end

/-- Values with one text are written alike. -/
theorem writtenAlike_of_text_eq {a b : Json} (same : a.text = b.text) : WrittenAlike a b :=
  text_inj.mp same ▸ .refl a

section Maps

variable {α : Type}

private theorem lookup_cons_eq_ite (key other : String) (value : α) (rest : List (String × α)) :
    ((other, value) :: rest).lookup key = if key = other then some value else rest.lookup key := by
  rw [List.lookup_cons]
  by_cases same : key = other
  · simp [same]
  · rw [beq_false_of_ne same, if_neg same]

/-- Where keys are distinct, a field is found exactly where it is. -/
theorem lookup_eq_some_iff_mem {fields : List (String × α)} (distinct : (fields.map Prod.fst).Nodup)
    {key : String} {value : α} : fields.lookup key = some value ↔ (key, value) ∈ fields := by
  induction fields with
  | nil => simp
  | cons field rest ih =>
    obtain ⟨other, held⟩ := field
    obtain ⟨fresh, distinct⟩ := List.nodup_cons.mp distinct
    rw [lookup_cons_eq_ite, List.mem_cons, Prod.mk.injEq]
    by_cases same : key = other
    · subst same
      have absent : (key, value) ∉ rest := fun member =>
        fresh (List.mem_map.mpr ⟨_, member, rfl⟩)
      simp [absent, eq_comm]
    · simp [same, ih distinct]

/-- Fields in key order are determined by what is found in them. -/
theorem eq_of_sorted_of_lookup_eq {xs ys : List (String × α)}
    (xs_sorted : (xs.map Prod.fst).Pairwise (· < ·))
    (ys_sorted : (ys.map Prod.fst).Pairwise (· < ·))
    (same : ∀ key, xs.lookup key = ys.lookup key) : xs = ys := by
  have distinct {fields : List (String × α)} (sorted : (fields.map Prod.fst).Pairwise (· < ·)) :
      (fields.map Prod.fst).Nodup := sorted.imp fun less => Std.ne_of_lt less
  have perm : xs.Perm ys := by
    rw [List.perm_ext_iff_of_nodup (distinct xs_sorted).of_map (distinct ys_sorted).of_map]
    rintro ⟨key, value⟩
    rw [← lookup_eq_some_iff_mem (distinct xs_sorted), same,
      lookup_eq_some_iff_mem (distinct ys_sorted)]
  refine List.Perm.eq_of_pairwise ?_ (List.pairwise_map.mp xs_sorted)
    (List.pairwise_map.mp ys_sorted) perm
  intro x y _ _ first second
  exact absurd (String.lt_trans first second) Std.lt_irrefl

private theorem lookup_map (change : Json → α) (fields : List (String × Json)) (key : String) :
    (fields.map fun field => (field.1, change field.2)).lookup key =
      (fields.lookup key).map change := by
  induction fields with
  | nil => rfl
  | cons field rest ih =>
    rw [List.map_cons, List.lookup_cons, List.lookup_cons]
    split
    · rfl
    · exact ih

private theorem wellFormed_of_lookup {fields : List (String × Json)}
    (formed : WellFormedFields fields)
    {key : String} {value : Json} (found : fields.lookup key = some value) : value.WellFormed := by
  induction fields with
  | nil => cases found
  | cons field rest ih =>
    rw [List.lookup_cons] at found
    split at found
    · cases found
      exact formed.1
    · exact ih formed.2 found

end Maps

/-- The keys of fields with what is written of their values. -/
def fieldTexts (fields : List (String × Json)) : List (String × String) :=
  fields.map fun field => (field.1, field.2.text)

/-- What is written of fields depends on their keys and on what is written of their values. -/
theorem textFurtherFields_congr {xs ys : List (String × Json)}
    (same : fieldTexts xs = fieldTexts ys) : textFurtherFields xs = textFurtherFields ys := by
  induction xs generalizing ys with
  | nil =>
    cases ys with
    | nil => rfl
    | cons y ys => cases same
  | cons x xs ih =>
    cases ys with
    | nil => cases same
    | cons y ys =>
      simp only [fieldTexts, List.map_cons, List.cons.injEq, Prod.mk.injEq] at same
      obtain ⟨⟨same_key, first⟩, others⟩ := same
      rw [textFurtherFields, textFurtherFields, textFields_cons, textFields_cons, same_key, first,
        ih others]

private theorem text_array_cons {x y : Json} {xs ys : List Json} (first : x.text = y.text)
    (others : (Json.array xs).text = (Json.array ys).text) :
    (Json.array (x :: xs)).text = (Json.array (y :: ys)).text := by
  rw [text_array_eq_iff] at others ⊢
  rw [textFurtherItems, textFurtherItems, textItems_cons, textItems_cons, first, others]

/-- Values that are written alike have one text. -/
theorem WrittenAlike.text_eq {a b : Json} (alike : WrittenAlike a b) (a_formed : a.WellFormed)
    (b_formed : b.WellFormed) : a.text = b.text := by
  induction alike with
  | null => rfl
  | bool value => rfl
  | number printed => exact printed
  | string text => rfl
  | emptyArray => rfl
  | array _ _ first others =>
    exact text_array_cons (first a_formed.1 b_formed.1) (others a_formed.2 b_formed.2)
  | @object xs ys keys _ texts =>
    have sorted {fields : List (String × Json)} (formed : (Json.object fields).WellFormed) :
        ((fieldTexts fields).map Prod.fst).Pairwise (· < ·) := by
      rw [fieldTexts, List.map_map]
      exact formed.1
    refine text_object_eq_iff.mpr (textFurtherFields_congr ?_)
    refine eq_of_sorted_of_lookup_eq (sorted a_formed) (sorted b_formed) fun key => ?_
    have same : Option.Rel (fun x y : Json => x.text = y.text) (xs.lookup key) (ys.lookup key) :=
      optionRel_of_isSome_eq (keys key) fun x y left right => texts key x y left right
        (wellFormed_of_lookup a_formed.2 left) (wellFormed_of_lookup b_formed.2 right)
    rw [fieldTexts, fieldTexts, lookup_map, lookup_map]
    generalize xs.lookup key = left, ys.lookup key = right at same ⊢
    cases same with
    | none => rfl
    | some printed => exact congrArg some printed

/-- Two values have one text exactly when they are written alike. -/
theorem text_eq_iff {a b : Json} (a_formed : a.WellFormed) (b_formed : b.WellFormed) :
    a.text = b.text ↔ WrittenAlike a b :=
  ⟨writtenAlike_of_text_eq, fun alike => alike.text_eq a_formed b_formed⟩

section Insertions

variable {α : Type}

private theorem lookup_insertField (key other : String) (value : α) (fields : List (String × α)) :
    (insertField key value fields).lookup other =
      if other = key then some value else fields.lookup other := by
  induction fields with
  | nil => rw [insertField, lookup_cons_eq_ite]
  | cons field rest ih =>
    obtain ⟨first, held⟩ := field
    rw [insertField]
    split
    · rw [lookup_cons_eq_ite]
    split
    · rename_i same_key
      subst same_key
      rw [lookup_cons_eq_ite, lookup_cons_eq_ite]
      split <;> rfl
    · rename_i different
      rw [lookup_cons_eq_ite, ih, lookup_cons_eq_ite]
      by_cases same : other = first
      · subst same
        rw [if_pos rfl, if_neg (Ne.symm different), if_pos rfl]
      · rw [if_neg same, if_neg same]

/-- Of several values that are put under one key the last is found. -/
theorem lookup_sortFields (entries : List (String × α)) (key : String) :
    (sortFields entries).lookup key = entries.reverse.lookup key := by
  induction entries using List.reverseRecOn with
  | nil => rfl
  | append_singleton earlier entry ih =>
    rw [sortFields_concat, lookup_insertField, ih, List.reverse_append, List.reverse_singleton,
      List.singleton_append, lookup_cons_eq_ite]

private theorem eq_or_mem_of_mem_keys_insertField {key other : String} {value : α}
    {fields : List (String × α)} (member : other ∈ (insertField key value fields).map Prod.fst) :
    other = key ∨ other ∈ fields.map Prod.fst := by
  induction fields with
  | nil => exact .inl (List.mem_singleton.mp member)
  | cons field rest ih =>
    rw [insertField] at member
    split at member
    · exact List.mem_cons.mp member
    split at member
    · exact (List.mem_cons.mp member).imp id (List.mem_cons_of_mem _)
    · rcases List.mem_cons.mp member with rfl | member
      · exact .inr List.mem_cons_self
      · exact (ih member).imp id (List.mem_cons_of_mem _)

private theorem sorted_insertField {key : String} (value : α) {fields : List (String × α)}
    (sorted : (fields.map Prod.fst).Pairwise (· < ·)) :
    ((insertField key value fields).map Prod.fst).Pairwise (· < ·) := by
  induction fields with
  | nil => exact List.pairwise_singleton _ _
  | cons field rest ih =>
    obtain ⟨above, sorted_rest⟩ := List.pairwise_cons.mp sorted
    rw [insertField]
    split
    · rename_i less
      refine List.pairwise_cons.mpr ⟨fun other member => ?_, sorted⟩
      rcases List.mem_cons.mp member with rfl | member
      · exact less
      · exact String.lt_trans less (above other member)
    split
    · rename_i same
      subst same
      exact List.pairwise_cons.mpr ⟨above, sorted_rest⟩
    · rename_i not_less different
      refine List.pairwise_cons.mpr ⟨fun other member => ?_, ih sorted_rest⟩
      rcases eq_or_mem_of_mem_keys_insertField member with rfl | member
      · exact Std.lt_of_le_of_ne (Std.not_lt.mp not_less) (Ne.symm different)
      · exact above other member

private theorem wellFormedFields_insertField {key : String} {value : Json}
    {fields : List (String × Json)} (first : value.WellFormed) (others : WellFormedFields fields) :
    WellFormedFields (insertField key value fields) := by
  induction fields with
  | nil => exact ⟨first, trivial⟩
  | cons field rest ih =>
    rw [insertField]
    split
    · exact ⟨first, others⟩
    split
    · exact ⟨first, others.2⟩
    · exact ⟨others.1, ih others.2⟩

/-- An object into which well-formed values are put one after the other is well-formed. -/
theorem wellFormed_sortFields {entries : List (String × Json)} (formed : WellFormedFields entries) :
    (Json.object (sortFields entries)).WellFormed := by
  suffices kept : ∀ {fields : List (String × Json)}, (Json.object fields).WellFormed →
      (Json.object (entries.foldl (fun sorted (key, value) => insertField key value sorted)
        fields)).WellFormed from kept ⟨List.Pairwise.nil, trivial⟩
  induction entries with
  | nil => exact id
  | cons entry rest ih =>
    intro fields sorted
    exact ih formed.2
      ⟨sorted_insertField entry.2 sorted.1, wellFormedFields_insertField formed.1 sorted.2⟩

end Insertions

end Json

end RuleBook
