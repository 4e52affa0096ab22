import RuleBook.Proofs.Json.Numerals

/-! # Reading back texts

The text of a JSON value is read as a document that differs from the value in two places alone:
where containers are nested deeper than is read, the inner ones are unreadable, and a floating-point
number is what its own text is read as.
-/

namespace RuleBook

section Strings

namespace Json

/-- The characters between the quotes of an escaped text. -/
def escapeAll (cs : List Char) : List Char := cs.flatMap fun c => (escapeChar c).toList

private theorem escapeAll_cons (c : Char) (cs : List Char) :
    escapeAll (c :: cs) = (escapeChar c).toList ++ escapeAll cs := List.flatMap_cons ..

theorem toList_escape (text : String) (rest : List Char) :
    (escape text).toList ++ rest = '"' :: (escapeAll text.toList ++ '"' :: rest) := by
  simp [escape, escapeAll, List.flatMap_map]

/-- The control characters without a short escape are written as their numbers. -/
theorem toList_escapeChar_control : ∀ n : Fin 32,
    n.val ≠ 8 → n.val ≠ 9 → n.val ≠ 10 → n.val ≠ 12 → n.val ≠ 13 →
      (escapeChar (Char.ofNat n)).toList =
        ['\\', 'u', '0', '0', Nat.digitChar (n / 16), Nat.digitChar (n % 16)] := by
  decide +kernel

private theorem toList_escapeChar_plain {c : Char} (large : ¬ c.toNat < 32) (quote : c ≠ '"')
    (backslash : c ≠ '\\') : (escapeChar c).toList = [c] := by
  rw [escapeChar]
  · rw [if_neg (by omega), if_neg (by omega), if_neg large]
    simp
  · exact quote
  · exact backslash
  all_goals
    rintro rfl
    exact large (by decide)

end Json

namespace Document

variable {pieces : List Piece} {cs rest : List Char}

private theorem hexUnit?_digitChar : ∀ n : Fin 32,
    hexUnit? '0' '0' (Nat.digitChar (n / 16)) (Nat.digitChar (n % 16)) = some n.val := by
  decide

private theorem toNat_ofNat_control : ∀ n : Fin 32, (Char.ofNat n).toNat = n := by decide

private theorem readPieces_plain {c : Char} (quote : c ≠ '"') (backslash : c ≠ '\\')
    (large : ¬ c.toNat < 32) (tail : readPieces cs = some (pieces, rest)) :
    readPieces (c :: cs) = some (.char c :: pieces, rest) := by
  rw [readPieces]
  · simp [large, tail]
  all_goals simp_all

/-- An escaped character is read as one part of a string: the character itself, or its number where
it is a control character. -/
theorem readPieces_escapeChar (c : Char) (tail : readPieces cs = some (pieces, rest)) :
    ∃ piece, readPieces ((Json.escapeChar c).toList ++ cs) = some (piece :: pieces, rest) ∧
      (piece = .char c ∨ piece = .unit c.toNat ∧ c.toNat < 32) := by
  by_cases control : c.toNat < 32
  · obtain ⟨n, rfl⟩ : ∃ n : Fin 32, Char.ofNat n = c := ⟨⟨c.toNat, control⟩, Char.ofNat_toNat c⟩
    by_cases short : n.val = 8 ∨ n.val = 9 ∨ n.val = 10 ∨ n.val = 12 ∨ n.val = 13
    · refine ⟨.char (Char.ofNat n), ?_, .inl rfl⟩
      rcases short with same | same | same | same | same <;>
        simp [same, Json.escapeChar, readPieces, tail]
    · simp only [not_or] at short
      obtain ⟨h8, h9, h10, h12, h13⟩ := short
      refine ⟨.unit (Char.ofNat n).toNat, ?_, .inr ⟨rfl, control⟩⟩
      rw [Json.toList_escapeChar_control n h8 h9 h10 h12 h13]
      simp [readPieces, hexUnit?_digitChar, tail, toNat_ofNat_control]
  · refine ⟨.char c, ?_, .inl rfl⟩
    by_cases quote : c = '"'
    · simp [quote, Json.escapeChar, readPieces, tail]
    by_cases backslash : c = '\\'
    · simp [backslash, Json.escapeChar, readPieces, tail]
    · rw [Json.toList_escapeChar_plain control quote backslash]
      exact readPieces_plain quote backslash control tail

private theorem joinPieces_unit {n : Nat} (small : n < 32) (pieces : List Piece) :
    joinPieces (.unit n :: pieces) = (joinPieces pieces).map (Char.ofNat n :: ·) := by
  cases pieces with
  | nil => simp [joinPieces]; omega
  | cons piece rest =>
    cases piece with
    | char c => simp [joinPieces]; omega
    | unit low => rw [joinPieces, if_neg (by omega), if_neg (by omega)]

/-- The parts of an escaped text are read up to the closing quote and joined to the text. -/
theorem readPieces_escapeAll (cs rest : List Char) :
    ∃ pieces, readPieces (Json.escapeAll cs ++ '"' :: rest) = some (pieces, rest) ∧
      joinPieces pieces = some cs := by
  induction cs with
  | nil => exact ⟨[], rfl, rfl⟩
  | cons c cs ih =>
    obtain ⟨pieces, reads, joins⟩ := ih
    obtain ⟨piece, read, written⟩ := readPieces_escapeChar c reads
    refine ⟨piece :: pieces, by rw [Json.escapeAll_cons, List.append_assoc, read], ?_⟩
    obtain rfl | ⟨rfl, small⟩ := written
    · rw [joinPieces, joins]
      rfl
    · rw [joinPieces_unit small, joins, Option.map_some, Char.ofNat_toNat]

/-- An escaped text is read as the text. -/
theorem readString_escapeAll (text : String) (rest : List Char) :
    readString (Json.escapeAll text.toList ++ '"' :: rest) = ⟨some text, some rest⟩ := by
  obtain ⟨pieces, reads, joins⟩ := readPieces_escapeAll text.toList rest
  rw [readString, reads]
  simp [joins]

end Document

end Strings

section Values

mutual

/-- What the text of a value is read as when `depth` more containers may be opened. -/
def Json.reread (depth : Nat) : Json → Document
  | .null => .null
  | .bool value => .bool value
  | .number n => n.reread
  | .string text => .string text
  | .array items =>
    if depth = 0 then .unreadable else .array (Json.rereadItems (depth - 1) items) true
  | .object fields =>
    if depth = 0 then .unreadable else .object (Json.rereadFields (depth - 1) fields) true

/-- What the texts of values are read as. -/
def Json.rereadItems (depth : Nat) : List Json → List Document
  | [] => []
  | item :: rest => item.reread depth :: Json.rereadItems depth rest

/-- What the texts of fields are read as. -/
def Json.rereadFields (depth : Nat) : List (String × Json) → List (String × Document)
  | [] => []
  | (key, value) :: rest => (key, value.reread depth) :: Json.rereadFields depth rest

end

namespace Json

/-- The texts of values behind another one. -/
def textFurtherItems : List Json → String
  | [] => ""
  | item :: rest => "," ++ textItems (item :: rest)

theorem textItems_cons (item : Json) (rest : List Json) :
    textItems (item :: rest) = item.text ++ textFurtherItems rest := by
  cases rest with
  | nil => simp [textItems, textFurtherItems]
  | cons next rest => simp [textItems, textFurtherItems, String.append_assoc]

/-- The texts of fields behind another one. -/
def textFurtherFields : List (String × Json) → String
  | [] => ""
  | field :: rest => "," ++ textFields (field :: rest)

theorem textFields_cons (key : String) (value : Json) (rest : List (String × Json)) :
    textFields ((key, value) :: rest) =
      escape key ++ ":" ++ value.text ++ textFurtherFields rest := by
  cases rest with
  | nil => simp [textFields, textFurtherFields]
  | cons next rest => simp [textFields, textFurtherFields, String.append_assoc]

end Json

namespace Document

private theorem isBlank_of_isDigit {c : Char} (digit : c.isDigit = true) : isBlank c = false := by
  rw [Bool.eq_false_iff]
  intro blank
  simp only [isBlank, Bool.or_eq_true, beq_iff_eq] at blank
  rcases blank with ((rfl | rfl) | rfl) | rfl <;> cases digit

private theorem skipBlanks_cons {c : Char} (filled : isBlank c = false) (cs : List Char) :
    skipBlanks (c :: cs) = c :: cs := by
  rw [skipBlanks, List.dropWhile_cons_of_neg]
  simp [filled]

private theorem readValue_digit {c : Char} (digit : c.isDigit = true) (fuel depth : Nat)
    (cs : List Char) :
    readValue (fuel + 1) depth (c :: cs) = readNumber false (c :: cs) := by
  rw [readValue, skipBlanks_cons (isBlank_of_isDigit digit)]
  split
  case h_8 => rfl
  -- what is no number starts with a character that is no digit
  all_goals
    rename_i same
    cases same
    cases digit

private theorem readValue_number (n : JsonNumber) (fuel depth : Nat) {rest : List Char}
    (ends : Ends rest) :
    readValue (fuel + 1) depth (n.text.toList ++ rest) = ⟨n.reread, some rest⟩ := by
  obtain ⟨⟨c, starts, digit⟩, reads⟩ := n.isMagnitude_reread
  have read := reads rest ends
  rw [n.toList_text]
  cases negative : n.isNegative with
  | true =>
    rw [negative] at read
    rw [if_pos rfl, List.append_assoc, List.singleton_append, readValue,
      skipBlanks_cons (by decide)]
    exact read
  | false =>
    obtain ⟨cs, magnitude⟩ := List.head?_eq_some_iff.mp starts
    rw [negative, magnitude] at read
    simp only [Bool.false_eq_true, if_false, List.nil_append, magnitude]
    rw [List.cons_append, readValue_digit digit, ← List.cons_append, read]

private theorem toList_array (items : List Json) :
    (Json.array items).text.toList = '[' :: ((Json.textItems items).toList ++ [']']) := by
  simp [Json.text]

private theorem toList_object (fields : List (String × Json)) :
    (Json.object fields).text.toList = '{' :: ((Json.textFields fields).toList ++ ['}']) := by
  simp [Json.text]

/-- The text of a value starts with no blank and closes no array. -/
theorem text_head (value : Json) :
    ∃ c cs, value.text.toList = c :: cs ∧ isBlank c = false ∧ c ≠ ']' := by
  match value with
  | .null => exact ⟨'n', "ull".toList, rfl, rfl, by decide⟩
  | .bool true => exact ⟨'t', "rue".toList, rfl, rfl, by decide⟩
  | .bool false => exact ⟨'f', "alse".toList, rfl, rfl, by decide⟩
  | .string text =>
    have quoted := Json.toList_escape text []
    rw [List.append_nil] at quoted
    exact ⟨'"', _, quoted, rfl, by decide⟩
  | .array items => exact ⟨'[', _, toList_array items, rfl, by decide⟩
  | .object fields => exact ⟨'{', _, toList_object fields, rfl, by decide⟩
  | .number n =>
    obtain ⟨⟨c, starts, digit⟩, -⟩ := n.isMagnitude_reread
    obtain ⟨cs, magnitude⟩ := List.head?_eq_some_iff.mp starts
    rw [Json.text, n.toList_text, magnitude]
    cases n.isNegative with
    | true => exact ⟨'-', _, rfl, rfl, by decide⟩
    | false => exact ⟨c, cs, rfl, isBlank_of_isDigit digit, by rintro rfl; cases digit⟩

private theorem skipBlanks_text (value : Json) (rest : List Char) :
    skipBlanks (value.text.toList ++ rest) = value.text.toList ++ rest := by
  obtain ⟨c, cs, head, filled, -⟩ := text_head value
  rw [head, List.cons_append, skipBlanks_cons filled]

section Steps

variable {fuel depth : Nat} {item : Json} {read : Document} {others : List Char}

/-- The first item of an array is read, and then the items behind it. -/
theorem readItems_first
    (reads : readValue fuel depth (item.text.toList ++ others) = ⟨read, some others⟩) :
    readItems (fuel + 1) depth true (item.text.toList ++ others) =
      ⟨read :: (readItems fuel depth false (skipBlanks others)).value,
        (readItems fuel depth false (skipBlanks others)).rest⟩ := by
  obtain ⟨c, cs, head, -, not_end⟩ := text_head item
  rw [head, List.cons_append] at reads ⊢
  rw [readItems]
  · simp only [reads]
  · rintro rest ⟨⟩
    exact not_end rfl

/-- A further item of an array is read, and then the items behind it. -/
theorem readItems_further
    (reads : readValue fuel depth (item.text.toList ++ others) = ⟨read, some others⟩) :
    readItems (fuel + 1) depth false (',' :: (item.text.toList ++ others)) =
      ⟨read :: (readItems fuel depth false (skipBlanks others)).value,
        (readItems fuel depth false (skipBlanks others)).rest⟩ := by
  rw [readItems]
  · simp only [reads]

variable {key : String}

private theorem isBlank_quote : isBlank '"' = false := rfl

private theorem isBlank_colon : isBlank ':' = false := rfl

/-- The first entry of an object is read, and then the entries behind it. -/
theorem readEntries_first
    (reads : readValue fuel depth (item.text.toList ++ others) = ⟨read, some others⟩) :
    readEntries (fuel + 1) depth true
        ((Json.escape key).toList ++ ':' :: (item.text.toList ++ others)) =
      ⟨((key, read) :: (readEntries fuel depth false (skipBlanks others)).value.1,
        (readEntries fuel depth false (skipBlanks others)).value.2),
        (readEntries fuel depth false (skipBlanks others)).rest⟩ := by
  rw [Json.toList_escape, readEntries]
  · simp only [readString_escapeAll, Option.map_some, skipBlanks_cons isBlank_colon, reads]
  · rintro rest ⟨⟩

/-- A further entry of an object is read, and then the entries behind it. -/
theorem readEntries_further
    (reads : readValue fuel depth (item.text.toList ++ others) = ⟨read, some others⟩) :
    readEntries (fuel + 1) depth false
        (',' :: ((Json.escape key).toList ++ ':' :: (item.text.toList ++ others))) =
      ⟨((key, read) :: (readEntries fuel depth false (skipBlanks others)).value.1,
        (readEntries fuel depth false (skipBlanks others)).value.2),
        (readEntries fuel depth false (skipBlanks others)).rest⟩ := by
  rw [Json.toList_escape, readEntries]
  simp only [skipBlanks_cons isBlank_quote, readString_escapeAll, Option.map_some,
    skipBlanks_cons isBlank_colon, reads]

end Steps

theorem toList_textItems (item : Json) (rest : List Json) :
    (Json.textItems (item :: rest)).toList =
      item.text.toList ++ (Json.textFurtherItems rest).toList := by
  rw [Json.textItems_cons, String.toList_append]

theorem toList_furtherItems (item : Json) (rest : List Json) :
    (Json.textFurtherItems (item :: rest)).toList =
      ',' :: (item.text.toList ++ (Json.textFurtherItems rest).toList) := by
  rw [Json.textFurtherItems, String.toList_append, toList_textItems]
  rfl

theorem toList_textFields (key : String) (value : Json) (rest : List (String × Json)) :
    (Json.textFields ((key, value) :: rest)).toList =
      (Json.escape key).toList ++
        ':' :: (value.text.toList ++ (Json.textFurtherFields rest).toList) := by
  rw [Json.textFields_cons]
  simp

theorem toList_furtherFields (key : String) (value : Json) (rest : List (String × Json)) :
    (Json.textFurtherFields ((key, value) :: rest)).toList =
      ',' :: ((Json.escape key).toList ++
        ':' :: (value.text.toList ++ (Json.textFurtherFields rest).toList)) := by
  rw [Json.textFurtherFields, String.toList_append, toList_textFields]
  rfl

/-- Where a container goes on or closes a value ends, and no blank stands. -/
theorem ends_cons {c : Char} (known : c = ',' ∨ c = ']' ∨ c = '}') (rest : List Char) :
    Ends (c :: rest) ∧ skipBlanks (c :: rest) = c :: rest := by
  refine ⟨?_, skipBlanks_cons ?_ rest⟩
  · rintro _ ⟨⟩
    exact known
  · rcases known with rfl | rfl | rfl <;> rfl

theorem ends_furtherItems (items : List Json) (rest : List Char) :
    Ends ((Json.textFurtherItems items).toList ++ ']' :: rest) ∧
      skipBlanks ((Json.textFurtherItems items).toList ++ ']' :: rest) =
        (Json.textFurtherItems items).toList ++ ']' :: rest := by
  cases items with
  | nil => exact ends_cons (.inr (.inl rfl)) rest
  | cons item others =>
    rw [toList_furtherItems, List.cons_append]
    exact ends_cons (.inl rfl) _

theorem ends_furtherFields (fields : List (String × Json)) (rest : List Char) :
    Ends ((Json.textFurtherFields fields).toList ++ '}' :: rest) ∧
      skipBlanks ((Json.textFurtherFields fields).toList ++ '}' :: rest) =
        (Json.textFurtherFields fields).toList ++ '}' :: rest := by
  cases fields with
  | nil => exact ends_cons (.inr (.inr rfl)) rest
  | cons field others =>
    rw [toList_furtherFields, List.cons_append]
    exact ends_cons (.inl rfl) _

private theorem skipBlanks_textItems (items : List Json) (rest : List Char) :
    skipBlanks ((Json.textItems items).toList ++ ']' :: rest) =
      (Json.textItems items).toList ++ ']' :: rest := by
  cases items with
  | nil => exact (ends_cons (.inr (.inl rfl)) rest).2
  | cons item others =>
    rw [toList_textItems, List.append_assoc]
    exact skipBlanks_text item _

private theorem opens_textFields (fields : List (String × Json)) (rest : List Char) :
    skipBlanks ((Json.textFields fields).toList ++ '}' :: rest) =
        (Json.textFields fields).toList ++ '}' :: rest ∧
      opensEntries ((Json.textFields fields).toList ++ '}' :: rest) = true := by
  cases fields with
  | nil => exact ⟨(ends_cons (.inr (.inr rfl)) rest).2, rfl⟩
  | cons field others =>
    rw [toList_textFields, List.append_assoc, Json.toList_escape]
    exact ⟨skipBlanks_cons isBlank_quote _, rfl⟩

theorem text_length_pos (value : Json) : 0 < value.text.toList.length := by
  obtain ⟨c, cs, head, -, -⟩ := text_head value
  rw [head]
  exact Nat.succ_pos _

private theorem readValue_array {fuel depth : Nat} {cs rest : List Char} {items : List Document}
    (unblank : skipBlanks cs = cs)
    (reads : readItems fuel (depth - 1) true cs = ⟨items, some rest⟩) :
    readValue (fuel + 1) depth ('[' :: cs) =
      ⟨if depth = 0 then .unreadable else .array items true, some rest⟩ := by
  rw [readValue, skipBlanks_cons (by decide)]
  simp only [unblank, reads]
  rfl

private theorem readValue_object {fuel depth : Nat} {cs rest : List Char}
    {entries : List (String × Document)} (unblank : skipBlanks cs = cs)
    (opens : opensEntries cs = true)
    (reads : readEntries fuel (depth - 1) true cs = ⟨(entries, true), some rest⟩) :
    readValue (fuel + 1) depth ('{' :: cs) =
      ⟨if depth = 0 then .unreadable else .object entries true, some rest⟩ := by
  rw [readValue, skipBlanks_cons (by decide)]
  simp only [unblank, opens, if_true, reads]

mutual

/-- The text of a value is read to its end, whatever follows it there. The depth decides what is
unreadable, but never how far is read. -/
theorem readValue_text : (value : Json) → ∀ (fuel depth : Nat) {rest : List Char},
    2 * value.text.toList.length ≤ fuel → Ends rest →
      readValue fuel depth (value.text.toList ++ rest) = ⟨value.reread depth, some rest⟩
  | value, fuel, depth, rest, enough, ends => by
    have some_text := text_length_pos value
    obtain ⟨fuel, rfl⟩ := Nat.exists_eq_add_of_le' (show 1 ≤ fuel by omega)
    match value with
    | .null =>
      rw [readValue]
      rfl
    | .bool true =>
      rw [readValue]
      rfl
    | .bool false =>
      rw [readValue]
      rfl
    | .number n => exact readValue_number n fuel depth ends
    | .string text =>
      rw [Json.text, Json.toList_escape, readValue, skipBlanks_cons isBlank_quote]
      simp only [readString_escapeAll]
      rfl
    | .array items =>
      rw [toList_array] at enough ⊢
      simp only [List.length_cons, List.length_append] at enough
      rw [List.cons_append, List.append_assoc]
      exact readValue_array (skipBlanks_textItems items rest)
        (readItems_textItems items fuel (depth - 1) rest (by omega))
    | .object fields =>
      obtain ⟨unblank, opens⟩ := opens_textFields fields rest
      rw [toList_object] at enough ⊢
      simp only [List.length_cons, List.length_append] at enough
      rw [List.cons_append, List.append_assoc]
      exact readValue_object unblank opens
        (readEntries_textFields fields fuel (depth - 1) rest (by omega))

private theorem readItems_textItems : (items : List Json) → ∀ (fuel depth : Nat) (rest : List Char),
    2 * (Json.textItems items).toList.length + 1 ≤ fuel →
      readItems fuel depth true ((Json.textItems items).toList ++ ']' :: rest) =
        ⟨Json.rereadItems depth items, some rest⟩
  | items, fuel, depth, rest, enough => by
    obtain ⟨fuel, rfl⟩ := Nat.exists_eq_add_of_le' (Nat.le_trans (Nat.le_add_left 1 _) enough)
    match items with
    | [] => rfl
    | item :: others =>
      have some_text := text_length_pos item
      rw [toList_textItems] at enough ⊢
      simp only [List.length_append] at enough
      obtain ⟨ends, unblank⟩ := ends_furtherItems others rest
      have first := readValue_text item fuel depth (by omega) ends
      have further := readItems_furtherItems others fuel depth rest (by omega)
      rw [List.append_assoc, readItems_first first, unblank, further]
      rfl

private theorem readItems_furtherItems : (items : List Json) → ∀ (fuel depth : Nat)
    (rest : List Char),
    2 * (Json.textFurtherItems items).toList.length + 1 ≤ fuel →
      readItems fuel depth false ((Json.textFurtherItems items).toList ++ ']' :: rest) =
        ⟨Json.rereadItems depth items, some rest⟩
  | items, fuel, depth, rest, enough => by
    obtain ⟨fuel, rfl⟩ := Nat.exists_eq_add_of_le' (Nat.le_trans (Nat.le_add_left 1 _) enough)
    match items with
    | [] => rfl
    | item :: others =>
      rw [toList_furtherItems] at enough ⊢
      simp only [List.length_cons, List.length_append] at enough
      obtain ⟨ends, unblank⟩ := ends_furtherItems others rest
      have first := readValue_text item fuel depth (by omega) ends
      have further := readItems_furtherItems others fuel depth rest (by omega)
      rw [List.cons_append, List.append_assoc, readItems_further first, unblank, further]
      rfl

private theorem readEntries_textFields : (fields : List (String × Json)) →
    ∀ (fuel depth : Nat) (rest : List Char),
      2 * (Json.textFields fields).toList.length + 1 ≤ fuel →
      readEntries fuel depth true ((Json.textFields fields).toList ++ '}' :: rest) =
        ⟨(Json.rereadFields depth fields, true), some rest⟩
  | fields, fuel, depth, rest, enough => by
    obtain ⟨fuel, rfl⟩ := Nat.exists_eq_add_of_le' (Nat.le_trans (Nat.le_add_left 1 _) enough)
    match fields with
    | [] => rfl
    | (key, value) :: others =>
      rw [toList_textFields] at enough ⊢
      simp only [List.length_cons, List.length_append] at enough
      obtain ⟨ends, unblank⟩ := ends_furtherFields others rest
      have first := readValue_text value fuel depth (by omega) ends
      have further := readEntries_furtherFields others fuel depth rest (by omega)
      rw [List.append_assoc, List.cons_append, List.append_assoc, readEntries_first first, unblank,
        further]
      rfl

private theorem readEntries_furtherFields : (fields : List (String × Json)) →
    ∀ (fuel depth : Nat) (rest : List Char),
      2 * (Json.textFurtherFields fields).toList.length + 1 ≤ fuel →
      readEntries fuel depth false ((Json.textFurtherFields fields).toList ++ '}' :: rest) =
        ⟨(Json.rereadFields depth fields, true), some rest⟩
  | fields, fuel, depth, rest, enough => by
    obtain ⟨fuel, rfl⟩ := Nat.exists_eq_add_of_le' (Nat.le_trans (Nat.le_add_left 1 _) enough)
    match fields with
    | [] => rfl
    | (key, value) :: others =>
      rw [toList_furtherFields] at enough ⊢
      simp only [List.length_cons, List.length_append] at enough
      obtain ⟨ends, unblank⟩ := ends_furtherFields others rest
      have first := readValue_text value fuel depth (by omega) ends
      have further := readEntries_furtherFields others fuel depth rest (by omega)
      rw [List.cons_append, List.append_assoc, List.cons_append, List.append_assoc,
        readEntries_further first, unblank, further]
      rfl

end

/-- What the text of a value is read as, and that nothing is left over. -/
theorem read_text (value : Json) : read value.text = (value.reread 127, true) := by
  have whole := readValue_text value _ 127 (Nat.le_add_right (2 * value.text.toList.length) 2)
    Ends.nil
  rw [List.append_nil] at whole
  simp only [read, whole]
  rfl

end Document

end Values

end RuleBook
