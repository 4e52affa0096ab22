import Mathlib.Data.List.DropRight
import RuleBook.Proofs.Money.Rounding

/-! # Percents in writing

A numeral is a decimal number in writing: a sign or none, and then digits, perhaps with a point
before, among or behind them. A text of percents is read by joining the parts around the point into
one integer, without the zeros at its end. So a sign right behind a leading point is taken for one in
front, and nothing is left of a point with only zeros behind it. `Rate.readsAsPercent_iff` says that
all other numerals that fit are read as their number, and nothing else is read at all.
-/

namespace RuleBook

/-- What stands in front of a number. -/
inductive Sign where
  | none
  | plus
  | minus
deriving DecidableEq

namespace Sign

/-- The sign in writing. -/
def chars : Sign → List Char
  | none => []
  | plus => ['+']
  | minus => ['-']

/-- A number with the sign. -/
def signed (sign : Sign) (n : Nat) : Int :=
  match sign with
  | minus => -n
  | _ => n

private theorem signed_eq_zero_iff {sign : Sign} {n : Nat} : sign.signed n = 0 ↔ n = 0 := by
  cases sign <;> simp [signed]

private theorem signed_mul (sign : Sign) (n k : Nat) : sign.signed (n * k) = sign.signed n * k := by
  cases sign <;> simp [signed]

private theorem length_chars {sign : Sign} (signed : sign ≠ .none) : sign.chars.length = 1 := by
  cases sign with
  | none => exact absurd rfl signed
  | plus | minus => rfl

/-- A sign is not taken apart. -/
theorem append_eq_chars {sign : Sign} {front rest : List Char}
    (parts : sign.chars = front ++ rest) :
    front = [] ∧ rest = sign.chars ∨ front = sign.chars ∧ rest = [] := by
  have short : sign.chars.length ≤ 1 := by cases sign <;> decide
  cases front with
  | nil => exact .inl ⟨rfl, parts.symm⟩
  | cons c front =>
    rw [parts, List.cons_append, List.length_cons, List.length_append] at short
    obtain rfl : rest = [] := List.eq_nil_of_length_eq_zero (by omega)
    exact .inr ⟨by rw [parts, List.append_nil], rfl⟩

/-- A sign is neither a digit nor a point. -/
theorem not_digit_of_mem_chars {sign : Sign} {c : Char} (member : c ∈ sign.chars) :
    c.isDigit = false ∧ c ≠ '.' := by
  cases sign with
  | none => cases member
  | plus | minus =>
    rw [List.mem_singleton.mp member]
    decide

end Sign

namespace Text

variable {cs : List Char}

private theorem digits?_eq_some_iff {n : Nat} : digits? cs = some n ↔
    cs ≠ [] ∧ (∀ c ∈ cs, c.isDigit = true) ∧ n = Nat.ofDigitChars 10 cs 0 := by
  have same : cs.foldl (fun n c => n * 10 + (c.toNat - 48)) 0 = Nat.ofDigitChars 10 cs 0 := by
    simp only [Nat.ofDigitChars, Nat.mul_comm 10]
    rfl
  have accepted : (cs.isEmpty = true ∨ (!cs.all Char.isDigit) = true) ↔
      ¬ (cs ≠ [] ∧ ∀ c ∈ cs, c.isDigit = true) := by
    rw [List.isEmpty_iff, Bool.not_eq_true', ← Bool.not_eq_true, List.all_eq_true]
    tauto
  rw [digits?, same]
  split
  · rename_i refused
    simp only [reduceCtorEq, false_iff]
    rintro ⟨filled, digits, -⟩
    exact accepted.mp refused ⟨filled, digits⟩
  · rename_i taken
    obtain ⟨filled, digits⟩ := not_not.mp (mt accepted.mpr taken)
    rw [Option.some.injEq]
    exact ⟨fun same => ⟨filled, digits, same.symm⟩, fun ⟨_, _, same⟩ => same.symm⟩

/-- Digits behind a sign are read as their number with the sign. -/
theorem map_digits?_eq_some_iff {make : Int → Int} {n : Int} :
    ((do let a ← digits? cs; pure (a : Int)) : Option Int).map make = some n ↔
      cs ≠ [] ∧ (∀ c ∈ cs, c.isDigit = true) ∧ n = make (Nat.ofDigitChars 10 cs 0) := by
  constructor
  · intro made
    obtain ⟨_, lifted, rfl⟩ := Option.map_eq_some_iff.mp made
    obtain ⟨m, read, same⟩ := Option.bind_eq_some_iff.mp lifted
    obtain rfl := Option.some.inj same
    obtain ⟨filled, digits, rfl⟩ := digits?_eq_some_iff.mp read
    exact ⟨filled, digits, rfl⟩
  · rintro ⟨filled, digits, rfl⟩
    rw [digits?_eq_some_iff.mpr ⟨filled, digits, rfl⟩]
    rfl

/-- An integer is a sign or none, and then digits. -/
theorem integer?_eq_some_iff {n : Int} : integer? cs = some n ↔ ∃ (sign : Sign) (digits : List Char),
    cs = sign.chars ++ digits ∧ digits ≠ [] ∧ (∀ c ∈ digits, c.isDigit = true) ∧
      n = sign.signed (Nat.ofDigitChars 10 digits 0) := by
  constructor
  · intro read
    unfold integer? at read
    split at read
    · rename_i rest
      exact ⟨.minus, rest, rfl, map_digits?_eq_some_iff.mp read⟩
    · unfold natural? at read
      split at read
      · rename_i rest _
        exact ⟨.plus, rest, rfl, map_digits?_eq_some_iff.mp read⟩
      · exact ⟨.none, cs, rfl, map_digits?_eq_some_iff.mp read⟩
  · rintro ⟨sign, digits, rfl, number⟩
    cases sign with
    | minus => exact map_digits?_eq_some_iff.mpr number
    | plus => exact map_digits?_eq_some_iff.mpr number
    | none =>
      obtain ⟨c, rest, rfl⟩ := List.exists_cons_of_ne_nil number.1
      have digit := number.2.1 c List.mem_cons_self
      rw [Sign.chars, List.nil_append]
      unfold integer?
      split
      · rename_i starts
        obtain ⟨rfl, -⟩ := List.cons.inj starts
        cases digit
      · unfold natural?
        split
        · rename_i starts
          obtain ⟨rfl, -⟩ := List.cons.inj starts
          cases digit
        · exact map_digits?_eq_some_iff.mpr number

end Text

/-- The digits behind a point without the zeros at their end. -/
def keptPlaces (places : List Char) : List Char := places.rdropWhile (· == '0')

section KeptPlaces

variable {places kept : List Char}

private theorem keptPlaces_append_zeros (places : List Char) (k : Nat) :
    keptPlaces (places ++ List.replicate k '0') = keptPlaces places := by
  induction k with
  | zero => rw [List.replicate_zero, List.append_nil]
  | succ k ih =>
    rw [List.replicate_succ', ← List.append_assoc, keptPlaces,
      List.rdropWhile_concat_pos _ _ _ rfl, ← keptPlaces, ih]

private theorem exists_zeros (places : List Char) :
    ∃ k, places = keptPlaces places ++ List.replicate k '0' := by
  induction places using List.reverseRecOn with
  | nil => exact ⟨0, rfl⟩
  | append_singleton places c ih =>
    by_cases zero : c = '0'
    · obtain ⟨k, split⟩ := ih
      refine ⟨k + 1, ?_⟩
      rw [keptPlaces, List.rdropWhile_concat_pos _ _ _ (by simpa using zero), ← keptPlaces,
        List.replicate_succ', ← List.append_assoc, ← split, zero]
    · refine ⟨0, ?_⟩
      rw [keptPlaces, List.rdropWhile_concat_neg _ _ _ (by simpa using zero)]
      simp

private theorem keptPlaces_eq_self_iff :
    keptPlaces places = places ↔ places.getLast? ≠ some '0' := by
  rw [keptPlaces, List.rdropWhile_eq_self_iff]
  cases places using List.reverseRecOn with
  | nil => simp
  | append_singleton places c => simp

/-- What is kept does not end with a zero, and only zeros follow it. -/
theorem keptPlaces_eq_iff : keptPlaces places = kept ↔
    (∃ k, places = kept ++ List.replicate k '0') ∧ kept.getLast? ≠ some '0' := by
  constructor
  · rintro rfl
    refine ⟨exists_zeros places, keptPlaces_eq_self_iff.mp ?_⟩
    exact List.rdropWhile_idempotent _ places
  · rintro ⟨⟨k, rfl⟩, last⟩
    rw [keptPlaces_append_zeros, keptPlaces_eq_self_iff.mpr last]

private theorem keptPlaces_append (front : List Char) (filled : keptPlaces places ≠ []) :
    keptPlaces (front ++ places) = front ++ keptPlaces places := by
  obtain ⟨⟨k, split⟩, last⟩ := keptPlaces_eq_iff.mp (rfl : keptPlaces places = _)
  refine keptPlaces_eq_iff.mpr ⟨⟨k, ?_⟩, ?_⟩
  · rw [List.append_assoc, ← split]
  · rwa [List.getLast?_append_of_ne_nil _ filled]

private theorem subset_keptPlaces (places : List Char) : keptPlaces places ⊆ places :=
  (List.rdropWhile_prefix _ places).subset

private theorem keptPlaces_eq_nil_iff : keptPlaces places = [] ↔ ∀ c ∈ places, c = '0' := by
  simp [keptPlaces, List.rdropWhile_eq_nil_iff]

/-- Digits of which some places are kept write a positive number. -/
theorem ofDigitChars_keptPlaces_ne_zero (whole : List Char)
    (digits : ∀ c ∈ places, c.isDigit = true) (filled : keptPlaces places ≠ []) :
    Nat.ofDigitChars 10 (whole ++ keptPlaces places) 0 ≠ 0 := by
  have last := (keptPlaces_eq_iff.mp (rfl : keptPlaces places = _)).2
  rw [List.getLast?_eq_some_getLast filled, ne_eq, Option.some.injEq] at last
  have digit := digits _ (subset_keptPlaces places (List.getLast_mem filled))
  have least := (Char.isDigit_iff_toNat.mp digit).1
  have different := mt Char.toNat_inj.mp last
  rw [← List.dropLast_append_getLast filled, ← List.append_assoc, Nat.ofDigitChars_append,
    Nat.ofDigitChars_cons, Nat.ofDigitChars_nil]
  omega

end KeptPlaces

/-- A decimal number in writing. -/
structure Numeral where
  sign : Sign
  whole : List Char
  fraction : Option (List Char)
  digits : ∀ c ∈ whole ++ fraction.getD [], c.isDigit = true
  filled : whole ++ fraction.getD [] ≠ []

namespace Numeral

/-- The digits behind the point. -/
def places (numeral : Numeral) : List Char := numeral.fraction.getD []

/-- The characters from the point on. -/
def behind (numeral : Numeral) : List Char := numeral.fraction.elim [] ('.' :: ·)

/-- The characters that are written. -/
def chars (numeral : Numeral) : List Char :=
  numeral.sign.chars ++ numeral.whole ++ numeral.behind

/-- The number that is written. -/
def value (numeral : Numeral) : ℚ :=
  numeral.sign.signed (Nat.ofDigitChars 10 (numeral.whole ++ numeral.places) 0) /
    10 ^ numeral.places.length

/-- The integer that all digits write together but for the zeros at the end of the places. -/
def units (numeral : Numeral) : Int :=
  numeral.sign.signed (Nat.ofDigitChars 10 (numeral.whole ++ keptPlaces numeral.places) 0)

variable (numeral : Numeral)

/-- Zeros at the end of the places change nothing in the value. -/
theorem value_eq : numeral.value = numeral.units / 10 ^ (keptPlaces numeral.places).length := by
  obtain ⟨k, split⟩ := exists_zeros numeral.places
  have scaled : numeral.sign.signed (Nat.ofDigitChars 10 (numeral.whole ++ numeral.places) 0) =
      numeral.units * 10 ^ k := by
    rw [split, ← List.append_assoc, Nat.ofDigitChars_append, Nat.ofDigitChars_replicate_zero,
      Nat.mul_comm, Sign.signed_mul, units]
    norm_cast
  have length : numeral.places.length = (keptPlaces numeral.places).length + k := by
    conv_lhs => rw [split]
    rw [List.length_append, List.length_replicate]
  rw [value, scaled, length, pow_add]
  push_cast
  field_simp

private theorem units_ne_zero (filled : keptPlaces numeral.places ≠ []) :
    numeral.units ≠ 0 := by
  refine mt Sign.signed_eq_zero_iff.mp (ofDigitChars_keptPlaces_ne_zero _ (fun c member => ?_) filled)
  exact numeral.digits c (List.mem_append_right _ member)

private theorem not_point_of_mem {c : Char} (member : c ∈ numeral.sign.chars ++ numeral.whole) :
    (c != '.') = true := by
  rw [bne_iff_ne]
  rcases List.mem_append.mp member with sign | whole
  · exact (Sign.not_digit_of_mem_chars sign).2
  · rintro rfl
    cases numeral.digits '.' (List.mem_append_left _ whole)

private theorem takeWhile_chars :
    numeral.chars.takeWhile (· != '.') = numeral.sign.chars ++ numeral.whole := by
  rw [chars, List.takeWhile_append_of_pos fun c => numeral.not_point_of_mem, behind]
  cases numeral.fraction <;> simp

private theorem drop_dropWhile_chars :
    (numeral.chars.dropWhile (· != '.')).drop 1 = numeral.places := by
  rw [chars, List.dropWhile_append_of_pos fun c => numeral.not_point_of_mem, behind, places]
  cases numeral.fraction <;> simp

end Numeral

namespace Rate

/-- The places behind the point that are read. -/
def placesIn (chars : List Char) : List Char :=
  keptPlaces ((chars.dropWhile (· != '.')).drop 1)

/-- The characters that are read as one integer. -/
def joinedIn (chars : List Char) : List Char := chars.takeWhile (· != '.') ++ placesIn chars

/-- The rate of a count of units that have so many places as percents. -/
def ofUnits (units : Int) (places : Nat) : Rate := ⟨Int64.ofInt units, UInt32.ofNat (places + 2)⟩

section Reading

variable {text : String} {rate : Rate}

/-- A text is read when what is joined is an integer in range and the places can be counted. -/
theorem ofPercentText_eq_ok_iff : ofPercentText text = .ok rate ↔ ∃ units,
    Text.integer? (joinedIn (Text.trim text.toList)) = some units ∧
      IntRange.signed64.Holds units ∧ (placesIn (Text.trim text.toList)).length < 2 ^ 32 ∧
        rate = ofUnits units (placesIn (Text.trim text.toList)).length := by
  have unfolded : ofPercentText text =
      let written := Text.trim text.toList
      let invalid := .error (.invalidRate (String.ofList written))
      if (written.takeWhile (· != '.')).isEmpty && (placesIn written).isEmpty then invalid
      else ((Text.integer? (joinedIn written)).bind IntRange.signed64.check?).elim invalid
        fun units =>
          if IntRange.unsigned32.Holds (placesIn written).length then
            .ok (ofUnits units (placesIn written).length)
          else invalid := by
    unfold ofPercentText
    refine if_congr Iff.rfl rfl ?_
    simp only [joinedIn, placesIn, keptPlaces, List.rdropWhile]
    generalize Option.bind _ IntRange.signed64.check? = checked
    cases checked with
    | none => rfl
    | some units =>
      simp only [Option.elim_some]
      exact if_congr Iff.rfl rfl rfl
  have countable (n : Nat) : IntRange.unsigned32.Holds n ↔ n < 2 ^ 32 := by
    simp only [IntRange.Holds, IntRange.unsigned32]
    omega
  rw [unfolded]
  generalize Text.trim text.toList = written
  simp only [countable]
  split
  · rename_i nothing
    rw [Bool.and_eq_true, List.isEmpty_iff, List.isEmpty_iff] at nothing
    rw [joinedIn, nothing.1, nothing.2]
    simp only [reduceCtorEq, false_iff]
    rintro ⟨_, read, -⟩
    cases read
  · cases read : Text.integer? (joinedIn written) with
    | none =>
      simp only [Option.bind_none, Option.elim_none, reduceCtorEq, false_iff]
      rintro ⟨_, integer, -⟩
      cases integer
    | some units =>
      rw [Option.bind_some]
      by_cases fits : IntRange.signed64.Holds units
      · rw [IntRange.check?_eq_some_iff.mpr ⟨fits, rfl⟩, Option.elim_some]
        by_cases short : (placesIn written).length < 2 ^ 32
        · simp only [if_pos short, Except.ok.injEq]
          constructor
          · rintro rfl
            exact ⟨units, rfl, fits, short, rfl⟩
          · rintro ⟨_, same, -, -, rfl⟩
            rw [Option.some.inj same]
        · simp only [if_neg short, reduceCtorEq, false_iff]
          rintro ⟨_, -, -, countable, -⟩
          exact short countable
      · simp only [IntRange.check?_eq_none_iff.mpr fits, Option.elim_none, reduceCtorEq, false_iff]
        rintro ⟨_, same, holds, -⟩
        obtain rfl := Option.some.inj same
        exact fits holds

end Reading

/-- A sign leads to an integer with the digits behind it. -/
theorem integer?_chars_append (sign : Sign) {digits : List Char} {n : Int}
    (digital : ∀ c ∈ digits, c.isDigit = true) : Text.integer? (sign.chars ++ digits) = some n ↔
      digits ≠ [] ∧ n = sign.signed (Nat.ofDigitChars 10 digits 0) := by
  by_cases filled : digits = []
  · subst filled
    have refused : Text.integer? (sign.chars ++ []) = none := by cases sign <;> rfl
    rw [refused]
    simp only [reduceCtorEq, false_iff]
    rintro ⟨filled, -⟩
    exact filled rfl
  · have read := Text.integer?_eq_some_iff.mpr ⟨sign, digits, rfl, filled, digital, rfl⟩
    rw [read, Option.some.injEq, and_iff_right filled]
    exact eq_comm

section Numerals

variable {text : String} {rate : Rate} {numeral : Numeral}

private theorem placesIn_chars (numeral : Numeral) :
    placesIn numeral.chars = keptPlaces numeral.places := by
  rw [placesIn, numeral.drop_dropWhile_chars]

private theorem joinedIn_chars (numeral : Numeral) :
    joinedIn numeral.chars = numeral.sign.chars ++ (numeral.whole ++ keptPlaces numeral.places) := by
  rw [joinedIn, placesIn_chars, numeral.takeWhile_chars, List.append_assoc]

/-- A numeral is read as its units, if it has any digit but the zeros that are dropped. -/
theorem ofPercentText_numeral_iff (written : numeral.chars = Text.trim text.toList) :
    ofPercentText text = .ok rate ↔ numeral.whole ++ keptPlaces numeral.places ≠ [] ∧
      IntRange.signed64.Holds numeral.units ∧ (keptPlaces numeral.places).length < 2 ^ 32 ∧
        rate = ofUnits numeral.units (keptPlaces numeral.places).length := by
  have digital : ∀ c ∈ numeral.whole ++ keptPlaces numeral.places, c.isDigit = true := by
    intro c member
    apply numeral.digits
    rcases List.mem_append.mp member with whole | kept
    · exact List.mem_append_left _ whole
    · exact List.mem_append_right _ (subset_keptPlaces _ kept)
  rw [ofPercentText_eq_ok_iff, ← written, joinedIn_chars, placesIn_chars]
  simp only [integer?_chars_append _ digital]
  constructor
  · rintro ⟨_, ⟨filled, rfl⟩, fits, short, rfl⟩
    exact ⟨filled, fits, short, rfl⟩
  · rintro ⟨filled, fits, short, rfl⟩
    exact ⟨_, ⟨filled, rfl⟩, fits, short, rfl⟩

/-- The scale counts in 32 bits. -/
theorem value_ofUnits {units : Int} (fits : IntRange.signed64.Holds units) (places : Nat) :
    (ofUnits units places).value = units / 10 ^ ((places + 2) % 2 ^ 32) := by
  obtain ⟨least, greatest⟩ := fits
  have amount : (Int64.ofInt units).toInt = units :=
    Int64.toInt_ofInt_of_le least (Int.lt_add_one_of_le greatest)
  rw [value, ofUnits, amount, UInt32.toNat_ofNat']

private theorem hundredth_value (numeral : Numeral) :
    numeral.value / 100 = numeral.units / 10 ^ ((keptPlaces numeral.places).length + 2) := by
  rw [numeral.value_eq, pow_add, div_div]
  norm_num

end Numerals

/-- The characters are joined as they are, or around the first point. -/
theorem joinedIn_cases (chars : List Char) : joinedIn chars = chars ∨
    ∃ front places, chars = front ++ '.' :: places ∧ joinedIn chars = front ++ keptPlaces places := by
  have parts : chars.takeWhile (· != '.') ++ chars.dropWhile (· != '.') = chars :=
    List.takeWhile_append_dropWhile
  have stops := List.head?_dropWhile_not (· != '.') chars
  rw [joinedIn, placesIn]
  cases rest : chars.dropWhile (· != '.') with
  | nil =>
    rw [rest] at parts
    exact .inl parts
  | cons point places =>
    rw [rest] at parts stops
    obtain rfl : point = '.' := by simpa using stops
    exact .inr ⟨chars.takeWhile (· != '.'), places, parts.symm, rfl⟩

private theorem isDigit_of_mem_append_zeros {digits : List Char} {k : Nat}
    (digital : ∀ c ∈ digits, c.isDigit = true) :
    ∀ c ∈ digits ++ List.replicate k '0', c.isDigit = true := by
  intro c member
  rcases List.mem_append.mp member with digit | zero
  · exact digital c digit
  · rw [List.eq_of_mem_replicate zero]
    rfl

/-- Digits around a point make a numeral, when those that are kept are digits. -/
theorem exists_numeral (sign : Sign) {whole places : List Char}
    (digital : ∀ c ∈ whole ++ keptPlaces places, c.isDigit = true)
    (filled : whole ++ keptPlaces places ≠ []) :
    ∃ numeral : Numeral, numeral.chars = sign.chars ++ whole ++ '.' :: places := by
  obtain ⟨k, split⟩ := exists_zeros places
  refine ⟨⟨sign, whole, some places, fun c member => ?_, fun empty => filled ?_⟩, rfl⟩
  · rw [Option.getD_some, split, ← List.append_assoc] at member
    exact isDigit_of_mem_append_zeros digital c member
  · obtain ⟨rfl, rfl⟩ := List.append_eq_nil_iff.mp empty
    rfl

/-- The places of which a sign and digits are kept are that sign and places. -/
theorem places_behind_sign {places digits : List Char} {sign : Sign}
    (kept : keptPlaces places = sign.chars ++ digits) (filled : digits ≠ [])
    (digital : ∀ c ∈ digits, c.isDigit = true) :
    ∃ behind, (∀ c ∈ behind, c.isDigit = true) ∧ keptPlaces behind = digits ∧
      '.' :: places = '.' :: (sign.chars ++ behind) := by
  obtain ⟨⟨k, split⟩, last⟩ := keptPlaces_eq_iff.mp kept
  refine ⟨digits ++ List.replicate k '0', isDigit_of_mem_append_zeros digital,
    keptPlaces_eq_iff.mpr ⟨⟨k, rfl⟩, ?_⟩, ?_⟩
  · rwa [List.getLast?_append_of_ne_nil _ filled] at last
  · rw [split, List.append_assoc]

/-- What is read as one integer is a numeral, or has its sign behind the point. -/
theorem written_of_joinedIn {chars digits : List Char} {sign : Sign}
    (joined : joinedIn chars = sign.chars ++ digits) (filled : digits ≠ [])
    (digital : ∀ c ∈ digits, c.isDigit = true) :
    (∃ numeral : Numeral, numeral.chars = chars) ∨
      sign ≠ .none ∧ ∃ places, (∀ c ∈ places, c.isDigit = true) ∧ keptPlaces places = digits ∧
        chars = '.' :: (sign.chars ++ places) := by
  obtain same | ⟨front, places, rfl, same⟩ := joinedIn_cases chars
  · -- Without a point the characters are the integer.
    have whole : sign.chars ++ digits = chars := joined.symm.trans same
    refine .inl ⟨⟨sign, digits, none, ?_, ?_⟩, ?_⟩
    · simpa using digital
    · simpa using filled
    · simp [Numeral.chars, Numeral.behind, whole]
  · -- With one, the sign stands in front of it unless nothing else does.
    rw [same, List.append_eq_append_iff] at joined
    obtain ⟨rest, signed, kept⟩ | ⟨whole, rfl, rfl⟩ := joined
    · obtain ⟨rfl, rfl⟩ | ⟨rfl, rfl⟩ := Sign.append_eq_chars signed
      · by_cases unsigned : sign = .none
        · subst unsigned
          have all : keptPlaces places = digits := kept
          exact .inl (@exists_numeral .none [] _ (all ▸ digital) (all ▸ filled))
        · exact .inr ⟨unsigned, places_behind_sign kept filled digital⟩
      · have all : keptPlaces places = digits := kept
        obtain ⟨numeral, written⟩ := @exists_numeral sign [] _ (all ▸ digital) (all ▸ filled)
        exact .inl ⟨numeral, written.trans (by rw [List.append_nil])⟩
    · exact .inl (exists_numeral sign digital filled)

/-- A text is read as percents only if it is a numeral but for the blanks around it, as exactly that
many percents; and it is read if its units fit 64 bits. -/
structure ReadsAsPercent (text : String) : Prop where
  is_numeral : ∀ rate, ofPercentText text = .ok rate →
    ∃ numeral : Numeral, numeral.chars = Text.trim text.toList
  value_eq : ∀ rate, ofPercentText text = .ok rate → ∀ numeral : Numeral,
    numeral.chars = Text.trim text.toList → rate.value = numeral.value / 100
  is_read : ∀ numeral : Numeral, numeral.chars = Text.trim text.toList →
    IntRange.signed64.Holds numeral.units → ∃ rate, ofPercentText text = .ok rate

/-- The characters that are not read as they should be: a sign behind the point and before digits
of which some are kept; a numeral without any digits but zeros behind the point; and one with so
many places that the scale does not count them. -/
inductive Misread (chars : List Char) : Prop
  | signBehind {sign : Sign} {places : List Char} (written : chars = '.' :: (sign.chars ++ places))
    (signed : sign ≠ .none) (digits : ∀ c ∈ places, c.isDigit = true)
    (filled : keptPlaces places ≠ [])
    (fits : IntRange.signed64.Holds (sign.signed (Nat.ofDigitChars 10 (keptPlaces places) 0)))
    (countable : (keptPlaces places).length + 1 < 2 ^ 32)
  | onlyZeros (numeral : Numeral) (written : numeral.chars = chars) (whole : numeral.whole = [])
    (zeros : ∀ c ∈ numeral.places, c = '0')
  | tooFine (numeral : Numeral) (written : numeral.chars = chars)
    (fits : IntRange.signed64.Holds numeral.units)
    (uncountable : 2 ^ 32 ≤ (keptPlaces numeral.places).length + 2)

/-- A sign behind the point is not part of a numeral. -/
theorem not_numeral_of_signBehind {sign : Sign} {places : List Char} (signed : sign ≠ .none)
    (numeral : Numeral) : numeral.chars ≠ '.' :: (sign.chars ++ places) := by
  intro written
  have behind := numeral.drop_dropWhile_chars
  rw [written] at behind
  have places_eq : sign.chars ++ places = numeral.places := behind
  obtain ⟨c, member⟩ := List.exists_mem_of_length_pos (Nat.lt_of_lt_of_eq Nat.one_pos
    (Sign.length_chars signed).symm)
  have place : c ∈ numeral.places := places_eq ▸ List.mem_append_left _ member
  have digit := numeral.digits c (List.mem_append_right _ place)
  rw [(Sign.not_digit_of_mem_chars member).1] at digit
  cases digit

section Accuracy

variable {text : String}

private theorem placesIn_signBehind (sign : Sign) {places : List Char}
    (filled : keptPlaces places ≠ []) :
    placesIn ('.' :: (sign.chars ++ places)) = sign.chars ++ keptPlaces places :=
  keptPlaces_append sign.chars filled

/-- A sign behind the point is read as if it stood in front, and counted as a place. -/
theorem ofPercentText_signBehind {sign : Sign} {places : List Char}
    (written : Text.trim text.toList = '.' :: (sign.chars ++ places)) (signed : sign ≠ .none)
    (digits : ∀ c ∈ places, c.isDigit = true) (filled : keptPlaces places ≠ [])
    (fits : IntRange.signed64.Holds (sign.signed (Nat.ofDigitChars 10 (keptPlaces places) 0)))
    (countable : (keptPlaces places).length + 1 < 2 ^ 32) : ofPercentText text =
      .ok (ofUnits (sign.signed (Nat.ofDigitChars 10 (keptPlaces places) 0))
        ((keptPlaces places).length + 1)) := by
  have joined : joinedIn (Text.trim text.toList) = sign.chars ++ keptPlaces places := by
    rw [joinedIn, written, placesIn_signBehind sign filled]
    rfl
  have integer := (integer?_chars_append sign fun c member =>
    digits c (subset_keptPlaces places member)).mpr ⟨filled, rfl⟩
  have length : (placesIn (Text.trim text.toList)).length = (keptPlaces places).length + 1 := by
    rw [written, placesIn_signBehind sign filled, List.length_append, Sign.length_chars signed,
      Nat.add_comm]
  refine ofPercentText_eq_ok_iff.mpr ⟨_, joined ▸ integer, fits, ?_, ?_⟩
  · rwa [length]
  · rw [length]

/-- The places of a numeral that are not zero are too many for the scale to count, or the rate is
that many percents. -/
theorem value_ofUnits_eq_iff {numeral : Numeral} (fits : IntRange.signed64.Holds numeral.units) :
    (ofUnits numeral.units (keptPlaces numeral.places).length).value = numeral.value / 100 ↔
      (keptPlaces numeral.places).length + 2 < 2 ^ 32 := by
  rw [value_ofUnits fits, hundredth_value]
  constructor
  · intro same
    by_contra beyond
    have filled : keptPlaces numeral.places ≠ [] := by
      intro nothing
      rw [nothing] at beyond
      exact beyond (by decide)
    have units : (numeral.units : ℚ) ≠ 0 := by exact_mod_cast numeral.units_ne_zero filled
    have powers := mul_left_cancel₀ units (by simpa only [div_eq_mul_inv] using same)
    have scales := pow_right_injective₀ (by norm_num) (by norm_num) (inv_inj.mp powers)
    have bound := Nat.mod_lt ((keptPlaces numeral.places).length + 2) (Nat.two_pow_pos 32)
    omega
  · intro short
    rw [Nat.mod_eq_of_lt short]

/-- A numeral that has only zeros behind the point is zero, and it is refused. -/
theorem not_read_of_onlyZeros {numeral : Numeral} (written : numeral.chars = Text.trim text.toList)
    (whole : numeral.whole = []) (zeros : ∀ c ∈ numeral.places, c = '0') :
    numeral.units = 0 ∧ ¬ ∃ rate, ofPercentText text = .ok rate := by
  have nothing : numeral.whole ++ keptPlaces numeral.places = [] := by
    rw [whole, keptPlaces_eq_nil_iff.mpr zeros, List.append_nil]
  constructor
  · rw [Numeral.units, nothing]
    exact Sign.signed_eq_zero_iff.mpr rfl
  · rintro ⟨rate, read⟩
    exact ((ofPercentText_numeral_iff written).mp read).1 nothing

/-- What is read is a numeral unless a sign behind the point is misread. -/
theorem exists_numeral_of_read {rate : Rate} (read : ofPercentText text = .ok rate)
    (clear : ¬ Misread (Text.trim text.toList)) :
    ∃ numeral : Numeral, numeral.chars = Text.trim text.toList := by
  obtain ⟨units, integer, fits, short, -⟩ := ofPercentText_eq_ok_iff.mp read
  obtain ⟨sign, digits, joined, filled, digital, rfl⟩ := Text.integer?_eq_some_iff.mp integer
  obtain numeral | ⟨signed, places, digits_only, rfl, written⟩ :=
    written_of_joinedIn joined filled digital
  · exact numeral
  · rw [written, placesIn_signBehind sign filled, List.length_append, Sign.length_chars signed,
      Nat.add_comm] at short
    exact absurd (.signBehind written signed digits_only filled fits short) clear

/-- Every text is read as percents as it should be, unless it is one of those that are misread. -/
theorem readsAsPercent_iff (text : String) :
    ReadsAsPercent text ↔ ¬ Misread (Text.trim text.toList) := by
  constructor
  · intro reads misread
    cases misread with
    | signBehind written signed digits filled fits countable =>
      have read := ofPercentText_signBehind written signed digits filled fits countable
      obtain ⟨numeral, same⟩ := reads.is_numeral _ read
      exact not_numeral_of_signBehind signed numeral (same.trans written)
    | onlyZeros numeral written whole zeros =>
      obtain ⟨zero, refused⟩ := not_read_of_onlyZeros written whole zeros
      exact refused (reads.is_read numeral written (zero ▸ by decide))
    | tooFine numeral written fits uncountable =>
      obtain ⟨rate, read⟩ := reads.is_read numeral written fits
      obtain ⟨-, -, -, rfl⟩ := (ofPercentText_numeral_iff written).mp read
      have short := (value_ofUnits_eq_iff fits).mp (reads.value_eq _ read numeral written)
      omega
  · intro clear
    have countable (numeral : Numeral) (written : numeral.chars = Text.trim text.toList)
        (fits : IntRange.signed64.Holds numeral.units) :
        (keptPlaces numeral.places).length + 2 < 2 ^ 32 := by
      by_contra uncountable
      exact clear (.tooFine numeral written fits (not_lt.mp uncountable))
    refine ⟨fun rate read => exists_numeral_of_read read clear, ?_, ?_⟩
    · intro rate read numeral written
      obtain ⟨-, fits, -, rfl⟩ := (ofPercentText_numeral_iff written).mp read
      exact (value_ofUnits_eq_iff fits).mpr (countable numeral written fits)
    · intro numeral written fits
      have short := countable numeral written fits
      refine ⟨_, (ofPercentText_numeral_iff written).mpr ⟨fun nothing => ?_, fits, by omega, rfl⟩⟩
      obtain ⟨whole, kept⟩ := List.append_eq_nil_iff.mp nothing
      exact clear (.onlyZeros numeral written whole (keptPlaces_eq_nil_iff.mp kept))

/-- A plus sign behind the point is taken for one in front, and for a place of the number. -/
theorem not_readsAsPercent_signBehind :
    ofPercentText ".+5" = .ok ⟨5, 4⟩ ∧ ¬ ReadsAsPercent ".+5" := by
  have read : ofPercentText ".+5" = .ok ⟨5, 4⟩ := by decide +kernel
  refine ⟨read, fun reads => ?_⟩
  obtain ⟨numeral, written⟩ := reads.is_numeral _ read
  have trimmed : Text.trim ".+5".toList = '.' :: (Sign.plus.chars ++ ['5']) := by decide +kernel
  exact not_numeral_of_signBehind Sign.noConfusion numeral (written.trans trimmed)

end Accuracy

end Rate

end RuleBook
