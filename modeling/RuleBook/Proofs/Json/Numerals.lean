import RuleBook.Json.Printer
import RuleBook.Json.Reader
import RuleBook.Proofs.Number.Shortest

/-! # Reading back numbers

The text of an integer is read as that integer, and the text of a floating-point number is read as
some number, whatever else follows in the text of a value. A floating-point number reads back when
the number read is itself: its decimal is rounded once for its digits and once more for its power of
ten, so not every one does.
-/

namespace RuleBook

section Digits

/-- Digits that may stand before the point of a number: no zero leads others. -/
structure WholeDigits (digits : List Char) : Prop where
  all_digits : ∀ c ∈ digits, c.isDigit = true
  filled : digits ≠ []
  leading : digits.head? = some '0' → digits.length ≤ 1

theorem isDigit_of_mem_toDigits {n : Nat} {c : Char} (member : c ∈ Nat.toDigits 10 n) :
    c.isDigit = true :=
  Nat.isDigit_of_mem_toDigits (by decide) (by decide) member

private theorem head?_toDigits {n : Nat} (positive : 0 < n) :
    (Nat.toDigits 10 n).head? ≠ some '0' := by
  induction n using Nat.strongRecOn with
  | ind n ih =>
    by_cases small : n < 10
    · rw [Nat.toDigits_of_lt_base small]
      simpa using Nat.ne_of_gt positive
    · rw [Nat.toDigits_of_base_le (by decide) (Nat.le_of_not_lt small), List.head?_append]
      intro zero
      rcases Option.or_eq_some_iff.mp zero with zero | ⟨empty, -⟩
      · exact ih (n / 10) (by omega) (by omega) zero
      · exact Nat.toDigits_ne_nil (List.head?_eq_none_iff.mp empty)

private theorem wholeDigits_toDigits (n : Nat) : WholeDigits (Nat.toDigits 10 n) where
  all_digits _ := isDigit_of_mem_toDigits
  filled := Nat.toDigits_ne_nil
  leading zero := by
    rcases Nat.eq_zero_or_pos n with rfl | positive
    · decide
    · exact absurd zero (head?_toDigits positive)

variable {digits : List Char}

/-- Digits without a leading zero may stand before a point. -/
theorem WholeDigits.of_leading (all_digits : ∀ c ∈ digits, c.isDigit = true)
    (filled : digits ≠ []) (leading : digits.head? ≠ some '0') : WholeDigits digits :=
  ⟨all_digits, filled, fun zero => absurd zero leading⟩

theorem WholeDigits.accepted (whole : WholeDigits digits) :
    ¬ (digits.isEmpty = true ∨ (digits.head? = some '0' ∧ 1 < digits.length)) := by
  rintro (empty | ⟨zero, long⟩)
  · exact whole.filled (List.isEmpty_iff.mp empty)
  · exact absurd (whole.leading zero) (Nat.not_le_of_lt long)

theorem WholeDigits.starts (whole : WholeDigits digits) (behind : List Char) :
    ∃ c ∈ (digits ++ behind).head?, c.isDigit = true := by
  obtain ⟨all_digits, filled, -⟩ := whole
  cases digits with
  | nil => exact absurd rfl filled
  | cons c rest => exact ⟨c, rfl, all_digits c List.mem_cons_self⟩

private theorem head?_take {n : Nat} (positive : 0 < n) : (digits.take n).head? = digits.head? := by
  cases digits with
  | nil => rw [List.take_nil]
  | cons c rest => cases n with
    | zero => exact absurd positive (Nat.lt_irrefl 0)
    | succ n => rfl

end Digits

namespace Document

section Grammar

/-- What may follow a number in the text of a value. -/
def Ends (rest : List Char) : Prop := ∀ c ∈ rest.head?, c = ',' ∨ c = ']' ∨ c = '}'

theorem Ends.nil : Ends [] := nofun

private theorem takeDigits_append {digits rest : List Char}
    (all_digits : ∀ c ∈ digits, c.isDigit = true) (stops : ∀ c ∈ rest.head?, c.isDigit = false) :
    takeDigits (digits ++ rest) = (digits, rest) := by
  have none_taken : rest.takeWhile Char.isDigit = [] ∧ rest.dropWhile Char.isDigit = rest := by
    cases rest with
    | nil => exact ⟨rfl, rfl⟩
    | cons c rest => simp [stops c rfl]
  rw [takeDigits, List.takeWhile_append_of_pos all_digits, List.dropWhile_append_of_pos all_digits,
    none_taken.1, none_taken.2, List.append_nil]

theorem Ends.not_digit {rest : List Char} (ends : Ends rest) :
    ∀ c ∈ rest.head?, c.isDigit = false := by
  intro c member
  rcases ends c member with rfl | rfl | rfl <;> rfl

/-- The digits of an exponent behind its mark and its sign. -/
structure IsExponent (sign : Char) (digits : List Char) : Prop where
  sign_known : sign = '+' ∨ sign = '-'
  filled : digits ≠ []
  all_digits : ∀ c ∈ digits, c.isDigit = true

theorem readExponent_absent {rest : List Char} (ends : Ends rest) :
    readExponent rest = some (none, rest) := by
  cases rest with
  | nil => rfl
  | cons c rest => rcases ends c rfl with rfl | rfl | rfl <;> rfl

private theorem readExponent_signed {sign : Char} {digits : List Char}
    (exponent : IsExponent sign digits) :
    ∃ value, ∀ rest, Ends rest →
      readExponent ('e' :: sign :: (digits ++ rest)) = some (some value, rest) := by
  obtain ⟨sign_known, filled, all_digits⟩ := exponent
  let value : Int := digits.foldl (fun n c => n * 10 + digitValue c) 0
  rcases sign_known with rfl | rfl
  · refine ⟨value, fun rest ends => ?_⟩
    simp [readExponent, takeDigits_append all_digits ends.not_digit, filled, value]
  · refine ⟨-value, fun rest ends => ?_⟩
    simp [readExponent, takeDigits_append all_digits ends.not_digit, filled, value]

/-- The document of a number that may be out of range. -/
def leaf (number : Option JsonNumber) : Document := (number.map .number).getD .unreadable

variable {negative : Bool} {whole : List Char}

private theorem readNumber_whole (digits : WholeDigits whole) {rest : List Char}
    (ends : Ends rest) :
    readNumber negative (whole ++ rest) =
      ⟨leaf (wholeNumber? negative whole), some rest⟩ := by
  simp only [readNumber, takeDigits_append digits.all_digits ends.not_digit,
    if_neg digits.accepted]
  cases rest with
  | nil => rfl
  | cons c rest => rcases ends c rfl with rfl | rfl | rfl <;> rfl

theorem readNumber_point (digits : WholeDigits whole) {fraction behind rest : List Char}
    {exponent : Option Int} (filled : fraction ≠ [])
    (all_digits : ∀ c ∈ fraction, c.isDigit = true)
    (stops : ∀ c ∈ behind.head?, c.isDigit = false)
    (scaled : readExponent behind = some (exponent, rest)) :
    readNumber negative (whole ++ '.' :: (fraction ++ behind)) =
      ⟨leaf (scaledNumber? negative whole fraction (exponent.getD 0)), some rest⟩ := by
  have split : takeDigits (whole ++ '.' :: (fraction ++ behind)) =
      (whole, '.' :: (fraction ++ behind)) :=
    takeDigits_append digits.all_digits (by rintro _ ⟨⟩; rfl)
  have unempty : ¬ fraction.isEmpty = true := fun empty => filled (List.isEmpty_iff.mp empty)
  simp only [readNumber, split, if_neg digits.accepted,
    takeDigits_append all_digits stops, if_neg unempty, scaled]
  rfl

private theorem readNumber_mark (digits : WholeDigits whole) {behind rest : List Char}
    {exponent : Int} (scaled : readExponent ('e' :: behind) = some (some exponent, rest)) :
    readNumber negative (whole ++ 'e' :: behind) =
      ⟨leaf (scaledNumber? negative whole [] exponent), some rest⟩ := by
  have split : takeDigits (whole ++ 'e' :: behind) = (whole, 'e' :: behind) :=
    takeDigits_append digits.all_digits (by rintro _ ⟨⟩; rfl)
  simp only [readNumber, split, if_neg digits.accepted]
  simp [scaled, leaf]

/-- A text without a sign is read as a number, whatever may follow it in the text of a value. -/
structure IsMagnitude (negative : Bool) (cs : List Char) (number : Document) : Prop where
  starts : ∃ c ∈ cs.head?, c.isDigit = true
  reads : ∀ rest, Ends rest → readNumber negative (cs ++ rest) = ⟨number, some rest⟩

private theorem isMagnitude_point (digits : WholeDigits whole) {fraction : List Char}
    (filled : fraction ≠ []) (all_digits : ∀ c ∈ fraction, c.isDigit = true) :
    ∃ number, IsMagnitude negative (whole ++ '.' :: fraction) number := by
  refine ⟨leaf (scaledNumber? negative whole fraction 0), digits.starts _,
    fun rest ends => ?_⟩
  rw [List.append_assoc, List.cons_append]
  exact readNumber_point digits filled all_digits ends.not_digit (readExponent_absent ends)

private theorem isMagnitude_point_exponent (digits : WholeDigits whole) {fraction power : List Char}
    {sign : Char} (filled : fraction ≠ []) (all_digits : ∀ c ∈ fraction, c.isDigit = true)
    (exponent : IsExponent sign power) :
    ∃ number,
      IsMagnitude negative (whole ++ '.' :: (fraction ++ 'e' :: sign :: power)) number := by
  obtain ⟨value, scaled⟩ := readExponent_signed exponent
  refine ⟨leaf (scaledNumber? negative whole fraction value), digits.starts _,
    fun rest ends => ?_⟩
  rw [List.append_assoc, List.cons_append, List.append_assoc]
  exact readNumber_point digits filled all_digits (by rintro _ ⟨⟩; rfl) (scaled rest ends)

private theorem isMagnitude_exponent (digits : WholeDigits whole) {power : List Char}
    {sign : Char} (exponent : IsExponent sign power) :
    ∃ number, IsMagnitude negative (whole ++ 'e' :: sign :: power) number := by
  obtain ⟨value, scaled⟩ := readExponent_signed exponent
  refine ⟨leaf (scaledNumber? negative whole [] value), digits.starts _,
    fun rest ends => ?_⟩
  rw [List.append_assoc, List.cons_append, List.cons_append]
  exact readNumber_mark digits (scaled rest ends)

end Grammar

end Document

section Floats

namespace Double

section Layouts

variable {negative : Bool} {digits : List Char} (all_digits : ∀ c ∈ digits, c.isDigit = true)
include all_digits

private theorem digits_with_zeros {n : Nat} {padded : List Char}
    (perm : padded.Perm (digits ++ List.replicate n '0')) : ∀ c ∈ padded, c.isDigit = true := by
  intro c member
  rcases List.mem_append.mp (perm.mem_iff.mp member) with member | member
  · exact all_digits c member
  · rw [List.eq_of_mem_replicate member]
    rfl

/-- Every layout of digits without a leading zero is read as some number. -/
theorem isMagnitude_layOutDigits (filled : digits ≠ []) (leading : digits.head? ≠ some '0')
    (exponent : Int) :
    ∃ number, Document.IsMagnitude negative (layOutDigits digits exponent) number := by
  have power (place : Int) : Document.IsExponent (if 0 < place then '+' else '-')
      (Nat.toDigits 10 (place - 1).natAbs) :=
    ⟨by split <;> simp, Nat.toDigits_ne_nil, fun _ => isDigit_of_mem_toDigits⟩
  have some_digits : 0 < digits.length := List.length_pos_iff.mpr filled
  have front {n : Nat} (positive : 0 < n) : WholeDigits (digits.take n) :=
    .of_leading (fun c member => all_digits c (List.mem_of_mem_take member))
      (by simpa [filled] using Nat.ne_of_gt positive) (by rwa [head?_take positive])
  have back (n : Nat) : ∀ c ∈ digits.drop n, c.isDigit = true :=
    fun c member => all_digits c (List.mem_of_mem_drop member)
  rw [layOutDigits]
  dsimp only
  split
  · refine Document.isMagnitude_point (.of_leading (digits_with_zeros all_digits (.refl _)) ?_ ?_)
      (List.cons_ne_nil _ _) (by simp)
    · exact List.append_ne_nil_of_left_ne_nil filled _
    · rw [List.head?_append, List.head?_eq_some_head filled] at *
      exact leading
  split
  · refine Document.isMagnitude_point (front (by omega)) ?_ (back _)
    rw [Ne, List.drop_eq_nil_iff]
    omega
  split
  · exact Document.isMagnitude_point ⟨by simp, by simp, by simp⟩
      (List.append_ne_nil_of_right_ne_nil _ filled)
      (digits_with_zeros all_digits List.perm_append_comm)
  split
  · exact Document.isMagnitude_exponent (.of_leading all_digits filled leading) (power _)
  · refine Document.isMagnitude_point_exponent (front (by decide)) ?_ (back 1) (power _)
    rw [Ne, List.drop_eq_nil_iff]
    omega

end Layouts

private theorem isMagnitude_magnitudeText (x : Double) (negative : Bool) :
    ∃ number, Document.IsMagnitude negative x.magnitudeText.toList number := by
  rw [magnitudeText]
  split
  · have zero : WholeDigits ['0'] := ⟨by simp, by simp, by simp⟩
    have point : ∃ number, Document.IsMagnitude negative (['0'] ++ '.' :: ['0']) number :=
      Document.isMagnitude_point zero (by simp) (by simp)
    exact point
  · rename_i nonzero
    have trimmed := (shortest_spec (Bool.eq_false_iff.mpr nonzero)).1
    have positive : 0 < x.shortest.digits :=
      Nat.pos_of_ne_zero fun zero => trimmed (by rw [zero])
    rw [toList_layOut]
    exact isMagnitude_layOutDigits (fun _ => isDigit_of_mem_toDigits) Nat.toDigits_ne_nil
      (head?_toDigits positive) _

end Double

end Floats

section Integers

namespace Document

private theorem le_ofDigitChars (digits : List Char) (significand : Nat) :
    significand ≤ Nat.ofDigitChars 10 digits significand := by
  rw [Nat.ofDigitChars_eq_ofDigitChars_zero]
  have grown : significand ≤ 10 ^ digits.length * significand :=
    Nat.le_mul_of_pos_left significand (Nat.pow_pos (by decide))
  omega

/-- Digits whose number fits 64 bits are absorbed to the last. -/
theorem absorb_of_lt {digits : List Char} {significand : Nat}
    (fits : Nat.ofDigitChars 10 digits significand < 0x10000000000000000) :
    absorb significand digits = (Nat.ofDigitChars 10 digits significand, []) := by
  induction digits generalizing significand with
  | nil => simp [absorb]
  | cons c rest ih =>
    have next : significand * 10 + digitValue c = 10 * significand + (c.toNat - '0'.toNat) := by
      rw [Nat.mul_comm, digitValue]
      rfl
    rw [Nat.ofDigitChars_cons] at fits ⊢
    have below := Nat.lt_of_le_of_lt (le_ofDigitChars ..) fits
    rw [absorb, next]
    simp only [if_pos below]
    exact ih fits

private theorem wholeNumber?_toDigits (n : JsonInt) :
    wholeNumber? (decide (n.value < 0)) (Nat.toDigits 10 n.value.natAbs) = some (.int n) := by
  obtain ⟨value, least_le, lt_bound⟩ := n
  have absorbed : absorb 0 (Nat.toDigits 10 value.natAbs) = (value.natAbs, []) := by
    rw [absorb_of_lt] <;> rw [Nat.ofDigitChars_ten_toDigits]
    omega
  have signed : (if decide (value < 0) then -(value.natAbs : Int) else value.natAbs) = value := by
    by_cases negative : value < 0
    · rw [decide_eq_true negative, if_pos rfl]
      omega
    · rw [decide_eq_false negative, if_neg Bool.false_ne_true]
      omega
  have accepted : ((!decide (value < 0)) || value.natAbs != 0) = true := by
    by_cases negative : value < 0 <;> simp [negative]
    omega
  simp only [wholeNumber?, absorbed, List.isEmpty_nil, Bool.true_and, accepted, if_true, signed]
  rw [JsonInt.ofInt?, dif_pos ⟨least_le, lt_bound⟩]

end Document

end Integers

namespace JsonNumber

/-- Whether the text of a number starts with a sign. -/
def isNegative : JsonNumber → Bool
  | .int n => decide (n.value < 0)
  | .float x => x.isNegative

/-- The text of a number behind its sign. -/
def magnitudeText : JsonNumber → String
  | .int n => toString n.value.natAbs
  | .float x => x.magnitudeText

theorem toList_text (n : JsonNumber) :
    n.text.toList = (if n.isNegative then ['-'] else []) ++ n.magnitudeText.toList := by
  cases n with
  | int n =>
    rw [text, isNegative, magnitudeText, Int.toString_eq_repr, Int.repr_eq_if]
    by_cases negative : n.value < 0
    · have magnitude : (-n.value).toNat = n.value.natAbs := by omega
      simp [negative, magnitude, Int.not_le.mpr negative]
    · have magnitude : n.value.toNat = n.value.natAbs := by omega
      simp [negative, magnitude, Int.not_lt.mp negative]
  | float x =>
    rw [text, isNegative, magnitudeText, Double.text_eq]
    cases x.isNegative <;> simp

/-- What the text of a number is read as. -/
def reread (n : JsonNumber) : Document :=
  (Document.readNumber n.isNegative n.magnitudeText.toList).value

private theorem reread_eq {n : JsonNumber} {number : Document}
    (read : Document.IsMagnitude n.isNegative n.magnitudeText.toList number) :
    n.reread = number := by
  have alone := read.reads [] .nil
  rw [List.append_nil] at alone
  rw [reread, alone]

private theorem isMagnitude_int (n : JsonInt) :
    Document.IsMagnitude (isNegative (.int n)) (magnitudeText (.int n)).toList
      (.number (.int n)) := by
  have digits := wholeDigits_toDigits n.value.natAbs
  rw [magnitudeText, Nat.toString_eq_repr, Nat.toList_repr]
  refine ⟨by simpa using digits.starts [], fun rest ends => ?_⟩
  rw [Document.readNumber_whole digits ends, isNegative, Document.wholeNumber?_toDigits]
  rfl

@[simp] theorem reread_int (n : JsonInt) : reread (.int n) = .number (.int n) :=
  reread_eq (isMagnitude_int n)

/-- The text of every number is read as one number, whatever may follow it. -/
theorem isMagnitude_reread (n : JsonNumber) :
    Document.IsMagnitude n.isNegative n.magnitudeText.toList n.reread := by
  cases n with
  | int n => exact reread_int n ▸ isMagnitude_int n
  | float x =>
    obtain ⟨number, read⟩ := x.isMagnitude_magnitudeText x.isNegative
    have same : (JsonNumber.float x).reread = number := reread_eq read
    exact same ▸ read

end JsonNumber

end RuleBook
