/-! # UTF-8

Texts from bytes. Bytes that begin no character, or a character that breaks off, count as one
failure each; a sequence is followed only as far as it could still become a character. Strict
reading refuses failures, lenient reading puts the replacement character in their place.
-/

namespace RuleBook.Utf8

/-- A character of which some bytes are still owed: how many, the range of the next one, and the
bits read so far. -/
structure Pending where
  owed : Nat
  low : Nat
  high : Nat
  bits : Nat
deriving DecidableEq, Repr

/-- What a first byte begins: a character of one byte, a longer one, or nothing. -/
inductive Start where
  | char (c : Char)
  | pending (p : Pending)
  | failure

def start (byte : Nat) : Start :=
  if byte ≤ 0x7F then .char (Char.ofNat byte)
  else if byte < 0xC2 then .failure
  else if byte ≤ 0xDF then .pending ⟨1, 0x80, 0xBF, byte % 32⟩
  else if byte = 0xE0 then .pending ⟨2, 0xA0, 0xBF, byte % 16⟩
  else if byte = 0xED then .pending ⟨2, 0x80, 0x9F, byte % 16⟩
  else if byte ≤ 0xEF then .pending ⟨2, 0x80, 0xBF, byte % 16⟩
  else if byte = 0xF0 then .pending ⟨3, 0x90, 0xBF, byte % 8⟩
  else if byte ≤ 0xF3 then .pending ⟨3, 0x80, 0xBF, byte % 8⟩
  else if byte = 0xF4 then .pending ⟨3, 0x80, 0x8F, byte % 8⟩
  else .failure

/-- Read bytes, after those of a character that is still pending; a failure is `none`. -/
def scan : Option Pending → List UInt8 → List (Option Char)
  | none, [] => []
  | some _, [] => [none]
  | none, byte :: rest =>
    match start byte.toNat with
    | .char c => some c :: scan none rest
    | .pending p => scan (some p) rest
    | .failure => none :: scan none rest
  | some p, byte :: rest =>
    if p.low ≤ byte.toNat ∧ byte.toNat ≤ p.high then
      let bits := p.bits * 64 + byte.toNat % 64
      if p.owed ≤ 1 then some (Char.ofNat bits) :: scan none rest
      else scan (some ⟨p.owed - 1, 0x80, 0xBF, bits⟩) rest
    else
      match start byte.toNat with
      | .char c => none :: some c :: scan none rest
      | .pending p => none :: scan (some p) rest
      | .failure => none :: none :: scan none rest

/-- The text that bytes encode, if they encode one. -/
def decode? (bytes : List UInt8) : Option String := ((scan none bytes).mapM id).map String.ofList

/-- The text that bytes encode, with the replacement character for every failure. -/
def decodeLenient (bytes : List UInt8) : String :=
  String.ofList ((scan none bytes).map fun c => c.getD (Char.ofNat 0xFFFD))

def encode (text : String) : List UInt8 := text.toUTF8.toList

end RuleBook.Utf8
