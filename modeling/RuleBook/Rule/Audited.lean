import RuleBook.Time.Instant

/-! # Audited records

A record with the times at which it was created, last changed, and marked as deleted. A deleted
record is kept.
-/

namespace RuleBook

/-- A record and its times. -/
structure Audited (α : Type) where
  record : α
  createdAt : Instant
  updatedAt : Instant
  deletedAt : Option Instant

namespace Audited

variable {α : Type}

def create (record : α) (now : Instant) : Audited α := ⟨record, now, now, none⟩

/-- Whether the record is marked as deleted. -/
def isDeleted (entry : Audited α) : Bool := entry.deletedAt.isSome

def replace (entry : Audited α) (record : α) (now : Instant) : Audited α :=
  { entry with record := record, updatedAt := now }

def markDeleted (entry : Audited α) (now : Instant) : Audited α :=
  { entry with deletedAt := some now, updatedAt := now }

def toJson (encode : α → Json) (entry : Audited α) : Json :=
  .object [("createdAt", entry.createdAt.toJson),
    ("deletedAt", .ofOption Instant.toJson entry.deletedAt),
    ("record", encode entry.record),
    ("updatedAt", entry.updatedAt.toJson)]

def decoder (decode : Decoder α) : Decoder (Audited α) :=
  .record ["record", "createdAt", "updatedAt", "deletedAt"] fun entries =>
    Audited.mk <$> entries.required "record" decode
      <*> entries.required "createdAt" Instant.decoder
      <*> entries.required "updatedAt" Instant.decoder
      <*> entries.optional "deletedAt" Instant.decoder

end Audited

end RuleBook
