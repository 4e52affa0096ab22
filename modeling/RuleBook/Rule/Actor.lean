import RuleBook.Error

/-! # Authors of rules -/

namespace RuleBook

/-- Who wrote a rule. -/
inductive Actor where
  | system
  | user (userId orgId : String)
  | apiToken (orgId : String)
deriving DecidableEq, Repr

namespace Actor

/-- The kinds of authors. -/
inductive Kind where
  | system
  | user
  | apiToken
deriving DecidableEq, Repr

instance : Named Kind where
  label := "Actor"
  all := [.system, .user, .apiToken]
  name
    | .system => "system"
    | .user => "user"
    | .apiToken => "api_token"

def kind : Actor → Kind
  | system => .system
  | user .. => .user
  | apiToken _ => .apiToken

/-- A user and a token need their identities. -/
def validate : Actor → Except RuleError Unit
  | system => .ok ()
  | user userId orgId =>
    if Text.isBlankText userId || Text.isBlankText orgId then
      .error (.invalidRequest .incompleteUser)
    else .ok ()
  | apiToken orgId =>
    if Text.isBlankText orgId then .error (.invalidRequest .incompleteToken) else .ok ()

def complete (actor : Actor) : Except RuleError Actor := do
  actor.validate
  return actor

def toJson : Actor → Json
  | system => .object [("type", .string "system")]
  | user userId orgId =>
    .object [("orgId", .string orgId), ("type", .string "user"), ("userId", .string userId)]
  | apiToken orgId => .object [("orgId", .string orgId), ("type", .string "api_token")]

def decoder : Decoder Actor :=
  .tagged "type" (Named.ofName? (α := Kind)) fun
    | .system => .noFields system
    | .user => .record ["userId", "orgId"] fun entries =>
      user <$> entries.required "userId" .text <*> entries.required "orgId" .text
    | .apiToken => .record ["orgId"] fun entries =>
      apiToken <$> entries.required "orgId" .text

end Actor

end RuleBook
