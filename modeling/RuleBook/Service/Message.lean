import RuleBook.Json.Reader
import RuleBook.Text.MediaType
import RuleBook.Text.Percent

/-! # Requests and responses

A request is refused before it reaches an operation when its path or query cannot be read, when its
body is not declared as JSON, is no JSON, or does not fit the form that is wanted. Such a refusal is
a status without a body.
-/

namespace RuleBook

/-- A request: its address is split into path and query. -/
structure Request where
  method : String
  path : String
  query : Option String
  contentType : Option String
  body : String
  id : Option String
deriving Repr

/-- A response. -/
structure Response where
  status : Nat
  body : Option Json
  requestId : String

/-- A status alone, or a status with a body. -/
structure Reply where
  status : Nat
  body : Option Json

namespace Reply

def refuse (status : Nat) : Reply := ⟨status, none⟩

def success (data? : Option Json) : Reply :=
  let data := match data? with
    | some data => [("data", data)]
    | none => []
  ⟨200, some (.object ([("code", .string "SUCCESS")] ++ data ++
    [("message", .string "操作成功"), ("success", .bool true)]))⟩

end Reply

namespace Request

def isSchemeChar (c : Char) : Bool := c.isAlphanum || c = '+' || c = '-' || c = '.'

/-- What follows the scheme and the host of an address with both. -/
def afterHost? (address : List Char) : Option (List Char) :=
  match address.dropWhile isSchemeChar with
  | ':' :: '/' :: '/' :: rest => some (rest.dropWhile fun c => c ≠ '/' ∧ c ≠ '?' ∧ c ≠ '#')
  | _ => none

/-- Split an address into path and query; a fragment is dropped. An address may start with its
path, or with a scheme and a host, behind which no path is that of the root. Of a host alone there is
neither path nor query. -/
def splitAddress (address : String) : String × Option String :=
  let split (cs : List Char) : String × Option String :=
    let cs := cs.takeWhile (· ≠ '#')
    let path := String.ofList (cs.takeWhile (· ≠ '?'))
    (path, ((cs.dropWhile (· ≠ '?')).tail?).map String.ofList)
  match address.toList with
  | '/' :: rest => split ('/' :: rest)
  | ['*'] => split ['*']
  | cs =>
    match (afterHost? cs).map split with
    | some ("", query) => ("/", query)
    | some address => address
    | none => ("", none)

/-- Whether an id of a request can be kept: visible characters, blanks and tabs. -/
def isKeepable (id : String) : Bool :=
  id.toList.all fun c => c.toNat = 9 || (32 ≤ c.toNat && c.toNat < 127)

/-- The id of the response: that of the request if it can be kept, or else a fresh one. -/
def responseId (request : Request) (fresh : String) : String :=
  (request.id.filter isKeepable).getD fresh

/-- Read the form in the body, or the status of the refusal. -/
def form {α : Type} (request : Request) (decode : Decoder α) : Except Nat α :=
  if (request.contentType.map MediaType.isJson).getD false then
    match decode.readAll request.body with
    | .ok form => .ok form
    | .fault .unreadable => .error 400
    | .fault _ => .error 422
  else .error 415

/-- The value of a key in the query; a key that is repeated is refused. -/
def queryValue (request : Request) (key : String) : Except Nat (Option String) :=
  match (Percent.queryPairs (request.query.getD "")).filter (·.1 == key) with
  | [] => .ok none
  | [(_, value)] => .ok (some value)
  | _ => .error 400

end Request

end RuleBook
