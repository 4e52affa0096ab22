import RuleBook.Service.Basic

/-! # Routes

The path of a request names a resource and its method an operation on it. A path that names nothing
is not found, and a method that a resource does not have is not allowed. Where a resource can be
got, asking for its head is the same without the body.
-/

namespace RuleBook

/-- What a path names; the segment that names a rule is not decoded yet. -/
inductive Resource where
  | health
  | evaluation
  | accessCheck
  | rules
  | rule (segment : String)
deriving DecidableEq, Repr

def Resource.ofPath? (path : String) : Option Resource :=
  match path.splitOn "/" with
  | ["", "health"] => some .health
  | ["", "api", "v1", "evaluate"] => some .evaluation
  | ["", "api", "v1", "access", "check"] => some .accessCheck
  | ["", "api", "v1", "rules"] => some .rules
  | ["", "api", "v1", "rules", segment] => if segment.isEmpty then none else some (.rule segment)
  | _ => none

namespace Service

variable {δ σ : Type} [DecidableEq δ]

/-- Continue with what was read from a request, or refuse it. -/
def orRefuse {α : Type} (service : Service δ σ) (read : Except Nat α) (next : α → Handled δ σ) :
    Handled δ σ :=
  match read with
  | .ok value => next value
  | .error status => service.replyWith (.refuse status)

def segmentId (segment : String) : Except Nat String :=
  match Percent.decode? segment with
  | some id => .ok id
  | none => .error 400

def perform (service : Service δ σ) (resource : Resource) (method : String) (request : Request)
    (occasion : Occasion) : Handled δ σ :=
  match resource, method with
  | .health, "GET" => service.health
  | .evaluation, "POST" =>
    service.orRefuse (request.form QuestionForm.decoder) (service.evaluate · occasion)
  | .accessCheck, "POST" =>
    service.orRefuse (request.form AccessForm.decoder) (service.checkAccess · occasion)
  | .rules, "GET" => service.orRefuse (request.queryValue "domain") service.listRules
  | .rules, "POST" =>
    service.orRefuse (request.form RuleForm.decoder) (service.createRule · occasion)
  | .rule segment, "GET" => service.orRefuse (segmentId segment) service.getRule
  | .rule segment, "PUT" =>
    service.orRefuse (segmentId segment) fun id =>
      service.orRefuse (request.form RuleForm.decoder) (service.updateRule id · occasion)
  | .rule segment, "DELETE" =>
    service.orRefuse (segmentId segment) (service.deleteRule · occasion)
  | _, _ => service.replyWith (.refuse 405)

def route (service : Service δ σ) (request : Request) (occasion : Occasion) : Handled δ σ :=
  match Resource.ofPath? request.path with
  | none => service.replyWith (.refuse 404)
  | some resource =>
    if request.method = "HEAD" then
      let handled := service.perform resource "GET" request occasion
      { handled with reply := .refuse handled.reply.status }
    else service.perform resource request.method request occasion

/-- The response to a request, the service after it, and what is counted; every request is. -/
def handle (service : Service δ σ) (request : Request) (occasion : Occasion) :
    Response × Service δ σ × List MetricEvent :=
  let handled := service.route request occasion
  let reply := handled.reply
  (⟨reply.status, reply.body, request.responseId occasion.freshRequestId⟩, handled.service,
    handled.events ++ [.httpRequest request.method request.path reply.status])

end Service

end RuleBook
