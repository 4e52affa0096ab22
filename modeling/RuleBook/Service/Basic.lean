import RuleBook.Cache.Basic
import RuleBook.Service.Authoring
import RuleBook.Service.Forms
import RuleBook.Service.Message
import RuleBook.Store.Statistics

/-! # The rule service

The service holds the rules in a store, answers questions from it, directly or through a cache, and
writes rules to a repository first if it has one.
-/

namespace RuleBook

/-- How questions are answered. -/
inductive Evaluator (δ : Type) where
  | direct
  | cached (cache : Cache δ)

/-- The service; texts are digested for the keys of its cache. -/
structure Service (δ σ : Type) where
  holdings : Holdings σ
  evaluator : Evaluator δ
  repository : Option (RuleRepository σ)
  digest : String → δ

/-- What a request finds: the time of day, a clock in nanoseconds, and ids that are not in use. -/
structure Occasion where
  now : Instant
  clock : CacheMoment → Nat
  freshRuleId : String
  freshRequestId : String

/-- The reply to a request, the service after it, and what is counted. -/
structure Handled (δ σ : Type) where
  reply : Reply
  service : Service δ σ
  events : List MetricEvent

/-- An answer, the service after it, and what is counted. -/
structure Asked (δ σ : Type) where
  answer : Except RuleError EvaluationResult
  service : Service δ σ
  events : List MetricEvent

namespace Service

variable {δ σ : Type} [DecidableEq δ]

def store (service : Service δ σ) : Store := service.holdings.store

def ask (service : Service δ σ) (question : Question) (occasion : Occasion) : Asked δ σ :=
  let source := RuleSource.ofStore service.store
  match service.evaluator with
  | .direct =>
    let answer := question.answer source none
    ⟨answer, service, question.events answer⟩
  | .cached cache =>
    let done := cache.evaluate service.digest source question none occasion.clock
    ⟨done.answer, { service with evaluator := .cached done.cache }, done.events⟩

/-- A reply that leaves the service as it is. -/
def replyWith (service : Service δ σ) (reply : Reply) : Handled δ σ := ⟨reply, service, []⟩

def fail (service : Service δ σ) (failure : ServiceFailure) : Handled δ σ :=
  service.replyWith ⟨failure.status, some failure.toJson⟩

def ruleView (entry : Audited CompiledRule) : Json :=
  .ofFields (entry.record.rule.toFields ++
    [("requiredFacts", entry.record.requiredFacts.toJson), ("createdAt", entry.createdAt.toJson),
      ("updatedAt", entry.updatedAt.toJson)])

/-- Whether the service works, and what it holds. -/
def health (service : Service δ σ) : Handled δ σ :=
  service.replyWith ⟨200, some (.object [("rules", (StoreStatistics.ofStore service.store).toJson),
    ("status", .string "ok")])⟩

def evaluate (service : Service δ σ) (form : QuestionForm) (occasion : Occasion) : Handled δ σ :=
  match form.validate with
  | .error failure => service.fail failure
  | .ok () =>
    let asked := service.ask form.toQuestion occasion
    let reply := match asked.answer with
      | .ok result => Reply.success (some result.toJson)
      | .error e => ⟨(ServiceFailure.rule e).status, some (ServiceFailure.rule e).toJson⟩
    ⟨reply, asked.service, asked.events⟩

/-- Decide about access; whatever fails denies. -/
def checkAccess (service : Service δ σ) (form : AccessForm) (occasion : Occasion) : Handled δ σ :=
  let asked := service.ask form.toQuestion occasion
  let decision := Question.decisionOf asked.answer
  ⟨.success (some (.object [("decision", Named.toJson decision)])), asked.service, asked.events⟩

/-- Write a rule, and show it as it is stored then. -/
def write (service : Service δ σ) (write : RuleWrite) (occasion : Occasion) : Handled δ σ :=
  let (result, holdings) := write.run service.repository occasion.now service.holdings
  let service := { service with holdings }
  match result with
  | .error e => service.fail (.rule e)
  | .ok () => service.replyWith (.success ((service.store.get? write.id).map ruleView))

/-- Create the rule of a form, under a fresh id unless it has one. -/
def createRule (service : Service δ σ) (form : RuleForm) (occasion : Occasion) : Handled δ σ :=
  match form.validate with
  | .error failure => service.fail failure
  | .ok () =>
    service.write (.create (form.toRule (form.id.getD occasion.freshRuleId))) occasion

/-- Update a rule from a form; an id in the form does not matter. -/
def updateRule (service : Service δ σ) (id : String) (form : RuleForm) (occasion : Occasion) :
    Handled δ σ :=
  match form.validate with
  | .error failure => service.fail failure
  | .ok () => service.write (.update (form.toRule id)) occasion

def deleteRule (service : Service δ σ) (id : String) (occasion : Occasion) : Handled δ σ :=
  service.write (.delete id) occasion

def getRule (service : Service δ σ) (id : String) : Handled δ σ :=
  match service.store.get? id with
  | some entry => service.replyWith (.success (some (ruleView entry)))
  | none => service.fail (.rule (.ruleNotFound id))

/-- Show the rules of a domain, or all, inactive ones too. -/
def listRules (service : Service δ σ) (domain? : Option String) : Handled δ σ :=
  service.replyWith (.success (some (.array ((service.store.listAll domain?).map ruleView))))

end Service

end RuleBook
