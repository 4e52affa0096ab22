import RuleBook.Database.Repository
import RuleBook.Store.Basic

/-! # Authoring

A rule is created, updated or deleted in steps, and other requests may come in between. It is
validated first, then looked up in the store, then written to the repository if there is one, then
to the store, and at last read back. The first step that fails ends the write.
-/

namespace RuleBook

/-- A write to one rule. -/
inductive RuleWrite where
  | create (rule : Rule)
  | update (rule : Rule)
  | delete (id : String)

def RuleWrite.id : RuleWrite → String
  | create rule => rule.id
  | update rule => rule.id
  | delete id => id

/-- Keeps rules beside the store; a write can fail. -/
structure RuleRepository (σ : Type) where
  persist : RuleWrite → Instant → σ → Except RuleError Unit × σ

def RuleRepository.ofServer {σ : Type} (server : Server σ) : RuleRepository σ where
  persist write now state :=
    let transcript := match write with
      | .create rule => server.insertRule rule now state
      | .update rule => server.updateRule rule now state
      | .delete id => server.softDeleteRule id now state
    (transcript.result, transcript.server)

/-- What requests share: the store, and the state of the repository. -/
structure Holdings (σ : Type) where
  store : Store
  records : σ

/-- A step of a write. -/
inductive WriteStep where
  | validate
  | lookUp
  | persist
  | apply
  | readBack
deriving DecidableEq, Repr

namespace RuleWrite

variable {σ : Type}

/-- The steps of a write, in order. -/
def steps : RuleWrite → List WriteStep
  | create _ => [.validate, .lookUp, .persist, .apply, .readBack]
  | update _ => [.validate, .lookUp, .persist, .apply, .readBack]
  | delete _ => [.lookUp, .persist, .apply]

def validated (write : RuleWrite) (store : Store) : Except RuleError Unit × Store :=
  match write with
  | create rule => store.validate rule
  | update rule => store.validate rule
  | delete _ => (.ok (), store)

/-- Whether the store stands in the way: the id of a new rule is taken, or there is no rule. -/
def lookedUp (write : RuleWrite) (store : Store) : Except RuleError Unit :=
  match write with
  | create rule =>
    if store.contains rule.id then .error (.ruleAlreadyExists rule.id) else .ok ()
  | update rule =>
    if (store.get? rule.id).isNone then .error (.ruleNotFound rule.id) else .ok ()
  | delete id => if (store.get? id).isNone then .error (.ruleNotFound id) else .ok ()

def applied (write : RuleWrite) (now : Instant) (store : Store) : Except RuleError Unit × Store :=
  match write with
  | create rule =>
    let (result, store) := store.create rule now
    (result.map fun _ => (), store)
  | update rule =>
    let (result, store) := store.update rule now
    (result.map fun _ => (), store)
  | delete id => store.softDelete id now

def perform (repository? : Option (RuleRepository σ)) (write : RuleWrite) (now : Instant)
    (step : WriteStep) (holdings : Holdings σ) : Except RuleError Unit × Holdings σ :=
  match step with
  | .validate =>
    let (result, store) := write.validated holdings.store
    (result, { holdings with store })
  | .lookUp => (write.lookedUp holdings.store, holdings)
  | .persist =>
    match repository? with
    | none => (.ok (), holdings)
    | some repository =>
      let (result, records) := repository.persist write now holdings.records
      (result, { holdings with records })
  | .apply =>
    let (result, store) := write.applied now holdings.store
    (result, { holdings with store })
  | .readBack =>
    (if (holdings.store.get? write.id).isNone then .error (.ruleNotFound write.id) else .ok (),
      holdings)

/-- Take steps one after the other, up to the first that fails. -/
def performAll (repository? : Option (RuleRepository σ)) (write : RuleWrite) (now : Instant) :
    List WriteStep → Holdings σ → Except RuleError Unit × Holdings σ
  | [], holdings => (.ok (), holdings)
  | step :: rest, holdings =>
    match write.perform repository? now step holdings with
    | (.error e, holdings) => (.error e, holdings)
    | (.ok (), holdings) => performAll repository? write now rest holdings

def run (repository? : Option (RuleRepository σ)) (write : RuleWrite) (now : Instant)
    (holdings : Holdings σ) : Except RuleError Unit × Holdings σ :=
  write.performAll repository? now write.steps holdings

end RuleWrite

end RuleBook
