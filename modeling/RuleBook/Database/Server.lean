import RuleBook.Database.Fault
import RuleBook.Database.Statement

/-! # Talking to the database

A server executes statements one at a time and answers queries. A transcript holds what came of a
series of statements and what was sent on the way. A transaction that fails after it has begun is
rolled back, also when it is the commit that fails.
-/

namespace RuleBook

/-- A server in some state: it answers a statement with the number of rows it touched, and a query
with rows. -/
structure Server (σ : Type) where
  execute : σ → Statement → Except DatabaseFault Nat × σ
  read : σ → (query : TableQuery) → Except DatabaseFault (List query.Row) × σ

/-- A statement and what the server answered: the number of rows it touched or yielded. -/
structure Exchange where
  statement : Statement
  reply : Except DatabaseFault Nat

/-- What came of a series of statements: the result, what was sent and answered, and the state of
the server after it. -/
structure Transcript (σ α : Type) where
  result : Except RuleError α
  exchanges : List Exchange
  server : σ

namespace Transcript

variable {σ α β : Type}

def ofResult (result : Except RuleError α) (state : σ) : Transcript σ α := ⟨result, [], state⟩

def andThen (first : Transcript σ α) (next : α → σ → Transcript σ β) : Transcript σ β :=
  match first.result with
  | .ok value =>
    let second := next value first.server
    ⟨second.result, first.exchanges ++ second.exchanges, second.server⟩
  | .error e => ⟨.error e, first.exchanges, first.server⟩

def statements (transcript : Transcript σ α) : List Statement :=
  transcript.exchanges.map Exchange.statement

end Transcript

namespace Server

variable {σ α : Type}

def send (server : Server σ) (statement : Statement) (state : σ) : Transcript σ Nat :=
  let (reply, state) := server.execute state statement
  ⟨reply.mapError DatabaseFault.toRuleError, [⟨statement, reply⟩], state⟩

def sendAll (server : Server σ) : List Statement → σ → Transcript σ Unit
  | [], state => .ofResult (.ok ()) state
  | statement :: rest, state =>
    (server.send statement state).andThen fun _ state => server.sendAll rest state

def fetch (server : Server σ) (query : TableQuery) (state : σ) : Transcript σ (List query.Row) :=
  let (reply, state) := server.read state query
  ⟨reply.mapError DatabaseFault.toRuleError, [⟨.query query, reply.map List.length⟩], state⟩

/-- Run a series of statements in a transaction. -/
def inTransaction (server : Server σ) (body : σ → Transcript σ Unit) (state : σ) :
    Transcript σ Unit :=
  (server.send .begin state).andThen fun _ state =>
    let ended := (body state).andThen fun _ state =>
      (server.send .commit state).andThen fun _ state => .ofResult (.ok ()) state
    match ended.result with
    | .ok () => ended
    | .error e =>
      let undone := server.send .rollback ended.server
      ⟨.error e, ended.exchanges ++ undone.exchanges, undone.server⟩

end Server

end RuleBook
