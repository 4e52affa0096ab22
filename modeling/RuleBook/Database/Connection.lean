import RuleBook.Database.Columns
import RuleBook.Database.Server

/-! # Connections

The database knows nothing of statements and rows: it is sent texts with values for their places,
and the rows that it answers with are decoded column by column.
-/

namespace RuleBook

/-- A connection in some state: it answers a text with the number of rows that were touched, and the
text of a query with rows. -/
structure Connection (σ : Type) where
  execute : σ → String → List Parameter → Except DatabaseFault Nat × σ
  query : σ → String → Except DatabaseFault (List Columns) × σ

/-- The server that is reached by a connection. -/
def Connection.server {σ : Type} (connection : Connection σ) : Server σ where
  execute state statement := connection.execute state statement.sql statement.parameters
  read state query :=
    let (answer, state) := connection.query state query.sql
    (answer.bind query.rowsOf, state)

end RuleBook
