import RuleBook.Error

/-! # Database faults

Why the database did not do what it was asked. To an operation on rules every such fault means that
the storage is unavailable; only those that may pass by themselves are worth another try.
-/

namespace RuleBook

/-- Why the database did not do what it was asked. -/
inductive DatabaseFault where
  | poolTimedOut
  | poolClosed
  | rowNotFound
  | connectionLost (detail : String)
  | unusableUrl (detail : String)
  | refused (detail : String)
  | undecodable (table : String)
deriving DecidableEq, Repr

namespace DatabaseFault

/-- The code under which callers see the fault. -/
def code : String := "DATABASE_ERROR"

def isRetryable : DatabaseFault → Bool
  | poolTimedOut => true
  | connectionLost _ => true
  | _ => false

def message : DatabaseFault → String
  | poolTimedOut => "pool timed out while waiting for an open connection"
  | poolClosed => "attempted to acquire a connection on a closed pool"
  | rowNotFound => "no rows returned by a query that expected to return at least one row"
  | connectionLost detail => "error communicating with database: " ++ detail
  | unusableUrl detail => "error with configuration: " ++ detail
  | refused detail => "error returned from database: " ++ detail
  | undecodable table => "error occurred while decoding a row of " ++ table

/-- The fault as the failure of an operation on rules. -/
def toRuleError (fault : DatabaseFault) : RuleError := .storageUnavailable fault.message

end DatabaseFault

end RuleBook
