import RuleBook.Error

/-! # Failures of requests

A request fails because its fields break a limit, or for the reasons for which operations on rules
fail. What exactly is wrong with the storage is not told to the caller.
-/

namespace RuleBook

/-- A field of a request that breaks a limit, and how. -/
structure FieldFault where
  field : String
  message : String
deriving DecidableEq, Repr

/-- The text for readers: one line for every field. -/
def FieldFault.report (faults : List FieldFault) : String :=
  "\n".intercalate (faults.map fun fault => fault.field ++ ": " ++ fault.message)

/-- Why a request fails. -/
inductive ServiceFailure where
  | invalid (detail : String)
  | rule (error : RuleError)

namespace ServiceFailure

def status : ServiceFailure → Nat
  | invalid _ => 400
  | rule error =>
    match error with
    | .conditionParse _ => 400
    | .dataIntegrity .. => 400
    | .invalidRequest _ => 400
    | .typeMismatch .. => 400
    | .money _ => 400
    | .json _ => 400
    | .ruleNotFound _ => 404
    | .ruleAlreadyExists _ => 409
    | .storageUnavailable _ => 503
    | .evaluationTimeout .. => 504

def code : ServiceFailure → String
  | invalid _ => "VALIDATION_ERROR"
  | rule error => error.code

def message : ServiceFailure → String
  | invalid detail => "参数验证失败: " ++ detail
  | rule error => error.message

/-- The text that callers see. -/
def publicMessage : ServiceFailure → String
  | rule (.storageUnavailable _) => "规则存储暂不可用，请稍后重试"
  | failure => failure.message

def toJson (failure : ServiceFailure) : Json :=
  .object [("code", .string failure.code), ("data", .null),
    ("message", .string failure.publicMessage), ("success", .bool false)]

end ServiceFailure

end RuleBook
