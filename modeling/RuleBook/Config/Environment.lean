import RuleBook.Config.Setting
import RuleBook.Text.Upper

/-! # Environment variables

Variables whose names start with `POLICY_`, in any case, are settings: two underscores in a row lead
into a table, and a text that writes a truth value or a number stands for it. The port of a service
has a variable of its own.
-/

namespace RuleBook

/-- The variables of an environment, with their values. -/
abbrev Environment := List (String × String)

/-- The setting that the text of a variable stands for. -/
def Setting.ofText (content : String) : Setting :=
  let word := content.map Char.toLower
  if word = "true" then .bool true
  else if word = "false" then .bool false
  else
    match (Text.integer? content.toList).bind IntRange.signed64.check? with
    | some n => .int (Int64.ofInt n)
    | none =>
      match Double.parse? content with
      | some x => .float x
      | none => .text content

namespace Environment

/-- What the names of settings start with. -/
def settingStart : List Char := "policy_".toList

/-- Points in place of two underscores in a row. -/
def pointed : List Char → List Char
  | '_' :: '_' :: rest => '.' :: pointed rest
  | c :: rest => c :: pointed rest
  | [] => []

/-- The path of the setting that a variable holds, in lower case. Only letters of the basic alphabet
are changed, which is enough: no other letter becomes one of a setting that is read. -/
def settingPath? (name : String) : Option String :=
  let cs := name.toList.map Char.toLower
  if settingStart.isPrefixOf cs then some (String.ofList (pointed (cs.drop settingStart.length)))
  else none

def settings (environment : Environment) : List (String × Setting) :=
  environment.filterMap fun (name, content) =>
    (settingPath? name).map fun path => (path, .ofText content)

/-- The name of the variable that holds the port of a service. -/
def portName (service : String) : String :=
  (Text.upper service).map (fun c => if c = '-' then '_' else c) ++ "_PORT"

/-- The port of a service, if its variable holds one. -/
def port? (environment : Environment) (service : String) : Option UInt16 :=
  (environment.lookup (portName service)).bind fun content =>
    ((Text.natural? content.toList).bind fun n => IntRange.unsigned16.check? n).map UInt16.ofInt

/-- The kind of environment: what `POLICY_ENV` says, or development. -/
def kind (environment : Environment) : String :=
  (environment.lookup "POLICY_ENV").getD "development"

end Environment

end RuleBook
