import RuleBook.Config.Basic
import RuleBook.Config.Environment
import RuleBook.Json.Reader
import RuleBook.Config.Toml.Reader

/-! # Loading a configuration

Layers go over one another: the names of the service and of the environment, a file for all
services, a file for the environment, a file for the service, and the variables of the environment.
A file that is not there is passed over; one that cannot be read ends the loading. The name of a
service or an environment is a part of the path of its file. At last the port of the service may
come from a variable of its own.
-/

namespace RuleBook

/-- The files of a directory, with their texts. -/
abbrev ConfigFiles := List (String × String)

namespace ConfigFiles

/-- The names along a path from the directory; a point stays where it is. -/
def steps (path : String) : List String :=
  ((path.toList.splitOn '/').map String.ofList).filter fun name => name != "" && name != "."

/-- The text of the file at a path, which must not lead out of the directory. -/
def text? (files : ConfigFiles) (path : String) : Option String :=
  if path.toList.head? = some '/' ∨ (steps path).contains ".." then none
  else (files.find? fun file => steps file.1 == steps path).map Prod.snd

/-- The layer in the file of a service or an environment: empty if there is no file, nothing if it
is malformed. A file with nothing before its ending has no ending and does not count, and where
there is no file at the path another ending may stand behind it. -/
def layer? (files : ConfigFiles) (name : String) : Option (List (String × Setting)) :=
  let path := name ++ ".toml"
  match files.text? path, files.text? (path ++ ".toml"), files.text? (path ++ ".json") with
  | some text, _, _ => if (steps path).getLast? = some ".toml" then some [] else Toml.read? text
  | none, some text, _ => Toml.read? text
  | none, none, some text => (Json.read? text).bind Setting.layerOfJson?
  | none, none, none => some []

end ConfigFiles

namespace Configuration

/-- The settings before any file is read. -/
def initialLayer (service : String) (environment : Environment) : List (String × Setting) :=
  [("service_name", .text service), ("environment", .text environment.kind)]

/-- The layers of a configuration, the latest one last. -/
def layers? (service : String) (files : ConfigFiles) (environment : Environment) :
    Option (List (List (String × Setting))) := do
  let common ← files.layer? "default"
  let particular ← files.layer? environment.kind
  let own ← files.layer? service
  return [initialLayer service environment, common, particular, own, environment.settings]

/-- Let the variable for the port of a service go before what was read. -/
def withPortOf (config : Configuration) (service : String) (environment : Environment) :
    Configuration :=
  match environment.port? service with
  | some port => { config with server := { config.server with port } }
  | none => config

def load? (service : String) (files : ConfigFiles) (environment : Environment) :
    Option Configuration := do
  let layers ← layers? service files environment
  let config ← ofSetting? (.ofLayers layers)
  return config.withPortOf service environment

end Configuration

end RuleBook
