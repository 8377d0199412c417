import Std.Data.ExtTreeMap
import Milepost.Failure
import Milepost.Meters.Exposition

/-!
# Connections

What is said about a cluster before connecting to it: its name and a user, and sources of
configuration. Sources that name something outside, a file or a variable of the environment, are
checked when a backend is made from them.

* `ConnectionConfig.validate`: a name needs a user.
* `Surroundings.check`: what is named must exist.
-/

namespace Milepost

/-- What is said about a cluster. -/
structure ConnectionConfig where
  /-- The name of the cluster. -/
  cluster : Option String := none
  /-- The user who connects. -/
  user : Option String := none
  /-- A file with the configuration. -/
  file : Option String := none
  /-- A variable of the environment with the configuration. -/
  environment : Option String := none
  /-- Arguments in the form of a command line. -/
  arguments : Option (List String) := none
  /-- Keys and values, in order of the keys. -/
  settings : Std.ExtTreeMap String String := ∅

namespace ConnectionConfig

/-- Adds keys and values; a later value takes the place of an earlier one. -/
def addSettings (c : ConnectionConfig) (entries : List (String × String)) : ConnectionConfig :=
  { c with settings := entries.foldl (fun m e => m.insert e.1 e.2) c.settings }

/-- Whether no source of configuration is named. -/
def usesDefaultSource (c : ConnectionConfig) : Bool :=
  c.file.isNone && c.environment.isNone && c.arguments.isNone && c.settings.isEmpty

/-- The name of the cluster in the journal. -/
def clusterLabel (c : ConnectionConfig) : String := c.cluster.getD "default"

/-- A cluster is named together with a user, or not at all. -/
def validate (c : ConnectionConfig) : Except Failure Unit :=
  match c.cluster, c.user with
  | some cluster, none =>
    .error ((Failure.ofStatus .invalidInput .noEntry).noted (.connect cluster))
  | _, _ => .ok ()

end ConnectionConfig

/-- What lies around a program: which files and which variables of the environment there are. -/
structure Surroundings where
  hasFile : String → Bool
  hasVariable : String → Bool

/-- Checks that the sources outside exist: first the file, then the variable. -/
def Surroundings.check (s : Surroundings) (c : ConnectionConfig) : Except Failure Unit :=
  match c.file.filter (!s.hasFile ·), c.environment.filter (!s.hasVariable ·) with
  | some path, _ => .error (.of .invalidInput (.configFileMissing path))
  | none, some name => .error (.of .invalidInput (.configVariableMissing name))
  | none, none => .ok ()

end Milepost
