import Rollout.Config.Basic
import Rollout.Storage.Path

/-!
# Default directories

Where the configuration file and the stored state lie if nothing else is said: in a directory of
their own below the directories that the environment names for such files, and otherwise below the
user's home directory.

Specification: B.4.
-/

namespace Rollout

structure Environment where
  settings : NameMap String
  userHome : Option String
  deriving DecidableEq, Repr

namespace Environment

def home (env : Environment) : Option String :=
  ((env.settings.find? "HOME").filter fun path => !path.isEmpty).or env.userHome

/-- The directory that a variable names; only absolute paths count. -/
def named (env : Environment) (variableName : String) : Option String :=
  (env.settings.find? variableName).filter Path.isAbsolute

/-- The directory that a variable names, or else one below the home directory. -/
def namedOr (env : Environment) (variableName below : String) : Option String :=
  (env.named variableName).or (env.home.map fun home => Path.join home below)

inductive Missing where
  | config
  | state
  deriving DecidableEq, Repr

def Missing.message : Missing → String
  | config => "Could not determine config directory"
  | state => "Could not determine state directory"

def ownDirectory : String := "arbor"

def configName : String := "arbor.toml"

def configPath (env : Environment) : Except Missing String :=
  match env.namedOr "XDG_CONFIG_HOME" ".config" with
  | some directory => .ok (Path.join (Path.join directory ownDirectory) configName)
  | none => .error .config

def stateDirectory (env : Environment) : Except Missing String :=
  match (env.namedOr "XDG_STATE_HOME" ".local/state").or
      (env.namedOr "XDG_DATA_HOME" ".local/share") with
  | some directory => .ok (Path.join directory ownDirectory)
  | none => .error .state

end Environment

def Config.resolvedDirectory (c : Config) (env : Environment) : Except Environment.Missing String :=
  match c.stateDirectory with
  | some directory => .ok directory
  | none => env.stateDirectory

end Rollout
