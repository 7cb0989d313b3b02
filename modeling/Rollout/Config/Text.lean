import Rollout.Config.Basic
import Rollout.Storage.Text
import Rollout.Text.Lines
import Rollout.Toml.Reader

/-!
# Configuration files

A configuration is written as a TOML document with one key for each field; every key may be left
out.  `Config.parse` reads and checks such a document, `Config.render` writes one.

Specification: B.4.
-/

namespace Rollout.Config

open Toml (Node)

/-! ### Writing -/

/-- The names of a set as an array, one name on a line if there are several. -/
def writeNames (names : List String) : List Char :=
  match names with
  | [] => ['[', ']']
  | [name] => '[' :: (Toml.writeString name.toList ++ [']'])
  | names =>
    '[' :: '\n' ::
      (names.flatMap (fun name => "    ".toList ++ Toml.writeString name.toList ++ [',', '\n']) ++
        [']'])

def writeLine (key : String) (value : List Char) : List Char :=
  key.toList ++ " = ".toList ++ value ++ ['\n']

def render (c : Config) : String :=
  String.ofList (
    (c.stateDirectory.elim [] fun path => writeLine "state_dir" (Toml.writeString path.toList)) ++
    writeLine "supported_capabilities" (writeNames c.capabilities.names) ++
    writeLine "prune_departed_groups" (if c.prunes then "true" else "false").toList ++
    writeLine "memberships" (writeNames c.groups.names))

/-! ### Reading -/

inductive Error where
  | malformed (text : String) (line : Nat)
  | mismatch (text : String) (line : Nat) (mismatch : Mismatch)
  | flawed (flaw : Flaw)
  deriving DecidableEq, Repr

/-- What is said of a text that is no TOML, in place of the words of a particular reader: these tell
what was expected at the place of the error. -/
def malformedMessage : String := "invalid TOML"

def Error.message : Error → String
  | malformed text line => Text.located "TOML" text line malformedMessage
  | mismatch text line m => Text.located "TOML" text line m.message
  | flawed flaw => flaw.message

abbrev Misplaced := Mismatch × Nat

def readPath (place : Nat) : Node → Except Misplaced String
  | .text s => .ok s
  | other => .error (.wrongType other.found "path string", place)

def readFlag (place : Nat) : Node → Except Misplaced Bool
  | .flag b => .ok b
  | other => .error (.wrongType other.found "a boolean", place)

def readName (item : Nat × Node) : Except Misplaced String :=
  match item.2 with
  | .text s => .ok s
  | other => .error (.wrongType other.found "a string", item.1)

def readNames (place : Nat) : Node → Except Misplaced NameSet
  | .array items => (items.mapM readName).map NameSet.ofList
  | .tables items => (items.mapM fun i => readName (i.1, .inline i.2)).map NameSet.ofList
  | other => .error (.wrongType other.found "a sequence", place)

def define (c : Config) (entry : Toml.Key × Nat × Node) : Except Misplaced Config := do
  let (key, place, node) := entry
  if key.name = "state_dir" then
    return { c with stateDirectory := some (← readPath place node) }
  else if key.name = "supported_capabilities" then
    return { c with capabilities := ← readNames place node }
  else if key.name = "prune_departed_groups" then
    return { c with prunes := ← readFlag place node }
  else if key.name = "memberships" then
    return { c with groups := ← readNames place node }
  else .error (.unknownField key.name layout.allNames, key.place)

def parse (text : String) : Except Error Config := do
  let chars := text.toList
  let entries ← (Toml.parse chars).mapError fun stop =>
    .malformed text (Toml.lineAt chars stop.left)
  let c ← (entries.foldlM define standard).mapError fun e =>
    .mismatch text (Toml.lineAt chars e.2) e.1
  match c.flaw? with
  | some flaw => .error (.flawed flaw)
  | none => return c

/-! ### Files -/

inductive LoadError where
  | unreadable (path : String) (error : Storage.TextError)
  | malformed (path : String) (error : Error)
  deriving DecidableEq, Repr

/-- The messages of an error, from the general to the particular. -/
def LoadError.chain : LoadError → List String
  | unreadable path error => ["Failed to read config file: " ++ path, error.message]
  | malformed path error => ["Failed to parse config file: " ++ path, error.message]

variable {m : Type → Type} [Monad m]

def loadFile (files : Storage.Files m) (path : String) : m (Except LoadError Config) := do
  match ← Storage.readText files path with
  | .error e => return .error (.unreadable path e)
  | .ok text => return (parse text).mapError (.malformed path)

/-- Loads the configuration of a file; without the file nothing is configured. -/
def load (files : Storage.Files m) (path : String) : m (Except LoadError Config) := do
  if ← files.isThere path then loadFile files path else return .ok standard

end Rollout.Config
