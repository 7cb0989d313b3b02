import Rollout.Storage.Files
import Rollout.Storage.Path
import Rollout.Winner

/-!
# Snapshots

A `Snapshot` is what a store keeps on disk.  It is written as indented JSON to a temporary file that
then takes the place of the snapshot file, so that the file always holds one whole snapshot; it is
checked when it is loaded.

Specification: B.5.
-/

namespace Rollout

structure Snapshot where
  version : UInt32
  nextSequence : UInt64
  winners : NameMap Winner
  deriving DecidableEq, Repr

instance : Shaped Snapshot where
  shape := .record "StoreSnapshot" false <|
    .field "version" [] .required .uint32 <|
    .field "next_sequence" [] .omittable .uint64 <|
    .field "scopes" [] .omittable (Shaped.shape (NameMap Winner))
    .nil
  toCarrier s := (s.version, some s.nextSequence, some (Shaped.toCarrier s.winners), ())
  ofCarrier
    | (version, nextSequence, winners, ()) =>
      ⟨version, nextSequence.getD 0, (winners.map Shaped.ofCarrier).getD .empty⟩
  ofCarrier_toCarrier s := by
    simp only [Option.map_some, Option.getD_some, Shaped.ofCarrier_toCarrier]

namespace Snapshot

/-! ### Checking -/

def currentVersion : UInt32 := 1

inductive Flaw where
  | unsupported (version : UInt32)
  | foreignWinner (key : String) (scope : Scope)
  | beyondNext (key : String) (sequence next : UInt64)
  deriving DecidableEq, Repr

def Flaw.message : Flaw → String
  | unsupported version =>
    "Unsupported snapshot version " ++ toString version.toNat ++ " (expected " ++
      toString currentVersion.toNat ++ ")"
  | foreignWinner key scope =>
    "Snapshot entry '" ++ key ++ "' holds winner for scope '" ++ scope.name ++ "'"
  | beyondNext key sequence next =>
    "Snapshot entry '" ++ key ++ "' has sequence " ++ toString sequence.toNat ++
      " beyond next sequence " ++ toString next.toNat

def entryFlaw? (next : UInt64) (key : String) (w : Winner) : Option Flaw :=
  if key ≠ w.scope.name then some (.foreignWinner key w.scope)
  else if next ≤ w.sequence then some (.beyondNext key w.sequence next)
  else none

def flaw? (s : Snapshot) : Option Flaw :=
  if s.version ≠ currentVersion then some (.unsupported s.version)
  else s.winners.entries.findSome? fun e => entryFlaw? s.nextSequence e.1 e.2

/-! ### Loading and saving -/

def fileName : String := "group_to_root_components.json"

/-- The path of the file that a snapshot is written to before it takes its place; the tag tells
the writers of one file apart. -/
def temporary (path tag : String) : String := Path.withExtension path ("json." ++ tag ++ ".tmp")

inductive LoadError where
  | unreadable (path : String) (error : Storage.FileError)
  | malformed (path : String) (error : Json.Error)
  | flawed (path : String) (flaw : Flaw)
  deriving DecidableEq, Repr

/-- The messages of an error, from the general to the particular. -/
def LoadError.chain : LoadError → List String
  | unreadable path error => ["Failed to read snapshot: " ++ path, error.message]
  | malformed path error => ["Failed to parse snapshot: " ++ path, error.message]
  | flawed path flaw => ["Invalid snapshot: " ++ path, flaw.message]

inductive SaveError where
  | directory (path : String) (error : Storage.FileError)
  | temporary (path : String) (error : Storage.FileError)
  | rename (path : String) (error : Storage.FileError)
  deriving DecidableEq, Repr

/-- The messages of an error, from the general to the particular. -/
def SaveError.chain : SaveError → List String
  | directory path error => ["Failed to create snapshot directory: " ++ path, error.message]
  | temporary path error => ["Failed to write tmp snapshot: " ++ path, error.message]
  | rename path error => ["Failed to rename tmp snapshot: " ++ path, error.message]

def ofBytes (path : String) (content : List UInt8) : Except LoadError Snapshot :=
  match (Shaped.parseSymbols (Text.decode content) : Except Json.Error Snapshot) with
  | .error e => .error (.malformed path e)
  | .ok s =>
    match s.flaw? with
    | some flaw => .error (.flawed path flaw)
    | none => .ok s

def toBytes (s : Snapshot) : List UInt8 := Text.encode (Shaped.toJson s).pretty

variable {m : Type → Type} [Monad m]

def load (files : Storage.Files m) (path : String) : m (Except LoadError (Option Snapshot)) := do
  if !(← files.isThere path) then return .ok none
  match ← files.read path with
  | .error e => return .error (.unreadable path e)
  | .ok content => return (ofBytes path content).map some

/-- Writes a snapshot to a temporary file and renames this over the file of the snapshot.  Where a
file cannot be renamed over another one, the old file would have to be removed before; such
platforms are left out. -/
def save (files : Storage.Files m) (path tag : String) (s : Snapshot) :
    m (Except SaveError Unit) := do
  match ← files.makeDirectory (Path.parent path) with
  | .error e => return .error (.directory (Path.parent path) e)
  | .ok () =>
    match ← files.write (temporary path tag) s.toBytes with
    | .error e => return .error (.temporary (temporary path tag) e)
    | .ok () =>
      match ← files.rename (temporary path tag) path with
      | .error e => return .error (.rename (temporary path tag) e)
      | .ok () => return .ok ()

end Snapshot
end Rollout
