import Rollout.Names.Map
import Rollout.Storage.Files

/-!
# A model of a disk

A `Disk` is a tree of directories and files with a working directory; `Disk.files` gives the file
operations on it.  The tree is kept as a table from full paths to what stands there; the root is a
directory and has no entry.
-/

namespace Rollout.Storage

inductive Node where
  | file (content : List UInt8)
  | directory
  deriving DecidableEq, Repr

structure Disk where
  /-- What stands at each full path. -/
  nodes : NameMap Node
  current : List String
  deriving DecidableEq, Repr

namespace FileError

def notFound : FileError := ⟨"No such file or directory", 2⟩
def alreadyThere : FileError := ⟨"File exists", 17⟩
def notDirectory : FileError := ⟨"Not a directory", 20⟩
def isDirectory : FileError := ⟨"Is a directory", 21⟩

end FileError

namespace Disk

def full (parts : List String) : String := String.join (parts.map ("/" ++ ·))

def node? (disk : Disk) (parts : List String) : Option Node :=
  if parts.isEmpty then some .directory else disk.nodes.find? (full parts)

/-- Walks down from a directory along the parts of a path; everything before the last part must be
a directory. -/
def walk (disk : Disk) (here : List String) : List String → Except FileError (List String)
  | [] => .ok here
  | part :: rest =>
    match disk.node? here with
    | none => .error .notFound
    | some (.file _) => .error .notDirectory
    | some .directory =>
      if part = "" ∨ part = "." then walk disk here rest
      else if part = ".." then walk disk here.dropLast rest
      else walk disk (here ++ [part]) rest

def partsOf (path : String) : List String := (path.toList.splitOn '/').map String.ofList

def locate (disk : Disk) (path : String) : Except FileError (List String) :=
  if path.isEmpty then .error .notFound
  else disk.walk (if path.toList.head? = some '/' then [] else disk.current) (partsOf path)

def isThere (disk : Disk) (path : String) : Bool :=
  match disk.locate path with
  | .ok parts => (disk.node? parts).isSome
  | .error _ => false

def read (disk : Disk) (path : String) : Except FileError (List UInt8) := do
  match disk.node? (← disk.locate path) with
  | none => .error .notFound
  | some .directory => .error .isDirectory
  | some (.file content) => .ok content

def put (disk : Disk) (parts : List String) (node : Node) : Disk :=
  { disk with nodes := disk.nodes.insert (full parts) node }

def remove (disk : Disk) (parts : List String) : Disk :=
  { disk with nodes := disk.nodes.filter fun path _ => path ≠ full parts }

def write (disk : Disk) (path : String) (content : List UInt8) : Except FileError Disk := do
  let parts ← disk.locate path
  match disk.node? parts, disk.node? parts.dropLast with
  | some .directory, _ => .error .isDirectory
  | _, none => .error .notFound
  | _, some (.file _) => .error .notDirectory
  | _, some .directory => .ok (disk.put parts (.file content))

/-- Makes the directories along the parts of a path below a directory. -/
def makeAlong (disk : Disk) (here : List String) : List String → Except FileError Disk
  | [] => .ok disk
  | part :: rest =>
    if part = "" ∨ part = "." then disk.makeAlong here rest
    else if part = ".." then disk.makeAlong here.dropLast rest
    else
      match disk.node? (here ++ [part]) with
      | some .directory => disk.makeAlong (here ++ [part]) rest
      | some (.file _) => .error (if rest.isEmpty then .alreadyThere else .notDirectory)
      | none => (disk.put (here ++ [part]) .directory).makeAlong (here ++ [part]) rest

def makeDirectory (disk : Disk) (path : String) : Except FileError Disk :=
  disk.makeAlong (if path.toList.head? = some '/' then [] else disk.current) (partsOf path)

def rename (disk : Disk) (source target : String) : Except FileError Disk := do
  let sourceParts ← disk.locate source
  let targetParts ← disk.locate target
  match disk.node? sourceParts, disk.node? targetParts, disk.node? targetParts.dropLast with
  | none, _, _ => .error .notFound
  | some .directory, _, _ => .error .isDirectory
  | some (.file _), some .directory, _ => .error .isDirectory
  | some (.file _), _, none => .error .notFound
  | some (.file _), _, some (.file _) => .error .notDirectory
  | some (.file content), _, some .directory =>
    .ok ((disk.remove sourceParts).put targetParts (.file content))

/-- An operation that changes the disk, as an action; if it fails, the disk stays as it is. -/
def act (operation : Disk → Except FileError Disk) : StateM Disk (Except FileError Unit) :=
  fun disk =>
    match operation disk with
    | .ok next => (.ok (), next)
    | .error e => (.error e, disk)

def files : Files (StateM Disk) where
  isThere path := fun disk => (disk.isThere path, disk)
  read path := fun disk => (disk.read path, disk)
  makeDirectory path := act fun disk => disk.makeDirectory path
  write path content := act fun disk => disk.write path content
  rename source target := act fun disk => disk.rename source target

end Disk
end Rollout.Storage
