/-!
# File operations

`Files m` is the handful of file operations that the program needs, as actions of a monad `m`: they
may act on real files or on a model of them.  An operation that fails says so in its result.
-/

namespace Rollout.Storage

/-- Why a file operation failed, in the words and with the number of the operating system. -/
structure FileError where
  text : String
  number : Nat
  deriving DecidableEq, Repr

def FileError.message (e : FileError) : String :=
  e.text ++ " (os error " ++ toString e.number ++ ")"

structure Files (m : Type → Type) where
  isThere : (path : String) → m Bool
  read : (path : String) → m (Except FileError (List UInt8))
  /-- Makes a directory and those above it, as far as they are not there. -/
  makeDirectory : (path : String) → m (Except FileError Unit)
  write : (path : String) → (content : List UInt8) → m (Except FileError Unit)
  /-- Gives a file another path, in place of a file that may be there. -/
  rename : (source target : String) → m (Except FileError Unit)

end Rollout.Storage
