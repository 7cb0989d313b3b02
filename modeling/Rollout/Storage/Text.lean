import Rollout.Storage.Files
import Rollout.Text.Utf8

/-!
# Text files

Files that are read as text have to be valid UTF-8.
-/

namespace Rollout.Storage

inductive TextError where
  | unreadable (error : FileError)
  | notText
  deriving DecidableEq, Repr

def TextError.message : TextError → String
  | unreadable error => error.message
  | notText => "stream did not contain valid UTF-8"

def readText {m : Type → Type} [Monad m] (files : Files m) (path : String) :
    m (Except TextError String) := do
  match ← files.read path with
  | .error e => return .error (.unreadable e)
  | .ok content =>
    match Text.decode? content with
    | some text => return .ok text
    | none => return .error .notText

end Rollout.Storage
