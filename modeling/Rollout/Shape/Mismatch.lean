import Rollout.Calendar.Rfc3339
import Rollout.Text.Quoted

/-!
# Values that do not have the expected shape

The ways in which a well-formed value can fail to be what a reader asked for, with their messages.
-/

namespace Rollout

inductive Found where
  | flag (value : Bool)
  | integer (value : Int)
  | decimal (digits : String)
  | text (value : String)
  | null
  | sequence
  | table
  deriving DecidableEq, Repr

def Found.describe : Found → String
  | flag value => "boolean " ++ Text.cited (toString value)
  | integer value => "integer " ++ Text.cited (toString value)
  | decimal digits => "floating point " ++ Text.cited digits
  | text value => "string " ++ Text.quoted value
  | null => "null"
  | sequence => "sequence"
  | table => "map"

inductive Mismatch where
  | wrongType (found : Found) (expected : String)
  | wrongValue (found : Found) (expected : String)
  | wrongLength (count : Nat) (expected : String)
  | unknownField (name : String) (known : List String)
  | unknownChoice (name : String) (known : List String)
  | missingField (name : String)
  | repeatedField (name : String)
  | badTime (error : Calendar.TimeError)
  deriving DecidableEq, Repr

def oneOf : List String → String
  | [] => "there are no choices"
  | [a] => "expected " ++ Text.cited a
  | [a, b] => "expected " ++ Text.cited a ++ " or " ++ Text.cited b
  | names => "expected one of " ++ ", ".intercalate (names.map Text.cited)

def Mismatch.message : Mismatch → String
  | wrongType found expected => "invalid type: " ++ found.describe ++ ", expected " ++ expected
  | wrongValue found expected => "invalid value: " ++ found.describe ++ ", expected " ++ expected
  | wrongLength count expected => "invalid length " ++ toString count ++ ", expected " ++ expected
  | unknownField name known => "unknown field " ++ Text.cited name ++ ", " ++ oneOf known
  | unknownChoice name known => "unknown variant " ++ Text.cited name ++ ", " ++ oneOf known
  | missingField name => "missing field " ++ Text.cited name
  | repeatedField name => "duplicate field " ++ Text.cited name
  | badTime error => error.message

end Rollout
