import Rollout.Shape.Mismatch
import Rollout.Text.Utf8

/-!
# Reading positions in JSON text

A `Cursor` is the part of a text that is still to be read, with the line and the byte column reached
so far.  An error is placed either after the bytes read (`Cursor.fail`) or one byte further, at the
byte that stood in the way (`Cursor.failNext`); a line feed starts a new line at column zero.
-/

namespace Rollout.Json

open Text (Symbol)

/-! ### Errors -/

inductive Fault where
  | endInList
  | endInObject
  | endInString
  | endInValue
  | expectedColon
  | expectedListEnd
  | expectedObjectEnd
  | expectedIdent
  | expectedValue
  | invalidEscape
  | invalidNumber
  | numberOutOfRange
  | invalidCodePoint
  | controlCharacter
  | keyNotString
  | loneSurrogate
  | trailingComma
  | trailingCharacters
  | unfinishedPair
  | tooDeep
  deriving DecidableEq, Repr

def Fault.message : Fault → String
  | endInList => "EOF while parsing a list"
  | endInObject => "EOF while parsing an object"
  | endInString => "EOF while parsing a string"
  | endInValue => "EOF while parsing a value"
  | expectedColon => "expected " ++ Text.cited ":"
  | expectedListEnd => "expected " ++ Text.cited "," ++ " or " ++ Text.cited "]"
  | expectedObjectEnd => "expected " ++ Text.cited "," ++ " or " ++ Text.cited "\x7d"
  | expectedIdent => "expected ident"
  | expectedValue => "expected value"
  | invalidEscape => "invalid escape"
  | invalidNumber => "invalid number"
  | numberOutOfRange => "number out of range"
  | invalidCodePoint => "invalid unicode code point"
  | controlCharacter => "control character (\\u0000-\\u001F) found while parsing a string"
  | keyNotString => "key must be a string"
  | loneSurrogate => "lone leading surrogate in hex escape"
  | trailingComma => "trailing comma"
  | trailingCharacters => "trailing characters"
  | unfinishedPair => "unexpected end of hex escape"
  | tooDeep => "recursion limit exceeded"

/-- Why reading failed: the text is no JSON, or its value has another shape than asked for. -/
inductive Cause where
  | malformed (fault : Fault)
  | mismatch (mismatch : Mismatch)
  deriving DecidableEq, Repr

def Cause.message : Cause → String
  | malformed fault => fault.message
  | mismatch m => m.message

structure Error where
  cause : Cause
  /-- The line, counted from one. -/
  line : Nat
  /-- The number of bytes of the line before the place. -/
  column : Nat
  deriving DecidableEq, Repr

def Error.message (e : Error) : String :=
  e.cause.message ++ " at line " ++ toString e.line ++ " column " ++ toString e.column

/-! ### Cursors -/

structure Cursor where
  rest : List Symbol
  line : Nat
  column : Nat
  deriving DecidableEq, Repr

abbrev Outcome (α : Type) := Except Error (α × Cursor)

namespace Cursor

def start (text : List Symbol) : Cursor := ⟨text, 1, 0⟩

def nextChar? (c : Cursor) : Option Char := c.rest.head?.join

def after (s : Symbol) (rest : List Symbol) (line column : Nat) : Cursor :=
  if s = some '\n' then ⟨rest, line + 1, 0⟩ else ⟨rest, line, column + Text.width s⟩

def advance (c : Cursor) : Cursor :=
  match c.rest with
  | [] => c
  | s :: rest => after s rest c.line c.column

def isSpace (s : Symbol) : Bool :=
  s = some ' ' || s = some '\n' || s = some '\t' || s = some '\r'

def skipFrom (line column : Nat) : List Symbol → Cursor
  | [] => ⟨[], line, column⟩
  | s :: rest =>
    if s = some '\n' then skipFrom (line + 1) 0 rest
    else if isSpace s then skipFrom line (column + 1) rest
    else ⟨s :: rest, line, column⟩

def skipSpace (c : Cursor) : Cursor := skipFrom c.line c.column c.rest

def errorHere (c : Cursor) (cause : Cause) : Error := ⟨cause, c.line, c.column⟩

def errorNext (c : Cursor) (cause : Cause) : Error :=
  match c.rest with
  | [] => ⟨cause, c.line, c.column⟩
  | s :: _ => if s = some '\n' then ⟨cause, c.line + 1, 0⟩ else ⟨cause, c.line, c.column + 1⟩

def fail {α : Type} (c : Cursor) (fault : Fault) : Except Error α :=
  .error (c.errorHere (.malformed fault))

def failNext {α : Type} (c : Cursor) (fault : Fault) : Except Error α :=
  .error (c.errorNext (.malformed fault))

def mismatch {α : Type} (c : Cursor) (m : Mismatch) : Except Error α :=
  .error (c.errorHere (.mismatch m))

end Cursor
end Rollout.Json
