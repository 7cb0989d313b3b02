import Rollout.Toml.Scan

/-!
# Strings of TOML text

A string has four notations: between double quotes with escapes or between single quotes without,
each on one line or, with tripled quotes, on several.  `writeString` chooses the plainest notation
in which the string needs no escape, and `readString` reads all four.
-/

namespace Rollout.Toml

inductive Notation where
  | basic
  | literal
  | multiBasic
  | multiLiteral
  deriving DecidableEq, Repr

/-! ### Writing -/

def longestRun (mark : Char) (text : List Char) : Nat :=
  (text.foldl (fun (longest, run) c =>
    let run := if c = mark then run + 1 else 0
    (max longest run, run)) (0, 0)).1

/-- Whether a character can only be written by its code or a letter for it. -/
def isControl (c : Char) : Bool :=
  (c.toNat < 0x20 && c ≠ '\t' && c ≠ '\n') || c.toNat = 0x7f

/-- The notation in which a string is written: the first that needs no escape, and otherwise double
quotes. -/
def chooseNotation (text : List Char) : Notation :=
  let coded := text.any isControl
  let backslash := text.contains '\\'
  let newline := text.contains '\n'
  let double := longestRun '"' text
  let single := longestRun '\'' text
  if !coded && !backslash && double = 0 && !newline then .basic
  else if !coded && single = 0 && !newline then .literal
  else if !coded && !backslash && double ≤ 2 then .multiBasic
  else if !coded && single ≤ 2 then .multiLiteral
  else if newline then .multiBasic
  else .basic

/-- A hexadecimal digit of a number below sixteen, as a capital. -/
def capitalDigit (n : Nat) : Char := (Nat.digitChar n).toUpper

/-- A character between double quotes, apart from the double quote and the line feed. -/
def escapeChar (c : Char) : List Char :=
  if c = '\\' then ['\\', '\\']
  else if c = '\x08' then ['\\', 'b']
  else if c = '\t' then ['\\', 't']
  else if c = '\x0c' then ['\\', 'f']
  else if c = '\r' then ['\\', 'r']
  else if isControl c then
    ['\\', 'u', '0', '0', capitalDigit (c.toNat / 16), capitalDigit (c.toNat % 16)]
  else [c]

def writeBasic : List Char → List Char
  | [] => []
  | c :: rest =>
    if c = '"' then '\\' :: '"' :: writeBasic rest
    else if c = '\n' then '\\' :: 'n' :: writeBasic rest
    else escapeChar c ++ writeBasic rest

/-- The characters of a string between tripled double quotes, after a run of unescaped double quotes
of the given length: every third one gets an escape. -/
def writeMulti : Nat → List Char → List Char
  | _, [] => []
  | run, c :: rest =>
    if c = '"' then
      if run < 2 then '"' :: writeMulti (run + 1) rest else '\\' :: '"' :: writeMulti 0 rest
    else if c = '\n' then '\n' :: writeMulti 0 rest
    else escapeChar c ++ writeMulti 0 rest

/-- A line end after tripled quotes, which is no part of the string; it stands before a string with
line ends. -/
def leadingNewline (text : List Char) : List Char := if text.contains '\n' then ['\n'] else []

def writeIn (text : List Char) : Notation → List Char
  | .basic => '"' :: (writeBasic text ++ ['"'])
  | .literal => '\'' :: (text ++ ['\''])
  | .multiBasic => ['"', '"', '"'] ++ leadingNewline text ++ writeMulti 0 text ++ ['"', '"', '"']
  | .multiLiteral => ['\'', '\'', '\''] ++ leadingNewline text ++ text ++ ['\'', '\'', '\'']

def writeString (text : List Char) : List Char := writeIn text (chooseNotation text)

/-! ### Reading -/

def hexValue? (c : Char) : Option Nat :=
  if c.isDigit then some (c.toNat - '0'.toNat)
  else if 'a' ≤ c ∧ c ≤ 'f' then some (c.toNat - 'a'.toNat + 10)
  else if 'A' ≤ c ∧ c ≤ 'F' then some (c.toNat - 'A'.toNat + 10)
  else none

/-- Reads the code of a character, of a number of hexadecimal digits. -/
def readCode (digits : Nat) (text : List Char) : Except Stop (Char × List Char) :=
  match (text.take digits).mapM hexValue? with
  | some values =>
    let code := values.foldl (fun n d => n * 16 + d) 0
    if values.length = digits ∧ code.isValidChar then .ok (Char.ofNat code, text.drop digits)
    else stopAt text
  | none => stopAt text

def letterEscape? (c : Char) : Option Char :=
  if c = '"' then some '"'
  else if c = '\\' then some '\\'
  else if c = 'b' then some '\x08'
  else if c = 'f' then some '\x0c'
  else if c = 'n' then some '\n'
  else if c = 'r' then some '\r'
  else if c = 't' then some '\t'
  else none

def readEscape : List Char → Except Stop (Char × List Char)
  | [] => stopAt []
  | c :: rest =>
    if c = 'u' then readCode 4 rest
    else if c = 'U' then readCode 8 rest
    else
      match letterEscape? c with
      | some x => .ok (x, rest)
      | none => stopAt rest

/-- What follows a backslash at the end of a line, up to the next character of the string. -/
def passContinuation? (text : List Char) : Option (List Char) :=
  (passNewline? (passBlanks text)).map passSpace

/-- Reads a string between double quotes, after the first; the first argument bounds its length. -/
def readBasicFrom : Nat → List Char → Except Stop (List Char × List Char)
  | 0, text => stopAt text
  | _, [] => stopAt []
  | n + 1, c :: rest =>
    if c = '"' then .ok ([], rest)
    else if c = '\\' then do
      let (x, rest) ← readEscape rest
      let (xs, rest) ← readBasicFrom n rest
      return (x :: xs, rest)
    else if isBasicChar c then do
      let (xs, rest) ← readBasicFrom n rest
      return (c :: xs, rest)
    else stopAt (c :: rest)

def readLiteral (text : List Char) : Except Stop (List Char × List Char) :=
  let rest := text.dropWhile isLiteralChar
  if rest.head? = some '\'' then .ok (text.takeWhile isLiteralChar, rest.tail) else stopAt rest

def atTripled (mark : Char) (text : List Char) : Bool := text.take 3 = [mark, mark, mark]

/-- Ends a string at tripled marks; up to two more marks at its end belong to it. -/
def endTripled (mark : Char) (text : List Char) : List Char × List Char :=
  let extra := min 2 (((text.drop 3).takeWhile (· = mark)).length)
  (List.replicate extra mark, text.drop (extra + 3))

/-- Reads a string between tripled double quotes, after the first three; the first argument bounds
its length. -/
def readMultiFrom : Nat → List Char → Except Stop (List Char × List Char)
  | 0, text => stopAt text
  | _, [] => stopAt []
  | n + 1, c :: rest =>
    if atTripled '"' (c :: rest) then .ok (endTripled '"' (c :: rest))
    else if c = '\\' then
      match passContinuation? rest with
      | some rest => readMultiFrom n rest
      | none => do
        let (x, rest) ← readEscape rest
        let (xs, rest) ← readMultiFrom n rest
        return (x :: xs, rest)
    else if c = '"' || isBasicChar c then do
      let (xs, rest) ← readMultiFrom n rest
      return (c :: xs, rest)
    else
      match passNewline? (c :: rest) with
      | some rest => do
        let (xs, rest) ← readMultiFrom n rest
        return ('\n' :: xs, rest)
      | none => stopAt (c :: rest)

/-- Reads a string between tripled single quotes, after the first three; the first argument bounds
its length. -/
def readMultiLiteralFrom : Nat → List Char → Except Stop (List Char × List Char)
  | 0, text => stopAt text
  | _, [] => stopAt []
  | n + 1, c :: rest =>
    if atTripled '\'' (c :: rest) then .ok (endTripled '\'' (c :: rest))
    else if isTextChar c then do
      let (xs, rest) ← readMultiLiteralFrom n rest
      return (c :: xs, rest)
    else
      match passNewline? (c :: rest) with
      | some rest => do
        let (xs, rest) ← readMultiLiteralFrom n rest
        return ('\n' :: xs, rest)
      | none => stopAt (c :: rest)

def passLeadingNewline (text : List Char) : List Char := (passNewline? text).getD text

def readShortString (text : List Char) : Except Stop (List Char × List Char) :=
  if text.head? = some '"' then readBasicFrom text.length text.tail
  else if text.head? = some '\'' then readLiteral text.tail
  else stopAt text

def readString (text : List Char) : Except Stop (List Char × List Char) :=
  if atTripled '"' text then readMultiFrom text.length (passLeadingNewline (text.drop 3))
  else if atTripled '\'' text then
    readMultiLiteralFrom text.length (passLeadingNewline (text.drop 3))
  else readShortString text

end Rollout.Toml
