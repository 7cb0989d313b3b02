/-!
# Scanning TOML text

A reader of TOML text takes the characters that are left and delivers what it read with the
characters after it; where it cannot go on, it reports how many characters were left (`Stop`).
Places are counted from the end of the text in the same way, and `lineAt` turns them into lines.
-/

namespace Rollout.Toml

structure Stop where
  /-- The number of characters that were left. -/
  left : Nat
  deriving DecidableEq, Repr

def stopAt {α : Type} (rest : List Char) : Except Stop α := .error ⟨rest.length⟩

def lineAt (text : List Char) (left : Nat) : Nat :=
  (text.take (text.length - left)).count '\n' + 1

/-! ### Characters -/

def isBlankChar (c : Char) : Bool := c = ' ' || c = '\t'

/-- Characters that may stand in a comment: all but control characters other than the tab. -/
def isTextChar (c : Char) : Bool := c = '\t' || (0x20 ≤ c.toNat && c.toNat ≠ 0x7f)

def isBasicChar (c : Char) : Bool := isTextChar c && c ≠ '"' && c ≠ '\\'

def isLiteralChar (c : Char) : Bool := isTextChar c && c ≠ '\''

def isBareChar (c : Char) : Bool := c.isAlphanum || c = '_' || c = '-'

/-! ### White space -/

def passNewline? : List Char → Option (List Char)
  | c :: rest =>
    if c = '\n' then some rest
    else if c = '\r' && rest.head? = some '\n' then some rest.tail
    else none
  | [] => none

def passBlanks (text : List Char) : List Char := text.dropWhile isBlankChar

def passComment (text : List Char) : List Char :=
  if text.head? = some '#' then text.tail.dropWhile isTextChar else text

/-- Passes blanks, tabs and line ends; the first argument bounds the number of steps. -/
def passSpaceFrom : Nat → List Char → List Char
  | 0, text => text
  | n + 1, text =>
    match passNewline? (passBlanks text) with
    | some rest => passSpaceFrom n rest
    | none => passBlanks text

def passSpace (text : List Char) : List Char := passSpaceFrom text.length text

/-- Passes blanks, tabs, line ends and comments; the first argument bounds the number of steps. -/
def passGapFrom : Nat → List Char → List Char
  | 0, text => text
  | n + 1, text =>
    let text := passComment (passBlanks text)
    match passNewline? text with
    | some rest => passGapFrom n rest
    | none => text

def passGap (text : List Char) : List Char := passGapFrom (text.length + 1) text

/-- Passes the end of a line with what may stand before it: blanks, tabs and a comment. -/
def endLine (text : List Char) : Except Stop (List Char) :=
  let text := passComment (passBlanks text)
  match passNewline? text with
  | some rest => .ok rest
  | none => if text.isEmpty then .ok [] else stopAt text

end Rollout.Toml
