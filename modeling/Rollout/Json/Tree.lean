import Rollout.Decimal.Shortest

/-!
# JSON values and their text

`Json` is a JSON value; the members of an object stand in the order in which they are written.
`Json.compact` writes it without any white space and `Json.pretty` with one item on a line, each
level two blanks further in.
-/

namespace Rollout

/-- A number: an integer, or a double for everything that is not written as an integer. -/
inductive Json.Number where
  | int (value : Int)
  | float (value : Float)
  deriving Repr

inductive Json where
  | null
  | bool (value : Bool)
  | number (value : Json.Number)
  | string (value : String)
  | array (items : List Json)
  | object (members : List (String × Json))
  deriving Repr

namespace Json

instance : Inhabited Json := ⟨null⟩

def int (value : Int) : Json := .number (.int value)

def member? (name : String) : Json → Option Json
  | object members => members.lookup name
  | _ => none

/-! ### Atoms -/

/-- Doubles are positional from 10⁻⁵ up to 10¹⁶; an exponent has at least two digits. -/
def floatStyle : Decimal.FloatStyle := ⟨some (-5), some 15, 2⟩

def Number.render : Number → String
  | .int value => toString value
  | .float value => Decimal.render floatStyle value

def hexDigit (n : Nat) : Char := Nat.digitChar n

/-- A character inside a string: quote, backslash and control characters are escaped. -/
def escapeChar (c : Char) : List Char :=
  if c = '"' then ['\\', '"']
  else if c = '\\' then ['\\', '\\']
  else if c = '\n' then ['\\', 'n']
  else if c = '\r' then ['\\', 'r']
  else if c = '\t' then ['\\', 't']
  else if c = '\x08' then ['\\', 'b']
  else if c = '\x0c' then ['\\', 'f']
  else if c.toNat < 0x20 then
    ['\\', 'u', '0', '0', hexDigit (c.toNat / 16), hexDigit (c.toNat % 16)]
  else [c]

def renderString (s : String) : List Char := '"' :: (s.toList.flatMap escapeChar ++ ['"'])

/-! ### Compact text -/

mutual

def write : Json → List Char
  | null => "null".toList
  | bool true => "true".toList
  | bool false => "false".toList
  | number n => n.render.toList
  | string s => renderString s
  | array items => '[' :: writeItems items
  | object members => '\x7b' :: writeMembers members

def writeItems : List Json → List Char
  | [] => [']']
  | item :: rest => write item ++ writeMoreItems rest

def writeMoreItems : List Json → List Char
  | [] => [']']
  | item :: rest => ',' :: (write item ++ writeMoreItems rest)

def writeMembers : List (String × Json) → List Char
  | [] => ['\x7d']
  | (name, value) :: rest => renderString name ++ ':' :: (write value ++ writeMoreMembers rest)

def writeMoreMembers : List (String × Json) → List Char
  | [] => ['\x7d']
  | (name, value) :: rest =>
    ',' :: (renderString name ++ ':' :: (write value ++ writeMoreMembers rest))

end

def compact (value : Json) : String := String.ofList value.write

/-! ### Indented text -/

def newLine (level : Nat) : List Char := '\n' :: List.replicate (2 * level) ' '

mutual

def writePretty (level : Nat) : Json → List Char
  | array [] => ['[', ']']
  | array (item :: rest) =>
    '[' :: (newLine (level + 1) ++ writePretty (level + 1) item ++ prettyMoreItems level rest)
  | object [] => ['\x7b', '\x7d']
  | object ((name, value) :: rest) =>
    '\x7b' :: (newLine (level + 1) ++ renderString name ++ ':' :: ' ' ::
      (writePretty (level + 1) value ++ prettyMoreMembers level rest))
  | null => "null".toList
  | bool true => "true".toList
  | bool false => "false".toList
  | number n => n.render.toList
  | string s => renderString s

def prettyMoreItems (level : Nat) : List Json → List Char
  | [] => newLine level ++ [']']
  | item :: rest =>
    ',' :: (newLine (level + 1) ++ writePretty (level + 1) item ++ prettyMoreItems level rest)

def prettyMoreMembers (level : Nat) : List (String × Json) → List Char
  | [] => newLine level ++ ['\x7d']
  | (name, value) :: rest =>
    ',' :: (newLine (level + 1) ++ renderString name ++ ':' :: ' ' ::
      (writePretty (level + 1) value ++ prettyMoreMembers level rest))

end

def pretty (value : Json) : String := String.ofList (value.writePretty 0)

end Json
end Rollout
