import Rollout.Text.Plain

/-!
# Quoted texts in messages

A text or character shown inside a message stands in quotes, with a backslash form for every
character that would not show as itself.
-/

namespace Rollout.Text

def hexDigits (n : Nat) : String := String.ofList (Nat.toDigits 16 n)

/-- A character between quotes of one kind: the quote itself, the backslash and all characters that
do not show as themselves have a backslash form. -/
def escapeIn (quote : Char) (c : Char) : String :=
  if c = quote then "\\" ++ c.toString
  else if c = '\x00' then "\\0"
  else if c = '\t' then "\\t"
  else if c = '\n' then "\\n"
  else if c = '\r' then "\\r"
  else if c = '\\' then "\\\\"
  else if isPlain c then c.toString
  else "\\u\x7b" ++ hexDigits c.toNat ++ "\x7d"

def quoted (text : String) : String :=
  "\"" ++ String.join (text.toList.map (escapeIn '"')) ++ "\""

def quotedChar (c : Char) : String := "'" ++ escapeIn '\'' c ++ "'"

def cited (name : String) : String := "\x60" ++ name ++ "\x60"

end Rollout.Text
