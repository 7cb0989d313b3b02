import Rollout.Toml.Node
import Rollout.Toml.Number
import Rollout.Toml.Quoted

/-!
# Reading TOML documents

`Toml.parse` reads a document line by line into its top table.  Arrays and inline tables may be
nested 79 deep.
-/

namespace Rollout.Toml

/-- The number of arrays and inline tables that may be open, and of the parts of a key. -/
def depthLimit : Nat := 79

/-! ### Keys -/

def readPart (text : List Char) : Except Stop (Key × List Char) :=
  let key (name : List Char) : Key := ⟨String.ofList name, text.length⟩
  if text.head? = some '"' || text.head? = some '\'' then
    (readShortString text).map fun r => (key r.1, r.2)
  else
    let name := text.takeWhile isBareChar
    if name.isEmpty then stopAt text else .ok (key name, text.dropWhile isBareChar)

/-- Reads the parts of a key between its points; the first argument bounds their number. -/
def readParts : Nat → List Char → Except Stop (List Key × List Char)
  | 0, text => stopAt text
  | n + 1, text => do
    let (part, rest) ← readPart (passBlanks text)
    let rest := passBlanks rest
    if rest.head? = some '.' then
      let (parts, rest) ← readParts n rest.tail
      return (part :: parts, rest)
    else return ([part], rest)

/-- Reads a key: the parts before its last point, and the last part. -/
def readKey (text : List Char) : Except Stop ((List Key × Key) × List Char) := do
  let (parts, rest) ← readParts depthLimit text
  match parts.getLast? with
  | some last => return ((parts.dropLast, last), rest)
  | none => stopAt text

/-! ### Values -/

def passWord (word text : List Char) : Except Stop (List Char) :=
  if text.take word.length = word then .ok (text.drop word.length) else stopAt text

def readNumeric (text : List Char) : Except Stop (Node × List Char) := do
  match ← tryDate text with
  | some (_, rest) => return (.time, rest)
  | none =>
    match ← tryTime text with
    | some (_, rest) => return (.time, rest)
    | none =>
      match ← tryDecimal text with
      | some (x, rest) => return (.decimal x, rest)
      | none =>
        match trySpecial text with
        | some (x, rest) => return (.decimal x, rest)
        | none =>
          let (n, rest) ← readInteger text
          return (.integer n, rest)

/-- Reads the items of an array up to its end; the first argument bounds their number. -/
def readItems (value : List Char → Except Stop (Node × List Char)) :
    Nat → List Char → Except Stop (List (Nat × Node) × List Char)
  | 0, text => stopAt text
  | n + 1, text => do
    let text := passGap text
    if text.head? = some ']' then return ([], text.tail)
    else
      let (item, rest) ← value text
      let rest := passGap rest
      if rest.head? = some ',' then
        let (items, rest) ← readItems value n rest.tail
        return ((text.length, item) :: items, rest)
      else if rest.head? = some ']' then return ([(text.length, item)], rest.tail)
      else stopAt rest

/-- Reads the entries of an inline table up to its end; the first argument bounds their number. -/
def readEntries (value : List Char → Except Stop (Node × List Char)) :
    Nat → List Char → Except Stop (List (List Key × Key × Nat × Node) × List Char)
  | 0, text => stopAt text
  | n + 1, text => do
    let ((above, key), rest) ← readKey text
    let rest ← passChar '=' rest
    let start := passBlanks rest
    let (item, rest) ← value start
    let rest := passBlanks rest
    if rest.head? = some ',' then
      let (entries, rest) ← readEntries value n rest.tail
      return ((above, key, start.length, item) :: entries, rest)
    else if rest.head? = some '\x7d' then return ([(above, key, start.length, item)], rest.tail)
    else stopAt rest

def readInline (value : List Char → Except Stop (Node × List Char)) (text : List Char) :
    Except Stop (Node × List Char) := do
  if (passBlanks text).head? = some '\x7d' then return (.inline [], (passBlanks text).tail)
  else
    let (found, rest) ← readEntries value (text.length + 1) text
    let defined : Option Entries := found.foldlM
      (fun entries (above, key, place, node) => define above key place node .header entries) []
    match defined with
    | some entries => return (.inline entries, rest)
    | none => stopAt text

/-- Reads a value in which containers of a limited depth may be open. -/
def readValue : Nat → List Char → Except Stop (Node × List Char)
  | depth, text =>
    match text with
    | [] => stopAt []
    | c :: rest =>
      if c = '"' || c = '\'' then (readString text).map fun r => (.text (String.ofList r.1), r.2)
      else if c = '[' then
        match depth with
        | 0 => stopAt text
        | depth + 1 =>
          (readItems (readValue depth) (rest.length + 1) rest).map fun r => (.array r.1, r.2)
      else if c = '\x7b' then
        match depth with
        | 0 => stopAt text
        | depth + 1 => readInline (readValue depth) rest
      else if c.isDigit || c = '+' || c = '-' then readNumeric text
      else if c = 't' then (passWord "true".toList text).map (.flag true, ·)
      else if c = 'f' then (passWord "false".toList text).map (.flag false, ·)
      else
        match trySpecial text with
        | some (x, rest) => .ok (.decimal x, rest)
        | none => stopAt text

/-! ### Documents -/

structure Draft where
  root : Entries
  path : List Key

def orConflict {α : Type} (start : List Char) : Option α → Except Stop α
  | some a => .ok a
  | none => stopAt start

def readDefinition (draft : Draft) (text : List Char) : Except Stop (Draft × List Char) := do
  let ((above, key), rest) ← readKey text
  let start := passBlanks (← passChar '=' rest)
  let (node, rest) ← readValue depthLimit start
  let rest ← endLine rest
  let root ← orConflict text
    (descend false (define above key start.length node) draft.path .header draft.root)
  return ({ draft with root := root }, rest)

def readHeader (draft : Draft) (text : List Char) : Except Stop (Draft × List Char) := do
  let doubled := text.take 2 = ['[', '[']
  let ((above, key), rest) ← readKey (text.drop (if doubled then 2 else 1))
  let rest ← passWord (if doubled then [']', ']'] else [']']) rest
  let rest ← endLine rest
  let opened := if doubled then openItem above key text.length draft.root
    else openTable above key text.length draft.root
  let root ← orConflict text opened
  return (⟨root, above ++ [key]⟩, rest)

/-- Reads the lines of a document; the first argument bounds their number. -/
def readLines : Nat → Draft → List Char → Except Stop Entries
  | 0, _, text => stopAt text
  | n + 1, draft, text => do
    let text := passBlanks text
    match text with
    | [] => return draft.root
    | c :: _ =>
      if c = '[' then
        let (draft, rest) ← readHeader draft text
        readLines n draft rest
      else if c = '#' || c = '\n' || c = '\r' then
        readLines n draft (← endLine text)
      else
        let (draft, rest) ← readDefinition draft text
        readLines n draft rest

def parse (text : List Char) : Except Stop Entries :=
  let text := if text.head? = some '\ufeff' then text.tail else text
  readLines (text.length + 1) ⟨[], []⟩ text

end Rollout.Toml
