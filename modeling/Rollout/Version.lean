import Rollout.Text.Quoted

/-!
# Semantic versions

A version is three numbers below 2⁶⁴, an optional list of pre-release identifiers after a hyphen and
an optional list of build identifiers after a plus sign.  `Version.parse` reads one from left to
right and reports the first place where the text departs from that form.
-/

namespace Rollout

inductive Version.Part where
  | major
  | minor
  | patch
  | preRelease
  | build
  deriving DecidableEq, Repr

structure Version where
  major : Nat
  minor : Nat
  patch : Nat
  preRelease : List (List Char)
  build : List (List Char)
  deriving DecidableEq, Repr

namespace Version

inductive Error where
  | empty
  | unexpectedEnd (part : Part)
  | unexpectedChar (part : Part) (c : Char)
  | unexpectedCharAfter (part : Part) (c : Char)
  | leadingZero (part : Part)
  | overflow (part : Part)
  | emptySegment (part : Part)
  deriving DecidableEq, Repr

def Part.describe : Part → String
  | major => "major version number"
  | minor => "minor version number"
  | patch => "patch version number"
  | preRelease => "pre-release identifier"
  | build => "build metadata"

def Error.message : Error → String
  | empty => "empty string, expected a semver version"
  | unexpectedEnd part => "unexpected end of input while parsing " ++ part.describe
  | unexpectedChar part c =>
    "unexpected character " ++ Text.quotedChar c ++ " while parsing " ++ part.describe
  | unexpectedCharAfter part c =>
    "unexpected character " ++ Text.quotedChar c ++ " after " ++ part.describe
  | leadingZero part => "invalid leading zero in " ++ part.describe
  | overflow part => "value of " ++ part.describe ++ " exceeds u64::MAX"
  | emptySegment part => "empty identifier segment in " ++ part.describe

def digitValue (c : Char) : Nat := c.toNat - '0'.toNat

def moreDigits (part : Part) (value : Nat) : List Char → Except Error (Nat × List Char)
  | [] => .ok (value, [])
  | c :: rest =>
    if c.isDigit then
      if value = 0 then .error (.leadingZero part)
      else if value * 10 + digitValue c < UInt64.size then
        moreDigits part (value * 10 + digitValue c) rest
      else .error (.overflow part)
    else .ok (value, c :: rest)

def readNumber (part : Part) : List Char → Except Error (Nat × List Char)
  | [] => .error (.unexpectedEnd part)
  | c :: rest =>
    if c.isDigit then moreDigits part (digitValue c) rest
    else .error (.unexpectedChar part c)

def readPoint (part : Part) : List Char → Except Error (List Char)
  | [] => .error (.unexpectedEnd part)
  | c :: rest => if c = '.' then .ok rest else .error (.unexpectedCharAfter part c)

/-- The characters of identifiers: letters, digits and the hyphen of ASCII. -/
def isIdentifierChar (c : Char) : Bool := c.isAlphanum || c = '-'

/-- Whether an identifier is a number that starts with a superfluous zero. -/
def hasLeadingZero (segment : List Char) : Bool :=
  segment.all Char.isDigit && 1 < segment.length && segment.head? = some '0'

def checkSegment (part : Part) (segment : List Char) : Except Error Unit :=
  if segment.isEmpty then .error (.emptySegment part)
  else if part = .preRelease && hasLeadingZero segment then .error (.leadingZero part)
  else .ok ()

/-- Reads identifiers separated by points; `segment` is the one begun, `done` those before it. -/
def moreSegments (part : Part) (done : List (List Char)) (segment : List Char) :
    List Char → Except Error (List (List Char) × List Char)
  | [] => do
    checkSegment part segment
    return (done ++ [segment], [])
  | c :: rest =>
    if isIdentifierChar c then moreSegments part done (segment ++ [c]) rest
    else do
      checkSegment part segment
      if c = '.' then moreSegments part (done ++ [segment]) [] rest
      else return (done ++ [segment], c :: rest)

/-- Reads the identifiers after a given mark; without the mark there are none. -/
def readSegments (part : Part) (mark : Char) :
    List Char → Except Error (List (List Char) × List Char)
  | [] => .ok ([], [])
  | c :: rest => if c = mark then moreSegments part [] [] rest else .ok ([], c :: rest)

def lastPart (preRelease build : List (List Char)) : Part :=
  if !build.isEmpty then .build else if !preRelease.isEmpty then .preRelease else .patch

def ofChars (text : List Char) : Except Error Version := do
  if text.isEmpty then .error .empty
  let (major, text) ← readNumber .major text
  let text ← readPoint .major text
  let (minor, text) ← readNumber .minor text
  let text ← readPoint .minor text
  let (patch, text) ← readNumber .patch text
  let (preRelease, text) ← readSegments .preRelease '-' text
  let (build, text) ← readSegments .build '+' text
  match text with
  | [] => return ⟨major, minor, patch, preRelease, build⟩
  | c :: _ => .error (.unexpectedCharAfter (lastPart preRelease build) c)

def parse (text : String) : Except Error Version := ofChars text.toList

def isValid (text : String) : Bool := (parse text).toBool

end Version
end Rollout
