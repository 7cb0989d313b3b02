/-!
# Lines and excerpts

`lines` cuts a text at its line feeds; the text after the last line feed is a line only if it is not
empty, and a carriage return right before a line feed belongs to the line's end.  `excerpt` shows a
line of a text with its two neighbours, each with its number, and marks the line itself; `located`
puts such an excerpt into the message of a reading error.
-/

namespace Rollout.Text

def linesOf : List Char → List (List Char)
  | [] => []
  | '\r' :: '\n' :: rest => [] :: linesOf rest
  | '\n' :: rest => [] :: linesOf rest
  | c :: rest =>
    match linesOf rest with
    | [] => [[c]]
    | line :: others => (c :: line) :: others

def lines (text : String) : List String := (linesOf text.toList).map String.ofList

def padLeft (width : Nat) (text : String) : String :=
  "".pushn ' ' (width - text.length) ++ text

def padRight (width : Nat) (text : String) : String :=
  text.pushn ' ' (width - text.length)

/-- One line of an excerpt: the mark, the number of the line and its content. -/
def excerptLine (marked number : Nat) (line : String) : String :=
  (if number = marked then ">>>" else "   ") ++ " " ++ padLeft 4 (toString number) ++ " | " ++ line

/-- The numbered lines from the one before `number` to the one after it. -/
def around (lines : List String) (number : Nat) : List (Nat × String) :=
  let start := number - 2
  let stop := min (number + 1) lines.length
  ((lines.drop start).take (stop - start)).mapIdx fun i line => (start + i + 1, line)

/-- The line of a text with the given number, counted from one, between its neighbours. -/
def excerpt (text : String) (number : Nat) : String :=
  "\n".intercalate ((around (lines text) number).map fun l => excerptLine number l.1 l.2)

/-- The message of a reading error with the line where it stands. -/
def located (format text : String) (line : Nat) (message : String) : String :=
  format ++ " parsing error at line " ++ toString line ++ ":\n" ++ excerpt text line ++
    "\n\nError: " ++ message

end Rollout.Text
