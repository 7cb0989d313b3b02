/-!
# Paths of files

A path is a text whose parts are separated by slashes.  `Path.join` puts a name below a directory,
`Path.parent` removes the last part and `Path.withExtension` changes how it ends; none of them looks
at any file.
-/

namespace Rollout.Path

def isAbsolute (path : String) : Bool := path.toList.head? = some '/'

/-- A name below a directory; an absolute name stands for itself. -/
def join (directory name : String) : String :=
  if isAbsolute name || directory.isEmpty then name
  else if directory.toList.getLast? = some '/' then directory ++ name
  else directory ++ "/" ++ name

/-- Drops the last part of a reversed path that has parts of no meaning at its end: empty parts and
single points, except a point at the very start. -/
def trimReversed : List Char → List Char
  | '/' :: rest => if rest.isEmpty then ['/'] else trimReversed rest
  | '.' :: '/' :: rest => trimReversed ('/' :: rest)
  | path => path

def parent (path : String) : String :=
  let reversed := trimReversed path.toList.reverse
  let shorter := trimReversed (reversed.dropWhile (· ≠ '/'))
  String.ofList shorter.reverse

/-- The last part of a path with another extension in place of its own, if it has one; a point at
the start of a name begins no extension.  A path without a name stays as it is. -/
def withExtension (path extension : String) : String :=
  let reversed := trimReversed path.toList.reverse
  let name := reversed.takeWhile (· ≠ '/')
  let above := reversed.dropWhile (· ≠ '/')
  let stem :=
    match name.dropWhile (· ≠ '.') with
    | '.' :: before => if before.isEmpty then name else before
    | _ => name
  if name = [] ∨ name = ['.'] ∨ name = ['.', '.'] then path
  else String.ofList (stem ++ above).reverse ++ "." ++ extension

end Rollout.Path
