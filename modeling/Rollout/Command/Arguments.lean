/-!
# Command line arguments

A command line names one of three actions, with options before and after its name.  An option takes
a value, which follows it or is attached to it; each may be given once before and once after the
name of the action, and the later one counts.

Specification: B.10.
-/

namespace Rollout.Command

inductive Format where
  | table
  | json
  deriving DecidableEq, Repr

inductive Action where
  /-- Work on the deployments in files that arrived on a named channel. -/
  | run (paths : List String) (channel : String) (format : Format)
  | winners (format : Format)
  | effective (format : Format)
  deriving DecidableEq, Repr

structure Invocation where
  config : Option String
  action : Action
  deriving DecidableEq, Repr

inductive Refusal where
  | misuse
  | help
  deriving DecidableEq, Repr

/-! ### Options -/

inductive Switch where
  | config
  | channel
  | format
  deriving DecidableEq, Repr

def Switch.letter : Switch → Char
  | config => 'c'
  | channel => 't'
  | format => 'f'

def Switch.name : Switch → String
  | config => "config"
  | channel => "type"
  | format => "format"

structure Given where
  config : Option String
  channel : Option String
  format : Option Format
  paths : List String
  deriving DecidableEq, Repr

def Given.none : Given := ⟨Option.none, Option.none, Option.none, []⟩

def formatNamed? (name : String) : Option Format :=
  if name = "table" then some .table else if name = "json" then some .json else none

/-- Takes the value of an option, which must not be given twice. -/
def Given.set (given : Given) (value : String) : Switch → Except Refusal Given
  | .config =>
    if given.config.isSome || value.isEmpty then .error .misuse
    else .ok { given with config := some value }
  | .channel =>
    if given.channel.isSome then .error .misuse else .ok { given with channel := some value }
  | .format =>
    match given.format, formatNamed? value with
    | Option.none, some format => .ok { given with format := some format }
    | _, _ => .error .misuse

def Given.addPath (given : Given) (path : String) : Except Refusal Given :=
  if path.isEmpty then .error .misuse else .ok { given with paths := given.paths ++ [path] }

inductive Word where
  | endOfOptions
  | switch (switch : Switch) (value : Option String)
  | free (text : String)
  deriving DecidableEq, Repr

/-- The option and the attached value of an argument that starts with two hyphens. -/
def longSwitch (allowed : List Switch) (text : List Char) : Except Refusal Word :=
  let name := String.ofList (text.takeWhile (· ≠ '='))
  let value := (text.dropWhile (· ≠ '=')).tail?.map String.ofList
  match allowed.find? (·.name = name), value with
  | some s, value => .ok (.switch s value)
  | none, none => .error (if name = "help" then .help else .misuse)
  | none, some _ => .error .misuse

/-- The option and the attached value of an argument that starts with one hyphen. -/
def shortSwitch (allowed : List Switch) (letter : Char) (text : List Char) :
    Except Refusal Word :=
  match allowed.find? (·.letter = letter) with
  | some s =>
    let value := if text.head? = some '=' then text.tail else text
    .ok (.switch s (if text.isEmpty then none else some (String.ofList value)))
  | none => .error (if letter = 'h' then .help else .misuse)

def classify (allowed : List Switch) (argument : String) : Except Refusal Word :=
  match argument.toList with
  | ['-', '-'] => .ok .endOfOptions
  | '-' :: '-' :: text => longSwitch allowed text
  | '-' :: letter :: text => shortSwitch allowed letter text
  | _ => .ok (.free argument)

/-- The value of an option without attached value: the next argument, unless it looks like an
option. -/
def nextValue : List String → Except Refusal (String × List String)
  | [] => .error .misuse
  | value :: rest =>
    if value.toList.head? = some '-' && value ≠ "-" then .error .misuse else .ok (value, rest)

/-! ### Command lines -/

/-- Reads the arguments after the name of an action; the first argument bounds their number. -/
def readRest (allowed : List Switch) : Nat → Given → List String → Except Refusal Given
  | 0, given, _ => .ok given
  | _, given, [] => .ok given
  | n + 1, given, argument :: rest => do
    match ← classify allowed argument with
    | .endOfOptions => rest.foldlM Given.addPath given
    | .free path => readRest allowed n (← given.addPath path) rest
    | .switch s (some value) => readRest allowed n (← given.set value s) rest
    | .switch s none =>
      let (value, rest) ← nextValue rest
      readRest allowed n (← given.set value s) rest

/-- Reads the arguments up to the name of an action: what is given before it, the name and the
arguments after it.  The first argument bounds their number. -/
def readStart : Nat → Given → List String → Except Refusal (Given × String × List String)
  | 0, _, _ => .error .misuse
  | _, _, [] => .error .misuse
  | n + 1, given, argument :: rest => do
    match ← classify [.config] argument with
    | .endOfOptions => .error .misuse
    | .free name => return (given, name, rest)
    | .switch s (some value) => readStart n (← given.set value s) rest
    | .switch s none =>
      let (value, rest) ← nextValue rest
      readStart n (← given.set value s) rest

def Invocation.ofArguments (arguments : List String) : Except Refusal Invocation := do
  let (before, name, rest) ← readStart (arguments.length + 1) .none arguments
  if name = "help" then .error .help
  else if name = "run" then
    let after ← readRest [.config, .channel, .format] (rest.length + 1) .none rest
    if after.paths.isEmpty then .error .misuse
    else
      return ⟨after.config.or before.config,
        .run after.paths (after.channel.getD "local") (after.format.getD .table)⟩
  else if name = "winners" ∨ name = "effective" then
    let after ← readRest [.config, .format] (rest.length + 1) .none rest
    let format := after.format.getD .table
    if !after.paths.isEmpty then .error .misuse
    else
      return ⟨after.config.or before.config,
        if name = "winners" then .winners format else .effective format⟩
  else .error .misuse

def usage : String :=
  "Usage: arbor [-c PATH] run [-t TYPE] [-f FORMAT] FILES...\n" ++
  "       arbor [-c PATH] winners [-f FORMAT]\n" ++
  "       arbor [-c PATH] effective [-f FORMAT]\n\n" ++
  "  -c, --config PATH    configuration file\n" ++
  "  -t, --type TYPE      jobs, shadow or local\n" ++
  "  -f, --format FORMAT  table or json\n"

end Rollout.Command
