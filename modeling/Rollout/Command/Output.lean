import Rollout.Json.Sorted
import Rollout.Record
import Rollout.Store.Basic
import Rollout.Text.Lines

/-!
# Printed results

Records, winners and effective components as tables for people and as JSON for programs.

Specification: B.10.
-/

namespace Rollout.Command

open Text (padRight)

/-! ### Tables -/

/-- A text of at most a number of characters; a longer one ends in three points. -/
def truncate (limit : Nat) (text : String) : String :=
  if text.length ≤ limit then text
  else String.ofList (text.toList.take (limit - 3)) ++ "..."

/-- A text in a column of a table, with the blank after the column. -/
def cell (width : Nat) (text : String) : String := padRight width text ++ " "

/-- A text in a column of a table, cut to the width of the column. -/
def cutCell (width : Nat) (text : String) : String := cell width (truncate width text)

def rule (width : Nat) : String := "".pushn '-' width

def joinLines (lines : List String) : String := String.join (lines.map (· ++ "\n"))

def recordLines (r : Record) : List String :=
  (cutCell 24 r.deployment ++ cell 7 r.channel.name ++
    cutCell 28 ((r.scope.map Scope.name).getD "-") ++ cell 10 r.stage.name ++
    (r.detailedStatus.map DetailedStatus.name).getD "-") ::
  (r.cause.map ("  " ++ ·)).toList

def recordsTable (records : List Record) : String :=
  joinLines (
    (cell 24 "Deployment" ++ cell 7 "Type" ++ cell 28 "Scope" ++ cell 10 "State" ++ "Detail") ::
    rule 90 :: records.flatMap recordLines)

def winnerLine (w : Winner) : String :=
  cutCell 28 w.scope.name ++ cutCell 24 w.deployment ++ cell 14 (toString w.createdAt.toInt) ++
    toString w.components.size

def winnersTable (winners : List Winner) : String :=
  joinLines (
    if winners.isEmpty then ["No deployments accepted yet."]
    else
      (cell 28 "Scope" ++ cell 24 "Deployment" ++ cell 14 "Created" ++ "Components") ::
      rule 80 :: winners.map winnerLine)

def componentLine (set : EffectiveSet) (component : String × String) : String :=
  cutCell 32 component.1 ++ cutCell 16 component.2 ++
    ((set.sources.find? component.1).map Scope.name).getD "-"

def effectiveTable (set : EffectiveSet) : String :=
  joinLines (
    if set.versions.isEmpty then ["No components deployed."]
    else
      (cell 32 "Component" ++ cell 16 "Version" ++ "Scope") ::
      rule 70 :: set.versions.entries.map (componentLine set) ++
      ["", "Fingerprint: " ++ set.fingerprint])

/-! ### JSON -/

/-- A JSON object with sorted members and the version of its form, as a text of lines. -/
def document (members : List (String × Json)) : String :=
  (Json.object (("schema_version", Json.int 1) :: members)).sorted.pretty ++ "\n"

def recordsJson (records : List Record) : String :=
  document [("deployments", .array (records.map Shaped.toJson))]

def winnersJson (winners : List Winner) : String :=
  document [("winners", .array (winners.map Shaped.toJson))]

def effectiveJson (set : EffectiveSet) : String :=
  document [("fingerprint", .string set.fingerprint),
    ("components", Shape.toJson (.table .text) set.versions)]

/-! ### Errors -/

/-- An error as it is printed, from its messages from the general to the particular. -/
def errorText : List String → String
  | [] => ""
  | message :: causes =>
    let indented := causes.flatMap fun cause =>
      (cause.toList.splitOn '\n').map fun line => "    " ++ String.ofList line
    "Error: " ++ message ++ "\n" ++
      (if causes.isEmpty then "" else "\nCaused by:\n" ++ joinLines indented)

end Rollout.Command
