import Rollout.Shape.Mismatch
import Rollout.Decimal.Shortest

/-!
# Values and tables of TOML

A TOML document is a table; its keys are defined one after another by lines `key = value` and by
headers of tables.  `define`, `openTable` and `openItem` make such definitions and refuse those that
contradict earlier ones.
-/

namespace Rollout.Toml

structure Key where
  name : String
  /-- The number of characters that are left from its start on. -/
  place : Nat
  deriving DecidableEq, Repr

inductive Origin where
  | dotted
  | implied
  | header
  deriving DecidableEq, Repr

inductive Node where
  | text (value : String)
  | integer (value : Int)
  | decimal (value : Float)
  | flag (value : Bool)
  | time
  | array (items : List (Nat × Node))
  | inline (entries : List (Key × Nat × Node))
  | table (origin : Origin) (entries : List (Key × Nat × Node))
  /-- Tables under one key, with a header for each. -/
  | tables (items : List (Nat × List (Key × Nat × Node)))

/-- The entries of a table, in the order of their definition, with the places of their values. -/
abbrev Entries := List (Key × Nat × Node)

namespace Entries

def find? (name : String) (entries : Entries) : Option Node :=
  (List.find? (fun e => e.1.name = name) entries).map fun e => e.2.2

def replace (name : String) (node : Node) (entries : Entries) : Entries :=
  entries.map fun e => if e.1.name = name then (e.1, e.2.1, node) else e

def erase (name : String) (entries : Entries) : Entries :=
  entries.filter fun e => e.1.name ≠ name

def add (key : Key) (place : Nat) (node : Node) (entries : Entries) : Entries :=
  entries ++ [(key, place, node)]

end Entries

/-- How numbers with a fraction are written in messages: never with an exponent. -/
def floatStyle : Decimal.FloatStyle := ⟨none, none, 0⟩

def Node.found : Node → Found
  | text s => .text s
  | integer n => .integer n
  | decimal x => .decimal (Decimal.render floatStyle x)
  | flag b => .flag b
  | array _ => .sequence
  | tables _ => .sequence
  | time | inline _ | table _ _ => .table

/-- Changes the table at the end of a path, making tables on the way as far as they are not there.
With `dotted` the path comes from a key and may not lead into a table that has a header. -/
def descend (dotted : Bool) (change : Origin → Entries → Option Entries) :
    List Key → Origin → Entries → Option Entries
  | [], origin, entries => change origin entries
  | key :: path, _, entries =>
    match entries.find? key.name with
    | none =>
      let origin := if dotted then Origin.dotted else Origin.implied
      (descend dotted change path origin []).map fun below =>
        entries.add key key.place (.table origin below)
    | some (.table origin below) =>
      if dotted && origin = .header then none
      else
        (descend dotted change path origin below).map fun below =>
          entries.replace key.name (.table origin below)
    | some (.tables items) =>
      match items.getLast? with
      | none => none
      | some (place, below) =>
        (descend dotted change path .header below).map fun below =>
          entries.replace key.name (.tables (items.dropLast ++ [(place, below)]))
    | some _ => none

def define (above : List Key) (key : Key) (place : Nat) (node : Node) (origin : Origin)
    (entries : Entries) : Option Entries :=
  descend true
    (fun origin entries =>
      if (!above.isEmpty && origin ≠ .dotted) || (entries.find? key.name).isSome then none
      else some (entries.add key place node))
    above origin entries

/-- Opens the table of a header, which may have been implied but not defined before. -/
def openTable (above : List Key) (key : Key) (place : Nat) (root : Entries) : Option Entries :=
  descend false
    (fun _ entries =>
      match entries.find? key.name with
      | none => some (entries.add key place (.table .header []))
      | some (.table .implied below) =>
        some ((entries.erase key.name).add key place (.table .header below))
      | some _ => none)
    above .header root

def openItem (above : List Key) (key : Key) (place : Nat) (root : Entries) : Option Entries :=
  descend false
    (fun _ entries =>
      match entries.find? key.name with
      | none => some (entries.add key place (.tables [(place, [])]))
      | some (.tables items) =>
        some (entries.replace key.name (.tables (items ++ [(place, [])])))
      | some _ => none)
    above .header root

end Rollout.Toml
