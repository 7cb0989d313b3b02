import Rollout.Capability
import Rollout.Shape.Shaped
import Rollout.Text.Blank

/-!
# Configuration

What can be configured on a device: where it keeps its state, what it is capable of, whether it
forgets the winners of groups that it has left, and to which groups it belongs at the start.

Specification: B.4.
-/

namespace Rollout

structure Config where
  stateDirectory : Option String
  capabilities : NameSet
  /-- Whether the winners of groups that the device has left are dropped. -/
  prunes : Bool
  groups : NameSet
  deriving DecidableEq, Repr

namespace Config

/-- The configuration of a device for which nothing is configured. -/
def standard : Config := ⟨none, Capability.standard, true, .empty⟩

@[reducible] def layout : Layout :=
  .field "state_dir" [] .omittable (.optional .path) <|
  .field "supported_capabilities" [] .omittable .nameSet <|
  .field "prune_departed_groups" [] .omittable .flag <|
  .field "memberships" [] .omittable .nameSet
  .nil

instance : Shaped Config where
  shape := .record "AgentConfig" true layout
  toCarrier c := (c.stateDirectory.map some, some c.capabilities, some c.prunes, some c.groups, ())
  ofCarrier
    | (stateDirectory, capabilities, prunes, groups, ()) =>
      ⟨stateDirectory.join, capabilities.getD standard.capabilities, prunes.getD standard.prunes,
        groups.getD standard.groups⟩
  ofCarrier_toCarrier c := by
    cases c with
    | mk stateDirectory _ _ _ => cases stateDirectory <;> rfl

inductive Flaw where
  | emptyStateDirectory
  | blankCapability (name : String)
  | blankGroup
  deriving DecidableEq, Repr

def Flaw.message : Flaw → String
  | emptyStateDirectory => "state_dir must not be empty"
  | blankCapability name => "Invalid capability token '" ++ name ++ "'"
  | blankGroup => "memberships must not contain empty group names"

def flaw? (c : Config) : Option Flaw :=
  if c.stateDirectory = some "" then some .emptyStateDirectory
  else
    match c.capabilities.names.find? Text.isBlank with
    | some name => some (.blankCapability name)
    | none => if c.groups.names.any Text.isBlank then some .blankGroup else none

end Config
end Rollout
