import Rollout.Effective
import Rollout.Store.Snapshot

/-!
# The store of winners

A `Store` holds the winner of each scope and counts the acceptances.  `Store.replace` and
`Store.retain` change it; both save the new state first and leave the store as it is if that fails.
Where nothing is kept on disk, saving is `Store.unsaved`.

The counter can be read from a file, where it may stand at the last place that can be counted.  An
acceptance there would have to count beyond it, and the addition is a checked one: the program does
not go on from it.

Specification: A.4 (EffectiveConfigurationStore), B.5.
-/

namespace Rollout

structure Store where
  /-- The winner of each scope, by the name of the scope. -/
  winners : NameMap Winner
  /-- The place of the next acceptance. -/
  nextSequence : UInt64
  deriving DecidableEq, Repr

namespace Store

def empty : Store := ⟨.empty, 0⟩

instance : Inhabited Store := ⟨empty⟩

def ofSnapshot (s : Snapshot) : Store := ⟨s.winners, s.nextSequence⟩

def toSnapshot (s : Store) : Snapshot := ⟨Snapshot.currentVersion, s.nextSequence, s.winners⟩

/-! ### Views -/

def winner? (s : Store) (scope : Scope) : Option Winner := s.winners.find? scope.name

/-- The scopes that have a winner, in ascending order of their names. -/
def scopes (s : Store) : List Scope := s.winners.names.map Scope.mk

def inOrder (s : Store) : List Winner := EffectiveSet.inOrder s.winners.values

def effective (s : Store) : EffectiveSet := EffectiveSet.ofWinners s.inOrder

def isRoot (s : Store) (component : String) : Bool :=
  s.winners.values.any fun w => w.components.contains component

def addRoot (scope : String) (roots : NameMap NameSet) (component : String) : NameMap NameSet :=
  roots.insert component (((roots.find? component).getD .empty).insert scope)

def roots (s : Store) : NameMap NameSet :=
  s.winners.entries.foldl (fun roots e => e.2.components.names.foldl (addRoot e.1) roots) .empty

/-! ### Changes -/

inductive ReplaceError where
  | notNewer (scope : Scope) (candidate current : Int64)
  | unsaved (error : Snapshot.SaveError)
  /-- The counter is at its end.  This is not an answer to the caller: the caller stops here. -/
  | exhausted
  deriving DecidableEq, Repr

/-- The messages of an error, from the general to the particular. -/
def ReplaceError.chain : ReplaceError → List String
  | notNewer scope candidate current =>
    ["Refusing to replace winner for scope '" ++ scope.name ++ "': timestamp " ++
      toString candidate.toInt ++ " does not exceed " ++ toString current.toInt]
  | unsaved error => error.chain
  | exhausted => ["attempt to add with overflow"]

/-- Whether the place after the next one can be counted, too. -/
def Room (s : Store) : Prop := s.nextSequence.toNat + 1 < UInt64.size

instance (s : Store) : Decidable s.Room := inferInstanceAs (Decidable (_ < _))

/-- A winner with its scope and its place among the acceptances. -/
def seat (s : Store) (scope : Scope) (w : Winner) : Winner :=
  { w with scope := scope, sequence := s.nextSequence }

/-- The state after an acceptance, for a store that has `Room` for it. -/
def accept (s : Store) (scope : Scope) (w : Winner) : Store :=
  ⟨s.winners.insert scope.name (s.seat scope w), s.nextSequence + 1⟩

def keepOnly (s : Store) (keep : Scope → Bool) : Store :=
  { s with winners := s.winners.filter fun name _ => keep ⟨name⟩ }

variable {m : Type → Type} [Monad m]

def unsaved (_ : Snapshot) : m (Except Snapshot.SaveError Unit) := pure (.ok ())

/-- Goes over to a new state once it is saved. -/
def advance {α : Type} (save : Snapshot → m (Except Snapshot.SaveError Unit)) (s next : Store)
    (result : α) : m (Except Snapshot.SaveError α × Store) := do
  match ← save next.toSnapshot with
  | .ok () => return (.ok result, next)
  | .error e => return (.error e, s)

/-- Makes a deployment the winner of a scope; it has to be newer than the current winner. -/
def replace (save : Snapshot → m (Except Snapshot.SaveError Unit)) (scope : Scope) (w : Winner)
    (s : Store) : m (Except ReplaceError Winner × Store) := do
  let change : m (Except ReplaceError Winner × Store) := do
    if s.Room then
      let (result, s) ← advance save s (s.accept scope w) (s.seat scope w)
      return (result.mapError .unsaved, s)
    else return (.error .exhausted, s)
  match s.winner? scope with
  | none => change
  | some current =>
    if w.createdAt ≤ current.createdAt then
      return (.error (.notNewer scope w.createdAt current.createdAt), s)
    else change

/-- Drops the winners of the scopes that are not to be kept; the result lists those scopes. -/
def retain (save : Snapshot → m (Except Snapshot.SaveError Unit)) (keep : Scope → Bool)
    (s : Store) : m (Except Snapshot.SaveError (List Scope) × Store) :=
  let removed := s.scopes.filter fun scope => !keep scope
  if removed.isEmpty then pure (.ok [], s) else advance save s (s.keepOnly keep) removed

def load (files : Storage.Files m) (path : String) : m (Except Snapshot.LoadError Store) := do
  return (← Snapshot.load files path).map fun s => (s.map ofSnapshot).getD empty

end Store
end Rollout
