import Rollout.Digest.Blake3
import Rollout.Winner

/-!
# The effective components

All winners of a device together decide which components it runs: the winners are laid over each
other in the order of their acceptance, so where two of them name a component the later acceptance
counts.  The fingerprint of the result depends on names and versions alone.

Specification: A.4 (ConfigurationMerger).
-/

namespace Rollout

structure EffectiveSet where
  versions : NameMap String
  sources : NameMap Scope
  deriving DecidableEq, Repr

instance : Shaped EffectiveSet where
  shape := .record "EffectiveComponentSet" false <|
    .field "components" [] .required (.table .text) <|
    .field "sources" [] .required (Shaped.shape (NameMap Scope))
    .nil
  toCarrier s := (s.versions, Shaped.toCarrier s.sources, ())
  ofCarrier | (versions, sources, ()) => ⟨versions, Shaped.ofCarrier sources⟩
  ofCarrier_toCarrier s := by simp only [Shaped.ofCarrier_toCarrier]

namespace EffectiveSet

def empty : EffectiveSet := ⟨.empty, .empty⟩

def overlay (set : EffectiveSet) (w : Winner) : EffectiveSet where
  versions := set.versions.insertAll w.versions.entries
  sources := set.sources.insertAll (w.components.mapValues fun _ _ => w.scope).entries

/-- The winners in the order of their acceptance; those of one place keep their order. -/
def inOrder (winners : List Winner) : List Winner :=
  winners.mergeSort fun a b => a.sequence ≤ b.sequence

def ofWinners (winners : List Winner) : EffectiveSet := (inOrder winners).foldl overlay empty

/-- The bytes that identify the names and versions of a set: each name and each version is followed
by a zero byte. -/
def identity (set : EffectiveSet) : List UInt8 :=
  set.versions.entries.flatMap fun c => Text.encode c.1 ++ 0 :: (Text.encode c.2 ++ [0])

def fingerprint (set : EffectiveSet) : String := Digest.hex (Digest.blake3 set.identity)

end EffectiveSet
end Rollout
