import Rollout.Config.Basic
import Rollout.Proofs.Store.Saving
import Rollout.Report.Basic

/-!
# The types that are written and read again

Of every type whose values leave the device or its memory, a value is read back from its text as it
was.  What can go wrong is a matter of the shapes alone (`Shape.Faithful`): two fields or choices
that share a name, a value that is written as null where null stands for its absence, a time whose
text means another time.  The first two are ruled out here type by type; the last one remains as a
condition on the times that a value holds.
-/

namespace Rollout

open Calendar (Instant)

/-! ### Values made of other values -/

namespace Enumerated

variable {α : Type} [Enumerated α]

theorem faithful (h : (names α).Nodup) (a : α) :
    (Shaped.shape α).Faithful (Shaped.toCarrier a) := h

/-- The name of a choice is a text, so it is told from the absence of a choice. -/
theorem faithful_option (h : (names α).Nodup) (choice : Option α) :
    (Shaped.shape (Option α)).Faithful (Shaped.toCarrier choice) := fun _ _ => ⟨nofun, h⟩

theorem faithful_list (h : (names α).Nodup) (choices : List α) :
    (Shaped.shape (List α)).Faithful (Shaped.toCarrier choices) := fun _ _ => h

end Enumerated

theorem faithful_optional_text (text : Option String) : (Shape.optional .text).Faithful text :=
  fun _ _ => ⟨nofun, trivial⟩

theorem faithful_optional_int64 (n : Option Int64) : (Shape.optional .int64).Faithful n :=
  fun _ _ => ⟨nofun, trivial⟩

theorem Scope.faithful_option (scope : Option Scope) :
    (Shaped.shape (Option Scope)).Faithful (Shaped.toCarrier scope) :=
  fun _ _ => ⟨nofun, trivial⟩

/-! ### Records of the device -/

theorem Request.faithful (r : Request) : (Shaped.shape Request).Faithful (Shaped.toCarrier r) := by
  refine ⟨by decide, fun _ _ => trivial, fun _ _ => trivial, ?_, ?_, fun _ _ => trivial,
    fun _ _ => trivial, fun _ _ _ _ => trivial, fun _ _ _ _ => trivial, trivial⟩
  · exact fun x _ => faithful_optional_text x
  · exact fun x _ => faithful_optional_text x

theorem Config.faithful (c : Config) : (Shaped.shape Config).Faithful (Shaped.toCarrier c) := by
  refine ⟨by decide, ?_, fun _ _ => trivial, fun _ _ => trivial, fun _ _ => trivial, trivial⟩
  exact fun _ _ _ _ => ⟨nofun, trivial⟩

theorem EffectiveSet.faithful (s : EffectiveSet) :
    (Shaped.shape EffectiveSet).Faithful (Shaped.toCarrier s) :=
  ⟨by decide, fun _ _ => trivial, fun _ _ => trivial, trivial⟩

theorem Record.faithful {r : Record}
    (h : ∀ step ∈ r.history, Instant.parse step.2.render = .ok step.2) :
    (Shaped.shape Record).Faithful (Shaped.toCarrier r) := by
  refine ⟨by decide, trivial, Enumerated.faithful (by decide) r.channel,
    faithful_optional_text r.target, Scope.faithful_option r.scope,
    faithful_optional_int64 r.createdAt, Enumerated.faithful (by decide) r.stage,
    Enumerated.faithful_option (by decide) r.detailedStatus,
    Enumerated.faithful_list (by decide) r.errorStack,
    Enumerated.faithful_list (by decide) r.errorKinds,
    faithful_optional_text r.cause, ?_, trivial⟩
  exact List.forall_mem_map.2 fun step hstep =>
    ⟨Enumerated.faithful (by decide) step.1, h step hstep⟩

/-! ### Reports -/

/-- What a report leaves out, it leaves out for a value that is assumed where nothing is found. -/
theorem Details.faithful (d : Details) : (Shaped.shape Details).Faithful (Shaped.toCarrier d) := by
  refine ⟨by decide, ?_, fun _ _ _ _ => trivial, fun _ _ _ _ => trivial, ?_, trivial⟩
  · exact fun x _ => faithful_optional_text x
  · exact fun x _ => faithful_optional_text x

theorem Report.faithful {r : Report} (h : Instant.parse r.recordedAt.render = .ok r.recordedAt) :
    (Shaped.shape Report).Faithful (Shaped.toCarrier r) :=
  ⟨by decide, trivial, Enumerated.faithful (by decide) r.channel,
    Scope.faithful_option r.scope, faithful_optional_text r.target,
    Enumerated.faithful (by decide) r.status, r.details.faithful, h, trivial⟩

theorem JobUpdate.faithful (u : JobUpdate) :
    (Shaped.shape JobUpdate).Faithful (Shaped.toCarrier u) :=
  ⟨by decide, trivial, faithful_optional_text u.target, Scope.faithful_option u.scope,
    Enumerated.faithful (by decide) u.status, u.details.faithful, trivial⟩

theorem FleetUpdate.faithful (u : FleetUpdate) :
    (Shaped.shape FleetUpdate).Faithful (Shaped.toCarrier u) :=
  ⟨by decide, trivial, Enumerated.faithful (by decide) u.trigger,
    Enumerated.faithful (by decide) u.status, u.details.faithful, trivial, trivial⟩

/-! ### All of them -/

open Shaped (parse toText)

/-- Values of every type are read back from their text as they were, provided that the times in them
are.  The document of a request is therefore the same before and after its way as a text. -/
theorem parse_toText_of_every_type :
    (∀ r : Request, parse (toText r) = .ok r ∧ Document.parse (toText r) = r.build) ∧
    (∀ c : Config, parse (toText c) = .ok c) ∧
    (∀ w : Winner, parse (toText w) = .ok w) ∧
    (∀ c : Contribution, parse (toText c) = .ok c) ∧
    (∀ s : EffectiveSet, parse (toText s) = .ok s) ∧
    (∀ r : Record, (∀ step ∈ r.history, Instant.parse step.2.render = .ok step.2) →
      parse (toText r) = .ok r) ∧
    (∀ r : Report, Instant.parse r.recordedAt.render = .ok r.recordedAt →
      parse (toText r) = .ok r) ∧
    (∀ d : Details, parse (toText d) = .ok d) ∧
    (∀ u : JobUpdate, parse (toText u) = .ok u) ∧
    (∀ u : FleetUpdate, parse (toText u) = .ok u) ∧
    (∀ s : Snapshot, parse (toText s) = .ok s) := by
  have request (r : Request) : parse (toText r) = .ok r := Shaped.parse_toText r.faithful
  have document (r : Request) : Document.parse (toText r) = r.build := by
    rw [Document.parse, request r]
    rfl
  exact ⟨fun r => ⟨request r, document r⟩,
    fun c => Shaped.parse_toText c.faithful,
    fun w => Shaped.parse_toText w.faithful,
    fun c => Shaped.parse_toText c.faithful,
    fun s => Shaped.parse_toText s.faithful,
    fun _ h => Shaped.parse_toText (Record.faithful h),
    fun _ h => Shaped.parse_toText (Report.faithful h),
    fun d => Shaped.parse_toText d.faithful,
    fun u => Shaped.parse_toText u.faithful,
    fun u => Shaped.parse_toText u.faithful,
    fun s => Shaped.parse_toText s.faithful⟩

/-- The record of a deployment that has failed, and its report: with texts that hold quotes, control
characters and nothing at all, the least number, and a time with a fraction. -/
theorem parse_toText_of_failed :
    let t : Instant := ⟨1709251199, 987654321⟩
    let r : Record := ⟨"d\"\\\n", .jobs, some "", some ⟨"ü\x00"⟩, some Int64.minValue, .failed,
      some .applyFailed, [.deploymentFailure, .componentUpdateError], [.component],
      some "\t\"no\" \u2028", [(.queued, .epoch), (.failed, t)]⟩
    parse (toText r) = .ok r ∧
      parse (toText (Report.ofRecord t r)) = .ok (Report.ofRecord t r) := by
  intro t r
  have hepoch : Instant.parse Instant.epoch.render = .ok .epoch := by decide +kernel
  have hfraction : Instant.parse t.render = .ok t := by decide +kernel
  have hhistory : ∀ step ∈ r.history, Instant.parse step.2.render = .ok step.2 :=
    List.forall_mem_cons.2 ⟨hepoch, List.forall_mem_singleton.2 hfraction⟩
  obtain ⟨-, -, -, -, -, record, report, -⟩ := parse_toText_of_every_type
  exact ⟨record r hhistory, report _ hfraction⟩

end Rollout
