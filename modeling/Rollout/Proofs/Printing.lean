import Rollout.Command.Arguments
import Rollout.Command.Output
import Rollout.Proofs.Merging
import Rollout.Proofs.Serialization
import Rollout.Proofs.Shape.Sorting

/-!
# What a printed text says

What programs read is JSON: an object with the version of its form, and records or winners that are
read as those that were printed, or names with their versions and a fingerprint.  People read a
table, which has one line for each record, or two, if there is a cause to tell.
-/

namespace Rollout

open Json (SpelledText)

/-! ### White space behind a value -/

theorem Json.blank_append {text text' : List Char} (h : Json.Blank text) (h' : Json.Blank text') :
    Json.Blank (text ++ text') :=
  List.forall_mem_append.2 ⟨h, h'⟩

theorem Json.SpelledText.newLine {json : Json} {text : String} (h : SpelledText json text) :
    SpelledText json (text ++ "\n") := by
  obtain ⟨before, value, after, hbefore, hvalue, hafter, htext⟩ := h
  refine ⟨before, value, after ++ ['\n'], hbefore, hvalue, ?_, ?_⟩
  · exact Json.blank_append hafter (Json.blank_newLine 0)
  · rw [String.toList_append, htext]
    simp

namespace Command

/-! ### JSON -/

/-- Whether a text is a JSON object that has some members and the version of its form. -/
def Holds (text : String) (members : List (String × Json)) : Prop :=
  ∃ all, SpelledText (.object all) text ∧ all.Perm (("schema_version", .int 1) :: members)

/-- Whether a text is a JSON object that has a list, of which each item is read as the value in its
place. -/
def Lists {α : Type} [Shaped α] (text name : String) (xs : List α) : Prop :=
  ∃ items, Holds text [(name, .array items)] ∧
    List.Forall₂ (fun json x => Shaped.ofJson json = .ok x) items xs

theorem holds_document {members : List (String × Json)}
    (hnames : ("schema_version" :: members.map Prod.fst).Nodup)
    (hwhole : ∀ m ∈ members, m.2.Whole) :
    Holds (document members) (members.map fun m => (m.1, m.2.sorted)) := by
  have hversion : (Json.int 1).Whole := whole_natCast (n := 1) (by decide)
  have hall : (Json.object (("schema_version", Json.int 1) :: members)).Whole := by
    rw [Json.Whole, Json.wholeMembers_iff]
    exact List.forall_mem_cons.2 ⟨hversion, hwhole⟩
  exact ⟨_, (Json.spelledText_pretty (Json.whole_sorted _ hall)).newLine, Json.perm_sorted hnames⟩

/-- The values of a printed list are read back one by one. -/
theorem lists_document {α : Type} [Shaped α] {name : String} (hname : name ≠ "schema_version")
    {xs : List α} (h : ∀ x ∈ xs, (Shaped.shape α).Faithful (Shaped.toCarrier x)) :
    Lists (document [(name, .array (xs.map Shaped.toJson))]) name xs := by
  have hnames : ("schema_version" ::
      [(name, Json.array (xs.map Shaped.toJson))].map Prod.fst).Nodup :=
    List.nodup_cons.2 ⟨by simpa using hname.symm, List.nodup_singleton _⟩
  have hwhole : (Json.array (xs.map Shaped.toJson)).Whole := by
    rw [Json.Whole, Json.wholeItems_iff]
    exact List.forall_mem_map.2 fun x _ => (Shaped.shape α).whole_toJson _
  have hholds := holds_document hnames (List.forall_mem_singleton.2 hwhole)
  rw [List.map_singleton, Json.sorted, Json.sortedItems_eq_map, List.map_map] at hholds
  refine ⟨_, hholds, ?_⟩
  rw [List.forall₂_map_left_iff]
  exact List.forall₂_same.2 fun x hx => Shaped.ofJson_sorted_toJson (h x hx)

theorem lists_winnersJson (winners : List Winner) :
    Lists (winnersJson winners) "winners" winners :=
  lists_document (by decide) fun w _ => w.faithful

/-- The records of a printed list are read back, provided that the times in them are. -/
theorem lists_recordsJson {records : List Record} (h : ∀ r ∈ records, ∀ step ∈ r.history,
    Calendar.Instant.parse step.2.render = .ok step.2) :
    Lists (recordsJson records) "deployments" records :=
  lists_document (by decide) fun r hr => Record.faithful (h r hr)

/-- The components stand in the order of their names, each with its version. -/
theorem holds_effectiveJson (set : EffectiveSet) :
    Holds (effectiveJson set) [("fingerprint", .string set.fingerprint),
      ("components", .object (set.versions.entries.map fun c => (c.1, .string c.2)))] := by
  have hsorted : (Shape.toJson (.table .text) set.versions).sorted =
      .object (set.versions.entries.map fun c => (c.1, .string c.2)) := by
    rw [Shape.toJson, Json.sorted, Json.sortedMembers_eq_map, List.map_map]
    exact congrArg (Json.object ∘ NameMap.entries)
      (NameMap.ofList_entries (set.versions.mapValues fun _ version => Json.string version))
  have hwhole : ∀ m ∈ [("fingerprint", Json.string set.fingerprint),
      ("components", Shape.toJson (.table .text) set.versions)], m.2.Whole := by
    refine List.forall_mem_cons.2 ⟨trivial, List.forall_mem_singleton.2 ?_⟩
    exact Shape.whole_toJson (.table .text) set.versions
  have hnames : ["schema_version", "fingerprint", "components"].Nodup := by decide
  have hholds := holds_document (by exact hnames) hwhole
  rw [List.map_cons, List.map_singleton, hsorted] at hholds
  exact hholds

/-! ### Tables -/

def padded (width : Nat) (text : String) : List Char :=
  text.toList ++ List.replicate (width - text.length) ' '

/-- What a column can show of a text: all of it, or as much as there is room for before three
points. -/
inductive Column (width : Nat) (text : String) : List Char → Prop
  | whole (h : text.length ≤ width) : Column width text (padded width text)
  | cut (h : width < text.length) :
    Column width text (text.toList.take (width - 3) ++ ['.', '.', '.'])

/-- Whether a line shows a record: its deployment, its channel, its scope, how it has ended and what
is to say about that. -/
def Row (r : Record) (line : List Char) : Prop :=
  ∃ deployment scope, Column 24 r.deployment deployment ∧
    Column 28 ((r.scope.map Scope.name).getD "-") scope ∧
    line = deployment ++ ' ' :: (padded 7 r.channel.name ++ ' ' :: (scope ++ ' ' ::
      (padded 10 r.stage.name ++ ' ' ::
        ((r.detailedStatus.map DetailedStatus.name).getD "-").toList)))

/-- Whether lines show records one after another, each in a line before the line of its cause. -/
inductive Rows : List Record → List (List Char) → Prop
  | nil : Rows [] []
  | plain {r : Record} {records : List Record} {line : List Char} {lines : List (List Char)}
    (hrow : Row r line) (hcause : r.cause = none) (hrest : Rows records lines) :
    Rows (r :: records) (line :: lines)
  | caused {r : Record} {records : List Record} {line : List Char} {lines : List (List Char)}
    {cause : String} (hrow : Row r line) (hcause : r.cause = some cause)
    (hrest : Rows records lines) :
    Rows (r :: records) (line :: ("  " ++ cause).toList :: lines)

/-- Whether a text is a table of records under two lines. -/
def Tabulates (text : String) (records : List Record) : Prop :=
  ∃ titles underline rows, Rows records rows ∧
    text.toList = (titles :: underline :: rows).flatMap fun line => line ++ ['\n']

theorem toList_pushn (text : String) (c : Char) (n : Nat) :
    (text.pushn c n).toList = text.toList ++ List.replicate n c := by
  induction n with
  | zero => simp [String.pushn, Nat.repeat]
  | succ n ih =>
    have hpush : text.pushn c (n + 1) = (text.pushn c n).push c := rfl
    rw [hpush, String.toList_push, ih, List.replicate_succ', List.append_assoc]

theorem toList_cell (width : Nat) (text : String) :
    (cell width text).toList = padded width text ++ [' '] := by
  rw [cell, String.toList_append, Text.padRight, toList_pushn]
  rfl

theorem column_cutCell {width : Nat} (hwidth : 3 ≤ width) (text : String) :
    ∃ shown, Column width text shown ∧ (cutCell width text).toList = shown ++ [' '] := by
  rw [cutCell, toList_cell, truncate]
  by_cases hfits : text.length ≤ width
  · rw [if_pos hfits]
    exact ⟨_, .whole hfits, rfl⟩
  · have hlong : width < text.length := Nat.lt_of_not_le hfits
    have hlength : (String.ofList (text.toList.take (width - 3)) ++ "...").length = width := by
      rw [String.length_append, String.length_ofList, List.length_take, String.length_toList,
        Nat.min_eq_left (by omega)]
      exact Nat.sub_add_cancel hwidth
    refine ⟨_, .cut hlong, ?_⟩
    rw [if_neg hfits, padded, hlength, Nat.sub_self, String.toList_append, String.toList_ofList]
    simp

theorem rows_recordLines (records : List Record) :
    Rows records ((records.flatMap recordLines).map String.toList) := by
  induction records with
  | nil => exact .nil
  | cons r records ih =>
    obtain ⟨deployment, hdeployment, hcell⟩ := column_cutCell (show 3 ≤ 24 by decide) r.deployment
    obtain ⟨scope, hscope, hcell'⟩ := column_cutCell (show 3 ≤ 28 by decide)
      ((r.scope.map Scope.name).getD "-")
    have hrow : Row r (cutCell 24 r.deployment ++ cell 7 r.channel.name ++
        cutCell 28 ((r.scope.map Scope.name).getD "-") ++ cell 10 r.stage.name ++
        (r.detailedStatus.map DetailedStatus.name).getD "-").toList := by
      refine ⟨deployment, scope, hdeployment, hscope, ?_⟩
      simp only [String.toList_append, hcell, hcell', toList_cell, List.append_assoc,
        List.cons_append, List.nil_append]
    rw [List.flatMap_cons, List.map_append]
    cases hcause : r.cause with
    | none =>
      rw [recordLines, hcause]
      exact .plain hrow hcause ih
    | some cause =>
      rw [recordLines, hcause]
      exact .caused hrow hcause ih

theorem tabulates_recordsTable (records : List Record) :
    Tabulates (recordsTable records) records := by
  have hlines (lines : List String) : (joinLines lines).toList =
      (lines.map String.toList).flatMap fun line => line ++ ['\n'] := by
    rw [joinLines, String.toList_join, List.flatMap_map, List.flatMap_map]
    exact List.flatMap_congr fun line _ => String.toList_append
  exact ⟨_, _, _, rows_recordLines records, hlines _⟩

/-! ### Formats -/

/-- Whether a text shows records in a format; JSON can be read again as far as the times in it
can. -/
def Shows (text : String) (records : List Record) : Format → Prop
  | .table => Tabulates text records
  | .json => (∀ r ∈ records, ∀ step ∈ r.history,
      Calendar.Instant.parse step.2.render = .ok step.2) → Lists text "deployments" records

end Command
end Rollout
