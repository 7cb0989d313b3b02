import Rollout.Config.Text
import Rollout.Proofs.Toml.Lines

/-!
# Configurations in their text form

A configuration is read back from the text that is written for it, whatever characters its strings
have: `parse_render` for every configuration, with the flaw that is reported if it has one.  The
text is read line by line, and each line sets one field; a set without members is written and read
as such, so that no default takes its place.
-/

namespace Rollout.Config

open Toml (Node Entries)

variable {c c' : Config} {entries : Entries} {keys : List String} {value : List Char}
  {good : Node → Prop}

/-! ### Values -/

/-- A value at the end of a line is read as a node with a property. -/
def Reads (value : List Char) (good : Node → Prop) : Prop :=
  ∀ rest, Toml.passBlanks (' ' :: (value ++ '\n' :: rest)) = value ++ '\n' :: rest ∧
    ∃ node, good node ∧
      Toml.readValue Toml.depthLimit (value ++ '\n' :: rest) = .ok (node, '\n' :: rest)

theorem reads_writeString (path : String) :
    Reads (Toml.writeString path.toList) (· = .text path) := by
  intro rest
  obtain ⟨x, tail, heq, hx⟩ := Toml.writeString_cons path.toList
  refine ⟨?_, _, rfl, ?_⟩
  · rw [heq]
    exact Toml.passBlanks_append [' '] (List.all_eq_true.1 rfl) (Toml.solid_of_quote hx)
  · rw [Toml.readValue_writeString _ _ (Toml.closed_cons (by decide) (by decide)),
      String.ofList_toList]

theorem reads_flag (flag : Bool) :
    Reads (if flag then "true" else "false").toList (· = .flag flag) := by
  intro rest
  refine ⟨?_, _, rfl, Toml.readValue_flag _ _ _⟩
  cases flag <;> rfl

theorem mapM_readName (names : List String) {items : List (Nat × Node)}
    (h : items.map Prod.snd = names.map .text) : items.mapM readName = .ok names := by
  induction names generalizing items with
  | nil =>
    rw [List.map_eq_nil_iff.1 h]
    rfl
  | cons name names ih =>
    obtain ⟨item, items, rfl, hitem, hitems⟩ := List.map_eq_cons_iff.1 h
    have hname : readName item = .ok name := by rw [readName, hitem]
    rw [List.mapM_cons, hname, ih hitems]
    rfl

theorem writeNames_several (first second : String) (others : List String) (rest : List Char) :
    writeNames (first :: second :: others) ++ rest =
      '[' :: '\n' :: (Toml.rows ((first :: second :: others).map String.toList) ++
        ']' :: rest) := by
  simp [writeNames, Toml.rows, List.flatMap_map]

/-- Arrays are read alike, whether they have no items, one or several. -/
theorem readValue_writeNames (names : List String) (depth : Nat) (rest : List Char) :
    ∃ items, Toml.readValue (depth + 1) (writeNames names ++ rest) = .ok (.array items, rest) ∧
      items.map Prod.snd = names.map .text := by
  match names with
  | [] =>
    refine ⟨[], Toml.readValue_array (Toml.readItems_end (Toml.passGap_solid ?_)), rfl⟩
    exact ⟨rfl, by decide, by decide, by decide⟩
  | [name] =>
    have htext : writeNames [name] ++ rest =
        '[' :: (Toml.writeString name.toList ++ ']' :: rest) := by
      simp [writeNames]
    rw [htext]
    refine ⟨_, Toml.readValue_array (Toml.readItems_last name.toList ?_), ?_⟩
    · exact Toml.passGap_writeString name.toList (']' :: rest)
    · simp
  | first :: second :: others =>
    have hlength := Toml.length_le_rows ((first :: second :: others).map String.toList)
    have hlines : ((first :: second :: others).map String.toList).length <
        ('\n' :: (Toml.rows ((first :: second :: others).map String.toList) ++
          ']' :: rest)).length + 1 := by
      simp only [List.length_cons, List.length_append] at hlength ⊢
      omega
    obtain ⟨items, hread, hitems⟩ := Toml.readItems_rows _ depth rest hlines
    refine ⟨items, ?_, ?_⟩
    · rw [writeNames_several]
      exact Toml.readValue_array hread
    · rw [hitems]
      simp

theorem passBlanks_writeNames (names : List String) (rest : List Char) :
    Toml.passBlanks (' ' :: (writeNames names ++ rest)) = writeNames names ++ rest := by
  match names with
  | [] => rfl
  | [name] => rfl
  | first :: second :: others => rfl

theorem reads_writeNames (set : NameSet) :
    Reads (writeNames set.names) fun node => ∀ place, readNames place node = .ok set := by
  intro rest
  obtain ⟨items, hread, hitems⟩ := readValue_writeNames set.names 78 ('\n' :: rest)
  refine ⟨passBlanks_writeNames _ _, .array items, fun place => ?_, hread⟩
  rw [readNames, mapM_readName set.names hitems]
  exact congrArg _ (NameSet.ofList_names set)

/-! ### Lines -/

/-- The entries that are read so far define these keys and stand for a configuration. -/
structure Progress (entries : Entries) (keys : List String) (c : Config) : Prop where
  keys_eq : entries.map (fun e => e.1.name) = keys
  defines : entries.foldlM define standard = .ok c

theorem Progress.line {key : String} (h : Progress entries keys c) (hnew : key ∉ keys)
    (hbare : ∀ x ∈ key.toList, Toml.isBareChar x = true) (hsome : key.toList ≠ [])
    (hvalue : Reads value good)
    (hdefine : ∀ start place node, good node → define c (⟨key, start⟩, place, node) = .ok c')
    (n : Nat) (rest : List Char) :
    ∃ entries', Progress entries' (keys ++ [key]) c' ∧
      Toml.readLines (n + 1) ⟨entries, []⟩ (writeLine key value ++ rest) =
        Toml.readLines n ⟨entries', []⟩ rest := by
  obtain ⟨hstart, node, hgood, hread⟩ := hvalue rest
  have hfresh : ∀ e ∈ entries, e.1.name ≠ String.ofList key.toList := by
    intro e he heq
    rw [String.ofList_toList] at heq
    exact hnew (h.keys_eq ▸ heq ▸ List.mem_map_of_mem he)
  obtain ⟨start, place, hline⟩ := Toml.readLines_line (n := n) hbare hsome hfresh hstart hread
  rw [String.ofList_toList] at hline
  have htext : writeLine key value ++ rest =
      key.toList ++ ' ' :: '=' :: ' ' :: (value ++ '\n' :: rest) := by
    simp [writeLine]
  refine ⟨_, ⟨?_, ?_⟩, htext ▸ hline⟩
  · rw [List.map_append, h.keys_eq]
    rfl
  · rw [List.foldlM_append, h.defines]
    simp only [bind, Except.bind, List.foldlM_cons, hdefine start place node hgood]
    rfl

/-! ### Fields -/

theorem define_stateDirectory {start place : Nat} {node : Node} {path : String}
    (h : node = .text path) : define c (⟨"state_dir", start⟩, place, node) =
      .ok { c with stateDirectory := some path } := by
  subst h
  rfl

theorem define_capabilities {start place : Nat} {node : Node} {set : NameSet}
    (h : ∀ place, readNames place node = .ok set) :
    define c (⟨"supported_capabilities", start⟩, place, node) =
      .ok { c with capabilities := set } := by
  simp [define, h place]

theorem define_prunes {start place : Nat} {node : Node} {flag : Bool} (h : node = .flag flag) :
    define c (⟨"prune_departed_groups", start⟩, place, node) =
      .ok { c with prunes := flag } := by
  subst h
  rfl

theorem define_groups {start place : Nat} {node : Node} {set : NameSet}
    (h : ∀ place, readNames place node = .ok set) :
    define c (⟨"memberships", start⟩, place, node) = .ok { c with groups := set } := by
  simp [define, h place]

/-- The lines of the fields that are always written, to the end of the text. -/
def writeFields (c : Config) : List Char :=
  writeLine "supported_capabilities" (writeNames c.capabilities.names) ++
    (writeLine "prune_departed_groups" (if c.prunes then "true" else "false").toList ++
      (writeLine "memberships" (writeNames c.groups.names) ++ []))

theorem Progress.fields (c : Config) {path : Option String}
    (h : Progress entries keys { standard with stateDirectory := path })
    (hkeys : keys = [] ∨ keys = ["state_dir"]) (n : Nat) :
    ∃ entries', Toml.readLines (n + 4) ⟨entries, []⟩ (writeFields c) = .ok entries' ∧
      entries'.foldlM define standard = .ok { c with stateDirectory := path } := by
  have hnew₁ : "supported_capabilities" ∉ keys := by
    obtain rfl | rfl := hkeys <;> decide
  have hnew₂ : "prune_departed_groups" ∉ keys ++ ["supported_capabilities"] := by
    obtain rfl | rfl := hkeys <;> decide
  have hnew₃ : "memberships" ∉
      keys ++ ["supported_capabilities"] ++ ["prune_departed_groups"] := by
    obtain rfl | rfl := hkeys <;> decide
  obtain ⟨entries₁, h₁, hline₁⟩ := h.line hnew₁ (List.all_eq_true.1 rfl) (by decide)
    (reads_writeNames c.capabilities) (fun _ _ _ => define_capabilities) (n + 3) _
  obtain ⟨entries₂, h₂, hline₂⟩ := h₁.line hnew₂ (List.all_eq_true.1 rfl) (by decide)
    (reads_flag c.prunes) (fun _ _ _ => define_prunes) (n + 2) _
  obtain ⟨entries₃, h₃, hline₃⟩ := h₂.line hnew₃ (List.all_eq_true.1 rfl) (by decide)
    (reads_writeNames c.groups) (fun _ _ _ => define_groups) (n + 1) []
  refine ⟨entries₃, ?_, h₃.defines⟩
  rw [writeFields, hline₁, hline₂, hline₃]
  exact Toml.readLines_end

/-! ### Documents -/

theorem toList_render (c : Config) :
    c.render.toList =
      (c.stateDirectory.elim [] fun path => writeLine "state_dir" (Toml.writeString path.toList)) ++
        writeFields c := by
  simp [render, writeFields]

theorem length_writeFields (c : Config) : 4 ≤ (writeFields c).length := by
  have hname : 4 ≤ "supported_capabilities".toList.length := by decide
  simp only [writeFields, writeLine, List.length_append]
  omega

theorem readLines_render (c : Config) {n : Nat} (hn : c.render.toList.length < n) :
    ∃ entries, Toml.readLines n ⟨[], []⟩ c.render.toList = .ok entries ∧
      entries.foldlM define standard = .ok c := by
  have hstart : Progress [] [] standard := ⟨rfl, rfl⟩
  have hlength := length_writeFields c
  obtain ⟨path, capabilities, prunes, groups⟩ := c
  rw [toList_render] at hn ⊢
  cases path with
  | none =>
    obtain ⟨m, rfl⟩ : ∃ m, n = m + 4 :=
      ⟨n - 4, by simp only [List.length_append] at hn; omega⟩
    exact hstart.fields ⟨none, capabilities, prunes, groups⟩ (.inl rfl) m
  | some path =>
    obtain ⟨m, rfl⟩ : ∃ m, n = m + 5 :=
      ⟨n - 5, by simp only [List.length_append] at hn; omega⟩
    obtain ⟨entries, h, hline⟩ := hstart.line List.not_mem_nil (List.all_eq_true.1 rfl) (by decide)
      (reads_writeString path) (fun _ _ _ => define_stateDirectory) (m + 4)
      (writeFields ⟨some path, capabilities, prunes, groups⟩)
    rw [Option.elim_some, hline]
    exact h.fields ⟨some path, capabilities, prunes, groups⟩ (.inr rfl) m

/-- The text does not start with a mark that the reader leaves out. -/
theorem head?_render (c : Config) : c.render.toList.head? = some 's' := by
  rw [toList_render]
  cases c.stateDirectory <;> rfl

theorem parse_toml_render (c : Config) :
    ∃ entries, Toml.parse c.render.toList = .ok entries ∧
      entries.foldlM define standard = .ok c := by
  rw [Toml.parse, head?_render, if_neg (by decide)]
  exact readLines_render c (Nat.lt_succ_self _)

/-- A configuration is read back from its text, unless it has a flaw, which is reported. -/
theorem parse_render (c : Config) :
    parse c.render =
      match c.flaw? with
      | some flaw => .error (.flawed flaw)
      | none => .ok c := by
  obtain ⟨entries, hread, hentries⟩ := parse_toml_render c
  rw [parse, hread]
  simp only [Except.mapError, bind, Except.bind, hentries]
  rfl

/-- Every valid configuration survives its text form. -/
theorem parse_render_of_flawless {c : Config} (h : c.flaw? = none) : parse c.render = .ok c := by
  rw [parse_render, h]

/-- A configuration with both kinds of quotes, also tripled, with a backslash, line ends and a
control character in its names, and without groups. -/
def oddlyNamed : Config :=
  ⟨some "C:\\\"a\" '''b'''", .ofList ["A\nB'", "x\r\n\"\"\"\x07"], false, .empty⟩

theorem parse_render_oddlyNamed :
    oddlyNamed.flaw? = none ∧ parse oddlyNamed.render = .ok oddlyNamed := by
  have h : oddlyNamed.flaw? = none := by decide
  exact ⟨h, parse_render_of_flawless h⟩

end Rollout.Config
