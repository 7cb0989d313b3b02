import Rollout.Proofs.Json.Reading
import Rollout.Proofs.Overlay
import Rollout.Proofs.Text.Utf8

/-!
# What a fingerprint tells apart

The bytes that identify a set of components are those of a text in which a zero character ends each
name and each version.  No version has a zero character, but a name may have one, and what follows
it there can be mistaken for a version.  Where that is ruled out, different names and versions have
different bytes.
-/

namespace Rollout

/-! ### The characters of versions -/

namespace Version

/-- Whether no version is written with a character. -/
def Foreign (c : Char) : Prop := isIdentifierChar c = false ∧ c ≠ '.' ∧ c ≠ '+'

theorem foreign_zero : Foreign '\x00' := ⟨rfl, by decide, by decide⟩

section Foreign

variable {c : Char} {text rest : List Char}

theorem Foreign.not_isDigit (hc : Foreign c) : c.isDigit = false := by
  have h := hc.1
  simp only [isIdentifierChar, Char.isAlphanum, Bool.or_eq_false_iff] at h
  exact h.1.2

theorem Foreign.ne_of_isDigit (hc : Foreign c) {d : Char} (hd : d.isDigit = true) : c ≠ d := by
  rintro rfl
  rw [hc.not_isDigit] at hd
  cases hd

theorem Foreign.ne_hyphen (hc : Foreign c) : c ≠ '-' := by
  rintro rfl
  exact absurd hc.1 (by decide)

/-- No reader of a part passes over a foreign character. -/
theorem Foreign.mem_of_moreDigits (hc : Foreign c) {part : Part} {value n : Nat}
    (h : moreDigits part value text = .ok (n, rest)) (hmem : c ∈ text) : c ∈ rest := by
  induction text generalizing value with
  | nil => cases hmem
  | cons d text ih =>
    unfold moreDigits at h
    split at h
    · rename_i hd
      have htext : c ∈ text := (List.mem_cons.1 hmem).resolve_left (hc.ne_of_isDigit hd)
      split at h
      · cases h
      · split at h
        · exact ih h htext
        · cases h
    · cases h
      exact hmem

theorem Foreign.mem_of_readNumber (hc : Foreign c) {part : Part} {n : Nat}
    (h : readNumber part text = .ok (n, rest)) (hmem : c ∈ text) : c ∈ rest := by
  cases text with
  | nil => cases hmem
  | cons d text =>
    simp only [readNumber] at h
    split at h
    · rename_i hd
      exact hc.mem_of_moreDigits h ((List.mem_cons.1 hmem).resolve_left (hc.ne_of_isDigit hd))
    · cases h

theorem Foreign.mem_of_readPoint (hc : Foreign c) {part : Part}
    (h : readPoint part text = .ok rest) (hmem : c ∈ text) : c ∈ rest := by
  cases text with
  | nil => cases hmem
  | cons d text =>
    simp only [readPoint] at h
    split at h
    · rename_i hd
      cases h
      exact (List.mem_cons.1 hmem).resolve_left (hd ▸ hc.2.1)
    · cases h

theorem Foreign.mem_of_moreSegments (hc : Foreign c) {part : Part}
    {done segments : List (List Char)} {segment : List Char}
    (h : moreSegments part done segment text = .ok (segments, rest)) (hmem : c ∈ text) :
    c ∈ rest := by
  induction text generalizing done segment with
  | nil => cases hmem
  | cons d text ih =>
    unfold moreSegments at h
    split at h
    · rename_i hd
      have hne : c ≠ d := by
        rintro rfl
        rw [hc.1] at hd
        cases hd
      exact ih h ((List.mem_cons.1 hmem).resolve_left hne)
    · cases hcheck : checkSegment part segment with
      | error e => rw [hcheck] at h; cases h
      | ok _ =>
        rw [hcheck] at h
        simp only [bind, Except.bind] at h
        split at h
        · rename_i hd
          exact ih h ((List.mem_cons.1 hmem).resolve_left (hd ▸ hc.2.1))
        · cases h
          exact hmem

theorem Foreign.mem_of_readSegments (hc : Foreign c) {part : Part} {mark : Char}
    (hmark : c ≠ mark) {segments : List (List Char)}
    (h : readSegments part mark text = .ok (segments, rest)) (hmem : c ∈ text) : c ∈ rest := by
  cases text with
  | nil => cases hmem
  | cons d text =>
    simp only [readSegments] at h
    split at h
    · rename_i hd
      exact hc.mem_of_moreSegments h ((List.mem_cons.1 hmem).resolve_left (hd ▸ hmark))
    · cases h
      exact hmem

theorem Foreign.not_mem (hc : Foreign c) {text : String} {v : Version} (h : parse text = .ok v) :
    c ∉ text.toList := by
  intro hmem
  unfold parse ofChars at h
  split at h
  · cases h
  obtain ⟨⟨major, rest₁⟩, hmajor, h⟩ := Json.bind_eq_ok.1 h
  obtain ⟨rest₂, hpoint₁, h⟩ := Json.bind_eq_ok.1 h
  obtain ⟨⟨minor, rest₃⟩, hminor, h⟩ := Json.bind_eq_ok.1 h
  obtain ⟨rest₄, hpoint₂, h⟩ := Json.bind_eq_ok.1 h
  obtain ⟨⟨patch, rest₅⟩, hpatch, h⟩ := Json.bind_eq_ok.1 h
  obtain ⟨⟨preRelease, rest₆⟩, hpre, h⟩ := Json.bind_eq_ok.1 h
  obtain ⟨⟨build, rest₇⟩, hbuild, h⟩ := Json.bind_eq_ok.1 h
  have h₁ := hc.mem_of_readPoint hpoint₁ (hc.mem_of_readNumber hmajor hmem)
  have h₂ := hc.mem_of_readPoint hpoint₂ (hc.mem_of_readNumber hminor h₁)
  have h₃ := hc.mem_of_readNumber hpatch h₂
  have h₄ := hc.mem_of_readSegments hc.2.2 hbuild (hc.mem_of_readSegments hc.ne_hyphen hpre h₃)
  cases rest₇ with
  | nil => cases h₄
  | cons d rest₇ => cases h

end Foreign

end Version

/-! ### Texts from their bytes -/

theorem Text.encode_inj {text other : String} :
    Text.encode text = Text.encode other ↔ text = other := by
  refine ⟨fun h => ?_, congrArg Text.encode⟩
  have hsymbols : Text.symbols text = Text.symbols other := by
    rw [← Text.decode_encode, ← Text.decode_encode, h]
  exact String.toList_inj.1 ((List.map_inj_right fun _ _ => Option.some.inj).1 hsymbols)

/-- The parts of a text between its zero characters. -/
def Text.zeroCut (text : String) : List (List Char) := text.toList.splitOn '\x00'

theorem Text.zeroCut_inj {text other : String} (h : Text.zeroCut text = Text.zeroCut other) :
    text = other := by
  have hjoined := congrArg (List.intercalate ['\x00']) h
  rw [zeroCut, zeroCut, List.intercalate_splitOn, List.intercalate_splitOn] at hjoined
  exact String.toList_inj.1 hjoined

theorem Text.exists_zeroCut (text : String) : ∃ part parts, Text.zeroCut text = part :: parts :=
  List.exists_cons_of_ne_nil (List.splitOn_ne_nil _ _)

/-! ### Entries from their words -/

namespace EffectiveSet

/-- Whether no part of a name behind a zero character is a version. -/
def Unmistakable (name : String) : Prop :=
  ∀ part ∈ (Text.zeroCut name).tail, Version.isValid (String.ofList part) = false

instance (name : String) : Decidable (Unmistakable name) :=
  inferInstanceAs (Decidable (∀ part ∈ (Text.zeroCut name).tail, _))

/-- The parts of the names and the versions of some entries, in their order. -/
def words (entries : List (String × String)) : List (List Char) :=
  entries.flatMap fun e => Text.zeroCut e.1 ++ [e.2.toList]

/-- The text of some entries: each name and each version is ended by a zero character. -/
def listing (entries : List (String × String)) : List Char :=
  entries.flatMap fun e => e.1.toList ++ '\x00' :: (e.2.toList ++ ['\x00'])

theorem splitOn_listing {entries : List (String × String)}
    (h : ∀ e ∈ entries, '\x00' ∉ e.2.toList) :
    (listing entries).splitOn '\x00' = words entries ++ [[]] := by
  induction entries with
  | nil => rfl
  | cons e entries ih =>
    have hlisting : listing (e :: entries) =
        e.1.toList ++ '\x00' :: (e.2.toList ++ '\x00' :: listing entries) := by
      simp [listing]
    have hwords : words (e :: entries) = Text.zeroCut e.1 ++ e.2.toList :: words entries := by
      simp [words]
    rw [hlisting, List.splitOn_append_cons_self,
      List.splitOn_append_cons_self_of_not_mem (h e List.mem_cons_self),
      ih fun e' he' => h e' (List.mem_cons_of_mem _ he'), hwords, List.append_assoc]
    rfl

theorem identity_eq_encode (set : EffectiveSet) :
    set.identity = Text.encode (String.ofList (listing set.versions.entries)) := by
  have hzero : Text.encodeChar '\x00' = [0] := rfl
  rw [identity, Text.encode, String.toList_ofList, listing, List.flatMap_assoc]
  congr 1
  funext e
  simp [Text.encode, hzero]

/-- What stands before the first member of a kind is determined, and so are that member and what
follows it. -/
theorem append_cons_inj_of_first {α : Type} {p : α → Bool} {l₁ l₂ m₁ m₂ : List α} {a b : α}
    (h : l₁ ++ a :: l₂ = m₁ ++ b :: m₂) (hl : ∀ x ∈ l₁, p x = false) (ha : p a = true)
    (hm : ∀ x ∈ m₁, p x = false) (hb : p b = true) : l₁ = m₁ ∧ a = b ∧ l₂ = m₂ := by
  induction l₁ generalizing m₁ with
  | nil =>
    cases m₁ with
    | nil => exact ⟨rfl, List.cons.inj h⟩
    | cons y m₁ =>
      obtain ⟨rfl, -⟩ := List.cons.inj h
      rw [hm a List.mem_cons_self] at ha
      cases ha
  | cons x l₁ ih =>
    cases m₁ with
    | nil =>
      obtain ⟨rfl, -⟩ := List.cons.inj h
      rw [hl x List.mem_cons_self] at hb
      cases hb
    | cons y m₁ =>
      obtain ⟨rfl, hmore⟩ := List.cons.inj h
      obtain ⟨rfl, rest⟩ := ih hmore (fun z hz => hl z (List.mem_cons_of_mem _ hz))
        fun z hz => hm z (List.mem_cons_of_mem _ hz)
      exact ⟨rfl, rest⟩

/-- Whether an entry can be told from its words: the first version behind the start of its name ends
it. -/
def Tellable (e : String × String) : Prop :=
  Unmistakable e.1 ∧ Version.isValid e.2 = true

theorem words_inj {entries others : List (String × String)} (hentries : ∀ e ∈ entries, Tellable e)
    (hothers : ∀ e ∈ others, Tellable e) (h : words entries = words others) : entries = others := by
  induction entries generalizing others with
  | nil =>
    cases others with
    | nil => rfl
    | cons e others => simp [words] at h
  | cons e entries ih =>
    cases others with
    | nil => simp [words] at h
    | cons e' others =>
      obtain ⟨name, version⟩ := e
      obtain ⟨name', version'⟩ := e'
      obtain ⟨hname, hversion⟩ := hentries _ List.mem_cons_self
      obtain ⟨hname', hversion'⟩ := hothers _ List.mem_cons_self
      obtain ⟨part, parts, hparts⟩ := Text.exists_zeroCut name
      obtain ⟨part', parts', hparts'⟩ := Text.exists_zeroCut name'
      rw [Unmistakable, hparts] at hname
      rw [Unmistakable, hparts'] at hname'
      simp only [words, List.flatMap_cons, hparts, hparts', List.cons_append, List.append_assoc,
        List.nil_append, List.cons.injEq] at h
      obtain ⟨rfl, htail⟩ := h
      obtain ⟨rfl, hsame, hrest⟩ := append_cons_inj_of_first
        (p := fun word => Version.isValid (String.ofList word)) htail hname
        (by rw [String.ofList_toList]; exact hversion) hname'
        (by rw [String.ofList_toList]; exact hversion')
      rw [String.toList_inj.1 hsame, Text.zeroCut_inj (hparts.trans hparts'.symm),
        ih (fun e he => hentries e (List.mem_cons_of_mem _ he))
          (fun e he => hothers e (List.mem_cons_of_mem _ he)) hrest]

/-! ### Sets of checked documents -/

/-- Whether a set is that of winners that bring the components of checked documents. -/
def Arises (set : EffectiveSet) : Prop :=
  ∃ winners : List Winner, set = ofWinners winners ∧
    ∀ w ∈ winners, ∃ (r : Request) (d : Document), r.check = .ok d ∧ w.versions = d.components

/-- The set of a device on which one document is in force. -/
def ofRequest (r : Request) : EffectiveSet := ofWinners [.ofDocument ⟨r.target⟩ r.content]

theorem arises_ofRequest {r : Request} (h : r.violation? = none) : (ofRequest r).Arises := by
  refine ⟨_, rfl, ?_⟩
  rintro w hw
  cases List.mem_singleton.1 hw
  exact ⟨r, r.content, Request.check_eq_ok.2 ⟨h, rfl⟩, Winner.versions_ofDocument _ _⟩

theorem componentViolation?_of_check {r : Request} {d : Document} (h : r.check = .ok d)
    {name version : String} (hfind : d.components.find? name = some version) :
    componentViolation? name version = none := by
  obtain ⟨hvalid, rfl⟩ := Request.check_eq_ok.1 h
  unfold Request.violation? at hvalid
  split at hvalid; · cases hvalid
  split at hvalid; · cases hvalid
  split at hvalid; · cases hvalid
  split at hvalid; · cases hvalid
  split at hvalid; · cases hvalid
  exact List.findSome?_eq_none_iff.1 hvalid (name, version) (NameMap.mem_entries.2 hfind)

theorem exists_version {name version : String} (h : componentViolation? name version = none) :
    ∃ v, Version.parse version = .ok v := by
  unfold componentViolation? at h
  split at h
  · cases h
  · split at h
    · rename_i v hv
      exact ⟨v, hv⟩
    · cases h

theorem Arises.exists_version {set : EffectiveSet} (h : set.Arises) {e : String × String}
    (he : e ∈ set.versions.entries) : ∃ v, Version.parse e.2 = .ok v := by
  obtain ⟨name, version⟩ := e
  obtain ⟨winners, rfl, hwinners⟩ := h
  have hfind := NameMap.mem_entries.1 he
  rw [find?_versions_ofWinners, Option.map_eq_some_iff] at hfind
  obtain ⟨⟨w, c⟩, hdeciding, rfl⟩ := hfind
  obtain ⟨hmem, hc⟩ := mem_of_deciding? hdeciding
  obtain ⟨r, d, hcheck, hsame⟩ := hwinners w (mem_inOrder.1 hmem)
  have hversion : d.components.find? name = some c.version := by
    rw [← hsame, Winner.versions, NameMap.find?_mapValues, hc]
    rfl
  exact EffectiveSet.exists_version (componentViolation?_of_check hcheck hversion)

theorem Arises.tellable {set : EffectiveSet} (h : set.Arises)
    (hnames : ∀ name ∈ set.versions.names, Unmistakable name) :
    ∀ e ∈ set.versions.entries, Tellable e := by
  intro e he
  obtain ⟨v, hv⟩ := h.exists_version he
  refine ⟨hnames e.1 (List.mem_map_of_mem he), ?_⟩
  rw [Version.isValid, hv]
  rfl

/-- Sets of checked documents whose names or versions differ are identified by different bytes, if
no name goes on with a version behind a zero character.  Sets with the same names and versions have
the same fingerprint, whatever their sources are. -/
theorem identity_tells_apart (s t : EffectiveSet) :
    (s.Arises → t.Arises → (∀ name ∈ s.versions.names, Unmistakable name) →
      (∀ name ∈ t.versions.names, Unmistakable name) → s.versions ≠ t.versions →
      s.identity ≠ t.identity) ∧
    (s.versions = t.versions → s.fingerprint = t.fingerprint) := by
  refine ⟨fun hs ht hsnames htnames hne hsame => hne ?_, fun h => ?_⟩
  · rw [identity_eq_encode, identity_eq_encode, Text.encode_inj, String.ofList_inj] at hsame
    have hzero : ∀ {set : EffectiveSet}, set.Arises →
        ∀ e ∈ set.versions.entries, '\x00' ∉ e.2.toList := by
      intro set hset e he
      obtain ⟨v, hv⟩ := hset.exists_version he
      exact Version.foreign_zero.not_mem hv
    have hwords := congrArg (List.splitOn '\x00') hsame
    rw [splitOn_listing (hzero hs), splitOn_listing (hzero ht)] at hwords
    have hentries := words_inj (hs.tellable hsnames) (ht.tellable htnames)
      (List.append_cancel_right hwords)
    cases hversions : s.versions
    cases hversions' : t.versions
    rw [hversions, hversions'] at hentries
    cases hentries
    rfl
  · rw [fingerprint, fingerprint, identity, identity, h]

/-- A name with a zero character, and the two names that it is made of. -/
theorem identity_tells_joined_names_apart :
    let request := Request.named "d" "thinggroup/a"
    let joined := ofRequest { request with components := .ofList [("a\x00b", "1.0.0")] }
    let apart := ofRequest { request with components := .ofList [("a", "1.0.0"), ("b", "1.0.0")] }
    joined.identity ≠ apart.identity := by
  intro request joined apart
  exact (identity_tells_apart joined apart).1 (arises_ofRequest (by decide +kernel))
    (arises_ofRequest (by decide +kernel)) (by decide +kernel) (by decide +kernel)
    (by decide +kernel)

/-- A name that goes on with a version behind a zero character stands for two components: the set
with that one component and the set with those two are checked alike and have the same bytes. -/
theorem name_mistaken_for_two_components :
    let request := Request.named "d" "thinggroup/a"
    let one := ofRequest { request with components := .ofList [("a\x001.0.0\x00b", "1.0.0")] }
    let two := ofRequest { request with components := .ofList [("a", "1.0.0"), ("b", "1.0.0")] }
    one.Arises ∧ two.Arises ∧ one.versions ≠ two.versions ∧ one.identity = two.identity ∧
      one.fingerprint = two.fingerprint := by
  intro request one two
  have hidentity : one.identity = two.identity := by decide +kernel
  refine ⟨arises_ofRequest (by decide +kernel), arises_ofRequest (by decide +kernel),
    by decide +kernel, hidentity, ?_⟩
  rw [fingerprint, fingerprint, hidentity]

end EffectiveSet
end Rollout
