import Rollout.Proofs.Runs
import Rollout.Proofs.Shape.Passing

/-!
# The identity of a deployment that arrives as a text

A text is read twice: its identity is looked up in the arbitrary value that it is, and its document
is read by its shape.  The two agree whenever the first reading finds an object.  Apart from the
identity under which it is reported, the text is processed like its document.
-/

namespace Rollout

open Json (Cursor bind_eq_ok)

/-! ### The member that is the identity -/

/-- Whether the members of an object that may be an identity are only the one that was read. -/
def ShowsOnly (id? : Option String) (table : NameMap Json) : Prop :=
  match id? with
  | none => table.find? "deploymentId" = none ∧ table.find? "id" = none
  | some s =>
    table.find? "deploymentId" = some (.string s) ∧ table.find? "id" = none ∨
      table.find? "deploymentId" = none ∧ table.find? "id" = some (.string s)

theorem ShowsOnly.insert_first {table : NameMap Json} (h : ShowsOnly none table) (s : String) :
    ShowsOnly (some s) (table.insert "deploymentId" (.string s)) := by
  refine .inl ⟨?_, ?_⟩
  · rw [NameMap.find?_insert, if_pos rfl]
  · rw [NameMap.find?_insert, if_neg (by decide)]
    exact h.2

theorem ShowsOnly.insert_second {table : NameMap Json} (h : ShowsOnly none table) (s : String) :
    ShowsOnly (some s) (table.insert "id" (.string s)) := by
  refine .inr ⟨?_, ?_⟩
  · rw [NameMap.find?_insert, if_neg (by decide)]
    exact h.1
  · rw [NameMap.find?_insert, if_pos rfl]

theorem ShowsOnly.insert_other {id? : Option String} {table : NameMap Json} {name : String}
    (hfirst : name ≠ "deploymentId") (hsecond : name ≠ "id") (value : Json) :
    ShowsOnly id? (table.insert name value) ↔ ShowsOnly id? table := by
  unfold ShowsOnly
  rw [NameMap.find?_insert, NameMap.find?_insert, if_neg hfirst.symm, if_neg hsecond.symm]

theorem shownId?_of_showsOnly {content s : String} {table : NameMap Json}
    (h : ShowsOnly (some s) table) (hs : Text.isBlank s = false)
    (hparse : Json.parse content = .ok (.object table.entries)) :
    Deployment.shownId? content = some s := by
  have hmember : ∀ name, (Json.object table.entries).member? name = table.find? name :=
    fun _ => rfl
  rw [Deployment.shownId?, hparse]
  dsimp only [Deployment.textMember?]
  rw [hmember, hmember]
  rcases h with ⟨hfirst, hsecond⟩ | ⟨hfirst, hsecond⟩
  · rw [hfirst, hsecond]
    simp [hs]
  · rw [hfirst, hsecond]
    simp [hs]

/-! ### Requests -/

theorem Layout.finish_fst {name : String} {aliases : List String} {shape : Shape} {rest : Layout}
    {draft : (Layout.field name aliases .omittable shape rest).Draft}
    {values : (Layout.field name aliases .omittable shape rest).Carrier}
    (h : finish _ draft = .ok values) : values.1 = draft.1 := by
  obtain ⟨value?, others⟩ := draft
  unfold finish at h
  cases value? with
  | none =>
    obtain ⟨value, hvalue, h⟩ := bind_eq_ok.1 h
    obtain ⟨_, -, h⟩ := bind_eq_ok.1 h
    cases hvalue
    cases h
    rfl
  | some x =>
    obtain ⟨value, hvalue, h⟩ := bind_eq_ok.1 h
    obtain ⟨_, -, h⟩ := bind_eq_ok.1 h
    cases hvalue
    cases h
    rfl

namespace Request

theorem passes_layout : layout.Passes :=
  ⟨passes_text, passes_text, passes_text.optional, passes_text.optional, passes_int64,
    passes_uint64, passes_text.table, passes_text.sequence, trivial⟩

theorem isId_iff (name : String) :
    (name = "deploymentId" || ["id"].contains name) = true ↔
      name = "deploymentId" ∨ name = "id" := by
  simp

theorem readNamed_other {name : String} (hname : ¬(name = "deploymentId" ∨ name = "id"))
    {draft draft' : layout.Draft} {c c' : Cursor}
    (h : readNamed false layout.allNames layout.readMember name draft c = .ok (draft', c')) :
    draft'.1 = draft.1 := by
  unfold readNamed at h
  split at h
  · rename_i outcome hfield
    rw [h, Layout.readMember, if_neg (mt (isId_iff name).1 hname)] at hfield
    obtain ⟨others, -, hmap⟩ := Option.map_eq_some_iff.1 hfield
    obtain ⟨r, -, heq⟩ := Json.map_eq_ok.1 hmap
    cases heq
    rfl
  · obtain ⟨c₁, -, h⟩ := bind_eq_ok.1 h
    obtain ⟨c₂, -, h⟩ := bind_eq_ok.1 h
    cases h
    rfl

theorem readNamed_id {name : String} (hname : name = "deploymentId" ∨ name = "id")
    {draft draft' : layout.Draft} {c c' : Cursor}
    (h : readNamed false layout.allNames layout.readMember name draft c = .ok (draft', c')) :
    draft.1 = none ∧ ∃ c₁ s, Json.passColon c = .ok c₁ ∧ readText "a string" c₁ = .ok (s, c') ∧
      draft'.1 = some s := by
  unfold readNamed at h
  rw [Layout.readMember, if_pos ((isId_iff name).2 hname)] at h
  dsimp only at h
  split at h
  · cases h
  · rename_i hnone
    obtain ⟨c₁, hcolon, h⟩ := bind_eq_ok.1 h
    obtain ⟨⟨s, c₂⟩, hs, h⟩ := bind_eq_ok.1 h
    cases h
    rw [Shape.read] at hs
    exact ⟨Option.not_isSome_iff_eq_none.1 hnone, c₁, s, hcolon, hs, rfl⟩

theorem showsOnly_of_member {name : String} {draft draft' : layout.Draft}
    {table table' : NameMap Json} {depth : Nat} {c c₁ c₂ : Cursor} (h : ShowsOnly draft.1 table)
    (hread : readNamed false layout.allNames layout.readMember name draft c = .ok (draft', c₁))
    (hentry : Json.readEntry (Json.readValue depth) name table c = .ok (table', c₂)) :
    c₁ = c₂ ∧ ShowsOnly draft'.1 table' := by
  obtain ⟨start, hcolon, hskip⟩ := skipValue_of_readNamed passes_layout hread
  obtain ⟨start', hcolon', hentry⟩ := bind_eq_ok.1 hentry
  cases Except.ok.inj (hcolon.symm.trans hcolon')
  obtain ⟨⟨value, c₃⟩, hvalue, hentry⟩ := bind_eq_ok.1 hentry
  cases hentry
  have hskip' := Json.skipValue_of_passed (Json.passed_of_readValue hvalue)
  -- both readers stop where the value is passed; only a value of the identity is looked at further
  refine ⟨Except.ok.inj (hskip.symm.trans hskip'), ?_⟩
  by_cases hid : name = "deploymentId" ∨ name = "id"
  · obtain ⟨hnone, c₄, s, hcolon', hs, hdraft⟩ := readNamed_id hid hread
    cases Except.ok.inj (hcolon.symm.trans hcolon')
    obtain ⟨⟨rest, hc⟩, hs⟩ := readText_ok hs
    obtain ⟨x, rfl, hx⟩ := Json.readValue_string hc hvalue
    obtain ⟨rfl, -⟩ := Prod.mk.inj (Except.ok.inj (hs.symm.trans hx))
    rw [hnone] at h
    rw [hdraft]
    rcases hid with rfl | rfl
    · exact h.insert_first s
    · exact h.insert_second s
  · obtain ⟨hfirst, hsecond⟩ := not_or.1 hid
    rw [ShowsOnly.insert_other hfirst hsecond, readNamed_other hid hread]
    exact h

/-- If the text of a request is read as an object of arbitrary values, its members show the identity
of the request and no other. -/
theorem showsOnly_of_parse {content : String} {request : Request} {members : List (String × Json)}
    (h : (Shaped.parse content : Except Json.Error Request) = .ok request)
    (hparse : Json.parse content = .ok (.object members)) :
    ∃ id? table, members = table.entries ∧ request.id = id?.getD "" ∧ ShowsOnly id? table := by
  obtain ⟨⟨values, c₁⟩, hread, hend⟩ := bind_eq_ok.1 h
  obtain ⟨⟨value, c₂⟩, hvalue, hend'⟩ := bind_eq_ok.1 hparse
  have hrequest : request.id = values.1.getD "" := by
    unfold Json.endText at hend
    dsimp only at hend
    split at hend
    · cases hend
      rfl
    · cases hend
  have hobject : value = .object members := by
    unfold Json.endText at hend'
    dsimp only at hend'
    split at hend'
    · cases hend'
      rfl
    · cases hend'
  rw [hobject] at hvalue
  cases Json.readForm_of_readValue hvalue with
  | atom _ hvalue => exact absurd rfl (hvalue members)
  | @object depth table rest c₃ hc hmembers =>
    have hread' : (Shape.record "RawDeploymentDocument" false layout).read
        (Cursor.start (Text.symbols content)) = .ok (values, c₁) := hread
    rw [Shape.read] at hread'
    obtain ⟨c₄, hat, hread'⟩ := bind_eq_ok.1 hread'
    cases atValue_ok hat
    have hopen : (Cursor.start (Text.symbols content)).skipSpace.nextChar? = some '\x7b' := by
      rw [Cursor.nextChar?, hc]
      rfl
    rw [if_neg (by rw [hopen]; decide), if_pos hopen] at hread'
    obtain ⟨⟨draft, c₅⟩, hdraft, hread'⟩ := bind_eq_ok.1 hread'
    dsimp only at hread'
    split at hread'
    · cases hread'
    · rename_i values' hvalues
      obtain ⟨c₆, -, hread'⟩ := bind_eq_ok.1 hread'
      cases hread'
      refine ⟨draft.1, table, rfl, ?_, ?_⟩
      · rw [hrequest, Layout.finish_fst hvalues]
      · -- the two readers start from nothing and go through the same members
        have hstart : ShowsOnly layout.blank.1 NameMap.empty := ⟨rfl, rfl⟩
        exact readMembers_agree (R := fun draft table => ShowsOnly draft.1 table)
          showsOnly_of_member hstart hdraft hmembers

end Request

/-! ### Documents -/

theorem Document.parse_ok {content : String} {d : Document} (h : parse content = .ok d) :
    ∃ request : Request, Shaped.parse content = .ok request ∧ d.id = request.id ∧
      Text.isBlank d.id = false := by
  obtain ⟨request, hrequest, hbuild⟩ := bind_eq_ok.1 h
  refine ⟨request, ?_, ?_⟩
  · cases hparse : (Shaped.parse content : Except Json.Error Request) with
    | error e => rw [hparse] at hrequest; cases hrequest
    | ok r => rw [hparse] at hrequest; exact congrArg Except.ok (Except.ok.inj hrequest)
  · have hcheck : request.check = .ok d := by
      unfold Request.build at hbuild
      cases hc : request.check with
      | error v => rw [hc] at hbuild; cases hbuild
      | ok d' => rw [hc] at hbuild; exact congrArg Except.ok (Except.ok.inj hbuild)
    obtain ⟨hvalid, rfl⟩ := Request.check_eq_ok.1 hcheck
    refine ⟨rfl, ?_⟩
    unfold Request.violation? at hvalid
    split at hvalid
    · cases hvalid
    · rename_i hblank
      exact Bool.eq_false_iff.2 hblank

namespace Deployment

/-- Whether a text is an object, read as an arbitrary value. -/
def showsMembers (content : String) : Bool :=
  match Json.parse content with
  | .ok (.object _) => true
  | _ => false

theorem shownId?_of_document {content : String} {d : Document}
    (hd : Document.parse content = .ok d) :
    shownId? content = if showsMembers content then some d.id else none := by
  obtain ⟨request, hrequest, hid, hblank⟩ := Document.parse_ok hd
  unfold showsMembers
  cases hparse : Json.parse content with
  | error e => rw [shownId?, hparse]; rfl
  | ok value =>
    cases value with
    | object members =>
      obtain ⟨id?, table, rfl, hrequested, hshows⟩ := Request.showsOnly_of_parse hrequest hparse
      cases id? with
      | none =>
        rw [hid, hrequested] at hblank
        exact absurd hblank (by decide)
      | some s =>
        have hs : d.id = s := hid.trans hrequested
        rw [hs] at hblank ⊢
        exact shownId?_of_showsOnly hshows hblank hparse
    | _ => rw [shownId?, hparse]; rfl

/-- The identity under which a text is reported that is a document. -/
theorem id_text {content : String} {d : Document} (hd : Document.parse content = .ok d)
    (channel : Channel) :
    (Deployment.mk channel (.text content)).id =
      if showsMembers content then d.id else unknownId := by
  rw [id]
  dsimp only
  rw [shownId?_of_document hd]
  cases showsMembers content <;> rfl

end Deployment

namespace Pipeline

variable {σ : Type}

/-! ### Processing -/

/-- Actions compare if they lead to the same world from each world. -/
def sameWorld : Comparison (StateM σ) (StateM σ) where
  Rel R x y := ∀ w, R (x.run w).1 (y.run w).1 ∧ (y.run w).2 = (x.run w).2
  ofPure h _ := ⟨h, rfl⟩
  ofBind {_ _ _ _ _ _ x y f g} h hnext w := by
    obtain ⟨hR, hworld⟩ := h w
    have hrun : (y >>= g).run w = (g (y.run w).1).run (x.run w).2 := by
      rw [← hworld]
      rfl
    rw [hrun]
    exact hnext _ _ hR _

theorem agrees_self (env : Surroundings (StateM σ)) : sameWorld.Agrees env env where
  now _ := ⟨rfl, rfl⟩
  groups _ := ⟨rfl, rfl⟩
  save _ _ := ⟨rfl, rfl⟩
  apply _ _ := ⟨rfl, rfl⟩

theorem process_renamed (env : Surroundings (StateM σ)) {deployment deployment' : Deployment}
    (hdocument : deployment'.document = deployment.document)
    (hchannel : deployment'.channel = deployment.channel) {f : String → String}
    (hname : f deployment.id = deployment'.id) (p : Pipeline) (w : σ) :
    let r := (process env deployment p).run w
    (process env deployment' p).run w = ((r.1.1.renamed f, r.1.2), r.2) := by
  intro r
  obtain ⟨hresult, hworld⟩ :=
    Comparison.rel_process (agrees_self env) hdocument hchannel hname p w
  exact Prod.ext hresult hworld

theorem journal_renamed (env : Surroundings (StateM σ)) {deployment deployment' : Deployment}
    (hdocument : deployment'.document = deployment.document)
    (hchannel : deployment'.channel = deployment.channel) (p : Pipeline) (w : σ) :
    journal env deployment' p w = journal env deployment p w := by
  have hrun := process_renamed env.watched hdocument hchannel
    (f := fun _ => deployment'.id) rfl p (w, [])
  unfold journal
  rw [hrun]

/-- A text that is a document is processed exactly like the document if it is an object.  Otherwise
it is reported as unknown, and nothing else differs: the pipeline, the world and what is asked of
the surroundings are the same, and so are the records and reports up to the identity. -/
theorem text_processed_as_document (env : Surroundings (StateM σ)) {content : String} {d : Document}
    (hd : Document.parse content = .ok d) (channel : Channel) (p : Pipeline) (w : σ) :
    let text : Deployment := ⟨channel, .text content⟩
    let parsed : Deployment := ⟨channel, .document d⟩
    let r := (process env parsed p).run w
    (Deployment.showsMembers content = true →
      text.id = d.id ∧ (process env text p).run w = r) ∧
    (Deployment.showsMembers content = false → text.id = Deployment.unknownId) ∧
    (process env text p).run w = ((r.1.1.renamed fun _ => text.id, r.1.2), r.2) ∧
    journal env text p w = journal env parsed p w := by
  intro text parsed r
  have hid := Deployment.id_text hd channel
  have hdocument : text.document = parsed.document := hd
  refine ⟨?_, ?_, process_renamed env hdocument rfl rfl p w, journal_renamed env hdocument rfl p w⟩
  · intro hshows
    rw [hshows, if_pos rfl] at hid
    refine ⟨hid, ?_⟩
    have hname : id parsed.id = text.id := hid.symm
    rw [process_renamed env hdocument rfl hname p w, Outcome.renamed_id]
    rfl
  · intro hhides
    rw [hhides, if_neg Bool.false_ne_true] at hid
    exact hid

theorem eq_ok_of_toOption {ε α : Type} {x : Except ε α} {a : α} (h : x.toOption = some a) :
    x = .ok a := by
  cases x with
  | ok b => exact congrArg Except.ok (Option.some.inj h)
  | error e => cases h

/-- An object with a document in it, on a device where nothing goes wrong. -/
theorem object_text_processed_as_document :
    let content := "\x7b\"id\":\"d1\",\"targetGroup\":\"thinggroup/root\"\x7d"
    let p := start ⟨.empty, true⟩ .empty .empty
    let text : Deployment := ⟨.direct, .text content⟩
    let parsed : Deployment := ⟨.direct, .document (bare "d1" "thinggroup/root" 0)⟩
    text.id = "d1" ∧
      (process (quiet .empty) text p).run () = (process (quiet .empty) parsed p).run () := by
  intro content p text parsed
  have hd : Document.parse content = .ok (bare "d1" "thinggroup/root" 0) :=
    eq_ok_of_toOption (by decide +kernel)
  have hshows : Deployment.showsMembers content = true := by
    decide +kernel
  exact (text_processed_as_document (quiet .empty) hd .direct p ()).1 hshows

/-- A document that is written as an array is carried out under its identity and reported as
unknown. -/
theorem array_text_reported_as_unknown :
    let content := "[\"d1\",\"thinggroup/root\"]"
    let p := start ⟨.empty, true⟩ .empty .empty
    let text : Turn Unit := ⟨⟨.direct, .text content⟩, ()⟩
    let parsed : Turn Unit := ⟨⟨.direct, .document (bare "d1" "thinggroup/root" 0)⟩, ()⟩
    let reported (t : Turn Unit) := (t.outcome (quiet .empty) p).result.toOption.map fun r =>
      (r.deployment, r.stage)
    (Document.parse content).toOption = some (bare "d1" "thinggroup/root" 0) ∧
      reported parsed = some ("d1", .succeeded) ∧
      reported text = some ("<unknown>", .succeeded) ∧
      ((text.next (quiet .empty) p).store.winner? ⟨"thinggroup/root"⟩).map Winner.deployment =
        some "d1" := by
  decide +kernel

end Pipeline

end Rollout
