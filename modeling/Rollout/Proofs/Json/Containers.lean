import Rollout.Proofs.Json.Numbers

/-!
# Reading spelled arrays and objects

What the loops over items and members make of a spelled container, given what the readers of the
parts make of the spelled parts (`Agrees`): they deliver what is made of the items or members one
after another, and fail where that fails.
-/

namespace Rollout.Json

open Text (Symbol)

/-! ### Results -/

/-- Whether reading comes to a result: it delivers the value and stops in front of a text, or it
fails as there is no value. -/
def Delivers {ε α : Type} (outcome : Except Error (α × Cursor)) (result : Except ε α)
    (tail : List Symbol) : Prop :=
  match result with
  | .ok a => ∃ c', outcome = .ok (a, c') ∧ c'.rest = tail
  | .error _ => ∀ r, outcome ≠ .ok r

section Delivers

variable {ε α β : Type} {outcome : Except Error (α × Cursor)} {result : Except ε α}
  {middle tail : List Symbol}

theorem Delivers.bind (h : Delivers outcome result middle)
    {f : α × Cursor → Except Error (β × Cursor)} {g : α → Except ε β}
    (hf : ∀ a c, c.rest = middle → Delivers (f (a, c)) (g a) tail) :
    Delivers (outcome >>= f) (result >>= g) tail := by
  cases result with
  | error e =>
    intro r hr
    obtain ⟨a, ha, -⟩ := bind_eq_ok.1 hr
    exact h a ha
  | ok a =>
    obtain ⟨c, rfl, hc⟩ := h
    exact hf a c hc

/-- What comes after a value may end it. -/
theorem Delivers.before (h : Delivers outcome result middle)
    {f : α × Cursor → Except Error (α × Cursor)}
    (hf : ∀ a c, c.rest = middle → ∃ c', f (a, c) = .ok (a, c') ∧ c'.rest = tail) :
    Delivers (outcome >>= f) result tail := by
  cases result with
  | error e =>
    intro r hr
    obtain ⟨a, ha, -⟩ := bind_eq_ok.1 hr
    exact h a ha
  | ok a =>
    obtain ⟨c, rfl, hc⟩ := h
    exact hf a c hc

theorem Delivers.map (h : Delivers outcome result tail) (f : α → β) :
    Delivers (outcome.map fun r => (f r.1, r.2)) (result.map f) tail := by
  cases result with
  | error e =>
    intro r hr
    obtain ⟨a, ha, -⟩ := map_eq_ok.1 hr
    exact h a ha
  | ok a =>
    obtain ⟨c, rfl, hc⟩ := h
    exact ⟨c, rfl, hc⟩

theorem Delivers.of_ok {a : α} {c : Cursor} (houtcome : outcome = .ok (a, c)) (hc : c.rest = tail) :
    Delivers outcome (.ok a : Except ε α) tail :=
  ⟨c, houtcome, hc⟩

/-- Why there is no value plays no role. -/
theorem Delivers.congr {ε' : Type} {result' : Except ε' α} (h : Delivers outcome result tail)
    (hsame : result'.toOption = result.toOption) : Delivers outcome result' tail := by
  cases result with
  | error e =>
    cases result' with
    | error e' => exact h
    | ok a => cases hsame
  | ok a =>
    cases result' with
    | error e' => cases hsame
    | ok a' =>
      cases hsame
      exact h

end Delivers

/-! ### The ends of a value -/

/-- Whether white space, a comma or a closing bracket stands at the front of a text, or nothing. -/
def EndsValue (tail : List Symbol) : Prop :=
  ∀ s, tail.head? = some s → Cursor.isSpace s = true ∨ s = some ',' ∨ s = some ']' ∨ s = some '\x7d'

theorem endsNumber_of_endsValue {tail : List Symbol} (h : EndsValue tail) : EndsNumber tail := by
  intro x hx
  rcases h _ hx with hspace | hcomma | hbracket | hbrace
  · simp only [Cursor.isSpace, Option.some.injEq, Bool.or_eq_true, decide_eq_true_eq] at hspace
    rcases hspace with ((rfl | rfl) | rfl) | rfl <;> decide
  · cases hcomma
    decide
  · cases hbracket
    decide
  · cases hbrace
    decide

theorem endsValue_of_front {space : List Char} (hspace : Blank space) {x : Char}
    (hx : x = ',' ∨ x = ']' ∨ x = '\x7d') (rest : List Symbol) :
    EndsValue (space.map some ++ some x :: rest) := by
  intro s hs
  cases space with
  | nil =>
    cases hs
    rcases hx with rfl | rfl | rfl
    · exact .inr (.inl rfl)
    · exact .inr (.inr (.inl rfl))
    · exact .inr (.inr (.inr rfl))
  | cons y space =>
    cases hs
    exact .inl (hspace y List.mem_cons_self)

/-! ### The beginnings of a value -/

section First

variable {json : Json} {x : Char}

theorem opens_only (h : json.Opens x) :
    x ∈ ['n', 't', 'f', '-', '"', '[', '\x7b'] ∨ x.isDigit = true := by
  cases json with
  | number n =>
    rcases h with rfl | h
    · exact .inl (by decide)
    · exact .inr h
  | bool b =>
    cases b with
    | true => cases h; exact .inl (by decide)
    | false => cases h; exact .inl (by decide)
  | _ => cases h; exact .inl (by decide)

theorem solid_of_opens (h : json.Opens x) :
    Cursor.isSpace (some x) = false ∧ x ≠ ']' ∧ x ≠ ',' ∧ x ≠ '\x7d' := by
  rcases opens_only h with hmem | hdigit
  · simp only [List.mem_cons, List.not_mem_nil, or_false] at hmem
    rcases hmem with rfl | rfl | rfl | rfl | rfl | rfl | rfl <;> decide
  · have hne : ∀ y : Char, y.isDigit = false → x ≠ y := by
      rintro y hy rfl
      exact Bool.false_ne_true (hy.symm.trans hdigit)
    refine ⟨?_, hne _ rfl, hne _ rfl, hne _ rfl⟩
    simp only [Cursor.isSpace, Option.some.injEq, hne ' ' rfl, hne '\n' rfl, hne '\t' rfl,
      hne '\r' rfl, decide_false, Bool.or_self]

theorem opens_n : json.Opens 'n' ↔ json = null := by
  cases json with
  | bool b => cases b <;> simp [Opens]
  | _ => simp [Opens]

theorem opens_t : json.Opens 't' ↔ json = bool true := by
  cases json with
  | bool b => cases b <;> simp [Opens]
  | _ => simp [Opens]

theorem opens_f : json.Opens 'f' ↔ json = bool false := by
  cases json with
  | bool b => cases b <;> simp [Opens]
  | _ => simp [Opens]

theorem opens_quote : json.Opens '"' ↔ ∃ s, json = string s := by
  cases json with
  | bool b => cases b <;> simp [Opens]
  | _ => simp [Opens]

theorem opens_bracket : json.Opens '[' ↔ ∃ items, json = array items := by
  cases json with
  | bool b => cases b <;> simp [Opens]
  | _ => simp [Opens]

theorem opens_brace : json.Opens '\x7b' ↔ ∃ members, json = object members := by
  cases json with
  | bool b => cases b <;> simp [Opens]
  | _ => simp [Opens]

/-- Only a number begins with a sign or a digit. -/
theorem not_digit_of_opens (h : json.Opens x) (hother : ∀ n, json ≠ number n) :
    x ≠ '-' ∧ x.isDigit = false := by
  cases json with
  | number n => exact absurd rfl (hother n)
  | bool b =>
    cases b with
    | true => cases h; decide
    | false => cases h; decide
  | _ => cases h; decide

end First

/-! ### Readers of values -/

/-- Whether a reader delivers for every spelling of a value what a function makes of the value. -/
def Agrees {ε α : Type} (read : Cursor → Outcome α) (of : Json → Except ε α) : Prop :=
  ∀ {json : Json} {text : List Char}, Spelled json text → ∀ {space : List Char}, Blank space →
    ∀ {tail : List Symbol}, EndsValue tail → ∀ {c : Cursor},
    c.rest = space.map some ++ (text.map some ++ tail) → Delivers (read c) (of json) tail

/-! ### Items -/

section Items

variable {json : Json} {items : List Json} {first : Bool} {text : List Char} {c : Cursor}
  {tail : List Symbol}

theorem endsValue_of_spelledItems (h : SpelledItems false items text) (tail : List Symbol) :
    EndsValue (text.map some ++ tail) := by
  cases items with
  | nil =>
    simp only [SpelledItems] at h
    obtain ⟨space, hspace, rfl⟩ := h
    rw [List.map_append, List.append_assoc]
    exact endsValue_of_front hspace (.inr (.inl rfl)) _
  | cons item items =>
    simp only [SpelledItems] at h
    obtain ⟨comma, space, value, rest, ⟨before, hbefore, rfl⟩, -, -, -, rfl⟩ := h
    rw [List.map_append, List.map_append, List.append_assoc, List.append_assoc]
    exact endsValue_of_front hbefore (.inl rfl) _

theorem length_lt_of_spelledItems (h : SpelledItems first items text) :
    items.length < text.length := by
  induction items generalizing first text with
  | nil =>
    simp only [SpelledItems] at h
    obtain ⟨space, -, rfl⟩ := h
    simp
  | cons item items ih =>
    simp only [SpelledItems] at h
    obtain ⟨comma, space, value, rest, -, -, hvalue, hrest, rfl⟩ := h
    have hmore := ih hrest
    obtain ⟨x, more, rfl, -⟩ := head_of_spelled hvalue
    simp only [List.length_cons, List.length_append]
    omega

/-- The next item of a spelled array is found at its first character. -/
theorem nextItem_value (htext : SpelledItems first (json :: items) text)
    (hc : c.rest = text.map some ++ tail) :
    ∃ c₁ value more, nextItem first c = .ok (true, c₁) ∧ Spelled json value ∧
      SpelledItems false items more ∧ c₁.rest = value.map some ++ (more.map some ++ tail) := by
  simp only [SpelledItems] at htext
  obtain ⟨comma, space, value, rest, hcomma, hspace, hvalue, hmore, rfl⟩ := htext
  obtain ⟨x, more, rfl, hx⟩ := head_of_spelled hvalue
  obtain ⟨hsolid, hclose, -⟩ := solid_of_opens hx
  have hsplit : c.rest = comma.map some ++ (space.map some ++
      some x :: (more.map some ++ (rest.map some ++ tail))) := by
    rw [hc]
    simp
  obtain ⟨c₁, hnext, hc₁⟩ := nextItem_more hcomma hspace hsolid hclose hsplit
  exact ⟨c₁, x :: more, rest, hnext, hvalue, hmore, hc₁⟩

theorem nextItem_none (htext : SpelledItems first [] text) (hc : c.rest = text.map some ++ tail) :
    ∃ c', nextItem first c = .ok (false, c') ∧ c'.rest = some ']' :: tail := by
  simp only [SpelledItems] at htext
  obtain ⟨space, hspace, rfl⟩ := htext
  refine nextItem_end hspace ?_
  rw [hc, List.map_append, List.append_assoc]
  rfl

/-- An array can be ended exactly where no item is left. -/
theorem endArray_items (htext : SpelledItems first items text)
    (hc : c.rest = text.map some ++ tail) :
    if items = [] then ∃ c', endArray c = .ok c' ∧ c'.rest = tail
    else ∀ c', endArray c ≠ .ok c' := by
  cases items with
  | nil =>
    simp only [SpelledItems] at htext
    obtain ⟨space, hspace, rfl⟩ := htext
    refine endArray_spelled hspace ?_
    rw [hc, List.map_append, List.append_assoc]
    rfl
  | cons item items =>
    simp only [SpelledItems] at htext
    obtain ⟨comma, space, value, rest, hcomma, hspace, hvalue, -, rfl⟩ := htext
    obtain ⟨x, more, rfl, hx⟩ := head_of_spelled hvalue
    obtain ⟨hsolid, hclose, hother, -⟩ := solid_of_opens hx
    rw [if_neg (List.cons_ne_nil _ _)]
    -- in front of an item stands a comma or, before the first one, its first character
    obtain ⟨y, front, hfront, hne⟩ : ∃ y front, c.skipSpace.rest = some y :: front ∧ y ≠ ']' := by
      cases first with
      | true =>
        cases (show comma = [] from hcomma)
        have hstart : c.rest = space.map some ++ some x :: ((more ++ rest).map some ++ tail) := by
          rw [hc]
          simp
        exact ⟨x, _, skipSpace_cons hspace hsolid hstart, hclose⟩
      | false =>
        obtain ⟨before, hbefore, rfl⟩ := hcomma
        have hstart : c.rest = before.map some ++
            some ',' :: ((space ++ ((x :: more) ++ rest)).map some ++ tail) := by
          rw [hc]
          simp
        exact ⟨',', _, skipSpace_cons hbefore rfl hstart, by decide⟩
    intro c' h
    unfold endArray at h
    dsimp only at h
    rw [hfront] at h
    simp only [Option.some.injEq, hne, if_false] at h
    split at h
    · split at h <;> cases h
    · cases h

theorem readItems_agrees {ε α : Type} {item : Cursor → Outcome α} {of : Json → Except ε α}
    (h : Agrees item of) (htext : SpelledItems first items text) {n : Nat} (hn : items.length < n)
    (hc : c.rest = text.map some ++ tail) :
    Delivers (readItems item n first c) (items.mapM of) tail := by
  -- after the first item the loop stands before a comma, so `first` changes with the items
  induction items generalizing first text n c with
  | nil =>
    obtain ⟨n, rfl⟩ : ∃ m, n = m + 1 := ⟨n - 1, by rw [List.length_nil] at hn; omega⟩
    obtain ⟨c₁, hnext, hc₁⟩ := nextItem_none htext hc
    obtain ⟨c', hend, hrest⟩ := endArray_spelled blank_nil (c := c₁) hc₁
    refine .of_ok ?_ hrest
    rw [readItems, hnext, ok_bind]
    simp only [Bool.false_eq_true, if_false, hend]
    rfl
  | cons json items ih =>
    rw [List.length_cons] at hn
    obtain ⟨n, rfl⟩ : ∃ m, n = m + 1 := ⟨n - 1, by omega⟩
    obtain ⟨c₁, value, more, hnext, hvalue, hmore, hc₁⟩ := nextItem_value htext hc
    have hitem : Delivers (item c₁) (of json) (more.map some ++ tail) :=
      h hvalue blank_nil (endsValue_of_spelledItems hmore tail) hc₁
    rw [readItems, hnext, ok_bind, List.mapM_cons]
    simp only [if_true]
    refine hitem.bind fun x c₂ hc₂ => ?_
    refine (ih hmore (Nat.lt_of_succ_lt_succ hn) hc₂).bind fun xs c₃ hc₃ => ?_
    exact .of_ok rfl hc₃

end Items

/-! ### Members -/

section Members

variable {name : String} {json : Json} {members : List (String × Json)} {first : Bool}
  {text : List Char} {c : Cursor} {tail : List Symbol}

theorem endsValue_of_spelledMembers (h : SpelledMembers false members text) (tail : List Symbol) :
    EndsValue (text.map some ++ tail) := by
  cases members with
  | nil =>
    simp only [SpelledMembers] at h
    obtain ⟨space, hspace, rfl⟩ := h
    rw [List.map_append, List.append_assoc]
    exact endsValue_of_front hspace (.inr (.inr rfl)) _
  | cons member members =>
    simp only [SpelledMembers] at h
    obtain ⟨comma, space, key, before, after, value, rest, ⟨front, hfront, rfl⟩, -, -, -, -, -, -,
      rfl⟩ := h
    rw [List.map_append, List.map_append, List.append_assoc, List.append_assoc]
    exact endsValue_of_front hfront (.inl rfl) _

theorem length_lt_of_spelledMembers (h : SpelledMembers first members text) :
    members.length < text.length := by
  induction members generalizing first text with
  | nil =>
    simp only [SpelledMembers] at h
    obtain ⟨space, -, rfl⟩ := h
    simp
  | cons member members ih =>
    simp only [SpelledMembers] at h
    obtain ⟨comma, space, key, before, after, value, rest, -, -, -, -, -, -, hrest, rfl⟩ := h
    have hmore := ih hrest
    simp only [List.length_cons, List.length_append]
    omega

/-- Whether a place is that behind the name of a member, before its colon and its value. -/
def AtColon (json : Json) (c : Cursor) (tail : List Symbol) : Prop :=
  ∃ before after value, Blank before ∧ Blank after ∧ Spelled json value ∧
    c.rest = before.map some ++ some ':' :: (after.map some ++ (value.map some ++ tail))

theorem AtColon.delivers (h : AtColon json c tail) (htail : EndsValue tail) :
    ∃ c₁, passColon c = .ok c₁ ∧ ∀ {ε α : Type} {read : Cursor → Outcome α}
      {of : Json → Except ε α}, Agrees read of → Delivers (read c₁) (of json) tail := by
  obtain ⟨before, after, value, hbefore, hafter, hvalue, hc⟩ := h
  obtain ⟨c₁, hcolon, hc₁⟩ := passColon_spelled hbefore hc
  exact ⟨c₁, hcolon, fun hread => hread hvalue hafter htail hc₁⟩

theorem nextMember_value (htext : SpelledMembers first ((name, json) :: members) text)
    (hc : c.rest = text.map some ++ tail) :
    ∃ c₁ more, nextMember first c = .ok (some name, c₁) ∧ SpelledMembers false members more ∧
      AtColon json c₁ (more.map some ++ tail) := by
  simp only [SpelledMembers] at htext
  obtain ⟨comma, space, key, before, after, value, rest, hcomma, hspace, hkey, hbefore, hafter,
    hvalue, hmore, rfl⟩ := htext
  have hsplit : c.rest = comma.map some ++ (space.map some ++ (key.map some ++
      (before.map some ++ some ':' :: (after.map some ++ (value.map some ++
        (rest.map some ++ tail)))))) := by
    rw [hc]
    simp
  obtain ⟨c₁, hnext, hc₁⟩ := nextMember_more hcomma hspace hkey hsplit
  exact ⟨c₁, rest, hnext, hmore, before, after, value, hbefore, hafter, hvalue, hc₁⟩

theorem nextMember_none (htext : SpelledMembers first [] text)
    (hc : c.rest = text.map some ++ tail) :
    ∃ c', nextMember first c = .ok (none, c') ∧ c'.rest = some '\x7d' :: tail := by
  simp only [SpelledMembers] at htext
  obtain ⟨space, hspace, rfl⟩ := htext
  refine nextMember_end hspace ?_
  rw [hc, List.map_append, List.append_assoc]
  rfl

/-- The members are read one after another into a state, each as it is read from its value. -/
theorem readMembers_agrees {ε τ : Type} {member : String → τ → Cursor → Outcome τ}
    (step : τ → String × Json → Except ε τ)
    (h : ∀ {name json state c tail}, AtColon json c tail → EndsValue tail →
      Delivers (member name state c) (step state (name, json)) tail)
    (htext : SpelledMembers first members text) {n : Nat} (hn : members.length < n) (state : τ)
    (hc : c.rest = text.map some ++ tail) :
    Delivers (readMembers member n first state c) (members.foldlM step state)
      (some '\x7d' :: tail) := by
  induction members generalizing first text n state c with
  | nil =>
    obtain ⟨n, rfl⟩ : ∃ m, n = m + 1 := ⟨n - 1, by rw [List.length_nil] at hn; omega⟩
    obtain ⟨c', hnext, hrest⟩ := nextMember_none htext hc
    refine .of_ok ?_ hrest
    rw [readMembers, hnext]
    rfl
  | cons m members ih =>
    rw [List.length_cons] at hn
    obtain ⟨n, rfl⟩ : ∃ m, n = m + 1 := ⟨n - 1, by omega⟩
    obtain ⟨c₁, more, hnext, hmore, hcolon⟩ := nextMember_value htext hc
    rw [readMembers, hnext, ok_bind, List.foldlM_cons]
    refine (h hcolon (endsValue_of_spelledMembers hmore tail)).bind fun state c₂ hc₂ => ?_
    exact ih hmore (Nat.lt_of_succ_lt_succ hn) state hc₂

end Members

end Rollout.Json
