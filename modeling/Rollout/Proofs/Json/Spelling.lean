import Rollout.Json.Token

/-!
# The spellings of a JSON value

A JSON value can be written in many ways: with white space around its parts, with escapes in its
strings, and with fractions and exponents in its numbers.  `Spelled` relates a value to these texts;
it is the grammar of JSON, as far as every escape stands for a character.  An integer of 64 bits has
one text.  Any other number stands for a double, and which double that is plays no role here: it is
left open.
-/

namespace Rollout.Json

/-! ### White space and strings -/

def Blank (text : List Char) : Prop := ∀ x ∈ text, Cursor.isSpace (some x) = true

theorem blank_nil : Blank [] := List.forall_mem_nil _

theorem blank_newLine (level : Nat) : Blank (newLine level) := by
  intro x hx
  rcases List.mem_cons.1 hx with rfl | hx
  · rfl
  · rw [List.eq_of_mem_replicate hx]
    rfl

/-- Four hexadecimal digits that stand for a number. -/
def SpelledUnit (unit : Nat) (digits : List Char) : Prop :=
  ∃ x₁ x₂ x₃ x₄ n₁ n₂ n₃ n₄, hexValue (some x₁) = some n₁ ∧ hexValue (some x₂) = some n₂ ∧
    hexValue (some x₃) = some n₃ ∧ hexValue (some x₄) = some n₄ ∧
    ((n₁ * 16 + n₂) * 16 + n₃) * 16 + n₄ = unit ∧ digits = [x₁, x₂, x₃, x₄]

inductive SpelledChar : Char → List Char → Prop
  | plain {c : Char} (hquote : c ≠ '"') (hslash : c ≠ '\\') (hcontrol : 0x20 ≤ c.toNat) :
    SpelledChar c [c]
  | letter {c e : Char} (h : simpleEscape e = some c) : SpelledChar c ['\\', e]
  | code {c : Char} {digits : List Char} (h : SpelledUnit c.toNat digits) :
    SpelledChar c ('\\' :: 'u' :: digits)
  | pair {c : Char} {high low : Nat} {first second : List Char} (hfirst : SpelledUnit high first)
    (hsecond : SpelledUnit low second) (hhigh : 0xd800 ≤ high ∧ high ≤ 0xdbff)
    (hlow : 0xdc00 ≤ low ∧ low ≤ 0xdfff)
    (hchar : 0x10000 + (high - 0xd800) * 0x400 + (low - 0xdc00) = c.toNat) :
    SpelledChar c ('\\' :: 'u' :: (first ++ '\\' :: 'u' :: second))

inductive SpelledChars : List Char → List Char → Prop
  | nil : SpelledChars [] []
  | cons {c : Char} {chars text rest : List Char} (h : SpelledChar c text)
    (hrest : SpelledChars chars rest) : SpelledChars (c :: chars) (text ++ rest)

def SpelledString (s : String) (text : List Char) : Prop :=
  ∃ body, SpelledChars s.toList body ∧ text = '"' :: (body ++ ['"'])

/-! ### Numbers -/

def Digits (text : List Char) : Prop := ∀ x ∈ text, x.isDigit = true

/-- What may follow the integer part of a number: nothing, or a point with digits. -/
inductive SpelledFraction : List Char → Prop
  | none : SpelledFraction []
  | digits {digits : List Char} (h : Digits digits) (hsome : digits ≠ []) :
    SpelledFraction ('.' :: digits)

/-- What may end a number: nothing, or a mark with digits and a sign before them. -/
inductive SpelledExponent : List Char → Prop
  | none : SpelledExponent []
  | digits {mark : Char} {sign digits : List Char} (hmark : mark = 'e' ∨ mark = 'E')
    (hsign : sign = [] ∨ sign = ['+'] ∨ sign = ['-']) (h : Digits digits) (hsome : digits ≠ []) :
    SpelledExponent (mark :: (sign ++ digits))

/-- A number as it is written, with an integer part that has no needless zeros. -/
structure Literal where
  negative : Bool
  whole : Nat
  fraction : List Char
  exponent : List Char
  spelledFraction : SpelledFraction fraction
  spelledExponent : SpelledExponent exponent

namespace Literal

/-- The text behind the integer part. -/
def scale (l : Literal) : List Char := l.fraction ++ l.exponent

def text (l : Literal) : List Char :=
  (if l.negative then ['-'] else []) ++ (Nat.toDigits 10 l.whole ++ l.scale)

/-- The integer of 64 bits that a number is: it has neither a fraction nor an exponent and is no
minus zero. -/
def integer? (l : Literal) : Option Int :=
  if l.scale ≠ [] then none
  else if l.negative then
    if 0 < l.whole ∧ Int64.minValue.toInt ≤ -(l.whole : Int) then some (-l.whole) else none
  else if l.whole < UInt64.size then some l.whole else none

theorem integer?_of_negative {l : Literal} (hscale : l.scale = []) (hnegative : l.negative = true)
    (hfits : 0 < l.whole ∧ Int64.minValue.toInt ≤ -(l.whole : Int)) :
    l.integer? = some (-(l.whole : Int)) := by
  rw [integer?, if_neg (not_not_intro hscale), if_pos hnegative, if_pos hfits]

theorem integer?_of_unsigned {l : Literal} (hscale : l.scale = []) (hunsigned : ¬l.negative = true)
    (hfits : l.whole < UInt64.size) : l.integer? = some (l.whole : Int) := by
  rw [integer?, if_neg (not_not_intro hscale), if_neg hunsigned, if_pos hfits]

end Literal

def SpelledNumber : Number → List Char → Prop
  | .int i, text => ∃ l : Literal, l.integer? = some i ∧ l.text = text
  | .float _, text => ∃ l : Literal, l.integer? = none ∧ l.text = text

/-! ### Values -/

/-- What stands between the items of a container: nothing before the first one. -/
def Separator (first : Bool) (text : List Char) : Prop :=
  if first then text = [] else ∃ space, Blank space ∧ text = space ++ [',']

mutual

/-- The ways to write a value. -/
def Spelled : Json → List Char → Prop
  | null, text => text = "null".toList
  | bool true, text => text = "true".toList
  | bool false, text => text = "false".toList
  | number n, text => SpelledNumber n text
  | string s, text => SpelledString s text
  | array items, text => ∃ body, text = '[' :: body ∧ SpelledItems true items body
  | object members, text => ∃ body, text = '\x7b' :: body ∧ SpelledMembers true members body

def SpelledItems : (first : Bool) → List Json → List Char → Prop
  | _, [], text => ∃ space, Blank space ∧ text = space ++ [']']
  | first, item :: items, text => ∃ comma space value rest, Separator first comma ∧ Blank space ∧
    Spelled item value ∧ SpelledItems false items rest ∧ text = comma ++ (space ++ (value ++ rest))

def SpelledMembers : (first : Bool) → List (String × Json) → List Char → Prop
  | _, [], text => ∃ space, Blank space ∧ text = space ++ ['\x7d']
  | first, (name, item) :: members, text => ∃ comma space key before after value rest,
    Separator first comma ∧ Blank space ∧ SpelledString name key ∧ Blank before ∧ Blank after ∧
    Spelled item value ∧ SpelledMembers false members rest ∧
    text = comma ++ (space ++ (key ++ (before ++ ':' :: (after ++ (value ++ rest)))))

end

/-- Whether a text is a value with white space around it. -/
def SpelledText (json : Json) (text : String) : Prop :=
  ∃ before value after, Blank before ∧ Spelled json value ∧ Blank after ∧
    text.toList = before ++ (value ++ after)

/-! ### The first character -/

/-- The characters with which the spellings of a value begin. -/
def Opens : Json → Char → Prop
  | null, x => x = 'n'
  | bool true, x => x = 't'
  | bool false, x => x = 'f'
  | number _, x => x = '-' ∨ x.isDigit = true
  | string _, x => x = '"'
  | array _, x => x = '['
  | object _, x => x = '\x7b'

theorem isDigit_toDigits (n : Nat) : Digits (Nat.toDigits 10 n) :=
  fun _ hx => Nat.isDigit_of_mem_toDigits (by decide) (by decide) hx

theorem head_toDigits_solid (n : Nat) :
    ∃ x rest, Nat.toDigits 10 n = x :: rest ∧ x.isDigit = true := by
  obtain ⟨x, rest, hx⟩ := List.exists_cons_of_ne_nil (Nat.toDigits_ne_nil (n := n) (b := 10))
  exact ⟨x, rest, hx, isDigit_toDigits n x (by rw [hx]; exact List.mem_cons_self)⟩

theorem Literal.head_text (l : Literal) :
    ∃ x rest, l.text = x :: rest ∧ (x = '-' ∨ x.isDigit = true) := by
  unfold text
  split
  · exact ⟨'-', _, rfl, .inl rfl⟩
  · obtain ⟨x, rest, hx, hdigit⟩ := head_toDigits_solid l.whole
    exact ⟨x, rest ++ l.scale, by rw [hx]; rfl, .inr hdigit⟩

theorem head_of_spelled {json : Json} {text : List Char} (h : Spelled json text) :
    ∃ x rest, text = x :: rest ∧ json.Opens x := by
  cases json with
  | null =>
    rw [Spelled] at h
    exact ⟨'n', _, h, rfl⟩
  | bool b =>
    cases b with
    | true =>
      rw [Spelled] at h
      exact ⟨'t', _, h, rfl⟩
    | false =>
      rw [Spelled] at h
      exact ⟨'f', _, h, rfl⟩
  | number n =>
    rw [Spelled] at h
    obtain ⟨l, rfl⟩ : ∃ l : Literal, l.text = text := by
      cases n with
      | int i => exact h.imp fun _ => And.right
      | float x => exact h.imp fun _ => And.right
    exact l.head_text
  | string s =>
    rw [Spelled] at h
    obtain ⟨body, -, rfl⟩ := h
    exact ⟨'"', _, rfl, rfl⟩
  | array items =>
    rw [Spelled] at h
    obtain ⟨body, rfl, -⟩ := h
    exact ⟨'[', _, rfl, rfl⟩
  | object members =>
    rw [Spelled] at h
    obtain ⟨body, rfl, -⟩ := h
    exact ⟨'\x7b', _, rfl, rfl⟩

end Rollout.Json
