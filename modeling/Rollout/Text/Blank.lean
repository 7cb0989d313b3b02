/-!
# White space

The characters with the Unicode property White_Space, and texts that hold nothing else.
-/

namespace Rollout.Text

def isSpace (c : Char) : Bool :=
  let n := c.toNat
  (0x09 ≤ n && n ≤ 0x0d) || n == 0x20 || n == 0x85 || n == 0xa0 || n == 0x1680 ||
    (0x2000 ≤ n && n ≤ 0x200a) || n == 0x2028 || n == 0x2029 || n == 0x202f || n == 0x205f ||
    n == 0x3000

def isBlank (text : String) : Bool := text.toList.all isSpace

/-- The text without the white space before its first other character. -/
def dropSpace (text : List Char) : List Char := text.dropWhile isSpace

theorem isBlank_eq_true {text : String} :
    isBlank text = true ↔ ∀ c ∈ text.toList, isSpace c = true := List.all_eq_true

end Rollout.Text
