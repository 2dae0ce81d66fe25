/-! White space. A character is blank when it has the Unicode property White_Space, and blanks
around a text are trimmed by that property.
-/

namespace Gatehouse.Text

/-- The characters with the Unicode property White_Space. -/
def isBlank (c : Char) : Bool :=
  let n := c.toNat
  (9 ≤ n && n ≤ 13) || n == 0x20 || n == 0x85 || n == 0xA0 || n == 0x1680
    || (0x2000 ≤ n && n ≤ 0x200A) || n == 0x2028 || n == 0x2029 || n == 0x202F
    || n == 0x205F || n == 0x3000

/-- Every blank of ASCII's own notion of white space is blank here. -/
theorem isBlank_of_isWhitespace {c : Char} (h : c.isWhitespace = true)
    : isBlank c = true := by
  simp only [Char.isWhitespace, Bool.or_eq_true, decide_eq_true_eq] at h
  rcases h with ((rfl | rfl) | rfl) | rfl <;> rfl

/-- The text without the blanks it begins with. -/
def trimStart (text : List Char) : List Char :=
  text.dropWhile isBlank

/-- The text without the blanks it begins or ends with. -/
def trim (text : List Char) : List Char :=
  (trimStart (trimStart text).reverse).reverse

end Gatehouse.Text
