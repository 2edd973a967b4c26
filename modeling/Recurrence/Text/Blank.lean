/-!
# Blanks and words

White space is Unicode's property `White_Space`.  A text is read word by word, a word being a
maximal run of characters that are not white space, so blanks in front, behind or doubled never
matter.
-/

namespace Recurrence.Text

/-- The characters with the property `White_Space`. -/
def isBlank (c : Char) : Bool :=
  let n := c.toNat
  (0x09 ≤ n && n ≤ 0x0D) || n == 0x20 || n == 0x85 || n == 0xA0 || n == 0x1680 ||
    (0x2000 ≤ n && n ≤ 0x200A) || n == 0x2028 || n == 0x2029 || n == 0x202F ||
    n == 0x205F || n == 0x3000

/-- The words of a text, in order. -/
def words (s : List Char) : List (List Char) :=
  (s.splitOnP isBlank).filter fun w => !w.isEmpty

/-- A text without the blanks at its two ends. -/
def trim (s : List Char) : List Char :=
  ((s.dropWhile isBlank).reverse.dropWhile isBlank).reverse

/-- A text of blanks only; the empty text is one. -/
def isBlankLine (s : List Char) : Bool :=
  s.all isBlank

end Recurrence.Text
