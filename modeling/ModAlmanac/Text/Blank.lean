/-!
White space of every script. A text is trimmed by dropping the white space at both of its ends; where
a text may end in a line end that does not count, it is one line feed that is dropped.
-/

namespace ModAlmanac.Text

/-- Whether a character is white space: the controls from tab to carriage return and from file to
unit separator, the spaces of every width, and the line and paragraph separators. -/
def isBlank (c : Char) : Bool :=
  let n := c.toNat
  n = 0x20 || (0x09 ≤ n && n ≤ 0x0D) || (0x1C ≤ n && n ≤ 0x1F) || n = 0x85 || n = 0xA0 ||
    n = 0x1680 || (0x2000 ≤ n && n ≤ 0x200A) || n = 0x2028 || n = 0x2029 || n = 0x202F ||
    n = 0x205F || n = 0x3000

def dropBlank (s : List Char) : List Char :=
  s.dropWhile isBlank

/-- The text without the characters of a class at its two ends. -/
def trimOf (p : Char → Bool) (s : List Char) : List Char :=
  ((s.dropWhile p).reverse.dropWhile p).reverse

def trim (s : List Char) : List Char :=
  trimOf isBlank s

/-- The text without a line end at its end. -/
def dropLineEnd (s : List Char) : List Char :=
  if s.getLast? = some '\n' then s.dropLast else s

end ModAlmanac.Text
