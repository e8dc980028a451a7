/-!
# Blank characters

The characters with the Unicode property `White_Space`, and texts with the blanks
at both ends taken off. A zero-width space or a byte order mark is not blank.
-/

namespace SchemaRules.Text

/-- **A blank** is a character of the Unicode property `White_Space`. -/
def isBlank (c : Char) : Bool :=
  let n := c.toNat
  (0x9 ≤ n && n ≤ 0xD) || n == 0x20 || n == 0x85 || n == 0xA0 || n == 0x1680 ||
    (0x2000 ≤ n && n ≤ 0x200A) || n == 0x2028 || n == 0x2029 || n == 0x202F ||
    n == 0x205F || n == 0x3000

/-- The characters left when the blanks at both ends are taken off. -/
def trimChars (cs : List Char) : List Char :=
  ((cs.dropWhile isBlank).reverse.dropWhile isBlank).reverse

/-- A text without the blanks at its two ends. -/
def trim (s : String) : String :=
  String.ofList (trimChars s.toList)

/-- A text of blanks alone; the empty text is one. -/
def isBlankText (s : String) : Bool :=
  s.toList.all isBlank

end SchemaRules.Text
