/-!
# Blank characters

The characters with the `White_Space` property, and the removal of blanks at both ends of a text.
-/

namespace VersionGroups

/-- Whether a character has the `White_Space` property. -/
def isBlank (c : Char) : Bool :=
  let n := c.toNat
  (9 ≤ n && n ≤ 13) || n == 0x20 || n == 0x85 || n == 0xa0 || n == 0x1680 ||
    (0x2000 ≤ n && n ≤ 0x200a) || n == 0x2028 || n == 0x2029 || n == 0x202f || n == 0x205f ||
    n == 0x3000

/-- The characters without the blanks at both ends. -/
def trimBlanks (cs : List Char) : List Char :=
  ((cs.dropWhile isBlank).reverse.dropWhile isBlank).reverse

/-- The text without the blanks at both ends. -/
def trimmed (s : String) : String := String.ofList (trimBlanks s.toList)

/-- Whether a text has no character but blanks. -/
def isBlankText (s : String) : Bool := s.toList.all isBlank

/-- The form under which names are compared: without blanks at both ends, ASCII letters in lower
case. Letters beyond ASCII keep their case. -/
def normalized (s : String) : String :=
  String.ofList ((trimBlanks s.toList).map Char.toLower)

end VersionGroups
