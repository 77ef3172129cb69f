/-!
# Blank characters

The characters with the Unicode property `White_Space`, and trimming by them. Zero-width spaces,
byte-order marks, and the information separators `U+001C` to `U+001F` are not blank.
-/

namespace Multipass.Text

/-- The `White_Space` property of Unicode. -/
def isBlank (c : Char) : Bool :=
  let n := c.toNat
  (0x09 ≤ n && n ≤ 0x0d) || n == 0x20 || n == 0x85 || n == 0xa0 || n == 0x1680
    || (0x2000 ≤ n && n ≤ 0x200a) || n == 0x2028 || n == 0x2029 || n == 0x202f || n == 0x205f
    || n == 0x3000

/-- Drops blanks at the front. -/
def trimStartChars (s : List Char) : List Char :=
  s.dropWhile isBlank

/-- Drops blanks at the end. -/
def trimEndChars (s : List Char) : List Char :=
  (s.reverse.dropWhile isBlank).reverse

/-- Drops blanks at both ends. -/
def trimChars (s : List Char) : List Char :=
  trimEndChars (trimStartChars s)

/-- The text without blanks at either end. -/
def trim (s : String) : String :=
  String.ofList (trimChars s.toList)

/-- The text without blanks at its end. -/
def trimEnd (s : String) : String :=
  String.ofList (trimEndChars s.toList)

/-- Holds of a text of blanks only. -/
def allBlank (s : String) : Bool :=
  s.toList.all isBlank

end Multipass.Text
