import Multipass.Json.Basic
import Multipass.Number.Decimal

/-!
# JSON text

The two written forms of a value: compact, without blanks, and indented by two spaces a level.
Doubles are written with the fewest digits that read back, positionally with at least one place
when their decimal exponent is from -5 to 15, and in scientific notation elsewhere.
-/

namespace Multipass.Json

open Number

/-- A hexadecimal digit in lower case. -/
def hexDigit (n : Nat) : Char :=
  if n < 10 then Char.ofNat (48 + n) else Char.ofNat (87 + n)

/-- The written form of a character within a string. Quotes, backslashes, and control characters
are escaped, and nothing else. -/
def escapeChar (c : Char) : List Char :=
  if c = '"' then ['\\', '"']
  else if c = '\\' then ['\\', '\\']
  else if c = '\x08' then ['\\', 'b']
  else if c = '\x0c' then ['\\', 'f']
  else if c = '\n' then ['\\', 'n']
  else if c = '\r' then ['\\', 'r']
  else if c = '\t' then ['\\', 't']
  else if c.toNat < 0x20 then
    ['\\', 'u', '0', '0', hexDigit (c.toNat / 16), hexDigit (c.toNat % 16)]
  else [c]

/-- A string in quotes. -/
def quoted (s : String) : List Char :=
  '"' :: s.toList.flatMap escapeChar ++ ['"']

/-- The written form of a double that is not zero. -/
def digitsChars (d : Digits) : List Char :=
  let e := d.point - 1
  if -5 ≤ e ∧ e ≤ 15 then
    let s := d.positional
    if s.contains '.' then s else s ++ ['.', '0']
  else d.scientific

/-- The written form of a double; infinities and `nan` have none and are null. -/
def floatChars : Double → List Char
  | .nan => ['n', 'u', 'l', 'l']
  | .infinite _ => ['n', 'u', 'l', 'l']
  | .finite s m e =>
    signed s (if m = 0 then ['0', '.', '0'] else digitsChars (shortest .double m e))

/-- The written form of an integer. -/
def intChars (i : Int) : List Char :=
  signed (i < 0) (digitChars i.natAbs)

/-- The written form of a boolean. -/
def boolChars (b : Bool) : List Char :=
  if b then ['t', 'r', 'u', 'e'] else ['f', 'a', 'l', 's', 'e']

mutual

/-- The compact form of a value. -/
def compactChars : Json → List Char
  | .null => ['n', 'u', 'l', 'l']
  | .bool b => boolChars b
  | .int i => intChars i
  | .float x => floatChars x
  | .str s => quoted s
  | .arr [] => ['[', ']']
  | .arr (j :: js) => '[' :: compactChars j ++ compactItems js ++ [']']
  | .obj [] => ['\x7b', '\x7d']
  | .obj ((k, v) :: fs) =>
    '\x7b' :: quoted k ++ ':' :: compactChars v ++ compactFields fs ++ ['\x7d']

/-- The items behind the first. -/
def compactItems : List Json → List Char
  | [] => []
  | j :: js => ',' :: compactChars j ++ compactItems js

/-- The fields behind the first. -/
def compactFields : List (String × Json) → List Char
  | [] => []
  | (k, v) :: fs => ',' :: quoted k ++ ':' :: compactChars v ++ compactFields fs

end

/-- A new line with its indentation. -/
def newline (level : Nat) : List Char :=
  '\n' :: List.replicate (2 * level) ' '

mutual

/-- The indented form of a value that starts at a level. -/
def prettyChars (level : Nat) : Json → List Char
  | .null => ['n', 'u', 'l', 'l']
  | .bool b => boolChars b
  | .int i => intChars i
  | .float x => floatChars x
  | .str s => quoted s
  | .arr [] => ['[', ']']
  | .arr (j :: js) =>
    '[' :: newline (level + 1) ++ prettyChars (level + 1) j ++ prettyItems level js
      ++ newline level ++ [']']
  | .obj [] => ['\x7b', '\x7d']
  | .obj ((k, v) :: fs) =>
    '\x7b' :: newline (level + 1) ++ quoted k ++ ':' :: ' ' :: prettyChars (level + 1) v
      ++ prettyFields level fs ++ newline level ++ ['\x7d']

/-- The items behind the first. -/
def prettyItems (level : Nat) : List Json → List Char
  | [] => []
  | j :: js => ',' :: newline (level + 1) ++ prettyChars (level + 1) j ++ prettyItems level js

/-- The fields behind the first. -/
def prettyFields (level : Nat) : List (String × Json) → List Char
  | [] => []
  | (k, v) :: fs =>
    ',' :: newline (level + 1) ++ quoted k ++ ':' :: ' ' :: prettyChars (level + 1) v
      ++ prettyFields level fs

end

/-- The compact text of a value. -/
def compact (j : Json) : String :=
  String.ofList (compactChars j)

/-- The indented text of a value. -/
def pretty (j : Json) : String :=
  String.ofList (prettyChars 0 j)

end Multipass.Json
