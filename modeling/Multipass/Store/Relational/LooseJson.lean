import Multipass.Json.Printer

/-!
# JSON values of the database

What a JSON text is to the database. Numbers stay as they are written, because the database turns
them into numbers only where it needs one; a text is known by its pieces, from which follow both
the code points it stands for and the form in which the database writes it again. The fields of an
object stay in the order in which they are written, also those with the same name.

Main definitions: `LooseJson`, its normal form `LooseJson.written`, and what the functions of the
database make of it: `LooseJson.eachValue`, `LooseJson.arrayLength` and `LooseJson.field?`.
-/

namespace Multipass.Relational

/-- A piece of a text. -/
inductive TextPiece where
  /-- A character that stands for itself. -/
  | plain (c : Char)
  /-- A backslash and a letter, which stands for a character. -/
  | short (letter : Char)
  /-- A backslash, the letter `u`, and four hexadecimal digits with their value. -/
  | unit (digits : List Char) (value : Nat)
  /-- A backslash, the letter `x`, and two hexadecimal digits with their value. -/
  | byte (digits : List Char) (value : Nat)
  /-- A backslash at the end of a line. -/
  | lineEnd
  deriving DecidableEq, Repr

namespace TextPiece

/-- The code point of the letter behind a backslash. -/
def letterPoint (letter : Char) : Nat :=
  match letter with
  | 'b' => 0x08
  | 't' => 0x09
  | 'n' => 0x0a
  | 'v' => 0x0b
  | 'f' => 0x0c
  | 'r' => 0x0d
  | '0' => 0
  | c => c.toNat

/-- The code points that pieces stand for. Two units may be halves of one code point; a half on its
own is kept, though it is no character. An end of line stands for nothing, but for a code point of
zero where it ends the text. -/
def points : List TextPiece → List Nat
  | [] => []
  | .plain c :: rest => c.toNat :: points rest
  | .short c :: rest => letterPoint c :: points rest
  | .byte _ n :: rest => n :: points rest
  | [.lineEnd] => [0]
  | .lineEnd :: rest => points rest
  | .unit _ high :: .unit ds low :: rest =>
    if high / 0x400 = 0x36 ∧ low / 0x400 = 0x37 then
      ((high % 0x400) * 0x400 + low % 0x400 + 0x10000) :: points rest
    else high :: points (.unit ds low :: rest)
  | .unit _ n :: rest => n :: points rest

/-- The form in which the database writes a piece between double quotes. -/
def written : TextPiece → List Char
  | .plain c => Json.escapeChar c
  | .short '\'' => ['\'']
  | .short 'v' => ['\\', 'u', '0', '0', '0', '9']
  | .short '0' => ['\\', 'u', '0', '0', '0', '0']
  | .short c => ['\\', c]
  | .unit ds _ => '\\' :: 'u' :: ds
  | .byte ds _ => '\\' :: 'u' :: '0' :: '0' :: ds
  | .lineEnd => []

end TextPiece

/-- A JSON value as it is written. -/
inductive LooseJson where
  | null
  | bool (b : Bool)
  /-- An integer: its digits, and whether a minus stands in front of them. -/
  | decimal (negative : Bool) (digits : List Char)
  /-- An integer in hexadecimal digits. -/
  | hexadecimal (negative : Bool) (digits : List Char)
  /-- A number with a point or an exponent, in the form in which the database writes it. -/
  | real (form : List Char)
  | text (pieces : List TextPiece)
  | array (items : List LooseJson)
  | object (fields : List (List TextPiece × LooseJson))
  deriving Repr

namespace LooseJson

/-- The form of a text. -/
def writtenText (pieces : List TextPiece) : List Char :=
  '"' :: pieces.flatMap TextPiece.written ++ ['"']

/-- The value of hexadecimal digits. -/
def hexValue (digits : List Char) : Nat :=
  digits.foldl (fun n c => n * 16 + (c.toLower.toNat - (if c.isDigit then 48 else 87))) 0

/-- The form of an integer in hexadecimal digits: it is written in decimal digits, or as a number
beyond all others if it does not fit in 64 bits. -/
def writtenHexadecimal (negative : Bool) (digits : List Char) : List Char :=
  Number.signed negative
    (if (digits.dropWhile (· = '0')).length ≤ 16 then Number.digitChars (hexValue digits)
    else ['9', '.', '0', 'e', '9', '9', '9'])

mutual

/-- The form in which the database writes a value: without blanks, with quotes around all names. -/
def written : LooseJson → List Char
  | .null => ['n', 'u', 'l', 'l']
  | .bool b => Json.boolChars b
  | .decimal negative digits => Number.signed negative digits
  | .hexadecimal negative digits => writtenHexadecimal negative digits
  | .real form => form
  | .text pieces => writtenText pieces
  | .array [] => ['[', ']']
  | .array (j :: js) => '[' :: written j ++ writtenItems js ++ [']']
  | .object [] => ['\x7b', '\x7d']
  | .object ((k, v) :: fs) =>
    '\x7b' :: writtenText k ++ ':' :: written v ++ writtenFields fs ++ ['\x7d']

/-- The items behind the first. -/
def writtenItems : List LooseJson → List Char
  | [] => []
  | j :: js => ',' :: written j ++ writtenItems js

/-- The fields behind the first. -/
def writtenFields : List (List TextPiece × LooseJson) → List Char
  | [] => []
  | (k, v) :: fs => ',' :: writtenText k ++ ':' :: written v ++ writtenFields fs

end

/-- What a value is as the value of an expression. -/
inductive Scalar where
  | null
  | int (i : Int)
  | real
  | text (points : List Nat)
  deriving DecidableEq, Repr

/-- An integer with its sign, if it fits in 64 bits, and a number with a point otherwise. -/
def decimalScalar (negative : Bool) (digits : List Char) : Scalar :=
  let n : Int := (digits.foldl (fun n c => 10 * n + (c.toNat - 48)) 0 : Nat)
  let i := if negative then -n else n
  if -0x8000000000000000 ≤ i ∧ i < 0x8000000000000000 then .int i else .real

/-- What a value is as the value of an expression: a value that holds others is its written form.
Hexadecimal digits are the bits of an integer of 64 bits with a sign; more of them are no value. -/
def scalar? : LooseJson → Option Scalar
  | .null => some .null
  | .bool b => some (.int (if b then 1 else 0))
  | .decimal negative digits => some (decimalScalar negative digits)
  | .hexadecimal negative digits =>
    if (digits.dropWhile (· = '0')).length ≤ 16 then
      let i := (hexValue digits : Int).bmod 0x10000000000000000
      some (.int ((if negative then -i else i).bmod 0x10000000000000000))
    else none
  | .real _ => some .real
  | .text pieces => some (.text (TextPiece.points pieces))
  | .array js => some (.text ((written (.array js)).map Char.toNat))
  | .object fs => some (.text ((written (.object fs)).map Char.toNat))

/-- The values that a value gives one by one: items, values of fields, or itself. -/
def eachValue : LooseJson → List LooseJson
  | .array js => js
  | .object fs => fs.map Prod.snd
  | j => [j]

/-- The number of items of a value; one that is no array has none. -/
def arrayLength : LooseJson → Nat
  | .array js => js.length
  | _ => 0

/-- Holds of the pieces of a name; a code point of zero ends a name. -/
def isName (name : String) (pieces : List TextPiece) : Bool :=
  (TextPiece.points pieces).takeWhile (· ≠ 0) == name.toList.map Char.toNat

/-- The first field of an object with a name. -/
def field? (j : LooseJson) (name : String) : Option LooseJson :=
  match j with
  | .object fs => (fs.find? fun f => isName name f.1).map Prod.snd
  | _ => none

/-- Whether one of the values is a text, or nothing if a value before it is none. -/
def someIsText (s : String) : List LooseJson → Option Bool
  | [] => some false
  | j :: js =>
    match j.scalar? with
    | none => none
    | some value =>
      if value = .text (s.toList.map Char.toNat) then some true else someIsText s js

end LooseJson

end Multipass.Relational
