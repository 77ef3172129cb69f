import Multipass.Text.Find
import Multipass.Text.Utf8

/-!
# Percent signs

Bytes written as a percent sign and two hexadecimal digits, and the fields of a query in which they
occur. A percent sign without two digits stands for itself.
-/

namespace Multipass.Text

/-- The value of a hexadecimal digit. -/
def hexDigit? (c : Char) : Option Nat :=
  if c.isDigit then some (c.toNat - 48)
  else if 'a' ≤ c ∧ c ≤ 'f' then some (c.toNat - 87)
  else if 'A' ≤ c ∧ c ≤ 'F' then some (c.toNat - 55)
  else none

/-- The bytes of a text with each escape replaced by its byte. -/
def percentBytes : List Char → List UInt8
  | '%' :: a :: b :: s =>
    match hexDigit? a, hexDigit? b with
    | some high, some low => UInt8.ofNat (16 * high + low) :: percentBytes s
    | _, _ => 0x25 :: percentBytes (a :: b :: s)
  | c :: s => encode (String.ofList [c]) ++ percentBytes s
  | [] => []
termination_by s => s.length

/-- A name or a value of a query: a plus sign stands for a blank. -/
def queryText (s : List Char) : String :=
  decodeLossy (percentBytes (s.map fun c => if c = '+' then ' ' else c))

/-- The fields of a query, each a name and a value. -/
def queryFields (s : List Char) : List (String × String) :=
  ((splitOnChar '&' s).filter fun piece => !piece.isEmpty).map fun piece =>
    let name := piece.takeWhile (· ≠ '=')
    (queryText name, queryText ((piece.drop name.length).drop 1))

/-- Where bytes stop being text, from `start` on, `index` bytes behind it: the place of the first
sequence that is none, and its length unless the bytes end within it. -/
def malformedFrom (start index : Nat) : Utf8State → List UInt8 → Option (Nat × Option Nat)
  | .between, [] => none
  | .within .., [] => some (start, none)
  | .between, b :: bs =>
    match openSequence b.toNat with
    | some (.between, _) => malformedFrom (index + 1) (index + 1) .between bs
    | some (state, _) => malformedFrom index (index + 1) state bs
    | none => some (index, some 1)
  | .within owed low high bits, b :: bs =>
    if low ≤ b.toNat && b.toNat ≤ high then
      if owed ≤ 1 then malformedFrom (index + 1) (index + 1) .between bs
      else malformedFrom start (index + 1) (.within (owed - 1) 0x80 0xbf bits) bs
    else some (start, some (index - start))

/-- What is wrong with bytes that are no text. -/
def malformedMessage (bytes : List UInt8) : String :=
  match malformedFrom 0 0 .between bytes with
  | some (start, some n) => s!"invalid utf-8 sequence of {n} bytes from index {start}"
  | some (start, none) => s!"incomplete utf-8 byte sequence from index {start}"
  | none => ""

end Multipass.Text
