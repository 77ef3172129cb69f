import Multipass.Json.Basic
import Multipass.Text.Utf8

/-!
# Reading JSON text

A value is read from the front of a text. What is wrong with a text is a fault: its kind and the
place where reading stopped, which counts lines from one and the bytes of a line from one.

Arrays and objects nest at most 127 levels. Integers that fit in 64 bits keep their value; the
digits of any other number are gathered into 64 bits as long as they fit, and the number is that
significand, rounded to a double, times or divided by the rounded power of ten.
-/

namespace Multipass.Json

open Number Text

/-- What is wrong with a text. -/
inductive FaultKind where
  | eofValue
  | eofList
  | eofObject
  | eofString
  | expectedValue
  | expectedIdent
  | expectedColon
  | expectedCommaOrBracket
  | expectedCommaOrBrace
  | keyMustBeString
  | trailingComma
  | trailingCharacters
  | invalidNumber
  | numberOutOfRange
  | invalidEscape
  | loneSurrogate
  | unexpectedEndOfHex
  | controlCharacter
  | recursionLimit
  /-- A value that is not of the kind asked for, with the words for it. -/
  | unsuited (words : String)
  deriving DecidableEq, Repr

/-- The words for a fault. -/
def FaultKind.message : FaultKind → String
  | .eofValue => "EOF while parsing a value"
  | .eofList => "EOF while parsing a list"
  | .eofObject => "EOF while parsing an object"
  | .eofString => "EOF while parsing a string"
  | .expectedValue => "expected value"
  | .expectedIdent => "expected ident"
  | .expectedColon => "expected `:`"
  | .expectedCommaOrBracket => "expected `,` or `]`"
  | .expectedCommaOrBrace => "expected `,` or `\x7d`"
  | .keyMustBeString => "key must be a string"
  | .trailingComma => "trailing comma"
  | .trailingCharacters => "trailing characters"
  | .invalidNumber => "invalid number"
  | .numberOutOfRange => "number out of range"
  | .invalidEscape => "invalid escape"
  | .loneSurrogate => "lone leading surrogate in hex escape"
  | .unexpectedEndOfHex => "unexpected end of hex escape"
  | .controlCharacter => "control character (\\u0000-\\u001F) found while parsing a string"
  | .recursionLimit => "recursion limit exceeded"
  | .unsuited words => words

/-- A fault and its place: the text that is left, and the bytes of it that belong to the fault. -/
structure Fault where
  kind : FaultKind
  rest : List Char
  bytes : Nat
  deriving Repr

/-- Reads a value from the front of a text and leaves the rest. -/
abbrev Reader (α : Type) := List Char → Except Fault (α × List Char)

/-- A fault in front of the text that is left. -/
def before (kind : FaultKind) (rest : List Char) : Fault :=
  ⟨kind, rest, 0⟩

/-- A fault at the first byte of the text that is left. -/
def here (kind : FaultKind) (rest : List Char) : Fault :=
  ⟨kind, rest, 1⟩

/-- The blanks of JSON. -/
def isSpace (c : Char) : Bool :=
  c = ' ' || c = '\n' || c = '\t' || c = '\r'

/-- The text behind its blanks. -/
def skipSpace (s : List Char) : List Char :=
  s.dropWhile isSpace

/-- Reads the letters of a literal behind the first. -/
def literal (value : Json) : (letters : List Char) → Reader Json
  | [], s => .ok (value, s)
  | _ :: _, [] => .error (before .eofValue [])
  | l :: ls, c :: s => if c = l then literal value ls s else .error (here .expectedIdent (c :: s))

/-! ### Numbers -/

/-- The greatest significand. -/
def maxSignificand : Nat := 0xffffffffffffffff

/-- The value of a decimal digit. -/
def digitValue (c : Char) : Nat := c.toNat - 48

/-- Gathers digits into a significand while it fits: the significand, the number of digits taken,
and the number of digits left out. -/
def gather (significand : Nat) : List Char → Nat × Nat × Nat
  | [] => (significand, 0, 0)
  | d :: ds =>
    let next := significand * 10 + digitValue d
    if maxSignificand < next then (significand, 0, ds.length + 1)
    else
      let (result, taken, left) := gather next ds
      (result, taken + 1, left)

/-- The greatest exponent that is kept as a number. -/
def maxExponent : Nat := 0x7fffffff

/-- The digits of an exponent as a number, or, when it grows beyond the greatest one, what follows
the digit at which it does. -/
def exponentDigits (value : Nat) : List Char → Except (List Char) (Nat × List Char)
  | [] => .ok (value, [])
  | c :: s =>
    if c.isDigit then
      let next := value * 10 + digitValue c
      if maxExponent < next then .error s else exponentDigits next s
    else .ok (value, c :: s)

/-- The power of ten as a double. -/
def powerOfTen (n : Nat) : Double :=
  Double.ofNat (Nat.pow 10 n)

/-- Divides by a power of ten, by no more than `10 ^ 308` at once. -/
def scaleDown (x : Double) (exponent : Nat) : Double :=
  if exponent ≤ 308 then x.div (powerOfTen exponent)
  else if x.isZero then x
  else scaleDown (x.div (powerOfTen 308)) (exponent - 308)
termination_by exponent

/-- The double of a significand and a decimal exponent, or nothing when it is too large. -/
def scale? (significand : Nat) (exponent : Int) : Option Double :=
  let x := Double.ofNat significand
  if exponent < 0 then some (scaleDown x (-exponent).toNat)
  else if 308 < exponent then if x.isZero then some x else none
  else
    let y := Binary.mul .double x (powerOfTen exponent.toNat)
    if y.isInfinite then none else some y

/-- A double with its sign, in front of the text that is left. -/
def floatReading (negative : Bool) (significand : Nat) (exponent : Int) (rest : List Char) :
    Except Fault (Json × List Char) :=
  match scale? significand exponent with
  | some x => .ok (.float (if negative then x.neg else x), rest)
  | none => .error (before .numberOutOfRange rest)

/-- Reads an exponent behind its letter. -/
def exponent (negative : Bool) (significand : Nat) (start : Int) (s : List Char) :
    Except Fault (Json × List Char) :=
  let (down, s) := match s with
    | '+' :: s => (false, s)
    | '-' :: s => (true, s)
    | s => (false, s)
  match s with
  | [] => .error (before .eofValue [])
  | c :: rest =>
    if c.isDigit then
      match exponentDigits (digitValue c) rest with
      | .ok (e, rest) =>
        floatReading negative significand (if down then start - e else start + e) rest
      | .error rest =>
        if significand != 0 && !down then .error (before .numberOutOfRange rest)
        else .ok (.float (Binary.zero .double negative), rest.dropWhile Char.isDigit)
    else .error (here .invalidNumber s)

/-- Reads what follows the digits of a number: the exponent letter, or nothing that belongs to
it. -/
def afterDigits (negative : Bool) (significand : Nat) (start : Int) (s : List Char) :
    Except Fault (Json × List Char) :=
  match s with
  | 'e' :: s => exponent negative significand start s
  | 'E' :: s => exponent negative significand start s
  | s => floatReading negative significand start s

/-- Reads a fraction behind its point. -/
def fraction (negative : Bool) (significand : Nat) (start : Int) (s : List Char) :
    Except Fault (Json × List Char) :=
  let ds := s.takeWhile Char.isDigit
  let rest := s.dropWhile Char.isDigit
  match ds, rest with
  | [], [] => .error (before .eofValue [])
  | [], rest => .error (here .invalidNumber rest)
  | ds, rest =>
    let (significand, taken, _) := gather significand ds
    afterDigits negative significand (start - taken) rest

/-- An integer within 64 bits; the negative zero and integers below them are doubles. -/
def integer (negative : Bool) (n : Nat) : Json :=
  if !negative then .int n
  else if n = 0 ∨ 0x8000000000000000 < n then .float (Double.ofNat n).neg
  else .int (-n)

/-- Reads a number behind its sign. -/
def number (negative : Bool) (s : List Char) :
    Except Fault (Json × List Char) :=
  match s with
  | [] => .error (before .eofValue [])
  | c :: rest =>
    if !c.isDigit then .error (here .invalidNumber s)
    else
      let ds := if c = '0' then ['0'] else s.takeWhile Char.isDigit
      let rest := if c = '0' then rest else s.dropWhile Char.isDigit
      match rest with
      | d :: _ =>
        if c = '0' ∧ d.isDigit then .error (here .invalidNumber rest)
        else finish ds rest
      | [] => finish ds rest
where
  /-- Reads what follows the digits before the point. -/
  finish (ds rest : List Char) : Except Fault (Json × List Char) :=
    let (significand, _, left) := gather 0 ds
    match rest with
    | '.' :: rest => fraction negative significand left rest
    | 'e' :: rest => exponent negative significand left rest
    | 'E' :: rest => exponent negative significand left rest
    | rest =>
      if left = 0 then .ok (integer negative significand, rest)
      else floatReading negative significand left rest

/-! ### Strings -/

/-- The value of a hexadecimal digit. -/
def hexValue? (c : Char) : Option Nat :=
  let n := c.toNat
  if 48 ≤ n ∧ n ≤ 57 then some (n - 48)
  else if 97 ≤ n ∧ n ≤ 102 then some (n - 87)
  else if 65 ≤ n ∧ n ≤ 70 then some (n - 55)
  else none

/-- Reads four hexadecimal digits. -/
def hexEscape (s : List Char) : Except Fault (Nat × List Char) :=
  if byteCount s < 4 then .error (before .eofString [])
  else
    match s with
    | a :: b :: c :: d :: rest =>
      match hexValue? a, hexValue? b, hexValue? c, hexValue? d with
      | some a, some b, some c, some d => .ok (((a * 16 + b) * 16 + c) * 16 + d, rest)
      | _, _, _, _ => .error ⟨.invalidEscape, s, 4⟩
    | s => .error ⟨.invalidEscape, s, 4⟩

/-- Reads a code point in hexadecimal digits; one above `U+FFFF` takes two escapes. -/
def unicodeEscape (s : List Char) : Except Fault (Char × List Char) := do
  let (n, rest) ← hexEscape s
  if 0xdc00 ≤ n ∧ n ≤ 0xdfff then .error (before .loneSurrogate rest)
  else if n < 0xd800 ∨ 0xdbff < n then .ok (Char.ofNat n, rest)
  else
    match rest with
    | [] => .error (before .eofString [])
    | '\\' :: [] => .error (before .eofString [])
    | '\\' :: 'u' :: rest =>
      let (low, rest) ← hexEscape rest
      if low < 0xdc00 ∨ 0xdfff < low then .error (before .loneSurrogate rest)
      else .ok (Char.ofNat ((n - 0xd800) * 1024 + (low - 0xdc00) + 0x10000), rest)
    | '\\' :: rest => .error (here .unexpectedEndOfHex rest)
    | rest => .error (here .unexpectedEndOfHex rest)

/-- Reads an escape behind its backslash. -/
def escape (s : List Char) : Except Fault (Char × List Char) :=
  match s with
  | [] => .error (before .eofString [])
  | c :: rest =>
    if c = '"' then .ok ('"', rest)
    else if c = '\\' then .ok ('\\', rest)
    else if c = '/' then .ok ('/', rest)
    else if c = 'b' then .ok ('\x08', rest)
    else if c = 'f' then .ok ('\x0c', rest)
    else if c = 'n' then .ok ('\n', rest)
    else if c = 'r' then .ok ('\r', rest)
    else if c = 't' then .ok ('\t', rest)
    else if c = 'u' then unicodeEscape rest
    else .error (here .invalidEscape s)

/-- Reads the characters of a string behind its opening quote; `fuel` bounds their number. -/
def characters : (fuel : Nat) → Reader (List Char)
  | 0, s => .error (before .eofString s)
  | _ + 1, [] => .error (before .eofString [])
  | fuel + 1, c :: s => do
    if c = '"' then .ok ([], s)
    else if c = '\\' then
      let (e, rest) ← escape s
      let (cs, rest) ← characters fuel rest
      .ok (e :: cs, rest)
    else if c.toNat < 0x20 then .error (here .controlCharacter (c :: s))
    else
      let (cs, rest) ← characters fuel s
      .ok (c :: cs, rest)

/-- Reads a string behind its opening quote. -/
def string (s : List Char) : Except Fault (String × List Char) := do
  let (cs, rest) ← characters (s.length + 1) s
  .ok (String.ofList cs, rest)

/-! ### Values -/

/-- Reads the items of an array, given a reader of values, from where an item must stand; `fuel`
bounds their number. -/
def items {α : Type} (value : Reader α) : (fuel : Nat) → Reader (List α)
  | 0, s => .error (before .eofList s)
  | fuel + 1, s => do
    let (j, rest) ← value s
    match skipSpace rest with
    | [] => .error (before .eofList [])
    | ']' :: rest => .ok ([j], rest)
    | ',' :: rest =>
      match skipSpace rest with
      | [] => .error (before .eofValue [])
      | ']' :: rest => .error (here .trailingComma (']' :: rest))
      | rest =>
        let (js, rest) ← items value fuel rest
        .ok (j :: js, rest)
    | rest => .error (here .expectedCommaOrBracket rest)

/-- Reads an array behind its bracket, given a reader of values. -/
def array {α : Type} (value : Reader α) (s : List Char) : Except Fault (List α × List Char) :=
  match skipSpace s with
  | [] => .error (before .eofList [])
  | ']' :: rest => .ok ([], rest)
  | s => items value s.length s

/-- Reads the fields of an object from behind the opening quote of a key, and gathers them:
`field` is asked at the end of each key for the reader of its value, which adds it to what has been
gathered; `fuel` bounds their number. -/
def members {α : Type} (field : α → String → List Char → Except Fault (Reader α)) :
    (fuel : Nat) → (gathered : α) → Reader α
  | 0, _, s => .error (before .eofObject s)
  | fuel + 1, gathered, s => do
    let (key, rest) ← string s
    let value ← field gathered key rest
    match skipSpace rest with
    | [] => .error (before .eofObject [])
    | ':' :: rest =>
      let (gathered, rest) ← value rest
      match skipSpace rest with
      | [] => .error (before .eofObject [])
      | '\x7d' :: rest => .ok (gathered, rest)
      | ',' :: rest =>
        match skipSpace rest with
        | [] => .error (before .eofValue [])
        | '"' :: rest => members field fuel gathered rest
        | '\x7d' :: rest => .error (here .trailingComma ('\x7d' :: rest))
        | rest => .error (here .keyMustBeString rest)
      | rest => .error (here .expectedCommaOrBrace rest)
    | rest => .error (here .expectedColon rest)

/-- Reads an object behind its brace, given what is gathered without fields. -/
def object {α : Type} (field : α → String → List Char → Except Fault (Reader α)) (empty : α)
    (s : List Char) : Except Fault (α × List Char) :=
  match skipSpace s with
  | [] => .error (before .eofObject [])
  | '\x7d' :: rest => .ok (empty, rest)
  | '"' :: rest => members field (rest.length + 1) empty rest
  | rest => .error (here .keyMustBeString rest)

/-- Sets a field to the value that a reader reads. -/
def setField (value : Reader Json) (fields : List (String × Json)) (key : String)
    (_ : List Char) : Except Fault (Reader (List (String × Json))) :=
  .ok fun s => do
    let (j, rest) ← value s
    .ok (insertField key j fields, rest)

/-- Reads a value within `depth` levels of nesting. -/
def value : (depth : Nat) → Reader Json
  | depth, s =>
    match skipSpace s with
    | [] => .error (before .eofValue [])
    | 'n' :: rest => literal .null ['u', 'l', 'l'] rest
    | 't' :: rest => literal (.bool true) ['r', 'u', 'e'] rest
    | 'f' :: rest => literal (.bool false) ['a', 'l', 's', 'e'] rest
    | '-' :: rest => number true rest
    | '"' :: rest => do
      let (s, rest) ← string rest
      .ok (.str s, rest)
    | '[' :: rest =>
      match depth with
      | 0 => .error (here .recursionLimit ('[' :: rest))
      | depth + 1 => do
        let (js, rest) ← array (value depth) rest
        .ok (.arr js, rest)
    | '\x7b' :: rest =>
      match depth with
      | 0 => .error (here .recursionLimit ('\x7b' :: rest))
      | depth + 1 => do
        let (fields, rest) ← object (setField (value depth)) [] rest
        .ok (.obj fields, rest)
    | c :: rest =>
      if c.isDigit then number false (c :: rest) else .error (here .expectedValue (c :: rest))

/-- The levels that arrays and objects may nest. -/
def maxDepth : Nat := 127

/-- Reads a value from the front of a text; what follows it is left. -/
def first (s : List Char) :
    Except Fault (Json × List Char) :=
  value maxDepth s

/-- Reads a text in which nothing but blanks follows what a reader reads. -/
def entire {α : Type} (read : Reader α) (s : List Char) : Except Fault α := do
  let (a, rest) ← read s
  match skipSpace rest with
  | [] => .ok a
  | rest => .error (here .trailingCharacters rest)

/-- Reads a text that is one value. -/
def whole (s : List Char) : Except Fault Json :=
  entire first s

/-! ### Places -/

/-- The line and the byte in it that end a sequence of bytes. -/
def position (bytes : List UInt8) : Nat × Nat :=
  bytes.foldl (fun p b => if b == 10 then (p.1 + 1, 0) else (p.1, p.2 + 1)) (1, 0)

/-- The words for a fault in a text, with its place. -/
def Fault.message (text : String) (fault : Fault) : String :=
  let bytes := text.toUTF8.toList
  let stop := bytes.length - byteCount fault.rest + fault.bytes
  let (line, column) := position (bytes.take stop)
  s!"{fault.kind.message} at line {line} column {column}"

/-- Reads a text that is one value. -/
def parse (text : String) : Except Fault Json :=
  whole text.toList

/-- Reads a text that is nothing but what a reader reads, with the words for what is wrong with
it. -/
def parseAs {α : Type} (read : Reader α) (text : String) : Except String α :=
  (entire read text.toList).mapError (Fault.message text)

/-- Reads a text that is one value, with the words for what is wrong with it. -/
def parseNamed (text : String) : Except String Json :=
  parseAs first text

end Multipass.Json
