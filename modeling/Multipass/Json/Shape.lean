import Multipass.Json.Parser
import Multipass.Json.Printer
import Multipass.Text.Quoted

/-!
# Reading JSON text as something

Readers for texts that must hold a value of a certain kind: a text, a count, an array of such
values, or a shape, which is an object with known fields or the array of their values. The words
for a value of another kind name both what stands there and what is expected.

A field that a shape does not know is skipped. What is skipped has to be JSON, but it may nest
without end, its numbers may have any size, and its texts may hold halves of code points.

Main definitions: `Json.textValue`, `Json.countValue`, `Json.listValue`, and `Shape.read`.
-/

namespace Multipass

namespace Json

open Number Text

/-! ### Values of another kind -/

/-- The words for a value. -/
def describe : Json → String
  | .null => "null"
  | .bool true => "boolean `true`"
  | .bool false => "boolean `false`"
  | .int i => s!"integer `{i}`"
  | .float x => s!"floating point `{(Json.float x).compact}`"
  | .str s => s!"string {showQuoted s}"
  | .arr _ => "sequence"
  | .obj _ => "map"

/-- What is wrong with a value of another kind. -/
def otherKind (found expected : String) : FaultKind :=
  .unsuited s!"invalid type: {found}, expected {expected}"

/-- The fault of a value of another kind than expected. A value that holds others is not read. -/
def refuse {α : Type} (expected : String) (s : List Char) : Except Fault α :=
  match s with
  | '[' :: _ => .error (before (otherKind (describe (.arr [])) expected) s)
  | '\x7b' :: _ => .error (before (otherKind (describe (.obj [])) expected) s)
  | s => do
    let (j, rest) ← value 0 s
    .error (before (otherKind (describe j) expected) rest)

/-- Reads a text. -/
def textValue : Reader String := fun s =>
  match skipSpace s with
  | [] => .error (before .eofValue [])
  | '"' :: rest => string rest
  | s => refuse "a string" s

/-- Reads a natural number within 64 bits. -/
def countValue : Reader Nat := fun s =>
  match skipSpace s with
  | [] => .error (before .eofValue [])
  | c :: rest => do
    if c = '-' ∨ c.isDigit then
      let (j, rest) ← if c = '-' then number true rest else number false (c :: rest)
      match j with
      | .int i =>
        if 0 ≤ i then .ok (i.toNat, rest)
        else .error (before (.unsuited s!"invalid value: {describe j}, expected u64") rest)
      | j => .error (before (otherKind (describe j) "u64") rest)
    else refuse "u64" (c :: rest)

/-- Reads an array of values of one kind. -/
def listValue {α : Type} (item : Reader α) : Reader (List α) := fun s =>
  match skipSpace s with
  | [] => .error (before .eofValue [])
  | '[' :: rest => array item rest
  | s => refuse "a sequence" s

/-! ### Values that are skipped -/

/-- Skips an exponent behind its letter. -/
def skipExponent (s : List Char) : Except Fault (List Char) :=
  let s := match s with
    | '+' :: s => s
    | '-' :: s => s
    | s => s
  match s with
  | [] => .error (before .invalidNumber [])
  | c :: rest =>
    if c.isDigit then .ok (rest.dropWhile Char.isDigit) else .error (here .invalidNumber s)

/-- Skips what follows the digits of a number. -/
def skipTail (s : List Char) : Except Fault (List Char) :=
  match s with
  | 'e' :: s => skipExponent s
  | 'E' :: s => skipExponent s
  | s => .ok s

/-- Skips a number behind its sign. -/
def skipNumber (s : List Char) : Except Fault (List Char) :=
  match s with
  | [] => .error (before .invalidNumber [])
  | c :: rest =>
    if !c.isDigit then .error (here .invalidNumber s)
    else
      let rest := if c = '0' then rest else rest.dropWhile Char.isDigit
      match rest with
      | '.' :: rest =>
        match rest.takeWhile Char.isDigit, rest.dropWhile Char.isDigit with
        | [], [] => .error (before .invalidNumber [])
        | [], rest => .error (here .invalidNumber rest)
        | _, rest => skipTail rest
      | d :: rest =>
        if c = '0' ∧ d.isDigit then .error (here .invalidNumber (d :: rest))
        else skipTail (d :: rest)
      | [] => .ok []

/-- Skips a text behind its opening quote; `fuel` bounds its characters. -/
def skipString : (fuel : Nat) → List Char → Except Fault (List Char)
  | 0, s => .error (before .eofString s)
  | _ + 1, [] => .error (before .eofString [])
  | fuel + 1, c :: s =>
    if c = '"' then .ok s
    else if c = '\\' then
      match s with
      | [] => .error (before .eofString [])
      | e :: rest =>
        if e = 'u' then
          match hexEscape rest with
          | .ok (_, rest) => skipString fuel rest
          | .error fault => .error fault
        else if ['"', '\\', '/', 'b', 'f', 'n', 'r', 't'].contains e then skipString fuel rest
        else .error (here .invalidEscape s)
    else if c.toNat < 0x20 then .error (here .controlCharacter (c :: s))
    else skipString fuel s

/-- What encloses a value. -/
inductive Bracket where
  | list
  | object
  deriving DecidableEq, Repr

/-- What stands next. -/
inductive Awaited where
  /-- A value. -/
  | value
  /-- What follows an opening bracket. -/
  | first
  /-- A field of an object. -/
  | field
  /-- What follows a value. -/
  | next
  deriving DecidableEq, Repr

/-- One step of skipping, within brackets, at a text without blanks in front. -/
def skipStep (brackets : List Bracket) (awaited : Awaited) (s : List Char) :
    Except Fault (List Bracket × Awaited × List Char) :=
  match awaited, brackets, s with
  | .value, _, [] => .error (before .eofValue [])
  | .value, _, 'n' :: rest => scalar (literal .null ['u', 'l', 'l'] rest)
  | .value, _, 't' :: rest => scalar (literal .null ['r', 'u', 'e'] rest)
  | .value, _, 'f' :: rest => scalar (literal .null ['a', 'l', 's', 'e'] rest)
  | .value, _, '"' :: rest => behind (skipString (rest.length + 1) rest)
  | .value, _, '-' :: rest => behind (skipNumber rest)
  | .value, _, '[' :: rest => .ok (.list :: brackets, .first, rest)
  | .value, _, '\x7b' :: rest => .ok (.object :: brackets, .first, rest)
  | .value, _, c :: rest =>
    if c.isDigit then behind (skipNumber (c :: rest)) else .error (here .expectedValue (c :: rest))
  | .first, .list :: _, [] => .error (before .eofList [])
  | .first, .object :: _, [] => .error (before .eofObject [])
  | .first, .list :: outer, ']' :: rest => .ok (outer, .next, rest)
  | .first, .list :: _, s => .ok (brackets, .value, s)
  | .first, .object :: outer, '\x7d' :: rest => .ok (outer, .next, rest)
  | .first, .object :: _, s => .ok (brackets, .field, s)
  | .next, .list :: _, [] => .error (before .eofList [])
  | .next, .object :: _, [] => .error (before .eofObject [])
  | .next, .list :: _, ',' :: rest => .ok (brackets, .value, rest)
  | .next, .list :: outer, ']' :: rest => .ok (outer, .next, rest)
  | .next, .list :: _, s => .error (here .expectedCommaOrBracket s)
  | .next, .object :: _, ',' :: rest => .ok (brackets, .field, rest)
  | .next, .object :: outer, '\x7d' :: rest => .ok (outer, .next, rest)
  | .next, .object :: _, s => .error (here .expectedCommaOrBrace s)
  | .field, _, [] => .error (before .eofObject [])
  | .field, _, '"' :: rest =>
    match skipString (rest.length + 1) rest with
    | .error fault => .error fault
    | .ok rest =>
      match skipSpace rest with
      | [] => .error (before .eofObject [])
      | ':' :: rest => .ok (brackets, .value, rest)
      | rest => .error (here .expectedColon rest)
  | .field, _, s => .error (here .keyMustBeString s)
  | awaited, [], s => .ok ([], awaited, s)
where
  /-- Goes on behind a value. -/
  behind (reading : Except Fault (List Char)) : Except Fault (List Bracket × Awaited × List Char) :=
    match reading with
    | .ok rest => .ok (brackets, .next, rest)
    | .error fault => .error fault
  /-- Goes on behind a literal. -/
  scalar (reading : Except Fault (Json × List Char)) :
      Except Fault (List Bracket × Awaited × List Char) :=
    behind (reading.map Prod.snd)

/-- Skips until no bracket is open and a value lies behind; `fuel` bounds the steps. -/
def skipFrom : (fuel : Nat) → List Bracket → Awaited → Reader Unit
  | 0, _, _, s => .error (before .eofValue s)
  | fuel + 1, brackets, awaited, s =>
    match skipStep brackets awaited (skipSpace s) with
    | .error fault => .error fault
    | .ok ([], .next, rest) => .ok ((), rest)
    | .ok (brackets, awaited, rest) => skipFrom fuel brackets awaited rest

/-- Skips a value. -/
def skipValue : Reader Unit := fun s =>
  skipFrom (2 * s.length + 2) [] .value s

/-! ### Shapes -/

end Json

/-- A kind of objects: the words for it, and its fields in order with their readers. -/
structure Shape where
  title : String
  fields : List (String × Json.Reader Json)

namespace Shape

open Json

/-- The place behind the end of an object that should end here. -/
def behindBrace (s : List Char) : List Char :=
  match skipSpace s with
  | '\x7d' :: rest => rest
  | rest => rest

/-- Adds a field to those that were found; a field that is not known is skipped, and one that was
found before is refused. -/
def addField (shape : Shape) (found : List (String × Json)) (key : String) (s : List Char) :
    Except Fault (Reader (List (String × Json))) :=
  match lookup key shape.fields with
  | none => .ok fun s => do
    let ((), rest) ← skipValue s
    .ok (found, rest)
  | some read =>
    if (Json.lookup key found).isSome then
      .error (before (.unsuited s!"duplicate field `{key}`") (behindBrace s))
    else .ok fun s => do
      let (j, rest) ← read s
      .ok ((key, j) :: found, rest)
where
  /-- The reader of a field. -/
  lookup (key : String) (fields : List (String × Reader Json)) : Option (Reader Json) :=
    (fields.find? fun f => f.1 = key).map Prod.snd

/-- The values of the fields in order, if none is missing. -/
def valuesOf (found : List (String × Json)) : (names : List String) → Except String (List Json)
  | [] => .ok []
  | name :: names =>
    match Json.lookup name found with
    | none => .error name
    | some j => do
      let js ← valuesOf found names
      .ok (j :: js)

/-- Reads the end of an array that should end here. -/
def arrayEnd (s : List Char) : Except Fault (List Char) :=
  match skipSpace s with
  | [] => .error (before .eofList [])
  | ']' :: rest => .ok rest
  | ',' :: rest =>
    match skipSpace rest with
    | [] => .error (before .trailingCharacters [])
    | ']' :: rest => .error (here .trailingComma (']' :: rest))
    | rest => .error (here .trailingCharacters rest)
  | rest => .error (here .trailingCharacters rest)

/-- Reads the values of fields as the items of an array; `i` of them were read before. -/
def itemsFrom (shape : Shape) (i : Nat) : List (String × Reader Json) → Reader (List Json)
  | [], s => do
    let rest ← arrayEnd s
    .ok ([], rest)
  | (_, read) :: fields, s =>
    match skipSpace s with
    | [] => .error (before .eofList [])
    | ']' :: rest =>
      let count := shape.fields.length
      .error (before
        (.unsuited s!"invalid length {i}, expected {shape.title} with {count} elements") rest)
    | c :: rest => do
      let start ←
        if i = 0 then Except.ok (c :: rest)
        else if c = ',' then
          match skipSpace rest with
          | [] => .error (before .eofValue [])
          | ']' :: rest => .error (here .trailingComma (']' :: rest))
          | rest => .ok rest
        else .error (here .expectedCommaOrBracket (c :: rest))
      let (j, rest) ← read start
      let (js, rest) ← itemsFrom shape (i + 1) fields rest
      .ok (j :: js, rest)

/-- Reads the values of the fields, in order. -/
def read (shape : Shape) : Reader (List Json) := fun s =>
  match skipSpace s with
  | [] => .error (before .eofValue [])
  | '[' :: rest => itemsFrom shape 0 shape.fields rest
  | '\x7b' :: rest => do
    let (found, rest) ← object (shape.addField) [] rest
    match valuesOf found (shape.fields.map Prod.fst) with
    | .ok js => .ok (js, rest)
    | .error name => .error (before (.unsuited s!"missing field `{name}`") rest)
  | s => refuse shape.title s

end Shape

end Multipass
