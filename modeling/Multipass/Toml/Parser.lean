import Multipass.Toml.Value
import Multipass.Text.Find

/-!
# Reading TOML

Version 1.0 of the notation. A text either is a document or is not; what is wrong with it is not
told. Integers have 64 bits with a sign, floats are doubles, and dates must exist.
-/

namespace Multipass.Toml

open Number Text

/-- Reads a value from the front of a text and leaves the rest. -/
abbrev Reader (α : Type) := List Char → Option (α × List Char)

/-! ### Blanks and lines -/

/-- A blank within a line. -/
def isSpace (c : Char) : Bool :=
  c = ' ' || c = '\t'

/-- A character that a comment may hold. -/
def isComment (c : Char) : Bool :=
  c = '\t' || (0x20 ≤ c.toNat && c.toNat != 0x7f)

/-- The text behind its blanks. -/
def skipSpace (s : List Char) : List Char :=
  s.dropWhile isSpace

/-- The text behind a comment, if there is one. -/
def skipComment : List Char → List Char
  | '#' :: s => s.dropWhile isComment
  | s => s

/-- The text behind a line break. -/
def lineBreak? : List Char → Option (List Char)
  | '\n' :: s => some s
  | '\r' :: '\n' :: s => some s
  | _ => none

/-- The text behind the end of a line: blanks, a comment, and a line break or the end of all. -/
def lineEnd? (s : List Char) : Option (List Char) :=
  match skipComment (skipSpace s) with
  | [] => some []
  | s => lineBreak? s

/-- The text behind blanks, comments, and line breaks; `fuel` bounds their number. -/
def skipLines : (fuel : Nat) → List Char → List Char
  | 0, s => s
  | fuel + 1, s =>
    match skipComment (skipSpace s) with
    | '\n' :: s => skipLines fuel s
    | '\r' :: '\n' :: s => skipLines fuel s
    | s => s

/-- The text behind blanks, comments, and line breaks. -/
def skipAll (s : List Char) : List Char :=
  skipLines (s.length + 1) s

/-! ### Strings -/

/-- The value of hexadecimal digits. -/
def hexValue? (digits : List Char) : Option Nat :=
  digits.foldlM
    (fun n c =>
      if c.isDigit then some (n * 16 + (c.toNat - 48))
      else if 'a' ≤ c ∧ c ≤ 'f' then some (n * 16 + (c.toNat - 87))
      else if 'A' ≤ c ∧ c ≤ 'F' then some (n * 16 + (c.toNat - 55))
      else none)
    0

/-- Reads the code point of an escape in `width` hexadecimal digits. -/
def codePoint? (width : Nat) (s : List Char) : Option (Char × List Char) := do
  let digits := s.take width
  if digits.length < width then none
  else
    let n ← hexValue? digits
    if n < 0xd800 ∨ (0xdfff < n ∧ n < 0x110000) then some (Char.ofNat n, s.drop width) else none

/-- Reads an escape behind its backslash. -/
def escape? : Reader Char
  | 'b' :: s => some ('\x08', s)
  | 't' :: s => some ('\t', s)
  | 'n' :: s => some ('\n', s)
  | 'f' :: s => some ('\x0c', s)
  | 'r' :: s => some ('\r', s)
  | '"' :: s => some ('"', s)
  | '\\' :: s => some ('\\', s)
  | 'u' :: s => codePoint? 4 s
  | 'U' :: s => codePoint? 8 s
  | _ => none

/-- A character that stands for itself within a line of a string. -/
def isPlain (c : Char) : Bool :=
  c = '\t' || (0x20 ≤ c.toNat && c.toNat != 0x7f)

/-- Reads the characters of a string in double quotes, behind the opening one. -/
def basic? : (fuel : Nat) → Reader (List Char)
  | 0, _ => none
  | _ + 1, [] => none
  | fuel + 1, c :: s => do
    if c = '"' then some ([], s)
    else if c = '\\' then
      let (e, s) ← escape? s
      let (cs, s) ← basic? fuel s
      some (e :: cs, s)
    else if isPlain c then
      let (cs, s) ← basic? fuel s
      some (c :: cs, s)
    else none

/-- Reads the characters of a string in single quotes, behind the opening one. -/
def literal? : Reader (List Char)
  | [] => none
  | c :: s =>
    if c = '\'' then some ([], s)
    else if isPlain c then (literal? s).map fun (cs, s) => (c :: cs, s)
    else none

/-- The text behind blanks and line breaks. -/
def skipBreaks : List Char → List Char
  | '\r' :: '\n' :: s => skipBreaks s
  | c :: s => if isSpace c || c = '\n' then skipBreaks s else c :: s
  | [] => []

/-- The text behind a backslash at the end of a line, with the blanks and line breaks after it. -/
def continuation? (s : List Char) : Option (List Char) :=
  (lineBreak? (skipSpace s)).map skipBreaks

/-- Reads what ends a string in triple quotes: the quotes that belong to the string, of the three
to five that stand there. -/
def closing? (quote : Char) (s : List Char) : Option (List Char × List Char) :=
  let quotes := s.takeWhile (· == quote)
  if quotes.length < 3 then none
  else
    let extra := min (quotes.length - 3) 2
    some (List.replicate extra quote, s.drop (extra + 3))

/-- Reads the characters of a string in triple quotes, behind its opening; escapes count only
among double quotes. -/
def multiline? (quote : Char) : (fuel : Nat) → Reader (List Char)
  | 0, _ => none
  | _ + 1, [] => none
  | fuel + 1, c :: s => do
    match closing? quote (c :: s) with
    | some r => some r
    | none =>
      if c = '\\' ∧ quote = '"' then
        match continuation? s with
        | some s => multiline? quote fuel s
        | none =>
          let (e, s) ← escape? s
          let (cs, s) ← multiline? quote fuel s
          some (e :: cs, s)
      else
        match lineBreak? (c :: s) with
        | some s =>
          let (cs, s) ← multiline? quote fuel s
          some ('\n' :: cs, s)
        | none =>
          if isPlain c then
            let (cs, s) ← multiline? quote fuel s
            some (c :: cs, s)
          else none

/-- The text behind a line break that follows an opening. -/
def skipFirstBreak (s : List Char) : List Char :=
  (lineBreak? s).getD s

/-- Reads a string. -/
def string? (s : List Char) : Option (String × List Char) := do
  let (cs, s) ← match s with
    | '"' :: '"' :: '"' :: s => multiline? '"' (s.length + 1) (skipFirstBreak s)
    | '\'' :: '\'' :: '\'' :: s => multiline? '\'' (s.length + 1) (skipFirstBreak s)
    | '"' :: s => basic? (s.length + 1) s
    | '\'' :: s => literal? s
    | _ => none
  some (String.ofList cs, s)

/-! ### Keys -/

/-- A character of a key without quotes. -/
def isBare (c : Char) : Bool :=
  c.isAlphanum || c = '_' || c = '-'

/-- Reads one part of a key. -/
def simpleKey? (s : List Char) : Option (String × List Char) :=
  match s with
  | '"' :: rest => (basic? (rest.length + 1) rest).map fun (cs, s) => (String.ofList cs, s)
  | '\'' :: rest => (literal? rest).map fun (cs, s) => (String.ofList cs, s)
  | s =>
    let bare := s.takeWhile isBare
    if bare.isEmpty then none else some (String.ofList bare, s.dropWhile isBare)

/-- Reads the parts of a key between points, with the blanks around it. -/
def keyParts? : (fuel : Nat) → Reader (List String)
  | 0, _ => none
  | fuel + 1, s => do
    let (part, s) ← simpleKey? (skipSpace s)
    match skipSpace s with
    | '.' :: s =>
      let (parts, s) ← keyParts? fuel s
      some (part :: parts, s)
    | s => some ([part], s)

/-- The levels that values and keys may nest. -/
def maxDepth : Nat := 79

/-- Reads a key: the parts before the last, and the last. -/
def key? (s : List Char) : Option ((List String × String) × List Char) := do
  let (parts, s) ← keyParts? (s.length + 1) s
  if maxDepth < parts.length then none
  else
    let last ← parts.getLast?
    some ((parts.dropLast, last), s)

/-! ### Numbers and dates -/

/-- Reads digits with single underscores between them. -/
def digits? (isDigit : Char → Bool) : Reader (List Char)
  | [] => none
  | c :: s =>
    if isDigit c then
      match s with
      | '_' :: s => (digits? isDigit s).map fun (ds, s) => (c :: ds, s)
      | s =>
        match digits? isDigit s with
        | some (ds, s) => some (c :: ds, s)
        | none => if s.head?.any isDigit then none else some ([c], s)
    else none

/-- The value of decimal digits. -/
def decimalValue (ds : List Char) : Nat :=
  ds.foldl (fun n c => n * 10 + (c.toNat - 48)) 0

/-- Reads a sign. -/
def sign : List Char → Bool × List Char
  | '-' :: s => (true, s)
  | '+' :: s => (false, s)
  | s => (false, s)

/-- Reads the digits of a decimal integer; only zero itself starts with a zero. -/
def integerDigits? (s : List Char) : Option (List Char × List Char) :=
  match s with
  | '0' :: s => some (['0'], s)
  | s => digits? Char.isDigit s

/-- Reads an exponent, if there is one. -/
def exponent? (s : List Char) : Option (Option Int × List Char) :=
  match s with
  | c :: rest =>
    if c = 'e' ∨ c = 'E' then do
      let (negative, rest) := sign rest
      let (ds, rest) ← digits? Char.isDigit rest
      let n : Int := decimalValue ds
      some (some (if negative then -n else n), rest)
    else some (none, s)
  | [] => some (none, s)

/-- A double from its digits. An exponent beyond all doubles decides by itself. -/
def doubleOf (negative : Bool) (digits : List Char) (point exponent : Int) : Double :=
  let n := decimalValue digits
  if n = 0 then Binary.zero .double negative
  else
    let magnitude := (digits.dropWhile (· == '0')).length + point + exponent
    if 400 < magnitude then .infinite negative
    else if magnitude < -400 then Binary.zero .double negative
    else Binary.ofDecimal .double negative n (point + exponent)

/-- Reads the words for the numbers that have no digits. -/
def special? (negative : Bool) : Reader Value
  | 'i' :: 'n' :: 'f' :: s => some (.float (.infinite negative), s)
  | 'n' :: 'a' :: 'n' :: s => some (.float .nan, s)
  | _ => none

/-- An integer of 64 bits. -/
def int64? (i : Int) : Option Value :=
  if -0x8000000000000000 ≤ i ∧ i < 0x8000000000000000 then some (.int i) else none

/-- Reads an integer or a float. Too large a float is refused when it is positive. -/
def number? (s : List Char) : Option (Value × List Char) := do
  let (negative, body) := sign s
  match special? negative body with
  | some r => some r
  | none =>
    let (whole, rest) ← integerDigits? body
    let (fraction, rest) ← match rest with
      | '.' :: rest => (digits? Char.isDigit rest).map fun (ds, rest) => (some ds, rest)
      | rest => some (none, rest)
    let (exponent, rest) ← exponent? rest
    match fraction, exponent with
    | none, none =>
      let n : Int := decimalValue whole
      let v ← int64? (if negative then -n else n)
      some (v, rest)
    | fraction, exponent =>
      let places := fraction.getD []
      let x := doubleOf negative (whole ++ places) (-places.length) (exponent.getD 0)
      if x == .infinite false then none else some (.float x, rest)

/-- Reads an integer with a base, behind the letter of the base. -/
def based? (base : Nat) (isDigit : Char → Bool) (s : List Char) : Option (Value × List Char) := do
  let (ds, s) ← digits? isDigit s
  let n := ds.foldl
    (fun n c => n * base + (if c.isDigit then c.toNat - 48 else (c.toLower).toNat - 87)) 0
  let v ← int64? n
  some (v, s)

/-- A hexadecimal digit. -/
def isHex (c : Char) : Bool :=
  c.isDigit || ('a' ≤ c && c ≤ 'f') || ('A' ≤ c && c ≤ 'F')

/-- Reads a number of `width` digits within bounds. -/
def field? (width low high : Nat) (s : List Char) : Option (Nat × List Char) :=
  let ds := s.take width
  let n := decimalValue ds
  if ds.length = width ∧ ds.all Char.isDigit ∧ low ≤ n ∧ n ≤ high then some (n, s.drop width)
  else none

/-- The days of a month. -/
def daysOf (year month : Nat) : Nat :=
  if month = 2 then
    if year % 4 = 0 ∧ (year % 100 ≠ 0 ∨ year % 400 = 0) then 29 else 28
  else if month = 4 ∨ month = 6 ∨ month = 9 ∨ month = 11 then 30
  else 31

/-- The text behind one character. -/
def expect? (c : Char) : List Char → Option (List Char)
  | d :: s => if d = c then some s else none
  | [] => none

/-- The text behind a date. -/
def date? (s : List Char) : Option (List Char) := do
  let (year, s) ← field? 4 0 9999 s
  let s ← expect? '-' s
  let (month, s) ← field? 2 1 12 s
  let s ← expect? '-' s
  let (_, s) ← field? 2 1 (daysOf year month) s
  some s

/-- The text behind a time of day. -/
def time? (s : List Char) : Option (List Char) := do
  let (_, s) ← field? 2 0 23 s
  let s ← expect? ':' s
  let (_, s) ← field? 2 0 59 s
  let s ← expect? ':' s
  let (_, s) ← field? 2 0 60 s
  match s with
  | '.' :: rest =>
    if rest.head?.any Char.isDigit then some (rest.dropWhile Char.isDigit) else none
  | s => some s

/-- The text behind an offset from UTC, if there is one. -/
def offset? (s : List Char) : Option (List Char) :=
  match s with
  | 'Z' :: s => some s
  | 'z' :: s => some s
  | c :: rest =>
    if c = '+' ∨ c = '-' then do
      let (_, rest) ← field? 2 0 23 rest
      let rest ← expect? ':' rest
      let (_, rest) ← field? 2 0 59 rest
      some rest
    else some s
  | [] => some []

/-- Reads a date, a time of day, or both. -/
def dateTime? (s : List Char) : Option (Value × List Char) :=
  match date? s with
  | some rest =>
    match rest with
    | c :: after =>
      if c = 'T' ∨ c = 't' ∨ c = ' ' then
        match time? after with
        | some after => (offset? after).map fun rest => (.date, rest)
        | none => some (.date, rest)
      else some (.date, rest)
    | [] => some (.date, [])
  | none => (time? s).map fun rest => (.date, rest)

/-- Reads a number or a date. -/
def numeric? (s : List Char) : Option (Value × List Char) :=
  match dateTime? s with
  | some r => some r
  | none =>
    match s with
    | '0' :: 'x' :: rest => based? 16 isHex rest
    | '0' :: 'o' :: rest => based? 8 (fun c => '0' ≤ c && c ≤ '7') rest
    | '0' :: 'b' :: rest => based? 2 (fun c => c = '0' || c = '1') rest
    | s => number? s

/-! ### Values -/

/-- Reads the items of an array behind its bracket, given a reader of values. -/
def items? (value : Reader Value) : (fuel : Nat) → Reader (List Value)
  | 0, _ => none
  | fuel + 1, s =>
    match skipAll s with
    | ']' :: s => some ([], s)
    | s => do
      let (v, s) ← value s
      match skipAll s with
      | ']' :: s => some ([v], s)
      | ',' :: s =>
        let (vs, s) ← items? value fuel s
        some (v :: vs, s)
      | _ => none

/-- Reads a key, an equals sign, and a value, given a reader of values. -/
def pair? (value : Reader Value) (s : List Char) :
    Option ((List String × String × Value) × List Char) := do
  let ((path, key), s) ← key? s
  let s ← expect? '=' s
  let (v, s) ← value (skipSpace s)
  some ((path, key, v), s)

/-- Reads the entries of an inline table, given a reader of values, and adds them to those that are
there. -/
def inlineEntries? (value : Reader Value) : (fuel : Nat) → Entries → Reader Entries
  | 0, _, _ => none
  | fuel + 1, entries, s => do
    let ((path, key, v), s) ← pair? value s
    let entries ← insert path key v .header entries
    match skipSpace s with
    | '\x7d' :: s => some (entries, s)
    | ',' :: s => inlineEntries? value fuel entries s
    | _ => none

/-- Reads a value that nests at most `depth` levels. -/
def value? : (depth : Nat) → Reader Value
  | depth, s =>
    match s with
    | '[' :: rest =>
      match depth with
      | 0 => none
      | depth + 1 => (items? (value? depth) (rest.length + 1) rest).map fun (vs, s) => (.array vs, s)
    | '\x7b' :: rest =>
      match depth with
      | 0 => none
      | depth + 1 =>
        match skipSpace rest with
        | '\x7d' :: s => some (.inline [], s)
        | s =>
          (inlineEntries? (value? depth) (s.length + 1) [] s).map fun (es, s) => (.inline es, s)
    | 't' :: 'r' :: 'u' :: 'e' :: s => some (.bool true, s)
    | 'f' :: 'a' :: 'l' :: 's' :: 'e' :: s => some (.bool false, s)
    | 'i' :: _ => special? false s
    | 'n' :: _ => special? false s
    | c :: _ =>
      if c = '"' ∨ c = '\'' then (string? s).map fun (t, s) => (.text t, s)
      else if c.isDigit ∨ c = '+' ∨ c = '-' then numeric? s
      else none
    | [] => none

/-! ### Documents -/

/-- A document under reading: its root, and the path of the table that is open. -/
structure Draft where
  root : Entries
  current : List String

/-- Reads a header behind its brackets, up to the closing ones. -/
def header? (doubled : Bool) (p : Draft) (s : List Char) : Option (Draft × List Char) := do
  let ((path, key), s) ← key? s
  let s ← expect? ']' s
  let s ← if doubled then expect? ']' s else some s
  let s ← lineEnd? s
  let root ← if doubled then openElement path key p.root else openTable path key p.root
  some (⟨root, path ++ [key]⟩, s)

/-- Reads a line with a key and a value. -/
def entry? (p : Draft) (s : List Char) : Option (Draft × List Char) := do
  let ((path, key, v), s) ← pair? (value? maxDepth) s
  let s ← lineEnd? s
  let root ← insertWithin p.current path key v p.root
  some (⟨root, p.current⟩, s)

/-- Reads the lines of a document; `fuel` bounds their number. -/
def lines? : (fuel : Nat) → Draft → List Char → Option Entries
  | 0, _, _ => none
  | fuel + 1, p, s =>
    match skipSpace s with
    | [] => some p.root
    | '[' :: '[' :: rest => do
      let (p, s) ← header? true p rest
      lines? fuel p s
    | '[' :: rest => do
      let (p, s) ← header? false p rest
      lines? fuel p s
    | c :: rest =>
      if c = '#' ∨ c = '\n' ∨ c = '\r' then do
        let s ← lineEnd? (c :: rest)
        lines? fuel p s
      else do
        let (p, s) ← entry? p (c :: rest)
        lines? fuel p s

/-- Reads a document; a byte-order mark in front is passed over. -/
def document? (text : String) : Option Entries :=
  let s := text.toList
  let s := match s with
    | c :: rest => if c.toNat = 0xfeff then rest else s
    | [] => []
  lines? (s.length + 1) ⟨[], []⟩ s

/-- Reads a document as a setting. -/
def parse? (text : String) : Option Setting :=
  (document? text).map fun entries => .table (entrySettings entries)

end Multipass.Toml
