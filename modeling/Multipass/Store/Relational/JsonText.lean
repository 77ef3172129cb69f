import Multipass.Json.Parser
import Multipass.Store.Relational.LooseJson

/-!
# JSON text in columns

How the database itself reads the JSON texts of its columns. Besides JSON it takes comments and
more blanks, a comma behind the last item, names without quotes, strings in single quotes and with
more escapes, and more numbers; a text that is none of this is malformed. A text ends at the first
character of code zero. Values nest at most 1000 levels.
-/

namespace Multipass.Relational

namespace JsonText

/-! ### Blanks -/

/-- The blanks of JSON. -/
def isSpace (c : Char) : Bool :=
  c = ' ' || c = '\n' || c = '\t' || c = '\r'

/-- All characters that count as blanks. -/
def isBlank (c : Char) : Bool :=
  isSpace c || c = '\x0b' || c = '\x0c' || c = '\u00a0' || c = '\u1680'
    || (0x2000 ≤ c.toNat && c.toNat ≤ 0x200a) || c = '\u2028' || c = '\u2029' || c = '\u202f'
    || c = '\u205f' || c = '\u3000' || c = '\ufeff'

/-- Holds of a character that ends a line. -/
def endsLine (c : Char) : Bool :=
  c = '\n' || c = '\r' || c = '\u2028' || c = '\u2029'

/-- The text behind a comment of several lines. -/
def blockEnd? : List Char → Option (List Char)
  | '*' :: '/' :: rest => some rest
  | _ :: rest => blockEnd? rest
  | [] => none

/-- The text behind blanks and comments; `fuel` bounds their number. A comment without an end is
none. -/
def skipWithin : (fuel : Nat) → List Char → List Char
  | 0, s => s
  | fuel + 1, s =>
    match s.dropWhile isBlank with
    | '/' :: '/' :: rest => skipWithin fuel (rest.dropWhile fun c => !endsLine c)
    | '/' :: '*' :: rest =>
      match blockEnd? rest with
      | some rest => skipWithin fuel rest
      | none => '/' :: '*' :: rest
    | s => s

/-- The text behind blanks and comments. -/
def skip (s : List Char) : List Char :=
  skipWithin (s.length + 1) s

/-! ### Texts -/

/-- Holds of a hexadecimal digit. -/
def isHex (c : Char) : Bool :=
  (Json.hexValue? c).isSome

/-- Hexadecimal digits of a number, and what follows them. -/
def hexDigits? (count : Nat) (s : List Char) : Option (List Char × List Char) :=
  let ds := s.take count
  if ds.length = count ∧ ds.all isHex then some (ds, s.drop count) else none

/-- Reads a piece behind its backslash. -/
def escape? : List Char → Option (TextPiece × List Char)
  | [] => none
  | c :: s =>
    if c = 'u' then
      (hexDigits? 4 s).map fun (ds, s) => (.unit ds (LooseJson.hexValue ds), s)
    else if c = 'x' then
      (hexDigits? 2 s).map fun (ds, s) => (.byte ds (LooseJson.hexValue ds), s)
    else if c = '\r' then some (.lineEnd, if s.head? = some '\n' then s.drop 1 else s)
    else if endsLine c then some (.lineEnd, s)
    else if ['"', '\\', '/', 'b', 'f', 'n', 'r', 't', '\'', 'v', '0'].contains c then
      some (.short c, s)
    else none

/-- Reads the pieces of a text up to its closing quote; `fuel` bounds their number. -/
def pieces? (quote : Char) : (fuel : Nat) → List Char → Option (List TextPiece × List Char)
  | 0, _ => none
  | _, [] => none
  | fuel + 1, c :: s =>
    if c = quote then some ([], s)
    else if c = '\\' then
      match escape? s with
      | some (p, s) => (pieces? quote fuel s).map fun (ps, s) => (p :: ps, s)
      | none => none
    else (pieces? quote fuel s).map fun (ps, s) => (.plain c :: ps, s)

/-- Reads a text behind its opening quote. -/
def text? (quote : Char) (s : List Char) : Option (List TextPiece × List Char) :=
  pieces? quote (s.length + 1) s

/-- Holds of a character that may begin a name without quotes. -/
def startsName (c : Char) : Bool :=
  c.isAlpha || c = '_' || c = '$' || 0x80 ≤ c.toNat

/-- Holds of a character that a name without quotes may hold. -/
def isInName (c : Char) : Bool :=
  (startsName c || c.isDigit) && !isBlank c

/-- Reads the pieces of a name without quotes; `fuel` bounds their number. -/
def namePieces (allowed : Char → Bool) : (fuel : Nat) → List Char → List TextPiece × List Char
  | 0, s => ([], s)
  | fuel + 1, s =>
    match s with
    | [] => ([], [])
    | '\\' :: rest =>
      match rest with
      | 'u' :: rest =>
        match hexDigits? 4 rest with
        | some (ds, rest) =>
          let (ps, rest) := namePieces isInName fuel rest
          (.unit ds (LooseJson.hexValue ds) :: ps, rest)
        | none => ([], s)
      | _ => ([], s)
    | c :: rest =>
      if allowed c then
        let (ps, rest) := namePieces isInName fuel rest
        (.plain c :: ps, rest)
      else ([], s)

/-- Reads a name without quotes. -/
def bareName? (s : List Char) : Option (List TextPiece × List Char) :=
  match namePieces startsName s.length s with
  | ([], _) => none
  | (ps, rest) => some (ps, rest)

/-! ### Numbers and words -/

/-- The text behind a word in any case. -/
def dropWord? (word : String) (s : List Char) : Option (List Char) :=
  let n := word.length
  if (s.take n).map Char.toLower = word.toList then some (s.drop n) else none

/-- The text behind a word in any case that goes on with neither letter nor digit. -/
def dropWholeWord? (word : String) (s : List Char) : Option (List Char) :=
  match dropWord? word s with
  | some rest => if rest.head?.any Char.isAlphanum then none else some rest
  | none => none

/-- A number beyond all others. -/
def infinite (negative : Bool) : LooseJson :=
  .real (Number.signed negative ['9', 'e', '9', '9', '9'])

/-- An exponent behind its letter: what is written, and what follows. -/
def exponent? (s : List Char) : Option (List Char × List Char) :=
  let (sign, s) := match s with
    | '+' :: s => (['+'], s)
    | '-' :: s => (['-'], s)
    | s => ([], s)
  let ds := s.takeWhile Char.isDigit
  if ds.isEmpty then none else some (sign ++ ds, s.dropWhile Char.isDigit)

/-- Digits that stand where there may be none; then a zero is written. -/
def orZero (ds : List Char) : List Char :=
  if ds.isEmpty then ['0'] else ds

/-- Reads the digits of a number. Digits are needed on one side of the point. -/
def digits? (negative : Bool) (s : List Char) : Option (LooseJson × List Char) :=
  let whole := s.takeWhile Char.isDigit
  let rest := s.dropWhile Char.isDigit
  let ended (body rest : List Char) : Option (LooseJson × List Char) :=
    match rest with
    | 'e' :: s => (exponent? s).map fun (e, s) => (.real (Number.signed negative (body ++ 'e' :: e)), s)
    | 'E' :: s => (exponent? s).map fun (e, s) => (.real (Number.signed negative (body ++ 'E' :: e)), s)
    | s => some (.real (Number.signed negative body), s)
  match rest with
  | '.' :: rest =>
    let part := rest.takeWhile Char.isDigit
    let rest := rest.dropWhile Char.isDigit
    if whole.isEmpty && part.isEmpty then none
    else if rest.head? = some '.' then none
    else ended (orZero whole ++ '.' :: orZero part) rest
  | 'e' :: _ => if whole.isEmpty then none else ended whole rest
  | 'E' :: _ => if whole.isEmpty then none else ended whole rest
  | rest => if whole.isEmpty then none else some (.decimal negative whole, rest)

/-- Reads a number behind its sign. A zero is followed by no digit. -/
def number? (signed negative : Bool) (s : List Char) : Option (LooseJson × List Char) :=
  match s with
  | '0' :: x :: d :: rest =>
    if (x = 'x' || x = 'X') && isHex d then
      some (.hexadecimal negative ((d :: rest).takeWhile isHex), (d :: rest).dropWhile isHex)
    else if x.isDigit then none
    else digits? negative s
  | ['0', x] => if x.isDigit then none else digits? negative s
  | c :: _ =>
    if signed && !c.isDigit && c != '.' then
      match dropWord? "infinity" s with
      | some rest => some (infinite negative, rest)
      | none => (dropWord? "inf" s).map fun rest => (infinite negative, rest)
    else digits? negative s
  | [] => none

/-- Reads a word that is a value: those of JSON in lower case, and names of numbers in any. -/
def word? (s : List Char) : Option (LooseJson × List Char) :=
  let exact (word : String) (j : LooseJson) : Option (LooseJson × List Char) :=
    if s.take word.length = word.toList then (dropWholeWord? word s).map fun rest => (j, rest)
    else none
  let any (word : String) (j : LooseJson) : Option (LooseJson × List Char) :=
    (dropWholeWord? word s).map fun rest => (j, rest)
  exact "true" (.bool true) <|> exact "false" (.bool false) <|> exact "null" .null
    <|> any "inf" (infinite false) <|> any "infinity" (infinite false)
    <|> any "nan" .null <|> any "qnan" .null <|> any "snan" .null

/-- Reads a value that holds no others. -/
def plain? (s : List Char) : Option (LooseJson × List Char) :=
  match s with
  | [] => none
  | '"' :: rest => (text? '"' rest).map fun (ps, rest) => (.text ps, rest)
  | '\'' :: rest => (text? '\'' rest).map fun (ps, rest) => (.text ps, rest)
  | '+' :: rest => number? true false rest
  | '-' :: rest => number? true true rest
  | c :: rest =>
    if c.isDigit then number? false false s
    else if c = '.' then
      if rest.head?.any Char.isDigit then digits? false s else none
    else word? s

/-! ### Values -/

/-- Reads items up to the end of their array, given a reader of values; `fuel` bounds their
number. -/
def items? (value : List Char → Option (LooseJson × List Char)) :
    (fuel : Nat) → List Char → Option (List LooseJson × List Char)
  | 0, _ => none
  | fuel + 1, s =>
    match skip s with
    | ']' :: rest => some ([], rest)
    | s =>
      match value s with
      | none => none
      | some (j, rest) =>
        match skip rest with
        | ',' :: rest => (items? value fuel rest).map fun (js, rest) => (j :: js, rest)
        | ']' :: rest => some ([j], rest)
        | _ => none

/-- Reads the name of a field: a text, or a name without quotes that is no other value. -/
def name? (s : List Char) : Option (List TextPiece × List Char) :=
  match s with
  | '"' :: rest => text? '"' rest
  | '\'' :: rest => text? '\'' rest
  | s => if (plain? s).isSome then none else bareName? s

/-- Reads fields up to the end of their object, given a reader of values; `fuel` bounds their
number. -/
def fields? (value : List Char → Option (LooseJson × List Char)) :
    (fuel : Nat) → List Char → Option (List (List TextPiece × LooseJson) × List Char)
  | 0, _ => none
  | fuel + 1, s =>
    match skip s with
    | '\x7d' :: rest => some ([], rest)
    | s =>
      match name? s with
      | none => none
      | some (key, rest) =>
        match skip rest with
        | ':' :: rest =>
          match value rest with
          | none => none
          | some (j, rest) =>
            match skip rest with
            | ',' :: rest => (fields? value fuel rest).map fun (fs, rest) => ((key, j) :: fs, rest)
            | '\x7d' :: rest => some ([(key, j)], rest)
            | _ => none
        | _ => none

/-- Reads a value within `depth` levels of nesting. -/
def value? : (depth : Nat) → List Char → Option (LooseJson × List Char)
  | depth, s =>
    match skip s with
    | '[' :: rest =>
      match depth with
      | 0 => none
      | depth + 1 =>
        (items? (value? depth) (rest.length + 1) rest).map fun (js, rest) => (.array js, rest)
    | '\x7b' :: rest =>
      match depth with
      | 0 => none
      | depth + 1 =>
        (fields? (value? depth) (rest.length + 1) rest).map fun (fs, rest) => (.object fs, rest)
    | s => plain? s

/-- The levels that arrays and objects may nest. -/
def maxDepth : Nat := 1000

end JsonText

open JsonText in
/-- The value of a JSON text, or nothing if the text is malformed. -/
def readJson (text : String) : Option LooseJson :=
  match value? maxDepth (text.toList.takeWhile (· ≠ '\x00')) with
  | some (j, rest) => if (skip rest).isEmpty then some j else none
  | none => none

end Multipass.Relational
