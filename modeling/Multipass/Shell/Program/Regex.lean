import Std.Data.HashSet
import Multipass.Shell.Pattern
import Multipass.Shell.Program.Basic

/-!
# Regular expressions

Basic and extended regular expressions over bytes. An expression goes from places in a text to the
places behind what it matches, with what its groups took. From one place the longest match counts,
and of several ways to match the one that comes first in the order of preference.
-/

namespace Multipass.Shell

/-- A regular expression. -/
inductive Regex where
  | nothing
  /-- One byte in some ranges, or in none of them. -/
  | oneOf (negated : Bool) (ranges : List (UInt8 × UInt8))
  | lineStart
  | lineEnd
  /-- The start and the end of all. -/
  | front
  | back
  | wordStart
  | wordEnd
  /-- The edge of a word, or any other place. -/
  | wordEdge (negated : Bool)
  | group (number : Nat) (r : Regex)
  /-- What a group took. -/
  | repeated (number : Nat)
  | cat (a b : Regex)
  | alt (a b : Regex)
  | star (r : Regex)
  deriving Repr, Inhabited, BEq

/-- A text in which a regular expression is searched. -/
structure Subject where
  bytes : Array UInt8
  /-- Whether letters match in either case. -/
  anyCase : Bool := false
  /-- Whether a line feed ends a line within the text. -/
  manyLines : Bool := false

/-- A place in a text, with what the groups took up to there. -/
structure Reached where
  place : Nat
  groups : List (Nat × Nat × Nat) := []

/-- Holds of bytes in words. -/
def isWordByte (b : UInt8) : Bool :=
  b = 95 || isDigitByte b || (65 ≤ b && b ≤ 90) || (97 ≤ b && b ≤ 122)

/-- A letter in the other case, or the byte itself. -/
def otherCase (b : UInt8) : UInt8 :=
  if 65 ≤ b && b ≤ 90 then b + 32 else if 97 ≤ b && b ≤ 122 then b - 32 else b

/-- An upper-case letter in lower case. -/
def lowerByte (b : UInt8) : UInt8 :=
  if 65 ≤ b && b ≤ 90 then b + 32 else b

namespace Subject

variable (s : Subject)

/-- Holds of a word byte at a place. -/
def isWordAt (place : Nat) : Bool :=
  match s.bytes[place]? with
  | some b => isWordByte b
  | none => false

/-- Holds of a word byte before a place. -/
def isWordBefore (place : Nat) : Bool :=
  0 < place && s.isWordAt (place - 1)

/-- The first of the ways to each place. -/
def distinct (ways : List Reached) : List Reached :=
  match ways with
  | [] => []
  | [way] => [way]
  | ways =>
    (ways.foldl (fun (seen, kept) (way : Reached) =>
      if seen.contains way.place then (seen, kept) else (seen.insert way.place, way :: kept))
      ((∅ : Std.HashSet Nat), ([] : List Reached))).2.reverse

/-- Ways on from places step by step, those of more steps first. `fuel` bounds the steps. -/
def closure (step : List Reached → List Reached) :
    (fuel : Nat) → Std.HashSet Nat → (frontier : List Reached) → (done : List Reached) → List Reached
  | 0, _, _, done => done
  | fuel + 1, seen, frontier, done =>
    match (step frontier).filter fun way => !seen.contains way.place with
    | [] => done
    | next =>
      closure step fuel (next.foldl (fun seen way => seen.insert way.place) seen) next (next ++ done)

/-- The places behind matches of an expression. -/
def onward : Regex → List Reached → List Reached
  | .nothing, ways => ways
  | .oneOf negated ranges, ways =>
    ways.filterMap fun way =>
      match s.bytes[way.place]? with
      | some b =>
        let inside := inRanges ranges b || (s.anyCase && inRanges ranges (otherCase b))
        if inside != negated then some { way with place := way.place + 1 } else none
      | none => none
  | .lineStart, ways => ways.filter fun way =>
    way.place = 0 || (s.manyLines && s.bytes[way.place - 1]? = some newlineByte)
  | .lineEnd, ways => ways.filter fun way =>
    way.place = s.bytes.size || (s.manyLines && s.bytes[way.place]? = some newlineByte)
  | .front, ways => ways.filter fun way => way.place = 0
  | .back, ways => ways.filter fun way => way.place = s.bytes.size
  | .wordStart, ways => ways.filter fun way => !s.isWordBefore way.place && s.isWordAt way.place
  | .wordEnd, ways => ways.filter fun way => s.isWordBefore way.place && !s.isWordAt way.place
  | .wordEdge negated, ways => ways.filter fun way =>
    (s.isWordBefore way.place != s.isWordAt way.place) != negated
  | .group n r, ways =>
    distinct (ways.flatMap fun way =>
      (onward r [way]).map fun after =>
        { after with groups := (n, way.place, after.place) :: after.groups.filter fun g => g.1 != n })
  | .repeated n, ways =>
    ways.filterMap fun way =>
      match way.groups.lookup n with
      | some (start, finish) =>
        let same := (List.range (finish - start)).all fun i =>
          match s.bytes[start + i]?, s.bytes[way.place + i]? with
          | some a, some b => a = b || (s.anyCase && a = otherCase b)
          | _, _ => false
        if same then some { way with place := way.place + (finish - start) } else none
      | none => none
  | .cat a b, ways => onward b (onward a ways)
  | .alt a b, ways =>
    distinct (ways.flatMap fun way =>
      (onward a [way] ++ onward b [way]).mergeSort fun x y => y.place ≤ x.place)
  | .star r, ways =>
    match ways with
    | [way] => closure (onward r) (s.bytes.size + 1) {way.place} [way] [way]
    | ways =>
      distinct (ways.flatMap fun way =>
        closure (onward r) (s.bytes.size + 1) {way.place} [way] [way])

/-- The longest match from a place. -/
def longestFrom? (r : Regex) (place : Nat) : Option Reached :=
  (s.onward r [{ place }]).foldl (fun best way =>
    match best with
    | none => some way
    | some other => if other.place < way.place then some way else some other) none

/-- The first match from a place on: where it starts, and where it ends. `fuel` bounds the places
that are tried. -/
def searchFrom (r : Regex) : (fuel place : Nat) → Option (Nat × Reached)
  | 0, _ => none
  | fuel + 1, place =>
    match s.longestFrom? r place with
    | some way => some (place, way)
    | none => searchFrom r fuel (place + 1)

/-- The first match from a place on. -/
def search? (r : Regex) (place : Nat) : Option (Nat × Reached) :=
  s.searchFrom r (s.bytes.size + 1 - place) place

/-- The bytes between two places. -/
def between (start finish : Nat) : Bytes :=
  (s.bytes.extract start finish).toList

end Subject

/-! ### Reading -/

/-- How a regular expression is written. -/
structure Spelling where
  extended : Bool := false
  /-- Whether letters behind a backslash stand for control characters. -/
  controls : Bool := false
  /-- Whether what stands in a place where it has no meaning is wrong: a sign for a repetition with
  nothing in front of it, or a closing parenthesis. -/
  strict : Bool := false
  /-- Whether letters behind a backslash stand for classes of bytes, and groups may have signs. -/
  classes : Bool := false

/-- What is read of a regular expression: what is left and how many groups were opened. -/
structure RegexSource where
  rest : Bytes
  groups : Nat := 0
  /-- What is odd about it. -/
  warnings : List String := []

/-- The words for a class of bytes that is not in brackets. -/
def classSyntax : String := "character class syntax is [[:space:]], not [:space:]"

/-- Reads something of a regular expression. -/
abbrev RegexReading := StateT RegexSource (Except String)

/-- A part of a regular expression as it is read. -/
inductive RegexPart where
  | finish
  | bar
  | opening
  | closing
  | times (min : Nat) (max : Option Nat)
  | atom (r : Regex)

namespace Regex

/-- One byte. -/
def byte (b : UInt8) : Regex := .oneOf false [(b, b)]

/-- Some copies one after the other. -/
def copies (r : Regex) : Nat → Regex
  | 0 => .nothing
  | 1 => r
  | n + 1 => .cat r (copies r n)

/-- Up to some copies. -/
def upTo (r : Regex) : Nat → Regex
  | 0 => .nothing
  | n + 1 => .alt (.cat r (upTo r n)) .nothing

/-- A number of copies between two bounds. -/
def times (r : Regex) (min : Nat) (max : Option Nat) : Regex :=
  match min, max with
  | 0, none => .star r
  | min, none => .cat (copies r min) (.star r)
  | 0, some max => upTo r max
  | min, some max => if min = max then copies r min else .cat (copies r min) (upTo r (max - min))

/-- The bytes of words. -/
def wordRanges : List (UInt8 × UInt8) := [(48, 57), (65, 90), (95, 95), (97, 122)]

/-- The bytes of blanks. -/
def spaceRanges : List (UInt8 × UInt8) := [(9, 13), (32, 32)]

/-- What a letter behind a backslash stands for. -/
def letter? (b : UInt8) : Option Regex :=
  match charOf b with
  | 'w' => some (.oneOf false wordRanges)
  | 'W' => some (.oneOf true wordRanges)
  | 's' => some (.oneOf false spaceRanges)
  | 'S' => some (.oneOf true spaceRanges)
  | 'b' => some (.wordEdge false)
  | 'B' => some (.wordEdge true)
  | '<' => some .wordStart
  | '>' => some .wordEnd
  | '\x60' => some .front
  | '\'' => some .back
  | _ => none

/-- The class of bytes that a letter behind a backslash stands for. -/
def class? (b : UInt8) : Option Regex :=
  match charOf b with
  | 'd' => some (.oneOf false [(48, 57)])
  | 'D' => some (.oneOf true [(48, 57)])
  | 'h' => some (.oneOf false [(9, 9), (32, 32)])
  | _ => none

/-- The control character of a letter behind a backslash. -/
def control? (b : UInt8) : Option UInt8 :=
  [('n', 10), ('t', 9), ('r', 13), ('f', 12), ('v', 11), ('a', 7)].lookup (charOf b)

/-- The bounds of a number of copies up to a closing brace, which has a backslash in front of it or
not, and what is left. -/
def bounds? (backslash : Bool) (s : Bytes) : Option (Nat × Option Nat × Bytes) := do
  let low := s.takeWhile isDigitByte
  let s := s.drop low.length
  let close (s : Bytes) : Option Bytes :=
    match backslash, s with
    | true, 92 :: 125 :: rest => some rest
    | false, 125 :: rest => some rest
    | _, _ => none
  match s with
  | 44 :: s =>
    let high := s.takeWhile isDigitByte
    let rest ← close (s.drop high.length)
    return ((natural? low).getD 0, natural? high, rest)
  | s => do
    let n ← natural? low
    let rest ← close s
    return (n, some n, rest)

/-- The items of a bracket up to its end, and what is left. -/
def bracket (controls : Bool) : (fuel : Nat) → (first : Bool) → Bytes →
    Except String (List (UInt8 × UInt8) × Bytes)
  | 0, _, _ => .error "Unmatched [, [^, [:, [., or [="
  | _, _, [] => .error "Unmatched [, [^, [:, [., or [="
  | fuel + 1, first, b :: s =>
    if b = 93 && !first then .ok ([], s)
    else
      match b, s with
      | 91, 58 :: inner =>
        let name := inner.takeWhile (· != 58)
        match inner.drop name.length with
        | 58 :: 93 :: rest =>
          match classRanges name with
          | [] => .error "Invalid character class name"
          | ranges => do
            let (others, rest) ← bracket controls fuel false rest
            return (ranges ++ others, rest)
        | _ => .error "Unmatched [, [^, [:, [., or [="
      | 91, 46 :: inner | 91, 61 :: inner =>
        match inner with
        | c :: d :: 93 :: rest =>
          if s.head? = some d then do
            let (others, rest) ← bracket controls fuel false rest
            return ((c, c) :: others, rest)
          else .error "Invalid collation character"
        | _ => .error "Invalid collation character"
      | _, _ =>
        let (b, s) : UInt8 × Bytes := match controls && b = 92, s with
          | true, c :: rest =>
            match control? c with
            | some e => (e, rest)
            | none => (b, s)
          | _, s => (b, s)
        match s with
        | 45 :: c :: rest =>
          if c = 93 then do
            let (others, rest) ← bracket controls fuel false s
            return ((b, b) :: others, rest)
          else if c < b then .error "Invalid range end"
          else do
            let (others, rest) ← bracket controls fuel false rest
            return ((b, c) :: others, rest)
        | s => do
          let (others, rest) ← bracket controls fuel false s
          return ((b, b) :: others, rest)

/-- Reads the next part. `first` holds where an expression begins, and `depth` counts the groups
around it. -/
def part (spelling : Spelling) (first : Bool) : RegexReading RegexPart := fun source =>
  let go (p : RegexPart) (rest : Bytes) : Except String (RegexPart × RegexSource) :=
    .ok (p, { source with rest })
  let literal (b : UInt8) (rest : Bytes) := go (.atom (byte b)) rest
  let extended := spelling.extended
  match source.rest with
  | [] => go .finish []
  | 92 :: [] => .error "Trailing backslash"
  | 92 :: c :: rest =>
    let sign := charOf c
    if sign = '(' && !extended then go .opening rest
    else if sign = ')' && !extended then go .closing rest
    else if sign = '|' && !extended then go .bar rest
    else if sign = '\x7b' && !extended then
      if first then
        if spelling.strict then .error "Invalid preceding regular expression" else literal c rest
      else
        match bounds? true rest with
        | some (min, max, rest) => go (.times min max) rest
        | none =>
          .error (if rest.contains 125 then "Invalid content of \\\x7b\\\x7d" else "Unmatched \\\x7b")
    else if (sign = '+' || sign = '?') && !extended && !first then
      go (if sign = '+' then .times 1 none else .times 0 (some 1)) rest
    else if 49 ≤ c && c ≤ 57 then
      let n := c.toNat - 48
      if source.groups < n then .error "Invalid back reference" else go (.atom (.repeated n)) rest
    else
      match if spelling.classes then (class? c).or (letter? c) else letter? c,
        spelling.controls, control? c with
      | some r, _, _ => go (.atom r) rest
      | none, true, some e => literal e rest
      | none, _, _ => literal c rest
  | 91 :: rest =>
    let (negated, inner) : Bool × Bytes := match rest with
      | 94 :: inner => (true, inner)
      | inner => (false, inner)
    let name := inner.takeWhile (· != 93)
    if inner.isEmpty then .error "Invalid regular expression"
    else if name.length > 1 && name.head? = some 58 && name.getLast? = some 58
        && inner.length > name.length then .error classSyntax
    else
    match bracket spelling.controls (inner.length + 1) true inner with
    | .ok (ranges, rest) => go (.atom (.oneOf negated ranges)) rest
    | .error e => .error e
  | 46 :: rest => go (.atom (.oneOf false [(0, 255)])) rest
  | b :: rest =>
    let sign := charOf b
    -- A repetition of nothing.
    let odd (shown : String) (rest : Bytes) : Except String (RegexPart × RegexSource) :=
      if spelling.strict then .error "Invalid preceding regular expression"
      else .ok (.atom .nothing, { source with
        rest
        warnings := source.warnings ++ [s!"warning: {shown} at start of expression"] })
    if sign = '*' then
      if !first then go (.times 0 none) rest
      else if extended then odd "*" rest
      else literal b rest
    else if extended && (sign = '+' || sign = '?') then
      if first then odd (String.ofList [sign]) rest
      else go (if sign = '+' then .times 1 none else .times 0 (some 1)) rest
    else if extended && sign = '\x7b' then
      match bounds? false rest with
      | some (min, max, behind) =>
        if first then odd "\x7b...\x7d" behind else go (.times min max) behind
      | none => literal b rest
    else if spelling.classes && b = 40 && rest.take 2 = [63, 58] then go .opening (rest.drop 2)
    else if extended && sign = '(' then go .opening rest
    else if extended && sign = ')' then go .closing rest
    else if extended && sign = '|' then go .bar rest
    else if sign = '^' && (extended || first) then go (.atom .lineStart) rest
    else if sign = '$' then
      let ends : Bool := match rest with
        | [] => true
        | 92 :: c :: _ => c = 41 || c = 124
        | _ => false
      if extended || ends then go (.atom .lineEnd) rest else literal b rest
    else literal b rest

mutual

/-- Reads expressions of which one has to match. -/
def choices (spelling : Spelling) : (fuel depth : Nat) → RegexReading Regex
  | 0, _ => throw "Regular expression too big"
  | fuel + 1, depth => do
    let (a, goesOn) ← row spelling fuel depth true .nothing none
    if goesOn then return .alt a (← choices spelling fuel depth) else return a

/-- Reads what follows a part of an expression, the last item of which may be repeated, and tells
whether another choice follows. -/
def row (spelling : Spelling) : (fuel depth : Nat) → (first : Bool) → (done : Regex) →
    (last : Option Regex) → RegexReading (Regex × Bool)
  | 0, _, _, _, _ => throw "Regular expression too big"
  | fuel + 1, depth, first, done, last => do
    let whole : Regex := match last with
      | some r => .cat done r
      | none => done
    match ← part spelling first with
    | .finish => if depth = 0 then return (whole, false) else throw "Unmatched ( or \\("
    | .bar => return (whole, true)
    | .closing =>
      if 0 < depth then return (whole, false)
      else if spelling.strict || !spelling.extended then throw "Unmatched ) or \\)"
      else row spelling fuel depth false whole (some (byte 41))
    | .opening =>
      let n := (← get).groups + 1
      modify fun s => { s with groups := n }
      let r ← choices spelling fuel (depth + 1)
      row spelling fuel depth false whole (some (.group n r))
    | .times min max =>
      if max.any fun max => max < min then throw "Invalid content of \\\x7b\\\x7d"
      if 32767 < max.getD min then throw "Regular expression too big"
      row spelling fuel depth false done (last.map fun r => r.times min max)
    | .atom r =>
      match r with
      | .lineStart => row spelling fuel depth true whole (some r)
      | .nothing => row spelling fuel depth true whole none
      | r => row spelling fuel depth false whole (some r)

end

/-- The expression that bytes spell and what is odd about it, or what is wrong with them. -/
def readWarned (spelling : Spelling) (s : Bytes) : Except String (Regex × List String) := do
  let (r, source) ← choices spelling (4 * s.length + 8) 0 { rest := s }
  return (r, source.warnings)

/-- The expression that bytes spell, or what is wrong with them. -/
def read (spelling : Spelling) (s : Bytes) : Except String Regex := do
  return (← readWarned spelling s).1

/-- An expression without its groups, unless they are used. -/
def withoutGroups : Regex → Regex
  | .group _ r => withoutGroups r
  | .cat a b => .cat (withoutGroups a) (withoutGroups b)
  | .alt a b => .alt (withoutGroups a) (withoutGroups b)
  | .star r => .star (withoutGroups r)
  | r => r

/-- Holds of an expression that uses what a group took. -/
def usesGroups : Regex → Bool
  | .repeated _ => true
  | .group _ r => usesGroups r
  | .cat a b => usesGroups a || usesGroups b
  | .alt a b => usesGroups a || usesGroups b
  | .star r => usesGroups r
  | _ => false

/-- An expression for texts of which only the matched part is of interest. -/
def plain (r : Regex) : Regex :=
  if r.usesGroups then r else r.withoutGroups

/-- Bytes that stand for themselves. -/
def literal (s : Bytes) : Regex :=
  s.foldr (fun b r => .cat (byte b) r) .nothing

end Regex

end Multipass.Shell
