import Multipass.Shell.Program.Counts
import Multipass.Shell.Program.Regex

/-!
# Searching lines

The program that writes the lines of files which match one of some patterns: with their files and
numbers, with the lines around them, counted, or only the parts that match.
-/

namespace Multipass.Shell

/-- How lines are searched. -/
structure LineSearch where
  pattern : Regex
  anyCase : Bool := false
  wholeLine : Bool := false
  wholeWord : Bool := false

namespace LineSearch

/-- The end of the longest match from a place that is wanted. -/
def endFrom? (l : LineSearch) (s : Subject) (place : Nat) : Option Nat :=
  let ends := (s.onward l.pattern [{ place }]).map Reached.place
  let wanted := ends.filter fun finish =>
    (!l.wholeLine || (place = 0 && finish = s.bytes.size))
      && (!l.wholeWord || (!s.isWordBefore place && !s.isWordAt finish))
  wanted.max?

/-- The first match from a place on. `fuel` bounds the places that are tried. -/
def matchFrom? (l : LineSearch) (s : Subject) : (fuel place : Nat) → Option (Nat × Nat)
  | 0, _ => none
  | fuel + 1, place =>
    match l.endFrom? s place with
    | some finish => some (place, finish)
    | none => matchFrom? l s fuel (place + 1)

/-- The subject of a line. -/
def subject (l : LineSearch) (line : Bytes) : Subject :=
  { bytes := line.toArray, anyCase := l.anyCase }

/-- Holds of a line with a match. -/
def found (l : LineSearch) (line : Bytes) : Bool :=
  let s := l.subject line
  (l.matchFrom? s (s.bytes.size + 1) 0).isSome

/-- The places of the parts of a line that match and hold something. `fuel` bounds their number. -/
def parts (l : LineSearch) (s : Subject) : (fuel place : Nat) → List (Nat × Nat)
  | 0, _ => []
  | fuel + 1, place =>
    match l.matchFrom? s (s.bytes.size + 1 - place) place with
    | none => []
    | some (start, finish) =>
      if finish = start then parts l s fuel (start + 1)
      else (start, finish) :: parts l s fuel finish

end LineSearch

/-- The options of the search. -/
def searchOptions : Options where
  name := "grep"
  flags := "abcEFGhHiIlLnoPqrRsTuUvwxyzZ".toList
  valued := "ABCdDefm".toList
  words := [("basic-regexp", 'G'), ("extended-regexp", 'E'), ("fixed-regexp", 'F'),
    ("fixed-strings", 'F'), ("perl-regexp", 'P'), ("after-context", 'A'), ("before-context", 'B'),
    ("binary-files", '1'), ("binary", 'U'), ("byte-offset", 'b'), ("context", 'C'), ("color", '2'),
    ("colour", '2'), ("count", 'c'), ("devices", 'D'), ("directories", 'd'), ("exclude", '3'),
    ("exclude-from", '4'), ("exclude-dir", '5'), ("file", 'f'), ("files-with-matches", 'l'),
    ("files-without-match", 'L'), ("group-separator", '6'), ("include", '7'), ("ignore-case", 'i'),
    ("no-ignore-case", '8'), ("initial-tab", 'T'), ("label", '9'), ("line-buffered", '+'),
    ("line-number", 'n'), ("line-regexp", 'x'), ("max-count", 'm'), ("no-filename", 'h'),
    ("no-group-separator", '-'), ("no-messages", 's'), ("null", 'Z'), ("null-data", 'z'),
    ("only-matching", 'o'), ("quiet", 'q'), ("recursive", 'r'), ("dereference-recursive", 'R'),
    ("regexp", 'e'), ("invert-match", 'v'), ("silent", 'q'), ("text", 'a'),
    ("unix-byte-offsets", 'u'), ("with-filename", 'H'), ("word-regexp", 'w')]
  wordValued := ['1', '3', '4', '5', '6', '7', '9']
  wordOptional := ['2']
  status := 2
  advice := "Usage: grep [OPTION]... PATTERNS [FILE]...\nTry 'grep --help' for more information."

/-- A line of a file with its number, where it starts, and whether it is selected. -/
structure SearchedLine where
  number : Nat
  start : Nat
  line : Bytes
  selected : Bool

/-- Lines with their numbers, up to some that are selected, and the lines that are left then. -/
def searchedLines (select : Bytes → Bool) :
    (limit : Option Nat) → (number start : Nat) → List Bytes → List SearchedLine × List Bytes
  | _, _, _, [] => ([], [])
  | limit, number, start, line :: rest =>
    if limit = some 0 then ([], line :: rest)
    else
      let selected := select line
      let (others, left) := searchedLines select (if selected then limit.map (· - 1) else limit)
        (number + 1) (start + line.length + 1) rest
      ({ number, start, line, selected } :: others, left)

/-- Which lines are written, by how far a selected line is before or behind them. -/
def aroundSelected (before after : Nat) (lines : List SearchedLine) : List Bool :=
  let near (reach : Nat) (ls : List SearchedLine) : List Bool :=
    (ls.foldl (fun (out, left) (l : SearchedLine) =>
      if l.selected then (true :: out, reach)
      else (decide (0 < left) :: out, left - 1)) (([] : List Bool), 0)).1.reverse
  let behind := near after lines
  let ahead := (near before lines.reverse).reverse
  behind.zipWith (· || ·) ahead

/-- How the results of a search are written. -/
structure SearchStyle where
  /-- What is left out: everything, or all but the names of files with a match, or without one. -/
  quiet : Bool := false
  names : Option Bool := none
  counted : Bool := false
  onlyParts : Bool := false
  inverted : Bool := false
  numbered : Bool := false
  offsets : Bool := false
  aligned : Bool := false
  /-- Whether a binary file is searched like a text, or passed over. -/
  asText : Bool := false
  noBinary : Bool := false
  colored : Bool := false
  /-- What ends a line, and what follows a name. -/
  mark : UInt8 := newlineByte
  afterName : Option UInt8 := none
  limit : Option Nat := none
  before : Option Nat := none
  after : Option Nat := none
  /-- What stands between groups of lines, if anything. -/
  gap : Option Bytes := some (bytesOf "--")

/-- Bytes in a colour, if that is wanted. -/
def painted (colored : Bool) (code : String) (s : Bytes) : Bytes :=
  if colored && !s.isEmpty then
    bytesOf ("\x1b[" ++ code ++ "m\x1b[K") ++ s ++ bytesOf "\x1b[m\x1b[K"
  else s

/-- A line with its matches in a colour. -/
def LineSearch.paint (l : LineSearch) (line : Bytes) : Bytes :=
  let s := l.subject line
  let (out, place) := (l.parts s (line.length + 1) 0).foldl (fun (out, place) (start, finish) =>
    (out ++ s.between place start ++ painted true "01;31" (s.between start finish), finish))
    (([] : Bytes), 0)
  out ++ s.between place line.length

/-- What a search found in a file: what it writes, what it says about the file, whether a line was
selected, and what is left of the file. -/
structure SearchResult where
  out : Bytes := []
  note : Option String := none
  selected : Bool := false
  left : Bytes := []

/-- Searches a file by its name. -/
def searchFile (y : SearchStyle) (l : LineSearch) (titled : Bool) (name content : Bytes) :
    SearchResult :=
  let isBinary := !y.asText && y.mark = newlineByte && content.contains 0
  if isBinary && y.noBinary then {}
  else
    let limit := if y.quiet || y.names.isSome then some (min 1 (y.limit.getD 1)) else y.limit
    let (lines, rest) := searchedLines (fun s => l.found s != y.inverted) limit 1 0
      (stretchesOf y.mark content).1
    let count := lines.countP SearchedLine.selected
    let paint := painted y.colored
    let title (sign : UInt8) : Bytes :=
      if titled then
        paint "35" name ++ (match y.afterName with
          | some b => [b]
          | none => paint "36" [sign])
      else []
    let front (sign : UInt8) (x : SearchedLine) (offset : Nat) : Bytes :=
      let number (width : Nat) (n : Nat) : Bytes :=
        let ds := decimal n
        (if y.aligned then List.replicate (width - ds.length) 32 else [])
          ++ paint "32" ds ++ paint "36" [sign]
      let fields := title sign ++ (if y.numbered then number 2 x.number else [])
        ++ (if y.offsets then number 2 offset else [])
      if y.aligned && !fields.isEmpty then fields ++ [9] else fields
    let out : Bytes :=
      if y.quiet then []
      else
        match y.names with
        | some found =>
          if (count > 0) == found then paint "35" name ++ [y.afterName.getD newlineByte] else []
        | none =>
          if y.counted then title 58 ++ decimal count ++ [newlineByte]
          else if isBinary then []
          else if y.onlyParts then
            if y.inverted then []
            else
              (lines.filter SearchedLine.selected).flatMap fun x =>
                let s := l.subject x.line
                (l.parts s (x.line.length + 1) 0).flatMap fun (start, finish) =>
                  front 58 x (x.start + start) ++ paint "01;31" (s.between start finish) ++ [y.mark]
          else
            let context := y.after.isSome || y.before.isSome
            let kept := aroundSelected (y.before.getD 0) (y.after.getD 0) lines
            let written := (lines.zip kept).filter Prod.snd |>.map Prod.fst
            (written.foldl (fun (out, last) x =>
              let gap : Bytes :=
                if context && last != 0 && last + 1 < x.number then
                  (y.gap.map fun s => paint "36" s ++ [newlineByte]).getD []
                else []
              let body := if y.colored && x.selected && !y.inverted then l.paint x.line else x.line
              let line := front (if x.selected then 58 else 45) x x.start ++ body ++ [y.mark]
              ((gap ++ line) :: out, x.number)) (([] : List Bytes), 0)).1.reverse.flatten
    let plain := !y.quiet && y.names.isNone && !y.counted
    { out
      note := if isBinary && plain && count > 0 then some s!"{textOf name}: binary file matches" else none
      selected := count > 0
      left := joinStretches y.mark rest }

/-- The files below a directory, in the order of their names; `wanted` tells which directories are
searched. -/
def filesBelow (wanted : String → Bool) (front : Bytes) : Node → List Bytes
  | .file .. => [front]
  | .link _ => []
  | .sealed _ => []
  | .directory es => below es
where
  below : List (String × Node) → List Bytes
    | [] => []
    | (name, node) :: rest =>
      let isDirectory : Bool := match node with
        | .directory _ => true
        | _ => false
      (if isDirectory && !wanted name then []
        else filesBelow wanted (front ++ 47 :: bytesOf name) node) ++ below rest

/-- The patterns of the options, or of the first operand, and the files. -/
def searchPatterns (g : Given) (call : Call) : Except String (Option (List Bytes × List Bytes)) := do
  let written := (g.values 'e').flatMap (splitByte newlineByte)
  let files ← (g.values 'f').mapM fun file =>
    match call.read file with
    | .ok content => .ok (linesOf content).1
    | .error reason => .error s!"{textOf file}: {reason}"
  if g.has 'e' || g.has 'f' then return some (written ++ files.flatten, g.operands)
  else
    match g.operands with
    | pattern :: files => return some (splitByte newlineByte pattern, files)
    | [] => return none

/-- The style that options ask for, or what is wrong with one. -/
def searchStyle (g : Given) : Except Effect SearchStyle := do
  let complain (message : String) : Effect := Effect.complains 2 s!"grep: {message}"
  let number (c : Char) (s : Bytes) : Except Effect (Option Nat) :=
    match signedInt? s with
    | some i =>
      if c = 'm' then .ok (if i < 0 then none else some i.toNat)
      else if i < 0 then .error (complain s!"{textOf s}: invalid context length argument")
      else .ok (some i.toNat)
    | none => .error (complain (if c = 'm' then "invalid max count"
        else s!"{textOf s}: invalid context length argument"))
  let read (c : Char) : Except Effect (Option Nat) :=
    match g.value? c with
    | some s => number c s
    | none => .ok none
  let around ← read 'C'
  let after ← read 'A'
  let before ← read 'B'
  let limit ← read 'm'
  match g.value? 'd' with
  | some s =>
    let _ ← wordChoice searchOptions "directories" ["read", "recurse", "skip"] s
  | none => pure ()
  let kind := textOf ((g.value? '1').getD (bytesOf "binary"))
  unless ["binary", "text", "without-match"].contains kind do
    throw (complain "unknown binary-files type")
  let names := (g.options.filter fun o => o.1 = 'l' || o.1 = 'L').getLast?.map fun o => o.1 == 'l'
  return {
    quiet := g.has 'q'
    names
    counted := g.has 'c'
    onlyParts := g.has 'o'
    inverted := g.has 'v'
    numbered := g.has 'n'
    offsets := g.has 'b'
    aligned := g.has 'T'
    asText := g.has 'a' || g.has 'U' || kind = "text"
    noBinary := g.has 'I' || kind = "without-match"
    colored := g.value? '2' = some (bytesOf "always")
    mark := if g.has 'z' then 0 else newlineByte
    afterName := if g.has 'Z' then some 0 else none
    limit
    before := before.or around
    after := after.or around
    gap :=
      if (g.options.filter fun o => o.1 = '-' || o.1 = '6').getLast?.any fun o => o.1 = '-' then none
      else some ((g.value? '6').getD (bytesOf "--")) }

/-- Holds of a file that the options want searched, by the last name of its path. -/
def wantedFile (g : Given) (path : Bytes) : Bool :=
  let name := (splitByte 47 path).getLastD []
  let fits (pattern : Bytes) : Bool :=
    matchesAll (wildcards (pattern.map fun b => (b, true))) name
  let included := g.values '7'
  (included.isEmpty || included.any fits) && !(g.values '3').any fits

/-- Arguments in which a number behind a hyphen asks for lines around matches. -/
def withContextNumbers (arguments : List Bytes) : List Bytes :=
  arguments.flatMap fun a =>
    match a with
    | 45 :: s =>
      let ds := s.takeWhile isDigitByte
      let rest := s.drop ds.length
      if ds.isEmpty then [a]
      else (bytesOf "-C" ++ ds) :: (if rest.isEmpty then [] else [45 :: rest])
    | a => [a]

/-- Writes the lines that match. `kind` is how patterns are read if nothing else is asked for. -/
def grep (kind : Option Char) : Program := fun call =>
  searchOptions.program (fun g call =>
    let complaint (s : String) : Effect := Effect.complains 2 s!"grep: {s}"
    let settled : Except Effect Effect := do
      let y ← searchStyle g
      let kinds := (g.options.map Prod.fst).filter fun c => ['E', 'F', 'G', 'P'].contains c
      if kinds.any fun c => kinds.head? != some c then throw (complaint "conflicting matchers specified")
      let kind := kinds.head?.or kind
      let some (patterns, files) ← (searchPatterns g call).mapError complaint
        | throw (Effect.complains 2 searchOptions.advice)
      let spelling : Spelling := {
        extended := kind = some 'E' || kind = some 'P', classes := kind = some 'P' }
      let rs ← (patterns.mapM fun s =>
        if kind = some 'F' then .ok (Regex.literal s, []) else Regex.readWarned spelling s).mapError
          complaint
      let warnings := (rs.flatMap Prod.snd).map fun w => Effect.complains 0 s!"grep: {w}"
      let l : LineSearch := {
        pattern := (match rs.map Prod.fst with
          | [] => Regex.oneOf false []
          | r :: rs => rs.foldl Regex.alt r).plain
        anyCase := (g.options.filter fun o => ['i', 'y', '8'].contains o.1).getLast?.any
          fun o => o.1 != '8'
        wholeLine := g.has 'x'
        wholeWord := g.has 'w' }
      let deep := g.has 'r' || g.has 'R' || (g.value? 'd').any (bytesOf "recurse" == ·)
      let skips := (g.value? 'd').any (bytesOf "skip" == ·)
      let wantedPlace (name : String) : Bool :=
        !(g.values '5').any fun p => matchesAll (wildcards (p.map fun b => (b, true))) (bytesOf name)
      let named := if files.isEmpty && deep then [[46]] else orInput files
      let all := (if !deep then named else
        named.flatMap fun file =>
          match call.tree.find? (textOf file) with
          | some (.directory es) =>
            let front := if file.getLast? = some 47 then file.dropLast else file
            let found := filesBelow wantedPlace front (.directory es)
            if files.isEmpty then found.map (List.drop 2) else found
          | _ => [file]).filter fun file => file = inputName || wantedFile g file
      let titled := (all.length > 1 || deep || g.has 'H') && !g.has 'h'
      let label := (g.value? '9').getD (bytesOf "(standard input)")
      let rec go : List Bytes → List (Effect × Bool)
        | [] => []
        | file :: rest =>
          match call.read file with
          | .error reason =>
            if skips && reason = "Is a directory" then go rest
            else
              (if g.has 's' then Effect.ends 2 else complaint s!"{textOf file}: {reason}", false)
                :: go rest
          | .ok content =>
            let result := searchFile y l titled (if file = inputName then label else file) content
            let e : Effect := Effect.say result.out
            let e := match result.note with
              | some note => e.followedBy (Effect.complains 0 s!"grep: {note}")
              | none => e
            let e := { e with left := if file = inputName then some result.left else none }
            (e, result.selected) :: (if y.quiet && result.selected then [] else go rest)
      let results := go all
      let e := Effect.all (warnings ++ results.map Prod.fst)
      let selected := results.any Prod.snd
      let status :=
        if selected && y.quiet then 0
        else if e.status != 0 then 2
        else if selected then 0
        else 1
      return { e with status }
    match settled with
    | .ok e | .error e => e) { call with arguments := withContextNumbers call.arguments }

end Multipass.Shell
