import Multipass.Shell.Program.Basic

/-!
# Programs for columns

Programs that write parts of lines, break lines at a width, write blanks for tabs, and put lines side
by side.
-/

namespace Multipass.Shell

/-! ### Parts of lines -/

/-- A range of places, counted from one; the last may have no end. -/
abbrev PlaceRange := Nat × Option Nat

/-- What a list of places names. -/
structure PlaceWords where
  first : String
  invalid : String
  tooLarge : String
  twice : String

/-- The words for fields. -/
def fieldWords : PlaceWords :=
  ⟨"fields are numbered from 1", "invalid field value", "field number", "invalid field range"⟩

/-- The words for bytes. -/
def byteWords : PlaceWords :=
  ⟨"byte/character positions are numbered from 1", "invalid byte/character position",
    "byte/character offset", "invalid byte or character range"⟩

/-- How far a list of places was read: whether a hyphen was seen in this range, the numbers before
and behind it, and the ranges before. -/
structure PlaceReading where
  hyphen : Bool := false
  before : Option Nat := none
  behind : Option Nat := none
  done : List PlaceRange := []

/-- The greatest number of a place, and one. -/
def placeBound : Nat := 18446744073709551615

/-- Ends a range of a list. -/
def PlaceReading.finish (r : PlaceReading) (words : PlaceWords) : Except String PlaceReading :=
  let start := r.before.getD 1
  if r.hyphen then
    match r.before, r.behind with
    | none, none => .error "invalid range with no endpoint: -"
    | _, none => .ok { done := (start, none) :: r.done }
    | _, some stop =>
      if stop < start then .error "invalid decreasing range"
      else .ok { done := (start, some stop) :: r.done }
  else if r.before.getD 0 = 0 then .error words.first
  else .ok { done := (start, some start) :: r.done }

/-- Reads a list of ranges, separated by commas or blanks. `fuel` bounds its length. -/
def readPlaces (words : PlaceWords) : (fuel : Nat) → PlaceReading → Bytes →
    Except String (List PlaceRange)
  | 0, r, _ => .ok r.done.reverse
  | fuel + 1, r, s =>
    match s with
    | [] => do
      let r ← r.finish words
      return r.done.reverse
    | 45 :: rest =>
      if r.hyphen then .error words.twice
      else if r.before = some 0 then .error words.first
      else readPlaces words fuel { r with hyphen := true } rest
    | b :: rest =>
      if b = 44 || b = 32 || b = 9 then do
        let r ← r.finish words
        readPlaces words fuel r rest
      else
        let ds := (b :: rest).takeWhile isDigitByte
        match natural? ds with
        | none => .error s!"{words.invalid} '{textOf s}'"
        | some n =>
          if placeBound ≤ n then .error s!"{words.tooLarge} '{textOf ds}' is too large"
          else
            readPlaces words fuel
              (if r.hyphen then { r with behind := some n } else { r with before := some n })
              (s.drop ds.length)

/-- Holds of a place in some ranges. -/
def inPlaces (rs : List PlaceRange) (place : Nat) : Bool :=
  rs.any fun (n, m) => n ≤ place && (m.map fun m => decide (place ≤ m)).getD true

/-- The items in some places, counted from one. -/
def pick {α : Type} (keep : Nat → Bool) (items : List α) : List α :=
  (items.zipIdx 1).filterMap fun (a, place) => if keep place then some a else none

/-- The places where a range starts that is not part of one before: those outside all ranges if the
others are meant. -/
def rangeStarts (others : Bool) (rs : List PlaceRange) : Nat → Bool := fun place =>
  if others then !inPlaces rs place && (place = 1 || inPlaces rs (place - 1))
  else rs.any fun (n, _) => n = place
    && !rs.any fun (n', m) => n' < place && (m.map fun m => decide (place ≤ m)).getD true

/-- Bytes in some places, with a separator in front of each range but the first. -/
def pickRanges (keep starts : Nat → Bool) (separator : Bytes) (s : Bytes) : Bytes :=
  ((s.zipIdx 1).foldl (fun (out, first) (b, place) =>
    if keep place then
      (b :: (if starts place && !first then separator.reverse ++ out else out), false)
    else (out, first)) (([] : Bytes), true)).1.reverse

/-- Writes parts of lines: bytes, or fields between separators. -/
def cut : Program :=
  let options : Options := {
    name := "cut"
    flags := "nsz".toList
    valued := "bcdf".toList
    words := [("bytes", 'b'), ("characters", 'c'), ("fields", 'f'), ("delimiter", 'd'),
      ("only-delimited", 's'), ("output-delimiter", 'O'), ("complement", 'C'),
      ("zero-terminated", 'z')]
    wordValued := ['O'] }
  options.program fun g call =>
    match g.options.filter fun o => ['b', 'c', 'f'].contains o.1 with
    | [] => options.complaint "you must specify a list of bytes, characters, or fields"
    | [(kind, list)] =>
      let delimiter := (g.value? 'd').getD [9]
      if delimiter.length > 1 then
        options.complaint "the delimiter must be a single character"
      else if kind != 'f' && g.has 'd' then
        options.complaint "an input delimiter may be specified only when operating on fields"
      else if kind != 'f' && g.has 's' then
        options.complaint
          "suppressing non-delimited lines makes sense\n\tonly when operating on fields"
      else
        match readPlaces (if kind = 'f' then fieldWords else byteWords) (2 * list.length + 2) {} list with
        | .error message => options.complaint message
        | .ok rs =>
          let keep (place : Nat) : Bool := g.has 'C' != inPlaces rs place
          let mark : UInt8 := if g.has 'z' then 0 else newlineByte
          let (content, e) := readTogether "cut" 1 call (orInput g.operands)
          let line (s : Bytes) : Option Bytes :=
            if kind != 'f' then
              some (pickRanges keep (rangeStarts (g.has 'C') rs) ((g.value? 'O').getD []) s)
            else
              let separator := delimiter.headD 0
              let pieces := splitByte separator s
              if pieces.length = 1 then if g.has 's' then none else some s
              else some (((g.value? 'O').getD [separator]).intercalate (pick keep pieces))
          (Effect.say (joinStretches mark ((stretchesOf mark content).1.filterMap line))).followedBy e
    | _ => options.complaint "only one list may be specified"

/-! ### Widths -/

/-- A number of columns in an option, or what is wrong with it. -/
def columnCount (name what : String) (s : Bytes) : Except Effect Nat :=
  match natural? s with
  | some 0 =>
    .error (Effect.complains 1 s!"{name}: {what}: '{textOf s}': Numerical result out of range")
  | some n => .ok n
  | none => .error (Effect.complains 1 s!"{name}: {what}: '{textOf s}'")

/-- The column behind a byte: a tab goes to the next stop, a backspace goes back by one, and a
carriage return goes to the start. -/
def nextColumn (plain : Bool) (column : Nat) (b : UInt8) : Nat :=
  if plain then column + 1
  else if b = 8 then column - 1
  else if b = 13 then 0
  else if b = 9 then column / 8 * 8 + 8
  else column + 1

/-- Lines that are broken: the finished ones, the last one first, and the one that grows, from its
end, with its column. -/
structure Folding where
  done : List Bytes := []
  line : Bytes := []
  column : Nat := 0

/-- Adds a byte; breaks the line that grows if it would be too wide. `fuel` bounds the breaks. -/
def Folding.add (width : Nat) (plain atBlanks : Bool) (b : UInt8) : (fuel : Nat) → Folding → Folding
  | 0, f => { f with line := b :: f.line }
  | fuel + 1, f =>
    let column := nextColumn plain f.column b
    if column ≤ width || f.line.isEmpty then { f with line := b :: f.line, column }
    else
      let behindBlank := f.line.takeWhile fun b => b != 32 && b != 9
      let behindBlank :=
        if atBlanks && behindBlank.length < f.line.length then behindBlank else []
      add width plain atBlanks b fuel {
        done := f.line.drop behindBlank.length :: f.done
        line := behindBlank
        column := behindBlank.reverse.foldl (nextColumn plain) 0 }

/-- The lines that a line is broken into. -/
def foldLine (width : Nat) (plain atBlanks : Bool) (s : Bytes) : List Bytes :=
  let f := s.foldl (fun f b => f.add width plain atBlanks b 4) ({} : Folding)
  (f.line :: f.done).reverse.map List.reverse

/-- An argument that is a hyphen and a number as an option with that value. -/
def withCount (option : String) (arguments : List Bytes) : List Bytes :=
  arguments.flatMap fun a =>
    match a with
    | 45 :: ds => if (natural? ds).isSome then [bytesOf option, ds] else [a]
    | a => [a]

/-- Breaks long lines. -/
def fold : Program := fun call =>
  let options : Options := {
    name := "fold"
    flags := "bs".toList
    valued := "w".toList
    words := [("bytes", 'b'), ("spaces", 's'), ("width", 'w')] }
  options.program (fun g call =>
    match columnCount "fold" "invalid number of columns" ((g.value? 'w').getD (bytesOf "80")) with
    | .error e => e
    | .ok width =>
      let (content, e) := readTogether "fold" 1 call (orInput g.operands)
      let (lines, ended) := linesOf content
      let out := joinLineEnds (lines.flatMap (foldLine width (g.has 'b') (g.has 's')))
      (Effect.say (if ended then out else out.dropLast)).followedBy e)
    { call with arguments := withCount "-w" call.arguments }

/-- The next stop of tabs behind a column; behind the last of several, the next column. -/
def nextStop (stops : List Nat) (column : Nat) : Nat :=
  match stops with
  | [stop] => (column / stop + 1) * stop
  | stops => (stops.find? fun stop => column < stop).getD (column + 1)

/-- Tabs as blanks up to the next stop; only those before all else if asked. -/
def expandTabs (stops : List Nat) (leading : Bool) (s : Bytes) : Bytes :=
  (s.foldl (fun (out, column, inFront) b =>
    if b = 9 && inFront then
      let next := nextStop stops column
      (List.replicate (next - column) 32 ++ out, next, true)
    else (b :: out, if b = 8 then column - 1 else column + 1, inFront && (!leading || b = 32)))
    (([] : Bytes), 0, true)).1.reverse

/-- The stops of an option, or what is wrong with them. -/
def tabStops (name : String) (s : Bytes) : Except Effect (List Nat) :=
  let complain (message : String) : Except Effect (List Nat) :=
    .error (Effect.complains 1 s!"{name}: {message}")
  match s.find? fun b => !isDigitByte b && b != 44 && b != 32 && b != 9 with
  | some _ => complain (s!"tab size contains invalid character(s): "
      ++ s!"'{textOf (s.dropWhile fun b => isDigitByte b || b = 44 || b = 32 || b = 9)}'")
  | none =>
    let stops := (splitByte 44 (s.map fun b => if isDigitByte b then b else 44)).filterMap natural?
    if stops.contains 0 then complain "tab size cannot be 0"
    else if stops.isEmpty then .ok [8]
    else if (stops.zip stops.tail).all fun (a, b) => a < b then .ok stops
    else complain "tab sizes must be ascending"

/-- Writes blanks for tabs. -/
def expand : Program := fun call =>
  let options : Options := {
    name := "expand"
    flags := "i".toList
    valued := "t".toList
    words := [("tabs", 't'), ("initial", 'i')] }
  options.program (fun g call =>
    match tabStops "expand" ((g.value? 't').getD (bytesOf "8")) with
    | .error e => e
    | .ok stops =>
      let (content, e) := readTogether "expand" 1 call (orInput g.operands)
      let (lines, ended) := linesOf content
      let out := joinLineEnds (lines.map (expandTabs stops (g.has 'i')))
      (Effect.say (if ended then out else out.dropLast)).followedBy e)
    { call with arguments := withCount "-t" call.arguments }

/-! ### Lines side by side -/

/-- Items with separators between them, which are used in turn. -/
def joinTurns (separators : List Bytes) : Nat → List Bytes → Bytes
  | _, [] => []
  | _, [s] => s
  | i, s :: rest => s ++ separators.getD (i % separators.length) [] ++ joinTurns separators (i + 1) rest

/-- The separators of a list with escapes; none if a backslash ends it. -/
def turnSeparators? : Bytes → Option (List Bytes)
  | [92] => none
  | 92 :: b :: s =>
    let separator : Bytes :=
      match [(48, []), (98, [8]), (102, [12]), (110, [10]), (114, [13]), (116, [9]),
        (118, [11])].lookup b with
      | some separator => separator
      | none => [b]
    (turnSeparators? s).map (separator :: ·)
  | b :: s => (turnSeparators? s).map ([b] :: ·)
  | [] => some []

/-- Writes the lines of files side by side, or each file in one line. -/
def paste : Program :=
  Options.program {
    name := "paste"
    flags := "sz".toList
    valued := "d".toList
    words := [("serial", 's'), ("delimiters", 'd'), ("zero-terminated", 'z')] }
    fun g call =>
      let files := orInput g.operands
      let list := (g.value? 'd').getD [9]
      let mark : UInt8 := if g.has 'z' then 0 else newlineByte
      match turnSeparators? list with
      | none => Effect.complains 1
          s!"paste: delimiter list ends with an unescaped backslash: {textOf list}"
      | some separators =>
        let separators := if separators.isEmpty then [[]] else separators
        let contents := files.map fun file => (file, call.read file)
        let lines (content : Except String Bytes) : List Bytes :=
          (stretchesOf mark (content.toOption.getD [])).1
        if g.has 's' then
          { Effect.all (contents.map fun (file, content) =>
              match content with
              | .ok _ => Effect.say (joinTurns separators 0 (lines content) ++ [mark])
              | .error reason => Effect.complains 1 s!"paste: {textOf file}: {reason}") with
            left := leftBehind files }
        else
          match contents.find? fun c => c.2.toOption.isNone with
          | some (file, .error reason) => Effect.complains 1 s!"paste: {textOf file}: {reason}"
          | _ =>
            let shared := files.filter (· = inputName)
            let columns := contents.map fun (file, content) => (lines content, file == inputName)
            -- The input is dealt out among its columns.
            let dealt := (columns.foldl (fun (done, k) (lines, isInput) =>
              if isInput then
                (pick (fun place => (place - 1) % shared.length = k) lines :: done, k + 1)
              else (lines :: done, k)) (([] : List (List Bytes)), 0)).1.reverse
            let rows := (dealt.map List.length).foldl max 0
            let arrays := dealt.map List.toArray
            let row (i : Nat) : Bytes := joinTurns separators 0 (arrays.map fun c => c.getD i [])
            { Effect.say (joinStretches mark ((List.range rows).map row)) with
              left := leftBehind files }

end Multipass.Shell
