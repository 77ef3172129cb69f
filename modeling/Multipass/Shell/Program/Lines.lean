import Multipass.Shell.Program.Regex

/-!
# Programs for lines

Programs that write files or the input, whole or in part: lines from the start or the end, numbered
or reversed.
-/

namespace Multipass.Shell

/-! ### Whole files -/

/-- A byte in visible form, but for tabs and line feeds. -/
def visible (b : UInt8) : Bytes :=
  let low (b : UInt8) : Bytes := if b < 32 then [94, b + 64] else if b = 127 then [94, 63] else [b]
  if b = 9 || b = 10 then [b]
  else if b < 128 then low b
  else [77, 45] ++ low (b - 128)

/-- Lines with what was asked for, from a number on, and whether the line before was empty. -/
def decorate (g : Given) : (number : Nat) → (afterEmpty : Bool) → List Bytes → List Bytes
  | _, _, [] => []
  | number, afterEmpty, line :: rest =>
    if g.has 's' && afterEmpty && line.isEmpty then decorate g number true rest
    else
      let numbered := g.has 'b' && !line.isEmpty || g.has 'n' && !g.has 'b'
      let front := if numbered then padFront 6 (decimal number) ++ [9] else []
      let all := g.has 'A'
      let body := if all || g.has 'v' || g.has 'e' || g.has 't' then line.flatMap visible else line
      let body := if all || g.has 'T' || g.has 't'
        then body.flatMap fun b => if b = 9 then [94, 73] else [b] else body
      let ending := if all || g.has 'E' || g.has 'e' then [36] else []
      (front ++ body ++ ending)
        :: decorate g (if numbered then number + 1 else number) line.isEmpty rest

/-- Writes files, or the input, one after the other. -/
def cat : Program :=
  Options.program {
    name := "cat"
    flags := "AbeEnstTuv".toList
    words := [("number-nonblank", 'b'), ("number", 'n'), ("squeeze-blank", 's'),
      ("show-nonprinting", 'v'), ("show-ends", 'E'), ("show-tabs", 'T'), ("show-all", 'A')] }
    fun g call =>
      let files := orInput g.operands
      if g.options.all fun o => o.1 = 'u' then
        { Effect.all (files.map fun file =>
            match call.read file with
            | .ok content => Effect.say content
            | .error reason => Effect.complains 1 s!"cat: {textOf file}: {reason}") with
          left := leftBehind files }
      else
        let (content, e) := readTogether "cat" 1 call files
        let (lines, ended) := linesOf content
        -- The end of the last line is shown only if there is one.
        let shown := decorate g 1 false lines
        let shown := if ended then joinLineEnds shown
          else
            let last := if g.has 'E' || g.has 'A' || g.has 'e' then (shown.getLastD []).dropLast
              else shown.getLastD []
            joinLineEnds shown.dropLast ++ last
        (Effect.say shown).followedBy e

/-- The pieces of bytes from the last to the first, found from the end: `before` tells whether a
mark starts its piece or ends it. All bytes and the mark are given from the last to the first;
`fuel` bounds the length. -/
def piecesBackward (mark : Bytes) (before : Bool) : (fuel : Nat) → (piece : Bytes) → Bytes → List Bytes
  | 0, piece, _ => [piece]
  | _, piece, [] => [piece]
  | fuel + 1, piece, b :: s =>
    if mark.isPrefixOf (b :: s) then
      let rest := (b :: s).drop mark.length
      if before then (mark.reverse ++ piece) :: piecesBackward mark before fuel [] rest
      else piece :: piecesBackward mark before fuel mark.reverse rest
    else piecesBackward mark before fuel (b :: piece) s

/-- Writes the lines of files, or other pieces, from the last to the first. -/
def tac : Program :=
  Options.program {
    name := "tac"
    flags := "b".toList
    valued := "s".toList
    words := [("before", 'b'), ("separator", 's')] } fun g call =>
    let mark := (g.value? 's').getD [newlineByte]
    let mark := if mark.isEmpty then [0] else mark
    { Effect.all ((orInput g.operands).map fun file =>
        match call.read file with
        | .error reason =>
          Effect.complains 1 (if reason = "Is a directory"
            then s!"tac: {textOf file}: read error: Invalid argument"
            else s!"tac: failed to open '{textOf file}' for reading: {reason}")
        | .ok content =>
          Effect.say
            (piecesBackward mark.reverse (g.has 'b') (content.length + 1) [] content.reverse).flatten)
      with left := leftBehind (orInput g.operands) }

/-- Writes each line from its last character to its first. -/
def rev : Program :=
  Options.program { name := "rev" } fun g call =>
    { Effect.all ((orInput g.operands).map fun file =>
        match call.read file with
        | .error reason => Effect.complains 1 s!"rev: cannot open {textOf file}: {reason}"
        | .ok content =>
          let (lines, ended) := linesOf content
          let turned := lines.map fun line => bytesOf (String.ofList (textOf line).toList.reverse)
          let out := joinLineEnds turned
          Effect.say (if ended then out else out.dropLast)) with
      left := leftBehind (orInput g.operands) }

/-- Which lines are numbered. -/
inductive Numbering where
  | every
  | filled
  | none
  | matching (r : Regex)

/-- The numbering that a style asks for. -/
def numbering? (style : Bytes) : Option Numbering :=
  match style with
  | [97] => some .every
  | [116] => some .filled
  | [110] => some .none
  | 112 :: pattern => (Regex.read {} pattern).toOption.map .matching
  | _ => Option.none

/-- Holds of a line that is numbered. -/
def Numbering.counts (n : Numbering) (line : Bytes) : Bool :=
  match n with
  | .every => true
  | .filled => !line.isEmpty
  | .none => false
  | .matching r => (({ bytes := line.toArray } : Subject).search? r 0).isSome

/-- A part of a page. -/
inductive PagePart where
  | header
  | body
  | footer

/-- The part of a page that begins behind a line, if it marks one. -/
def pagePart? (line : Bytes) : Option PagePart :=
  [("\\:\\:\\:", PagePart.header), ("\\:\\:", .body), ("\\:", .footer)].lookup (textOf line)

/-- An integer of an option within bounds, or what is wrong. -/
def boundedOption (g : Given) (c : Char) (default least : Int) (complaint : String) :
    Except Effect Int :=
  match g.value? c with
  | none => .ok default
  | some s =>
    let wrong (more : String) : Except Effect Int :=
      .error (Effect.complains 1 s!"{complaint}: '{textOf s}'{more}")
    match signedInt? s with
    | none => wrong ""
    | some i => if i < least then wrong ": Numerical result out of range" else .ok i

/-- Writes lines with numbers in front of them. -/
def nl : Program :=
  let options : Options := {
    name := "nl"
    flags := "p".toList
    valued := "bdfhilnsvw".toList
    words := [("header-numbering", 'h'), ("body-numbering", 'b'), ("footer-numbering", 'f'),
      ("starting-line-number", 'v'), ("line-increment", 'i'), ("no-renumber", 'p'),
      ("join-blank-lines", 'l'), ("number-separator", 's'), ("number-width", 'w'),
      ("number-format", 'n'), ("section-delimiter", 'd')] }
  let style (g : Given) (c : Char) (default : Numbering) (part : String) : Except Effect Numbering :=
    match g.value? c with
    | none => .ok default
    | some s =>
      match numbering? s with
      | some n => .ok n
      | none => .error (options.complaint s!"invalid {part} numbering style: '{textOf s}'")
  options.program fun g call =>
    let settled : Except Effect Effect := do
      let header ← style g 'h' .none "header"
      let body ← style g 'b' .filled "body"
      let footer ← style g 'f' .none "footer"
      let start ← boundedOption g 'v' 1 (-9223372036854775808) "nl: invalid starting line number"
      let step ← boundedOption g 'i' 1 (-9223372036854775808) "nl: invalid line number increment"
      let width := (← boundedOption g 'w' 6 1 "nl: invalid line number field width").toNat
      let layout := textOf ((g.value? 'n').getD (bytesOf "rn"))
      unless ["ln", "rn", "rz"].contains layout do
        throw (options.complaint s!"invalid line numbering format: '{layout}'")
      let separator := (g.value? 's').getD [9]
      let number (i : Int) : Bytes :=
        let ds := bytesOf (toString i.natAbs)
        let sign : Bytes := if i < 0 then [45] else []
        let fill := width - (sign.length + ds.length)
        if layout = "ln" then sign ++ ds ++ List.replicate fill 32
        else if layout = "rz" then sign ++ List.replicate fill 48 ++ ds
        else List.replicate fill 32 ++ sign ++ ds
      let rec go (n : Numbering) (i : Int) : List Bytes → List Bytes
        | [] => []
        | line :: rest =>
          match pagePart? line with
          | some .header => [] :: go header (if g.has 'p' then i else start) rest
          | some .body => [] :: go body (if g.has 'p' then i else start) rest
          | some .footer => [] :: go footer (if g.has 'p' then i else start) rest
          | none =>
            if n.counts line then (number i ++ separator ++ line) :: go n (i + step) rest
            else (List.replicate (width + separator.length) 32 ++ line) :: go n i rest
      let (content, e) := readTogether "nl" 1 call (orInput g.operands)
      return (Effect.say (joinLineEnds (go body start (linesOf content).1))).followedBy e
    match settled with
    | .ok e | .error e => e

/-! ### Parts of files -/

/-- The number of a suffix. -/
def suffixFactor (s : Bytes) : Option Nat :=
  [("", 1), ("b", 512), ("kB", 1000), ("k", 1024), ("K", 1024), ("KiB", 1024), ("MB", 1000000),
    ("M", 1048576), ("m", 1048576), ("MiB", 1048576)].lookup (textOf s)

/-- A number with a suffix. -/
def suffixed? (s : Bytes) : Option Nat := do
  let ds := s.takeWhile isDigitByte
  let n ← natural? ds
  let factor ← suffixFactor (s.drop ds.length)
  return n * factor

/-- Bytes cut behind some stretches that a mark ends. -/
def splitStretches (mark : UInt8) : (count : Nat) → Bytes → Bytes × Bytes
  | 0, s => ([], s)
  | count + 1, s =>
    let line := s.takeWhile (· != mark)
    match s.drop line.length with
    | [] => (line, [])
    | _ :: rest =>
      let (taken, rest) := splitStretches mark count rest
      (line ++ mark :: taken, rest)

/-- A share of a file: some lines or bytes, or all but some. -/
structure Share where
  bytes : Bool := false
  /-- What ends a line. -/
  mark : UInt8 := newlineByte
  /-- Whether the number counts from the other end. -/
  others : Bool := false
  count : Nat := 10

/-- The first part of bytes, and what is left. -/
def Share.first (h : Share) (s : Bytes) : Bytes × Bytes :=
  let size := if h.bytes then s.length else (stretchesOf h.mark s).1.length
  let count := if h.others then size - h.count else h.count
  if h.bytes then (s.take count, s.drop count) else splitStretches h.mark count s

/-- The last part of bytes. -/
def Share.last (h : Share) (s : Bytes) : Bytes :=
  let size := if h.bytes then s.length else (stretchesOf h.mark s).1.length
  let skipped := if h.others then h.count - 1 else size - h.count
  if h.bytes then s.drop skipped else (splitStretches h.mark skipped s).2

/-- The share that options ask for. The sign that counts from the other end is `mark`. -/
def share? (name : String) (mark : UInt8) (g : Given) : Except Effect Share :=
  let read (bytes : Bool) (s : Bytes) : Except Effect Share :=
    let (others, ds) := match s with
      | b :: ds => if b = mark then (true, ds) else if b = 43 || b = 45 then (false, ds) else (false, s)
      | [] => (false, [])
    match suffixed? ds with
    | some count => .ok { bytes, others, count, mark := if g.has 'z' then 0 else newlineByte }
    | none =>
      let unit := if bytes then "bytes" else "lines"
      .error (Effect.complains 1 s!"{name}: invalid number of {unit}: '{textOf s}'")
  match (g.options.filter fun o => o.1 = 'n' || o.1 = 'c').getLast? with
  | some ('c', s) => read true s
  | some (_, s) => read false s
  | none => .ok { mark := if g.has 'z' then 0 else newlineByte }

/-- Arguments of which the first one may be a hyphen, a number, and letters: it asks for that many
lines, or bytes. -/
def withFirstCount : List Bytes → Except Effect (List Bytes)
  | (45 :: b :: s) :: rest =>
    if !isDigitByte b then .ok ((45 :: b :: s) :: rest)
    else
      let ds := (b :: s).takeWhile isDigitByte
      let letters := (b :: s).drop ds.length
      match letters.find? fun b => !(bytesOf "bcklmqvz").contains b with
      | some b => .error (Effect.complains 1
          s!"head: invalid trailing option -- {charOf b}\nTry 'head --help' for more information.")
      | none =>
        let (bytes, unit) := letters.foldl (fun (bytes, unit) b =>
          if b = 99 then (true, []) else if b = 108 then (false, unit)
          else if b = 98 || b = 107 || b = 109 then (true, [b]) else (bytes, unit))
          (false, ([] : Bytes))
        let others := letters.filter fun b => b = 113 || b = 118 || b = 122
        .ok (bytesOf (if bytes then "-c" else "-n") :: (ds ++ unit)
          :: (if others.isEmpty then rest else (45 :: others) :: rest))
  | arguments => .ok arguments

/-- Arguments of which the first one, if there is at most one behind it, may be a sign, a number,
and letters: it asks for the lines, or bytes, from the end, or from the start. -/
def withLastCount (arguments : List Bytes) : List Bytes :=
  match arguments with
  | (sign :: s) :: rest =>
    let ds := s.takeWhile isDigitByte
    let letters := s.drop ds.length
    let unit := letters.headD 108
    let known := (letters.isEmpty || [98, 99, 108, 102].contains unit)
      && (letters.drop 1 = [] || (letters.drop 1 = [102] && unit != 102))
    let few := match rest with
      | [] => true
      | [b :: _ :: _] => b != 45
      | [_] => true
      | _ => false
    if (sign = 45 || sign = 43) && !ds.isEmpty && known && few then
      let count := if unit = 98 then ds ++ [98] else ds
      let front : Bytes := if sign = 43 then [43] else []
      bytesOf (if unit = 98 || unit = 99 then "-c" else "-n") :: (front ++ count)
        :: (if letters.contains 102 then bytesOf "-f" :: rest else rest)
    else arguments
  | [] => []
  | _ => arguments

/-- Writes parts of files, each with its name if there are several. -/
def partsOf (name : String) (g : Given) (call : Call) (part : Bytes → Bytes) : Effect :=
  let files := orInput g.operands
  let titled := (files.length > 1 && !g.has 'q') || g.has 'v'
  let title (first : Bool) (file : Bytes) : Bytes :=
    let shown := if file = inputName then bytesOf "standard input" else file
    if titled then (if first then [] else [newlineByte]) ++ bytesOf "==> " ++ shown ++ bytesOf " <==\n"
    else []
  let rec go (first : Bool) : List Bytes → List Effect
    | [] => []
    | file :: rest =>
      match call.read file with
      | .ok content => Effect.say (title first file ++ part content) :: go false rest
      | .error reason =>
        if reason = "Is a directory" then
          (Effect.say (title first file)).followedBy
            (Effect.complains 1 s!"{name}: error reading '{textOf file}': {reason}") :: go false rest
        else
          Effect.complains 1 s!"{name}: cannot open '{textOf file}' for reading: {reason}"
            :: go first rest
  { Effect.all (go true files) with left := leftBehind files }

/-- The file of zeros without an end. -/
def zeroFile : Bytes := bytesOf "/dev/zero"

/-- Writes the first part of files. -/
def head : Program := fun call =>
  let options : Options := {
    name := "head"
    flags := "qvz".toList
    valued := "nc".toList
    words := [("bytes", 'c'), ("lines", 'n'), ("quiet", 'q'), ("silent", 'q'), ("verbose", 'v'),
      ("zero-terminated", 'z')] }
  match withFirstCount call.arguments with
  | .error e => e
  | .ok arguments =>
    options.program (fun g call =>
      match share? "head" 45 g with
      | .error e => e
      | .ok h =>
        if g.operands = [zeroFile] && h.bytes then Effect.say (List.replicate h.count 0)
        else
          let e := partsOf "head" g call fun s => (h.first s).1
          if e.left.isSome then { e with left := some (h.first call.input).2 } else e)
      { call with arguments }

/-- Writes the last part of files. -/
def tail : Program := fun call =>
  let options : Options := {
    name := "tail"
    flags := "fFqvz".toList
    valued := "ncs".toList
    words := [("bytes", 'c'), ("follow", 'f'), ("lines", 'n'), ("quiet", 'q'), ("retry", 'R'),
      ("silent", 'q'), ("sleep-interval", 's'), ("verbose", 'v'), ("zero-terminated", 'z')] }
  options.program (fun g call =>
    match share? "tail" 43 g with
    | .error e => e
    | .ok h =>
      let e := partsOf "tail" g call h.last
      if (g.has 'f' || g.has 'F') && !g.operands.isEmpty then { e with endless := some [] } else e)
    { call with arguments := withLastCount call.arguments }

/-- Writes the input also to files. -/
def tee : Program :=
  Options.program {
    name := "tee"
    flags := "aip".toList
    words := [("append", 'a'), ("ignore-interrupts", 'i')] } fun g call =>
    let (tree, effects) := g.operands.foldl (fun (tree, effects) file =>
      let old := if g.has 'a' then (tree.read? (textOf file)).getD [] else []
      let e := { call with tree }.writes file (old ++ call.input) fun reason =>
        Effect.complains 1 s!"tee: {textOf file}: {reason}"
      (e.tree.getD tree, e :: effects)) (call.tree, ([] : List Effect))
    { Effect.all (Effect.say call.input :: effects.reverse) with
      tree := if g.operands.isEmpty then none else some tree
      left := some [] }

end Multipass.Shell
