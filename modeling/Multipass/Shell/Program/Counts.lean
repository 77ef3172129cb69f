import Multipass.Shell.Program.Columns

/-!
# Programs for repeated lines

Programs that compare neighbouring lines, compare the lines of sorted files, and count lines, words,
and bytes.
-/

namespace Multipass.Shell

/-! ### Sorted files -/

/-- How far two files are compared: the last line that was taken of each, whether a line stood alone,
which files are known to be out of order, how many lines stood in each column, and what is written,
the last line first. -/
structure Merging where
  lastOf : Bool → Option Bytes := fun _ => none
  alone : Bool := false
  disordered : List Bool := []
  totals : Nat × Nat × Nat := (0, 0, 0)
  written : List Bytes := []

/-- How the lines of sorted files are compared. -/
structure MergeStyle where
  shown : Nat → Bool
  separator : Bytes
  /-- Whether the order is always checked, or never; else it is where lines stand alone. -/
  checks : Option Bool

namespace Merging

/-- A line in one of three columns. -/
def put (m : Merging) (style : MergeStyle) (column : Nat) (s : Bytes) : Merging :=
  let gaps := (List.range' 1 (column - 1)).countP style.shown
  let (a, b, c) := m.totals
  { m with
    written :=
      if style.shown column then ((List.replicate gaps style.separator).flatten ++ s) :: m.written
      else m.written
    totals := if column = 1 then (a + 1, b, c) else if column = 2 then (a, b + 1, c) else (a, b, c + 1)
    alone := m.alone || column != 3 }

/-- Compares two neighbouring lines of the first file, or of the second. -/
def check (m : Merging) (style : MergeStyle) (second : Bool) (a : Option Bytes) (b : Bytes) : Merging :=
  match a with
  | none => m
  | some a =>
    if style.checks != some false && (style.checks = some true || m.alone)
        && !m.disordered.contains second && b < a then
      { m with disordered := m.disordered ++ [second] }
    else m

/-- Goes on behind a line of a file. -/
def step (m : Merging) (style : MergeStyle) (second : Bool) (line : Bytes) (rest : List Bytes) :
    Merging :=
  let m := match rest with
    | next :: _ => m.check style second (some line) next
    | [] => m.check style second (m.lastOf second) line
  { m with lastOf := fun file => if file = second then some line else m.lastOf file }

/-- Compares what is left of two files. `fuel` bounds the number of lines. -/
def run (style : MergeStyle) : (fuel : Nat) → Merging → List Bytes → List Bytes → Merging
  | 0, m, _, _ => m
  | fuel + 1, m, as, bs =>
    if style.checks = some true && !m.disordered.isEmpty then m
    else
      match as, bs with
      | [], [] => m
      | a :: as, [] => run style fuel ((m.put style 1 a).step style false a as) as []
      | [], b :: bs => run style fuel ((m.put style 2 b).step style true b bs) [] bs
      | a :: as, b :: bs =>
        if a = b then
          run style fuel (((m.put style 3 b).step style false a as).step style true b bs) as bs
        else if a < b then
          run style fuel ((m.put style 1 a).step style false a as) as (b :: bs)
        else run style fuel ((m.put style 2 b).step style true b bs) (a :: as) bs

end Merging

/-- Compares the lines of two sorted files. -/
def comm : Program :=
  let options : Options := {
    name := "comm"
    flags := "123z".toList
    words := [("check-order", 'o'), ("nocheck-order", 'n'), ("output-delimiter", 'd'), ("total", 't'),
      ("zero-terminated", 'z')]
    wordValued := ['d'] }
  options.program fun g call =>
    match g.operands with
    | [a, b] =>
      match call.read a, call.read b with
      | .ok x, .ok y =>
        let mark : UInt8 := if g.has 'z' then 0 else newlineByte
        let xs := (stretchesOf mark x).1
        let ys := (stretchesOf mark y).1
        let separator := (g.value? 'd').getD [9]
        let separator := if separator.isEmpty then [0] else separator
        let style : MergeStyle := {
          shown := fun n => !g.has (Char.ofNat (48 + n))
          separator
          checks := ((g.options.filter fun o => o.1 = 'o' || o.1 = 'n').getLast?).map
            fun o => o.1 == 'o' }
        let m := Merging.run style (xs.length + ys.length + 1) {} xs ys
        let (i, j, k) := m.totals
        let sum : List Bytes :=
          if g.has 't' && !(style.checks = some true && !m.disordered.isEmpty) then
            [separator.intercalate [decimal i, decimal j, decimal k, bytesOf "total"]]
          else []
        let complaints := m.disordered.map fun second =>
          Effect.complains 1 s!"comm: file {if second then 2 else 1} is not in sorted order"
        let last := if m.disordered.isEmpty || style.checks = some true then []
          else [Effect.complains 1 "comm: input is not in sorted order"]
        { Effect.all (Effect.say (joinStretches mark (m.written.reverse ++ sum)) :: complaints ++ last)
          with left := leftBehind [a, b] }
      | .error reason, _ => Effect.complains 1 s!"comm: {textOf a}: {reason}"
      | _, .error reason => Effect.complains 1 s!"comm: {textOf b}: {reason}"
    | [a] => options.complaint s!"missing operand after '{textOf a}'"
    | [] => options.complaint "missing operand"
    | _ :: _ :: c :: _ => options.complaint s!"extra operand '{textOf c}'"

/-! ### Repeated lines -/

/-- How a line is compared: without some fields and bytes, up to some bytes, in either case. -/
structure LineView where
  fields : Nat := 0
  bytes : Nat := 0
  width : Option Nat := none
  anyCase : Bool := false

/-- A line without its first fields. -/
def withoutFields : Nat → Bytes → Bytes
  | 0, s => s
  | n + 1, s =>
    let isBlank (b : UInt8) : Bool := b = 32 || b = 9
    withoutFields n ((s.dropWhile isBlank).dropWhile fun b => !isBlank b)

/-- The part of a line that is compared. -/
def LineView.part (v : LineView) (s : Bytes) : Bytes :=
  let s := (withoutFields v.fields s).drop v.bytes
  let s := (v.width.map s.take).getD s
  if v.anyCase then s.map fun b => if 65 ≤ b && b ≤ 90 then b + 32 else b else s

/-- Groups of neighbouring lines that are the same where they are compared. -/
def groupLines (v : LineView) : List Bytes → List (List Bytes)
  | [] => []
  | s :: rest =>
    match groupLines v rest with
    | (t :: ts) :: groups =>
      if v.part s = v.part t then (s :: t :: ts) :: groups
      else [s] :: (t :: ts) :: groups
    | groups => [s] :: groups

/-- The value among some words that a word names, which may be cut short, or what is wrong. -/
def wordChoice (options : Options) (option : String) (choices : List String) (word : Bytes) :
    Except Effect String :=
  let w := textOf word
  match if choices.contains w then [w] else choices.filter fun c => w.toList.isPrefixOf c.toList with
  | [choice] => .ok choice
  | several =>
    let kind := if several.isEmpty || word.isEmpty then "invalid" else "ambiguous"
    .error (options.complaint (s!"{kind} argument '{w}' for '--{option}'\nValid arguments are:\n"
      ++ String.intercalate "\n" (choices.map fun c => s!"  - '{c}'")))

/-- Groups of lines with an empty line at some of their borders. -/
def separated (before between behind : Bool) (groups : List (List Bytes)) : List Bytes :=
  let border (wanted : Bool) : List Bytes := if wanted then [[]] else []
  if groups.isEmpty then []
  else border before ++ (border between).intercalate groups ++ border behind

/-- Writes one line of each group. -/
def uniq : Program :=
  let options : Options := {
    name := "uniq"
    flags := "cdDiuz".toList
    valued := "fsw".toList
    words := [("count", 'c'), ("repeated", 'd'), ("all-repeated", 'a'), ("group", 'g'),
      ("ignore-case", 'i'), ("unique", 'u'), ("skip-fields", 'f'), ("skip-chars", 's'),
      ("check-chars", 'w'), ("zero-terminated", 'z')]
    wordOptional := ['a', 'g'] }
  let number (g : Given) (c : Char) (what : String) : Except Effect (Option Nat) :=
    match g.value? c with
    | none => .ok none
    | some s =>
      match natural? s with
      | some n => .ok (some n)
      | none => .error (Effect.complains 1 s!"uniq: {textOf s}: invalid number of {what}")
  let choice (g : Given) (c : Char) (name : String) (choices : List String) (default : String) :
      Except Effect String :=
    match g.value? c with
    | none | some [] => .ok default
    | some word => wordChoice options name choices word
  options.program fun g call =>
    let settled : Except Effect Effect := do
      let fields ← number g 'f' "fields to skip"
      let bytes ← number g 's' "bytes to skip"
      let width ← number g 'w' "bytes to compare"
      let repeats ← choice g 'a' "all-repeated" ["none", "prepend", "separate"] "none"
      let borders ← choice g 'g' "group" ["prepend", "append", "separate", "both"] "separate"
      let all := g.has 'D' || g.has 'a'
      if let _ :: _ :: c :: _ := g.operands then
        throw (options.complaint s!"extra operand '{textOf c}'")
      if g.has 'g' && (g.has 'c' || g.has 'd' || all || g.has 'u') then
        throw (options.complaint "--group is mutually exclusive with -c/-d/-D/-u")
      if all && g.has 'c' then
        throw (options.complaint "printing all duplicated lines and repeat counts is meaningless")
      let file := g.operands.headD inputName
      match call.read file with
      | .error reason =>
        throw (Effect.complains 1 (if reason = "Is a directory"
          then s!"uniq: error reading '{textOf file}': {reason}"
          else s!"uniq: {textOf file}: {reason}"))
      | .ok content =>
        let v : LineView := {
          fields := fields.getD 0
          bytes := bytes.getD 0
          width
          anyCase := g.has 'i' }
        let mark : UInt8 := if g.has 'z' then 0 else newlineByte
        let groups := (groupLines v (stretchesOf mark content).1).filter fun group =>
          (!(g.has 'd' || all) || group.length > 1) && (!g.has 'u' || group.length = 1)
        let lines : List Bytes :=
          if g.has 'g' then
            separated (borders = "prepend" || borders = "both") true
              (borders = "append" || borders = "both") groups
          else if all then separated (repeats = "prepend") (repeats != "none") false groups
          else groups.map fun group =>
            let s := group.headD []
            if g.has 'c' then padFront 7 (decimal group.length) ++ 32 :: s else s
        let out := joinStretches mark lines
        let e := match g.operands with
          | _ :: target :: _ =>
            call.writes target out fun reason => Effect.complains 1 s!"uniq: {textOf target}: {reason}"
          | _ => Effect.say out
        return { e with left := leftBehind [file] }
    match settled with
    | .ok e | .error e => e

/-! ### Counts -/

/-- The number of words, which blanks separate. -/
def wordCount (s : Bytes) : Nat :=
  let isBlank (b : UInt8) : Bool := b = 32 || (9 ≤ b && b ≤ 13)
  (s.foldl (fun (n, inside) b =>
    if isBlank b then (n, false) else if inside then (n, true) else (n + 1, true)) (0, false)).1

/-- The length of the longest line. -/
def longestLine (s : Bytes) : Nat :=
  ((linesOf s).1.map fun line => (expandTabs [8] false line).length).foldl max 0

/-- The counts that are asked for, in their order. -/
def counts (g : Given) (s : Bytes) : List Nat :=
  let plain := !(g.options.any fun o => ['l', 'w', 'm', 'c', 'L'].contains o.1)
  let asked (c : Char) : Bool := if plain then c != 'm' && c != 'L' else g.has c
  (if asked 'l' then [s.count newlineByte] else [])
    ++ (if asked 'w' then [wordCount s] else [])
    ++ (if asked 'm' then [s.length] else [])
    ++ (if asked 'c' then [s.length] else [])
    ++ (if asked 'L' then [longestLine s] else [])

/-- Counts lines, words, characters, and bytes. -/
def wc : Program :=
  let options : Options := {
    name := "wc"
    flags := "clmwL".toList
    words := [("bytes", 'c'), ("chars", 'm'), ("lines", 'l'), ("words", 'w'),
      ("max-line-length", 'L'), ("total", 't')]
    wordValued := ['t'] }
  options.program fun g call =>
    match wordChoice options "total" ["auto", "always", "only", "never"]
      ((g.value? 't').getD (bytesOf "auto")) with
    | .error e => e
    | .ok totals =>
      let files := orInput g.operands
      let contents := files.map fun file => (file, call.read file)
      let total := contents.flatMap fun c => c.2.toOption.getD []
      let single := files.length = 1 && (counts g []).length = 1
      let isFile (file : Bytes) : Bool :=
        if file = inputName then call.fromFile
        else match call.tree.find? (textOf file) with
          | some (.file ..) => true
          | some _ => false
          | none => file != bytesOf "/dev/null"
      let width :=
        if single && totals != "always" || totals = "only" then 1
        else max (decimal total.length).length (if files.all isFile then 1 else 7)
      let line (ns : List Nat) (name : Option Bytes) : Bytes :=
        [32].intercalate (ns.map fun n => padFront width (decimal n))
          ++ (name.elim [] (32 :: ·)) ++ [newlineByte]
      let effects := contents.map fun (file, content) =>
        let title := if g.operands.isEmpty then none else some file
        let say (s : Bytes) : Effect :=
          if totals = "only" then {} else Effect.say (line (counts g s) title)
        match content with
        | .ok s => say s
        | .error reason =>
          let e := Effect.complains 1 s!"wc: {textOf file}: {reason}"
          if reason = "Is a directory" then e.followedBy (say []) else e
      let longest := ((contents.map fun c => longestLine (c.2.toOption.getD [])).foldl max 0)
      let sums := counts g total
      let sums := if g.has 'L' then sums.dropLast ++ [longest] else sums
      let sum :=
        if totals = "only" then [Effect.say (line sums none)]
        else if totals = "always" || (totals = "auto" && files.length > 1) then
          [Effect.say (line sums (some (bytesOf "total")))]
        else []
      { Effect.all (effects ++ sum) with left := leftBehind files }

end Multipass.Shell
