import Multipass.Shell.Program.Format

/-!
# Small programs

Programs that write their arguments, parts of paths, numbers in a row, or what they know of the
system, and programs that only end or wait.
-/

namespace Multipass.Shell

/-! ### Arguments -/

/-- Writes arguments with blanks between them. The shell always reads escapes; the program of the
system does so if asked to. -/
def echo (style : Dialect) : Program := fun call =>
  match style with
  | .shell =>
    let (ended, arguments) : Bool × List Bytes := match call.arguments with
      | [45, 110] :: rest => (false, rest)
      | arguments => (true, arguments)
    let s := [32].intercalate arguments
    let (s, stop) := unescapeBytes .shell .argument (s.length + 1) s
    Effect.say (if ended && !stop then s ++ [newlineByte] else s)
  | .system =>
    let isOption (s : Bytes) : Bool :=
      s.length > 1 && s.head? = some 45 && (s.drop 1).all fun b => [110, 101, 69].contains b
    let options := (call.arguments.takeWhile isOption).flatMap fun s => s.drop 1
    let s := [32].intercalate (call.arguments.dropWhile isOption)
    let escapes := (options.reverse.find? fun b => b != 110) = some 101
    let (s, stop) :=
      if escapes then unescapeBytes .system .argument (s.length + 1) s else (s, false)
    Effect.say (if options.contains 110 || stop then s else s ++ [newlineByte])

/-- Writes a line again and again. -/
def yes : Program := fun call =>
  let line := if call.arguments.isEmpty then bytesOf "y" else [32].intercalate call.arguments
  { endless := some (line ++ [newlineByte]) }

/-! ### Paths -/

/-- A name without an ending, unless there is no more to it. -/
def withoutEnding (ending s : Bytes) : Bytes :=
  if ending.length < s.length && ending.isSuffixOf s then s.take (s.length - ending.length) else s

/-- Writes the last names of paths. -/
def basename : Program :=
  let options : Options := {
    name := "basename"
    flags := "az".toList
    valued := "s".toList
    words := [("multiple", 'a'), ("suffix", 's'), ("zero", 'z')]
    inOrder := true }
  options.program fun g _ =>
    let ending := if g.has 'z' then [0] else [newlineByte]
    let line (suffix path : Bytes) : Bytes := withoutEnding suffix (lastName path) ++ ending
    match g.operands, g.has 'a' || g.has 's' with
    | [], _ => options.complaint "missing operand"
    | paths, true => Effect.say (paths.flatMap (line ((g.value? 's').getD [])))
    | [path], false => Effect.say (line [] path)
    | [path, suffix], false => Effect.say (line suffix path)
    | _ :: _ :: other :: _, false => options.complaint s!"extra operand '{textOf other}'"

/-- Writes paths without their last names. -/
def dirname : Program :=
  let options : Options := {
    name := "dirname", flags := "z".toList, words := [("zero", 'z')] }
  options.program fun g _ =>
    if g.operands.isEmpty then options.complaint "missing operand"
    else
      let ending := if g.has 'z' then [0] else [newlineByte]
      Effect.say (g.operands.flatMap fun path => directoryName path ++ ending)

/-- The path from the top to a location. -/
def locationPath (location : Location) : Bytes :=
  bytesOf ("/" ++ "/".intercalate location.reverse)

/-- Writes the current directory. -/
def pwd : Program := fun call =>
  Effect.say (locationPath call.tree.current ++ [newlineByte])

/-- The path without links that a path leads to; its last name may lead nowhere. -/
def realPath? (tree : FileTree) (path : Bytes) : Except String Bytes :=
  match tree.resolve (textOf path) true with
  | .ok (location, _) => .ok (locationPath location)
  | .error .notFound =>
    if systemDirectories.contains (textOf path) then .ok path
    else
      match tree.resolve (textOf (directoryName path)) true with
      | .ok (location, .directory _) => .ok (locationPath (textOf (lastName path) :: location))
      | .ok _ => .error "Not a directory"
      | .error e =>
        if systemDirectories.contains (textOf (directoryName path)) then .ok path
        else .error (pathComplaint e)
  | .error e => .error (pathComplaint e)

/-- Writes paths without links. -/
def realpath : Program :=
  let options : Options := {
    name := "realpath"
    flags := "eqsmz".toList
    words := [("canonicalize-existing", 'e'), ("quiet", 'q'), ("no-symlinks", 's')] }
  options.program fun g call =>
    if g.operands.isEmpty then options.complaint "missing operand"
    else
      Effect.all (g.operands.map fun path =>
        let found := if g.has 'e' && (lookUp call.tree (textOf path) true).toOption.isNone
          then .error missing else realPath? call.tree path
        match found with
        | .ok s => Effect.say (s ++ [newlineByte])
        | .error reason => Effect.complains 1 s!"realpath: {textOf path}: {reason}")

/-- Writes what links hold, or paths without links. -/
def readlink : Program :=
  let options : Options := {
    name := "readlink"
    flags := "efmnqsvz".toList
    words := [("canonicalize", 'f'), ("no-newline", 'n')] }
  options.program fun g call =>
    if g.operands.isEmpty then options.complaint "missing operand"
    else
      let ending := if g.has 'n' then [] else [newlineByte]
      Effect.all (g.operands.map fun path =>
        if g.has 'f' || g.has 'e' || g.has 'm' then
          match realPath? call.tree path with
          | .ok s => Effect.say (s ++ ending)
          | .error _ => Effect.ends 1
        else
          match call.tree.resolve (textOf path) false with
          | .ok (_, .link target) => Effect.say (bytesOf target ++ ending)
          | _ => Effect.ends 1)

/-! ### Numbers -/

/-- A decimal: its digits without a point, and how many of them stand behind it. -/
structure SeqNumber where
  digits : Int
  places : Nat
  width : Nat

/-- The decimal that bytes spell. -/
def seqNumber? (s : Bytes) : Option SeqNumber :=
  let (negative, body) : Bool × Bytes := match s with
    | 45 :: rest => (true, rest)
    | 43 :: rest => (false, rest)
    | rest => (false, rest)
  let whole := body.takeWhile isDigitByte
  let fraction? : Option Bytes := match body.drop whole.length with
    | [] => some []
    | 46 :: rest => if rest.all isDigitByte then some rest else none
    | _ => none
  match fraction? with
  | some fraction =>
    (natural? (whole ++ fraction)).map fun n => {
      digits := if negative then -(n : Int) else n
      places := fraction.length
      width := (if negative then 1 else 0) + max 1 whole.length }
  | none => none

/-- A decimal with some places behind its point, filled up with zeros. -/
def seqText (places width : Nat) (i : Int) : Bytes :=
  let ds := decimal i.natAbs
  let ds := List.replicate (places + 1 - ds.length) 48 ++ ds
  let cut := ds.length - places
  let body := ds.take cut ++ (if places = 0 then [] else 46 :: ds.drop cut)
  let sign : Bytes := if i < 0 then [45] else []
  sign ++ List.replicate (width - body.length - sign.length) 48 ++ body

/-- Writes numbers in a row. -/
def seq : Program :=
  let options : Options := {
    name := "seq"
    flags := "w".toList
    valued := "sf".toList
    words := [("separator", 's'), ("equal-width", 'w'), ("format", 'f')]
    inOrder := true
    numbers := true }
  options.program fun g _ =>
    let scaled (places : Nat) (n : SeqNumber) : Int := n.digits * (Nat.pow 10 (places - n.places) : Nat)
    let one : SeqNumber := ⟨1, 0, 1⟩
    match g.operands with
    | [] => options.complaint "missing operand"
    | _ :: _ :: _ :: other :: _ => options.complaint s!"extra operand '{textOf other}'"
    | operands =>
      match operands.find? fun s => (seqNumber? s).isNone with
      | some s => options.complaint s!"invalid floating point argument: '{textOf s}'"
      | none =>
        let numbers := operands.filterMap seqNumber?
        let (first, step, last) : SeqNumber × SeqNumber × SeqNumber := match numbers with
          | [last] => (one, one, last)
          | [first, last] => (first, one, last)
          | first :: step :: last :: _ => (first, step, last)
          | [] => (one, one, one)
        let places := max first.places step.places
        let common := max places last.places
        let a := scaled common first
        let d := scaled common step
        let b := scaled common last
        if d = 0 then
          options.complaint s!"invalid Zero increment value: '{textOf ((operands.drop 1).headD [])}'"
        else
          let count := if (0 < d && b < a) || (d < 0 && a < b) then 0 else ((b - a).tdiv d).toNat + 1
          let unit : Nat := Nat.pow 10 (common - places)
          let item (k : Nat) : Int := (a + k * d).tdiv unit
          let point := if places = 0 then 0 else places + 1
          let width :=
            if g.has 'w' then
              max (first.width + point) ((decimal (item (count - 1)).natAbs).length
                + (if item (count - 1) < 0 then 1 else 0) + (if places = 0 then 0 else 1))
            else 0
          let separator := (g.value? 's').getD [newlineByte]
          let text (k : Nat) : Bytes :=
            let plain := seqText places width (item k)
            match g.value? 'f' with
            | some layout => (formatAll .system layout 1 [plain]).out
            | none => plain
          if count = 0 then Effect.ends 0
          else Effect.say (separator.intercalate ((List.range count).map text) ++ [newlineByte])

/-! ### Waiting and ending -/

/-- The milliseconds of a time with a unit. -/
def duration? (s : Bytes) : Option Nat :=
  let (body, factor) : Bytes × Nat := match s.reverse with
    | 115 :: rest => (rest.reverse, 1000)
    | 109 :: rest => (rest.reverse, 60000)
    | 104 :: rest => (rest.reverse, 3600000)
    | 100 :: rest => (rest.reverse, 86400000)
    | _ => (s, 1000)
  match seqNumber? body with
  | some n =>
    if n.digits < 0 then none else some (n.digits.toNat * factor / Nat.pow 10 n.places)
  | none => if textOf body = "infinity" || textOf body = "inf" then some 1000000000000 else none

/-- Waits. -/
def sleep : Program :=
  let options : Options := { name := "sleep" }
  options.program fun g _ =>
    if g.operands.isEmpty then options.complaint "missing operand"
    else
      match g.operands.filter fun s => (duration? s).isNone with
      | [] => { slept := (g.operands.filterMap duration?).foldl (· + ·) 0 }
      | bad =>
        let lines := bad.map fun s => s!"sleep: invalid time interval '{textOf s}'\n"
        { written := [(2, bytesOf (String.join lines ++ "Try 'sleep --help' for more information.\n"))]
          status := 1 }

/-- Ends with a status. -/
def ending (status : Nat) : Program := fun _ => Effect.ends status

/-! ### The system -/

/-- Writes all variables, or the values of some. -/
def printenv : Program := fun call =>
  if call.arguments.isEmpty then
    Effect.say (joinLineEnds (call.environment.reverse.map fun v => bytesOf v.1 ++ 61 :: v.2))
  else
    Effect.all (call.arguments.map fun name =>
      match call.environment.lookup (textOf name) with
      | some value => Effect.say (value ++ [newlineByte])
      | none => Effect.ends 1)

/-- Writes a line that does not change. -/
def constantly (line : String) : Program := fun _ => Effect.say (bytesOf (line ++ "\n"))

/-- Writes the name of the system. -/
def uname : Program := fun call =>
  match call.arguments.map textOf with
  | [] | ["-s"] => Effect.say (bytesOf "Linux\n")
  | ["-m"] => Effect.say (bytesOf "x86_64\n")
  | ["-o"] => Effect.say (bytesOf "GNU/Linux\n")
  | _ => Effect.say (bytesOf "Linux\n")

end Multipass.Shell
