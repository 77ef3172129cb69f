import Multipass.Shell.Run

/-!
# Programs that start others

The programs of the system that run another program: with other variables, with a limit of time, or
with arguments from the input.
-/

namespace Multipass.Shell

open Work

/-- Runs a program in the place of one that starts it. -/
def start (run : Runner) (name : Bytes) (arguments : List Bytes) (complaint : String → String) :
    Work Unit := do
  match findProgram (← get) name arguments with
  | .ok task => run task
  | .error (status, _) =>
    write 2 (bytesOf (complaint (if status = 127 then missing else "Permission denied") ++ "\n"))
    ends status

/-- Does something with sorted arguments. -/
def withOptions (o : Options) (arguments : List Bytes) (work : Given → Work Unit) : Work Unit :=
  match o.sort arguments with
  | .ok g => work g
  | .error e => takeUp e

/-! ### Variables -/

/-- The words of a text, which blanks separate and quotes hold together. `fuel` bounds its
length. -/
def textWords : (fuel : Nat) → (word : Option Bytes) → Bytes → List Bytes
  | 0, word, _ => (word.map List.reverse).toList
  | _, word, [] => (word.map List.reverse).toList
  | fuel + 1, word, b :: s =>
    let current := word.getD []
    if b = 32 || (9 ≤ b && b ≤ 13) then (word.map List.reverse).toList ++ textWords fuel none s
    else if b = 39 || b = 34 then
      let inner := s.takeWhile (· != b)
      textWords fuel (some (inner.reverse ++ current)) (s.drop (inner.length + 1))
    else if b = 92 then
      match s with
      | c :: rest => textWords fuel (some (c :: current)) rest
      | [] => [(b :: current).reverse]
    else textWords fuel (some (b :: current)) s

/-- Arguments in which the text of a first option is split into words. -/
def withSplitText (arguments : List Bytes) : List Bytes :=
  match arguments with
  | [45, 83] :: s :: rest => textWords (s.length + 1) none s ++ rest
  | (45 :: 83 :: s) :: rest => textWords (s.length + 1) none s ++ rest
  | arguments => arguments

/-- Runs a program with other variables, or writes them. -/
def startWithVariables (run : Runner) (title : String) (arguments : List Bytes) : Work Unit := do
  let options : Options := {
    name := title
    flags := "i0v".toList
    valued := "CuS".toList
    words := [("ignore-environment", 'i'), ("null", '0'), ("unset", 'u'), ("chdir", 'C'),
      ("debug", 'v'), ("split-string", 'S')]
    status := 125
    inOrder := true }
  withOptions options (withSplitText arguments) fun g => do
    let bare := g.operands.head? = some [45]
    let operands := if bare then g.operands.drop 1 else g.operands
    if g.has 'i' || bare then modify fun m => { m with known := [] }
    for name in g.values 'u' do
      if name.isEmpty || name.contains 61 then
        return ← quits 125 s!"{title}: cannot unset '{textOf name}': Invalid argument"
      modify fun m => { m with known := m.known.filter fun v => v.1 != textOf name }
    let settings := operands.takeWhile fun s => s.contains 61
    for s in settings do
      modify fun m => m.setVariable (textOf (s.takeWhile (· != 61)))
        { value := some ((s.dropWhile (· != 61)).drop 1), exported := true }
    match operands.drop settings.length with
    | [] =>
      if g.has 'C' then takeUp (options.complaint "must specify command with --chdir (-C)")
      else
        let mark : UInt8 := if g.has '0' then 0 else newlineByte
        write 1 (joinStretches mark ((← get).environment.reverse.map fun v => bytesOf v.1 ++ 61 :: v.2))
        ends 0
    | name :: rest =>
      if g.has '0' then takeUp (options.complaint "cannot specify --null (-0) with command")
      else
        if let some place := g.value? 'C' then
          let m ← get
          match m.tree.resolve (textOf place) true with
          | .ok (location, .directory _) =>
            modify fun m => { m with tree := { m.tree with current := location } }
          | other =>
            let reason := match other with
              | .ok _ => "Not a directory"
              | .error e => pathComplaint e
            return ← quits 125 s!"{title}: cannot change directory to '{textOf place}': {reason}"
        let hint := if name.contains 32 || name.contains 9
          then s!"\n{title}: use -[v]S to pass options in shebang lines" else ""
        start run name rest fun reason => s!"{title}: '{textOf name}': {reason}{hint}"
where
  quits (status : Nat) (message : String) : Work Unit := do
    write 2 (bytesOf (message ++ "\n"))
    ends status

/-! ### Time -/

/-- Runs a program until a time is over. -/
def startWithin (run : Runner) (title : String) (arguments : List Bytes) : Work Unit := do
  let options : Options := {
    name := title
    flags := "v".toList
    valued := "ks".toList
    words := [("foreground", 'f'), ("kill-after", 'k'), ("preserve-status", 'p'), ("signal", 's'),
      ("verbose", 'v')]
    status := 125
    inOrder := true }
  withOptions options arguments fun g => do
    let complain (message : String) : Work Unit := takeUp (options.complaint message)
    match (g.values 'k').find? fun s => (duration? s).isNone with
    | some s => complain s!"invalid time interval '{textOf s}'"
    | none =>
      match (g.values 's').find? fun s => (signal? s).isNone with
      | some s => complain s!"'{textOf s}': invalid signal"
      | none =>
        match g.operands with
        | [] | [_] => takeUp (Effect.complains 125 options.advice)
        | time :: name :: arguments =>
          match duration? time with
          | none => complain s!"invalid time interval '{textOf time}'"
          | some millis => do
            let signal := ((g.value? 's').bind signal?).getD 15
            let m ← get
            let limit := if millis = 0 then m.limit else min m.limit (m.elapsed + millis)
            let ending ← restoring (fun before after => { after with limit := before.limit }) do
              modify fun m => { m with limit }
              restoring Machine.rejoin do
                toEnd run (start run name arguments fun reason =>
                  s!"{title}: failed to run command '{textOf name}': {reason}")
            match ending with
            | .endless =>
              if limit = m.limit then throw .endless
              else
                modify fun m => { m with elapsed := limit }
                if g.has 'v' then
                  let sent := signalName signal
                  write 2 (bytesOf
                    s!"{title}: sending signal {sent} to command '{textOf name}'\n")
                if signal = 9 then throw (.killed 9)
                else ends (if g.has 'p' then 128 + signal else 124)
            | .killed signal => throw (.killed signal)
            | .exited => pure ()

/-- Runs a program that others go before. -/
def startNicely (run : Runner) (title : String) (arguments : List Bytes) : Work Unit := do
  let options : Options := {
    name := title
    valued := "n".toList
    words := [("adjustment", 'n')]
    status := 125
    inOrder := true }
  let arguments := match arguments with
    | (45 :: s) :: rest => if (signedInt? s).isSome then bytesOf "-n" :: s :: rest else arguments
    | arguments => arguments
  withOptions options arguments fun g => do
    match (g.value? 'n').filter fun s => (signedInt? s).isNone with
    | some s => takeUp (Effect.complains 125 s!"{title}: invalid adjustment '{textOf s}'")
    | none =>
      match g.operands with
      | [] =>
        if g.has 'n' then takeUp (options.complaint "a command must be given with an adjustment")
        else takeUp (Effect.say (bytesOf "0\n"))
      | name :: arguments =>
        start run name arguments fun reason => s!"{title}: '{textOf name}': {reason}"

/-- Runs a program that does not hear of the end of its terminal. -/
def startUnheard (run : Runner) (title : String) (arguments : List Bytes) : Work Unit := do
  let options : Options := { name := title, status := 125, inOrder := true }
  withOptions options arguments fun g => do
    match g.operands with
    | [] => takeUp (options.complaint "missing operand")
    | name :: arguments =>
      start run name arguments fun reason =>
        s!"{title}: failed to run command '{textOf name}': {reason}"

/-! ### Arguments from the input -/

/-- A word of the input, and whether its line ends behind it. -/
abbrev InputWord := Bytes × Bool

/-- The words in an input, which blanks separate, or only line feeds, quotes hold together, and a
backslash lets stand for themselves; and the quote that is not closed, if there is one. `fuel`
bounds the length. -/
def inputWords (byLines : Bool) : (fuel : Nat) → (word : Option Bytes) → Bytes →
    List InputWord × Option UInt8
  | 0, _, _ => ([], none)
  | _, word, [] => (((word.map fun w => (w.reverse, true))).toList, none)
  | fuel + 1, word, b :: s =>
    let current := word.getD []
    let isBlank := b = 32 || b = 9
    if b = newlineByte || (isBlank && (!byLines || word.isNone)) then
      let (others, open?) := inputWords byLines fuel none s
      ((word.map fun w => (w.reverse, b == newlineByte)).toList ++ others, open?)
    else if b = 39 || b = 34 then
      let inner := s.takeWhile fun c => c != b && c != newlineByte
      match s.drop inner.length with
      | c :: rest =>
        if c = b then inputWords byLines fuel (some (inner.reverse ++ current)) rest
        else ([], some b)
      | [] => ([], some b)
    else if b = 92 then
      match s with
      | c :: rest => inputWords byLines fuel (some (c :: current)) rest
      | [] => ([(current.reverse, true)], none)
    else inputWords byLines fuel (some (b :: current)) s

/-- Words in lists of some lines each. `fuel` bounds the number of words. -/
def byLines (count : Nat) : (fuel : Nat) → (ended : Nat) → (line : List Bytes) → List InputWord →
    List (List Bytes)
  | 0, _, _, _ => []
  | _, _, line, [] => if line.isEmpty then [] else [line.reverse]
  | fuel + 1, ended, line, (w, ends) :: rest =>
    let ended := if ends then ended + 1 else ended
    if count ≤ ended then (w :: line).reverse :: byLines count fuel 0 [] rest
    else byLines count fuel ended (w :: line) rest

/-- Lists of up to some items. `fuel` bounds their number. -/
def batches {α : Type} (size : Nat) : (fuel : Nat) → List α → List (List α)
  | 0, _ => []
  | _, [] => []
  | fuel + 1, items => items.take (max 1 size) :: batches size fuel (items.drop (max 1 size))

/-- Bytes in which others stand for each occurrence of a mark. `fuel` bounds the length. -/
def replaceBytes (mark new : Bytes) : (fuel : Nat) → Bytes → Bytes
  | 0, s => s
  | _, [] => []
  | fuel + 1, b :: s =>
    if !mark.isEmpty && mark.isPrefixOf (b :: s) then
      new ++ replaceBytes mark new fuel ((b :: s).drop mark.length)
    else b :: replaceBytes mark new fuel s

/-- How the words of the input become arguments. -/
inductive ArgumentPlan where
  | all
  | upTo (count : Nat)
  | lines (count : Nat)
  | inPlaceOf (mark : Bytes)

namespace ArgumentPlan

/-- The option of a plan. -/
def option : ArgumentPlan → String
  | .all => ""
  | .upTo _ => "--max-args"
  | .lines _ => "-L"
  | .inPlaceOf _ => "--replace/-I/-i"

/-- The plan of options, with a warning for each that another one takes the place of; or what is
wrong with a number. -/
def ofOptions (o : Options) (options : List (Char × Bytes)) :
    Except Effect (ArgumentPlan × List String) :=
  let number (c : Char) (s : Bytes) : Except Effect Nat :=
    match natural? s with
    | some 0 => .error (o.complaint s!"value 0 for -{c} option should be >= 1")
    | some n => .ok n
    | none => .error (o.complaint s!"invalid number \"{textOf s}\" for -{c} option")
  options.foldlM (fun (plan, warnings) (c, s) => do
    let next : Option ArgumentPlan ← match c with
      | 'n' => do pure (some (.upTo (← number 'n' s)))
      | 'L' => do pure (some (.lines (← number 'L' s)))
      | 'l' => do pure (some (.lines (← number 'l' (if s.isEmpty then [49] else s))))
      | 'I' => pure (some (.inPlaceOf s))
      | 'i' => pure (some (.inPlaceOf (if s.isEmpty then bytesOf "\x7b\x7d" else s)))
      | 'P' => do
        if (natural? s).isNone then
          throw (o.complaint s!"invalid number \"{textOf s}\" for -P option")
        pure none
      | _ => pure none
    match next, plan with
    | none, plan => return (plan, warnings)
    | some (.upTo 1), .inPlaceOf mark => return (.inPlaceOf mark, warnings)
    | some next, plan =>
      let clash := plan.option != "" && plan.option != next.option
      return (next, if clash then warnings ++
        [s!"warning: options {plan.option} and {next.option} are mutually exclusive, ignoring previous {plan.option} value"]
        else warnings)) (.all, [])

/-- The lists of arguments behind a program. -/
def calls (plan : ArgumentPlan) (program : List Bytes) (words : List InputWord) : List (List Bytes) :=
  let ws := words.map Prod.fst
  match plan with
  | .all => [program ++ ws]
  | .upTo count => (batches count (ws.length + 1) ws).map fun ws => program ++ ws
  | .lines count => (byLines count (ws.length + 1) 0 [] words).map fun ws => program ++ ws
  | .inPlaceOf mark => ws.map fun w =>
    match program with
    | name :: rest => name :: rest.map fun s => replaceBytes mark w (s.length + 1) s
    | [] => []

end ArgumentPlan

/-- Arguments in which the options with a value that may be left out have their value apart. -/
def withLooseValues : List Bytes → List Bytes
  | [] => []
  | a :: rest =>
    match a with
    | [45, 105] => bytesOf "--replace" :: withLooseValues rest
    | 45 :: 105 :: s => bytesOf "-I" :: s :: withLooseValues rest
    | [45, 108] => bytesOf "--max-lines" :: withLooseValues rest
    | 45 :: 108 :: s => bytesOf "-L" :: s :: withLooseValues rest
    | a => if a.head? = some 45 then a :: withLooseValues rest else a :: rest

/-- Runs a program again and again with arguments from the input. -/
def startWithInput (run : Runner) (title : String) (arguments : List Bytes) : Work Unit := do
  let options : Options := {
    name := title
    flags := "0rtpxo".toList
    valued := "aEnIdLPs".toList
    words := [("null", '0'), ("arg-file", 'a'), ("delimiter", 'd'), ("eof", 'E'), ("replace", 'i'),
      ("max-lines", 'l'), ("max-args", 'n'), ("open-tty", 'o'), ("interactive", 'p'),
      ("no-run-if-empty", 'r'), ("max-chars", 's'), ("verbose", 't'), ("exit", 'x'),
      ("max-procs", 'P')]
    wordOptional := ['i', 'l']
    inOrder := true }
  withOptions options (withLooseValues arguments) fun g => do
    match ArgumentPlan.ofOptions options g.options with
    | .error e => takeUp e
    | .ok (plan, warnings) =>
      for w in warnings do
        write 2 (bytesOf s!"{title}: {w}\n")
      let m ← get
      let supply := m.supply? 0
      let input := match g.value? 'a' with
        | some file => (fileContent m.tree file).toOption.getD []
        | none => (supply.map fun s => s.2.rest).getD []
      if let some (n, s) := supply then
        if !g.has 'a' then
          modify fun m => m.setSupply n { s with rest := [] }
          waitUntil s.ends
          if s.endless then throw .endless
      let pieces (separator : UInt8) : List InputWord × Option UInt8 :=
        ((stretchesOf separator input).1.map fun s => (s, true), none)
      let isReplaced := match plan with
        | .inPlaceOf _ => true
        | _ => false
      let (words, open?) :=
        if g.has '0' then pieces 0
        else
          match g.value? 'd' with
          | some d => pieces ((unescapeBytes .system .format (d.length + 1) d).1.headD 0)
          | none => inputWords isReplaced (input.length + 1) none input
      let words := match (g.value? 'E').filter fun s => !s.isEmpty with
        | some stop => words.takeWhile fun w => w.1 != stop
        | none => words
      let program := if g.operands.isEmpty then [bytesOf "echo"] else g.operands
      let calls : List (List Bytes) :=
        if words.isEmpty && (g.has 'r' || isReplaced || open?.isSome) then []
        else if words.isEmpty then [program]
        else plan.calls program words
      let status ← go title (g.has 't') calls 0
      match open? with
      | none => ends status
      | some quote =>
        let kind := if quote = 39 then "single" else "double"
        write 2 (bytesOf (s!"{title}: unmatched {kind} quote; by default quotes are special to "
          ++ "xargs unless you use the -0 option\n"))
        ends 1
where
  go (title : String) (shown : Bool) : List (List Bytes) → (status : Nat) → Work Nat
    | [], status => return status
    | [] :: rest, status => go title shown rest status
    | (name :: arguments) :: rest, status => do
      if shown then write 2 ([32].intercalate ((name :: arguments).map quotedWord) ++ [newlineByte])
      match findProgram (← get) name arguments with
      | .error (code, _) =>
        let reason := if code = 127 then missing else "Permission denied"
        write 2 (bytesOf s!"{title}: {textOf name}: {reason}\n")
        return code
      | .ok task =>
        match ← process run task with
        | .endless => throw .endless
        | .killed signal =>
          write 2 (bytesOf s!"{title}: {textOf name}: terminated by signal {signal}\n")
          return 125
        | .exited =>
          let code := (← get).status
          if code = 255 then
            write 2 (bytesOf s!"{title}: {textOf name}: exited with status 255; aborting\n")
            return 124
          else go title shown rest (if code = 0 then status else 123)
  /-- A word as a shell reads it. -/
  quotedWord (s : Bytes) : Bytes :=
    let plain (b : UInt8) : Bool :=
      isLetterByte b || isDigitByte b || (bytesOf "%+,-./:@_").contains b
    if !s.isEmpty && s.all plain then s
    else if !s.contains 39 then 39 :: s ++ [39]
    else s.flatMap fun b => if b = 39 then bytesOf "'\\''" else [b]

end Multipass.Shell
