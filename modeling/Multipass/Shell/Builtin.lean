import Multipass.Shell.Machine
import Multipass.Shell.Program.Condition
import Multipass.Shell.Program.Print

/-!
# Commands of the shell itself

Commands that change the shell or leave a part of it, and programs that the shell has within. Some
of them are special: assignments in front of them last, and their failure ends the shell.
-/

namespace Multipass.Shell

open Work

/-- A task of a shell or of the system. -/
inductive Task where
  | command (c : Command)
  /-- The lines of a script. -/
  | script (s : Source)
  /-- A program of the system by its name, and the name that it is called by. -/
  | program (name title : String) (arguments : List Bytes)
  /-- An executable file by its path. -/
  | file (path : String) (arguments : List Bytes)

/-- Carries out tasks. -/
abbrev Runner := Task → Work Unit

/-- A command of the shell by its arguments. -/
abbrev Builtin := Runner → List Bytes → Work Unit

/-- The task of the commands in a text, from a line on. -/
def Task.ofText (s : Bytes) (line : Nat) : Task :=
  .script { rest := (textOf s).toList, line }

/-! ### Texts -/

/-- A text in single quotes. -/
def quotedText (s : Bytes) : Bytes :=
  39 :: (s.flatMap fun b => if b = 39 then bytesOf "'\"'\"'" else [b]) ++ [39]

/-- Variables with their values, in the order of their names. -/
def variableLines (front : String) (vs : List (String × Variable)) : Bytes :=
  let sorted := vs.mergeSort fun a b => decide (bytesOf a.1 ≤ bytesOf b.1)
  sorted.flatMap fun (name, v) =>
    bytesOf (front ++ name) ++ (match v.value with
      | some value => 61 :: quotedText value
      | none => []) ++ [newlineByte]

/-- A number in an argument, or a complaint that ends the command. -/
def numberOf (s : Bytes) : Work Nat :=
  match natural? s with
  | some n => return n
  | none => aborts s!"Illegal number: {textOf s}"

/-! ### Signals -/

/-- The names of signals. -/
def signalNames : List (String × Nat) :=
  [("EXIT", 0), ("HUP", 1), ("INT", 2), ("QUIT", 3), ("ILL", 4), ("TRAP", 5), ("ABRT", 6),
    ("BUS", 7), ("FPE", 8), ("KILL", 9), ("USR1", 10), ("SEGV", 11), ("USR2", 12), ("PIPE", 13),
    ("ALRM", 14), ("TERM", 15), ("STKFLT", 16), ("CHLD", 17), ("CONT", 18), ("STOP", 19),
    ("TSTP", 20), ("TTIN", 21), ("TTOU", 22), ("URG", 23), ("XCPU", 24), ("XFSZ", 25),
    ("VTALRM", 26), ("PROF", 27), ("WINCH", 28), ("IO", 29), ("PWR", 30), ("SYS", 31)]

/-- The signal of a name or a number. -/
def signal? (s : Bytes) : Option Nat :=
  match natural? s with
  | some n => if n < 65 then some n else none
  | none => signalNames.lookup (textOf s).toUpper

/-- The name of a signal. -/
def signalName (n : Nat) : String :=
  ((signalNames.find? fun s => s.2 = n).map Prod.fst).getD (toString n)

/-- Signals that a process may pass over. -/
def harmlessSignals : List Nat := [17, 18, 23, 28]

/-- Sends a signal to a process. -/
def sendSignal (run : Runner) (signal process : Nat) : Work Unit := do
  let m ← get
  if process = m.process || process = m.copy then
    if signal = 0 || harmlessSignals.contains signal then ends 0
    else
      match if signal = 9 then none else m.traps.lookup signal with
      | some body =>
        ends 0
        if !body.isEmpty then
          run (Task.ofText body 1)
          ends 0
      | none => throw (.killed signal)
  else
    match m.jobs.find? fun j => j.process = process with
    | none => fails 1 "No such process\n"
    | some job =>
      ends 0
      if m.elapsed < job.ends && signal != 0 && !harmlessSignals.contains signal then
        let now := m.elapsed
        modify fun m => { m with
          jobs := m.jobs.map fun j =>
            if j.process = process then { j with ends := now, status := 128 + signal } else j
          held := m.held.map fun h =>
            if h.process = process then { h with time := min h.time now } else h
          written := m.written.filter fun c => c.process != process || c.time ≤ now }

/-- Sends signals. -/
def kill : Builtin := fun run arguments => do
  let usage := "Usage: kill [-s sigspec | -signum | -sigspec] [pid | job]... or\nkill -l [exitstatus]"
  let send (signal : Nat) (targets : List Bytes) : Work Unit := do
    if targets.isEmpty then aborts usage
    for target in targets do
      match natural? target with
      | some process => sendSignal run signal process
      | none => aborts s!"Illegal number: {textOf target}"
  match arguments with
  | [45, 108] :: rest =>
    match rest with
    | [] =>
      write 1 (joinLineEnds (signalNames.map fun s => bytesOf s.1))
      ends 0
    | s :: _ =>
      write 1 (bytesOf (signalName (((natural? s).getD 0) % 128) ++ "\n"))
      ends 0
  | [45, 115] :: name :: targets =>
    match signal? name with
    | some signal => send signal targets
    | none => aborts s!"invalid signal number or name: {textOf name}"
  | [45, 45] :: targets => send 15 targets
  | (45 :: name) :: targets =>
    match signal? name with
    | some signal => send signal targets
    | none => aborts s!"Illegal option -{charOf (name.headD 0)}"
  | targets => send 15 targets

/-- Sets what is done at signals, or tells it. -/
def trap : Builtin := fun _ arguments => do
  let arguments := if arguments.head? = some [45, 45] then arguments.tail else arguments
  let place (action : Option Bytes) (names : List Bytes) : Work Unit := do
    ends 0
    for name in names do
      match signal? name with
      | none => fails 1 s!"{textOf name}: bad trap"
      | some n =>
        modify fun m =>
          let others := m.traps.filter fun t => t.1 != n
          { m with traps := (action.map fun a => (n, a)).toList ++ others }
  match arguments with
  | [] =>
    let m ← get
    let sorted := m.traps.mergeSort fun a b => a.1 ≤ b.1
    write 1 (sorted.flatMap fun (n, body) =>
      bytesOf "trap -- " ++ quotedText body ++ bytesOf s!" {signalName n}\n")
    ends 0
  | action :: names =>
    if names.isEmpty || (natural? action).isSome then place none arguments
    else place (if action = [45] then none else some action) names

/-! ### Leaving -/

/-- Leaves with a status that an argument may give. -/
def leave (leave : Leave) : Builtin := fun _ arguments => do
  match arguments with
  | s :: _ =>
    let n ← numberOf s
    ends (n % 256)
  | [] => pure ()
  throw leave

/-- Leaves loops, as many as an argument asks for. -/
def leaveLoops (again : Bool) : Builtin := fun _ arguments => do
  let levels ← match arguments with
    | s :: _ => numberOf s
    | [] => pure 1
  let m ← get
  ends 0
  if m.loops = 0 then return ()
  else throw (.loops again (min levels m.loops))

/-! ### Variables -/

/-- Marks variables, which may be set at the same time. -/
def markVariables (front : String) (mark : Variable → Variable) (marked : Variable → Bool) :
    Builtin := fun _ arguments => do
  let m ← get
  if arguments.isEmpty || arguments.head? = some [45, 112] then
    write 1 (variableLines front (m.known.filter fun v => marked v.2))
    ends 0
  else
    ends 0
    for s in arguments do
      let name := textOf (s.takeWhile (· != 61))
      if !isName name.toList then aborts s!"{name}: bad variable name"
      if s.contains 61 then assign name ((s.dropWhile (· != 61)).drop 1)
      modify fun m => m.setVariable name (mark (m.named name))

/-- Gives variables of the surroundings a value of their own within a function. -/
def ownVariables : Builtin := fun _ arguments => do
  if (← get).calls = 0 then aborts "not in a function"
  ends 0
  for s in arguments do
    let name := textOf (s.takeWhile (· != 61))
    if !isName name.toList then aborts s!"{name}: bad variable name"
    modify fun m =>
      if (m.hidden.lookup name).isSome then m
      else { m with hidden := (name, m.named name) :: m.hidden }
    if s.contains 61 then assign name ((s.dropWhile (· != 61)).drop 1)

/-- Removes variables, or functions. -/
def unset : Builtin := fun _ arguments => do
  let functions := arguments.head? = some (bytesOf "-f")
  let names := if functions || arguments.head? = some (bytesOf "-v") then arguments.tail else arguments
  ends 0
  for s in names do
    let name := textOf s
    let m ← get
    if functions then modify fun m => { m with functions := m.functions.filter fun f => f.1 != name }
    else if (m.named name).readOnly then aborts s!"{name}: is read only"
    else modify fun m => { m with known := m.known.filter fun v => v.1 != name }

/-- The letters of the options by their names. -/
def optionNames : List (String × Char) :=
  [("errexit", 'e'), ("noglob", 'f'), ("ignoreeof", 'I'), ("interactive", 'i'), ("monitor", 'm'),
    ("noexec", 'n'), ("stdin", 's'), ("xtrace", 'x'), ("verbose", 'v'), ("vi", 'V'), ("emacs", 'E'),
    ("noclobber", 'C'), ("allexport", 'a'), ("notify", 'b'), ("nounset", 'u'),
    ("privileged", 'p'), ("nolog", 'N'),
    ("debug", 'D')]

/-- The sign in front of options that are set, or taken back. -/
def optionSign (on : Bool) : String :=
  if on then "-" else "+"

/-- Which options are set. -/
def optionTable (m : Machine) : Bytes :=
  let row (o : String × Char) : Bytes :=
    let blanks := String.ofList (List.replicate (16 - o.1.length) ' ')
    let state := if m.options.contains o.2 then "on" else "off"
    bytesOf s!"{o.1}{blanks}{state}\n"
  bytesOf "Current option settings\n" ++ optionNames.flatMap row

/-- Sets options or takes them back. -/
def setOptions (on : Bool) (letters : List Char) : Work Unit := do
  for c in letters do
    if (optionNames.map Prod.snd).contains c then
      modify fun m =>
        let others := m.options.filter (· != c)
        { m with options := if on then others ++ [c] else others }
    else aborts s!"Illegal option {optionSign on}{c}"

/-- Reads options at the front of arguments, and yields the others, if there are others or if they
are to be none. -/
def takeOptions : List Bytes → Work (Option (List Bytes))
  | [] => return none
  | s :: rest =>
    match s with
    | [45, 45] => return some rest
    | [45] => return if rest.isEmpty then none else some rest
    | sign :: b :: letters =>
      if sign = 45 || sign = 43 then do
        let on := sign = 45
        if (b :: letters).getLast? = some 111 then
          setOptions on (((b :: letters).dropLast).map charOf)
          match rest with
          | name :: rest' =>
            match optionNames.lookup (textOf name) with
            | some c => setOptions on [c]
            | none => aborts s!"Illegal option {optionSign on}o {textOf name}"
            -- The name of the option is passed over like an option without letters.
            takeOptions rest'
          | [] =>
            write 1 (optionTable (← get))
            return none
        else
          setOptions on ((b :: letters).map charOf)
          takeOptions rest
      else return some (s :: rest)
    | _ => return some (s :: rest)

/-- Sets options and arguments, or writes all variables. -/
def setArguments : Builtin := fun _ arguments => do
  if arguments.isEmpty then
    let m ← get
    write 1 (variableLines "" (m.known.filter fun v => v.2.value.isSome))
    ends 0
  else
    ends 0
    match ← takeOptions arguments with
    | some arguments => modify fun m => { m with arguments }
    | none => pure ()

/-- Drops arguments from the front. -/
def shiftArguments : Builtin := fun _ arguments => do
  let n ← match arguments with
    | s :: _ => numberOf s
    | [] => pure 1
  let m ← get
  if m.arguments.length < n then aborts "can't shift that many"
  else
    modify fun m => { m with arguments := m.arguments.drop n }
    ends 0

/-! ### Reading -/

/-- A line at the start of bytes, each byte with whether it was escaped, whether the line ended,
and what is left. -/
def readableLine (raw : Bool) : Bytes → List (UInt8 × Bool) × Bool × Bytes
  | [] => ([], false, [])
  | 92 :: 10 :: s =>
    if raw then ([(92, false)], true, s) else readableLine raw s
  | 92 :: b :: s =>
    if raw then
      let (line, ended, rest) := readableLine raw (b :: s)
      ((92, false) :: line, ended, rest)
    else
      let (line, ended, rest) := readableLine raw s
      ((b, true) :: line, ended, rest)
  | b :: s =>
    if b = newlineByte then ([], true, s)
    else
      let (line, ended, rest) := readableLine raw s
      ((b, false) :: line, ended, rest)

/-- The fields of a line for some names; the last one takes what is left. -/
def lineFields (separators : Bytes) : (names : Nat) → List (UInt8 × Bool) → List Bytes
  | 0, _ => []
  | names + 1, line =>
    let separates (x : UInt8 × Bool) : Bool := !x.2 && separators.contains x.1
    let isBlank (x : UInt8 × Bool) : Bool := separates x && usualSeparators.contains x.1
    let line := line.dropWhile isBlank
    let field := line.takeWhile fun x => !separates x
    let rest := (line.drop field.length).dropWhile isBlank
    let behind := match rest with
      | x :: rest' => if separates x then rest'.dropWhile isBlank else rest
      | [] => []
    if names = 0 then
      let whole := if behind.isEmpty then field else (line.reverse.dropWhile isBlank).reverse
      [whole.map Prod.fst]
    else field.map Prod.fst :: lineFields separators names behind

/-- Reads a line of the input into variables. -/
def readLine : Builtin := fun _ arguments => do
  let rec options : List Bytes → Bool × List Bytes
    | [45, 114] :: rest => (true, (options rest).2)
    | [45, 112] :: _ :: rest => options rest
    | [45, 45] :: rest => (false, rest)
    | rest => (false, rest)
  let (raw, names) := options arguments
  if names.isEmpty then aborts "arg count"
  match names.find? fun s => !isName (textOf s).toList with
  | some s => aborts s!"{textOf s}: bad variable name"
  | none =>
    let m ← get
    let supply := m.supply? 0
    let (line, ended, rest) := readableLine raw ((supply.map fun s => s.2.rest).getD [])
    if let some (n, s) := supply then
      modify fun m => m.setSupply n { s with rest }
      if !ended then
        waitUntil s.ends
        if s.endless then throw .endless
    let values := lineFields m.separators names.length line
    for (name, value) in names.zip values do
      assign (textOf name) value
    ends (if ended then 0 else 1)

/-- Reads the next option of the arguments. -/
def getopts : Builtin := fun _ arguments => do
  match arguments with
  | letters :: name :: given =>
    let m ← get
    let given := if given.isEmpty then m.arguments else given
    let index := (((m.value? "OPTIND").bind natural?).getD 1)
    let place := if index ≤ 1 && m.optionPlace = 0 then 0 else m.optionPlace
    let quiet := letters.head? = some 58
    let finish (sign : Bytes) (index place status : Nat) : Work Unit := do
      modify fun m => { m with optionPlace := place }
      assign "OPTIND" (decimal index)
      assign (textOf name) sign
      ends status
    let current := given[index - 1]?
    let stop (index : Nat) := finish [63] index 0 1
    match current, place with
    | none, _ => stop index
    | some s, place =>
      let isOption := s.length > 1 && s.head? = some 45
      if place = 0 && !isOption then stop index
      else if place = 0 && s = [45, 45] then stop (index + 1)
      else
        let place := if place = 0 then 1 else place
        let b := s.getD place 0
        let isLast := place + 1 ≥ s.length
        let next : Nat × Nat := if isLast then (index + 1, 0) else (index, place + 1)
        let sign := charOf b
        match b != 58, letters.idxOf? b with
        | true, some i =>
          if letters.getD (i + 1) 0 = 58 then
            let value := if isLast then given[index]? else some (s.drop (place + 1))
            match value with
            | some value =>
              assign "OPTARG" value
              finish [b] (if isLast then index + 2 else index + 1) 0 0
            | none =>
              if quiet then
                assign "OPTARG" [b]
                finish [58] (index + 1) 0 0
              else
                write 2 (bytesOf s!"No arg for -{sign} option\n")
                finish [63] (index + 1) 0 0
          else finish [b] next.1 next.2 0
        | _, _ =>
          if quiet then assign "OPTARG" [b]
          else write 2 (bytesOf s!"Illegal option -{sign}\n")
          finish [63] next.1 next.2 0
  | _ => aborts "Usage: getopts optstring var [arg]"

/-! ### Surroundings -/

/-- Changes the current directory. -/
def changeDirectory : Builtin := fun _ arguments => do
  let m ← get
  let target : Bytes := match arguments with
    | s :: _ => if s = [45] then (m.value? "OLDPWD").getD [] else s
    | [] => (m.value? "HOME").getD []
  let path := textOf target
  let location : Option Location := match m.tree.resolve path true with
    | .ok (location, .directory _) => some location
    | .ok _ => none
    | .error _ =>
      if systemDirectories.contains path then
        some ((FileTree.steps path).filter (· != ".")).reverse
      else none
  match location with
  | none => if target.isEmpty then ends 0 else aborts s!"can't cd to {path}"
  | some current =>
    let old := locationPath m.tree.current
    modify fun m => { m with tree := { m.tree with current } }
    assign "OLDPWD" old
    assign "PWD" (locationPath current)
    if arguments.head? = some [45] then write 1 (locationPath current ++ [newlineByte])
    ends 0

/-- Waits for the processes beside the shell. -/
def wait : Builtin := fun _ arguments => do
  let m ← get
  match arguments with
  | [] =>
    for job in m.jobs do
      waitUntil job.ends
    modify fun m => { m with jobs := [] }
    ends 0
  | processes =>
    for s in processes do
      match m.jobs.find? fun j => some j.process = natural? s with
      | some job =>
        waitUntil job.ends
        if let some text := signalText? (job.status - 128) then write 2 (bytesOf (text ++ "\n"))
        ends job.status
      | none => ends 127

/-- Tells or sets which permissions new files lack. -/
def fileMask : Builtin := fun _ arguments => do
  match arguments with
  | [] =>
    let ds := Nat.toDigits 8 (← get).mask
    write 1 (bytesOf (String.ofList (List.replicate (4 - ds.length) '0' ++ ds) ++ "\n"))
    ends 0
  | s :: _ =>
    match s.mapM octal? with
    | some ds =>
      modify fun m => { m with mask := ds.foldl (fun n d => 8 * n + d) 0 % 512 }
      ends 0
    | none => ends 0

/-- A program of the shell; one that writes needs a descriptor for it. -/
def within (name : String) (program : String → Program) : Builtin := fun _ arguments => do
  let m ← get
  let e := program s!"{textOf m.name}: {m.line}: " {
    arguments
    tree := m.tree
    environment := m.environment }
  if (m.stream? 1).isNone && e.written.any fun w => w.1 = 1 then fails 1 s!"{name}: I/O error"
  else takeUp e

/-- Runs its arguments as commands. -/
def eval : Builtin := fun run arguments =>
  labelled "eval" do
    ends 0
    run (Task.ofText ([32].intercalate arguments) 1)

/-- Runs the commands of a file. -/
def source : Builtin := fun run arguments => do
  match arguments with
  | [] => ends 0
  | path :: _ =>
    let m ← get
    let places := if path.contains 47 then [path] else
      (splitByte 58 ((m.value? "PATH").getD [])).map fun place => place ++ 47 :: path
    let found := places.findSome? fun path => (fileContent m.tree path).toOption
    match found with
    | some content =>
      labelled (textOf path) do
        ends 0
        match ← attempt (run (Task.ofText content 1)) with
        | .error .function => pure ()
        | r => resume r
    | none =>
      labelled "." do
        if path.contains 47 then aborts s!"cannot open {textOf path}: No such file"
        else aborts s!"{textOf path}: not found"

/-! ### All of them -/

/-- A command of the shell that changes the shell itself. -/
def change? (name : String) : Option Builtin :=
  match name with
  | "." => some source
  | "break" => some (leaveLoops false)
  | "continue" => some (leaveLoops true)
  | "eval" => some eval
  | "exit" => some (leave .shell)
  | "export" => some (markVariables "export " (fun v => { v with exported := true }) Variable.exported)
  | "readonly" =>
    some (markVariables "readonly " (fun v => { v with readOnly := true }) Variable.readOnly)
  | "return" => some (leave .function)
  | "set" => some setArguments
  | "shift" => some shiftArguments
  | "trap" => some trap
  | "unset" => some unset
  | "cd" | "chdir" => some changeDirectory
  | "getopts" => some getopts
  | "kill" => some kill
  | "local" => some ownVariables
  | "read" => some readLine
  | "umask" => some fileMask
  | "wait" => some wait
  | _ => none

/-- A command of the shell. -/
def builtin? (name : String) : Option Builtin :=
  let program : Option (String → Program) := match name with
    | ":" | "true" | "times" | "hash" | "jobs" | "alias" | "unalias" | "bg" | "fg" =>
      some fun _ => ending 0
    | "false" => some fun _ => ending 1
    | "echo" => some fun _ => echo .shell
    | "printf" => some (printf .shell)
    | "test" | "[" => some (condition .shell name)
    | "pwd" => some fun _ => pwd
    | "ulimit" => some fun _ => constantly "unlimited"
    | _ => none
  (change? name).or (program.map (within name))

end Multipass.Shell
