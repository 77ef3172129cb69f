import Multipass.Shell.Builtin
import Multipass.Shell.Expansion
import Multipass.Shell.Program.Table

/-!
# Running commands

What commands do to a machine. Each task is carried out with what carries out the tasks within it,
and a bound for the depth of tasks within each other and for the turns of a loop closes the circle;
a machine that reaches it is taken to run on for ever.
-/

namespace Multipass.Shell

open Work

/-! ### Processes -/

/-- How a process ended. -/
inductive Ending where
  | exited
  | killed (signal : Nat)
  | endless
  deriving DecidableEq

/-- Does the work of a process to its end, and what is to be done then. -/
def toEnd (run : Runner) (work : Work Unit) : Work Ending := do
  let finish (r : Except Leave Unit) : Ending := match r with
    | .error (.killed signal) => .killed signal
    | .error .endless => .endless
    | _ => .exited
  let ending := finish (← attempt work)
  let m ← get
  match ending, m.traps.lookup 0 with
  | .exited, some body =>
    let status := m.status
    modify fun m => { m with traps := m.traps.filter fun t => t.1 != 0 }
    let r ← attempt (run (Task.ofText body 1))
    match r with
    | .ok () => ends status
    | _ => pure ()
    return finish r
  | ending, _ => return ending

/-- A machine behind a process, which has its own shell. -/
def Machine.rejoin (before after : Machine) : Machine :=
  { before with
    tree := { after.tree with current := before.tree.current }
    written := after.written
    supplies := after.supplies
    held := after.held
    unused := after.unused
    nextProcess := after.nextProcess
    elapsed := after.elapsed
    status := after.status }

/-- Runs a copy of the shell, which may differ from it, and tells how it ended. -/
def copied (run : Runner) (alter : Machine → Machine) (work : Work Unit) : Work Ending :=
  restoring Machine.rejoin do
    modify fun m => alter { m with
      loops := 0
      jobs := []
      traps := m.traps.filter fun t => t.2.isEmpty }
    toEnd run work

/-- Goes on behind a copy of the shell. -/
def goOn : Ending → Work Unit
  | .exited => pure ()
  | .killed signal => throw (.killed signal)
  | .endless => throw .endless

/-- Goes on behind a process, whose status a signal may tell; the shell tells it too. -/
def tellEnd : Ending → Work Unit
  | .exited => pure ()
  | .killed signal => do
    ends (128 + signal)
    if let some text := signalText? signal then write 2 (bytesOf (text ++ "\n"))
  | .endless => throw .endless

/-- What a command writes. -/
def captured (run : Runner) (c : Command) : Work Bytes := do
  let m ← get
  let sink := m.unused
  modify fun m => { m with unused := sink + 1 }
  let ending ← copied run (fun m => { m.setStream 1 (some (.sink sink)) with tested := false })
    (run (.command c))
  goOn ending
  waitUntil ((← get).heldUntil sink)
  let after ← get
  modify fun after => { after with
    written := after.written.filter fun chunk => chunk.sink != sink
    held := after.held.filter fun h => h.sink != sink
    substituted := some after.status
    status := m.status }
  return (after.writtenTo sink).filter (· != 0)

/-- What fills in the words of commands. -/
def filler (run : Runner) : Filler :=
  { output := captured run }

/-! ### Redirections -/

/-- What is read from a file. -/
def openRead (path : Bytes) : Work (Except String (Option Stream)) := do
  let m ← get
  match textOf path with
  | "/dev/null" => return .ok (some .nowhere)
  | "/dev/stdin" => return .ok (m.stream? 0)
  | "/dev/zero" =>
    let (n, m) := m.addSupply { rest := List.replicate endlessSize 0, endless := true }
    set m
    return .ok (some (.source n))
  | _ =>
    match fileContent m.tree path with
    | .ok rest =>
      let (n, m) := m.addSupply { rest, fromFile := true }
      set m
      return .ok (some (.source n))
    | .error reason =>
      if reason = "Is a directory" then
        let (n, m) := m.addSupply { rest := [] }
        set m
        return .ok (some (.source n))
      else if [missing, "Not a directory"].contains reason then return .error "No such file"
      else return .error reason

/-- A file that is written, from its end on or from its start. -/
def openWrite (path : Bytes) (append : Bool) : Work (Except String (Option Stream)) := do
  let m ← get
  let name := textOf path
  let opened : Work (Except String (Option Stream)) := do
    modify fun m => { m with tree := m.tree.writeFile name [] }
    return .ok (some (.file name))
  match name with
  | "/dev/null" | "/dev/zero" | "/dev/full" => return .ok (some .nowhere)
  | "/dev/stdout" => return .ok (m.stream? 1)
  | "/dev/stderr" => return .ok (m.stream? 2)
  | _ =>
    match lookUp m.tree name true with
    | .ok (.file ..) => if append then return .ok (some (.file name)) else opened
    | .ok (.sealed false) | .error .denied => return .error "Permission denied"
    | .ok _ => return .error "Is a directory"
    | .error .tooManyLinks => return .error "Too many levels of symbolic links"
    | .error .notADirectory => return .error "Directory nonexistent"
    | .error .notFound =>
      match lookUp m.tree (textOf (directoryName path)) true with
      | .ok (.directory _) =>
        if path.getLast? = some 47 then return .error "Is a directory"
        else if path.isEmpty then return .error "Directory nonexistent"
        else opened
      | _ => return .error "Directory nonexistent"

/-- Makes descriptors stand for what redirections say; tells whether it could. -/
def redirect (f : Filler) : List Redirection → Work Bool
  | [] => return true
  | change :: rest => do
    let opened (descriptor : Nat) (verb : String) (path : Bytes)
        (result : Except String (Option Stream)) : Work Bool := do
      match result with
      | .ok s =>
        modify fun m => m.setStream descriptor s
        return true
      | .error reason =>
        fails 2 s!"cannot {verb} {textOf path}: {reason}"
        return false
    let done ← match change with
      | .read descriptor w => do
        let path ← f.whole false w
        opened descriptor "open" path (← openRead path)
      | .write descriptor w append => do
        let path ← f.whole false w
        opened descriptor "create" path (← openWrite path append)
      | .here descriptor w => do
        let text ← f.whole false w
        modify fun m =>
          let (n, m) := m.addSupply { rest := text }
          m.setStream descriptor (some (.source n))
        pure true
      | .duplicate descriptor w => do
        let target ← f.whole false w
        let m ← get
        if target = [45] then
          set (m.setStream descriptor none)
          pure true
        else
          match natural? target with
          | none => aborts "Syntax error: Bad fd number"
          | some n =>
            match m.stream? n with
            | some s =>
              set (m.setStream descriptor (some s))
              pure true
            | none =>
              fails 2 s!"{n}: Bad file descriptor"
              pure false
    if done then redirect f rest else return false

/-- Does some work with descriptors as redirections say, if they can be set. -/
def redirected (f : Filler) (changes : List Redirection) (work : Work Unit) : Work Unit :=
  if changes.isEmpty then work
  else
    restoring (fun before after => { after with descriptors := before.descriptors }) do
      if ← redirect f changes then work

/-! ### Programs -/

/-- The program and its argument that the first line of a file names. -/
def interpreter? (content : Bytes) : Option (Bytes × List Bytes) :=
  match content with
  | 35 :: 33 :: rest =>
    let isBlank (b : UInt8) : Bool := b = 32 || b = 9
    let line := (rest.takeWhile (· != newlineByte)).dropWhile isBlank
    let line := (line.reverse.dropWhile isBlank).reverse
    let program := line.takeWhile fun b => !isBlank b
    let argument := (line.drop program.length).dropWhile isBlank
    some (program, if argument.isEmpty then [] else [argument])
  | _ => none

/-- The directories in which programs are looked for. -/
def searchedPlaces (m : Machine) : List Bytes :=
  splitByte 58 ((m.value? "PATH").getD (bytesOf "/usr/bin:/bin"))

/-- The task of a program by its name, or the status and the words for one that is not there. -/
def findProgram (m : Machine) (name : Bytes) (arguments : List Bytes) :
    Except (Nat × String) Task :=
  let path := textOf name
  let atPath (path : String) : Except (Nat × String) Task :=
    match lookUp m.tree path true with
    | .ok (.file _ executable) =>
      if executable then .ok (.file path arguments) else .error (126, "Permission denied")
    | .ok _ => .error (126, "Permission denied")
    | .error _ =>
      match systemName? path with
      | some program => .ok (.program program (textOf name) arguments)
      | none => .error (127, "not found")
  if name.isEmpty then .error (127, "Permission denied")
  else if name.contains 47 then atPath path
  else
    let places := searchedPlaces m
    let tasks := places.map fun place =>
      atPath (textOf (if place.isEmpty then bytesOf "./" ++ name else place ++ 47 :: name))
    let isFile (t : Except (Nat × String) Task) : Bool := t.toOption.isSome
    match tasks.find? isFile with
    | some task => task
    | none =>
      match tasks.find? fun t => match t with
        | .error (126, _) => true
        | _ => false with
      | some task => task
      | none => .error (127, "not found")

/-- The path of a program by its name. -/
def programPath? (m : Machine) (name : Bytes) : Option Bytes :=
  if name.contains 47 then
    if (findProgram m name []).toOption.isSome then some name else none
  else
    (searchedPlaces m).findSome? fun place =>
      let path := place ++ 47 :: name
      if (findProgram m path []).toOption.isSome then some path else none

/-- Runs a program of the system as a process of its own; tells how it ended. -/
def process (run : Runner) (task : Task) : Work Ending :=
  restoring Machine.rejoin do
    modify fun m => { m with
      loops := 0
      jobs := []
      traps := m.traps.filter fun t => t.2.isEmpty }
    toEnd run (run task)

/-- Runs a program in the place of the shell. -/
def replaced (run : Runner) (name : Bytes) (arguments : List Bytes) : Work Unit := do
  match findProgram (← get) name arguments with
  | .error (status, reason) =>
    fails status s!"{textOf name}: {reason}"
    throw .shell
  | .ok task =>
    modify fun m => { m with traps := m.traps.filter fun t => t.2.isEmpty }
    run task
    throw .shell

/-! ### Simple commands -/

/-- Ends the shell when a command failed and failing commands end it. -/
def checked : Work Unit := do
  let m ← get
  if m.status != 0 && !m.tested && m.options.contains 'e' then throw .shell

/-- Runs a function. -/
def callFunction (run : Runner) (body : Command) (arguments : List Bytes) : Work Unit :=
  let restore (before after : Machine) : Machine :=
    let m := { after with
      arguments := before.arguments
      loops := before.loops
      calls := before.calls
      hidden := before.hidden }
    after.hidden.foldl (fun m (name, v) => m.setVariable name v) m
  restoring restore do
    modify fun m => { m with arguments, loops := 0, calls := m.calls + 1, hidden := [] }
    match ← attempt (run (.command body)) with
    | .error .function => pure ()
    | r => resume r

/-- What a command by a name is. -/
def describeCommand (m : Machine) (name : String) : Option String :=
  if keywords.contains name then some "a shell keyword"
  else if specialPrograms.contains name then some "a special shell builtin"
  else if (m.functions.lookup name).isSome then some "a shell function"
  else if (builtin? name).isSome || ["command", "type", "exec"].contains name then
    some "a shell builtin"
  else (programPath? m (bytesOf name)).map textOf

/-- Tells what commands are. -/
def tellKinds (verbose : Bool) (names : List Bytes) : Work Unit := do
  let m ← get
  ends 0
  for name in names do
    match describeCommand m (textOf name) with
    | some kind =>
      let path := (programPath? m name).map textOf = some kind
      write 1 (if verbose then name ++ bytesOf s!" is {kind}\n"
        else if path then bytesOf (kind ++ "\n") else name ++ [newlineByte])
    | none =>
      if verbose then write 1 (name ++ bytesOf ": not found\n")
      ends 127

/-- Runs a command by its name, without functions if asked to. -/
def invoke (run : Runner) (functions : Bool) : (fuel : Nat) → List Bytes → Work (Option Ending)
  | 0, _ => return none
  | _, [] => return none
  | fuel + 1, name :: arguments => do
    let m ← get
    let title := textOf name
    let special := specialPrograms.contains title && functions
    -- The failure of a command that is not special does not end the shell.
    let builtin (work : Work Unit) : Work (Option Ending) := do
      let work := if ["exec", "eval", "."].contains title then work else labelled title work
      if special then work
      else
        match ← attempt work with
        | .error .fault => pure ()
        | r => resume r
      return none
    let isSpecial := specialPrograms.contains title
    match if functions && !isSpecial then m.functions.lookup title else none with
    | some body =>
      callFunction run body arguments
      return none
    | none =>
      match title, arguments with
      | "command", [45, 118] :: names => do
        tellKinds false (names.take 1)
        return none
      | "command", [45, 86] :: names => do
        tellKinds true (names.take 1)
        return none
      | "command", arguments => do
        ends 0
        invoke run false fuel (if arguments.head? = some (bytesOf "-p") then arguments.tail
          else arguments)
      | "type", names => do
        tellKinds true names
        return none
      | "exec", program :: arguments =>
        builtin (labelled "exec" (replaced run program arguments))
      | "exec", [] => builtin (ends 0)
      | title, arguments =>
        match builtin? title with
        | some work => builtin (work run arguments)
        | none =>
          match findProgram m name arguments with
          | .error (status, reason) =>
            fails status s!"{title}: {reason}"
            return none
          | .ok task => return some (← process run task)

/-- Runs a simple command. -/
def runSimple (run : Runner) (assignments : List (String × Word)) (words : List Word)
    (changes : List Redirection) : Work Unit := do
  let f := filler run
  modify fun m => { m with substituted := none }
  let fields ← f.all words
  let trace (values : List (String × Bytes)) : Work Unit := do
    let m ← get
    if m.options.contains 'x' then
      let front := (m.value? "PS4").getD (bytesOf "+ ")
      let settings := values.map fun (name, value) => bytesOf name ++ 61 :: value
      write 2 (front ++ [32].intercalate (settings ++ fields) ++ [newlineByte])
  match fields with
  | [] =>
    let ok ← restoring (fun before after => { after with descriptors := before.descriptors }) do
      redirect f changes
    if ok then
      let mut values := []
      for (name, w) in assignments do
        let value ← f.whole true w
        values := values ++ [(name, value)]
        assign name value
      if !values.isEmpty then trace values
      ends ((← get).substituted.getD 0)
    checked
  | name :: arguments =>
    let title := textOf name
    let isSpecial := specialPrograms.contains title
    let isFixed := title = "exec" && arguments.isEmpty
    let keep (before after : Machine) : Machine :=
      if isFixed then after else { after with descriptors := before.descriptors }
    let keepVariables (before after : Machine) : Machine :=
      if isSpecial then after
      else assignments.foldl (fun m (name, _) =>
        match before.known.lookup name with
        | some v => m.setVariable name v
        | none => { m with known := m.known.filter fun v => v.1 != name }) after
    let ending ← restoring keep do
      if ← redirect f changes then
        restoring keepVariables do
          let mut values := []
          for (name, w) in assignments do
            let value ← f.whole true w
            values := values ++ [(name, value)]
            assign name value
            if !isSpecial then
              modify fun m => m.setVariable name { m.named name with exported := true }
          trace values
          invoke run true 16 (name :: arguments)
      else if isSpecial then throw .fault
      else return none
    if let some ending := ending then tellEnd ending
    checked

/-! ### Commands of several parts -/

/-- Runs the body of a loop, and tells whether the loop goes on. -/
def turn (work : Work Unit) : Work Bool := do
  match ← attempt work with
  | .ok () => return true
  | .error (.loops again levels) =>
    if levels > 1 then throw (.loops again (levels - 1)) else return again
  | .error leave => throw leave

/-- Does some work within one more loop. -/
def inLoop (work : Work Unit) : Work Unit :=
  restoring (fun before after => { after with loops := before.loops }) do
    modify fun m => { m with loops := m.loops + 1 }
    work

/-- The turns of a loop that are run at most. -/
def maxTurns : Nat := 300000

/-- Runs a body while a condition succeeds, or fails; the status is that of the last body. -/
def repeatWhile (run : Runner) (whileFailing : Bool) (condition body : Command) :
    (fuel : Nat) → (status : Nat) → Work Unit
  | 0, _ => throw .endless
  | fuel + 1, status => do
    let mut holds := false
    let goesOn ← turn (testing (run (.command condition)))
    if !goesOn then ends 0
    else
      holds := ((← get).status == 0) != whileFailing
      if !holds then ends status
      else
        if ← turn (run (.command body)) then
          repeatWhile run whileFailing condition body fuel (← get).status
        else pure ()

/-- Runs a body for each of some values of a variable. -/
def repeatEach (run : Runner) (name : String) (body : Command) : List Bytes → Work Unit
  | [] => pure ()
  | s :: rest => do
    assign name s
    if ← turn (run (.command body)) then repeatEach run name body rest

/-- The first branch with a pattern that a text matches. -/
def chosen (f : Filler) (s : Bytes) : List (List Word × Command) → Work (Option Command)
  | [] => return none
  | (patterns, body) :: rest => do
    let mut found := false
    for w in patterns do
      if !found then
        let pattern ← f.marked false w
        found := matchesAll (wildcards pattern) s
    if found then return some body else chosen f s rest

/-- The descriptors that a command sets at once. -/
def changedDescriptors (c : Command) : List Nat :=
  let descriptor (r : Redirection) : Nat := match r with
    | .read d _ => d
    | .write d _ _ => d
    | .duplicate d _ => d
    | .here d _ => d
  match c with
  | .simple _ _ _ changes => changes.map descriptor
  | .redirected _ _ changes => changes.map descriptor
  | _ => []

/-- Runs a command beside the shell. -/
def beside (run : Runner) (c : Command) : Work Unit := do
  let m ← get
  let number := m.nextProcess
  let changed := changedDescriptors c
  let kept := m.descriptors.filterMap fun (d, s) =>
    match s with
    | .sink sink => if changed.contains d then none else some sink
    | _ => none
  modify fun m => { m with nextProcess := number + 1 }
  let ending ← copied run (fun m => { m.setStream 0 (some .nowhere) with copy := number })
    (run (.command c))
  let after ← get
  let (finish, status) : Nat × Nat := match (ending : Ending) with
    | .exited => (after.elapsed, after.status)
    | .killed signal => (after.elapsed, 128 + signal)
    | .endless => (m.limit, 0)
  modify fun _ => { after with
    elapsed := m.elapsed
    status := 0
    latest := some number
    jobs := m.jobs ++ [{ process := number, ends := finish, status }]
    held := (kept.map fun sink => ({ sink, time := finish, process := number } : Hold)) ++ after.held }

/-- Runs two commands of which the second reads what the first writes. -/
def runPiped (run : Runner) (a b : Command) : Work Unit := do
  let start ← get
  let sink := start.unused
  modify fun m => { m with unused := sink + 1 }
  let first ← copied run (fun m => m.setStream 1 (some (.sink sink))) (run (.command a))
  if let .killed signal := first then throw (.killed signal)
  let m ← get
  let rest := m.writtenTo sink
  let finish := m.heldUntil sink
  let (n, m) := m.addSupply { rest, ends := finish, endless := first = .endless }
  modify fun _ => { m with
    written := m.written.filter fun chunk => chunk.sink != sink
    held := m.held.filter fun h => h.sink != sink
    elapsed := start.elapsed }
  let second ← copied run (fun m => m.setStream 0 (some (.source n))) (run (.command b))
  goOn second
  -- A writer without an end is stopped when nobody reads on, unless it writes nothing.
  if first = .endless && rest.isEmpty then throw .endless
  else if first != .endless then
    modify fun after => { after with elapsed := max after.elapsed m.elapsed }
    letPass 0

/-- Runs the lines of a script. `fuel` bounds their number. -/
def runLines (run : Runner) : (fuel : Nat) → Source → Work Unit
  | 0, _ => pure ()
  | fuel + 1, s => do
    if s.isDone then return ()
    match readCommand s with
    | .error e =>
      modify fun m => { m with line := e.line }
      aborts s!"Syntax error: {e.message}"
    | .ok (c, s) =>
      run (.command c)
      runLines run fuel s

/-- Carries out a command. -/
def runCommand (run : Runner) (c : Command) : Work Unit := do
  let f := filler run
  let atLine (line : Nat) : Work Unit := modify fun m => { m with line }
  if (← get).options.contains 'n' then return ()
  match c with
  | .nothing => pure ()
  | .simple line assignments words changes =>
    atLine line
    runSimple run assignments words changes
  | .redirected line c changes =>
    atLine line
    redirected f changes (run (.command c))
  | .pipe a b =>
    runPiped run a b
    checked
  | .sequence a b =>
    run (.command a)
    run (.command b)
  | .background c => beside run c
  | .both a b =>
    testing (run (.command a))
    if (← get).status = 0 then run (.command b)
  | .either a b =>
    testing (run (.command a))
    if (← get).status != 0 then run (.command b)
  | .negation c =>
    testing (run (.command c))
    modify fun m => { m with status := if m.status = 0 then 1 else 0 }
  | .choice condition yes no =>
    testing (run (.command condition))
    if (← get).status = 0 then run (.command yes)
    else
      ends 0
      run (.command no)
  | .repetition whileFailing condition body =>
    inLoop (repeatWhile run whileFailing condition body maxTurns 0)
  | .forEach line name words body =>
    atLine line
    let values ← f.all words
    ends 0
    inLoop (repeatEach run name body values)
  | .select line w branches =>
    atLine line
    let s ← f.whole false w
    ends 0
    match ← chosen f s branches with
    | some body => run (.command body)
    | none => pure ()
  | .enclosed c =>
    goOn (← copied run id (run (.command c)))
    checked
  | .function name body =>
    modify fun m => { m with functions := (name, body) :: m.functions, status := 0 }

end Multipass.Shell
