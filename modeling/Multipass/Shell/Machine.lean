import Multipass.Shell.Field
import Multipass.Shell.Parser
import Multipass.Shell.Program.Basic

/-!
# Machines

A shell at work: its variables, what its descriptors stand for, the files there are, and what was
written so far, each part with the time at which it was written. Processes are run one after the
other, each from the time at which it starts; what a process reads, another one has written before.
A part of the work may leave what surrounds it: a loop, a function, or the shell.
-/

namespace Multipass.Shell

/-- What a descriptor stands for. -/
inductive Stream where
  /-- What is written is kept under a number. -/
  | sink (number : Nat)
  /-- What is read comes from the supply with a number. -/
  | source (number : Nat)
  /-- What is written goes to the end of a file. -/
  | file (path : String)
  | nowhere
  deriving DecidableEq, Repr

/-- What can be read. -/
structure Supply where
  rest : Bytes
  /-- The time from which on nothing is added. -/
  ends : Nat := 0
  /-- Whether more is added for ever. -/
  endless : Bool := false
  fromFile : Bool := false

/-- A part of what was written. -/
structure Chunk where
  sink : Nat
  time : Nat
  process : Nat
  bytes : Bytes

/-- A process that keeps a sink open until some time. -/
structure Hold where
  sink : Nat
  time : Nat
  process : Nat

/-- A process beside the shell, with the time and the status of its end. -/
structure Job where
  process : Nat
  ends : Nat
  status : Nat

/-- A variable; one that is only marked has no value. -/
structure Variable where
  value : Option Bytes := none
  exported : Bool := false
  readOnly : Bool := false

/-- What a part of the work leaves. -/
inductive Leave where
  /-- Some loops, the outermost of which may go on. -/
  | loops (again : Bool) (levels : Nat)
  | function
  | shell
  /-- The shell, by a fault in a command. -/
  | fault
  | killed (signal : Nat)
  /-- Nothing: it goes on for ever. -/
  | endless
  deriving DecidableEq, Repr

/-- A shell at work. -/
structure Machine where
  tree : FileTree
  /-- The name it was called by. -/
  name : Bytes
  arguments : List Bytes := []
  known : List (String × Variable) := []
  functions : List (String × Command) := []
  descriptors : List (Nat × Stream) := [(0, .nowhere), (1, .sink 0), (2, .sink 1)]
  /-- The last part first. -/
  written : List Chunk := []
  supplies : List (Nat × Supply) := []
  held : List Hold := []
  jobs : List Job := []
  /-- The next number of a sink or a supply. -/
  unused : Nat := 2
  /-- The number of the process of the shell. -/
  process : Nat
  /-- The number of the process at work, which may be a copy of the shell. -/
  copy : Nat
  nextProcess : Nat
  elapsed : Nat := 0
  /-- The time at which all is given up. -/
  limit : Nat
  status : Nat := 0
  /-- The status of the last command within the words of the command at hand. -/
  substituted : Option Nat := none
  /-- The options that are set, by their letters. -/
  options : List Char := []
  /-- Whether the status of the command at hand is only asked for. -/
  tested : Bool := false
  line : Nat := 1
  /-- What stands before the words of a complaint. -/
  label : String := ""
  /-- The loops and the functions around the command at hand. -/
  loops : Nat := 0
  calls : Nat := 0
  /-- What is to be done when the shell ends, under zero, and at signals. -/
  traps : List (Nat × Bytes) := []
  /-- The variables as they were around the function at hand, if it has its own. -/
  hidden : List (String × Variable) := []
  /-- The place within the argument whose options are read. -/
  optionPlace : Nat := 0
  mask : Nat := 18
  /-- The process that was started last beside the shell. -/
  latest : Option Nat := none

/-- A part of the work of a shell. -/
abbrev Work := ExceptT Leave (StateM Machine)

namespace Machine

/-! ### Variables -/

/-- A variable by its name. -/
def named (m : Machine) (name : String) : Variable :=
  (m.known.lookup name).getD {}

/-- The value of a variable. -/
def value? (m : Machine) (name : String) : Option Bytes :=
  (m.named name).value

/-- Replaces a variable. -/
def setVariable (m : Machine) (name : String) (v : Variable) : Machine :=
  { m with known := (name, v) :: m.known.filter fun other => other.1 != name }

/-- Sets the value of a variable. -/
def set (m : Machine) (name : String) (value : Bytes) : Machine :=
  let v := m.named name
  m.setVariable name
    { v with value := some value, exported := v.exported || m.options.contains 'a' }

/-- The variables that a program sees. -/
def environment (m : Machine) : List (String × Bytes) :=
  m.known.filterMap fun (name, v) =>
    if v.exported then v.value.map fun value => (name, value) else none

/-- The bytes that separate fields. -/
def separators (m : Machine) : Bytes :=
  (m.value? "IFS").getD usualSeparators

/-- Arguments in one text, with the first separator between them. -/
def joined (m : Machine) : Bytes :=
  (m.separators.take 1).intercalate m.arguments

/-- The value of a parameter that has a name, a number, or a sign. -/
def parameter? (m : Machine) (name : String) : Option Bytes :=
  let number (n : Nat) : Option Bytes := some (decimal n)
  match name with
  | "?" => number m.status
  | "$" => number m.process
  | "!" => m.latest.map decimal
  | "#" => number m.arguments.length
  | "-" => some (bytesOf (String.ofList ("ubaCEVvxsnmiIfe".toList.filter m.options.contains)))
  | "0" => some m.name
  | "@" | "*" => if m.arguments.isEmpty then none else some m.joined
  | "LINENO" => number m.line
  | name =>
    match name.toNat? with
    | some n => m.arguments[n - 1]?
    | none => m.value? name

/-! ### Streams -/

/-- What a descriptor stands for. -/
def stream? (m : Machine) (descriptor : Nat) : Option Stream :=
  m.descriptors.lookup descriptor

/-- Makes a descriptor stand for something, or closes it. -/
def setStream (m : Machine) (descriptor : Nat) (s : Option Stream) : Machine :=
  let others := m.descriptors.filter fun d => d.1 != descriptor
  { m with descriptors := (s.map fun s => (descriptor, s)).toList ++ others }

/-- Bytes written to a descriptor. -/
def write (m : Machine) (descriptor : Nat) (s : Bytes) : Machine :=
  if s.isEmpty then m
  else
    match m.stream? descriptor with
    | some (.sink sink) =>
      { m with written := ⟨sink, m.elapsed, m.copy, s⟩ :: m.written }
    | some (.file path) =>
      let old := (m.tree.read? path).getD []
      { m with tree := m.tree.writeFile path (old ++ s) }
    | _ => m

/-- The supply from which a descriptor is read. -/
def supply? (m : Machine) (descriptor : Nat) : Option (Nat × Supply) :=
  match m.stream? descriptor with
  | some (.source n) => (m.supplies.lookup n).map fun s => (n, s)
  | _ => none

/-- Replaces a supply. -/
def setSupply (m : Machine) (n : Nat) (s : Supply) : Machine :=
  { m with supplies := (n, s) :: m.supplies.filter fun other => other.1 != n }

/-- A new supply. -/
def addSupply (m : Machine) (s : Supply) : Nat × Machine :=
  (m.unused, { m.setSupply m.unused s with unused := m.unused + 1 })

/-- What was written to a sink, in the order of the times. -/
def writtenTo (m : Machine) (sink : Nat) : Bytes :=
  let chunks := m.written.reverse.filter fun c => c.sink = sink
  let ascending := (chunks.zip (chunks.drop 1)).all fun (a, b) => a.time ≤ b.time
  let ordered := if ascending then chunks else chunks.mergeSort fun a b => a.time ≤ b.time
  ordered.flatMap Chunk.bytes

/-- The time from which on nobody keeps a sink open. -/
def heldUntil (m : Machine) (sink : Nat) : Nat :=
  (m.held.map fun h => if h.sink = sink then h.time else 0).foldl max m.elapsed

end Machine

namespace Work

/-- What is asked of the machine. -/
def ask {α : Type} (f : Machine → α) : Work α := do
  return f (← get)

/-- Ends a command with a status. -/
def ends (status : Nat) : Work Unit :=
  modify fun m => { m with status }

/-- Writes to a descriptor. -/
def write (descriptor : Nat) (s : Bytes) : Work Unit :=
  modify fun m => m.write descriptor s

/-- Complains, with the name of the shell and the line in front. -/
def complain (message : String) : Work Unit := do
  let m ← get
  let label := if m.label.isEmpty then "" else m.label ++ ": "
  write 2 (m.name ++ bytesOf s!": {m.line}: {label}{message}\n")

/-- Complains and ends the command at hand with a status. -/
def fails (status : Nat) (message : String) : Work Unit := do
  complain message
  ends status

/-- Complains and ends the shell. -/
def aborts {α : Type} (message : String) : Work α := do
  fails 2 message
  throw .fault

/-- Lets time pass. -/
def letPass (millis : Nat) : Work Unit := do
  modify fun m => { m with elapsed := m.elapsed + millis }
  let m ← get
  if m.limit ≤ m.elapsed then throw .endless

/-- Waits until some time. -/
def waitUntil (time : Nat) : Work Unit := do
  letPass (time - (← get).elapsed)

/-- Does some work, and tells what it yields or leaves. -/
def attempt {α : Type} (work : Work α) : Work (Except Leave α) := fun m =>
  let (r, m) := work m
  (.ok r, m)

/-- Goes on with what some work yielded or left. -/
def resume {α : Type} (r : Except Leave α) : Work α := fun m =>
  (r, m)

/-- Does some work; behind it, in whatever way it ends, a part of the machine is as it was. -/
def restoring {α : Type} (restore : Machine → Machine → Machine) (work : Work α) : Work α := do
  let before ← get
  let r ← attempt work
  modify fun after => restore before after
  resume r

/-- Does some work while complaints have a label. -/
def labelled {α : Type} (label : String) (work : Work α) : Work α :=
  restoring (fun before after => { after with label := before.label }) do
    modify fun m => { m with label }
    work

/-- Does some work of which only the status is asked for. -/
def testing {α : Type} (work : Work α) : Work α :=
  restoring (fun before after => { after with tested := before.tested }) do
    modify fun m => { m with tested := true }
    work

/-- Sets a variable, which must not be read only. -/
def assign (name : String) (value : Bytes) : Work Unit := do
  let m ← get
  if (m.named name).readOnly then aborts s!"{name}: is read only"
  else set (m.set name value)

/-- The bytes that are written of what has no end. -/
def endlessSize : Nat := 1048576

/-- The text of a signal with which a process ended, as the shell that waited for it tells it. -/
def signalText? : Nat → Option String
  | 1 => some "Hangup"
  | 3 => some "Quit"
  | 4 => some "Illegal instruction"
  | 5 => some "Trace/breakpoint trap"
  | 6 => some "Aborted"
  | 7 => some "Bus error"
  | 8 => some "Floating point exception"
  | 9 => some "Killed"
  | 10 => some "User defined signal 1"
  | 11 => some "Segmentation fault"
  | 12 => some "User defined signal 2"
  | 14 => some "Alarm clock"
  | 15 => some "Terminated"
  | _ => none

/-- Takes up what a program did. -/
def takeUp (e : Effect) : Work Unit := do
  for (descriptor, s) in e.written do
    write descriptor s
  if let some tree := e.tree then
    modify fun m => { m with tree := { tree with current := m.tree.current } }
  letPass e.slept
  ends e.status
  if let some rest := e.left then
    if let some (n, s) := (← get).supply? 0 then
      modify fun m => m.setSupply n { s with rest }
      if rest.isEmpty then
        waitUntil s.ends
        if s.endless then throw .endless
  if let some s := e.endless then
    if !s.isEmpty then
      write 1 (List.replicate (endlessSize / s.length + 1) s).flatten
    throw .endless

/-- Runs a program, by the name that it has for itself and the one that it is called by, with
arguments. -/
def runProgram (program : Program) (name title : String) (arguments : List Bytes) : Work Unit := do
  let m ← get
  let supply := (m.supply? 0).map Prod.snd
  takeUp ((program {
    arguments
    input := (supply.map Supply.rest).getD []
    fromFile := (supply.map Supply.fromFile).getD false
    tree := m.tree
    environment := m.environment }).titled name title)

end Work

end Multipass.Shell
