import Multipass.Shell.Wrapper

/-!
# Tasks

A shell by its arguments, and all tasks by what carries them out. The depth of tasks within each
other is bounded here.
-/

namespace Multipass.Shell

open Work

/-! ### Shells -/

/-- A machine for a shell within another process, before its script. -/
def Machine.fresh (m : Machine) (name : Bytes) : Machine :=
  let exported := m.known.filter fun v => v.2.exported
  let number (n : Nat) : Variable := { value := some (decimal n) }
  let own := [("OPTIND", number 1), ("PPID", number (m.process - 1)),
    ("PWD", { value := some (locationPath m.tree.current), exported := true })]
  { m with
    name
    arguments := []
    known := own ++ exported.filter fun v => !(own.map Prod.fst).contains v.1
    functions := []
    jobs := []
    process := m.nextProcess
    copy := m.nextProcess
    nextProcess := m.nextProcess + 1
    status := 0
    substituted := none
    options := []
    tested := false
    line := 0
    label := ""
    loops := 0
    calls := 0
    traps := m.traps.filter fun t => t.2.isEmpty
    hidden := []
    optionPlace := 0
    latest := none }

/-- Where a shell finds its commands. -/
inductive ScriptPlace where
  /-- In a file, if there is an argument, or in the input. -/
  | file
  | argument
  | input
  deriving DecidableEq

/-- Reads the options of a shell; tells where its commands are. -/
def shellOptions : List Bytes → Work (ScriptPlace × List Bytes)
  | [] => return (.file, [])
  | s :: rest =>
    match s with
    | [45, 45] => return (.file, rest)
    | [45] => return (.file, rest)
    | sign :: b :: letters =>
      if sign = 45 || sign = 43 then do
        let on := sign = 45
        let letters := (b :: letters).map charOf
        let place : ScriptPlace :=
          if letters.contains 'c' then .argument else if letters.contains 's' then .input else .file
        let plain := letters.filter fun c => c != 'c' && c != 'o' && c != 's'
        setOptions on plain
        if letters.contains 'o' then
          match rest with
          | name :: rest =>
            match optionNames.lookup (textOf name) with
            | some c => setOptions on [c]
            | none => aborts s!"Illegal option {optionSign on}o {textOf name}"
            let (other, rest) ← shellOptions rest
            return (if other = .file then place else other, rest)
          | [] => return (place, [])
        else
          let (other, rest) ← shellOptions rest
          return (if other = .file then place else other, rest)
      else return (.file, s :: rest)
    | _ => return (.file, s :: rest)

/-- Runs a script. -/
def runScript (run : Runner) (s : Bytes) : Work Unit := do
  modify fun m => { m with line := 1 }
  run (Task.ofText s 1)

/-- A shell by its name and its arguments. -/
def startShell (run : Runner) (name : Bytes) (arguments : List Bytes) : Work Unit := do
  modify fun m => m.fresh name
  let fromInput (arguments : List Bytes) : Work Unit := do
    match (← get).supply? 0 with
    | some (n, s) =>
      modify fun m => { m.setSupply n { s with rest := [] } with arguments }
      runScript run s.rest
    | none => pure ()
  match ← shellOptions arguments with
  | (.argument, []) => aborts "-c requires an argument"
  | (.argument, script :: rest) =>
    modify fun m => { m with name := rest.headD name, arguments := rest.tail }
    runScript run script
  | (.file, path :: rest) =>
    let m ← get
    match fileContent m.tree path with
    | .ok content =>
      modify fun m => { m with name := path, arguments := rest }
      runScript run content
    | .error reason =>
      if reason != "Is a directory" then aborts s!"cannot open {textOf path}: No such file"
  | (.file, []) => fromInput []
  | (.input, arguments) => fromInput arguments

/-! ### Tasks -/

/-- Runs a program of the system, by its name and the name that it is called by. -/
def startProgram (run : Runner) (name title : String) (arguments : List Bytes) : Work Unit :=
  match name with
  | "sh" | "dash" => startShell run (bytesOf title) arguments
  | "env" => startWithVariables run title arguments
  | "nice" => startNicely run title arguments
  | "nohup" => startUnheard run title arguments
  | "timeout" => startWithin run title arguments
  | "which" => do
    let m ← get
    runProgram (which (programPath? m)) name title arguments
  | "xargs" => startWithInput run title arguments
  | name =>
    match systemProgram? name with
    | some program => runProgram program name title arguments
    | none => ends 127

/-- Carries out a task, given what carries out the tasks within it. -/
def carryOut (run : Runner) : Runner
  | .command c => runCommand run c
  | .script s => runLines run (s.rest.length + 2) s
  | .program name title arguments => startProgram run name title arguments
  | .file path arguments => do
    match fileContent (← get).tree (bytesOf path) with
    | .error _ => ends 127
    | .ok content =>
      match interpreter? content with
      | none => startShell run (bytesOf path) (bytesOf path :: arguments)
      | some (program, argument) =>
        match findProgram (← get) program (argument ++ bytesOf path :: arguments) with
        | .ok task => run task
        | .error (status, reason) =>
          complain s!"{path}: {reason}"
          ends status

/-- The depth of tasks within each other. -/
def maxDepth : Nat := 1000

/-- Carries out a task up to a depth. -/
def execute : (depth : Nat) → Runner
  | 0 => fun _ => throw .endless
  | depth + 1 => carryOut (execute depth)

end Multipass.Shell
