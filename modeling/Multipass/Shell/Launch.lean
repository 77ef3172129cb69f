import Multipass.Backend.Tool
import Multipass.Shell.Starter

/-!
# Launching tools

A command is a file with a path, or one of the programs of the system by its name. A file has to
be executable and says in its first line which program reads it. Time passes only while a command
sleeps, so a time limit is exceeded exactly by sleeping, or by running on for ever; what a command
writes ends when nobody is left who may write it.

This is one launch among others, to run a pipeline with on a host that has no programs of its own.
The backend of tools takes any launch, and whatever is proved of it holds for all of them.
-/

namespace Multipass.Shell

open Work

/-- The end of a process as the end of a tool. -/
def toolEnd (ending : Ending) (m : Machine) : ToolEnd :=
  if m.limit ≤ max (m.heldUntil 0) (m.heldUntil 1) then .timedOut
  else
    match ending with
    | .endless => .timedOut
    | .killed _ => .ended none (m.writtenTo 0) (m.writtenTo 1)
    | .exited => .ended (some m.status) (m.writtenTo 0) (m.writtenTo 1)

/-- The number of the first process. -/
def firstProcess : Nat := 4242

/-- The variables that a tool sees. -/
def toolVariables : List (String × Variable) :=
  [("HOME", { value := some (bytesOf "/root"), exported := true }),
    ("PATH", {
      value := some (bytesOf "/usr/local/sbin:/usr/local/bin:/usr/sbin:/usr/bin:/sbin:/bin")
      exported := true })]

/-- A machine before a tool, with a limit of time in milliseconds. -/
def toolMachine (tree : FileTree) (limit : Nat) : Machine where
  tree
  name := bytesOf "sh"
  known := toolVariables
  process := firstProcess
  copy := firstProcess
  nextProcess := firstProcess
  limit

/-- The task of a program by its path, or why it cannot be started. -/
def taskOfPath (tree : FileTree) (path : String) (arguments : List Bytes) :
    Except SpawnFault Task :=
  match tree.resolve path true with
  | .error .notFound =>
    match systemName? path with
    | some name => .ok (.program name path arguments)
    | none =>
      if systemDirectories.contains path || systemDevices.contains path then
        .error .permissionDenied
      else .error .notFound
  | .error .notADirectory => .error .notADirectory
  | .error .tooManyLinks => .error .tooManyLinks
  | .error .denied => .error .permissionDenied
  | .ok (_, .file content true) =>
    match interpreter? content with
    | none => .error .noProgram
    | some (program, _) =>
      let isThere := (systemName? (textOf program)).isSome || tree.exists? (textOf program)
      if isThere then .ok (.file path arguments) else .error .notFound
  | .ok _ => .error .permissionDenied

/-- The task of a command, by its name or by its path. -/
def taskOf (tree : FileTree) (command : String) (arguments : List Bytes) :
    Except SpawnFault Task :=
  if command.toList.contains '/' then taskOfPath tree command arguments
  else if isSystemProgram command then .ok (.program command command arguments)
  else if command = "." || command = ".." then .error .permissionDenied
  else .error .notFound

/-- Holds of texts that no command line can hold. -/
def holdsNul (s : String) : Bool :=
  s.toList.any fun c => c.toNat = 0

/-- Launches tools on a file tree within a larger state. -/
def launch {ω : Type} (tree : ω → FileTree) (replace : FileTree → ω → ω) : Launch ω :=
  fun command arguments limit world =>
    if holdsNul command || arguments.any holdsNul then (.notStarted .nulByte, world)
    else
      match taskOf (tree world) command (arguments.map bytesOf) with
      | .error fault => (.notStarted fault, world)
      | .ok task =>
        let run := execute maxDepth
        match (toEnd run (run task)).run (toolMachine (tree world) limit) with
        | (.ok ending, m) =>
          (toolEnd ending m, replace { m.tree with current := (tree world).current } world)
        | (.error _, m) => (.timedOut, replace m.tree world)

end Multipass.Shell
