import Multipass.Backend.Basic
import Multipass.Text.Blank
import Multipass.Text.Find
import Multipass.Text.Utf8

/-!
# Tools

A pass may run a command on the file of its artifact. The place of the file is marked in the
arguments, or the file comes behind them. The output is read as JSON findings or as text; an exit
code that does not mean success, a signal, and a time limit that passed are failures, and a
command that cannot be started for want of the file or of a permission is not available.
-/

namespace Multipass

open Text

/-- Why a command cannot be started. -/
inductive SpawnFault where
  | notFound
  | permissionDenied
  | nulByte
  /-- The path goes through something that is no directory. -/
  | notADirectory
  | tooManyLinks
  /-- The file is executable and no program. -/
  | noProgram
  deriving DecidableEq, Repr

/-- The words for a command that cannot be started. -/
def SpawnFault.message : SpawnFault → String
  | .notFound => "No such file or directory (os error 2)"
  | .permissionDenied => "Permission denied (os error 13)"
  | .nulByte => "nul byte found in provided data"
  | .notADirectory => "Not a directory (os error 20)"
  | .tooManyLinks => "Too many levels of symbolic links (os error 40)"
  | .noProgram => "Exec format error (os error 8)"

/-- Holds when the command is not there, or not for us. -/
def SpawnFault.isAbsence : SpawnFault → Bool
  | .notFound => true
  | .permissionDenied => true
  | _ => false

/-- How a command ended. -/
inductive ToolEnd where
  | notStarted (fault : SpawnFault)
  | timedOut
  /-- The exit code, or none after a signal, with what was written to the two outputs. -/
  | ended (code : Option Int) (stdout stderr : List UInt8)
  deriving DecidableEq, Repr

/-- Runs a command with arguments and a time limit in milliseconds. The backend relies on no more
than the type says: a command is not started, runs out of time, or ends with a code or by a signal
and with bytes on its two outputs, and it may leave any state. Which programs there are, what they
do with a file, and whether they do it twice alike is left to the launch. -/
abbrev Launch (ω : Type) := String → List String → Nat → ω → ToolEnd × ω

namespace Tool

/-- The name of the backend in messages. -/
def name : String := "static_tool"

/-- The mark for the file in an argument. -/
def fileMark : String := "\x7bfile\x7d"

/-- The bytes of the error output that a message quotes at most. -/
def quotedBytes : Nat := 400

/-- The arguments of a command, with the file in its marked places or behind them. -/
def arguments (args : List String) (file : String) : List String :=
  let filled := args.map (replace fileMark file)
  if args.any fun a => contains a fileMark then filled else filled ++ [file]

/-- The output of a command in its format. -/
def readOutput (format : ToolOutputFormat) (stdout : String) : Except BackendError PassOutput :=
  match format with
  | .json =>
    match Json.parseNamed (trim stdout) with
    | .ok j => .ok (.findings j)
    | .error reason => .error (.invocation name s!"unparseable JSON output: {reason}")
  | .text => .ok (.text (trimEnd stdout))

/-- The words for an exit code. -/
def codeText : Option Int → String
  | some code => toString code
  | none => "signal"

/-- Holds of an exit code that means success. -/
def succeeded (p : ToolPassParams) : Option Int → Bool
  | some code => p.successExitCodes.contains code
  | none => false

/-- A command and its arguments in one line. -/
def commandLine (command : String) (args : List String) : String :=
  command ++ " " ++ " ".intercalate args

/-- What the end of a command means for its pass. To cut the error output within a character would be
a breakdown. -/
def outcome (p : ToolPassParams) (args : List String) : ToolEnd → Reply
  | .notStarted fault =>
    if fault.isAbsence then .error (.unavailable name s!"{p.command}: {fault.message}")
    else .error (.invocation name s!"failed to spawn {p.command}: {fault.message}")
  | .timedOut => .error (.invocation name s!"{p.command} timed out after {p.timeoutSeconds}s")
  | .ended code stdout stderr =>
    if succeeded p code then
      match readOutput p.output (decodeLossy stdout) with
      | .ok output => .output { input := commandLine p.command args, output, usage := none }
      | .error e => .error e
    else
      match tail? quotedBytes (trim (decodeLossy stderr)) with
      | some quoted =>
        .error (.invocation name s!"{p.command} exited with {codeText code}: {quoted}")
      | none => .panic "byte index is not a char boundary"

/-- The backend of tools, given what runs commands. -/
def backend {ω : Type} (launch : Launch ω) : Backend ω where
  name := name
  invoke pass ctx world :=
    match pass.backend with
    | .staticTool p =>
      let args := arguments p.args ctx.file
      let (ending, world) := launch p.command args p.timeoutMillis world
      (outcome p args ending, world)
    | _ => (.error (Backend.mismatch name pass), world)

end Tool

end Multipass
