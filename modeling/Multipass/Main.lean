import Multipass.Command.Host
import Multipass.Shell.Launch

/-!
# The program

Reads what a command needs into a host, runs the command there, and writes the database back. What
a command needs are the file of its configuration, the file of its database, and the directory of
its artifacts.
-/

namespace Multipass.Program

/-- The milliseconds since the start of 1970, as a file gets them that is made now. -/
def currentMillis : IO Nat := do
  let (_, path) ← IO.FS.createTempFile
  let time := (← path.metadata).modified
  IO.FS.removeFile path
  return (time.sec * 1000).toNat + time.nsec.toNat / 1000000

/-- The bytes of a file, if it can be read. -/
def bytes? (path : String) : IO (Option (List UInt8)) := do
  try
    return some (← IO.FS.readBinFile path).toList
  catch _ => return none

/-- The names in a directory, if it can be read. -/
def names? (path : String) : IO (Option (List String)) := do
  try
    let place ← IO.FS.realPath path
    return some ((← place.readDir).toList.map fun entry => entry.fileName)
  catch _ => return none

/-- Holds of the bytes of a file that names its program. -/
def isScript (content : List UInt8) : Bool :=
  content.take 2 == [35, 33]

/-- What is below a path; links are followed. `fuel` bounds the depth. -/
def load (fuel : Nat) (path : String) : IO (Option Node) := do
  match fuel with
  | 0 => return none
  | fuel + 1 =>
    try
      let place ← IO.FS.realPath path
      if ← place.isDir then
        match ← names? path with
        | none => return some (.sealed true)
        | some names =>
          let mut entries := []
          for name in names do
            match ← load fuel (Path.join path name) with
            | some node => entries := Node.setEntry name node entries
            | none => pure ()
          return some (.directory entries)
      else if ← place.pathExists then
        match ← bytes? path with
        | some content => return some (.file content (isScript content))
        | none => return some (.sealed false)
      else return none
    catch _ => return none

/-- The depth to which directories are read. -/
def depth : Nat := 64

/-- A tree with what is below a path. -/
def withPath (tree : FileTree) (path : String) : IO FileTree := do
  match ← load depth path with
  | some node => return tree.put path node
  | none => return tree

/-- The digits of a random name. -/
def randomName : IO String := do
  let bytes ← IO.getRandomBytes 16
  return String.ofList (bytes.toList.flatMap fun b =>
    [Json.hexDigit (b.toNat / 16), Json.hexDigit (b.toNat % 16)])

/-- The file of the database of a configuration. -/
def databaseFile? (cfg : Config) : Option String :=
  match Relational.Location.ofPath cfg.db.path with
  | .ok l => l.file
  | .error _ => none

/-- The host for the command of a configuration. -/
def hostFor (file : String) : IO (Host × Option Config) := do
  let directory := toString (← IO.currentDir)
  let start : FileTree := ⟨.directory [], []⟩
  let start := start.makeDirectory directory
  let tree ← withPath { start with current := (start.place directory).reverse } file
  let terminal ← (← IO.getStderr).isTty
  let host : Host := {
    tree
    millis := ← currentMillis
    progress := if terminal then .human else .off }
  match Config.load file (tree.read? file) with
  | .error _ => return (host, none)
  | .ok cfg =>
    let tree ← withPath tree cfg.ingest.root
    let tree ← match databaseFile? cfg with
      | some file => withPath tree file
      | none => pure tree
    let name := cfg.ai.apiKeyVariable
    let bindings := (← IO.getEnv name).toList.map fun key => (name, key)
    return ({ host with tree, bindings }, some cfg)

/-- Writes a database that was changed. -/
def save (path : String) (before after : FileTree) : IO Unit := do
  match after.read? path with
  | none => return
  | some content =>
    if before.read? path != some content then
      match Path.parent? path with
      | some parent => if !parent.isEmpty then IO.FS.createDirAll parent
      | none => pure ()
      IO.FS.writeBinFile path ⟨content.toArray⟩

/-- Runs the program. -/
def run (arguments : List String) : IO UInt32 := do
  let file := match Arguments.request? arguments with
    | some (.command file _) => file
    | _ => ""
  let (host, cfg) ← hostFor file
  let launch : Launch Host := Shell.launch Host.tree fun tree h => { h with tree }
  let (exit, after) := host.run launch arguments (← randomName)
  match cfg.bind databaseFile? with
  | some file => save file host.tree after.tree
  | none => pure ()
  (← IO.getStderr).putStr exit.told
  (← IO.getStdout).putStr exit.out
  return UInt32.ofNat exit.code

end Multipass.Program

def main (arguments : List String) : IO UInt32 :=
  Multipass.Program.run arguments
