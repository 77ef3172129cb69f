import Multipass.Command.Arguments
import Multipass.Completion.Connection
import Multipass.Store.Relational.File
import Multipass.Store.Relational.Location
import Multipass.Store.Relational.Operations
import Multipass.Store.Relational.Overview

/-!
# Hosts

Where the program runs: a file tree, variables with a value, and a time. The database is a file of
the tree, read when it is opened and written when it is closed, unless it lives in memory or must
not change. No service can be reached from here. What runs the commands of tools is given from
outside: nothing is known of it but how a command ends and what state it leaves.
-/

namespace Multipass

/-- Where the program runs. -/
structure Host where
  tree : FileTree
  /-- The milliseconds since the start of 1970. -/
  millis : Nat
  bindings : List (String × String) := []
  /-- How a batch is told of unless it is asked otherwise. -/
  progress : ProgressMode := .off
  /-- The open database. -/
  database : Relational.Database := {}
  /-- Whether the open database must not change. -/
  readOnly : Bool := false
  claimed : List RecordId := []

/-- What the program leaves. -/
structure Exit where
  code : Nat
  out : String := ""
  told : String := ""
  deriving DecidableEq, Repr

namespace Host

/-- The tree with the directories on the way to a path. -/
def withParents (tree : FileTree) (path : String) : Except DatabaseFault FileTree :=
  match Path.parent? path with
  | none => .ok tree
  | some parent =>
    if parent.isEmpty then .ok tree
    else
      match tree.resolve parent true with
      | .ok (_, .directory _) => .ok tree
      | .ok (_, .sealed true) => .ok tree
      | .ok _ => .error .fileExists
      | .error .notFound => .ok (tree.makeDirectory parent)
      | .error fault => .error (.unreachable fault.message)

/-- Opens the database of a location. A file that is not there is a database without tables. -/
def openAt (l : Relational.Location) (h : Host) : Except DatabaseFault Host :=
  match l.file with
  | none => .ok { h with database := {} }
  | some file =>
    match h.tree.resolve file true with
    | .ok (_, .file content _) =>
      match Relational.Database.ofBytes? content with
      | some database => .ok { h with database }
      | none => .error .notADatabase
    | .ok _ => .error .cannotOpen
    | .error .notFound =>
      match h.tree.resolve ((Path.parent? file).getD "") true, l.makesFile with
      | .ok (_, .directory _), true => .ok { h with database := {} }
      | _, _ => .error .cannotOpen
    | .error _ => .error .cannotOpen

/-- Opens the database of a path, after its directory was made. -/
def openDatabase (path : String) (h : Host) : Except DatabaseFault Host := do
  let tree ← withParents h.tree path
  let l ← Relational.Location.ofPath path
  openAt l { h with tree, readOnly := l.readOnly }

/-- Writes the open database to the file of a path, if it has one. -/
def closeDatabase (path : String) (h : Host) : Host :=
  match Relational.Location.ofPath path with
  | .ok { file := some file, readOnly := false, .. } =>
    { h with
      tree := h.tree.put file (.file h.database.toBytes false)
      database := {} }
  | _ => { h with database := {} }

/-- An operation that fails where it would change a database that must not change. -/
def guarded {α : Type} (action : Action Host α) : Action Host α := fun h =>
  let (answer, after) := action h
  if h.readOnly && after.database != h.database then (.error (.database .readOnly), h)
  else (answer, after)

/-- The store of the open database. -/
def store : ArtifactStore Host :=
  (Relational.Database.operations.embed Host.database fun database h => { h with database }).around
    guarded

/-- A service that is never reached. -/
def unreached (c : Connection) : Service Host where
  post _ h := (c.unreached, h)
  wait seconds h := { h with millis := h.millis + 1000 * seconds }

section

variable (launch : Launch Host)

/-- What the commands of a configuration act on. -/
def site (cfg : Config) (h : Host) : Site Host where
  workshop := {
    environment := {
      store := store
      backends := Backends.ofConfig unreached launch cfg.ai
        (h.bindings.lookup cfg.ai.apiKeyVariable)
      clock := Host.millis
      isCancelled := fun _ => false }
    claimed := Host.claimed
    setClaimed := fun claimed h => { h with claimed } }
  openDatabase := openDatabase cfg.db.path
  closeDatabase := closeDatabase cfg.db.path
  migrate h := (h.database.migrateOn h.readOnly).map fun database => { h with database }
  overview h := h.database.overview
  databaseSize h := h.database.toBytes.length
  files := Host.tree
  progress := h.progress

/-- The name and version of the program. -/
def versionText : String := "passline 0.3.0\n"

/-- The end of a command that fails, behind what it printed before. -/
def failure (e : CommandError) : Exit :=
  match e with
  | .panic printed reason => { code := 101, out := printed, told := s!"panicked: {reason}\n" }
  | e => { code := 1, out := e.printed, told := s!"Error: {e.message}\n" }

/-- Carries out a command with the configuration of a file. -/
def perform (file : String) (c : Command) (runId : String) (h : Host) : Exit × Host :=
  match Config.load file (h.tree.read? file) with
  | .error e => (failure (.load e), h)
  | .ok cfg =>
    match c.perform (site launch cfg h) cfg runId h with
    | (.ok printed, h) => ({ code := 0, out := printed.out, told := printed.told }, h)
    | (.error e, h) => (failure e, h)

/-- Runs the program. -/
def run (arguments : List String) (runId : String) (h : Host) : Exit × Host :=
  match Arguments.request? arguments with
  | none => ({ code := 2 }, h)
  | some .version => ({ code := 0, out := versionText }, h)
  | some .help => ({ code := 0 }, h)
  | some (.command file c) => perform launch file c runId h

end

end Host

end Multipass
