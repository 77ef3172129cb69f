import Multipass.Config.Basic
import Multipass.Digest.Sha256
import Multipass.Files.Walk
import Multipass.Glob.Match
import Multipass.Json.Parser
import Multipass.Record

/-!
# Scanning for artifacts

Every file below the root whose path matches the globs becomes a new record, sorted by path. The
parsed representation of a file is the JSON value in the file next to it whose name goes on with a
suffix; where there is no such value, it is a summary of the source. Files that are no text are
left out, and so are the files with the suffix themselves.
-/

namespace Multipass

/-- Why there is no scan. -/
inductive ScanError where
  | noRoot (root : String)
  | glob (pattern : String) (error : Glob.GlobError)
  | walk (fault : WalkFault)
  deriving DecidableEq, Repr

/-- The words for a scan that is not there. -/
def ScanError.message : ScanError → String
  | .noRoot root => s!"Ingest root does not exist: {root}"
  | .glob pattern error => s!"error parsing glob '{pattern}': {error.message}"
  | .walk fault => fault.message

namespace Ingest

/-- The directories that are never scanned. -/
def standardExcludes : List String :=
  ["**/.git/**", "**/vendor/**", "**/node_modules/**"]

/-- The number of lines of a text; the last line need not be ended. -/
def lineCount (s : String) : Nat :=
  let breaks := s.toList.count '\n'
  match s.toList.getLast? with
  | none => 0
  | some '\n' => breaks
  | some _ => breaks + 1

/-- The summary of a source. -/
def summary (path source : String) : Json :=
  .obj [("bytes", .nat (Text.encode source).length),
    ("language", .strOrNull (Path.language? path)), ("lines", .nat (lineCount source)),
    ("path", .str path), ("sha256", .str (Digest.contentHash source))]

/-- The value in a file, if there is a file and it holds one. -/
def sidecar? (t : FileTree) (path : String) : Option Json :=
  match (t.read? path).bind Text.decode? with
  | some text => (Json.parse text).toOption
  | none => none

/-- The path of a found file as a key of records. -/
def keyOf (names : List String) : String :=
  Text.replace "\\" "/" ("/".intercalate names)

/-- The globs of a scan: what is taken, and what is left out. -/
structure Filters where
  taken : List (List Glob.Token)
  excluded : List (List Glob.Token)
  suffix : String

/-- Holds of a path that ends in a text. -/
def endsIn (path ending : String) : Bool :=
  (Text.dropPattern? ending.toList.reverse path.toList.reverse).isSome

/-- Holds of a path that is taken. -/
def Filters.takes (f : Filters) (key : String) : Bool :=
  !endsIn key f.suffix && !Glob.anyMatch f.excluded key && Glob.anyMatch f.taken key

/-- The record of a found file, if it is taken and holds text. -/
def record? (t : FileTree) (cfg : IngestConfig) (f : Filters) (found : FoundFile) :
    Option NewRecord :=
  let key := keyOf found.names
  if !f.takes key then none
  else
    match Text.decode? found.content with
    | none => none
    | some source =>
      let path := found.names.foldl Path.join cfg.root
      some {
        path := key
        language := Path.language? key
        source
        hash := Digest.contentHash source
        parsed := (sidecar? t (path ++ cfg.parsedSuffix)).getD (summary key source) }

/-- The filters of a configuration. -/
def filters (cfg : IngestConfig) : Except ScanError Filters :=
  match Glob.parseAll cfg.includeGlobs with
  | .error (g, e) => .error (.glob g e)
  | .ok taken =>
    match Glob.parseAll (standardExcludes ++ cfg.excludeGlobs) with
    | .error (g, e) => .error (.glob g e)
    | .ok excluded => .ok ⟨taken, excluded, cfg.parsedSuffix⟩

/-- Ascending order of paths; records with one path keep their order. -/
def byPath (records : List NewRecord) : List NewRecord :=
  records.mergeSort fun a b => !(b.path < a.path)

/-- The new records below the root of a configuration. -/
def scan (t : FileTree) (cfg : IngestConfig) : Except ScanError (List NewRecord) :=
  if !t.exists? cfg.root then .error (.noRoot cfg.root)
  else
    match filters cfg with
    | .error e => .error e
    | .ok f =>
      match t.files cfg.root cfg.followSymlinks with
      | .error fault => .error (.walk fault)
      | .ok found => .ok (byPath (found.filterMap (record? t cfg f)))

end Ingest

end Multipass
