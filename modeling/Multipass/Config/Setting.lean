import Multipass.Config.Basic
import Multipass.Json.Basic

/-!
# Settings

The values that a configuration is read from, whatever the notation they are written in, and the
reading itself. A missing field takes its default; a value of the wrong kind or out of the range
of its field refuses the whole configuration; fields that are not known are passed over.

A section may also be a list of the values of its fields. A file is read loosely there: it may list
more values than a section has fields. A JSON value has to fit exactly.
-/

namespace Multipass

open Number

/-- A value of a configuration file. -/
inductive Setting where
  | null
  | bool (b : Bool)
  | int (i : Int)
  | float (x : Double)
  | text (s : String)
  | list (items : List Setting)
  | table (fields : List (String × Setting))
  /-- A date or a time. No field takes one, but it counts as a table without known fields. -/
  | date
  deriving Inhabited

namespace Setting

mutual

/-- The setting of a JSON value. -/
def ofJson : Json → Setting
  | .null => .null
  | .bool b => .bool b
  | .int i => .int i
  | .float x => .float x
  | .str s => .text s
  | .arr js => .list (ofItems js)
  | .obj fs => .table (ofFields fs)

/-- The settings of JSON values. -/
def ofItems : List Json → List Setting
  | [] => []
  | j :: js => ofJson j :: ofItems js

/-- The settings of fields. -/
def ofFields : List (String × Json) → List (String × Setting)
  | [] => []
  | (k, j) :: fs => (k, ofJson j) :: ofFields fs

end

/-! ### Kinds of values -/

/-- A text. -/
def text? : Setting → Option String
  | .text s => some s
  | _ => none

/-- A truth value. -/
def bool? : Setting → Option Bool
  | .bool b => some b
  | _ => none

/-- An integer within bounds. -/
def intWithin? (low high : Int) : Setting → Option Int
  | .int i => if low ≤ i ∧ i ≤ high then some i else none
  | _ => none

/-- A natural number of at most `bits` bits. -/
def nat? (bits : Nat) (s : Setting) : Option Nat :=
  (intWithin? 0 (Nat.pow 2 bits - 1 : Nat) s).map Int.toNat

/-- An integer of 32 bits. -/
def int32? (s : Setting) : Option Int :=
  intWithin? (-0x80000000) 0x7fffffff s

/-- A number of 32 bits; integers are numbers too. -/
def single? : Setting → Option Binary
  | .int i => some (Binary.ofInt .single i)
  | .float x => some (Binary.convert .single x)
  | _ => none

/-- A list of values of one kind. -/
def list? {α : Type} (item : Setting → Option α) : Setting → Option (List α)
  | .list items => items.mapM item
  | _ => none

/-- A value that may be absent. -/
def optional? {α : Type} (value : Setting → Option α) : Setting → Option (Option α)
  | .null => some none
  | s => (value s).map some

/-- How a value has to fit. -/
inductive Fit where
  /-- As a JSON value has to. -/
  | exact
  /-- As what a file holds has to. -/
  | loose
  deriving DecidableEq, Repr

/-- Holds of nothing: null, or, where a value fits loosely, an empty table or list. -/
def isNothing (fit : Fit) : Setting → Bool
  | .null => true
  | .table [] => fit = .loose
  | .list [] => fit = .loose
  | _ => false

/-- One of some words. A table with a word as its only key, and nothing under it, stands for the
word. -/
def word? {α : Type} (fit : Fit) (words : List (String × α)) : Setting → Option α
  | .text s => words.lookup s
  | .table [(k, s)] => if isNothing fit s then words.lookup k else none
  | _ => none

/-! ### Sections -/

/-- A section under reading: the value of each of its fields, if it has one. A list gives its
fields in the order of their names. -/
def section? (fit : Fit) (names : List String) : Setting → Option (String → Option Setting)
  | .table fields => some fun name => List.lookup name fields
  | .list items =>
    if fit = .exact ∧ names.length < items.length then none
    else some fun name => List.lookup name (names.zip items)
  | .date => some fun _ => none
  | _ => none

/-- The field of a section, with a default for a missing one. -/
def field {α : Type} (get : String → Option Setting) (name : String) (default : α)
    (value : Setting → Option α) : Option α :=
  match get name with
  | none => some default
  | some s => value s

/-- The database section. -/
def database? (fit : Fit) (s : Setting) : Option DatabaseConfig := do
  let get ← section? fit ["path"] s
  return { path := ← (← get "path").text? }

/-- The section of the completion service. -/
def ai? (fit : Fit) (s : Setting) : Option AiConfig := do
  let get ← section? fit ["provider", "base_url", "api_key_env", "model", "max_tokens", "temperature",
    "max_retries", "timeout_secs"] s
  let d : AiConfig := {}
  return {
    provider := ← field get "provider" d.provider text?
    baseUrl := ← field get "base_url" d.baseUrl text?
    apiKeyVariable := ← field get "api_key_env" d.apiKeyVariable text?
    model := ← field get "model" d.model text?
    maxTokens := ← field get "max_tokens" d.maxTokens (nat? 32)
    temperature := ← field get "temperature" d.temperature single?
    maxRetries := ← field get "max_retries" d.maxRetries (nat? 32)
    timeoutSeconds := ← field get "timeout_secs" d.timeoutSeconds (nat? 64) }

/-- The ingest section. -/
def ingest? (fit : Fit) (s : Setting) : Option IngestConfig := do
  let get ← section? fit ["root", "include_globs", "exclude_globs", "follow_symlinks",
    "parsed_suffix"] s
  let d : IngestConfig := {}
  return {
    root := ← field get "root" d.root text?
    includeGlobs := ← field get "include_globs" d.includeGlobs (list? text?)
    excludeGlobs := ← field get "exclude_globs" d.excludeGlobs (list? text?)
    followSymlinks := ← field get "follow_symlinks" d.followSymlinks bool?
    parsedSuffix := ← field get "parsed_suffix" d.parsedSuffix text? }

/-- The words for the ways to decide whether a record needs work. -/
def pendingChecks : List (String × PendingCheck) :=
  [("count", .count), ("set", .set)]

/-- The runner section. -/
def runner? (fit : Fit) (s : Setting) : Option RunnerConfig := do
  let get ← section? fit ["concurrency", "pending_check"] s
  let d : RunnerConfig := {}
  return {
    concurrency := ← field get "concurrency" d.concurrency (nat? 64)
    pendingCheck := ← field get "pending_check" d.pendingCheck (word? fit pendingChecks) }

/-- The pipeline section. -/
def pipeline? (fit : Fit) (s : Setting) : Option PipelineConfig := do
  let get ← section? fit ["order", "scoring_pass", "score_fields"] s
  let d : PipelineConfig := {}
  return {
    order := ← field get "order" d.order (list? text?)
    scoringPass := ← field get "scoring_pass" d.scoringPass (optional? text?)
    scoreFields := ← field get "score_fields" d.scoreFields (list? text?) }

/-- The words for the families of backends. -/
def backendKinds : List (String × BackendKind) :=
  [("ai", .ai), ("static_tool", .staticTool), ("none", .none)]

/-- The words for the inputs of a pass. -/
def requirements : List (String × Requires) :=
  [("raw", .raw), ("parsed", .parsed), ("both", .both), ("previous_results", .previousResults)]

/-- The words for the ways to read the output of a tool. -/
def outputFormats : List (String × ToolOutputFormat) :=
  [("json", .json), ("text", .text)]

/-- The table of a pass. -/
def pass? (fit : Fit) (s : Setting) : Option PassConfig := do
  let get ← section? fit ["backend", "requires", "description", "model", "max_tokens", "temperature",
    "prompt", "system", "command", "args", "output", "timeout_secs", "success_exit_codes"] s
  let d : PassConfig := { backend := .none }
  return {
    backend := ← word? fit backendKinds (← get "backend")
    requires := ← field get "requires" d.requires (word? fit requirements)
    description := ← field get "description" d.description (optional? text?)
    model := ← field get "model" d.model (optional? text?)
    maxTokens := ← field get "max_tokens" d.maxTokens (optional? (nat? 32))
    temperature := ← field get "temperature" d.temperature (optional? single?)
    prompt := ← field get "prompt" d.prompt (optional? text?)
    system := ← field get "system" d.system (optional? text?)
    command := ← field get "command" d.command (optional? text?)
    args := ← field get "args" d.args (list? text?)
    output := ← field get "output" d.output (word? fit outputFormats)
    timeoutSeconds := ← field get "timeout_secs" d.timeoutSeconds (nat? 64)
    successExitCodes := ← field get "success_exit_codes" d.successExitCodes (list? int32?) }

/-- The tables of the passes. -/
def passes? (fit : Fit) : Setting → Option (List (String × PassConfig))
  | .table fields => fields.mapM fun (name, s) => (pass? fit s).map fun p => (name, p)
  | _ => none

/-- The configuration that a value stands for. -/
def config? (fit : Fit) (s : Setting) : Option Config := do
  let get ← section? fit ["db", "ai", "ingest", "runner", "pipeline", "passes"] s
  return {
    db := ← database? fit (← get "db")
    ai := ← field get "ai" {} (ai? fit)
    ingest := ← field get "ingest" {} (ingest? fit)
    runner := ← field get "runner" {} (runner? fit)
    pipeline := ← field get "pipeline" {} (pipeline? fit)
    passes := ← field get "passes" [] (passes? fit) }

end Setting

end Multipass
