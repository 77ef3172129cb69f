import Multipass.Number.Binary

/-!
# Configuration

What a configuration file settles: the database, the completion service, what is ingested, how a
batch runs, the order of the passes, and one table of parameters for each pass. Every section but
the database has defaults.
-/

namespace Multipass

open Number

/-- Where records are kept. -/
structure DatabaseConfig where
  path : String
  deriving DecidableEq, Repr

/-- The text of the provider that stands for no completion service. -/
def disabledProvider : String := "disabled"

/-- The completion service; a pass may override model, token limit, and temperature. -/
structure AiConfig where
  provider : String := disabledProvider
  baseUrl : String := "https://api.openai.com/v1"
  apiKeyVariable : String := "OPENAI_API_KEY"
  model : String := "gpt-4o-mini"
  maxTokens : Nat := 1024
  temperature : Binary := Binary.ofDecimal .single false 2 (-1)
  maxRetries : Nat := 3
  timeoutSeconds : Nat := 60
  deriving DecidableEq, Repr

/-- Holds when a completion service is named. -/
def AiConfig.enabled (ai : AiConfig) : Bool :=
  ai.provider != disabledProvider

/-- Which files become records. -/
structure IngestConfig where
  root : String := "."
  includeGlobs : List String := ["**/*.php"]
  excludeGlobs : List String := []
  followSymlinks : Bool := false
  /-- The ending of the file that an external parser writes next to an artifact. -/
  parsedSuffix : String := ".ast.json"
  deriving DecidableEq, Repr

/-- How it is decided that a record still needs work. -/
inductive PendingCheck where
  /-- Fewer passes are completed than the order holds. -/
  | count
  /-- Some pass of the order is not completed. -/
  | set
  deriving DecidableEq, Repr

/-- How a batch runs. -/
structure RunnerConfig where
  concurrency : Nat := 1
  pendingCheck : PendingCheck := .count
  deriving DecidableEq, Repr

/-- The metrics that a scoring pass yields unless others are listed. -/
def defaultScoreFields : List String :=
  ["documentation_score", "functionality_score", "style_score", "overall_score"]

/-- The passes of a record, in order, and the one whose result is read for scores. -/
structure PipelineConfig where
  order : List String := []
  scoringPass : Option String := none
  scoreFields : List String := defaultScoreFields
  deriving DecidableEq, Repr

/-- The family of backends a pass delegates to. -/
inductive BackendKind where
  | ai
  | staticTool
  | none
  deriving DecidableEq, Repr

/-- The input a pass needs from its record. -/
inductive Requires where
  | raw
  | parsed
  | both
  | previousResults
  deriving DecidableEq, Repr

/-- How the output of a tool is read. -/
inductive ToolOutputFormat where
  | json
  | text
  deriving DecidableEq, Repr

/-- The table of one pass, as written; the registry resolves it. -/
structure PassConfig where
  backend : BackendKind
  requires : Requires := .raw
  description : Option String := none
  model : Option String := none
  maxTokens : Option Nat := none
  temperature : Option Binary := none
  prompt : Option String := none
  system : Option String := none
  command : Option String := none
  args : List String := []
  output : ToolOutputFormat := .json
  timeoutSeconds : Nat := 120
  successExitCodes : List Int := [0]
  deriving DecidableEq, Repr

/-- A configuration. -/
structure Config where
  db : DatabaseConfig
  ai : AiConfig := {}
  ingest : IngestConfig := {}
  runner : RunnerConfig := {}
  pipeline : PipelineConfig := {}
  /-- The tables of the passes by name, each name once. -/
  passes : List (String × PassConfig) := []
  deriving DecidableEq, Repr

/-- The table of a pass. -/
def Config.pass? (cfg : Config) (name : String) : Option PassConfig :=
  cfg.passes.lookup name

end Multipass
