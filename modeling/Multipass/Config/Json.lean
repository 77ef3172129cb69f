import Multipass.Config.Setting
import Multipass.Json.Printer
import Multipass.Number.Decimal

/-!
# Configurations as JSON values

What is settled, under the names that the file has for it. Temperatures are given by their text.
The program reads configurations and writes none: this is for others to look at them.
-/

namespace Multipass

open Number (Binary)

namespace Json

/-- A value, or null. -/
def orNull {α : Type} (encode : α → Json) : Option α → Json
  | some a => encode a
  | none => .null

/-- A number of 32 bits by its text. -/
def single (x : Binary) : Json :=
  .str (Number.plain .single x)

/-- An array of integers. -/
def ints (items : List Int) : Json :=
  .arr (items.map .int)

end Json

/-- The word for a value. -/
def wordOf {α : Type} [BEq α] (words : List (String × α)) (a : α) : Json :=
  Json.orNull (fun w => .str w.1) (words.find? fun w => w.2 == a)

/-- The word for the input of a pass. -/
def Requires.toJson (r : Requires) : Json :=
  wordOf Setting.requirements r

/-- The word for a format. -/
def ToolOutputFormat.toJson (f : ToolOutputFormat) : Json :=
  wordOf Setting.outputFormats f

/-- The table of a pass as a JSON value. -/
def PassConfig.toJson (p : PassConfig) : Json :=
  .ofFields [
    ("backend", wordOf Setting.backendKinds p.backend), ("requires", p.requires.toJson),
    ("description", .strOrNull p.description), ("model", .strOrNull p.model),
    ("max_tokens", Json.orNull .nat p.maxTokens),
    ("temperature", Json.orNull .single p.temperature),
    ("prompt", .strOrNull p.prompt), ("system", .strOrNull p.system),
    ("command", .strOrNull p.command), ("args", .strs p.args), ("output", p.output.toJson),
    ("timeout_secs", .nat p.timeoutSeconds), ("success_exit_codes", .ints p.successExitCodes)]

/-- The section of the service as a JSON value. -/
def AiConfig.toJson (ai : AiConfig) : Json :=
  .ofFields [
    ("enabled", .bool ai.enabled), ("provider", .str ai.provider), ("base_url", .str ai.baseUrl),
    ("api_key_env", .str ai.apiKeyVariable), ("model", .str ai.model),
    ("max_tokens", .nat ai.maxTokens), ("temperature", .single ai.temperature),
    ("max_retries", .nat ai.maxRetries), ("timeout_secs", .nat ai.timeoutSeconds)]

/-- The section of what is ingested as a JSON value. -/
def IngestConfig.toJson (c : IngestConfig) : Json :=
  .ofFields [
    ("root", .str c.root), ("include_globs", .strs c.includeGlobs),
    ("exclude_globs", .strs c.excludeGlobs), ("follow_symlinks", .bool c.followSymlinks),
    ("parsed_suffix", .str c.parsedSuffix)]

/-- The section of batches as a JSON value. -/
def RunnerConfig.toJson (c : RunnerConfig) : Json :=
  .ofFields [
    ("concurrency", .nat c.concurrency),
    ("pending_check", wordOf Setting.pendingChecks c.pendingCheck)]

/-- The section of the pipeline as a JSON value. -/
def PipelineConfig.toJson (c : PipelineConfig) : Json :=
  .ofFields [
    ("order", .strs c.order), ("scoring_pass", .strOrNull c.scoringPass),
    ("score_fields", .strs c.scoreFields)]

/-- A configuration as a JSON value. -/
def Config.toJson (cfg : Config) : Json :=
  .ofFields [
    ("db", .str cfg.db.path), ("ai", cfg.ai.toJson), ("ingest", cfg.ingest.toJson),
    ("runner", cfg.runner.toJson), ("pipeline", cfg.pipeline.toJson),
    ("passes", .ofFields (cfg.passes.map fun (name, p) => (name, p.toJson)))]

end Multipass
