import Multipass.Config.Setting
import Multipass.Registry
import Multipass.Toml.Parser
import Multipass.Text.Utf8

/-!
# Loading a configuration file

A file is read as text, then as a document, then as a configuration, and then its values are
checked that hold for every command: the number of workers, the provider, the temperature, and the
list of metrics. The passes are left to the registry, so that a broken pipeline leaves the other
commands usable.
-/

namespace Multipass

/-- Why a configuration file is refused. -/
inductive LoadError where
  | unreadable (path : String)
  | malformed
  | zeroConcurrency
  | unknownProvider (name : String)
  | temperatureOutOfRange
  | noScoreFields
  deriving DecidableEq, Repr

/-- The words for a refused file. -/
def LoadError.message : LoadError → String
  | .unreadable path => s!"Failed to read config file: {path}"
  | .malformed => "Failed to parse config file"
  | .zeroConcurrency => "runner.concurrency must be >= 1"
  | .unknownProvider name => s!"Unknown ai provider: '{name}'. Must be disabled or openai."
  | .temperatureOutOfRange => "ai.temperature must be in [0.0, 2.0]"
  | .noScoreFields => "pipeline.score_fields must list at least one metric"

namespace Config

/-- The provider of completions that is known. -/
def knownProvider : String := "openai"

/-- Checks the values that hold for every command. -/
def check (cfg : Config) : Except LoadError Config :=
  if cfg.runner.concurrency = 0 then .error .zeroConcurrency
  else if cfg.ai.provider != disabledProvider && cfg.ai.provider != knownProvider then
    .error (.unknownProvider cfg.ai.provider)
  else if !temperatureInRange cfg.ai.temperature then .error .temperatureOutOfRange
  else if cfg.pipeline.scoreFields.isEmpty then .error .noScoreFields
  else .ok cfg

/-- The configuration of a text. -/
def ofText (text : String) : Except LoadError Config :=
  match (Toml.parse? text).bind (Setting.config? .loose) with
  | some cfg => check cfg
  | none => .error .malformed

/-- The configuration of a file, given its bytes if it can be read. -/
def load (path : String) (bytes : Option (List UInt8)) : Except LoadError Config :=
  match bytes.bind Text.decode? with
  | some text => ofText text
  | none => .error (.unreadable path)

end Config

end Multipass
