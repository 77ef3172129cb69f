import Multipass.Config.Basic
import Multipass.Text.Blank

/-!
# Pass registry

The passes of a pipeline in their order, each resolved to the parameters its backend needs. A
registry is built from a configuration and does not change; tables of passes outside of the order
do not matter.

The order is looked at from its front: at each place a repeated name is refused first, then a name
without a table, then a table that its backend cannot use. The scoring pass is looked at last.
-/

namespace Multipass

open Number

/-- Why a pipeline is refused. -/
inductive ConfigurationError where
  | emptyPassOrder
  | unknownPass (name : String)
  | duplicateInOrder (name : String)
  | invalidDefinition (name reason : String)
  | unknownScoringPass (name : String)
  deriving DecidableEq, Repr

/-- The words for a refused pipeline. -/
def ConfigurationError.message : ConfigurationError → String
  | .emptyPassOrder => "pass order is empty"
  | .unknownPass name => s!"pass order references unknown pass '{name}'"
  | .duplicateInOrder name => s!"pass '{name}' appears more than once in the pass order"
  | .invalidDefinition name reason => s!"pass '{name}' is misconfigured: {reason}"
  | .unknownScoringPass name => s!"scoring pass '{name}' is not part of the pass order"

/-- The parameters of a pass that asks a completion service. -/
structure AiPassParams where
  model : String
  maxTokens : Nat
  temperature : Binary
  prompt : String
  system : Option String
  deriving DecidableEq, Repr

/-- The parameters of a pass that runs a tool. -/
structure ToolPassParams where
  command : String
  /-- Arguments, with the place of the artifact's file marked in them. -/
  args : List String
  output : ToolOutputFormat
  timeoutMillis : Nat
  successExitCodes : List Int
  deriving DecidableEq, Repr

/-- The whole seconds of a tool's time limit. -/
def ToolPassParams.timeoutSeconds (p : ToolPassParams) : Nat :=
  p.timeoutMillis / 1000

/-- What runs a pass. -/
inductive BackendSpec where
  | ai (params : AiPassParams)
  | staticTool (params : ToolPassParams)
  /-- A placeholder: never run, never completed. -/
  | none
  deriving DecidableEq, Repr

/-- The word for what runs a pass. -/
def BackendSpec.label : BackendSpec → String
  | .ai _ => "ai"
  | .staticTool _ => "static_tool"
  | .none => "none"

/-- Holds of everything but a placeholder. -/
def BackendSpec.isRunnable : BackendSpec → Bool
  | .none => false
  | _ => true

/-- One pass of a registry. -/
structure PassDefinition where
  name : String
  /-- The place in the order, from zero. -/
  position : Nat
  backend : BackendSpec
  requires : Requires
  description : Option String
  deriving DecidableEq, Repr

/-- The passes of a pipeline, in order. -/
structure PassRegistry where
  definitions : List PassDefinition
  scoringPass : Option String
  scoreFields : List String
  deriving DecidableEq, Repr

/-- Holds of a temperature from zero to two. -/
def temperatureInRange (t : Binary) : Bool :=
  (Binary.zero .single false).le t && t.le (Binary.ofNat .single 2)

/-- A text that is there and not blank. -/
def nonBlank? (s : Option String) : Option String :=
  s.filter fun t => !Text.allBlank t

/-- The backend of a pass by its table, or why the table is refused. -/
def resolveBackend (raw : PassConfig) (ai : AiConfig) : Except String BackendSpec :=
  match raw.backend with
  | .ai =>
    match nonBlank? raw.prompt with
    | none => .error "ai passes need a non-empty `prompt`"
    | some prompt =>
      let temperature := raw.temperature.getD ai.temperature
      let maxTokens := raw.maxTokens.getD ai.maxTokens
      if !temperatureInRange temperature then .error "`temperature` must be in [0.0, 2.0]"
      else if maxTokens = 0 then .error "`max_tokens` must be > 0"
      else
        .ok (.ai {
          model := raw.model.getD ai.model
          maxTokens, temperature, prompt
          system := raw.system })
  | .staticTool =>
    match nonBlank? raw.command with
    | none => .error "static_tool passes need a `command`"
    | some command =>
      if raw.timeoutSeconds = 0 then .error "`timeout_secs` must be > 0"
      else if raw.successExitCodes.isEmpty then .error "`success_exit_codes` must not be empty"
      else
        .ok (.staticTool {
          command
          args := raw.args
          output := raw.output
          timeoutMillis := 1000 * raw.timeoutSeconds
          successExitCodes := raw.successExitCodes })
  | .none => .ok .none

/-- The definition of a pass by its table. -/
def resolveDefinition (name : String) (position : Nat) (raw : PassConfig) (ai : AiConfig) :
    Except ConfigurationError PassDefinition :=
  match resolveBackend raw ai with
  | .error reason => .error (.invalidDefinition name reason)
  | .ok backend =>
    .ok { name, position, backend, requires := raw.requires, description := raw.description }

namespace PassRegistry

/-- The definitions of the names from a position on, given the names before it. -/
def resolve (cfg : Config) (seen : List String) (position : Nat) :
    List String → Except ConfigurationError (List PassDefinition)
  | [] => .ok []
  | name :: rest =>
    if seen.contains name then .error (.duplicateInOrder name)
    else
      match cfg.pass? name with
      | none => .error (.unknownPass name)
      | some raw =>
        match resolveDefinition name position raw cfg.ai with
        | .error e => .error e
        | .ok definition =>
          match resolve cfg (name :: seen) (position + 1) rest with
          | .error e => .error e
          | .ok definitions => .ok (definition :: definitions)

/-- The registry of a configuration. -/
def ofConfig (cfg : Config) : Except ConfigurationError PassRegistry :=
  if cfg.pipeline.order.isEmpty then .error .emptyPassOrder
  else
    match resolve cfg [] 0 cfg.pipeline.order with
    | .error e => .error e
    | .ok definitions =>
      match cfg.pipeline.scoringPass with
      | some scoring =>
        if definitions.any fun d => d.name == scoring then
          .ok ⟨definitions, some scoring, cfg.pipeline.scoreFields⟩
        else .error (.unknownScoringPass scoring)
      | none => .ok ⟨definitions, none, cfg.pipeline.scoreFields⟩

/-- The names of the passes, in order. -/
def order (r : PassRegistry) : List String :=
  r.definitions.map PassDefinition.name

/-- The definition of a pass. -/
def find? (r : PassRegistry) (name : String) : Option PassDefinition :=
  r.definitions.find? fun d => d.name == name

/-- The definition of a pass, or that the order does not know it. -/
def definition (r : PassRegistry) (name : String) : Except ConfigurationError PassDefinition :=
  match r.find? name with
  | some d => .ok d
  | none => .error (.unknownPass name)

/-- Holds of the pass whose result is read for scores. -/
def isScoringPass (r : PassRegistry) (name : String) : Bool :=
  r.scoringPass == some name

end PassRegistry

end Multipass
