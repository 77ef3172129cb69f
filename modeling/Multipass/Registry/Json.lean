import Multipass.Config.Json
import Multipass.Registry

/-!
# Passes as JSON values

A resolved pass with its parameters, for others to look at; the program lists passes as text.
-/

namespace Multipass

/-- The parameters of a backend as a JSON value; a placeholder has none. -/
def BackendSpec.toJson : BackendSpec → Json
  | .ai p => .ofFields [("model", .str p.model), ("max_tokens", .nat p.maxTokens),
      ("temperature", .single p.temperature), ("prompt", .str p.prompt),
      ("system", .strOrNull p.system)]
  | .staticTool p => .ofFields [("command", .str p.command), ("args", .strs p.args),
      ("output", p.output.toJson), ("timeout_secs", .nat p.timeoutSeconds),
      ("success_exit_codes", .ints p.successExitCodes)]
  | .none => .null

/-- A pass as a JSON value. -/
def PassDefinition.toJson (d : PassDefinition) : Json :=
  .ofFields [("name", .str d.name), ("position", .nat d.position),
    ("backend", .str d.backend.label), ("runnable", .bool d.backend.isRunnable),
    ("requires", d.requires.toJson), ("description", .strOrNull d.description),
    ("params", d.backend.toJson)]

end Multipass
