import Multipass.Backend.Tool
import Multipass.Completion.Endpoint
import Multipass.Completion.Exchange

/-!
# Connections

Where completions are asked for, and with which key. A configuration that names no service, a
service that is not known, and a key that is not set leave nobody to answer. The backends of a
configuration ask the service that it names, and launch tools.
-/

namespace Multipass

/-- The address of completions, and the key to show there. -/
structure Connection where
  address : String
  key : String
  deriving DecidableEq, Repr

namespace Connection

/-- A text without the separators at its end. -/
def withoutSeparators (s : String) : String :=
  String.ofList (s.toList.reverse.dropWhile (· == '/')).reverse

/-- The address of completions below the base of a service. -/
def addressBelow (base : String) : String :=
  withoutSeparators base ++ "/chat/completions"

/-- The connection of a configuration, given the key. -/
def ofConfig (ai : AiConfig) (key : Option String) : Except BackendError Connection :=
  match key with
  | some key => .ok ⟨addressBelow ai.baseUrl, key⟩
  | none =>
    .error (.unavailable Completion.name s!"{ai.apiKeyVariable} environment variable not set")

/-- Holds of a key that can be shown: it has no control characters but tabs. -/
def isShowable (key : String) : Bool :=
  key.toList.all fun c => c = '\t' || (0x20 ≤ c.toNat && c.toNat != 0x7f)

/-- The reaction when no server is there. A request that cannot even be written down is said to be
one. -/
def unreached (c : Connection) : Reaction :=
  match Endpoint.normal? c.address with
  | some address =>
    if isShowable c.key then .unreached s!"error sending request for url ({address})"
    else .unreached "builder error"
  | none => .unreached "builder error"

end Connection

/-- The client of a configuration, given the key and how to reach a service. -/
def Client.ofConfig {ω : Type} (reach : Connection → Service ω) (ai : AiConfig)
    (key : Option String) : Client ω :=
  if !ai.enabled then Completion.absent "ai provider is disabled"
  else if ai.provider = "openai" then
    match Connection.ofConfig ai key with
    | .ok connection => Exchange.client (reach connection) ai.maxRetries
    | .error e => Completion.absent e.message
  else Completion.absent s!"unknown ai provider '{ai.provider}'"

/-- The backends of a configuration, given how to reach a service, how to launch tools, and the key
of the service. -/
def Backends.ofConfig {ω : Type} (reach : Connection → Service ω) (launch : Launch ω)
    (ai : AiConfig) (key : Option String) : Backends ω where
  ai := Completion.backend (Client.ofConfig reach ai key)
  staticTool := Tool.backend launch

end Multipass
