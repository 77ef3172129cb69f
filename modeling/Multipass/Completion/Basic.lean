import Multipass.Backend.Basic
import Multipass.Prompt.Template

/-!
# Completions

A pass may ask a service to complete its prompt. The completion without blanks around it is the
output of the pass; a completion of blanks alone is a failure.
-/

namespace Multipass

open Number (Binary)

/-- What a service is asked. -/
structure CompletionRequest where
  model : String
  system : Option String
  prompt : String
  maxTokens : Nat
  temperature : Binary
  deriving DecidableEq, Repr

/-- What a service answers. -/
structure Completion where
  text : String
  usage : Usage
  deriving DecidableEq, Repr

/-- Whoever answers requests, within a shared state. -/
abbrev Client (ω : Type) := CompletionRequest → ω → Except BackendError Completion × ω

namespace Completion

/-- The name of the backend in messages. -/
def name : String := "ai"

/-- The request of a pass for a context. -/
def request (p : AiPassParams) (ctx : InvocationContext) : CompletionRequest where
  model := p.model
  system := p.system
  prompt := Template.prompt p.prompt ctx
  maxTokens := p.maxTokens
  temperature := p.temperature

/-- What an answer means for its pass. -/
def outcome (prompt : String) :
    Except BackendError Completion → Except BackendError BackendOutput
  | .error e => .error e
  | .ok completion =>
    let text := Text.trim completion.text
    if text.isEmpty then .error (.invocation name "empty completion")
    else .ok { input := prompt, output := .text text, usage := some completion.usage }

/-- The backend of completions, given who answers. -/
def backend {ω : Type} (client : Client ω) : Backend ω where
  name := name
  invoke pass ctx world :=
    match pass.backend with
    | .ai p =>
      let r := request p ctx
      let (answer, world) := client r world
      (.ofExcept (outcome r.prompt answer), world)
    | _ => (.error (Backend.mismatch name pass), world)

/-- Answers nothing, for a reason. -/
def absent {ω : Type} (reason : String) : Client ω := fun _ world =>
  (.error (.unavailable name reason), world)

end Completion

end Multipass
