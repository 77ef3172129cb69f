import Multipass.Prompt.Context
import Multipass.Registry

/-!
# Backends

A backend runs one pass on one context. It acts on a shared state, and it may succeed, fail with
an error of its own, or break down; a breakdown ends the worker that called it.
-/

namespace Multipass

/-- Why a backend did not run a pass. -/
inductive BackendError where
  /-- The service or the tool is not there. -/
  | unavailable (backend reason : String)
  /-- The request or the command went wrong. -/
  | invocation (backend reason : String)
  deriving DecidableEq, Repr

/-- The words for a failed backend. -/
def BackendError.message : BackendError → String
  | .unavailable backend reason => s!"{backend} backend unavailable: {reason}"
  | .invocation backend reason => s!"{backend} backend invocation failed: {reason}"

/-- What a successful invocation yields. -/
structure BackendOutput where
  /-- The prompt, or the command line. -/
  input : String
  output : PassOutput
  /-- The tokens that a completion took. -/
  usage : Option Usage
  deriving Repr, Inhabited

/-- The end of one invocation. -/
inductive Reply where
  | output (o : BackendOutput)
  | error (e : BackendError)
  | panic (text : String)
  deriving Repr, Inhabited

/-- A backend over a shared state. -/
structure Backend (ω : Type) where
  name : String
  invoke : PassDefinition → InvocationContext → ω → Reply × ω

/-- The end of an invocation as a reply. -/
def Reply.ofExcept : Except BackendError BackendOutput → Reply
  | .ok o => .output o
  | .error e => .error e

/-- The reply to a pass of another family. -/
def Backend.mismatch (name : String) (pass : PassDefinition) : BackendError :=
  .invocation name s!"pass '{pass.name}' is a {pass.backend.label} pass"

/-- One backend for each family. -/
structure Backends (ω : Type) where
  ai : Backend ω
  staticTool : Backend ω

/-- The backend of a pass, unless the pass is a placeholder. -/
def Backends.for? {ω : Type} (b : Backends ω) : BackendSpec → Option (Backend ω)
  | .ai _ => some b.ai
  | .staticTool _ => some b.staticTool
  | .none => none

/-- A pass has a backend exactly when it is runnable. -/
theorem Backends.isSome_for? {ω : Type} (b : Backends ω) (spec : BackendSpec) :
    (b.for? spec).isSome = spec.isRunnable := by
  cases spec <;> rfl

end Multipass
