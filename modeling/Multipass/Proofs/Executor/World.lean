import Multipass.Batch.Basic
import Multipass.Store.Memory

/-!
# Worlds of workers

What workers share while they take records through their passes: a store in memory, the claims of
records, and all the rest, such as the clock, flags, and what services remember. A worker brings
its outfit along: backends, a clock, and a flag that asks it to stop. They may look at everything,
but only the operations of the store change the store, and only claiming changes the claims.
-/

namespace Multipass

/-- What workers share. -/
structure World (β : Type) where
  store : MemoryStore
  claimed : List RecordId := []
  rest : β

namespace World

variable {β : Type}

/-- The store of a world, in the place of which another may be put. -/
def operations : ArtifactStore (World β) :=
  MemoryStore.operations.embed World.store fun store w => { w with store }

end World

/-- What a worker brings along. The replies of its backends may depend on everything. -/
structure Outfit (β : Type) where
  ai : PassDefinition → InvocationContext → World β → Reply × β
  staticTool : PassDefinition → InvocationContext → World β → Reply × β
  clock : World β → Nat
  isCancelled : World β → Bool

namespace Outfit

variable {β : Type}

/-- A backend that leaves the store and the claims alone. -/
def backend (name : String) (reply : PassDefinition → InvocationContext → World β → Reply × β) :
    Backend (World β) where
  name := name
  invoke d ctx w := ((reply d ctx w).1, { w with rest := (reply d ctx w).2 })

/-- What a worker with an outfit acts on. -/
def environment (o : Outfit β) : Environment (World β) where
  store := World.operations
  backends := ⟨backend "ai" o.ai, backend "static_tool" o.staticTool⟩
  clock := o.clock
  isCancelled := o.isCancelled

/-- What a batch with an outfit acts on. -/
def workshop (o : Outfit β) : Workshop (World β) where
  environment := o.environment
  claimed := World.claimed
  setClaimed claimed w := { w with claimed }

/-- An outfit whose backends always give the same reply, at time zero. -/
def constant (reply : Reply) : Outfit Unit where
  ai _ _ _ := (reply, ())
  staticTool _ _ _ := (reply, ())
  clock _ := 0
  isCancelled _ := false

/-- An outfit with the flag that asks to stop as said. -/
def flagged (o : Outfit β) (stop : Bool) : Outfit β :=
  { o with isCancelled := fun _ => stop }

/-- An invocation changes nothing but the rest of the world. -/
theorem invoke_eq {o : Outfit β} {spec : BackendSpec} {backend : Backend (World β)}
    (h : o.environment.backends.for? spec = some backend) (d : PassDefinition)
    (ctx : InvocationContext) (w : World β) :
    ∃ rest, (backend.invoke d ctx w).2 = { w with rest } := by
  cases spec with
  | ai _ =>
    cases h
    exact ⟨_, rfl⟩
  | staticTool _ =>
    cases h
    exact ⟨_, rfl⟩
  | none => cases h

end Outfit

/-- The job of a pipeline with a single pass, which runs a tool of the same name. -/
def Job.single (pass : String) : Job where
  registry :=
    { definitions := [⟨pass, 0, .staticTool ⟨pass, [], .text, 1000, [0]⟩, .raw, none⟩]
      scoringPass := none
      scoreFields := [] }
  root := ""
  runId := "run"
  dryRun := false

end Multipass
