import Multipass.Proofs.Executor.World
import Multipass.Proofs.Store.Rows

/-!
# A worker and the rows of its record

A worker acts on the rows of its record and on nothing else. What it does in a world is what it does
alone on those rows, at time zero and under no name, as long as the backend replies the same and the
flag that asks it to stop is the same.

Main statements: `Execution.step_solo`, which takes a step in a world to the step on the rows, and
`Execution.write_step`, which says what a step writes.
-/

namespace Multipass

/-! ### Without times and names -/

/-- A context without the name of its run. -/
def InvocationContext.plain (ctx : InvocationContext) : InvocationContext :=
  { ctx with runId := "" }

/-- A job without the name of its run. -/
def Job.plain (job : Job) : Job :=
  { job with runId := "" }

/-- A phase without times and without the name of its run. -/
def Phase.plain : Phase → Phase
  | .deciding => .deciding
  | .gathering d => .gathering d
  | .checking d ctx => .checking d ctx.plain
  | .recovering d => .recovering d
  | .starting d ctx => .starting d ctx.plain
  | .calling d ctx _ => .calling d ctx.plain 0
  | .committing d result => .committing d result.timeless
  | .scoring => .scoring
  | .saving scores => .saving scores

/-- An execution without times and without the name of its run. -/
def Execution.plain (e : Execution) : Execution :=
  { e with current := e.current.timeless, phase := e.phase.plain }

/-- How a worker stands, without times and without the name of its run. -/
def WorkerState.plain : WorkerState → WorkerState
  | .running e => .running e.plain
  | .finished run => .finished run
  | .aborted error => .aborted error
  | .panicked text => .panicked text

/-- What a worker acts on that is alone with the rows of its record. -/
def Environment.solo (reply : PassDefinition → InvocationContext → Reply) (stop : Bool) :
    Environment MemoryStore where
  store := MemoryStore.operations
  backends := ⟨⟨"ai", fun d ctx s => (reply d ctx, s)⟩, ⟨"static_tool", fun d ctx s => (reply d ctx, s)⟩⟩
  clock _ := 0
  isCancelled _ := stop

/-- What the backend of a pass replies in a world, if there is one. -/
def Outfit.reply? {β : Type} (o : Outfit β) (d : PassDefinition) (ctx : InvocationContext)
    (w : World β) : Option Reply :=
  (o.environment.backends.for? d.backend).map fun backend => (backend.invoke d ctx w).1

lemma InvocationContext.build_plain (runId : String) (record : Record) (requires : Requires)
    (prior : List PassResult) (root : String) :
    build "" record.timeless requires (prior.map PassResult.timeless) root =
      (build runId record requires prior root).plain := by
  have same : excerpts (prior.map PassResult.timeless) = excerpts prior := by
    simp only [excerpts, List.map_map]
    rfl
  cases requires with
  | previousResults =>
    show mk _ _ _ _ _ _ (some (excerpts _)) = mk _ _ _ _ _ _ (some (excerpts _))
    rw [same]
    rfl
  | _ => rfl

namespace Execution

variable {β : Type}

@[simp] lemma id_plain (e : Execution) : e.plain.current.id = e.current.id := rfl

@[simp] lemma remaining_plain (e : Execution) : e.plain.remaining = e.remaining := rfl

@[simp] lemma phase_plain (e : Execution) : e.plain.phase = e.phase.plain := rfl

@[simp] lemma completed_current (e : Execution) (job : Job) (pass : String) (updated : Record) :
    (e.completed job pass updated).current = updated := by
  simp only [completed]
  split <;> rfl

@[simp] lemma completed_plain (e : Execution) (job : Job) (pass : String) (updated : Record) :
    (e.completed job pass updated).plain = e.plain.completed job.plain pass updated.timeless := by
  simp only [completed, Job.plain, apply_ite plain]
  rfl

lemma prepared_plain (e : Execution) (job : Job) (d : PassDefinition) (prior : List PassResult) :
    (e.prepared job d prior).plain =
      e.plain.prepared job.plain d (prior.map PassResult.timeless) := by
  simp only [prepared, Job.plain, apply_ite plain]
  congr 1
  simp only [plain, enter, Phase.plain, InvocationContext.build_plain job.runId]

lemma choose_plain (o : Outfit β) (job : Job) (e : Execution) (pass : String) (w : World β)
    (reply : PassDefinition → InvocationContext → Reply) (s : MemoryStore) :
    e.plain.choose (.solo reply (o.isCancelled w)) job.plain pass s =
      (e.choose o.environment job pass w).plain := by
  have flag : (Environment.solo reply (o.isCancelled w)).isCancelled s =
      o.environment.isCancelled w := rfl
  have registry : job.plain.registry = job.registry := rfl
  have prepared (d : PassDefinition) : e.plain.prepared job.plain d [] =
      (e.prepared job d []).plain := (prepared_plain e job d []).symm
  simp only [choose, flag, registry]
  split
  · rfl
  · cases job.registry.definition pass with
    | error error => rfl
    | ok d =>
      cases hb : d.backend with
      | none => simp only [hb, Backends.for?]; rfl
      | ai params => simp only [hb, Backends.for?, prepared]; split <;> rfl
      | staticTool params => simp only [hb, Backends.for?, prepared]; split <;> rfl

lemma afterCompletion_plain (job : Job) (e : Execution) (pass : String)
    (answer : Except StoreError Record) :
    e.plain.afterCompletion job.plain pass (answer.map Record.timeless) =
      (e.afterCompletion job pass answer).plain := by
  cases answer with
  | ok updated => simp [Except.map, afterCompletion, WorkerState.plain]
  | error error => cases error <;> rfl

lemma afterReply_plain (e : Execution) (d : PassDefinition) (pass : String) (since now : Nat)
    (reply : Reply) :
    (e.afterReply d pass since now reply).plain = e.plain.afterReply d pass 0 0 reply := by
  cases reply <;> rfl

lemma ofLatest_rowsOf (w : World β) (id : RecordId) (pass : String) (metrics : List String) :
    Score.ofLatest MemoryStore.operations id pass metrics (w.store.rowsOf id) =
      Score.ofLatest World.operations id pass metrics w := by
  simp only [Score.ofLatest, World.operations, ArtifactStore.embed, MemoryStore.operations,
    MemoryStore.latest?_rowsOf]
  cases w.store.latest? id pass <;> rfl

/-- A step in a world is the step alone on the rows of the record. -/
theorem step_solo {o : Outfit β} (job : Job) {e : Execution} {w : World β}
    {reply : PassDefinition → InvocationContext → Reply} (ordered : w.store.ScoresOrdered)
    (agrees : ∀ d ctx since, e.phase = .calling d ctx since → ∀ given ∈ o.reply? d ctx w,
      given = reply d ctx.plain) :
    e.plain.step (.solo reply (o.isCancelled w)) job.plain (w.store.rowsOf e.current.id) =
      ((e.step o.environment job w).1.plain,
        (e.step o.environment job w).2.store.rowsOf e.current.id) := by
  simp only [step, remaining_plain]
  cases hr : e.remaining with
  | nil => rfl
  | cons pass rest =>
    simp only [stepPass, phase_plain]
    cases hp : e.phase with
    | deciding =>
      simp only [Phase.plain, choose_plain]
      rfl
    | gathering d =>
      simp only [Phase.plain, Environment.solo, Outfit.environment, World.operations,
        ArtifactStore.embed, MemoryStore.operations, id_plain, MemoryStore.resultsOf_rowsOf,
        WorkerState.plain, prepared_plain]
    | checking d ctx =>
      simp only [Phase.plain, Environment.solo, Outfit.environment, World.operations,
        ArtifactStore.embed, MemoryStore.operations, id_plain, MemoryStore.latest?_rowsOf]
      cases w.store.latest? e.current.id pass <;> rfl
    | recovering d =>
      simp only [Phase.plain, Environment.solo, Outfit.environment, World.operations,
        ArtifactStore.embed, ArtifactStore.within, MemoryStore.operations]
      have same : MemoryStore.advance e.plain.current pass (Clock.seconds 0) _ = _ :=
        MemoryStore.advance_rowsOf w.store e.current pass (Clock.seconds (o.clock w))
      rw [same, afterCompletion_plain]
    | starting d ctx => rfl
    | calling d ctx since =>
      cases hb : d.backend with
      | none =>
        simp only [Phase.plain, hb]
        rfl
      | ai params =>
        have same : (o.ai d ctx w).1 = reply d ctx.plain :=
          agrees d ctx since hp _ (by rw [Outfit.reply?, hb]; rfl)
        simp only [Phase.plain, hb, Backends.for?, Outfit.environment, Outfit.backend,
          Environment.solo, afterReply_plain, same]
      | staticTool params =>
        have same : (o.staticTool d ctx w).1 = reply d ctx.plain :=
          agrees d ctx since hp _ (by rw [Outfit.reply?, hb]; rfl)
        simp only [Phase.plain, hb, Backends.for?, Outfit.environment, Outfit.backend,
          Environment.solo, afterReply_plain, same]
    | committing d result =>
      simp only [Phase.plain, Environment.solo, Outfit.environment, World.operations,
        ArtifactStore.embed, ArtifactStore.within, MemoryStore.operations]
      have same : MemoryStore.commit e.plain.current result.timeless (Clock.seconds 0) _ = _ :=
        MemoryStore.commit_rowsOf w.store e.current result (Clock.seconds (o.clock w))
      rw [same, afterCompletion_plain]
    | scoring =>
      have same : Score.ofLatest (Environment.solo reply (o.isCancelled w)).store e.current.id pass
          job.plain.registry.scoreFields (w.store.rowsOf e.current.id) =
          Score.ofLatest o.environment.store e.current.id pass job.registry.scoreFields w :=
        ofLatest_rowsOf w e.current.id pass job.registry.scoreFields
      simp only [Phase.plain, id_plain, same]
      cases Score.ofLatest o.environment.store e.current.id pass job.registry.scoreFields w <;> rfl
    | saving scores =>
      simp only [Phase.plain, Environment.solo, Outfit.environment, World.operations,
        ArtifactStore.embed, ArtifactStore.within, MemoryStore.operations, id_plain,
        MemoryStore.saveScores_rowsOf ordered]
      rfl

/-- A step leaves the claims alone, and writes at most once, about the record of its execution. -/
theorem write_step (o : Outfit β) (job : Job) (e : Execution) (w : World β) :
    (e.step o.environment job w).2.claimed = w.claimed ∧
      MemoryStore.Write e.current w.store (e.step o.environment job w).2.store := by
  simp only [step]
  cases e.remaining with
  | nil => exact ⟨rfl, .none⟩
  | cons pass rest =>
    simp only [stepPass]
    cases e.phase with
    | deciding => exact ⟨rfl, .none⟩
    | gathering d => exact ⟨rfl, .none⟩
    | checking d ctx =>
      simp only [Outfit.environment, World.operations, ArtifactStore.embed, MemoryStore.operations]
      cases w.store.latest? e.current.id pass <;> exact ⟨rfl, .none⟩
    | recovering d => exact ⟨rfl, .advance pass (Clock.seconds (o.clock w))⟩
    | starting d ctx => exact ⟨rfl, .none⟩
    | calling d ctx since =>
      simp only
      cases h : o.environment.backends.for? d.backend with
      | none => exact ⟨rfl, .none⟩
      | some backend =>
        obtain ⟨other, eq⟩ := Outfit.invoke_eq h d ctx w
        simp only [eq, true_and]
        exact .none
    | committing d result => exact ⟨rfl, .commit result (Clock.seconds (o.clock w))⟩
    | scoring =>
      simp only
      cases Score.ofLatest o.environment.store e.current.id pass job.registry.scoreFields w <;>
        exact ⟨rfl, .none⟩
    | saving scores => exact ⟨rfl, .saveScores scores⟩

end Execution

end Multipass
