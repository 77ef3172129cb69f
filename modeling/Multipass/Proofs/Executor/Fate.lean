import Multipass.Proofs.Executor.Keeping

/-!
# The fate of a record

A worker that nobody disturbs ends in a way, and leaves rows, that depend on the rows of its record
and on the replies for that record alone. This is the fate of the record. A worker in a world meets
it, whatever else happens there.

Main statements: `tied_step`, by which a worker never asks about another path, and `keeps_meets`.
-/

namespace Multipass

variable {β : Type}

/-! ### Contexts -/

/-- The context that a worker has prepared. -/
def Phase.context? : Phase → Option InvocationContext
  | .checking _ ctx => some ctx
  | .starting _ ctx => some ctx
  | .calling _ ctx _ => some ctx
  | _ => none

/-- Holds of a worker that knows of no path but one, and the rows of its record. -/
def Tied (path : String) : WorkerState → MemoryStore → Prop
  | .running e, s =>
    e.current.path = path ∧ (∀ ctx ∈ e.phase.context?, ctx.path = path) ∧
      ∀ label ∈ s.labels, label.2 = path
  | _, _ => True

section

variable {given : PassDefinition → InvocationContext → Reply → Prop} {stop : Bool} {job : Job}
  {e : Execution} {s s' : MemoryStore} {state : WorkerState} {path pass : String}

lemma tied_idle {e' : Execution} (current : e'.current.path = path) (idle : e'.phase.context? = none)
    (rows : ∀ label ∈ s.labels, label.2 = path) : Tied path (.running e') s :=
  ⟨current, fun ctx mem => by simp [idle] at mem, rows⟩

lemma tied_prepared (current : e.current.path = path) (rows : ∀ label ∈ s.labels, label.2 = path)
    (d : PassDefinition) (prior : List PassResult) :
    Tied path (.running (e.prepared job d prior)) s := by
  simp only [Execution.prepared]
  split
  · exact tied_idle current rfl rows
  · refine ⟨current, fun ctx mem => ?_, rows⟩
    obtain rfl := Option.some.inj mem
    exact current

lemma tied_completed {stored : Record} (there : s.record? e.current.id = some stored)
    (rows : ∀ label ∈ s.labels, label.2 = path) (same : s'.labels = s.labels) (updated : Record)
    (eq : updated.path = stored.path) : Tied path (.running (e.completed job pass updated)) s' := by
  obtain ⟨mem, -⟩ := MemoryStore.record?_eq_some there
  have own : stored.path = path := rows _ (List.mem_map_of_mem mem)
  have rows' : ∀ label ∈ s'.labels, label.2 = path := same ▸ rows
  simp only [Execution.completed]
  split
  · exact tied_idle (eq.trans own) rfl rows'
  · exact tied_idle (eq.trans own) rfl rows'

/-- A worker that knows of one path does not come to know of another. -/
theorem tied_step (tied : Tied path (.running e) s)
    (rule : Execution.Rule given stop job e s state s') : Tied path state s' := by
  obtain ⟨current, contexts, rows⟩ := tied
  cases rule with
  | prepare _ _ _ _ _ _ => exact tied_prepared current rows _ _
  | read _ _ => exact tied_prepared current rows _ _
  | miss _ hp _ => exact ⟨current, by rw [hp] at contexts; exact contexts, rows⟩
  | call _ hp => exact ⟨current, by rw [hp] at contexts; exact contexts, rows⟩
  | recover _ _ there _ =>
    exact tied_completed there rows (MemoryStore.labels_completed ..) _ rfl
  | commit _ _ there _ =>
    exact tied_completed there rows (MemoryStore.labels_completed ..) _ rfl
  | finish _ => trivial
  | panic _ _ _ => trivial
  | recoverGone _ _ _ => trivial
  | commitGone _ _ _ => trivial
  | _ => exact tied_idle current rfl rows

end

/-! ### The fate -/

/-- How a worker ends that is alone with the rows of its record, and the rows that it leaves. -/
def WorkerState.alone (reply : PassDefinition → InvocationContext → Reply) (job : Job) :
    WorkerState → MemoryStore → WorkerState × MemoryStore
  | .running e, s => e.run (.solo reply false) job s
  | state, s => (state, s)

/-- The replies for one path. -/
def repliesFor (path : String) (reply : PassDefinition → InvocationContext → Reply)
    (d : PassDefinition) (ctx : InvocationContext) : Reply :=
  if ctx.path = path then reply d ctx else default

/-- What becomes of a record with some rows: how its worker ends, and the rows then. -/
def fate (reply : PassDefinition → InvocationContext → Reply) (job : Job) (rows : MemoryStore)
    (r : Record) : WorkerState × MemoryStore :=
  (WorkerState.running (.start r.timeless job.registry.order)).alone (repliesFor r.path reply)
    job.plain rows

/-- Holds of a worker and the rows of its record that come to a fate. -/
def Meets (reply : PassDefinition → InvocationContext → Reply) (job : Job) (path : String)
    (goal : WorkerState × MemoryStore) (state : WorkerState) (s : MemoryStore) : Prop :=
  Tied path state s ∧ state.alone (repliesFor path reply) job.plain s = goal

lemma run_eq_alone (e : Execution) (reply : PassDefinition → InvocationContext → Reply) (job : Job)
    (s : MemoryStore) :
    e.run (.solo reply false) job s =
      (e.step (.solo reply false) job s).1.alone reply job (e.step (.solo reply false) job s).2 := by
  rw [Execution.run]
  split
  · next h => simp only [h, WorkerState.alone]
  · next through =>
    cases h : e.step (.solo reply false) job s with
    | mk state s' =>
      cases state with
      | running e' => exact absurd h (through e' s')
      | _ => rfl

/-- What only concerns one path is the same for replies that are the same there. -/
lemma repliesFor_congr {path : String} {reply reply' : PassDefinition → InvocationContext → Reply}
    (same : ∀ d ctx, ctx.path = path → reply d ctx = reply' d ctx) :
    repliesFor path reply = repliesFor path reply' := by
  funext d ctx
  simp only [repliesFor]
  split
  · next eq => exact same d ctx eq
  · rfl

/-- An outfit with a reply for each context, at time zero. -/
def Outfit.replying (reply : PassDefinition → InvocationContext → Reply) : Outfit Unit where
  ai d ctx _ := (reply d ctx.plain, ())
  staticTool d ctx _ := (reply d ctx.plain, ())
  clock _ := 0
  isCancelled _ := false

lemma Outfit.answers_replying (reply : PassDefinition → InvocationContext → Reply) :
    (Outfit.replying reply).Answers fun d ctx actual => actual = reply d ctx := by
  intro d ctx w actual mem
  rw [Outfit.reply?] at mem
  cases h : d.backend <;> rw [h] at mem <;> cases mem <;> rfl

/-- A worker with a reply for each context that is never asked to stop comes to the fate that it
makes for. -/
theorem keeps_meets {o : Outfit β} {job : Job} {id : RecordId} {path : String}
    {reply : PassDefinition → InvocationContext → Reply} {goal : WorkerState × MemoryStore}
    (answers : o.Answers fun d ctx actual => actual = reply d ctx)
    (calm : ∀ w, o.isCancelled w = false) : Keeps o job id (Meets reply job path goal) := by
  rintro e w rfl ordered ⟨tied, meets⟩
  refine ⟨tied_step tied (e.rule_step answers job ordered), ?_⟩
  have agrees (d : PassDefinition) (ctx : InvocationContext) (since : Nat)
      (hp : e.phase = .calling d ctx since) :
      ∀ actual ∈ o.reply? d ctx w, actual = repliesFor path reply d ctx.plain := by
    intro actual mem
    have own : ctx.plain.path = path := by
      refine tied.2.1 ctx.plain ?_
      rw [Execution.phase_plain, hp]
      rfl
    rw [repliesFor, if_pos own]
    exact answers d ctx w actual mem
  have step := e.step_solo job ordered agrees
  rw [calm w] at step
  rw [← meets, WorkerState.alone, run_eq_alone, step]

end Multipass
