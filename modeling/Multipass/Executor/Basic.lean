import Multipass.Backend.Basic
import Multipass.Outcome
import Multipass.Store.Basic

/-!
# Executions

One worker takes one record through the passes it lacks. What the worker knows is the record as it
last saw it, the passes still to be gone through, how far it is with the first of them, and what
it will report. Everything else is in the shared state, which other workers change at the same
time.
-/

namespace Multipass

/-- What workers act on: a store, backends, a clock in milliseconds, and a flag that asks them to
stop, all within one shared state. -/
structure Environment (ω : Type) where
  store : ArtifactStore ω
  backends : Backends ω
  clock : ω → Nat
  isCancelled : ω → Bool

/-- What a worker is told: the pipeline, where artifacts lie, and the run it belongs to. -/
structure Job where
  registry : PassRegistry
  root : String
  runId : String
  dryRun : Bool

/-- What happened to a record. -/
structure RecordRun where
  path : String
  outcomes : List PassReport := []
  /-- The completed passes behind the run. -/
  completed : List String
  /-- Why the payload of the scoring pass was refused. -/
  scoreError : Option String := none
  deriving DecidableEq, Repr

namespace RecordRun

/-- The number of completed passes. -/
def completedCount (r : RecordRun) : Nat :=
  (r.outcomes.filter fun o => o.outcome.isCompleted).length

/-- The number of failed passes. -/
def failedCount (r : RecordRun) : Nat :=
  (r.outcomes.filter fun o => o.outcome.isFailed).length

/-- The run with one more outcome. -/
def push (r : RecordRun) (pass : String) (outcome : PassOutcome) : RecordRun :=
  { r with outcomes := r.outcomes ++ [⟨pass, outcome⟩] }

end RecordRun

/-- How far a worker is with a pass. -/
inductive Phase where
  /-- Whether to run it. -/
  | deciding
  /-- Earlier results are still to be read. -/
  | gathering (d : PassDefinition)
  /-- Whether there is a result already. -/
  | checking (d : PassDefinition) (ctx : InvocationContext)
  /-- There is one, and only the completion is missing. -/
  | recovering (d : PassDefinition)
  /-- The backend is to be called. -/
  | starting (d : PassDefinition) (ctx : InvocationContext)
  /-- The backend is at work, since a time. -/
  | calling (d : PassDefinition) (ctx : InvocationContext) (since : Nat)
  /-- A new result is to be kept. -/
  | committing (d : PassDefinition) (result : PassResult)
  /-- The scores are still to be read from the result. -/
  | scoring
  /-- The scores are still to be kept. -/
  | saving (scores : List Score)
  deriving Repr

/-- An execution under way. -/
structure Execution where
  /-- The record, as last seen. -/
  current : Record
  /-- The passes still to be gone through. -/
  remaining : List String
  phase : Phase
  report : RecordRun
  deriving Repr

/-- How a worker stands. -/
inductive WorkerState where
  | running (e : Execution)
  | finished (run : RecordRun)
  /-- The store refused, and not because a pass was completed already. -/
  | aborted (error : StoreError)
  /-- The backend broke down. -/
  | panicked (text : String)
  deriving Repr

namespace Execution

/-- The execution of the passes that a record lacks of an order. -/
def start (record : Record) (order : List String) : Execution where
  current := record
  remaining := record.missing order
  phase := .deciding
  report := { path := record.path, completed := record.completed }

/-- The execution in another phase of the same pass. -/
def enter (e : Execution) (phase : Phase) : Execution :=
  { e with phase }

/-- The execution behind its pass, with the outcome reported. -/
def close (e : Execution) (pass : String) (outcome : PassOutcome) : Execution :=
  { e with
    remaining := e.remaining.tail
    phase := .deciding
    report := e.report.push pass outcome }

/-- The execution behind its pass, once the outcome is reported. -/
def next (e : Execution) : Execution :=
  { e with remaining := e.remaining.tail, phase := .deciding }

/-- The execution after its pass was completed; the scoring pass is followed by its scores. -/
def completed (e : Execution) (job : Job) (pass : String) (updated : Record) : Execution :=
  let e := { e with current := updated, report := e.report.push pass .completed }
  if job.registry.isScoringPass pass then e.enter .scoring else e.next

@[simp] theorem report_completed (e : Execution) (job : Job) (pass : String) (updated : Record) :
    (e.completed job pass updated).report = e.report.push pass .completed := by
  simp only [completed]
  split <;> rfl

/-- The execution with the scores refused. -/
def refuseScores (e : Execution) (error : ScoreError) : Execution :=
  { e with report := { e.report with scoreError := some error.message } }.next

/-- The execution once the context of its pass is known. -/
def prepared (e : Execution) (job : Job) (d : PassDefinition) (prior : List PassResult) :
    Execution :=
  let ctx := InvocationContext.build job.runId e.current d.requires prior job.root
  if job.dryRun then e.close d.name (.skipped .dryRun) else e.enter (.checking d ctx)

end Execution

end Multipass
