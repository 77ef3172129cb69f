import Multipass.Batch.Report
import Multipass.Executor.Step
import Multipass.Progress

/-!
# Batches

A batch takes the pending records one after the other. For each it waits until fewer workers are
at work than may be, claims the record, and sets a worker on it; a record that is claimed already
is reported as busy. Between two records, and at the end, it collects the workers that are done.
Once it is asked to stop it claims no more records.

The state of a batch is data. The coordinator and the workers each have their steps, and any of
them may be next.
-/

namespace Multipass

/-- What batches act on: what workers act on, and the records that are claimed. -/
structure Workshop (ω : Type) where
  environment : Environment ω
  claimed : ω → List RecordId
  setClaimed : List RecordId → ω → ω

/-- How a batch is run. -/
structure RunOptions where
  dryRun : Bool := false
  concurrency : Nat := 1
  /-- The greatest number of records to take. -/
  limit : Option Nat := none
  pendingCheck : PendingCheck := .count
  deriving DecidableEq, Repr

/-- The options of a configuration. -/
def RunOptions.ofConfig (cfg : Config) : RunOptions :=
  { concurrency := cfg.runner.concurrency, pendingCheck := cfg.runner.pendingCheck }

/-- The number of workers that may be at work. -/
def RunOptions.permits (o : RunOptions) : Nat :=
  max 1 o.concurrency

/-- A worker at work. -/
structure Worker where
  number : Nat
  /-- The record as it was selected. -/
  record : Record
  execution : Execution
  deriving Repr

/-- How a worker ended. -/
inductive Ending where
  | finished (run : RecordRun)
  | aborted (error : StoreError)
  | panicked (text : String)
  deriving Repr

/-- A worker that is done and not yet collected. -/
structure Finished where
  number : Nat
  record : Record
  ending : Ending
  deriving Repr

/-- Where the coordinator stands. -/
inductive Stage where
  /-- Before the next record. -/
  | choosing
  /-- Waits until a worker more may be at work. -/
  | waiting
  /-- Has the permit for a worker more. -/
  | permitted
  /-- Claims the record. -/
  | claiming
  /-- Collects those that are done, and goes on. -/
  | collecting
  /-- Collects all that are still to come. -/
  | draining
  | closing
  | closed
  deriving DecidableEq, Repr

/-- A batch under way. -/
structure Batch where
  /-- The selected records that are not dealt with. -/
  queue : List Record
  stage : Stage := .choosing
  working : List Worker := []
  /-- Those that are done, in the order they ended. -/
  ended : List Finished := []
  /-- The number for the next worker. -/
  nextWorker : Nat := 0
  /-- The number of workers that were collected. -/
  collected : Nat := 0
  report : Report
  events : List ProgressEvent
  deriving Repr

namespace Batch

variable {ω : Type}

/-- A batch over selected records. -/
def start (runId : String) (options : RunOptions) (selected : List Record) : Batch where
  queue := selected
  report := { runId, dryRun := options.dryRun, pending := selected.length }
  events := [.started runId selected.length]

/-- The records to take: those that are pending, up to the limit. -/
def select (options : RunOptions) (pending : List Record) : List Record :=
  match options.limit with
  | some n => pending.take n
  | none => pending

/-- The batch at another stage. -/
def enter (b : Batch) (stage : Stage) : Batch :=
  { b with stage }

/-- The batch that takes no more records. -/
def cancel (b : Batch) : Batch :=
  { b with stage := .draining, report := { b.report with cancelled := true } }

/-- The batch with a record reported as busy. -/
def skipBusy (b : Batch) (record : Record) : Batch :=
  { b with
    queue := b.queue.tail
    stage := .choosing
    report := b.report.push (.ofBusy record)
    events := b.events ++ [.busy record.path] }

/-- The batch with a worker set on a record. -/
def hire (b : Batch) (record : Record) (order : List String) : Batch :=
  { b with
    queue := b.queue.tail
    stage := .collecting
    working := b.working ++ [⟨b.nextWorker, record, .start record order⟩]
    nextWorker := b.nextWorker + 1 }

/-- The summary of a worker that is done, with its completed and failed passes. -/
def summaryOf (registry : PassRegistry) (f : Finished) : RecordSummary × Nat × Nat :=
  match f.ending with
  | .finished run => (.ofRun registry run, run.completedCount, run.failedCount)
  | .aborted error => (.ofError f.record error.message, 0, 0)
  | .panicked text =>
    let shown := Text.showQuoted text
    (.ofError f.record s!"worker panicked: task {f.number} panicked with message {shown}", 0, 0)

/-- The batch with a worker that is done collected. -/
def collect (registry : PassRegistry) (b : Batch) (f : Finished) (rest : List Finished) : Batch :=
  let (summary, completed, failed) := summaryOf registry f
  let n := b.collected + 1
  { b with
    ended := rest
    collected := n
    report := b.report.push summary
    events := b.events ++ [.finished summary.path n b.report.pending completed failed] }

/-- A step of the coordinator, if it does not have to wait. -/
def coordinate (shop : Workshop ω) (job : Job) (options : RunOptions) (b : Batch) (w : ω) :
    Option (Batch × ω) :=
  let env := shop.environment
  match b.stage with
  | .choosing =>
    if b.queue.isEmpty then some (b.enter .draining, w)
    else if env.isCancelled w then some (b.cancel, w)
    else some (b.enter .waiting, w)
  | .waiting =>
    if b.working.length < options.permits then some (b.enter .permitted, w) else none
  | .permitted =>
    if env.isCancelled w then some (b.cancel, w) else some (b.enter .claiming, w)
  | .claiming =>
    match b.queue with
    | [] => some (b.enter .draining, w)
    | record :: _ =>
      if (shop.claimed w).contains record.id then some (b.skipBusy record, w)
      else
        some (b.hire record job.registry.order, shop.setClaimed (record.id :: shop.claimed w) w)
  | .collecting =>
    match b.ended with
    | f :: rest => some (collect job.registry b f rest, w)
    | [] => some (b.enter .choosing, w)
  | .draining =>
    match b.ended with
    | f :: rest => some (collect job.registry b f rest, w)
    | [] => if b.working.isEmpty then some (b.enter .closing, w) else none
  | .closing =>
    let cancelled := b.report.cancelled || env.isCancelled w
    some ({ b with stage := .closed, report := { b.report with cancelled }.sorted }, w)
  | .closed => none

/-- The batch and the claims once the worker in a place among those at work has ended. -/
def dismiss (shop : Workshop ω) (b : Batch) (place : Nat) (worker : Worker) (ending : Ending)
    (w : ω) : Batch × ω :=
  ({ b with
      working := b.working.eraseIdx place
      ended := b.ended ++ [⟨worker.number, worker.record, ending⟩] },
    shop.setClaimed ((shop.claimed w).filter fun id => id != worker.record.id) w)

/-- The batch with the execution of the worker in a place replaced. -/
def proceed (b : Batch) (place : Nat) (worker : Worker) (e : Execution) : Batch :=
  { b with working := b.working.set place { worker with execution := e } }

/-- A step of the worker in a place among those at work. -/
def work (shop : Workshop ω) (job : Job) (b : Batch) (place : Nat) (worker : Worker) (w : ω) :
    Batch × ω :=
  match worker.execution.step shop.environment job w with
  | (.running e, w) => (b.proceed place worker e, w)
  | (.finished run, w) => b.dismiss shop place worker (.finished run) w
  | (.aborted error, w) => b.dismiss shop place worker (.aborted error) w
  | (.panicked text, w) => b.dismiss shop place worker (.panicked text) w

/-- Who is to make a step: the coordinator, or the worker in a place among those at work. -/
inductive Move where
  | coordinator
  | worker (place : Nat)
  deriving DecidableEq, Repr

/-- A step of a batch, if there is one to make. -/
def step (shop : Workshop ω) (job : Job) (options : RunOptions) (b : Batch) (w : ω) :
    Move → Option (Batch × ω)
  | .coordinator => coordinate shop job options b w
  | .worker place =>
    match b.working[place]? with
    | some worker => some (work shop job b place worker w)
    | none => none

end Batch

end Multipass
