import Multipass.Executor.Basic
import Multipass.Text.Pad
import Multipass.Text.Quoted

/-!
# Reports of batches

What became of every record of a batch, and how many records ended in each way.
-/

namespace Multipass

open Text

/-- How a record came out of a batch. -/
inductive RecordStatus where
  /-- No runnable pass is missing. -/
  | completed
  /-- Some passes were completed, and runnable ones are missing. -/
  | partly
  /-- No pass was completed, and runnable ones are missing. -/
  | noProgress
  /-- The store refused, or the worker broke down. -/
  | errored
  /-- Another worker held the record. -/
  | busy
  deriving DecidableEq, Repr

/-- The name of a status in reports. -/
def RecordStatus.tag : RecordStatus → String
  | .completed => "completed"
  | .partly => "partial"
  | .noProgress => "no_progress"
  | .errored => "errored"
  | .busy => "busy"

/-- What became of a record. -/
structure RecordSummary where
  path : String
  status : RecordStatus
  outcomes : List PassReport := []
  completed : List String
  error : Option String := none
  scoreError : Option String := none
  deriving DecidableEq, Repr

/-- What became of a batch. -/
structure Report where
  /-- The name of the run; a run without passes has none. -/
  runId : String
  dryRun : Bool
  /-- Set when the batch was asked to stop. -/
  cancelled : Bool := false
  /-- The number of records that were selected. -/
  pending : Nat := 0
  fullyCompleted : Nat := 0
  partlyCompleted : Nat := 0
  noProgress : Nat := 0
  errored : Nat := 0
  busy : Nat := 0
  records : List RecordSummary := []
  deriving DecidableEq, Repr

namespace Report

/-- The report of a batch without passes. -/
def empty (dryRun : Bool) : Report :=
  { runId := "", dryRun }

/-- The report with one more record. -/
def push (r : Report) (s : RecordSummary) : Report :=
  let r := { r with records := r.records ++ [s] }
  match s.status with
  | .completed => { r with fullyCompleted := r.fullyCompleted + 1 }
  | .partly => { r with partlyCompleted := r.partlyCompleted + 1 }
  | .noProgress => { r with noProgress := r.noProgress + 1 }
  | .errored => { r with errored := r.errored + 1 }
  | .busy => { r with busy := r.busy + 1 }

/-- Holds when a runnable pass is not among the completed ones. -/
def lacksRunnable (registry : PassRegistry) (completed : List String) : Bool :=
  registry.definitions.any fun d => d.backend.isRunnable && !completed.contains d.name

/-- How a finished run came out. -/
def statusOf (registry : PassRegistry) (run : RecordRun) : RecordStatus :=
  if !lacksRunnable registry run.completed then .completed
  else if 0 < run.completedCount then .partly
  else .noProgress

end Report

/-- The summary of a finished run. -/
def RecordSummary.ofRun (registry : PassRegistry) (run : RecordRun) : RecordSummary where
  path := run.path
  status := Report.statusOf registry run
  outcomes := run.outcomes
  completed := run.completed
  scoreError := run.scoreError

/-- The summary of a record whose run did not finish. -/
def RecordSummary.ofError (record : Record) (error : String) : RecordSummary where
  path := record.path
  status := .errored
  completed := record.completed
  error := some error

/-- The summary of a record that another worker held. -/
def RecordSummary.ofBusy (record : Record) : RecordSummary where
  path := record.path
  status := .busy
  completed := record.completed

namespace Report

/-- The report with its records in ascending order of their paths. -/
def sorted (r : Report) : Report :=
  { r with records := r.records.mergeSort fun a b => !(b.path < a.path) }

/-! ### Text -/

/-- A line about a pass. -/
def passLine (o : PassReport) : String :=
  s!"    {padRight 24 o.pass} {o.outcome.label}"

/-- A line about something that may not be there. -/
def optionalLine (title : String) : Option String → List String
  | some s => [s!"    {title}: {s}"]
  | none => []

/-- The lines about a record. -/
def recordLines (s : RecordSummary) : List String :=
  ["", s!"  {s.path}"] ++ optionalLine "error" s.error ++ s.outcomes.map passLine
    ++ optionalLine "scores rejected" s.scoreError

/-- A report in words. -/
def text (r : Report) : String :=
  if r.runId.isEmpty then lines ["No passes configured. Nothing to run."]
  else
    let mode := if r.dryRun then " (dry run)" else ""
    lines (
      [s!"run {r.runId}{mode}",
       s!"  pending records:     {r.pending}",
       s!"  fully completed:     {r.fullyCompleted}",
       s!"  partially completed: {r.partlyCompleted}",
       s!"  no progress:         {r.noProgress}",
       s!"  errored:             {r.errored}"]
      ++ (if 0 < r.busy then [s!"  busy:                {r.busy}"] else [])
      ++ (if r.cancelled then ["  cancelled before all records were processed"] else [])
      ++ r.records.flatMap recordLines)

/-! ### JSON -/

/-- A field that may not be there. -/
def optionalField (key : String) : Option String → List (String × Json)
  | some s => [(key, .str s)]
  | none => []

/-- The fields of the outcome of a pass, in order. -/
def outcomeFields (o : PassReport) : Json :=
  .obj [("pass", .str o.pass), ("outcome", .obj o.outcome.fields)]

/-- The fields of a summary, in order. -/
def summaryFields (s : RecordSummary) : Json :=
  .obj ([("artifact_path", .str s.path), ("status", .str s.status.tag),
    ("outcomes", .arr (s.outcomes.map outcomeFields)),
    ("completed_passes", .strs s.completed)]
    ++ optionalField "error" s.error ++ optionalField "score_error" s.scoreError)

/-- The fields of a report, in order. -/
def toJson (r : Report) : Json :=
  .obj [("run_id", .str r.runId), ("dry_run", .bool r.dryRun), ("cancelled", .bool r.cancelled),
    ("pending", .nat r.pending), ("fully_completed", .nat r.fullyCompleted),
    ("partially_completed", .nat r.partlyCompleted), ("no_progress", .nat r.noProgress),
    ("errored", .nat r.errored), ("busy", .nat r.busy),
    ("records", .arr (r.records.map summaryFields))]

end Report

end Multipass
