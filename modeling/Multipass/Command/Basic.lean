import Multipass.Batch.Run
import Multipass.Config.Load
import Multipass.Ingest.Scan
import Multipass.Ingest.Summary
import Multipass.Record.Detail
import Multipass.Registry.Listing
import Multipass.Status.Basic

/-!
# Commands

What the program can be asked for, and what each command prints. A command opens the database only
once it is clear that it needs it.
-/

namespace Multipass

/-- How a batch is asked for; what is not given is taken from the configuration. -/
structure RunFlags where
  dryRun : Bool := false
  concurrency : Option Nat := none
  limit : Option Nat := none
  progress : Option ProgressMode := none
  /-- The report as JSON. -/
  json : Bool := false
  deriving DecidableEq, Repr

/-- What the program is asked for. -/
inductive Command where
  /-- Makes the tables of the database. -/
  | prepare
  | ingest (dryRun : Bool)
  | passes
  | run (flags : RunFlags)
  | status
  | detail (path : String) (json : Bool)
  | forget (path : String)
  deriving DecidableEq, Repr

/-- Why a command fails. -/
inductive CommandError where
  | load (e : LoadError)
  | configuration (e : ConfigurationError)
  | scan (e : ScanError)
  | store (e : StoreError)
  | database (e : DatabaseFault)
  | detail (e : DetailError)
  /-- The state of the pipeline was printed up to some point. -/
  | status (printed : String) (e : DatabaseFault)
  /-- The program panicked, and had printed something by then. -/
  | panic (printed reason : String)
  /-- No worker may be at work. -/
  | zeroConcurrency
  deriving Repr

/-- The words for a command that fails. -/
def CommandError.message : CommandError → String
  | .load e => e.message
  | .configuration e => e.message
  | .scan e => e.message
  | .store e => e.message
  | .database e => e.message
  | .detail e => e.message
  | .status _ e => e.message
  | .panic _ reason => reason
  | .zeroConcurrency => "--concurrency must be >= 1"

/-- What was printed before a command failed. -/
def CommandError.printed : CommandError → String
  | .status printed _ => printed
  | .panic printed _ => printed
  | _ => ""

/-- What a command prints, and what it tells on the way. -/
structure Printed where
  out : String
  told : String := ""
  deriving DecidableEq, Repr

/-- What commands act on: what batches act on, a database that can be opened and closed, and
files. -/
structure Site (ω : Type) where
  workshop : Workshop ω
  openDatabase : ω → Except DatabaseFault ω
  closeDatabase : ω → ω
  /-- Makes the tables of the open database. -/
  migrate : ω → Except DatabaseFault ω
  overview : ω → List String → PendingCheck → Except OverviewFault Overview
  /-- The bytes that the database takes. -/
  databaseSize : ω → Nat
  files : ω → FileTree
  /-- How a batch is told of unless it is asked otherwise. -/
  progress : ProgressMode := .off

namespace Site

variable {ω : Type}

/-- The store of a site. -/
def store (site : Site ω) : ArtifactStore ω :=
  site.workshop.environment.store

/-- The time at a site. -/
def now (site : Site ω) (w : ω) : Timestamp :=
  Execution.Clock.seconds (site.workshop.environment.clock w)

/-- An answer that depends on the open database. -/
def withDatabase {α : Type} (site : Site ω) (w : ω)
    (use : ω → Except CommandError α × ω) : Except CommandError α × ω :=
  match site.openDatabase w with
  | .error e => (.error (.database e), w)
  | .ok w =>
    let (answer, w) := use w
    (answer, site.closeDatabase w)

end Site

namespace Command

variable {ω : Type}

/-- Prints a text. -/
def printed (s : String) : Except CommandError Printed :=
  .ok { out := s }

/-- Prints the details of a record. -/
def showDetail (site : Site ω) (cfg : Config) (path : String) (json : Bool) (w : ω) :
    Except CommandError Printed × ω :=
  match RecordDetail.ofStore site.store cfg.pipeline.order path w with
  | .ok d => (printed (if json then d.toJson.pretty ++ "\n" else d.text), w)
  | .error e => (.error (.detail e), w)

/-- Removes a record. -/
def forgetRecord (site : Site ω) (path : String) (w : ω) : Except CommandError Printed × ω :=
  match site.store.delete path w with
  | (.ok true, w) => (printed (Text.lines [s!"forgot {path}"]), w)
  | (.ok false, w) => (.error (.detail (.unknownRecord path)), w)
  | (.error e, w) => (.error (.store e), w)

/-- Prints the state of the pipeline, the counts of records before the rest is asked for. -/
def showStatus (site : Site ω) (cfg : Config) (w : ω) : Except CommandError Printed × ω :=
  let front (counts : RecordCounts) : String :=
    Text.lines (Overview.recordLines counts cfg.db.path (site.databaseSize w))
  match site.overview w cfg.pipeline.order cfg.runner.pendingCheck with
  | .ok o => (printed (o.text cfg.db.path (site.databaseSize w) cfg.pipeline.order (site.now w)), w)
  | .error (.uncounted fault) => (.error (.database fault), w)
  | .error (.unsummed counts fault) => (.error (.status (front counts) fault), w)
  | .error (.panicked counts) =>
    (.error (.panic (front counts) DatabaseFault.notAnInteger.message), w)
  | .error (.unaveraged o) =>
    let passes := o.passLines cfg.pipeline.order (site.now w)
    let shown := front o.toRecordCounts ++ Text.lines (passes ++ Overview.metricTable o.metrics)
    (.error (.panic shown DatabaseFault.unexpectedNull.message), w)

/-- Makes the tables of the database. -/
def makeTables (site : Site ω) (w : ω) : Except CommandError Printed × ω :=
  match site.migrate w with
  | .ok w => (printed (Text.lines ["Database initialized successfully."]), w)
  | .error e => (.error (.database e), w)

/-- Keeps artifacts. -/
def keep (site : Site ω) (root : String) (records : List NewRecord) (w : ω) :
    Except CommandError Printed × ω :=
  match Ingest.ingest site.store (site.now w) records w with
  | (.ok summary, w) => (printed (Ingest.summaryText root summary), w)
  | (.error e, w) => (.error (.store e), w)

/-- Runs a batch. -/
def runBatch (site : Site ω) (cfg : Config) (runId : String) (flags : RunFlags) (w : ω) :
    Except CommandError Printed × ω :=
  let options := RunOptions.ofConfig cfg
  let options := { options with
    dryRun := flags.dryRun
    limit := flags.limit
    concurrency := flags.concurrency.getD options.concurrency }
  match runConfigured site.workshop cfg cfg.ingest.root runId options w with
  | (.ok outcome, w) =>
    let report := outcome.report
    (.ok {
      out := if flags.json then report.toJson.pretty ++ "\n" else report.text
      told := ProgressEvent.text (flags.progress.getD site.progress) outcome.events }, w)
  | (.error (.configuration e), w) => (.error (.configuration e), w)
  | (.error (.store e), w) => (.error (.store e), w)

/-- Carries out a command. -/
def perform (site : Site ω) (cfg : Config) (runId : String) (command : Command) (w : ω) :
    Except CommandError Printed × ω :=
  match command with
  | .prepare => site.withDatabase w fun w => makeTables site w
  | .ingest dryRun =>
    match Ingest.scan (site.files w) cfg.ingest with
    | .error e => (.error (.scan e), w)
    | .ok records =>
      if dryRun then (printed (Ingest.previewText cfg.ingest.root records), w)
      else site.withDatabase w fun w => keep site cfg.ingest.root records w
  | .passes =>
    match cfg.listing with
    | .ok s => (printed s, w)
    | .error e => (.error (.configuration e), w)
  | .run flags =>
    if flags.concurrency = some 0 then (.error .zeroConcurrency, w)
    else site.withDatabase w fun w => runBatch site cfg runId flags w
  | .status => site.withDatabase w fun w => showStatus site cfg w
  | .detail path json => site.withDatabase w fun w => showDetail site cfg path json w
  | .forget path => site.withDatabase w fun w => forgetRecord site path w

end Command

end Multipass
