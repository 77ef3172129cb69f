import Multipass.Json.Basic

/-!
# Outcomes of passes

What one run did about one pass of one record.
-/

namespace Multipass

/-- Why a pass was not run. -/
inductive SkipReason where
  /-- The pass is a placeholder. -/
  | noBackend
  | dryRun
  | alreadyCompleted
  | cancelled
  deriving DecidableEq, Repr

/-- The words for a reason. -/
def SkipReason.message : SkipReason → String
  | .noBackend => "no backend"
  | .dryRun => "dry run"
  | .alreadyCompleted => "already completed"
  | .cancelled => "cancelled"

/-- The name of a reason in reports. -/
def SkipReason.tag : SkipReason → String
  | .noBackend => "no_backend"
  | .dryRun => "dry_run"
  | .alreadyCompleted => "already_completed"
  | .cancelled => "cancelled"

/-- What became of a pass. -/
inductive PassOutcome where
  | completed
  | failed (reason : String)
  | skipped (reason : SkipReason)
  deriving DecidableEq, Repr

namespace PassOutcome

/-- Holds of a completed pass. -/
def isCompleted : PassOutcome → Bool
  | .completed => true
  | _ => false

/-- Holds of a failed pass. -/
def isFailed : PassOutcome → Bool
  | .failed _ => true
  | _ => false

/-- The words for an outcome. -/
def label : PassOutcome → String
  | .completed => "completed"
  | .failed reason => s!"failed ({reason})"
  | .skipped reason => s!"skipped ({reason.message})"

/-- The fields of an outcome in reports. -/
def fields : PassOutcome → List (String × Json)
  | .completed => [("status", .str "completed")]
  | .failed reason => [("status", .str "failed"), ("reason", .str reason)]
  | .skipped reason => [("status", .str "skipped"), ("reason", .str reason.tag)]

end PassOutcome

/-- The outcome of a named pass. -/
structure PassReport where
  pass : String
  outcome : PassOutcome
  deriving DecidableEq, Repr

end Multipass
