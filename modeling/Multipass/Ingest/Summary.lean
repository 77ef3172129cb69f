import Multipass.Store.Basic
import Multipass.Text.Pad

/-!
# Ingesting

New records are put into a store one after the other, and it is counted what became of them.
-/

namespace Multipass

/-- What became of the artifacts of a scan. -/
structure IngestSummary where
  scanned : Nat := 0
  inserted : Nat := 0
  updated : Nat := 0
  unchanged : Nat := 0
  deriving DecidableEq, Repr

namespace Ingest

/-- The summary with one more outcome. -/
def count (s : IngestSummary) : UpsertOutcome → IngestSummary
  | .inserted => { s with inserted := s.inserted + 1 }
  | .updated => { s with updated := s.updated + 1 }
  | .unchanged => { s with unchanged := s.unchanged + 1 }

/-- Puts records into a store; the first error ends it. -/
def putAll {σ : Type} (store : ArtifactStore σ) (now : Timestamp) (summary : IngestSummary) :
    List NewRecord → Action σ IngestSummary
  | [], s => (.ok summary, s)
  | new :: rest, s =>
    match store.upsert new now s with
    | (.error e, s) => (.error e, s)
    | (.ok outcome, s) => putAll store now (count summary outcome) rest s

/-- Puts the records of a scan into a store. -/
def ingest {σ : Type} (store : ArtifactStore σ) (now : Timestamp) (records : List NewRecord) :
    Action σ IngestSummary :=
  putAll store now { scanned := records.length } records

/-! ### Text -/

/-- What became of the artifacts below a root, in words. -/
def summaryText (root : String) (s : IngestSummary) : String :=
  Text.lines [s!"ingest {root}", s!"  scanned: {s.scanned}", s!"  inserted: {s.inserted}",
    s!"  updated: {s.updated}", s!"  unchanged: {s.unchanged}", "ok"]

/-- The artifacts found below a root, in words. -/
def previewText (root : String) (records : List NewRecord) : String :=
  Text.lines (s!"ingest {root} (dry-run)" :: s!"  artifacts found: {records.length}" ::
    records.map fun r => "  " ++ r.path)

end Ingest

end Multipass
