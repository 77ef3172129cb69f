import Multipass.Store.Basic
import Multipass.Text.Pad

/-!
# Details of a record

All that a store holds about one record, as text and as a JSON value.
-/

namespace Multipass

open Text

/-- A record with what it lacks of an order, its results, and its scores. -/
structure RecordDetail where
  record : Record
  missing : List String
  results : List PassResult
  scores : List Score
  deriving Repr

/-- Why there are no details. -/
inductive DetailError where
  | unknownRecord (path : String)
  | store (error : StoreError)
  deriving DecidableEq, Repr

/-- The words for details that are not there. -/
def DetailError.message : DetailError → String
  | .unknownRecord path => s!"record not found: {path}"
  | .store error => error.message

namespace RecordDetail

/-- The details of the record of a path. -/
def ofStore {σ : Type} (store : ArtifactStore σ) (order : List String) (path : String) (s : σ) :
    Except DetailError RecordDetail :=
  match store.get path s with
  | .error e => .error (.store e)
  | .ok none => .error (.unknownRecord path)
  | .ok (some record) =>
    match store.results record.id s with
    | .error e => .error (.store e)
    | .ok results =>
      match store.scores record.id s with
      | .error e => .error (.store e)
      | .ok scores => .ok ⟨record, record.missing order, results, scores⟩

/-! ### JSON -/

/-- A record as a JSON value, its fields in order. -/
def recordFields (r : Record) : Json :=
  .obj [("id", .int r.id), ("artifact_path", .str r.path), ("language", .strOrNull r.language),
    ("raw_source", .str r.source), ("content_hash", .str r.hash),
    ("parsed_representation", r.parsed), ("current_pass_index", .int r.passIndex),
    ("completed_passes", .strs r.completed), ("created_at", .int r.createdAt),
    ("updated_at", .int r.updatedAt)]

/-- A score as a JSON value. -/
def scoreFields (s : Score) : Json :=
  .obj [("metric", .str s.metric), ("value", .float s.value)]

/-- The details as a JSON value, its fields in order. -/
def toJson (d : RecordDetail) : Json :=
  .obj [("record", recordFields d.record), ("missing_passes", .strs d.missing),
    ("results", .arr (d.results.map PassResult.toJson)),
    ("scores", .arr (d.scores.map scoreFields))]

/-! ### Text -/

/-- Names with commas between them. -/
def listed (names : List String) : String :=
  if names.isEmpty then "(none)" else ", ".intercalate names

/-- The lines about a record and what it lacks. -/
def recordLines (d : RecordDetail) : List String :=
  let r := d.record
  ["--- Record ---",
   s!"id:           {r.id}",
   s!"path:         {r.path}",
   "language:     " ++ r.language.getD "(unknown)",
   s!"content_hash: {r.hash}",
   s!"created_at:   {Calendar.isoSecond r.createdAt}",
   s!"updated_at:   {Calendar.isoSecond r.updatedAt}",
   s!"pass_index:   {r.passIndex}",
   s!"completed:    {listed r.completed}",
   s!"missing:      {listed d.missing}",
   ""]

/-- The line above the output of a result. -/
def resultLine (r : PassResult) : String :=
  let tokens := match r.usage with
    | some u => s!", {u.totalTokens} tokens ({u.model})"
    | none => ""
  s!"[{r.pass}] {r.durationMillis} ms, {Calendar.isoSecond r.createdAt}{tokens}"

/-- The lines about results. -/
def resultLines (results : List PassResult) : List String :=
  s!"--- Results ({results.length}) ---" ::
    results.flatMap fun r => [resultLine r, r.output.asText, ""]

/-- The lines about scores, if there are any. -/
def scoreLines (scores : List Score) : List String :=
  if scores.isEmpty then []
  else
    "--- Scores ---" ::
      scores.map fun s => s!"{padRight 24 s.metric} {Number.plain .double s.value}"

/-- The details in words. -/
def text (d : RecordDetail) : String :=
  lines (d.recordLines ++ resultLines d.results ++ scoreLines d.scores)

end RecordDetail

end Multipass
