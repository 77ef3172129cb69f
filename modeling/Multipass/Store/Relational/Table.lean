import Multipass.Calendar
import Multipass.Number.Binary
import Multipass.Record

/-!
# Tables

The three tables of the database: records, results of passes, and scores. A column holds a number
or a text; lists and JSON values are kept as text. Numbers of rows are given once and never
again. A path is unique among the records, and a record has at most one result of a pass and one
score of a metric.
-/

namespace Multipass.Relational

/-- A row of the table of records. -/
structure RecordRow where
  id : RecordId
  path : String
  language : Option String
  source : String
  hash : String
  /-- The parsed representation, as JSON text. -/
  parsed : String
  passIndex : Int
  /-- The names of the completed passes, as a JSON array. -/
  completed : String
  createdAt : Timestamp
  updatedAt : Timestamp
  deriving DecidableEq, Repr

/-- A row of the table of results. -/
structure ResultRow where
  id : Int
  recordId : RecordId
  pass : String
  input : String
  kind : String
  body : String
  /-- The tokens that were taken, as JSON text. -/
  usage : Option String
  duration : Int
  createdAt : Timestamp
  deriving DecidableEq, Repr

/-- A row of the table of scores. -/
structure ScoreRow where
  recordId : RecordId
  metric : String
  value : Number.Double
  deriving DecidableEq, Repr

/-- A table whose rows have numbers: the rows by ascending number, and the last number given. -/
structure Table (ρ : Type) where
  rows : List ρ := []
  lastId : Int := 0
  deriving DecidableEq, Repr

/-- A database; a table may be missing. -/
structure Database where
  records : Option (Table RecordRow) := none
  results : Option (Table ResultRow) := none
  scores : Option (List ScoreRow) := none
  deriving DecidableEq, Repr

/-- The database with each missing table made. -/
def Database.migrate (db : Database) : Database where
  records := some (db.records.getD {})
  results := some (db.results.getD {})
  scores := some (db.scores.getD [])

/-- The words of a missing table. -/
def recordsTable : String := "analysis_records"

/-- The words of a missing table. -/
def resultsTable : String := "pass_results"

/-- The words of a missing table. -/
def scoresTable : String := "scores"

end Multipass.Relational
