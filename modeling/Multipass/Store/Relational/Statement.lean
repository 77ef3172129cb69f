import Multipass.Store.Error
import Multipass.Store.Relational.JsonText
import Multipass.Store.Relational.Table

/-!
# Statements and transactions

What is asked of the database, one statement at a time, and what each statement answers and
changes. A statement that fails changes nothing. A statement that names a missing table fails,
also when it would find nothing to do; so does one that breaks a unique key, gives a column nothing
that must have a value, or names a record that is not there.

A transaction is what is still to be done: a statement, and what follows from its answer; or the
end, which keeps the changes or takes them back. Run alone, a transaction that does not end in a
commit leaves the database as it was.
-/

namespace Multipass.Relational

/-- A statement. -/
inductive Statement where
  /-- Hash and parsed representation of the record of a path. -/
  | contentOf (path : String)
  /-- Inserts a record, or sets the content columns of the one with its path. -/
  | putRecord (path : String) (language : Option String) (source hash parsed : String)
      (now : Timestamp)
  | recordAt (path : String)
  | recordOf (id : RecordId)
  | allRecords
  /-- The completed passes of a record. -/
  | completedOf (id : RecordId)
  /-- Sets the completed passes of a record. -/
  | setCompleted (id : RecordId) (completed : String) (passIndex : Int) (now : Timestamp)
  /-- Inserts a result; the number in the row is not looked at. -/
  | insertResult (row : ResultRow)
  /-- Deletes the result of a pass that its record has not completed. -/
  | deleteUncompleted (id : RecordId) (pass : String)
  | resultsOf (id : RecordId)
  /-- The result of a pass with the greatest number. -/
  | latestResult (id : RecordId) (pass : String)
  /-- Inserts a score, or sets the value of the one for its metric. -/
  | putScore (id : RecordId) (metric : String) (value : Number.Double)
  /-- The scores of a record, by metric. -/
  | scoresOf (id : RecordId)
  | idAt (path : String)
  | deleteScores (id : RecordId)
  | deleteResults (id : RecordId)
  | deleteRecord (id : RecordId)

namespace Statement

/-- What a statement answers. -/
def Answer : Statement → Type
  | contentOf _ => Option (String × String)
  | recordAt _ => Option RecordRow
  | recordOf _ => Option RecordRow
  | allRecords => List RecordRow
  | completedOf _ => Option String
  | resultsOf _ => List ResultRow
  | latestResult .. => Option ResultRow
  | scoresOf _ => List ScoreRow
  | idAt _ => Option RecordId
  | _ => Unit

/-- Holds of a statement that may change the database. -/
def isWrite : Statement → Bool
  | contentOf _ | recordAt _ | recordOf _ | allRecords | completedOf _ | resultsOf _
  | latestResult .. | scoresOf _ | idAt _ => false
  | _ => true

/-- The end of a statement, and the database behind it. -/
abbrev Effect (α : Type) := Except DatabaseFault α × Database

/-- A question to a table. -/
def ask {ρ α : Type} (db : Database) (name : String) (table : Option ρ) (f : ρ → α) :
    Effect α :=
  match table with
  | some t => (.ok (f t), db)
  | none => (.error (.noSuchTable name), db)

/-- A change of a database for which a table is needed. -/
def change {ρ : Type} (db : Database) (name : String) (table : Option ρ) (f : ρ → Database) :
    Effect Unit :=
  match table with
  | some t => (.ok (), f t)
  | none => (.error (.noSuchTable name), db)

/-- The record of a path. -/
def rowAt? (t : Table RecordRow) (path : String) : Option RecordRow :=
  t.rows.find? fun r => r.path == path

/-- The record of a number. -/
def rowOf? (t : Table RecordRow) (id : RecordId) : Option RecordRow :=
  t.rows.find? fun r => r.id == id

/-- The table of records with an artifact inserted, or the record of its path changed. The number
for a new row is taken in either case. -/
def upsert (t : Table RecordRow) (path : String) (language : Option String)
    (source hash parsed : String) (now : Timestamp) : Table RecordRow :=
  match rowAt? t path with
  | some old =>
    { rows := t.rows.map fun r =>
        if r.id = old.id then { r with language, source, hash, parsed, updatedAt := now } else r
      lastId := t.lastId + 1 }
  | none =>
    let id := t.lastId + 1
    { rows := t.rows ++ [{
        id, path, language, source, hash, parsed
        passIndex := 0
        completed := "[]"
        createdAt := now
        updatedAt := now }]
      lastId := id }

/-- Whether a record lists a pass as completed; a list that cannot be read is a fault. -/
def listsPass (t : Table RecordRow) (id : RecordId) (pass : String) : Except DatabaseFault Bool :=
  match rowOf? t id with
  | none => .ok false
  | some r =>
    match (readJson r.completed).bind fun j => LooseJson.someIsText pass j.eachValue with
    | some found => .ok found
    | none => .error .malformedJson

/-- Holds of the row of a pass of a record. -/
def isRowOf (id : RecordId) (pass : String) (row : ResultRow) : Bool :=
  row.recordId == id && row.pass == pass

/-- Deletes the result of a pass that its record has not completed. -/
def dropUncompleted (db : Database) (id : RecordId) (pass : String) : Effect Unit :=
  match db.results, db.records with
  | none, _ => (.error (.noSuchTable resultsTable), db)
  | some _, none => (.error (.noSuchTable recordsTable), db)
  | some results, some records =>
    if results.rows.any (isRowOf id pass) then
      match listsPass records id pass with
      | .error fault => (.error fault, db)
      | .ok true => (.ok (), db)
      | .ok false =>
        (.ok (), { db with results := some { results with
          rows := results.rows.filter fun row => !isRowOf id pass row } })
    else (.ok (), db)

/-- Inserts a result. -/
def addResult (db : Database) (row : ResultRow) : Effect Unit :=
  match db.results, db.records with
  | none, _ => (.error (.noSuchTable resultsTable), db)
  | some _, none => (.error (.noSuchTable recordsTable), db)
  | some results, some records =>
    if results.rows.any (isRowOf row.recordId row.pass) then (.error .uniqueKey, db)
    else if (rowOf? records row.recordId).isNone then (.error .foreignKey, db)
    else
      let id := results.lastId + 1
      (.ok (), { db with results := some ⟨results.rows ++ [{ row with id := id }], id⟩ })

/-- Sets a score among others, which stand by record and metric. -/
def setScore (row : ScoreRow) : List ScoreRow → List ScoreRow
  | [] => [row]
  | other :: rest =>
    if row.recordId < other.recordId
        ∨ (row.recordId = other.recordId ∧ row.metric < other.metric) then row :: other :: rest
    else if row.recordId = other.recordId ∧ row.metric = other.metric then row :: rest
    else other :: setScore row rest

/-- A number as a column keeps it: there is one zero. -/
def stored (x : Number.Double) : Number.Double :=
  if x.isZero then Number.Binary.zero .double false else x

/-- Inserts a score, or sets the value of the one for its metric. A value that is no number is none,
and the column must have one. -/
def addScore (db : Database) (id : RecordId) (metric : String) (value : Number.Double) :
    Effect Unit :=
  match db.scores, db.records with
  | none, _ => (.error (.noSuchTable scoresTable), db)
  | some _, none => (.error (.noSuchTable recordsTable), db)
  | some scores, some records =>
    if value = .nan then (.error .notNull, db)
    else if (rowOf? records id).isNone then (.error .foreignKey, db)
    else (.ok (), { db with scores := some (setScore ⟨id, metric, stored value⟩ scores) })

/-- Runs a statement. -/
def run : (s : Statement) → Database → Effect s.Answer
  | contentOf path, db =>
    ask db recordsTable db.records fun t => (rowAt? t path).map fun r => (r.hash, r.parsed)
  | putRecord path language source hash parsed now, db =>
    change db recordsTable db.records fun t =>
      { db with records := some (upsert t path language source hash parsed now) }
  | recordAt path, db => ask db recordsTable db.records fun t => rowAt? t path
  | recordOf id, db => ask db recordsTable db.records fun t => rowOf? t id
  | allRecords, db => ask db recordsTable db.records fun t => t.rows
  | completedOf id, db =>
    ask db recordsTable db.records fun t => (rowOf? t id).map RecordRow.completed
  | setCompleted id completed passIndex now, db =>
    change db recordsTable db.records fun t =>
      { db with records := some { t with
          rows := t.rows.map fun r =>
            if r.id = id then { r with completed, passIndex, updatedAt := now } else r } }
  | insertResult row, db => addResult db row
  | deleteUncompleted id pass, db => dropUncompleted db id pass
  | resultsOf id, db =>
    ask db resultsTable db.results fun t => t.rows.filter fun row => row.recordId == id
  | latestResult id pass, db =>
    ask db resultsTable db.results fun t => t.rows.reverse.find? (isRowOf id pass)
  | putScore id metric value, db => addScore db id metric value
  | scoresOf id, db =>
    ask db scoresTable db.scores fun rows => rows.filter fun row => row.recordId == id
  | idAt path, db => ask db recordsTable db.records fun t => (rowAt? t path).map RecordRow.id
  | deleteScores id, db =>
    change db scoresTable db.scores fun rows =>
      { db with scores := some (rows.filter fun row => row.recordId != id) }
  | deleteResults id, db =>
    change db resultsTable db.results fun t =>
      { db with results := some { t with rows := t.rows.filter fun row => row.recordId != id } }
  | deleteRecord id, db =>
    change db recordsTable db.records fun t =>
      { records := some { t with rows := t.rows.filter fun r => r.id != id }
        results := db.results.map fun t =>
          { t with rows := t.rows.filter fun row => row.recordId != id }
        scores := db.scores.map fun rows => rows.filter fun row => row.recordId != id }

end Statement

/-- A transaction with an answer. -/
inductive Transaction (α : Type) where
  /-- Keeps the changes. -/
  | commit (answer : α)
  /-- Takes the changes back. -/
  | rollback (answer : Except StoreError α)
  | perform (s : Statement) (next : Except DatabaseFault s.Answer → Transaction α)

namespace Transaction

/-- A statement that has to succeed. -/
def require {α : Type} (s : Statement) (next : s.Answer → Transaction α) : Transaction α :=
  .perform s fun
    | .ok a => next a
    | .error fault => .rollback (.error (.database fault))

/-- Runs a transaction from a database, given the database it started with. -/
def runFrom {α : Type} (start : Database) :
    Transaction α → Database → Except StoreError α × Database
  | .commit a, db => (.ok a, db)
  | .rollback answer, _ => (answer, start)
  | .perform s next, db =>
    let (answer, db) := s.run db
    runFrom start (next answer) db

/-- Runs a transaction alone. -/
def run {α : Type} (t : Transaction α) (db : Database) : Except StoreError α × Database :=
  runFrom db t db

/-- A transaction that ends in an error leaves the database it started with. -/
theorem runFrom_error {α : Type} {start : Database} {t : Transaction α} {db db' : Database}
    {e : StoreError} (h : runFrom start t db = (.error e, db')) : db' = start := by
  induction t generalizing db with
  | commit a => simp [runFrom] at h
  | rollback answer =>
    simp only [runFrom, Prod.mk.injEq] at h
    exact h.2.symm
  | perform s next ih => exact ih (s.run db).1 h

end Transaction

end Multipass.Relational
