import Multipass.Store.Basic
import Multipass.Store.Relational.Row
import Multipass.Store.Relational.Statement

/-!
# Records in a database

The operations of a store as transactions. The result of a pass and its completion are kept
together or not at all. A commit writes before it reads: first the result of a pass that was not
followed by the completion goes, then the new result is inserted, which the unique key refuses if
the pass is completed, and then the pass is appended to the list of the record.
-/

namespace Multipass.Relational

namespace Transaction

/-- Creates the record of an artifact, or refreshes it if its hash or the text of its parsed
representation changed. -/
def upsert (new : NewRecord) (now : Timestamp) : Transaction UpsertOutcome :=
  let parsed := new.parsed.compact
  require (.contentOf new.path) fun (content : Option (String × String)) =>
    let put (outcome : UpsertOutcome) : Transaction UpsertOutcome :=
      require (.putRecord new.path new.language new.source new.hash parsed now) fun _ =>
        .commit outcome
    match content with
    | none => put .inserted
    | some (hash, old) =>
      if hash == new.hash && old == parsed then .rollback (.ok .unchanged) else put .updated

/-- Inserts the result of a pass; the unique key tells a pass that has one. -/
def insertResult {α : Type} (record : Record) (result : PassResult) (next : Transaction α) :
    Transaction α :=
  .perform (.insertResult (.ofResult record.id result)) fun
    | .ok _ => next
    | .error .uniqueKey => .rollback (.error (.duplicatePass record.path result.pass))
    | .error fault => .rollback (.error (.database fault))

/-- Appends a pass to the completed passes of a record. -/
def appendPass (record : Record) (pass : String) (now : Timestamp) : Transaction Record :=
  require (.recordOf record.id) fun (row : Option RecordRow) =>
    match row with
    | none => .rollback (.error (.recordNotFound record.path))
    | some row =>
      match row.record with
      | .error e => .rollback (.error e)
      | .ok current =>
        if current.hasCompleted pass then
          .rollback (.error (.duplicatePass record.path pass))
        else
          let updated := current.complete pass now
          require (.setCompleted updated.id (writeNames updated.completed) updated.passIndex now)
            fun _ => .commit updated

/-- Keeps the result of a pass that is not completed and has none. -/
def recordResult (record : Record) (result : PassResult) : Transaction Unit :=
  insertResult record result <|
    require (.completedOf record.id) fun (completed : Option String) =>
      match completed with
      | none => .rollback (.error (.recordNotFound record.path))
      | some text =>
        match readNames text with
        | .error reason => .rollback (.error (.serialization reason))
        | .ok names =>
          if names.contains result.pass then
            .rollback (.error (.duplicatePass record.path result.pass))
          else .commit ()

/-- Marks a pass as completed. -/
def advance (record : Record) (pass : String) (now : Timestamp) : Transaction Record :=
  appendPass record pass now

/-- Keeps the result of a pass, in the place of one that was not followed by the completion, and
marks the pass as completed. -/
def commitPass (record : Record) (result : PassResult) (now : Timestamp) : Transaction Record :=
  require (.deleteUncompleted record.id result.pass) fun _ =>
    insertResult record result (appendPass record result.pass now)

/-- Sets the values of some metrics, one after the other. -/
def saveScores (id : RecordId) : List Score → Transaction Unit
  | [] => .commit ()
  | score :: scores =>
    require (.putScore id score.metric score.value) fun _ => saveScores id scores

/-- Removes a record with its results and scores. -/
def delete (path : String) : Transaction Bool :=
  require (.idAt path) fun (id : Option RecordId) =>
    match id with
    | none => .rollback (.ok false)
    | some id =>
      require (.deleteScores id) fun _ =>
        require (.deleteResults id) fun _ =>
          require (.deleteRecord id) fun _ => .commit true

end Transaction

namespace Database

/-- The answer of one statement that only reads. -/
def ask {α : Type} (s : Statement) (read : s.Answer → Except StoreError α) : Query Database α :=
  fun db =>
    match (s.run db).1 with
    | .ok a => read a
    | .error fault => .error (.database fault)

/-- The operations on a database. -/
def operations : ArtifactStore Database where
  upsert new now := (Transaction.upsert new now).run
  get path := ask (.recordAt path) (readOption RecordRow.record)
  list := ask .allRecords (readAll RecordRow.record)
  recordResult record result := (Transaction.recordResult record result).run
  advance record pass now := (Transaction.advance record pass now).run
  commit record result now := (Transaction.commitPass record result now).run
  results id := ask (.resultsOf id) (readAll ResultRow.result)
  latest id pass := ask (.latestResult id pass) (readOption ResultRow.result)
  saveScores id scores := (Transaction.saveScores id scores).run
  scores id := ask (.scoresOf id) fun (rows : List ScoreRow) => .ok (rows.map ScoreRow.score)
  delete path := (Transaction.delete path).run

/-- The database with each missing table made, unless it may not be changed. -/
def migrateOn (readOnly : Bool) (db : Database) : Except DatabaseFault Database :=
  if readOnly ∧ db.migrate ≠ db then .error .readOnly else .ok db.migrate

end Database

end Multipass.Relational
