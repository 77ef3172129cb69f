import Multipass.Store.Basic

/-!
# Records in memory

Records by ascending number, results in the order they came, and scores by record and metric.
Each operation is one step. Numbers are given once and never again.
-/

namespace Multipass

/-- The contents of a store in memory. -/
structure MemoryStore where
  /-- The number for the next record. -/
  nextId : RecordId := 1
  records : List Record := []
  results : List (RecordId × PassResult) := []
  scores : List (RecordId × Score) := []
  deriving Repr, Inhabited

namespace MemoryStore

/-- The record of a number. -/
def record? (s : MemoryStore) (id : RecordId) : Option Record :=
  s.records.find? fun r => r.id == id

/-- The record of a path. -/
def recordAt? (s : MemoryStore) (path : String) : Option Record :=
  s.records.find? fun r => r.path == path

/-- Changes the record of a number. -/
def modifyRecord (s : MemoryStore) (id : RecordId) (f : Record → Record) : MemoryStore :=
  { s with records := s.records.map fun r => if r.id = id then f r else r }

/-- Holds of a result of a pass of a record. -/
def isResultOf (id : RecordId) (pass : String) (entry : RecordId × PassResult) : Bool :=
  entry.1 == id && entry.2.pass == pass

/-- Creates the record of an artifact, or refreshes it if its hash or its parsed representation
changed. -/
def upsert (new : NewRecord) (now : Timestamp) : Action MemoryStore UpsertOutcome := fun s =>
  match s.recordAt? new.path with
  | some old =>
    if old.hash == new.hash && old.parsed.same new.parsed then (.ok .unchanged, s)
    else (.ok .updated, s.modifyRecord old.id fun r => r.refresh new now)
  | none =>
    (.ok .inserted,
      { s with nextId := s.nextId + 1, records := s.records ++ [.ofNew s.nextId new now] })

/-- Keeps the result of a pass that is not completed and has none. -/
def recordResult (record : Record) (result : PassResult) : Action MemoryStore Unit := fun s =>
  match s.record? record.id with
  | none => (.error (.recordNotFound record.path), s)
  | some stored =>
    if stored.hasCompleted result.pass || s.results.any (isResultOf record.id result.pass) then
      (.error (.duplicatePass record.path result.pass), s)
    else (.ok (), { s with results := s.results ++ [(record.id, result)] })

/-- Marks a pass as completed. -/
def advance (record : Record) (pass : String) (now : Timestamp) : Action MemoryStore Record :=
  fun s =>
    match s.record? record.id with
    | none => (.error (.recordNotFound record.path), s)
    | some stored =>
      if stored.hasCompleted pass then (.error (.duplicatePass record.path pass), s)
      else (.ok (stored.complete pass now), s.modifyRecord record.id fun r => r.complete pass now)

/-- Keeps the result of a pass, in the place of one that was not followed by the completion, and
marks the pass as completed. -/
def commit (record : Record) (result : PassResult) (now : Timestamp) :
    Action MemoryStore Record := fun s =>
  match advance record result.pass now s with
  | (.error e, s) => (.error e, s)
  | (.ok updated, s) =>
    let others := s.results.filter fun entry => !isResultOf record.id result.pass entry
    (.ok updated, { s with results := others ++ [(record.id, result)] })

/-- The results of a record, in the order they came. -/
def resultsOf (s : MemoryStore) (id : RecordId) : List PassResult :=
  (s.results.filter fun entry => entry.1 == id).map Prod.snd

/-- The last result of a pass of a record. -/
def latest? (s : MemoryStore) (id : RecordId) (pass : String) : Option PassResult :=
  (s.results.reverse.find? (isResultOf id pass)).map Prod.snd

/-- Sets a score; scores stand by record and metric. -/
def setScore (id : RecordId) (score : Score) :
    List (RecordId × Score) → List (RecordId × Score)
  | [] => [(id, score)]
  | (i, other) :: rest =>
    if id < i ∨ (id = i ∧ score.metric < other.metric) then (id, score) :: (i, other) :: rest
    else if id = i ∧ score.metric = other.metric then (id, score) :: rest
    else (i, other) :: setScore id score rest

/-- Sets the values of some metrics, one after the other. -/
def saveScores (id : RecordId) (scores : List Score) : Action MemoryStore Unit := fun s =>
  (.ok (), { s with scores := scores.foldl (fun acc score => setScore id score acc) s.scores })

/-- The scores of a record, by metric. -/
def scoresOf (s : MemoryStore) (id : RecordId) : List Score :=
  (s.scores.filter fun entry => entry.1 == id).map Prod.snd

/-- Removes a record with its results and scores. -/
def delete (path : String) : Action MemoryStore Bool := fun s =>
  match s.recordAt? path with
  | none => (.ok false, s)
  | some r =>
    (.ok true,
      { s with
        records := s.records.filter fun other => other.id != r.id
        results := s.results.filter fun entry => entry.1 != r.id
        scores := s.scores.filter fun entry => entry.1 != r.id })

/-- The operations on a store in memory. -/
def operations : ArtifactStore MemoryStore where
  upsert := upsert
  get path s := .ok (s.recordAt? path)
  list s := .ok s.records
  recordResult := recordResult
  advance := advance
  commit := commit
  results id s := .ok (s.resultsOf id)
  latest id pass s := .ok (s.latest? id pass)
  saveScores := saveScores
  scores id s := .ok (s.scoresOf id)
  delete := delete

end MemoryStore

end Multipass
