import Multipass.Store.Basic

/-!
# Requests to a store

The operations of a store as data: a request, and what is answered to it. The type of requests
leaves open by what a record and the number of a record are named, so that a request may also refer
to records that were seen before.

Main definitions: `Request.perform`, which puts one request to a store, and `Request.performAll`,
which puts a sequence of them, each at its time.
-/

namespace Multipass

/-- A request to a store that names records by `ρ` and numbers of records by `ι`. -/
inductive Request (ρ ι : Type) where
  | upsert (new : NewRecord)
  | get (path : String)
  | list
  | pending (order : List String) (check : PendingCheck)
  | recordResult (record : ρ) (result : PassResult)
  | advance (record : ρ) (pass : String)
  | commit (record : ρ) (result : PassResult)
  | results (id : ι)
  | latest (id : ι) (pass : String)
  | saveScores (id : ι) (scores : List Score)
  | scores (id : ι)
  | delete (path : String)

/-- What a store answers to a request that it does not refuse. -/
inductive Answer where
  | outcome (o : UpsertOutcome)
  | done
  | deleted (found : Bool)
  /-- The record behind a completed pass. -/
  | record (r : Record)
  | record? (r : Option Record)
  | records (rs : List Record)
  | result? (r : Option PassResult)
  | results (rs : List PassResult)
  | scores (ss : List Score)

/-- A reply to a request. -/
abbrev Response := Except StoreError Answer

namespace Request

variable {σ α : Type}

/-- An operation whose answer is put into another form. -/
def answering (f : α → Answer) (action : Action σ α) : Action σ Answer := fun s =>
  ((action s).1.map f, (action s).2)

/-- A question whose answer is put into another form; the state stays. -/
def reading (f : α → Answer) (query : Query σ α) : Action σ Answer := fun s =>
  ((query s).map f, s)

/-- Puts a request to a store at a time. -/
def perform (store : ArtifactStore σ) (now : Timestamp) :
    Request Record RecordId → Action σ Answer
  | .upsert new => answering .outcome (store.upsert new now)
  | .get path => reading .record? (store.get path)
  | .list => reading .records store.list
  | .pending order check => reading .records (store.pending order check)
  | .recordResult record result => answering (fun _ => .done) (store.recordResult record result)
  | .advance record pass => answering .record (store.advance record pass now)
  | .commit record result => answering .record (store.commit record result now)
  | .results id => reading .results (store.results id)
  | .latest id pass => reading .result? (store.latest id pass)
  | .saveScores id values => answering (fun _ => .done) (store.saveScores id values)
  | .scores id => reading .scores (store.scores id)
  | .delete path => answering .deleted (store.delete path)

/-- The state behind a sequence of requests, each put at its time. -/
def performAll (store : ArtifactStore σ) (requests : List (Timestamp × Request Record RecordId))
    (s : σ) : σ :=
  requests.foldl (fun s r => (r.2.perform store r.1 s).2) s

/-- Holds of the requests that may complete a pass of a record. -/
def Completes (id : RecordId) (pass : String) : Request Record RecordId → Prop
  | .advance record name => record.id = id ∧ name = pass
  | .commit record result => record.id = id ∧ result.pass = pass
  | _ => False

end Request

end Multipass
