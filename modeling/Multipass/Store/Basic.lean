import Multipass.PassResult
import Multipass.Record
import Multipass.Score.Payload
import Multipass.Store.Error

/-!
# Artifact stores

What a place for records offers, over any type of states. An operation that changes the state
leaves a state behind also when it is refused. Readers leave the state alone.

A store may be seen through a larger state of which its own state is a part.
-/

namespace Multipass

/-- What became of an ingested artifact. -/
inductive UpsertOutcome where
  | inserted
  /-- The source or the parsed representation changed; completed passes stay. -/
  | updated
  | unchanged
  deriving DecidableEq, Repr

/-- An operation on a state. -/
abbrev Action (σ α : Type) := σ → Except StoreError α × σ

/-- A question to a state. -/
abbrev Query (σ α : Type) := σ → Except StoreError α

/-- The operations of a store. Those that write a time are given it. -/
structure ArtifactStore (σ : Type) where
  /-- Creates the record of an artifact, or refreshes it. -/
  upsert : NewRecord → Timestamp → Action σ UpsertOutcome
  get : String → Query σ (Option Record)
  /-- All records, by their numbers. -/
  list : Query σ (List Record)
  /-- Keeps the result of a pass that is not completed and has none. -/
  recordResult : Record → PassResult → Action σ Unit
  /-- Marks a pass as completed. -/
  advance : Record → String → Timestamp → Action σ Record
  /-- Keeps the result of a pass and marks the pass as completed. -/
  commit : Record → PassResult → Timestamp → Action σ Record
  results : RecordId → Query σ (List PassResult)
  latest : RecordId → String → Query σ (Option PassResult)
  /-- Sets the values of some metrics. -/
  saveScores : RecordId → List Score → Action σ Unit
  scores : RecordId → Query σ (List Score)
  /-- Removes a record with its results and scores; tells whether there was one. -/
  delete : String → Action σ Bool

namespace ArtifactStore

/-- The records that still need work, by their numbers. -/
def pending {σ : Type} (store : ArtifactStore σ) (order : List String) (check : PendingCheck) :
    Query σ (List Record) := fun s =>
  match store.list s with
  | .ok records => .ok (records.filter fun r => r.isPending order check)
  | .error e => .error e

/-- An operation on a part of a state. -/
def within {σ ω α : Type} (part : ω → σ) (replace : σ → ω → ω) (action : Action σ α) :
    Action ω α := fun w =>
  let (answer, s) := action (part w)
  (answer, replace s w)

/-- A store that keeps its state as a part of a larger one. -/
def embed {σ ω : Type} (store : ArtifactStore σ) (part : ω → σ) (replace : σ → ω → ω) :
    ArtifactStore ω where
  upsert new now := within part replace (store.upsert new now)
  get path w := store.get path (part w)
  list w := store.list (part w)
  recordResult r result := within part replace (store.recordResult r result)
  advance r pass now := within part replace (store.advance r pass now)
  commit r result now := within part replace (store.commit r result now)
  results id w := store.results id (part w)
  latest id pass w := store.latest id pass (part w)
  saveScores id scores := within part replace (store.saveScores id scores)
  scores id w := store.scores id (part w)
  delete path := within part replace (store.delete path)

/-- A store with something done around each operation that may change it. -/
def around {σ : Type} (store : ArtifactStore σ) (f : {α : Type} → Action σ α → Action σ α) :
    ArtifactStore σ where
  upsert new now := f (store.upsert new now)
  get := store.get
  list := store.list
  recordResult r result := f (store.recordResult r result)
  advance r pass now := f (store.advance r pass now)
  commit r result now := f (store.commit r result now)
  results := store.results
  latest := store.latest
  saveScores id scores := f (store.saveScores id scores)
  scores := store.scores
  delete path := f (store.delete path)

end ArtifactStore

end Multipass
