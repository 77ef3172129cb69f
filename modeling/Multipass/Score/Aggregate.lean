import Multipass.Store.Basic

/-!
# Scores of a record

The latest result of the scoring pass is read, its payload gives one number for each metric, and
all of them are kept or none.
-/

namespace Multipass.Score

/-- The payload of an output. -/
def payload : PassOutput → Except ScoreError Json
  | .findings j => .ok j
  | .text s => extractObject s

/-- The scores in the latest result of a pass. -/
def ofLatest {σ : Type} (store : ArtifactStore σ) (id : RecordId) (pass : String)
    (metrics : List String) (s : σ) : Except ScoreError (List Score) :=
  match store.latest id pass s with
  | .error e => .error (.store e)
  | .ok none => .error (.missingScoringResult pass)
  | .ok (some result) =>
    match payload result.output with
    | .error e => .error e
    | .ok j => ofPayload j metrics

/-- Keeps the scores in the latest result of a pass. -/
def compute {σ : Type} (store : ArtifactStore σ) (id : RecordId) (pass : String)
    (metrics : List String) (s : σ) : Except ScoreError (List Score) × σ :=
  match ofLatest store id pass metrics s with
  | .error e => (.error e, s)
  | .ok scores =>
    match store.saveScores id scores s with
    | (.ok _, s) => (.ok scores, s)
    | (.error e, s) => (.error (.store e), s)

end Multipass.Score
