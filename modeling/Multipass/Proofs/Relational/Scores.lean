import Multipass.Proofs.Relational.Completion
import Multipass.Proofs.Relational.History
import Multipass.Proofs.Store.Scores

/-!
# Scores of a database

The rows of scores stand in the order of their key, as the scores of a store in memory do, and each
statement keeps that order. Scores of a record that is there are all set in one transaction.

Main statements: `scoresOrdered_performAll` and `Database.ScoresOrdered.keepsScores`.
-/

namespace Multipass.Relational

open MemoryStore (ScoreBefore)

/-- The score of a row, with its record. -/
def ScoreRow.entry (row : ScoreRow) : RecordId × Score :=
  (row.recordId, row.score)

/-- The scores of a database as a store in memory has them. -/
def Database.shown (db : Database) : MemoryStore :=
  { scores := (db.scores.getD []).map ScoreRow.entry }

/-- The database without scores. -/
def Database.unscored (db : Database) : Database :=
  { db with scores := none }

/-- Holds of a database with a table of scores that stand in order. -/
def Database.ScoresOrdered (db : Database) : Prop :=
  ∃ rows, db.scores = some rows ∧ (rows.map ScoreRow.entry).Pairwise ScoreBefore

variable {db : Database} {rows : List ScoreRow}

/-! ### Rows in order -/

/-- A score is set among rows as it is in memory. -/
lemma map_entry_setScore (row : ScoreRow) (rows : List ScoreRow) :
    (Statement.setScore row rows).map ScoreRow.entry =
      MemoryStore.setScore row.recordId row.score (rows.map ScoreRow.entry) := by
  induction rows with
  | nil => rfl
  | cons other rows ih =>
    simp only [Statement.setScore]
    split
    · next before => exact (if_pos before).symm
    · next before =>
      split
      · next same => exact ((if_neg before).trans (if_pos same)).symm
      · next same =>
        rw [List.map_cons, ih]
        exact ((if_neg before).trans (if_neg same)).symm

lemma Database.ScoresOrdered.of_scores {db' : Database} (ordered : db.ScoresOrdered)
    (same : db'.scores = db.scores) : db'.ScoresOrdered := by
  obtain ⟨rows, eq, pairwise⟩ := ordered
  exact ⟨rows, same.trans eq, pairwise⟩

lemma Database.ScoresOrdered.filter (ordered : db.ScoresOrdered) {db' : Database}
    {p : ScoreRow → Bool} (same : db'.scores = db.scores.map (List.filter p)) :
    db'.ScoresOrdered := by
  obtain ⟨rows, eq, pairwise⟩ := ordered
  rw [eq] at same
  exact ⟨rows.filter p, same, pairwise.sublist (List.filter_sublist.map _)⟩

namespace Statement

lemma scoresOrdered_addScore (ordered : db.ScoresOrdered) (id : RecordId) (metric : String)
    (value : Number.Double) : (addScore db id metric value).2.ScoresOrdered := by
  simp only [addScore]
  split
  · exact ordered
  · exact ordered
  · next scores records eq _ =>
    split_ifs
    · exact ordered
    · exact ordered
    · obtain ⟨rows, eq', pairwise⟩ := ordered
      cases eq.symm.trans eq'
      refine ⟨_, rfl, ?_⟩
      rw [map_entry_setScore]
      exact MemoryStore.pairwise_setScore pairwise

/-- Each statement keeps the scores in order. -/
theorem kept_scoresOrdered : Kept Database.ScoresOrdered := by
  intro s db ordered
  cases s with
  | putRecord path language source hash parsed now =>
    exact ordered.of_scores (change_snd Database.scores _ _ fun _ => rfl)
  | setCompleted id completed passIndex now =>
    exact ordered.of_scores (change_snd Database.scores _ _ fun _ => rfl)
  | insertResult row =>
    obtain ⟨results, eq⟩ := addResult_snd db row
    exact ordered.of_scores (by rw [run, eq])
  | deleteUncompleted id pass =>
    obtain ⟨results, eq⟩ := dropUncompleted_snd db id pass
    exact ordered.of_scores (by rw [run, eq])
  | putScore id metric value => exact scoresOrdered_addScore ordered id metric value
  -- What is deleted leaves a part of the rows, in their order.
  | deleteScores id =>
    simp only [run, change]
    split
    · next rows eq => exact ordered.filter (congrArg (Option.map _) eq).symm
    · exact ordered
  | deleteResults id => exact ordered.of_scores (change_snd Database.scores _ _ fun _ => rfl)
  | deleteRecord id =>
    simp only [run, change]
    split
    · exact ordered.filter rfl
    · exact ordered
  | _ => exact ordered.of_scores (congrArg Database.scores (ask_snd _ _ _))

end Statement

/-- A database that was made and saw nothing but requests has its scores in order. -/
theorem scoresOrdered_performAll (history : List (Timestamp × Request Record RecordId)) :
    (Request.performAll Database.operations history (Database.migrate {})).ScoresOrdered :=
  Statement.kept_scoresOrdered.performAll history ⟨[], rfl, .nil⟩

/-! ### Scores that are saved -/

lemma runFrom_saveScores {records : Table RecordRow} {row : RecordRow} {id : RecordId}
    (hrow : Statement.rowOf? records id = some row) (results : Option (Table ResultRow))
    (start : Database) {scores : List Score} (defined : ∀ score ∈ scores, score.value ≠ .nan)
    (rows : List ScoreRow) :
    ∃ rows', (Transaction.saveScores id scores).runFrom start ⟨some records, results, some rows⟩ =
        (.ok (), ⟨some records, results, some rows'⟩) ∧
      rows'.map ScoreRow.entry =
        (scores.map (·.through Statement.stored)).foldl
          (fun acc score => MemoryStore.setScore id score acc) (rows.map ScoreRow.entry) := by
  induction scores generalizing rows with
  | nil => exact ⟨rows, rfl, rfl⟩
  | cons score scores ih =>
    obtain ⟨own, others⟩ := List.forall_mem_cons.1 defined
    obtain ⟨rows', run, set⟩ :=
      ih others (Statement.setScore ⟨id, score.metric, Statement.stored score.value⟩ rows)
    have done := putScore_run hrow score.metric own results rows
    refine ⟨rows', (runFrom_require done).trans run, set.trans ?_⟩
    rw [map_entry_setScore]
    rfl

lemma scores_eq (hscores : db.scores = some rows) (id : RecordId) :
    Database.operations.scores id db =
      .ok (MemoryStore.scoresOf { scores := rows.map ScoreRow.entry } id) := by
  have read : ((rows.map ScoreRow.entry).filter fun entry => entry.1 == id).map Prod.snd =
      (rows.filter fun row => row.recordId == id).map ScoreRow.score := by
    rw [List.filter_map, List.map_map]
    rfl
  simp only [Database.operations, Database.ask, Statement.run, Statement.ask, hscores,
    MemoryStore.scoresOf, read]

/-- A database saves scores of a record that is there, if their values are defined. -/
theorem Database.ScoresOrdered.keepsScores (ordered : db.ScoresOrdered) {id : RecordId}
    (live : (db.row? id).isSome = true) :
    Database.operations.KeepsScores (· ≠ .nan) Statement.stored Database.unscored id db
      db.shown := by
  obtain ⟨records, results, scores⟩ := db
  obtain ⟨rows, rfl, pairwise⟩ := ordered
  obtain ⟨row, live⟩ := Option.isSome_iff_exists.1 live
  obtain ⟨records, rfl, hrow⟩ := Option.bind_eq_some_iff.1 live
  exact {
    ordered := pairwise
    scores := scores_eq rfl
    saves := fun scores defined => by
      obtain ⟨rows', run, set⟩ := runFrom_saveScores hrow results _ defined rows
      refine ⟨_, run, rfl, fun other => ?_⟩
      rw [MemoryStore.saveScores, Database.shown, Option.getD_some, ← set]
      exact scores_eq rfl other }

end Multipass.Relational
