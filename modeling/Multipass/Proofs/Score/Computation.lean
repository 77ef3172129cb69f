import Multipass.Proofs.Executor.Scoring
import Multipass.Proofs.Relational.Scores
import Multipass.Proofs.Score.Prose

/-!
# Scores all or nothing

The scores of a record are computed as a whole. If the latest result of the scoring pass holds a
number for each metric, all of these numbers are kept; otherwise the store stays as it was, and what
is wrong is said of the first metric without a number. Records and results stay in either case.

Main statement: `compute_whole`.
-/

namespace Multipass

namespace Score

open Number (Double)

variable {σ : Type} {store : ArtifactStore σ} {id : RecordId} {pass : String} {s : σ}
  {fields : List (String × Json)} {metric : String} {metrics : List String} {scores : List Score}
  {e : ScoreError}

/-! ### Metrics without a number -/

/-- What is wrong with a metric among the fields of a payload. -/
inductive Offence (fields : List (String × Json)) (metric : String) : ScoreError → Prop where
  | missing :
    Json.lookup metric fields = none →
    Offence fields metric (.missingField metric)
  | notNumeric {j : Json} :
    Json.lookup metric fields = some j →
    j.number? = none →
    Offence fields metric (.notNumeric metric j.compact)

lemma offence_of_read (h : read fields metric = .error e) : Offence fields metric e := by
  simp only [read] at h
  split at h
  · next none =>
    cases h
    exact .missing none
  · next j some =>
    split at h
    · cases h
    · next unread =>
      cases h
      exact .notNumeric some unread

/-- The metrics are read in their order, so the first one without a number is told. -/
lemma offence_of_readAll (h : readAll fields metrics = .error e) :
    ∃ before metric behind, metrics = before ++ metric :: behind ∧ rated before fields = true ∧
      Offence fields metric e := by
  -- Either the head is the first one without a number, or it goes in front of those before that.
  induction metrics with
  | nil => cases h
  | cons head metrics ih =>
    simp only [readAll] at h
    split at h
    · next refused =>
      cases h
      exact ⟨[], head, metrics, rfl, rfl, offence_of_read refused⟩
    · next score found =>
      split at h
      · next refused =>
        cases h
        obtain ⟨before, metric, behind, rfl, rates, offence⟩ := ih refused
        refine ⟨head :: before, metric, behind, rfl, ?_, offence⟩
        rw [rated, List.all_cons, Bool.and_eq_true]
        exact ⟨exists_read_iff.1 ⟨score, found⟩, rates⟩
      · cases h

lemma map_metric_of_readAll (h : readAll fields metrics = .ok scores) :
    scores.map Score.metric = metrics := by
  induction metrics generalizing scores with
  | nil =>
    cases h
    rfl
  | cons head metrics ih =>
    simp only [readAll] at h
    split at h
    · cases h
    · next first found =>
      split at h
      · cases h
      · next rest found' =>
        cases h
        rw [List.map_cons, metric_of_read found, ih found']

lemma number_of_read {score : Score} (h : read fields metric = .ok score) :
    (Json.lookup metric fields).bind Json.number? = some score.value := by
  simp only [read] at h
  split at h
  · cases h
  · next j found =>
    split at h <;> cases h
    next value number =>
    rw [found]
    exact number

/-! ### The payload -/

/-- Holds when the latest result of a pass has an object as its payload. -/
def HasPayload (store : ArtifactStore σ) (id : RecordId) (pass : String) (s : σ)
    (fields : List (String × Json)) : Prop :=
  ∃ result, store.latest id pass s = .ok (some result) ∧ payload result.output = .ok (.obj fields)

lemma HasPayload.ofLatest (h : HasPayload store id pass s fields) (metrics : List String) :
    ofLatest store id pass metrics s = readAll fields metrics := by
  obtain ⟨result, latest, object⟩ := h
  simp only [Score.ofLatest, latest, object, ofPayload]

lemma exists_payload_of_ofLatest (h : ofLatest store id pass metrics s = .ok scores) :
    ∃ fields, HasPayload store id pass s fields ∧ readAll fields metrics = .ok scores := by
  simp only [ofLatest] at h
  split at h
  · cases h
  · cases h
  · next result latest =>
    split at h
    · cases h
    · next j object =>
      simp only [ofPayload] at h
      split at h
      · exact ⟨_, ⟨result, latest, object⟩, h⟩
      · cases h

/-! ### The computation -/

/-- What the computation of the scores of a record comes to, in a store with a column that keeps the
numbers; `unscored` is all of a state but the scores. -/
structure ComputesWhole (store : ArtifactStore σ) (column : Double → Double) (unscored : σ → σ)
    (id : RecordId) (pass : String) (metrics : List String) (s : σ) : Prop where
  /-- There are scores exactly if a payload holds a number for each metric. -/
  succeeds :
    (∃ scores, (compute store id pass metrics s).1 = .ok scores) ↔
      ∃ fields, HasPayload store id pass s fields ∧ rated metrics fields = true
  /-- They are the numbers of the payload, in the order of the metrics. Each of them is then the one
  score of its metric, and the scores of other metrics stay. -/
  keeps : ∀ scores fields, (compute store id pass metrics s).1 = .ok scores →
    HasPayload store id pass s fields →
    scores.map Score.metric = metrics ∧
      ∃ old new, store.scores id s = .ok old ∧
        store.scores id (compute store id pass metrics s).2 = .ok new ∧
        (∀ score ∈ scores,
          (Json.lookup score.metric fields).bind Json.number? = some score.value ∧
          (new.filter fun other => other.metric = score.metric) = [score.through column]) ∧
        (new.filter fun other => other.metric ∉ metrics) =
          old.filter fun other => other.metric ∉ metrics
  /-- The scores of other records stay. -/
  others : ∀ other ≠ id,
    store.scores other (compute store id pass metrics s).2 = store.scores other s
  /-- Without scores nothing is changed at all. -/
  refuses : ∀ e, (compute store id pass metrics s).1 = .error e →
    (compute store id pass metrics s).2 = s
  /-- In no case is anything changed but scores. -/
  spares : unscored (compute store id pass metrics s).2 = unscored s
  /-- For a payload the error tells the first metric without a number. -/
  blames : ∀ fields e, HasPayload store id pass s fields →
    (compute store id pass metrics s).1 = .error e →
    ∃ before metric behind, metrics = before ++ metric :: behind ∧ rated before fields = true ∧
      Offence fields metric e

section

variable {takes : Double → Prop} {column : Double → Double} {unscored : σ → σ} {shown : MemoryStore}

lemma compute_of_error (refused : ofLatest store id pass metrics s = .error e) :
    compute store id pass metrics s = (.error e, s) := by
  simp only [compute, refused]

lemma compute_of_ok (keeper : store.KeepsScores takes column unscored id s shown)
    (found : ofLatest store id pass metrics s = .ok scores)
    (taken : ∀ score ∈ scores, takes score.value) :
    ∃ s', compute store id pass metrics s = (.ok scores, s') ∧ unscored s' = unscored s ∧
      ∀ other, store.scores other s' = .ok ((MemoryStore.saveScores id
        (scores.map (·.through column)) shown).2.scoresOf other) := by
  obtain ⟨s', saved, rest, read⟩ := keeper.saves scores taken
  exact ⟨s', by simp only [compute, found, saved], rest, read⟩

/-- Scores that are read from one payload stay without contradictions in a column. -/
lemma consistent_through (read : readAll fields metrics = .ok scores) :
    ∀ a ∈ scores.map (·.through column), ∀ b ∈ scores.map (·.through column),
      a.metric = b.metric → a = b := by
  simp only [List.forall_mem_map]
  intro a ha b hb same
  rw [consistent_of_readAll read a ha b hb same]

/-- Each number that is read from a payload is then the one score of its metric. -/
lemma filter_saved (ordered : shown.ScoresOrdered) (id : RecordId)
    (read : readAll fields metrics = .ok scores) {score : Score} (mem : score ∈ scores) :
    (((MemoryStore.saveScores id (scores.map (·.through column)) shown).2.scoresOf id).filter
      fun other => other.metric = score.metric) = [score.through column] :=
  MemoryStore.filter_saveScores ordered (consistent_through read) (List.mem_map_of_mem mem)

/-- The metrics that are not asked for keep their scores. -/
lemma filter_unasked (shown : MemoryStore) (id : RecordId)
    (read : readAll fields metrics = .ok scores) :
    (((MemoryStore.saveScores id (scores.map (·.through column)) shown).2.scoresOf id).filter
      fun other => other.metric ∉ metrics) =
        (shown.scoresOf id).filter fun other => other.metric ∉ metrics := by
  refine MemoryStore.filter_saveScores_of_apart shown id ?_
  rw [List.forall_mem_map]
  intro score mem other same
  have asked : score.metric ∈ scores.map Score.metric := List.mem_map_of_mem mem
  rw [map_metric_of_readAll read] at asked
  have same : other.metric = score.metric := same
  simpa [same] using asked

/-- A refusal changes nothing, in whatever store. -/
lemma computesWhole_of_error (refused : ofLatest store id pass metrics s = .error e) :
    ComputesWhole store column unscored id pass metrics s := by
  have h := compute_of_error refused
  exact {
    succeeds := by
      rw [h]
      refine ⟨nofun, fun ⟨fields, object, rates⟩ => ?_⟩
      -- Numbers for all metrics would have been read.
      obtain ⟨scores, read⟩ := exists_ofPayload_iff.2 rates
      cases refused.symm.trans ((object.ofLatest metrics).trans read)
    keeps := by
      rw [h]
      exact nofun
    others := fun _ _ => by rw [h]
    refuses := fun _ _ => by rw [h]
    spares := by rw [h]
    blames := by
      rw [h]
      rintro fields _ object ⟨⟩
      exact offence_of_readAll ((object.ofLatest metrics).symm.trans refused) }

/-- Scores that are found are kept by a store that keeps the scores of the record. -/
lemma computesWhole_of_ok (keeper : store.KeepsScores takes column unscored id s shown)
    (found : ofLatest store id pass metrics s = .ok scores)
    (taken : ∀ score ∈ scores, takes score.value) :
    ComputesWhole store column unscored id pass metrics s := by
  obtain ⟨s', h, rest, read⟩ := compute_of_ok keeper found taken
  exact {
    succeeds := by
      obtain ⟨fields, object, all⟩ := exists_payload_of_ofLatest found
      rw [h]
      exact ⟨fun _ => ⟨fields, object, exists_ofPayload_iff.1 ⟨scores, all⟩⟩, fun _ => ⟨scores, rfl⟩⟩
    keeps := by
      rw [h]
      rintro _ fields ⟨⟩ object
      -- The payload is the one that the scores were read from, as there is one latest result.
      have all : readAll fields metrics = .ok scores := (object.ofLatest metrics).symm.trans found
      refine ⟨map_metric_of_readAll all, _, _, keeper.scores id, read id, fun score mem => ?_,
        filter_unasked shown id all⟩
      exact ⟨number_of_read (read_of_mem_readAll all score mem),
        filter_saved keeper.ordered id all mem⟩
    others := fun other ne => by
      rw [h, read, keeper.scores, MemoryStore.scoresOf_saveScores_of_ne shown ne.symm]
    refuses := by
      rw [h]
      exact nofun
    spares := by rw [h, rest]
    blames := by
      rw [h]
      exact nofun }

/-- A store that keeps the scores of a record computes them as a whole, if it takes each value that
can be found. -/
lemma computesWhole_of_keepsScores (keeper : store.KeepsScores takes column unscored id s shown)
    (taken : ∀ scores, ofLatest store id pass metrics s = .ok scores →
      ∀ score ∈ scores, takes score.value) :
    ComputesWhole store column unscored id pass metrics s := by
  cases found : ofLatest store id pass metrics s with
  | error e => exact computesWhole_of_error found
  | ok scores => exact computesWhole_of_ok keeper found (taken scores found)

end

open Relational (Database Statement)

/-- The payload of an output that is read from its columns was read from a text. -/
lemma readable_payload {kind body : String} {j : Json}
    (object : payload (.ofColumns kind body) = .ok j) : j.Readable Json.maxDepth := by
  have free {text : String} (found : extractObject text = .ok j) : j.Readable Json.maxDepth := by
    obtain ⟨-, _, part, _, -, parsed⟩ := exists_part_of_extractObject found
    exact Json.readable_of_parse parsed
  rw [PassOutput.ofColumns] at object
  split at object
  · split at object
    · next parsed =>
      cases object
      exact Json.readable_of_parse parsed
    · exact free object
  · exact free object

/-- The latest result of a database has the output of a row. -/
lemma exists_columns_of_latest {db : Database} {result : PassResult}
    (latest : Database.operations.latest id pass db = .ok (some result)) :
    ∃ kind body, result.output = .ofColumns kind body := by
  simp only [Database.operations, Database.ask, Relational.readOption] at latest
  split at latest
  · split at latest
    · cases latest
    · next row _ =>
      simp only [Relational.ResultRow.result] at latest
      cases usage : Relational.readUsage row.usage with
      | error e =>
        rw [usage] at latest
        cases latest
      | ok usage' =>
        rw [usage] at latest
        cases latest
        exact ⟨_, _, rfl⟩
  · cases latest

/-- The scores that are found in a database have defined values. -/
lemma ne_nan_of_ofLatest {db : Database}
    (found : ofLatest Database.operations id pass metrics db = .ok scores) {score : Score}
    (mem : score ∈ scores) : score.value ≠ .nan := by
  obtain ⟨fields, ⟨result, latest, object⟩, all⟩ := exists_payload_of_ofLatest found
  obtain ⟨kind, body, columns⟩ := exists_columns_of_latest latest
  rw [columns] at object
  exact (readable_payload object).field_ne_nan (number_of_read (read_of_mem_readAll all score mem))

/-- The scores of a record are computed as a whole. In memory this is so in every state with its
scores in order, and in a database for every record with a row; there a column keeps an equal
number, as it has but one zero. Whatever was requested of a store, its scores are in order. -/
theorem compute_whole (id : RecordId) (pass : String) (metrics : List String) :
    (∀ s : MemoryStore, s.ScoresOrdered →
      ComputesWhole MemoryStore.operations (fun value => value) MemoryStore.unscored id pass metrics
        s) ∧
    (∀ db : Database, db.ScoresOrdered → (db.row? id).isSome = true →
      ComputesWhole Database.operations Statement.stored Database.unscored id pass metrics db) ∧
    (∀ score : Score, score.IsFinite → score.Agrees (score.through Statement.stored)) ∧
    ∀ history : List (Timestamp × Request Record RecordId),
      (Request.performAll MemoryStore.operations history {}).ScoresOrdered ∧
      (Request.performAll Database.operations history (Database.migrate {})).ScoresOrdered := by
  refine ⟨fun s ordered => ?_, fun db ordered live => ?_, fun score finite => ?_,
    fun history => ⟨?_, ?_⟩⟩
  · exact computesWhole_of_keepsScores (ordered.keepsScores id) fun _ _ _ _ => trivial
  · exact computesWhole_of_keepsScores (ordered.keepsScores live) fun _ found _ mem =>
      ne_nan_of_ofLatest found mem
  · exact ⟨rfl, Relational.eq_stored finite⟩
  · exact MemoryStore.performAll_scoresOrdered MemoryStore.scoresOrdered_empty history
  · exact Relational.scoresOrdered_performAll history

/-- A metric that is asked for twice has one score; a metric without a number costs all of them. -/
theorem compute_whole_of_repeated :
    let new : NewRecord := ⟨"a.php", none, "x", "", .null⟩
    let text := "I score it \x7b\"overall_score\": 70, \"style_score\": \"good\"\x7d"
    let result : PassResult := ⟨"score", "prompt", .text text, none, 5, 0⟩
    let history := [(0, .upsert new), (1, .recordResult (Record.ofNew 1 new 0) result)]
    let s := Request.performAll MemoryStore.operations history {}
    let db := Request.performAll Database.operations history (Database.migrate {})
    let twice := ["overall_score", "overall_score"]
    let more := ["overall_score", "style_score", "speed_score"]
    let seventy : Score := ⟨"overall_score", Number.Double.ofNat 70⟩
    (db.row? 1).isSome = true ∧
      (∃ old new, MemoryStore.operations.scores 1 s = .ok old ∧
        MemoryStore.operations.scores 1 (compute MemoryStore.operations 1 "score" twice s).2 =
          .ok new ∧
        (new.filter fun other => other.metric = "overall_score") = [seventy] ∧
        (new.filter fun other => other.metric ∉ twice) =
          old.filter fun other => other.metric ∉ twice) ∧
      (compute Database.operations 1 "score" more db).1 =
        .error (.notNumeric "style_score" "\"good\"") ∧
      (compute Database.operations 1 "score" more db).2 = db := by
  intro new text result history s db twice more seventy
  have live : (db.row? 1).isSome = true := by decide +kernel
  obtain ⟨memory, -, -, ordered⟩ := compute_whole 1 "score" twice
  obtain ⟨-, database, -, -⟩ := compute_whole 1 "score" more
  have kept : (compute MemoryStore.operations 1 "score" twice s).1 = .ok [seventy, seventy] := by
    decide +kernel
  have refused : (compute Database.operations 1 "score" more db).1 =
      .error (.notNumeric "style_score" "\"good\"") := by
    decide +kernel
  have whole := memory s (ordered history).1
  obtain ⟨fields, object, -⟩ := whole.succeeds.1 ⟨_, kept⟩
  obtain ⟨-, old, new, before, behind, scores, others⟩ := whole.keeps _ fields kept object
  exact ⟨live, ⟨old, new, before, behind, (scores seventy List.mem_cons_self).2, others⟩, refused,
    (database db (ordered history).2 live).refuses _ refused⟩

end Score

end Multipass
