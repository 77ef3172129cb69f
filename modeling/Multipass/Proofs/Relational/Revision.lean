import Multipass.Proofs.Relational.Operations

/-!
# Databases that saw nothing but requests

What one request can do to the tables of a database, whatever record it names: one that is there, as
it is or as it once was, or one that is gone. Each change is labelled with the record and the pass
that it completes, if it completes one. Along all requests the rows of records keep lists of
different names, and each result belongs to a record and a pass of its own.

Main statements: `revised_perform`, which finds the change behind each request, and
`sound_performAll`.
-/

namespace Multipass.Relational

open MemoryStore (Gain)

/-- The record and the pass of each result, in order. -/
def Table.keys (results : Table ResultRow) : List (RecordId × String) :=
  results.rows.map fun row => (row.recordId, row.pass)

/-- The numbers of the records, in order. -/
def Table.ids (records : Table RecordRow) : List RecordId :=
  records.rows.map RecordRow.id

/-- The table of records without one. -/
def withoutRecord (records : Table RecordRow) (id : RecordId) : Table RecordRow :=
  { records with rows := records.rows.filter fun row => row.id != id }

/-- The table of results without those of a record. -/
def withoutResults (results : Table ResultRow) (id : RecordId) : Table ResultRow :=
  { results with rows := results.rows.filter fun row => row.recordId != id }

/-- What holds of the tables of records and results, if something holds of each parsed
representation that was given. -/
structure Sound (Given : Json → Prop) (records : Table RecordRow) (results : Table ResultRow) :
    Prop where
  ascending : records.ids.Pairwise (· < ·)
  below : ∀ id ∈ records.ids, id ≤ records.lastId
  listed : ∀ row ∈ records.rows, ∃ names : List String,
    row.completed = writeNames names ∧ names.Nodup
  written : ∀ row ∈ records.rows, ∃ j : Json, row.parsed = j.compact ∧ Given j
  unique : results.keys.Nodup
  owned : ∀ k ∈ results.keys, k.1 ∈ records.ids

/-- What one request can do to the tables of records and results, with the pass of a record that it
completes. -/
inductive Revision (Given : Json → Prop) (records : Table RecordRow) (results : Table ResultRow) :
    Gain → Table RecordRow → Table ResultRow → Prop where
  | same : Revision Given records results none records results
  | put {new : NewRecord} {now : Timestamp} :
    Given new.parsed →
    Revision Given records results none
      (Statement.upsert records new.path new.language new.source new.hash new.parsed.compact now)
      results
  | keep {id result row names} :
    Statement.rowOf? records id = some row →
    row.completed = writeNames names →
    result.pass ∉ names →
    (id, result.pass) ∉ results.keys →
    Revision Given records results none records (withResult results id result)
  | complete {id pass row names index now} :
    Statement.rowOf? records id = some row →
    row.completed = writeNames names →
    pass ∉ names →
    Revision Given records results (some (id, pass)) (withCompleted records id (names ++ [pass]) index now)
      results
  | commit {id result row names index now} :
    Statement.rowOf? records id = some row →
    row.completed = writeNames names →
    result.pass ∉ names →
    Revision Given records results (some (id, result.pass))
      (withCompleted records id (names ++ [result.pass]) index now)
      (withResult (withoutResult results id result.pass) id result)
  | delete (id : RecordId) :
    Revision Given records results none (withoutRecord records id) (withoutResults results id)

variable {Given : Json → Prop} {records records' : Table RecordRow} {results results' : Table ResultRow}
  {scores : List ScoreRow} {c : Gain}

/-! ### Looking up -/

lemma rowOf?_eq_some {id : RecordId} {row : RecordRow}
    (h : Statement.rowOf? records id = some row) : row ∈ records.rows ∧ row.id = id := by
  refine ⟨List.mem_of_find?_eq_some h, ?_⟩
  simpa using List.find?_some h

lemma rowOf?_eq_none {id : RecordId} :
    Statement.rowOf? records id = none ↔ id ∉ records.ids := by
  simp [Statement.rowOf?, Table.ids]

lemma any_isRowOf {id : RecordId} {pass : String} :
    results.rows.any (Statement.isRowOf id pass) = true ↔ (id, pass) ∈ results.keys := by
  simp [Statement.isRowOf, Table.keys, List.mem_map]

lemma any_isRowOf_eq_false {id : RecordId} {pass : String} (free : (id, pass) ∉ results.keys) :
    results.rows.any (Statement.isRowOf id pass) = false :=
  Bool.eq_false_iff.2 (mt any_isRowOf.1 free)

lemma Sound.rowOf?_of_mem (sound : Sound Given records results) {row : RecordRow}
    (mem : row ∈ records.rows) : Statement.rowOf? records row.id = some row := by
  cases h : Statement.rowOf? records row.id with
  | none => exact absurd (List.mem_map_of_mem mem) (rowOf?_eq_none.1 h)
  | some other =>
    obtain ⟨mem', eq⟩ := rowOf?_eq_some h
    rw [List.inj_on_of_nodup_map (sound.ascending.imp Int.ne_of_lt) mem' mem eq]

/-- A record that is gone has no results. -/
lemma Sound.absent (sound : Sound Given records results) {id : RecordId}
    (gone : Statement.rowOf? records id = none) (pass : String) : (id, pass) ∉ results.keys :=
  fun mem => rowOf?_eq_none.1 gone (sound.owned _ mem)

/-- A row is read as a record with the number and the names that stand in it. -/
lemma RecordRow.record_eq {row : RecordRow} {current : Record} {names : List String}
    (h : row.record = .ok current) (listed : row.completed = writeNames names) :
    current.id = row.id ∧ current.completed = names := by
  simp only [RecordRow.record, listed, readNames_writeNames] at h
  split at h
  · cases h
  · cases h
    exact ⟨rfl, rfl⟩

/-! ### What transactions come to -/

section

variable {record : Record} {result : PassResult} {pass : String} {row : RecordRow}
  {names : List String} {now : Timestamp} {start : Database}

lemma appendPass_of_none (gone : Statement.rowOf? records record.id = none) :
    (Transaction.appendPass record pass now).runFrom start (tables records results scores) =
      (.error (.recordNotFound record.path), start) := by
  have read : (Statement.recordOf record.id).run (tables records results scores) =
      (.ok none, tables records results scores) := by rw [← gone]; rfl
  exact (runFrom_require read).trans rfl

lemma appendPass_of_error {e : StoreError} (hrow : Statement.rowOf? records record.id = some row)
    (unread : row.record = .error e) :
    (Transaction.appendPass record pass now).runFrom start (tables records results scores) =
      (.error e, start) := by
  have read : (Statement.recordOf record.id).run (tables records results scores) =
      (.ok (some row), tables records results scores) := by rw [← hrow]; rfl
  refine (runFrom_require read).trans ?_
  simp only [unread, Transaction.runFrom]

/-- A result of a record that is gone breaks the foreign key. -/
lemma insertResult_of_none {α : Type} (free : (record.id, result.pass) ∉ results.keys)
    (gone : Statement.rowOf? records record.id = none) (next : Transaction α) :
    (Transaction.insertResult record result next).runFrom start (tables records results scores) =
      (.error (.database .foreignKey), start) := by
  have fault : Statement.addResult (tables records results scores) (.ofResult record.id result) =
      (.error .foreignKey, tables records results scores) := by
    simp only [Statement.addResult, tables, ResultRow.ofResult, any_isRowOf_eq_false free, gone,
      Bool.false_eq_true, if_false, Option.isNone_none, if_true]
  simp only [Transaction.insertResult, Transaction.runFrom, Statement.run, fault]

/-- What is asked about the passes of a record that is there. -/
lemma completedOf_run (hrow : Statement.rowOf? records record.id = some row)
    (results : Table ResultRow) : (Statement.completedOf record.id).run (tables records results scores) =
      (.ok (some row.completed), tables records results scores) := by
  simp only [Statement.run, Statement.ask, tables, hrow, Option.map_some]

lemma recordResult_of_none (sound : Sound Given records results)
    (gone : Statement.rowOf? records record.id = none) :
    (Transaction.recordResult record result).run (tables records results scores) =
      (.error (.database .foreignKey), tables records results scores) :=
  insertResult_of_none (sound.absent gone result.pass) gone _

/-- A result of a pass that has one, or that is completed, is refused. -/
lemma recordResult_of_mem (hrow : Statement.rowOf? records record.id = some row)
    (listed : row.completed = writeNames names)
    (taken : result.pass ∈ names ∨ (record.id, result.pass) ∈ results.keys) :
    (Transaction.recordResult record result).run (tables records results scores) =
      (.error (.duplicatePass record.path result.pass), tables records results scores) := by
  by_cases kept : (record.id, result.pass) ∈ results.keys
  · exact insertResult_of_any (any_isRowOf.2 kept) _ _
  · have done : result.pass ∈ names := taken.resolve_right kept
    refine (insertResult_of_not_any (any_isRowOf_eq_false kept) hrow _ _).trans ?_
    refine (runFrom_require (completedOf_run hrow _)).trans ?_
    simp only [listed, readNames_writeNames, List.contains_iff_mem.2 done, if_true,
      Transaction.runFrom]

lemma recordResult_of_not_mem (hrow : Statement.rowOf? records record.id = some row)
    (listed : row.completed = writeNames names) (free : result.pass ∉ names)
    (none : (record.id, result.pass) ∉ results.keys) :
    (Transaction.recordResult record result).run (tables records results scores) =
      (.ok (), tables records (withResult results record.id result) scores) := by
  have free : names.contains result.pass = false := Bool.eq_false_iff.2 (mt List.contains_iff_mem.1 free)
  refine (insertResult_of_not_any (any_isRowOf_eq_false none) hrow _ _).trans ?_
  refine (runFrom_require (completedOf_run hrow _)).trans ?_
  simp only [listed, readNames_writeNames, free, Bool.false_eq_true, if_false, Transaction.runFrom]

lemma keys_withoutResult (results : Table ResultRow) (id : RecordId) (pass : String) :
    (withoutResult results id pass).keys = results.keys.filter fun k => k ≠ (id, pass) := by
  simp only [Table.keys, withoutResult, List.filter_map]
  congr 1
  refine List.filter_congr fun row _ => ?_
  rw [Bool.eq_iff_iff]
  simp [Statement.isRowOf]

lemma not_mem_keys_withoutResult (results : Table ResultRow) (id : RecordId) (pass : String) :
    (id, pass) ∉ (withoutResult results id pass).keys := by
  simp [keys_withoutResult]

lemma commitPass_of_none (gone : Statement.rowOf? records record.id = none) :
    (Transaction.commitPass record result now).run (tables records results scores) =
      (.error (.database .foreignKey), tables records results scores) := by
  have unlisted : Statement.listsPass records record.id result.pass = .ok false := by
    simp only [Statement.listsPass, gone]
  refine (runFrom_require (dropUncompleted_of_unlisted unlisted)).trans ?_
  exact insertResult_of_none (not_mem_keys_withoutResult results record.id result.pass) gone _

/-- A result of a pass that is completed is refused, by the unique key or by the list. -/
lemma commitPass_of_mem (hrow : Statement.rowOf? records record.id = some row)
    (listed : row.completed = writeNames names) (done : result.pass ∈ names) :
    ∃ e, (Transaction.commitPass record result now).run (tables records results scores) =
      (.error e, tables records results scores) := by
  have stays : (Transaction.commitPass record result now).run (tables records results scores) =
      (Transaction.insertResult record result (Transaction.appendPass record result.pass now)).runFrom
        (tables records results scores) (tables records results scores) :=
    runFrom_require (dropUncompleted_of_mem hrow listed done)
  by_cases kept : (record.id, result.pass) ∈ results.keys
  · exact ⟨_, stays.trans (insertResult_of_any (any_isRowOf.2 kept) _ _)⟩
  · have inserts := stays.trans (insertResult_of_not_any (any_isRowOf_eq_false kept) hrow _ _)
    cases hcurrent : row.record with
    | error e => exact ⟨e, inserts.trans (appendPass_of_error hrow hcurrent)⟩
    | ok current =>
      obtain ⟨-, rfl⟩ := RecordRow.record_eq hcurrent listed
      exact ⟨_, inserts.trans (appendPass_of_mem hrow hcurrent done now _)⟩

/-- With a pass that is not completed all depends on whether the row is read. -/
lemma commitPass_of_not_mem (results : Table ResultRow) (scores : List ScoreRow) (now : Timestamp)
    (hrow : Statement.rowOf? records record.id = some row)
    (listed : row.completed = writeNames names) (free : result.pass ∉ names) :
    (Transaction.commitPass record result now).run (tables records results scores) =
      (Transaction.appendPass record result.pass now).runFrom (tables records results scores)
        (tables records (withResult (withoutResult results record.id result.pass) record.id result)
          scores) := by
  refine (runFrom_require (dropUncompleted_of_not_mem hrow listed free)).trans ?_
  have none := not_mem_keys_withoutResult results record.id result.pass
  exact insertResult_of_not_any (any_isRowOf_eq_false none) hrow _ _

/-- An attempt to complete a pass: it completes the pass of a record that is there, or changes
nothing. -/
lemma advance_cases (sound : Sound Given records results) (scores : List ScoreRow) (record : Record) (pass : String)
    (now : Timestamp) :
    (∃ row current, Statement.rowOf? records record.id = some row ∧ row.record = .ok current ∧
      row.completed = writeNames current.completed ∧ pass ∉ current.completed ∧
      (Transaction.advance record pass now).run (tables records results scores) =
        (.ok (current.complete pass now), tables (withCompleted records record.id
          (current.completed ++ [pass]) (current.passIndex + 1) now) results scores)) ∨
    ∃ e, (Transaction.advance record pass now).run (tables records results scores) =
      (.error e, tables records results scores) := by
  cases hrow : Statement.rowOf? records record.id with
  | none => exact .inr ⟨_, appendPass_of_none hrow⟩
  | some row =>
    obtain ⟨mem, eq⟩ := rowOf?_eq_some hrow
    obtain ⟨names, listed, -⟩ := sound.listed row mem
    cases hcurrent : row.record with
    | error e => exact .inr ⟨_, appendPass_of_error hrow hcurrent⟩
    | ok current =>
      obtain ⟨same, rfl⟩ := RecordRow.record_eq hcurrent listed
      by_cases done : pass ∈ current.completed
      · exact .inr ⟨_, appendPass_of_mem hrow hcurrent done now _⟩
      · have appended := appendPass_of_not_mem results scores hrow hcurrent done now
          (tables records results scores)
        rw [same.trans eq] at appended
        exact .inl ⟨row, current, rfl, hcurrent, listed, done, appended⟩

/-- An attempt to keep a result and complete its pass: it does both, or changes nothing. -/
lemma commitPass_cases (sound : Sound Given records results) (scores : List ScoreRow) (record : Record)
    (result : PassResult) (now : Timestamp) :
    (∃ row current, Statement.rowOf? records record.id = some row ∧ row.record = .ok current ∧
      row.completed = writeNames current.completed ∧ result.pass ∉ current.completed ∧
      (Transaction.commitPass record result now).run (tables records results scores) =
        (.ok (current.complete result.pass now), tables (withCompleted records record.id
          (current.completed ++ [result.pass]) (current.passIndex + 1) now)
          (withResult (withoutResult results record.id result.pass) record.id result) scores)) ∨
    (∀ row current, Statement.rowOf? records record.id = some row → row.record = .ok current →
      result.pass ∈ current.completed) ∧
    ∃ e, (Transaction.commitPass record result now).run (tables records results scores) =
      (.error e, tables records results scores) := by
  cases hrow : Statement.rowOf? records record.id with
  | none =>
    refine .inr ⟨?_, _, commitPass_of_none hrow⟩
    rintro _ _ ⟨⟩
  | some row =>
    obtain ⟨mem, eq⟩ := rowOf?_eq_some hrow
    obtain ⟨names, listed, -⟩ := sound.listed row mem
    by_cases done : result.pass ∈ names
    · refine .inr ⟨?_, commitPass_of_mem hrow listed done⟩
      rintro _ current ⟨⟩ hcurrent
      obtain ⟨-, rfl⟩ := RecordRow.record_eq hcurrent listed
      exact done
    · rw [commitPass_of_not_mem results scores now hrow listed done]
      cases hcurrent : row.record with
      | error e =>
        refine .inr ⟨?_, _, appendPass_of_error hrow hcurrent⟩
        rintro _ current ⟨⟩ read
        cases hcurrent.symm.trans read
      | ok current =>
        obtain ⟨same, rfl⟩ := RecordRow.record_eq hcurrent listed
        have appended := appendPass_of_not_mem
          (withResult (withoutResult results record.id result.pass) record.id result) scores hrow
          hcurrent done now (tables records results scores)
        rw [same.trans eq] at appended
        exact .inl ⟨row, current, rfl, hcurrent, listed, done, appended⟩

end

/-! ### The change behind a request -/

/-- Holds of tables behind a database that was made of others by a change. -/
def Revised (Given : Json → Prop) (records : Table RecordRow) (results : Table ResultRow) (c : Gain)
    (db : Database) : Prop :=
  ∃ records' results' scores', db = tables records' results' scores' ∧
    Revision Given records results c records' results'

lemma Revision.revised (revision : Revision Given records results c records' results')
    (scores : List ScoreRow) : Revised Given records results c (tables records' results' scores) :=
  ⟨_, _, _, rfl, revision⟩

lemma revised_upsert (new : NewRecord) (now : Timestamp) (given : Given new.parsed) :
    Revised Given records results none
      ((Transaction.upsert new now).run (tables records results scores)).2 := by
  let put := tables (Statement.upsert records new.path new.language new.source new.hash
    new.parsed.compact now) results scores
  have revised {outcome : UpsertOutcome}
      (h : (Transaction.upsert new now).run (tables records results scores) = (.ok outcome, put)) :
      Revised Given records results none
        ((Transaction.upsert new now).run (tables records results scores)).2 := by
    rw [h]
    exact (Revision.put given).revised scores
  cases hrow : Statement.rowAt? records new.path with
  | none =>
    have read : (Statement.contentOf new.path).run (tables records results scores) =
        (.ok none, tables records results scores) := by
      simp only [Statement.run, Statement.ask, tables, hrow, Option.map_none]
    exact revised ((runFrom_require read).trans ((runFrom_require rfl).trans rfl))
  | some row =>
    have read : (Statement.contentOf new.path).run (tables records results scores) =
        (.ok (some (row.hash, row.parsed)), tables records results scores) := by
      simp only [Statement.run, Statement.ask, tables, hrow, Option.map_some]
    cases same : row.hash == new.hash && row.parsed == new.parsed.compact with
    | true =>
      have h : (Transaction.upsert new now).run (tables records results scores) =
          (.ok .unchanged, tables records results scores) := by
        refine (runFrom_require read).trans ?_
        simp only [same, if_true, Transaction.runFrom]
      rw [h]
      exact Revision.same.revised scores
    | false =>
      have h : (Transaction.upsert new now).run (tables records results scores) =
          (.ok .updated, put) := by
        refine (runFrom_require read).trans ?_
        simp only [same, Bool.false_eq_true, if_false]
        exact (runFrom_require rfl).trans rfl
      exact revised h

lemma revised_recordResult (sound : Sound Given records results) (record : Record)
    (result : PassResult) :
    Revised Given records results none
      ((Transaction.recordResult record result).run (tables records results scores)).2 := by
  cases hrow : Statement.rowOf? records record.id with
  | none =>
    rw [recordResult_of_none sound hrow]
    exact Revision.same.revised scores
  | some row =>
    obtain ⟨names, listed, -⟩ := sound.listed row (rowOf?_eq_some hrow).1
    by_cases taken : result.pass ∈ names ∨ (record.id, result.pass) ∈ results.keys
    · rw [recordResult_of_mem hrow listed taken]
      exact Revision.same.revised scores
    · obtain ⟨free, none⟩ := not_or.1 taken
      rw [recordResult_of_not_mem hrow listed free none]
      exact (Revision.keep hrow listed free none).revised scores

lemma revised_advance (sound : Sound Given records results) (record : Record) (pass : String)
    (now : Timestamp) :
    ∃ c, Revised Given records results c
      ((Transaction.advance record pass now).run (tables records results scores)).2 := by
  obtain ⟨row, current, hrow, -, listed, free, h⟩ | ⟨e, h⟩ :=
    advance_cases sound scores record pass now
  · rw [h]
    exact ⟨_, (Revision.complete hrow listed free).revised scores⟩
  · rw [h]
    exact ⟨_, Revision.same.revised scores⟩

lemma revised_commitPass (sound : Sound Given records results) (record : Record)
    (result : PassResult) (now : Timestamp) :
    ∃ c, Revised Given records results c
      ((Transaction.commitPass record result now).run (tables records results scores)).2 := by
  obtain ⟨row, current, hrow, -, listed, free, h⟩ | ⟨-, e, h⟩ :=
    commitPass_cases sound scores record result now
  · rw [h]
    exact ⟨_, (Revision.commit hrow listed free).revised scores⟩
  · rw [h]
    exact ⟨_, Revision.same.revised scores⟩

/-- Scores are about no other table. -/
lemma revised_saveScores (id : RecordId) (values : List Score) (start : List ScoreRow) :
    Revised Given records results none ((Transaction.saveScores id values).runFrom
      (tables records results start) (tables records results scores)).2 := by
  induction values generalizing scores with
  | nil => exact Revision.same.revised scores
  | cons score values ih =>
    obtain ⟨fault, refused⟩ | done :=
      putScore_cases records results scores id score.metric score.value
    · simp only [Transaction.saveScores, Transaction.require, Transaction.runFrom, refused]
      exact Revision.same.revised start
    · rw [Transaction.saveScores, runFrom_require done]
      exact ih

lemma revised_delete (path : String) :
    Revised Given records results none
      ((Transaction.delete path).run (tables records results scores)).2 := by
  cases hrow : Statement.rowAt? records path with
  | none =>
    have read : (Statement.idAt path).run (tables records results scores) =
        (.ok none, tables records results scores) := by
      simp only [Statement.run, Statement.ask, tables, hrow, Option.map_none]
    have h : (Transaction.delete path).run (tables records results scores) =
        (.ok false, tables records results scores) := runFrom_require read
    rw [h]
    exact Revision.same.revised scores
  | some row =>
    have read : (Statement.idAt path).run (tables records results scores) =
        (.ok (some row.id), tables records results scores) := by
      simp only [Statement.run, Statement.ask, tables, hrow, Option.map_some]
    have h : (Transaction.delete path).run (tables records results scores) =
        (.ok true, tables (withoutRecord records row.id) (withoutResults results row.id)
          (scores.filter fun score => score.recordId != row.id)) := by
      refine (runFrom_require read).trans ?_
      refine (runFrom_require rfl).trans ((runFrom_require rfl).trans ((runFrom_require rfl).trans ?_))
      simp only [Transaction.runFrom, tables, withoutRecord, withoutResults, Option.map_some,
        List.filter_filter, Bool.and_self]
    rw [h]
    exact (Revision.delete row.id).revised _

/-- Each request changes the tables in one of the ways that were said. -/
theorem revised_perform (sound : Sound Given records results) (scores : List ScoreRow) (now : Timestamp)
    (request : Request Record RecordId) (given : ∀ new, request = .upsert new → Given new.parsed) :
    ∃ c, Revised Given records results c
      (request.perform Database.operations now (tables records results scores)).2 := by
  cases request with
  | upsert new => exact ⟨none, revised_upsert new now (given new rfl)⟩
  | recordResult record result => exact ⟨none, revised_recordResult sound record result⟩
  | advance record pass => exact revised_advance sound record pass now
  | commit record result => exact revised_commitPass sound record result now
  | saveScores id values => exact ⟨none, revised_saveScores id values scores⟩
  | delete path => exact ⟨none, revised_delete path⟩
  | get path => exact ⟨none, Revision.same.revised scores⟩
  | list => exact ⟨none, Revision.same.revised scores⟩
  | pending order check => exact ⟨none, Revision.same.revised scores⟩
  | results id => exact ⟨none, Revision.same.revised scores⟩
  | latest id pass => exact ⟨none, Revision.same.revised scores⟩
  | scores id => exact ⟨none, Revision.same.revised scores⟩

/-! ### The invariant -/

@[simp] lemma ids_withCompleted (records : Table RecordRow) (id : RecordId) (names : List String)
    (index : Int) (now : Timestamp) : (withCompleted records id names index now).ids = records.ids := by
  simp only [Table.ids, withCompleted, List.map_map]
  refine List.map_congr_left fun row _ => ?_
  simp only [Function.comp]
  split <;> rfl

@[simp] lemma keys_withResult (results : Table ResultRow) (id : RecordId) (result : PassResult) :
    (withResult results id result).keys = results.keys ++ [(id, result.pass)] := by
  rw [Table.keys, withResult, List.map_append]
  rfl

@[simp] lemma ids_withoutRecord (records : Table RecordRow) (id : RecordId) :
    (withoutRecord records id).ids = records.ids.filter fun other => other ≠ id := by
  simp only [Table.ids, withoutRecord, List.filter_map]
  congr 1
  refine List.filter_congr fun row _ => ?_
  rw [Bool.eq_iff_iff]
  simp

@[simp] lemma keys_withoutResults (results : Table ResultRow) (id : RecordId) :
    (withoutResults results id).keys = results.keys.filter fun k => k.1 ≠ id := by
  simp only [Table.keys, withoutResults, List.filter_map]
  congr 1
  refine List.filter_congr fun row _ => ?_
  rw [Bool.eq_iff_iff]
  simp

/-- Two lists of names with one text are one list. -/
lemma writeNames_injective {names names' : List String} (eq : writeNames names = writeNames names') :
    names = names' := by
  have read := readNames_writeNames names
  rw [eq, readNames_writeNames] at read
  exact (Except.ok.inj read).symm

/-- The names in the row of a number differ. -/
lemma Sound.nodup (sound : Sound Given records results) {id : RecordId} {row : RecordRow}
    {names : List String} (hrow : Statement.rowOf? records id = some row)
    (listed : row.completed = writeNames names) : names.Nodup := by
  obtain ⟨names', listed', nodup⟩ := sound.listed row (rowOf?_eq_some hrow).1
  rw [writeNames_injective (listed.symm.trans listed')]
  exact nodup

lemma Sound.completed (sound : Sound Given records results) (id : RecordId) {names : List String}
    (nodup : names.Nodup) (index : Int) (now : Timestamp) :
    Sound Given (withCompleted records id names index now) results where
  ascending := by rw [ids_withCompleted]; exact sound.ascending
  below := by rw [ids_withCompleted]; exact sound.below
  listed := by
    intro row mem
    obtain ⟨row', mem', rfl⟩ := List.mem_map.1 mem
    split
    · exact ⟨names, rfl, nodup⟩
    · exact sound.listed row' mem'
  written := by
    intro row mem
    obtain ⟨row', mem', rfl⟩ := List.mem_map.1 mem
    split <;> exact sound.written row' mem'
  unique := sound.unique
  owned := by rw [ids_withCompleted]; exact sound.owned

lemma Sound.kept (sound : Sound Given records results) {id : RecordId} (result : PassResult)
    (there : id ∈ records.ids) (free : (id, result.pass) ∉ results.keys) :
    Sound Given records (withResult results id result) :=
  { sound with
    unique := by
      rw [keys_withResult]
      exact sound.unique.append (List.nodup_singleton _) (by simpa using free)
    owned := by
      intro k mem
      rw [keys_withResult, List.mem_append, List.mem_singleton] at mem
      obtain mem | rfl := mem
      · exact sound.owned k mem
      · exact there }

lemma Sound.dropped (sound : Sound Given records results) (id : RecordId) (pass : String) :
    Sound Given records (withoutResult results id pass) :=
  { sound with
    unique := by rw [keys_withoutResult]; exact sound.unique.filter _
    owned := by
      intro k mem
      rw [keys_withoutResult] at mem
      exact sound.owned k (List.mem_of_mem_filter mem) }

lemma Sound.removed (sound : Sound Given records results) (id : RecordId) :
    Sound Given (withoutRecord records id) (withoutResults results id) where
  ascending := by rw [ids_withoutRecord]; exact sound.ascending.filter _
  below := by
    intro other mem
    rw [ids_withoutRecord] at mem
    exact sound.below other (List.mem_of_mem_filter mem)
  listed := fun row mem => sound.listed row (List.mem_of_mem_filter mem)
  written := fun row mem => sound.written row (List.mem_of_mem_filter mem)
  unique := by rw [keys_withoutResults]; exact sound.unique.filter _
  owned := by
    intro k mem
    rw [keys_withoutResults, List.mem_filter] at mem
    rw [ids_withoutRecord, List.mem_filter]
    exact ⟨sound.owned k mem.1, mem.2⟩

/-- The numbers behind an artifact that was put: the same, or one more. -/
lemma upsert_cases (records : Table RecordRow) (new : NewRecord) (now : Timestamp) :
    let put := Statement.upsert records new.path new.language new.source new.hash new.parsed.compact now
    put.lastId = records.lastId + 1 ∧
      (put.ids = records.ids ∨ put.ids = records.ids ++ [records.lastId + 1]) ∧
      ∀ row ∈ put.rows, (row.completed = "[]" ∨ ∃ old ∈ records.rows, row.completed = old.completed) ∧
        (row.parsed = new.parsed.compact ∨ ∃ old ∈ records.rows, row.parsed = old.parsed) := by
  simp only [Statement.upsert]
  split
  · refine ⟨rfl, .inl ?_, ?_⟩
    · simp only [Table.ids, List.map_map]
      refine List.map_congr_left fun row _ => ?_
      simp only [Function.comp]
      split <;> rfl
    · intro row mem
      obtain ⟨old, mem', rfl⟩ := List.mem_map.1 mem
      split
      · exact ⟨.inr ⟨old, mem', rfl⟩, .inl rfl⟩
      · exact ⟨.inr ⟨old, mem', rfl⟩, .inr ⟨old, mem', rfl⟩⟩
  · refine ⟨rfl, .inr ?_, ?_⟩
    · rw [Table.ids, List.map_append]
      rfl
    · intro row mem
      obtain mem | mem := List.mem_append.1 mem
      · exact ⟨.inr ⟨row, mem, rfl⟩, .inr ⟨row, mem, rfl⟩⟩
      · rw [List.mem_singleton.1 mem]
        exact ⟨.inl rfl, .inl rfl⟩

lemma Sound.put (sound : Sound Given records results) (new : NewRecord) (now : Timestamp)
    (given : Given new.parsed) :
    Sound Given (Statement.upsert records new.path new.language new.source new.hash
      new.parsed.compact now) results := by
  obtain ⟨last, ids, rows⟩ := upsert_cases records new now
  have below : ∀ id ∈ records.ids, id < records.lastId + 1 :=
    fun id mem => Int.lt_add_one_of_le (sound.below id mem)
  refine {
    ascending := ?_
    below := ?_
    listed := ?_
    written := ?_
    unique := sound.unique
    owned := ?_ }
  · obtain eq | eq := ids
    · exact eq ▸ sound.ascending
    · rw [eq, List.pairwise_append]
      refine ⟨sound.ascending, List.pairwise_singleton _ _, fun id mem next eq => ?_⟩
      rw [List.mem_singleton.1 eq]
      exact below id mem
  · intro id mem
    rw [last]
    obtain eq | eq := ids
    · exact Int.le_of_lt (below id (eq ▸ mem))
    · rw [eq, List.mem_append, List.mem_singleton] at mem
      obtain mem | rfl := mem
      · exact Int.le_of_lt (below id mem)
      · exact Int.le_refl _
  · intro row mem
    obtain eq | ⟨old, mem', eq⟩ := (rows row mem).1
    · exact ⟨[], eq, List.nodup_nil⟩
    · rw [eq]
      exact sound.listed old mem'
  · intro row mem
    obtain eq | ⟨old, mem', eq⟩ := (rows row mem).2
    · exact ⟨new.parsed, eq, given⟩
    · rw [eq]
      exact sound.written old mem'
  · intro k mem
    obtain eq | eq := ids
    · exact eq ▸ sound.owned k mem
    · rw [eq]
      exact List.mem_append_left _ (sound.owned k mem)

/-- Every change keeps tables sound. -/
theorem Revision.sound (revision : Revision Given records results c records' results')
    (sound : Sound Given records results) : Sound Given records' results' := by
  have longer {id : RecordId} {pass : String} {row : RecordRow} {names : List String}
      (hrow : Statement.rowOf? records id = some row) (listed : row.completed = writeNames names)
      (free : pass ∉ names) : (names ++ [pass]).Nodup := by
    rw [← List.concat_eq_append]
    exact (sound.nodup hrow listed).concat free
  have there {id : RecordId} {row : RecordRow} (hrow : Statement.rowOf? records id = some row) :
      id ∈ records.ids := by
    obtain ⟨mem, rfl⟩ := rowOf?_eq_some hrow
    exact List.mem_map_of_mem mem
  cases revision with
  | same => exact sound
  | put given => exact sound.put _ _ given
  | keep hrow _ _ free => exact sound.kept _ (there hrow) free
  | complete hrow listed free => exact sound.completed _ (longer hrow listed free) _ _
  | commit hrow listed free =>
    refine ((sound.completed _ (longer hrow listed free) _ _).dropped _ _).kept _ ?_ ?_
    · rw [ids_withCompleted]
      exact there hrow
    · exact not_mem_keys_withoutResult _ _ _
  | delete id => exact sound.removed id

lemma sound_empty : Sound Given {} {} where
  ascending := List.Pairwise.nil
  below := nofun
  listed := nofun
  written := nofun
  unique := List.nodup_nil
  owned := nofun

/-- Every sequence of requests keeps tables sound. -/
theorem sound_performAll {history : List (Timestamp × Request Record RecordId)}
    (given : ∀ now new, (now, .upsert new) ∈ history → Given new.parsed)
    (sound : Sound Given records results) (scores : List ScoreRow) :
    ∃ records' results' scores', Request.performAll Database.operations history
      (tables records results scores) = tables records' results' scores' ∧
      Sound Given records' results' := by
  induction history generalizing records results scores with
  | nil => exact ⟨_, _, _, rfl, sound⟩
  | cons r history ih =>
    obtain ⟨now, request⟩ := r
    obtain ⟨c, records', results', scores', h, revision⟩ :=
      revised_perform sound scores now request
        fun new eq => given now new (eq ▸ List.mem_cons_self)
    obtain ⟨records'', results'', scores'', h', sound'⟩ :=
      ih (fun now new mem => given now new (List.mem_cons_of_mem _ mem)) (revision.sound sound) scores'
    refine ⟨records'', results'', scores'', ?_, sound'⟩
    rw [← h', ← h]
    rfl

end Multipass.Relational
