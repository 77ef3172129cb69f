import Multipass.Proofs.Relational.Completion
import Multipass.Proofs.Relational.Paths
import Multipass.Proofs.Store.Order

/-!
# The order of results in memory and in a database

Both kinds of store are seen as cabinets: each request changes them in one of the ways in which a
cabinet may change. So what is known of the order of results in cabinets holds of both.

Main statement: `results_inOrder_iff`.
-/

namespace Multipass

/-! ### In memory -/

namespace MemoryStore

/-- What matters of a store in memory for the order of results. -/
def cabinet (s : MemoryStore) : Cabinet where
  next := s.nextId
  completed? id := (s.record? id).map Record.completed
  keys := s.keys

variable {s s' : MemoryStore}

lemma completed?_cabinet (wf : s.WellFormed) {stored : Record} (mem : stored ∈ s.records) :
    s.cabinet.completed? stored.id = some stored.completed :=
  congrArg (Option.map Record.completed) (wf.record?_of_mem mem)

lemma record?_isSome {id : RecordId} : (s.record? id).isSome ↔ id ∈ s.ids := by
  rw [← not_iff_not, ← record?_eq_none, Option.not_isSome_iff_eq_none]

lemma record?_modifyRecord (s : MemoryStore) (id other : RecordId) {f : Record → Record}
    (same : ∀ r, (f r).id = r.id) :
    (s.modifyRecord id f).record? other =
      (s.record? other).map fun r => if r.id = id then f r else r := by
  simp only [record?, modifyRecord, List.find?_map]
  congr 2
  funext r
  simp only [Function.comp]
  split
  · rw [same]
  · rfl

lemma WellFormed.cabinet (wf : s.WellFormed) : s.cabinet.WellFormed where
  given := by
    intro id there
    rw [MemoryStore.cabinet, Option.isSome_map, record?_isSome] at there
    exact wf.below id there
  owned := by
    intro k mem
    rw [MemoryStore.cabinet, Option.isSome_map, record?_isSome]
    exact wf.owned k mem
  unique := wf.unique

/-- A change of records that keeps their numbers and their completed passes. -/
lemma step_modifyRecord (s : MemoryStore) (id : RecordId) {f : Record → Record}
    (same : ∀ r, (f r).id = r.id) (listed : ∀ r, (f r).completed = r.completed) :
    s.cabinet.Step none (s.modifyRecord id f).cabinet := by
  have stays : (s.modifyRecord id f).cabinet = s.cabinet := by
    simp only [MemoryStore.cabinet, Cabinet.mk.injEq]
    refine ⟨rfl, ?_, rfl⟩
    funext other
    rw [record?_modifyRecord s id other same, Option.map_map]
    congr 1
    funext r
    simp only [Function.comp]
    split
    · exact listed r
    · rfl
  rw [stays]
  exact .same _

/-- The completed passes behind the completion of one. -/
lemma completed?_completed {stored : Record} (wf : s.WellFormed) (mem : stored ∈ s.records)
    (pass : String) (now : Timestamp) :
    (fun id => ((s.completed stored.id pass now).record? id).map Record.completed) =
      Function.update (fun id => (s.record? id).map Record.completed) stored.id
        (some (stored.completed ++ [pass])) := by
  funext id
  rw [completed, record?_modifyRecord s stored.id id (f := fun r => r.complete pass now) fun _ => rfl,
    Option.map_map]
  by_cases eq : id = stored.id
  · rw [eq, Function.update_self, wf.record?_of_mem mem, Option.map_some, Function.comp, if_pos rfl]
    rfl
  · rw [Function.update_of_ne eq]
    cases found : s.record? id with
    | none => rfl
    | some r =>
      have own := (record?_eq_some found).2
      rw [Option.map_some, Function.comp, if_neg (own ▸ eq)]
      rfl

/-- The records with one more. -/
lemma record?_inserted (s : MemoryStore) (new : NewRecord) (now : Timestamp) (id : RecordId) :
    (s.inserted new now).record? id =
      (s.record? id).or (if s.nextId = id then some (.ofNew s.nextId new now) else none) := by
  simp only [record?, inserted, List.find?_append]
  congr 1
  by_cases eq : s.nextId = id <;> simp [Record.ofNew, eq]

lemma completed?_removed (s : MemoryStore) (id : RecordId) :
    (fun other => ((s.removed id).record? other).map Record.completed) =
      Function.update (fun other => (s.record? other).map Record.completed) id none := by
  funext other
  by_cases eq : other = id
  · have gone : (s.removed id).record? id = none := record?_eq_none.2 (by simp)
    rw [eq, Function.update_self, gone, Option.map_none]
  · rw [Function.update_of_ne eq]
    congr 1
    simp only [record?, removed, List.find?_filter]
    congr 1
    funext r
    rw [Bool.eq_iff_iff]
    simp only [decide_eq_true_eq, bne_iff_ne, beq_iff_eq, and_iff_right_iff_imp]
    rintro rfl
    exact eq

/-- A change that completes no pass. -/
lemma Change.step (change : Change s none s') (wf : s.WellFormed) :
    s.cabinet.Step none s'.cabinet := by
  cases change with
  | same => exact .same _
  | @insert new now free =>
    refine .put (Int.le_of_lt (Int.lt_succ _)) (fun id names listed => ?_)
      fun id names absent listed => ?_
    · obtain ⟨r, found, rfl⟩ := Option.map_eq_some_iff.1 listed
      rw [record?_inserted, found]
      rfl
    · have absent : s.record? id = none := Option.map_eq_none_iff.1 absent
      rw [record?_inserted, absent, Option.none_or] at listed
      split at listed
      · next eq =>
        cases listed
        exact ⟨Int.le_of_eq eq, rfl⟩
      · cases listed
  | refresh _ => exact s.step_modifyRecord _ (fun _ => rfl) fun _ => rfl
  | @keep stored result mem free _ =>
    have same : (s.kept stored.id result).cabinet =
        { s.cabinet with keys := s.keys ++ [(stored.id, result.pass)] } :=
      Cabinet.ext rfl rfl (keys_kept s stored.id result)
    rw [same]
    exact .keep (completed?_cabinet wf mem) free
  | score => exact .same _
  | @delete old mem =>
    have same : (s.removed old.id).cabinet = { s.cabinet with
        completed? := Function.update s.cabinet.completed? old.id none
        keys := s.keys.filter fun k => k.1 ≠ old.id } :=
      Cabinet.ext rfl (completed?_removed s old.id) (keys_removed s old.id)
    rw [same]
    exact .delete old.id

lemma step_completed (wf : s.WellFormed) {stored : Record} (mem : stored ∈ s.records) {pass : String}
    (free : pass ∉ stored.completed) (now : Timestamp) :
    s.cabinet.Step (some (stored.id, pass)) (s.completed stored.id pass now).cabinet := by
  have same : (s.completed stored.id pass now).cabinet = { s.cabinet with
      completed? := Function.update s.cabinet.completed? stored.id
        (some (stored.completed ++ [pass])) } :=
    Cabinet.ext rfl (completed?_completed wf mem pass now) rfl
  rw [same]
  exact .complete (completed?_cabinet wf mem) free

lemma step_committed (wf : s.WellFormed) {stored : Record} (mem : stored ∈ s.records)
    {result : PassResult} (free : result.pass ∉ stored.completed) (now : Timestamp) :
    s.cabinet.Step none (s.committed stored.id result now).cabinet := by
  have keys : (s.committed stored.id result now).keys =
      (s.keys.filter fun k => k ≠ (stored.id, result.pass)) ++ [(stored.id, result.pass)] := by
    rw [committed, keys_kept, keys_dropped]
    rfl
  have same : (s.committed stored.id result now).cabinet = { s.cabinet with
      completed? := Function.update s.cabinet.completed? stored.id
        (some (stored.completed ++ [result.pass]))
      keys := (s.keys.filter fun k => k ≠ (stored.id, result.pass)) ++ [(stored.id, result.pass)] } :=
    Cabinet.ext rfl (completed?_completed wf mem result.pass now) keys
  rw [same]
  exact .commit (completed?_cabinet wf mem) free

/-- Each request to a store in memory changes it as a cabinet may change. -/
theorem step_perform (wf : s.WellFormed) (now : Timestamp) (request : Request Record RecordId) :
    s.cabinet.Step (request.advanced (request.perform operations now s).1)
      (request.perform operations now s).2.cabinet := by
  cases request with
  | advance record pass =>
    obtain ⟨stored, mem, eq, free, h⟩ | ⟨_, _, _, _, h⟩ | ⟨_, h⟩ := advance_cases s record pass now
    · simp only [Request.perform, Request.answering, operations, h, Request.advanced, Except.map]
      exact eq ▸ step_completed wf mem free now
    · simp only [Request.perform, Request.answering, operations, h, Request.advanced, Except.map]
      exact .same _
    · simp only [Request.perform, Request.answering, operations, h, Request.advanced, Except.map]
      exact .same _
  | commit record result =>
    obtain ⟨stored, mem, eq, free, h⟩ | ⟨_, _, _, _, h⟩ | ⟨_, h⟩ := commit_cases s record result now
    · simp only [Request.perform, Request.answering, operations, h, Request.advanced]
      exact eq ▸ step_committed wf mem free now
    · simp only [Request.perform, Request.answering, operations, h, Request.advanced]
      exact .same _
    · simp only [Request.perform, Request.answering, operations, h, Request.advanced]
      exact .same _
  | upsert new => exact (change_upsert s new now).step wf
  | recordResult record result => exact (change_recordResult s record result).step wf
  | delete path => exact (change_delete s path).step wf
  | saveScores id scores => exact .same _
  | get path => exact .same _
  | list => exact .same _
  | pending order check => exact .same _
  | results id => exact .same _
  | latest id pass => exact .same _
  | scores id => exact .same _

end MemoryStore

/-! ### In a database -/

namespace Relational

/-- What matters of a database for the order of results. -/
def Database.cabinet (db : Database) : Cabinet where
  next := (db.records.map Table.lastId).getD 0 + 1
  completed? := db.completed?
  keys := (db.results.map Table.keys).getD []

variable {Given : Json → Prop} {records records' : Table RecordRow} {results results' : Table ResultRow}
  {scores scores' : List ScoreRow}

lemma completed?_eq (records : Table RecordRow) (results : Table ResultRow) (scores : List ScoreRow)
    (id : RecordId) : (tables records results scores).completed? id =
      (Statement.rowOf? records id).bind fun row => (readNames row.completed).toOption := rfl

lemma rowOf?_map (records : Table RecordRow) (last : Int) {f : RecordRow → RecordRow}
    (same : ∀ row, (f row).id = row.id) (id : RecordId) :
    Statement.rowOf? ⟨records.rows.map f, last⟩ id = (Statement.rowOf? records id).map f := by
  simp only [Statement.rowOf?, List.find?_map]
  congr 2
  funext row
  rw [Function.comp_apply, same]

lemma rowOf?_concat (records : Table RecordRow) (last : Int) (row : RecordRow) (id : RecordId) :
    Statement.rowOf? ⟨records.rows ++ [row], last⟩ id =
      (Statement.rowOf? records id).or (if row.id = id then some row else none) := by
  simp only [Statement.rowOf?, List.find?_append]
  congr 1
  by_cases eq : row.id = id <;> simp [eq]

lemma Sound.cabinet (sound : Sound Given records results) (scores : List ScoreRow) :
    (tables records results scores).cabinet.WellFormed where
  given := by
    intro id there
    obtain ⟨names, listed⟩ := Option.isSome_iff_exists.1 there
    have live : id ∈ records.ids := by
      by_contra gone
      cases (completed?_tables_of_none (rowOf?_eq_none.2 gone)).symm.trans listed
    exact Int.lt_add_one_of_le (sound.below id live)
  owned := by
    intro k mem
    obtain ⟨row, live, eq⟩ := List.mem_map.1 (sound.owned k mem)
    obtain ⟨names, listed, -⟩ := sound.listed row live
    have hrow := sound.rowOf?_of_mem live
    rw [eq] at hrow
    exact Option.isSome_iff_exists.2 ⟨names, completed?_tables hrow listed⟩
  unique := sound.unique

lemma completed?_withCompleted {id : RecordId} {row : RecordRow}
    (hrow : Statement.rowOf? records id = some row) (names : List String) (index : Int)
    (now : Timestamp) (results' : Table ResultRow) (scores' : List ScoreRow) :
    (tables (withCompleted records id names index now) results' scores').completed? =
      Function.update (tables records results scores).completed? id (some names) := by
  funext other
  have mapped := rowOf?_map records records.lastId (f := fun row =>
    if row.id = id then { row with completed := writeNames names, passIndex := index, updatedAt := now }
    else row) (fun row => by split <;> rfl) other
  rw [completed?_eq, withCompleted, mapped]
  by_cases eq : other = id
  · subst eq
    rw [hrow, Function.update_self, Option.map_some, if_pos (rowOf?_eq_some hrow).2, Option.bind_some,
      readNames_writeNames]
    rfl
  · rw [Function.update_of_ne eq, completed?_eq]
    cases found : Statement.rowOf? records other with
    | none => rfl
    | some row' => rw [Option.map_some, if_neg ((rowOf?_eq_some found).2 ▸ eq)]

lemma completed?_withoutRecord (records : Table RecordRow) (id : RecordId)
    (results' : Table ResultRow) (scores' : List ScoreRow) :
    (tables (withoutRecord records id) results' scores').completed? =
      Function.update (tables records results scores).completed? id none := by
  funext other
  by_cases eq : other = id
  · have gone : Statement.rowOf? (withoutRecord records id) id = none :=
      rowOf?_eq_none.2 (by simp)
    rw [eq, Function.update_self, completed?_tables_of_none gone]
  · rw [Function.update_of_ne eq, completed?_eq, completed?_eq]
    congr 1
    simp only [Statement.rowOf?, withoutRecord, List.find?_filter]
    congr 1
    funext row
    rw [Bool.eq_iff_iff]
    simp only [decide_eq_true_eq, bne_iff_ne, beq_iff_eq, and_iff_right_iff_imp]
    rintro rfl
    exact eq

/-- A record whose completed passes are not there is not there. -/
lemma Sound.rowOf?_of_absent (sound : Sound Given records results) {id : RecordId}
    (absent : (tables records results scores).completed? id = none) :
    Statement.rowOf? records id = none := by
  cases hrow : Statement.rowOf? records id with
  | none => rfl
  | some row =>
    obtain ⟨names, listed, -⟩ := sound.listed row (rowOf?_eq_some hrow).1
    cases absent.symm.trans (completed?_tables hrow listed)

/-- An artifact that is put leaves the completed passes of the records that are there. -/
lemma Sound.step_put (sound : Sound Given records results) (new : NewRecord) (now : Timestamp)
    (scores' : List ScoreRow) :
    (tables records results scores).cabinet.Step none
      (tables (Statement.upsert records new.path new.language new.source new.hash new.parsed.compact
        now) results scores').cabinet := by
  have le : records.lastId + 1 ≤ records.lastId + 1 + 1 := Int.le_of_lt (Int.lt_succ _)
  simp only [Statement.upsert]
  split
  · next old _ =>
    have same (id : RecordId) : (tables ⟨records.rows.map fun row => if row.id = old.id then
        { row with
          language := new.language
          source := new.source
          hash := new.hash
          parsed := new.parsed.compact
          updatedAt := now }
        else row, records.lastId + 1⟩ results scores').completed? id =
        (tables records results scores).completed? id := by
      rw [completed?_eq, completed?_eq, rowOf?_map records (records.lastId + 1)
        fun row => by split <;> rfl]
      cases Statement.rowOf? records id with
      | none => rfl
      | some row =>
        rw [Option.map_some, Option.bind_some, Option.bind_some]
        split <;> rfl
    refine .put le (fun id names listed => (same id).trans listed) fun id names absent listed => ?_
    cases absent.symm.trans ((same id).symm.trans listed)
  · refine .put le (fun id names listed => ?_) fun id names absent listed => ?_
    · obtain ⟨row, hrow, read⟩ := Option.bind_eq_some_iff.1 ((completed?_eq ..).symm.trans listed)
      rw [completed?_eq, rowOf?_concat, hrow]
      exact read
    · rw [completed?_eq, rowOf?_concat, sound.rowOf?_of_absent absent, Option.none_or] at listed
      split at listed
      · next eq =>
        have none : (readNames "[]").toOption = some [] :=
          congrArg Except.toOption (readNames_writeNames [])
        rw [Option.bind_some, none] at listed
        exact ⟨Int.le_of_eq eq, (Option.some.inj listed).symm⟩
      · cases listed

/-- A change that completes no pass. -/
lemma Revision.step (revision : Revision Given records results none records' results')
    (sound : Sound Given records results) (scores scores' : List ScoreRow) :
    (tables records results scores).cabinet.Step none (tables records' results' scores').cabinet := by
  cases revision with
  | same => exact .same _
  | put given => exact sound.step_put _ _ scores'
  | @keep id result row names hrow listed free _ =>
    have same : (tables records (withResult results id result) scores').cabinet =
        { (tables records results scores).cabinet with keys := results.keys ++ [(id, result.pass)] } :=
      Cabinet.ext rfl rfl (keys_withResult results id result)
    rw [same]
    exact .keep (completed?_tables hrow listed) free
  | delete id =>
    have same : (tables (withoutRecord records id) (withoutResults results id) scores').cabinet =
        { (tables records results scores).cabinet with
          completed? := Function.update (tables records results scores).completed? id none
          keys := results.keys.filter fun k => k.1 ≠ id } :=
      Cabinet.ext rfl (completed?_withoutRecord records id _ _) (keys_withoutResults results id)
    rw [same]
    exact .delete id

lemma step_withCompleted {id : RecordId} {row : RecordRow} {names : List String} {pass : String}
    (hrow : Statement.rowOf? records id = some row) (listed : row.completed = writeNames names)
    (free : pass ∉ names) (index : Int) (now : Timestamp) (scores' : List ScoreRow) :
    (tables records results scores).cabinet.Step (some (id, pass))
      (tables (withCompleted records id (names ++ [pass]) index now) results scores').cabinet := by
  have same : (tables (withCompleted records id (names ++ [pass]) index now) results scores').cabinet =
      { (tables records results scores).cabinet with
        completed? := Function.update (tables records results scores).completed? id
          (some (names ++ [pass])) } :=
    Cabinet.ext rfl (completed?_withCompleted hrow _ index now results scores') rfl
  rw [same]
  exact .complete (completed?_tables hrow listed) free

lemma step_withResult {id : RecordId} {row : RecordRow} {names : List String} {result : PassResult}
    (hrow : Statement.rowOf? records id = some row) (listed : row.completed = writeNames names)
    (free : result.pass ∉ names) (index : Int) (now : Timestamp) (scores' : List ScoreRow) :
    (tables records results scores).cabinet.Step none
      (tables (withCompleted records id (names ++ [result.pass]) index now)
        (withResult (withoutResult results id result.pass) id result) scores').cabinet := by
  have keys : (withResult (withoutResult results id result.pass) id result).keys =
      (results.keys.filter fun k => k ≠ (id, result.pass)) ++ [(id, result.pass)] := by
    rw [keys_withResult, keys_withoutResult]
  have same : (tables (withCompleted records id (names ++ [result.pass]) index now)
      (withResult (withoutResult results id result.pass) id result) scores').cabinet =
      { (tables records results scores).cabinet with
        completed? := Function.update (tables records results scores).completed? id
          (some (names ++ [result.pass]))
        keys := (results.keys.filter fun k => k ≠ (id, result.pass)) ++ [(id, result.pass)] } :=
    Cabinet.ext rfl (completed?_withCompleted hrow _ index now _ scores') keys
  rw [same]
  exact .commit (completed?_tables hrow listed) free

/-- Each request to a database changes it as a cabinet may change. -/
theorem Sound.step_perform (sound : Sound Given records results) (scores : List ScoreRow)
    (now : Timestamp) (request : Request Record RecordId)
    (given : ∀ new, request = .upsert new → Given new.parsed) :
    let db := tables records results scores
    db.cabinet.Step (request.advanced (request.perform Database.operations now db).1)
      (request.perform Database.operations now db).2.cabinet := by
  intro db
  have step {db' : Database} (revised : Revised Given records results none db') :
      db.cabinet.Step none db'.cabinet := by
    obtain ⟨_, _, scores', rfl, revision⟩ := revised
    exact revision.step sound scores scores'
  cases request with
  | advance record pass =>
    obtain ⟨row, current, hrow, -, listed, free, h⟩ | ⟨e, h⟩ :=
      advance_cases sound scores record pass now
    · simp only [Request.perform, Request.answering, Database.operations, db, h, Request.advanced,
        Except.map]
      exact step_withCompleted hrow listed free _ now scores
    · simp only [Request.perform, Request.answering, Database.operations, db, h, Request.advanced,
        Except.map]
      exact .same _
  | commit record result =>
    obtain ⟨row, current, hrow, -, listed, free, h⟩ | ⟨-, e, h⟩ :=
      commitPass_cases sound scores record result now
    · simp only [Request.perform, Request.answering, Database.operations, db, h, Request.advanced]
      exact step_withResult hrow listed free _ now scores
    · simp only [Request.perform, Request.answering, Database.operations, db, h, Request.advanced]
      exact .same _
  | upsert new => exact step (revised_upsert new now (given new rfl))
  | recordResult record result => exact step (revised_recordResult sound record result)
  | delete path => exact step (revised_delete path)
  | saveScores id values => exact step (revised_saveScores id values scores)
  | get path => exact .same _
  | list => exact .same _
  | pending order check => exact .same _
  | results id => exact .same _
  | latest id pass => exact .same _
  | scores id => exact .same _

end Relational

/-! ### In both -/

open Relational

namespace MemoryStore

/-- What is listed of a record is on its shelf. -/
lemma map_pass_resultsOf (s : MemoryStore) (id : RecordId) :
    (s.resultsOf id).map PassResult.pass = Cabinet.passesOf s.keys id := by
  simp only [resultsOf, Cabinet.passesOf, keys, List.map_map, List.filter_map]
  rfl

/-- The stores in memory that saw nothing but requests are such cabinets. -/
lemma cabinets : Cabinets operations cabinet WellFormed where
  wellFormed := fun _ wf => wf.cabinet
  step := by
    intro s now request wf
    obtain ⟨c, change, -⟩ := change_perform s now request
    exact ⟨change.wellFormed wf, step_perform wf now request⟩

end MemoryStore

namespace Relational

lemma ResultRow.pass_result {row : ResultRow} {r : PassResult} (h : row.result = .ok r) :
    r.pass = row.pass := by
  simp only [ResultRow.result] at h
  split at h <;> cases h
  rfl

/-- What is listed of a record, if all of it is read, is on its shelf. -/
lemma map_pass_results {records : Table RecordRow} {results : Table ResultRow}
    {scores : List ScoreRow} {id : RecordId} {rs : List PassResult}
    (h : Database.operations.results id (tables records results scores) = .ok rs) :
    rs.map PassResult.pass = Cabinet.passesOf results.keys id := by
  have read : readAll ResultRow.result (results.rows.filter fun row => row.recordId == id) = .ok rs := h
  have passes : rs.map PassResult.pass =
      (results.rows.filter fun row => row.recordId == id).map ResultRow.pass := by
    rw [← List.forall₂_eq_eq_eq, List.forall₂_map_left_iff, List.forall₂_map_right_iff]
    exact (readAll_related read).imp fun _ _ one => ResultRow.pass_result one
  rw [passes]
  simp only [Cabinet.passesOf, Table.keys, List.filter_map, List.map_map]
  rfl

/-- Holds of databases with sound tables. -/
def Database.Sound (db : Database) : Prop :=
  ∃ records results scores, db = tables records results scores ∧
    Relational.Sound (fun _ => True) records results

/-- The databases that were made and saw nothing but requests are such cabinets. -/
lemma cabinets : Cabinets Database.operations Database.cabinet Database.Sound where
  wellFormed := by
    rintro _ ⟨records, results, scores, rfl, sound⟩
    exact sound.cabinet scores
  step := by
    rintro _ now request ⟨records, results, scores, rfl, sound⟩
    have given : ∀ new, request = .upsert new → True := fun _ _ => trivial
    obtain ⟨c, records', results', scores', h, revision⟩ :=
      revised_perform sound scores now request given
    exact ⟨⟨_, _, _, h, revision.sound sound⟩, sound.step_perform scores now request given⟩

end Relational

/-- Whatever was requested of a store, in memory or in a database: the results of the completed
passes of a record are listed in the order of completion exactly when no pass of it was ever
completed without a new result while the result that it had stood before that of a completed
pass. -/
theorem results_inOrder_iff (history : List (Timestamp × Request Record RecordId)) :
    let s := Request.performAll MemoryStore.operations history {}
    let db := Request.performAll Database.operations history (Database.migrate {})
    (∀ r ∈ s.records,
      Shelf.InOrder ⟨(s.resultsOf r.id).map PassResult.pass, r.completed⟩ ↔
        ¬MemoryStore.operations.Overtaken (fun s => s.cabinet.shelf?) {} history r.id) ∧
    (∀ id names rs, db.completed? id = some names → Database.operations.results id db = .ok rs →
      (Shelf.InOrder ⟨rs.map PassResult.pass, names⟩ ↔
        ¬Database.operations.Overtaken (fun db => db.cabinet.shelf?) (Database.migrate {}) history
          id)) := by
  intro s db
  constructor
  · intro r mem
    obtain ⟨wf, -⟩ := MemoryStore.performAll_wellFormed MemoryStore.wellFormed_empty history
    have there : s.cabinet.shelf? r.id =
        some ⟨(s.resultsOf r.id).map PassResult.pass, r.completed⟩ := by
      rw [Cabinet.shelf?, MemoryStore.completed?_cabinet wf mem, MemoryStore.map_pass_resultsOf]
      rfl
    exact MemoryStore.cabinets.inOrder_iff MemoryStore.wellFormed_empty (fun _ => rfl) there
  · intro id names rs listed read
    have first : Database.Sound (Database.migrate {}) := ⟨{}, {}, [], rfl, sound_empty⟩
    obtain ⟨⟨records, results, scores, eq, -⟩, -⟩ := cabinets.performAll first history
    have there : db.cabinet.shelf? id = some ⟨rs.map PassResult.pass, names⟩ := by
      have eq : db = tables records results scores := eq
      rw [eq] at read listed ⊢
      have listed : (tables records results scores).cabinet.completed? id = some names := listed
      rw [Cabinet.shelf?, listed, map_pass_results read]
      rfl
    exact cabinets.inOrder_iff first (fun _ => rfl) there

lemma Relational.exists_results {db : Database} {id : RecordId} {names passes : List String}
    (listed : db.completed? id = some names)
    (shown : ((Database.operations.results id db).map (List.map PassResult.pass)).toOption =
      some passes) :
    ∃ rs, db.completed? id = some names ∧ Database.operations.results id db = .ok rs ∧
      rs.map PassResult.pass = passes := by
  cases read : Database.operations.results id db with
  | error e =>
    rw [read] at shown
    cases shown
  | ok rs =>
    rw [read] at shown
    exact ⟨rs, listed, rfl, Option.some.inj shown⟩

/-- A result that was kept first waits behind two passes that are completed in order, the second of
them with a result that was kept before. -/
theorem results_inOrder_of_waiting :
    let new : NewRecord := ⟨"a.php", none, "x", "", .null⟩
    let record := Record.ofNew 1 new 0
    let text (pass : String) : PassResult := ⟨pass, "", .text "kept", none, 5, 0⟩
    let history : List (Timestamp × Request Record RecordId) :=
      [(0, .upsert new), (1, .recordResult record (text "doc")), (2, .commit record (text "style")),
        (3, .recordResult record (text "lint")), (4, .advance record "lint")]
    let s := Request.performAll MemoryStore.operations history {}
    let db := Request.performAll Database.operations history (Database.migrate {})
    (∃ r ∈ s.records, r.completed = ["style", "lint"] ∧
      (s.resultsOf r.id).map PassResult.pass = ["doc", "style", "lint"] ∧
      ¬MemoryStore.operations.Overtaken (fun s => s.cabinet.shelf?) {} history r.id) ∧
    ∃ rs, db.completed? 1 = some ["style", "lint"] ∧ Database.operations.results 1 db = .ok rs ∧
      rs.map PassResult.pass = ["doc", "style", "lint"] ∧
      ¬Database.operations.Overtaken (fun db => db.cabinet.shelf?) (Database.migrate {}) history 1 := by
  intro new record text history s db
  have ordered : Shelf.InOrder ⟨["doc", "style", "lint"], ["style", "lint"]⟩ := by
    show List.Sublist _ _
    decide
  obtain ⟨memory, database⟩ := results_inOrder_iff history
  obtain ⟨r, mem, completed, passes⟩ : ∃ r ∈ s.records, r.completed = ["style", "lint"] ∧
      (s.resultsOf r.id).map PassResult.pass = ["doc", "style", "lint"] :=
    ⟨_, List.mem_singleton_self _, by decide +kernel, by decide +kernel⟩
  obtain ⟨rs, listed, read, passes'⟩ : ∃ rs, db.completed? 1 = some ["style", "lint"] ∧
      Database.operations.results 1 db = .ok rs ∧
      rs.map PassResult.pass = ["doc", "style", "lint"] :=
    exists_results (by decide +kernel) (by decide +kernel)
  refine ⟨⟨r, mem, completed, passes, ?_⟩, rs, listed, read, passes', ?_⟩
  · rw [← memory r mem, completed, passes]
    exact ordered
  · rw [← database 1 _ rs listed read, passes']
    exact ordered

/-- A result is kept, another pass is committed, and then the pass of the first result is completed.
Its result is listed first in memory and in a database, and its completion last. -/
theorem results_not_inOrder :
    let new : NewRecord := ⟨"a.php", none, "x", "", .obj []⟩
    let record := Record.ofNew 1 new 0
    let text (pass body : String) : PassResult := ⟨pass, "prompt", .text body, none, 0, 0⟩
    let history : List (Timestamp × Request Record RecordId) :=
      [(0, .upsert new), (0, .recordResult record (text "doc" "d")),
        (0, .commit record (text "style" "s")), (0, .advance record "doc")]
    let s := Request.performAll MemoryStore.operations history {}
    let db := Request.performAll Database.operations history (Database.migrate {})
    (∃ r ∈ s.records, r.completed = ["style", "doc"] ∧
      (s.resultsOf r.id).map PassResult.pass = ["doc", "style"] ∧
      ¬Shelf.InOrder ⟨(s.resultsOf r.id).map PassResult.pass, r.completed⟩) ∧
    ∃ rs, db.completed? 1 = some ["style", "doc"] ∧ Database.operations.results 1 db = .ok rs ∧
      rs.map PassResult.pass = ["doc", "style"] ∧
      ¬Shelf.InOrder ⟨rs.map PassResult.pass, ["style", "doc"]⟩ := by
  intro new record text history s db
  have disordered : ¬Shelf.InOrder ⟨["doc", "style"], ["style", "doc"]⟩ := by
    show ¬List.Sublist _ _
    decide
  obtain ⟨r, mem, completed, passes⟩ : ∃ r ∈ s.records, r.completed = ["style", "doc"] ∧
      (s.resultsOf r.id).map PassResult.pass = ["doc", "style"] :=
    ⟨_, List.mem_singleton_self _, by decide +kernel, by decide +kernel⟩
  obtain ⟨rs, listed, read, passes'⟩ : ∃ rs, db.completed? 1 = some ["style", "doc"] ∧
      Database.operations.results 1 db = .ok rs ∧ rs.map PassResult.pass = ["doc", "style"] :=
    exists_results (by decide +kernel) (by decide +kernel)
  exact ⟨⟨r, mem, completed, passes, by rwa [completed, passes]⟩, rs, listed, read, passes',
    by rwa [passes']⟩

end Multipass
