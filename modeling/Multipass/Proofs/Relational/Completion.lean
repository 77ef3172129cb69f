import Multipass.Proofs.Relational.Revision
import Multipass.Proofs.Store.Rows

/-!
# Keeping and completing

What the operations that keep a result or complete a pass come to, in memory and in a database, for
every record that they may name.

Main statements: `gone_refused` for records that are gone, and `commit_whole` for commits.
-/

namespace Multipass

namespace Relational

/-- The row of a record. -/
def Database.row? (db : Database) (id : RecordId) : Option RecordRow :=
  db.records.bind fun records => Statement.rowOf? records id

/-- The record that is read from its row. -/
def Database.record? (db : Database) (id : RecordId) : Option Record :=
  (db.row? id).bind fun row => row.record.toOption

/-- The completed passes in the row of a record. -/
def Database.completed? (db : Database) (id : RecordId) : Option (List String) :=
  (db.row? id).bind fun row => (readNames row.completed).toOption

/-- The database without the results of a pass of a record. -/
def Database.dropped (db : Database) (id : RecordId) (pass : String) : Database :=
  { db with results := db.results.map fun results => withoutResult results id pass }

variable {Given : Json → Prop} {records : Table RecordRow} {results : Table ResultRow}
  {scores : List ScoreRow}

lemma completed?_tables {id : RecordId} {row : RecordRow} {names : List String}
    (hrow : Statement.rowOf? records id = some row) (listed : row.completed = writeNames names) :
    (tables records results scores).completed? id = some names := by
  have found : (tables records results scores).row? id = some row := hrow
  rw [Database.completed?, found, Option.bind_some, listed, readNames_writeNames]
  rfl

lemma completed?_tables_of_none {id : RecordId} (gone : Statement.rowOf? records id = none) :
    (tables records results scores).completed? id = none := by
  have none : (tables records results scores).row? id = none := gone
  rw [Database.completed?, none]
  rfl

lemma record?_tables {id : RecordId} {current : Record} :
    (tables records results scores).record? id = some current ↔
      ∃ row, Statement.rowOf? records id = some row ∧ row.record = .ok current := by
  have bound : (tables records results scores).record? id =
      (Statement.rowOf? records id).bind fun row => row.record.toOption := rfl
  rw [bound, Option.bind_eq_some_iff]
  refine exists_congr fun row => and_congr_right fun _ => ?_
  cases row.record <;> simp [Except.toOption]

/-- A database that was made and saw nothing but requests has sound tables. -/
lemma exists_tables (history : List (Timestamp × Request Record RecordId)) (Given : Json → Prop)
    (given : ∀ now new, (now, .upsert new) ∈ history → Given new.parsed) :
    ∃ records results scores, Request.performAll Database.operations history (Database.migrate {}) =
      tables records results scores ∧ Sound Given records results :=
  sound_performAll given sound_empty []

end Relational

namespace MemoryStore

variable {s : MemoryStore} {record : Record}

lemma recordResult_of_none (gone : s.record? record.id = none) (result : PassResult) :
    recordResult record result s = (.error (.recordNotFound record.path), s) := by
  simp only [recordResult, gone]

lemma advance_of_none (gone : s.record? record.id = none) (pass : String) (now : Timestamp) :
    advance record pass now s = (.error (.recordNotFound record.path), s) := by
  simp only [advance, gone]

lemma commit_of_none (gone : s.record? record.id = none) (result : PassResult) (now : Timestamp) :
    commit record result now s = (.error (.recordNotFound record.path), s) := by
  simp only [commit, advance_of_none gone]

end MemoryStore

open Relational

/-! ### Records that are gone -/

/-- Whatever was requested of a store, a record that is not there is refused by each operation that
keeps a result or completes a pass, and the store stays as it is. In memory each of them says that
the record was not found. In a database only the completion alone says so; the other two insert a
result before they look for the record, and fail with the foreign key. -/
theorem gone_refused (history : List (Timestamp × Request Record RecordId)) (record : Record)
    (result : PassResult) (pass : String) (now : Timestamp) :
    let s := Request.performAll MemoryStore.operations history {}
    let db := Request.performAll Database.operations history (Database.migrate {})
    (s.record? record.id = none →
      MemoryStore.operations.recordResult record result s = (.error (.recordNotFound record.path), s) ∧
      MemoryStore.operations.advance record pass now s = (.error (.recordNotFound record.path), s) ∧
      MemoryStore.operations.commit record result now s =
        (.error (.recordNotFound record.path), s)) ∧
    (db.row? record.id = none →
      Database.operations.recordResult record result db = (.error (.database .foreignKey), db) ∧
      Database.operations.advance record pass now db = (.error (.recordNotFound record.path), db) ∧
      Database.operations.commit record result now db = (.error (.database .foreignKey), db)) := by
  intro s db
  refine ⟨fun gone => ?_, fun gone => ?_⟩
  · exact ⟨MemoryStore.recordResult_of_none gone result, MemoryStore.advance_of_none gone pass now,
      MemoryStore.commit_of_none gone result now⟩
  · obtain ⟨records, results, scores, eq, sound⟩ :=
      exists_tables history (fun _ => True) fun _ _ _ => trivial
    have eq : db = tables records results scores := eq
    rw [eq] at gone ⊢
    exact ⟨recordResult_of_none sound gone, appendPass_of_none gone, commitPass_of_none gone⟩

/-- A record is refused after its deletion, under the number that it had. -/
theorem gone_refused_of_deleted :
    let new : NewRecord := ⟨"a.php", none, "x", "", .null⟩
    let record := Record.ofNew 1 new 0
    let result : PassResult := ⟨"doc", "prompt", .text "kept", none, 5, 0⟩
    let history : List (Timestamp × Request Record RecordId) := [(0, .upsert new), (1, .delete "a.php")]
    let s := Request.performAll MemoryStore.operations history {}
    let db := Request.performAll Database.operations history (Database.migrate {})
    s.record? record.id = none ∧ db.row? record.id = none ∧
      MemoryStore.operations.commit record result 2 s = (.error (.recordNotFound "a.php"), s) ∧
      Database.operations.advance record "doc" 2 db = (.error (.recordNotFound "a.php"), db) ∧
      Database.operations.commit record result 2 db = (.error (.database .foreignKey), db) := by
  intro new record result history s db
  have gone : s.record? record.id = none := rfl
  have gone' : db.row? record.id = none := by decide +kernel
  obtain ⟨memory, database⟩ := gone_refused history record result "doc" 2
  obtain ⟨-, advanced, committed⟩ := database gone'
  exact ⟨gone, gone', (memory gone).2.2, advanced, committed⟩

/-- To keep a result of a record that was deleted, or to commit one, is refused by a database with
the foreign key, and not because the record was not found. -/
theorem gone_foreignKey :
    let new : NewRecord := ⟨"a.php", none, "x", "", .obj []⟩
    let record := Record.ofNew 1 new 0
    let result : PassResult := ⟨"doc", "prompt", .text "kept", none, 0, 0⟩
    let history : List (Timestamp × Request Record RecordId) := [(0, .upsert new), (0, .delete "a.php")]
    let db := Request.performAll Database.operations history (Database.migrate {})
    db.row? record.id = none ∧
      (Database.operations.recordResult record result db).1 = .error (.database .foreignKey) ∧
      (Database.operations.commit record result 0 db).1 = .error (.database .foreignKey) ∧
      (Database.operations.recordResult record result db).1 ≠ .error (.recordNotFound "a.php") ∧
      (Database.operations.commit record result 0 db).1 ≠ .error (.recordNotFound "a.php") := by
  intro new record result history db
  have kept : (Database.operations.recordResult record result db).1 = .error (.database .foreignKey) := by
    rfl
  have committed : (Database.operations.commit record result 0 db).1 =
      .error (.database .foreignKey) := by rfl
  exact ⟨by decide +kernel, kept, committed, kept ▸ nofun, committed ▸ nofun⟩

/-! ### Commits -/

/-- What a commit comes to, if it goes through exactly when something holds: the removal of a result
of the pass, a new result, and the completion of the pass; or nothing at all. -/
structure ArtifactStore.CommitsWhole {σ : Type} (store : ArtifactStore σ)
    (dropped : σ → RecordId → String → σ) (s : σ) (record : Record) (result : PassResult)
    (now : Timestamp) (lacks : Prop) : Prop where
  goes : (∃ r, (store.commit record result now s).1 = .ok r) ↔ lacks
  whole : ∀ r, (store.commit record result now s).1 = .ok r →
    ∃ kept, store.recordResult record result (dropped s record.id result.pass) = (.ok (), kept) ∧
      store.advance record result.pass now kept = store.commit record result now s
  nothing : ∀ e, (store.commit record result now s).1 = .error e →
    (store.commit record result now s).2 = s

lemma MemoryStore.commitsWhole (s : MemoryStore) (wf : s.WellFormed) (record : Record)
    (result : PassResult) (now : Timestamp) :
    operations.CommitsWhole MemoryStore.dropped s record result now
      (∃ stored, s.record? record.id = some stored ∧ result.pass ∉ stored.completed) := by
  have commits : operations.commit record result now s = commit record result now s := rfl
  obtain ⟨stored, mem, eq, free, h⟩ | ⟨stored, mem, eq, done, h⟩ | ⟨gone, h⟩ :=
    commit_cases s record result now
  · have found : s.record? record.id = some stored := eq ▸ wf.record?_of_mem mem
    have none : (record.id, result.pass) ∉ (s.dropped record.id result.pass).keys := by simp
    have lacks : stored.hasCompleted result.pass = false := by simpa [Record.hasCompleted] using free
    refine {
      goes := by simp [commits, h, found, free]
      whole := fun r _ => ⟨(s.dropped record.id result.pass).kept record.id result, ?_, ?_⟩
      nothing := fun e failed => by simp [commits, h] at failed }
    · have found' : (s.dropped record.id result.pass).record? record.id = some stored := found
      show recordResult record result _ = _
      simp only [recordResult, found', lacks, Bool.false_or, any_isResultOf, none, if_false]
      rfl
    · have found' : ((s.dropped record.id result.pass).kept record.id result).record? record.id =
          some stored := found
      rw [commits, h]
      show advance record result.pass now _ = _
      simp only [advance, found', lacks, Bool.false_eq_true, if_false]
      rfl
  · have found : s.record? record.id = some stored := eq ▸ wf.record?_of_mem mem
    exact {
      goes := by simp [commits, h, found, done]
      whole := fun r went => by simp [commits, h] at went
      nothing := fun e _ => by rw [commits, h] }
  · have none : s.record? record.id = none := record?_eq_none.2 gone
    exact {
      goes := by simp [commits, h, none]
      whole := fun r went => by simp [commits, h] at went
      nothing := fun e _ => by rw [commits, h] }

/-- A commit that is refused changes nothing in a database. -/
lemma Relational.Database.commit_of_error {db : Database} {record : Record} {result : PassResult}
    {now : Timestamp} {e : StoreError}
    (failed : (Database.operations.commit record result now db).1 = .error e) :
    Database.operations.commit record result now db = (.error e, db) :=
  Prod.ext failed (Transaction.runFrom_error (Prod.ext failed rfl))

lemma Relational.commitsWhole {Given : Json → Prop} {records : Table RecordRow}
    {results : Table ResultRow} {scores : List ScoreRow} (sound : Sound Given records results)
    (record : Record) (result : PassResult) (now : Timestamp) :
    let db := tables records results scores
    Database.operations.CommitsWhole Database.dropped db record result now
      (∃ stored, db.record? record.id = some stored ∧ result.pass ∉ stored.completed) := by
  intro db
  have commits : Database.operations.commit record result now db =
      (Transaction.commitPass record result now).run db := rfl
  have nothing : ∀ e, (Database.operations.commit record result now db).1 = .error e →
      (Database.operations.commit record result now db).2 = db := fun e failed =>
    congrArg Prod.snd (Database.commit_of_error failed)
  obtain ⟨row, current, hrow, hcurrent, listed, free, h⟩ | ⟨done, e, h⟩ :=
    commitPass_cases sound scores record result now
  · have stored : db.record? record.id = some current := record?_tables.2 ⟨row, hrow, hcurrent⟩
    have kept : (Transaction.recordResult record result).run (db.dropped record.id result.pass) = _ :=
      recordResult_of_not_mem hrow listed free
        (not_mem_keys_withoutResult results record.id result.pass)
    have appended (start : Database) := appendPass_of_not_mem
      (withResult (withoutResult results record.id result.pass) record.id result) scores hrow hcurrent
      free now start
    exact {
      goes := ⟨fun _ => ⟨current, stored, free⟩, fun _ => by simp [commits, db, h]⟩
      whole := fun r _ => by
        refine ⟨_, kept, ?_⟩
        rw [commits, commitPass_of_not_mem results scores now hrow listed free, appended]
        exact appended _
      nothing }
  · have failed : (Database.operations.commit record result now db).1 = .error e := by
      rw [commits, h]
    refine { goes := ⟨?_, ?_⟩, whole := ?_, nothing }
    · rintro ⟨r, went⟩
      cases failed.symm.trans went
    · rintro ⟨current, stored, free⟩
      obtain ⟨row, hrow, hcurrent⟩ := record?_tables.1 stored
      exact absurd (done row current hrow hcurrent) free
    · intro r went
      cases failed.symm.trans went

namespace Relational

/-- Holds of a record with a row whose completed passes lack a pass. -/
def Database.Lacks (db : Database) (id : RecordId) (pass : String) : Prop :=
  ∃ names, db.completed? id = some names ∧ pass ∉ names

/-- Holds of a record with a row whose parsed representation is read back from its text. -/
def Database.ReadsBack (db : Database) (id : RecordId) : Prop :=
  ∃ row j, db.row? id = some row ∧ Json.parse row.parsed = .ok j

variable {Given : Json → Prop} {records : Table RecordRow} {results : Table ResultRow}

/-- A row with a list of names is read as a record once its parsed representation is read. -/
lemma exists_record_iff {row : RecordRow} {names : List String}
    (listed : row.completed = writeNames names) :
    (∃ current, row.record = .ok current) ↔ ∃ j, Json.parse row.parsed = .ok j := by
  simp only [RecordRow.record, listed, readNames_writeNames, Json.parseNamed, Json.parseAs, Json.parse,
    Json.whole]
  cases Json.entire Json.first row.parsed.toList with
  | error fault =>
    refine iff_of_false ?_ ?_
    · rintro ⟨current, ⟨⟩⟩
    · rintro ⟨j, ⟨⟩⟩
  | ok j => exact iff_of_true ⟨_, rfl⟩ ⟨j, rfl⟩

/-- If the parsed representations may be read, each of them is read back. -/
lemma Sound.reads (sound : Sound (Json.Readable Json.maxDepth) records results) {row : RecordRow}
    (mem : row ∈ records.rows) : ∃ j, Json.parse row.parsed = .ok j := by
  obtain ⟨j, written, readable⟩ := sound.written row mem
  rw [written]
  exact Json.exists_parse_compact readable

/-- A record that lacks a pass is there for a database if its parsed representation is read back. -/
lemma Sound.lacks_iff (sound : Sound Given records results) (scores : List ScoreRow) (id : RecordId)
    (pass : String) :
    (∃ stored, (tables records results scores).record? id = some stored ∧ pass ∉ stored.completed) ↔
      (tables records results scores).Lacks id pass ∧ (tables records results scores).ReadsBack id := by
  cases hrow : Statement.rowOf? records id with
  | none =>
    refine iff_of_false ?_ ?_
    · rintro ⟨stored, there, -⟩
      obtain ⟨row, found, -⟩ := record?_tables.1 there
      cases hrow.symm.trans found
    · rintro ⟨⟨names, there, -⟩, -⟩
      cases (completed?_tables_of_none hrow).symm.trans there
  | some row =>
    obtain ⟨mem, -⟩ := rowOf?_eq_some hrow
    obtain ⟨names, listed, -⟩ := sound.listed row mem
    have completed : (tables records results scores).completed? id = some names :=
      completed?_tables hrow listed
    constructor
    · rintro ⟨stored, there, free⟩
      obtain ⟨row', found, read⟩ := record?_tables.1 there
      cases hrow.symm.trans found
      obtain ⟨-, rfl⟩ := RecordRow.record_eq read listed
      obtain ⟨j, parsed⟩ := (exists_record_iff listed).1 ⟨stored, read⟩
      exact ⟨⟨_, completed, free⟩, row, j, hrow, parsed⟩
    · rintro ⟨⟨names', there, free⟩, row', j, found, parsed⟩
      have found : Statement.rowOf? records id = some row' := found
      cases hrow.symm.trans found
      cases completed.symm.trans there
      obtain ⟨stored, read⟩ := (exists_record_iff listed).2 ⟨j, parsed⟩
      obtain ⟨-, rfl⟩ := RecordRow.record_eq read listed
      exact ⟨stored, record?_tables.2 ⟨row, hrow, read⟩, free⟩

end Relational

/-- Whatever was requested of a store, a commit goes through exactly when the record has a row whose
completed passes lack the pass; a database also has to read the parsed representation of the row back,
as it shows the record. Then the commit comes to the removal of a result of the pass, a new result,
and the completion of the pass, with the record that this shows; else it leaves everything as it was.
Each row is read back if the parsed representations that were ever stored may be read, as those may
that were read from a text. -/
theorem commit_whole (history : List (Timestamp × Request Record RecordId)) (record : Record)
    (result : PassResult) (now : Timestamp) :
    let s := Request.performAll MemoryStore.operations history {}
    let db := Request.performAll Database.operations history (Database.migrate {})
    MemoryStore.operations.CommitsWhole MemoryStore.dropped s record result now
      (∃ stored, s.record? record.id = some stored ∧ result.pass ∉ stored.completed) ∧
    Database.operations.CommitsWhole Database.dropped db record result now
      (db.Lacks record.id result.pass ∧ db.ReadsBack record.id) ∧
    ((∀ now new, (now, .upsert new) ∈ history → new.parsed.Readable Json.maxDepth) →
      ∀ id, (db.row? id).isSome = true → db.ReadsBack id) := by
  intro s db
  refine ⟨?_, ?_, fun readable id there => ?_⟩
  · obtain ⟨wf, -⟩ := MemoryStore.performAll_wellFormed MemoryStore.wellFormed_empty history
    exact MemoryStore.commitsWhole s wf record result now
  · obtain ⟨records, results, scores, eq, sound⟩ :=
      exists_tables history (fun _ => True) fun _ _ _ => trivial
    have eq : db = tables records results scores := eq
    rw [eq]
    have whole : Database.operations.CommitsWhole Database.dropped (tables records results scores) record
      result now _ := commitsWhole sound record result now
    exact { whole with goes := whole.goes.trans (sound.lacks_iff scores record.id result.pass) }
  · obtain ⟨records, results, scores, eq, sound⟩ :=
      exists_tables history (Json.Readable Json.maxDepth) readable
    have eq : db = tables records results scores := eq
    rw [eq] at there ⊢
    obtain ⟨row, found⟩ := Option.isSome_iff_exists.1 there
    obtain ⟨mem, -⟩ := rowOf?_eq_some found
    obtain ⟨j, parsed⟩ := sound.reads mem
    exact ⟨row, j, found, parsed⟩

/-- A commit replaces the result that was kept for its pass before, in memory and in a database. The
parsed representation was read from a text. -/
theorem commit_whole_of_kept :
    let text := "\x7b\"lines\":1,\"size\":2e3\x7d"
    let parsed : Json :=
      .obj [("lines", .int 1), ("size", .float (.finite false 8796093022208000 (-42)))]
    let new : NewRecord := ⟨"a.php", none, "x", "", parsed⟩
    let record := Record.ofNew 1 new 0
    let kept (body : String) : PassResult := ⟨"doc", "prompt", .text body, none, 5, 0⟩
    let history : List (Timestamp × Request Record RecordId) :=
      [(0, .upsert new), (1, .recordResult record (kept "old"))]
    let s := Request.performAll MemoryStore.operations history {}
    let db := Request.performAll Database.operations history (Database.migrate {})
    Json.parse text = .ok parsed ∧
      (∃ r, (MemoryStore.operations.commit record (kept "new") 2 s).1 = .ok r) ∧
      ∃ r, (Database.operations.commit record (kept "new") 2 db).1 = .ok r := by
  intro text parsed new record kept history s db
  have read : Json.parse text = .ok parsed := by
    simp only [text, parsed]
    rfl
  have readable : ∀ now new, (now, .upsert new) ∈ history → new.parsed.Readable Json.maxDepth := by
    intro now other mem
    simp only [history, List.mem_cons, Prod.mk.injEq, Request.upsert.injEq, reduceCtorEq, and_false,
      List.not_mem_nil, or_false] at mem
    obtain ⟨-, rfl⟩ := mem
    exact Json.readable_of_parse read
  obtain ⟨memory, database, reads⟩ := commit_whole history record (kept "new") 2
  obtain ⟨stored, found, free⟩ : ∃ stored, s.record? record.id = some stored ∧
      (kept "new").pass ∉ stored.completed := ⟨_, rfl, List.not_mem_nil⟩
  have listed : db.completed? record.id = some [] := by decide +kernel
  have there : (db.row? record.id).isSome = true := by decide +kernel
  exact ⟨read, memory.goes.2 ⟨stored, found, free⟩,
    database.goes.2 ⟨⟨[], listed, List.not_mem_nil⟩, reads readable record.id there⟩⟩

lemma eq_error_of_map {ε α : Type} {x : Except ε α} {e : ε} (h : (x.map fun _ => ()) = .error e) :
    x = .error e := by
  cases x with
  | error e' =>
    cases h
    rfl
  | ok a => cases h

/-- Arrays within each other, so many levels deep. -/
def Json.nest : Nat → Json
  | 0 => .null
  | n + 1 => .arr [nest n]

/-- The row of a record holds one level more than is read back. No pass is completed, and yet a commit
is refused, as the record cannot be shown. -/
theorem commit_of_deep :
    let new : NewRecord := ⟨"a.php", none, "x", "", Json.nest 128⟩
    let record := Record.ofNew 1 new 0
    let result : PassResult := ⟨"doc", "prompt", .text "kept", none, 5, 0⟩
    let db := Request.performAll Database.operations [(0, .upsert new)] (Database.migrate {})
    db.Lacks record.id result.pass ∧
      Database.operations.commit record result 1 db =
        (.error (.serialization "recursion limit exceeded at line 1 column 128"), db) := by
  intro new record result db
  have listed : db.completed? record.id = some [] := by decide +kernel
  have refused : ((Database.operations.commit record result 1 db).1.map fun _ => ()) =
      .error (.serialization "recursion limit exceeded at line 1 column 128") := by decide +kernel
  have failed := eq_error_of_map refused
  exact ⟨⟨[], listed, List.not_mem_nil⟩, Database.commit_of_error failed⟩

end Multipass
