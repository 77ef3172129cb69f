import Multipass.Proofs.Ingest.Catalogue
import Multipass.Proofs.Relational.Paths
import Multipass.Proofs.Relational.Revision

/-!
# Artifacts that are ingested again

Both stores keep a catalogue. So they agree on what ingesting comes to: records keep their numbers
and passes, those of other artifacts stay as they are, and what was just ingested is found unchanged.
They differ in how a parsed representation stands in a record: as it is, or as its compact text. The
text is read back only when the record is asked for, and the double that is read need not be the one
that was written.

Main statements: `Ingest.ingest_renews`, and `Ingest.ingest_of_ratio` for a double that is read as
another one.
-/

namespace Multipass

open Number

namespace Json

/-! ### Values that are the same as themselves -/

/-- Holds of a value in which no double is undefined. -/
inductive Numeric : Json → Prop where
  | null :
    Numeric .null
  | bool {b} :
    Numeric (.bool b)
  | int {i} :
    Numeric (.int i)
  | float {x} :
    x ≠ .nan →
    Numeric (.float x)
  | str {s} :
    Numeric (.str s)
  | arr {js} :
    (∀ j ∈ js, Numeric j) →
    Numeric (.arr js)
  | obj {fs} :
    (∀ f ∈ fs, Numeric f.2) →
    Numeric (.obj fs)

lemma eq_self {x : Double} (defined : x ≠ .nan) : x.eq x = true := by
  cases x with
  | nan => exact absurd rfl defined
  | infinite negative => cases negative <;> rfl
  | finite negative m e => simp [Binary.eq, Binary.lt]

lemma sameItems_self {js : List Json} (each : ∀ j ∈ js, same j j = true) : sameItems js js = true := by
  induction js with
  | nil => rfl
  | cons j js ih =>
    rw [sameItems, each j List.mem_cons_self, ih fun k mem => each k (List.mem_cons_of_mem j mem)]
    rfl

lemma sameFields_self {fs : List (String × Json)} (each : ∀ f ∈ fs, same f.2 f.2 = true) :
    sameFields fs fs = true := by
  induction fs with
  | nil => rfl
  | cons f fs ih =>
    rw [sameFields, each f List.mem_cons_self, ih fun g mem => each g (List.mem_cons_of_mem f mem),
      beq_self_eq_true]
    rfl

lemma Numeric.same_self {j : Json} (numeric : j.Numeric) : same j j = true := by
  induction numeric with
  | null => rfl
  | bool => simp [same]
  | int => simp [same]
  | float defined => exact eq_self defined
  | str => simp [same]
  | arr _ ih => exact sameItems_self ih
  | obj _ ih => exact sameFields_self ih

end Json

/-! ### Records in memory -/

/-- Records list artifacts as they are. -/
def Record.catalogue : Catalogue Record (Int × List String × Timestamp) where
  id := Record.id
  path := Record.path
  source := Record.source
  hash := Record.hash
  passes r := (r.passIndex, r.completed, r.createdAt)
  gives r j := r.parsed.same j
  make := Record.ofNew
  refresh := Record.refresh
  Fits := Json.Numeric
  gives_make _ _ _ := Json.Numeric.same_self
  gives_refresh _ _ _ := Json.Numeric.same_self

namespace MemoryStore

theorem keeps (s : MemoryStore) : Record.catalogue.Keeps operations fun next records =>
    { s with nextId := next, records } := by
  intro new now next records keyed
  simp only [operations, upsert]
  cases found : recordAt? { s with nextId := next, records } new.path with
  | none =>
    have free := recordAt?_eq_none.1 found
    exact ⟨_, _, _, rfl, .inserted free⟩
  | some old =>
    obtain ⟨mem, eq⟩ := recordAt?_eq_some found
    by_cases held : (old.hash == new.hash && old.parsed.same new.parsed) = true
    · exact ⟨_, next, records, if_pos held, .unchanged mem eq held⟩
    · have stale : Record.catalogue.holds new old = false := Bool.eq_false_iff.2 held
      exact ⟨_, next, _, if_neg held, keyed.updated mem eq stale (Int.le_refl next)⟩

/-- What holds of every store in memory is enough for its catalogue. -/
lemma WellFormed.keyed {s : MemoryStore} (wf : s.WellFormed) :
    Record.catalogue.Keyed s.nextId s.records where
  ids := wf.ascending.imp Int.ne_of_lt
  below r mem := wf.below r.id (List.mem_map_of_mem mem)
  paths := wf.paths

lemma get_of_mem {s : MemoryStore} {next : RecordId} (keyed : Record.catalogue.Keyed next s.records)
    {r : Record} (mem : r ∈ s.records) : operations.get r.path s = .ok (some r) := by
  cases found : s.recordAt? r.path with
  | none => exact absurd (List.mem_map_of_mem mem) (recordAt?_eq_none.1 found)
  | some other =>
    obtain ⟨mem', eq⟩ := recordAt?_eq_some found
    exact congrArg Except.ok (found.trans (congrArg some (keyed.eq_of_path mem' mem eq)))

end MemoryStore

/-! ### Records in a database -/

namespace Relational

/-- Rows list artifacts with the compact text of their parsed representations. -/
def RecordRow.catalogue : Catalogue RecordRow (Int × String × Timestamp) where
  id := RecordRow.id
  path := RecordRow.path
  source := RecordRow.source
  hash := RecordRow.hash
  passes row := (row.passIndex, row.completed, row.createdAt)
  gives row j := row.parsed == j.compact
  make next new now := {
    id := next
    path := new.path
    language := new.language
    source := new.source
    hash := new.hash
    parsed := new.parsed.compact
    passIndex := 0
    completed := "[]"
    createdAt := now
    updatedAt := now }
  refresh row new now := { row with
    language := new.language
    source := new.source
    hash := new.hash
    parsed := new.parsed.compact
    updatedAt := now }
  Fits _ := True
  gives_make _ _ _ _ := beq_self_eq_true _
  gives_refresh _ _ _ _ := beq_self_eq_true _

lemma rowAt?_eq_some {t : Table RecordRow} {path : String} {row : RecordRow}
    (h : Statement.rowAt? t path = some row) : row ∈ t.rows ∧ row.path = path :=
  ⟨List.mem_of_find?_eq_some h, by simpa using List.find?_some h⟩

lemma rowAt?_eq_none {t : Table RecordRow} {path : String} :
    Statement.rowAt? t path = none ↔ path ∉ t.rows.map RecordRow.path := by
  simp [Statement.rowAt?]

section

variable {db : Database} {t : Table RecordRow} {old : RecordRow} {new : NewRecord}

/-- The hash and the text that the row of a path has are asked for first. -/
lemma contentOf_run (there : db.records = some t) (path : String) :
    (Statement.contentOf path).run db =
      (.ok ((Statement.rowAt? t path).map fun row => (row.hash, row.parsed)), db) := by
  simp only [Statement.run, Statement.ask, there]

lemma putRecord_run (there : db.records = some t) (new : NewRecord) (now : Timestamp) :
    (Statement.putRecord new.path new.language new.source new.hash new.parsed.compact now).run db =
      (.ok (), ⟨some (Statement.upsert t new.path new.language new.source new.hash
        new.parsed.compact now), db.results, db.scores⟩) := by
  simp only [Statement.run, Statement.change, there]
  rfl

lemma upsert_of_none (there : db.records = some t) (free : Statement.rowAt? t new.path = none)
    (now : Timestamp) :
    (Transaction.upsert new now).run db = (.ok .inserted,
      ⟨some ⟨t.rows ++ [RecordRow.catalogue.make (t.lastId + 1) new now], t.lastId + 1⟩,
        db.results, db.scores⟩) := by
  have content := contentOf_run there new.path
  rw [free, Option.map_none] at content
  refine (runFrom_require content).trans ((runFrom_require (putRecord_run there new now)).trans ?_)
  rw [Statement.upsert, free]
  rfl

lemma upsert_of_holds (there : db.records = some t) (found : Statement.rowAt? t new.path = some old)
    (held : RecordRow.catalogue.holds new old = true) (now : Timestamp) :
    (Transaction.upsert new now).run db = (.ok .unchanged, db) := by
  have content := contentOf_run there new.path
  rw [found, Option.map_some] at content
  have held : (old.hash == new.hash && old.parsed == new.parsed.compact) = true := held
  refine (runFrom_require content).trans ?_
  simp only [held, if_true, Transaction.runFrom]

lemma upsert_of_not_holds (there : db.records = some t)
    (found : Statement.rowAt? t new.path = some old)
    (stale : RecordRow.catalogue.holds new old = false) (now : Timestamp) :
    (Transaction.upsert new now).run db = (.ok .updated,
      ⟨some ⟨t.rows.map fun row =>
          if row.id = old.id then RecordRow.catalogue.refresh row new now else row, t.lastId + 1⟩,
        db.results, db.scores⟩) := by
  have content := contentOf_run there new.path
  rw [found, Option.map_some] at content
  have stale : (old.hash == new.hash && old.parsed == new.parsed.compact) = false := stale
  refine (runFrom_require content).trans ?_
  simp only [stale, Bool.false_eq_true, if_false]
  refine (runFrom_require (putRecord_run there new now)).trans ?_
  rw [Statement.upsert, found]
  rfl

end

namespace Database

/-- The database with other rows of records, and the number for the next one. -/
def withRows (db : Database) (next : RecordId) (rows : List RecordRow) : Database :=
  { db with records := some ⟨rows, next - 1⟩ }

lemma withRows_succ (db : Database) (next : RecordId) (rows : List RecordRow) :
    db.withRows (next + 1) rows = ⟨some ⟨rows, next⟩, db.results, db.scores⟩ := by
  rw [withRows, Int.add_sub_cancel]

theorem keeps (db : Database) : RecordRow.catalogue.Keeps operations db.withRows := by
  intro new now next rows keyed
  have there : (db.withRows next rows).records = some ⟨rows, next - 1⟩ := rfl
  cases found : Statement.rowAt? ⟨rows, next - 1⟩ new.path with
  | none =>
    have put := upsert_of_none there found now
    simp only [Int.sub_add_cancel] at put
    refine ⟨.inserted, next + 1, _, ?_, .inserted (rowAt?_eq_none.1 found)⟩
    rw [withRows_succ]
    exact put
  | some old =>
    obtain ⟨mem, eq⟩ := rowAt?_eq_some found
    cases held : RecordRow.catalogue.holds new old with
    | true =>
      have put := upsert_of_holds there found held now
      exact ⟨.unchanged, next, rows, put, .unchanged mem eq held⟩
    | false =>
      have put := upsert_of_not_holds there found held now
      simp only [Int.sub_add_cancel] at put
      have le : next ≤ next + 1 := Int.le_of_lt (Int.lt_succ next)
      refine ⟨.updated, next + 1, _, ?_, keyed.updated mem eq held le⟩
      rw [withRows_succ]
      exact put

lemma get_of_mem {db : Database} {t : Table RecordRow} (there : db.records = some t) {next : RecordId}
    (keyed : RecordRow.catalogue.Keyed next t.rows) {row : RecordRow} (mem : row ∈ t.rows) :
    operations.get row.path db = row.record.map some := by
  have found : Statement.rowAt? t row.path = some row := by
    cases found : Statement.rowAt? t row.path with
    | none => exact absurd (List.mem_map_of_mem mem) (rowAt?_eq_none.1 found)
    | some other =>
      obtain ⟨mem', eq⟩ := rowAt?_eq_some found
      rw [keyed.eq_of_path mem' mem eq]
  simp only [operations, ask, Statement.run, Statement.ask, there, found, readOption]
  cases row.record <;> rfl

/-- What holds of every database that saw nothing but requests is enough for its catalogue. -/
lemma keyed_performAll (history : List (Timestamp × Request Record RecordId)) :
    ∃ t, (Request.performAll operations history (migrate {})).records = some t ∧
      RecordRow.catalogue.Keyed (t.lastId + 1) t.rows ∧
      ∀ row ∈ t.rows, ∃ names : List String, row.completed = writeNames names := by
  obtain ⟨t, results, scores, state, sound⟩ : ∃ t results scores,
      Request.performAll operations history (tables {} {} []) = tables t results scores ∧
        Sound (fun _ => True) t results :=
    sound_performAll (fun _ _ _ => trivial) sound_empty []
  have records : (Request.performAll operations history (migrate {})).records = some t :=
    congrArg Database.records state
  refine ⟨t, records, ?_, fun row mem => ?_⟩
  · exact {
      ids := sound.ascending.imp Int.ne_of_lt
      below := fun row mem => Int.lt_add_one_of_le (sound.below row.id (List.mem_map_of_mem mem))
      paths := apart_performAll history t records }
  · obtain ⟨names, listed, -⟩ := sound.listed row mem
    exact ⟨names, listed⟩

end Database

end Relational

/-! ### Both stores -/

namespace Ingest

open Relational (Database RecordRow readNames)

lemma eq_ok_of_toOption {ε α : Type} {x : Except ε α} {a : α} (h : x.toOption = some a) :
    x = .ok a := by
  cases x <;> cases h
  rfl

variable {digest : String → String} {news : List NewRecord}

/-- Artifacts with different paths, with hashes that tell their sources apart, are ingested in a store
of either kind whose records have numbers and paths of their own. Nothing else in the store changes,
and whenever they are ingested again nothing changes at all. A record in memory is shown with the
parsed representation of its artifact; one in a database holds its compact text, and is shown with
what is read of that text: the parsed representation, if its numbers are integers. -/
theorem ingest_renews (injective : Function.Injective digest)
    (distinct : (news.map NewRecord.path).Nodup)
    (hashed : ∀ new ∈ news, new.hash = digest new.source)
    (numeric : ∀ new ∈ news, new.parsed.Numeric) (now : Timestamp) :
    (∀ s : MemoryStore, Record.catalogue.Keyed s.nextId s.records → ∃ summary s',
      ingest MemoryStore.operations now news s = (.ok summary, s') ∧
      Record.catalogue.Ingested digest news now s.records summary s'.records ∧
      s'.results = s.results ∧ s'.scores = s.scores ∧
      (∀ r ∈ s'.records, MemoryStore.operations.get r.path s' = .ok (some r)) ∧
      ∀ later, ingest MemoryStore.operations later news s' =
        (.ok { scanned := news.length, unchanged := news.length }, s')) ∧
    (∀ (db : Database) t, db.records = some t →
      RecordRow.catalogue.Keyed (t.lastId + 1) t.rows → ∃ summary db' t',
      ingest Database.operations now news db = (.ok summary, db') ∧ db'.records = some t' ∧
      RecordRow.catalogue.Ingested digest news now t.rows summary t'.rows ∧
      db'.results = db.results ∧ db'.scores = db.scores ∧
      (∀ row ∈ t'.rows, Database.operations.get row.path db' = row.record.map some) ∧
      ((∀ row ∈ t.rows, ∃ names, readNames row.completed = .ok names) → ∀ new ∈ news,
        (∀ j, (∃ r, Database.operations.get new.path db' = .ok (some r) ∧ r.parsed = j) ↔
          Json.parseNamed new.parsed.compact = .ok j) ∧
        (new.parsed.Plain → Json.parseNamed new.parsed.compact = .ok new.parsed)) ∧
      ∀ later, ingest Database.operations later news db' =
        (.ok { scanned := news.length, unchanged := news.length }, db')) := by
  constructor
  · intro s keyed
    obtain ⟨summary, next', records', put, ingested, keyed', again⟩ :=
      s.keeps.ingest keyed injective distinct hashed numeric now
    exact ⟨summary, _, put, ingested, rfl, rfl, fun r mem => MemoryStore.get_of_mem keyed' mem, again⟩
  · intro db t there keyed
    have start : db.withRows (t.lastId + 1) t.rows = db := by
      rw [Database.withRows, Int.add_sub_cancel, ← there]
    obtain ⟨summary, next', rows', put, ingested, keyed', again⟩ :=
      db.keeps.ingest keyed injective distinct hashed (fun _ _ => trivial) now
    rw [start] at put
    have shown {row : RecordRow} (mem : row ∈ rows') :
        Database.operations.get row.path (db.withRows next' rows') = row.record.map some :=
      Database.get_of_mem rfl keyed' mem
    refine ⟨summary, _, ⟨rows', next' - 1⟩, put, rfl, ingested, rfl, rfl, fun row mem => shown mem,
      fun readable new mem => ⟨fun j => ?_, Json.parseNamed_compact⟩, again⟩
    obtain ⟨row, mem', eq, -, given, -⟩ := ingested.stored new mem
    have text : row.parsed = new.parsed.compact := beq_iff_eq.1 given
    -- The row has the passes of a row that was there, or none.
    obtain ⟨names, listed⟩ : ∃ names, readNames row.completed = .ok names := by
      obtain ⟨old, old_mem, stays⟩ | ⟨other, -, -, next, rfl⟩ := ingested.origin row mem'
      · have passes := stays.passes
        rw [show row.completed = old.completed from congrArg (fun p => p.2.1) passes]
        exact readable old old_mem
      · exact ⟨[], Relational.readNames_writeNames []⟩
    rw [← eq, show Database.operations.get (RecordRow.catalogue.path row) _ = _ from shown mem', ← text,
      RecordRow.record, listed]
    cases Json.parseNamed row.parsed with
    | error reason => simp [Except.map]
    | ok parsed => simp [Except.map]

/-- A record with a completed pass is refreshed, another one is added, and a third one stays. -/
theorem ingest_renews_of_two :
    let old : NewRecord := ⟨"a.php", some "php", "x", "x", .null⟩
    let other : NewRecord := ⟨"c.php", some "php", "z", "z", .null⟩
    let history : List (Timestamp × Request Record RecordId) :=
      [(0, .upsert old), (0, .upsert other), (1, .advance (.ofNew 1 old 0) "doc")]
    let s := Request.performAll MemoryStore.operations history {}
    let db := Request.performAll Database.operations history (Database.migrate {})
    let half : Double := .finite false 4503599627370496 (-53)
    let news : List NewRecord := [
      ⟨"a.php", some "php", "x", "x", .obj [("ratio", .float half)]⟩,
      ⟨"b.php", some "php", "y", "y", .null⟩]
    (news.map NewRecord.path).Nodup ∧ (∀ new ∈ news, new.hash = new.source) ∧
    (∀ new ∈ news, new.parsed.Numeric) ∧
    Record.catalogue.Keyed s.nextId s.records ∧
    (∃ s', ingest MemoryStore.operations 5 news s = (.ok ⟨2, 1, 1, 0⟩, s') ∧
      (s'.records.map fun r => (r.id, r.path, r.completed)) =
        [(1, "a.php", ["doc"]), (2, "c.php", []), (3, "b.php", [])] ∧
      ∀ later, ingest MemoryStore.operations later news s' = (.ok ⟨2, 0, 0, 2⟩, s')) ∧
    ∃ t db', db.records = some t ∧ RecordRow.catalogue.Keyed (t.lastId + 1) t.rows ∧
      ingest Database.operations 5 news db = (.ok ⟨2, 1, 1, 0⟩, db') ∧
      ∀ later, ingest Database.operations later news db' = (.ok ⟨2, 0, 0, 2⟩, db') := by
  intro old other history s db half news
  have distinct : (news.map NewRecord.path).Nodup := by decide
  have hashed : ∀ new ∈ news, new.hash = new.source := by
    intro new mem
    simp only [news, List.mem_cons, List.not_mem_nil, or_false] at mem
    obtain rfl | rfl := mem <;> rfl
  have numeric : ∀ new ∈ news, new.parsed.Numeric := by
    intro new mem
    simp only [news, List.mem_cons, List.not_mem_nil, or_false] at mem
    obtain rfl | rfl := mem
    · refine .obj fun f mem => ?_
      rw [List.mem_singleton.1 mem]
      exact .float fun eq => Binary.noConfusion eq
    · exact .null
  have keyed : Record.catalogue.Keyed s.nextId s.records :=
    (MemoryStore.performAll_wellFormed MemoryStore.wellFormed_empty history).1.keyed
  obtain ⟨t, there, keyed', -⟩ := Database.keyed_performAll history
  obtain ⟨memory, database⟩ :=
    ingest_renews Function.injective_id distinct hashed numeric 5
  obtain ⟨summary, s', put, -, -, -, -, again⟩ := memory s keyed
  obtain ⟨summary', db', -, put', -, -, -, -, -, -, again'⟩ := database db t there keyed'
  have answer : (ingest MemoryStore.operations 5 news s).1.toOption = some ⟨2, 1, 1, 0⟩ := by
    decide +kernel
  have answer' : (ingest Database.operations 5 news db).1.toOption = some ⟨2, 1, 1, 0⟩ := by
    decide +kernel
  have rows : ((ingest MemoryStore.operations 5 news s).2.records.map
      fun r => (r.id, r.path, r.completed)) =
      [(1, "a.php", ["doc"]), (2, "c.php", []), (3, "b.php", [])] := by
    decide +kernel
  rw [put] at answer rows
  rw [put'] at answer'
  cases answer
  cases answer'
  exact ⟨distinct, hashed, numeric, keyed, ⟨s', put, rows, again⟩, t, db', there, keyed', put', again'⟩

/-- The value of a sidecar is ingested, and found unchanged when it is ingested again. Its text in the
database is that of the value, but what is read of the text is the next double, so the record is
shown with another value than the one that was listed. In memory it is shown with that one. -/
theorem ingest_of_ratio :
    let listed := (Json.parse "\x7b\"ratio\": 1.77837990970900226\x7d").toOption.getD .null
    let new : NewRecord := ⟨"a.php", some "php", "<?php // a.php\n", "<?php // a.php\n", listed⟩
    let db := (ingest Database.operations 0 [new] (Database.migrate {})).2
    let s := (ingest MemoryStore.operations 0 [new] {}).2
    listed.compact = "\x7b\"ratio\":1.7783799097090023\x7d" ∧
    (ingest Database.operations 0 [new] (Database.migrate {})).1 = .ok ⟨1, 1, 0, 0⟩ ∧
    (ingest Database.operations 1 [new] db).1 = .ok ⟨1, 0, 0, 1⟩ ∧
    (∃ r, Database.operations.get "a.php" db = .ok (some r) ∧
      r.parsed.compact = "\x7b\"ratio\":1.7783799097090025\x7d" ∧ r.parsed ≠ listed) ∧
    ∃ r, MemoryStore.operations.get "a.php" s = .ok (some r) ∧ r.parsed = listed := by
  intro listed new db s
  have text : listed.compact = "\x7b\"ratio\":1.7783799097090023\x7d" := by decide +kernel
  have first : (ingest Database.operations 0 [new] (Database.migrate {})).1.toOption =
      some ⟨1, 1, 0, 0⟩ := by decide +kernel
  have second : (ingest Database.operations 1 [new] db).1.toOption = some ⟨1, 0, 0, 1⟩ := by
    decide +kernel
  have shown : (Database.operations.get "a.php" db).toOption.map
      (Option.map fun r => r.parsed.compact) =
      some (some "\x7b\"ratio\":1.7783799097090025\x7d") := by decide +kernel
  refine ⟨text, eq_ok_of_toOption first, eq_ok_of_toOption second, ?_, _, rfl, rfl⟩
  obtain ⟨answer, got, there⟩ := Option.map_eq_some_iff.1 shown
  obtain ⟨r, rfl, read⟩ := Option.map_eq_some_iff.1 there
  refine ⟨r, eq_ok_of_toOption got, read, fun same => ?_⟩
  rw [same, text] at read
  exact absurd read (by decide)

end Ingest

end Multipass
