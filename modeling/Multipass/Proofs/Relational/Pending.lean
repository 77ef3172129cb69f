import Multipass.Proofs.Batch.Accounting
import Multipass.Proofs.Relational.Overview

/-!
# Pending records in an overview

Which records of a database still need work is found out in three ways. An overview that compares
numbers of passes has the database count the items of each list of completed passes; one that looks
for each pass reads the text of each list, and takes one that it cannot read for empty; and a batch
loads the records. In a database that was made and saw nothing but requests each list was written as
names, which all three read alike. So they find the same number, for whatever order is configured by
now, as long as the batch can load the records: it reads all of each row, and the overview does not.

Main statements: `overview_pending`, and `overview_pending_of_deep` for a row that is not read.
-/

namespace Multipass

/-! ### What a run takes on -/

/-- Holds of the number of records that are selected by a run, as it tells at its start and reports at
its end. -/
def Selects {ω : Type} (shop : Workshop ω) (job : Job) (options : RunOptions) (w : ω) (n : Nat) :
    Prop :=
  ∃ outcome w', runAll shop job options w = (.ok outcome, w') ∧ outcome.report.pending = n ∧
    outcome.events.head? = some (.started job.runId n)

/-- A run fails where its store does not find the pending records. -/
lemma runAll_of_error {ω : Type} {shop : Workshop ω} {job : Job} {options : RunOptions} {w : ω}
    {e : StoreError}
    (failed : shop.environment.store.pending job.registry.order options.pendingCheck w = .error e) :
    runAll shop job options w = (.error e, w) := by
  rw [runAll, failed]

/-- A run without a limit selects all pending records. -/
lemma selects_of_pending {ω : Type} {shop : Workshop ω} {job : Job} {options : RunOptions} {w : ω}
    {found : List Record} (unlimited : options.limit = none)
    (read : shop.environment.store.pending job.registry.order options.pendingCheck w = .ok found) :
    Selects shop job options w found.length := by
  let begun := Batch.start job.runId options found
  have all : Batch.select options found = found := by rw [Batch.select, unlimited]
  have ran : runAll shop job options w =
      (.ok ⟨(begun.run shop job options w).1.report, (begun.run shop job options w).1.events⟩,
        (begun.run shop job options w).2) := by
    simp only [runAll, read, all]
    rfl
  obtain ⟨-, moves, eq⟩ := Batch.exists_moves shop job options begun w
  obtain ⟨entries, booked⟩ :=
    (Batch.booked_start job options found).through shop options w (moves.map .move)
  rw [Batch.through, List.foldl_map] at booked
  have booked : Batch.Booked job found entries (begun.run shop job options w).1 := eq ▸ booked
  obtain ⟨told, started, -⟩ := booked.posted.told
  exact ⟨_, _, ran, booked.posted.pending, by rw [started, List.head?_cons]⟩

namespace Relational

open Aggregate

variable {Given : Json → Prop} {order : List String} {check : PendingCheck}

/-! ### Rows and records -/

/-- What an overview finds out about a row holds of the record that is read from it. -/
lemma isPending_row {row : RecordRow} {r : Record} {names : List String}
    (listed : row.completed = writeNames names) (read : row.record = .ok r) :
    isPending order check row = .ok (r.isPending order check) := by
  obtain ⟨-, rfl⟩ := RecordRow.record_eq read listed
  cases check with
  | count => simp only [isPending, completedCount_eq listed, Record.isPending]
  | set =>
    simp only [isPending, listed, readNames_writeNames]
    rfl

/-- So many rows are pending as records that are read from them. -/
lemma countOf_rows {rows : List RecordRow} {rs : List Record}
    (listed : ∀ row ∈ rows, ∃ names, row.completed = writeNames names)
    (read : List.Forall₂ (fun r row => row.record = .ok r) rs rows) :
    countOf (isPending order check) rows =
      .ok (rs.filter fun r => r.isPending order check).length := by
  induction read with
  | nil => rfl
  | @cons r row rs rows head _ ih =>
    obtain ⟨⟨names, own⟩, others⟩ := List.forall_mem_cons.1 listed
    simp only [countOf, isPending_row own head, ih others, List.filter_cons]
    split <;> rfl

lemma countOf_pending {records : Table RecordRow} {results : Table ResultRow} {scores : List ScoreRow}
    (sound : Sound Given records results) {found : List Record}
    (read : Database.operations.pending order check (tables records results scores) = .ok found) :
    countOf (isPending order check) records.rows = .ok found.length := by
  have listed : ∀ row ∈ records.rows, ∃ names, row.completed = writeNames names := fun row mem =>
    (sound.listed row mem).imp fun _ => And.left
  simp only [ArtifactStore.pending] at read
  split at read <;> cases read
  next rs list => exact countOf_rows listed (readAll_related list)

/-- Rows are read one after the other exactly if each of them is read. -/
lemma exists_readAll_iff {α ρ : Type} {read : ρ → Except StoreError α} {rows : List ρ} :
    (∃ as, readAll read rows = .ok as) ↔ ∀ row ∈ rows, ∃ a, read row = .ok a := by
  induction rows with
  | nil => exact iff_of_true ⟨[], rfl⟩ nofun
  | cons row rows ih =>
    rw [List.forall_mem_cons, ← ih, readAll]
    cases read row with
    | error e =>
      refine iff_of_false ?_ ?_
      · rintro ⟨as, ⟨⟩⟩
      · rintro ⟨⟨a, ⟨⟩⟩, -⟩
    | ok a =>
      cases readAll read rows with
      | error e =>
        refine iff_of_false ?_ ?_
        · rintro ⟨as, ⟨⟩⟩
        · rintro ⟨-, as, ⟨⟩⟩
      | ok as => exact iff_of_true ⟨_, rfl⟩ ⟨⟨a, rfl⟩, as, rfl⟩

/-- The store finds its pending records exactly if the parsed representation of each row is read
back. -/
lemma exists_pending_iff {records : Table RecordRow} {results : Table ResultRow}
    (sound : Sound Given records results) (scores : List ScoreRow) :
    (∃ found, Database.operations.pending order check (tables records results scores) = .ok found) ↔
      ∀ row ∈ records.rows, ∃ j, Json.parse row.parsed = .ok j := by
  have list : Database.operations.list (tables records results scores) =
      readAll RecordRow.record records.rows := rfl
  have each : (∀ row ∈ records.rows, ∃ r, row.record = .ok r) ↔
      ∀ row ∈ records.rows, ∃ j, Json.parse row.parsed = .ok j := by
    refine forall₂_congr fun row mem => ?_
    obtain ⟨names, listed, -⟩ := sound.listed row mem
    exact exists_record_iff listed
  rw [← each, ← exists_readAll_iff, ArtifactStore.pending, list]
  cases readAll RecordRow.record records.rows with
  | error e =>
    refine iff_of_false ?_ ?_
    · rintro ⟨found, ⟨⟩⟩
    · rintro ⟨rs, ⟨⟩⟩
  | ok rs => exact iff_of_true ⟨_, rfl⟩ ⟨rs, rfl⟩

/-- The counts of records that are shown, whatever comes behind them. -/
def counted? : Except OverviewFault Overview → Option RecordCounts
  | .ok o => some o.toRecordCounts
  | .error (.uncounted _) => none
  | .error (.unsummed counts _) => some counts
  | .error (.panicked counts) => some counts
  | .error (.unaveraged o) => some o.toRecordCounts

lemma counted?_overview {db : Database} {counts : RecordCounts}
    (h : db.counts order check = .ok counts) : counted? (db.overview order check) = some counts := by
  rw [Database.overview, h]
  dsimp only
  split
  · rfl
  · split
    · split <;> rfl
    · rfl

/-- A database was made and saw nothing but requests. For every order and either check its overview
shows a number of pending records. The store finds its pending records exactly if the parsed
representation of each row is read back, as it is if those that were ever stored may be read. Then
they are as many, and every run without a limit selects so many that has this order and this check
and whose store lists what the database lists. -/
theorem overview_pending (history : List (Timestamp × Request Record RecordId))
    (order : List String) (check : PendingCheck) :
    let db := Request.performAll Database.operations history (Database.migrate {})
    ∃ records counts, db.records = some records ∧
      counted? (db.overview order check) = some counts ∧
      ((∃ found, Database.operations.pending order check db = .ok found) ↔
        ∀ row ∈ records.rows, ∃ j, Json.parse row.parsed = .ok j) ∧
      ((∀ now new, (now, .upsert new) ∈ history → new.parsed.Readable Json.maxDepth) →
        ∀ row ∈ records.rows, ∃ j, Json.parse row.parsed = .ok j) ∧
      ∀ found, Database.operations.pending order check db = .ok found →
        found.length = counts.pending ∧
        ∀ {ω : Type} (shop : Workshop ω) (job : Job) (options : RunOptions) (w : ω),
          shop.environment.store.list w = Database.operations.list db →
          job.registry.order = order → options.pendingCheck = check → options.limit = none →
            Selects shop job options w counts.pending := by
  intro db
  obtain ⟨records, results, scores, eq, sound⟩ :=
    exists_tables history (fun _ => True) fun _ _ _ => trivial
  have eq : db = tables records results scores := eq
  have table : db.records = some records := congrArg Database.records eq
  obtain ⟨pending, rows, counts⟩ := exists_counts sound scores order check
  rw [← eq] at counts
  refine ⟨records, _, table, counted?_overview counts, ?_, fun readable => ?_, fun found read => ?_⟩
  · show (∃ found, Database.operations.pending order check db = .ok found) ↔ _
    rw [eq]
    exact exists_pending_iff sound scores
  · obtain ⟨records', _, _, eq', sound⟩ := exists_tables history (Json.Readable Json.maxDepth) readable
    have table' : db.records = some records' := congrArg Database.records eq'
    cases table.symm.trans table'
    exact fun _ => sound.reads
  · have same : found.length = pending := by
      have read : Database.operations.pending order check db = .ok found := read
      rw [eq] at read
      exact Except.ok.inj ((countOf_pending sound read).symm.trans rows)
    refine ⟨same, ?_⟩
    rintro ω shop job options w lists rfl rfl unlimited
    have read : shop.environment.store.pending job.registry.order options.pendingCheck w =
        .ok found := by
      rw [← read, ArtifactStore.pending, ArtifactStore.pending, lists]
    exact same ▸ selects_of_pending unlimited read

/-- What a batch acts on that has a database to itself, with the claims of records beside it, and
whose backends always give the same reply. -/
def office (reply : Reply) : Workshop (Database × List RecordId) where
  environment := {
    store := Database.operations.embed Prod.fst fun db w => (db, w.2)
    backends := ⟨⟨"ai", fun _ _ w => (reply, w)⟩, ⟨"static_tool", fun _ _ w => (reply, w)⟩⟩
    clock := fun _ => 0
    isCancelled := fun _ => false }
  claimed := Prod.snd
  setClaimed claimed w := (w.1, claimed)

lemma runAll_office {reply : Reply} {job : Job} {options : RunOptions} {db : Database}
    {claimed : List RecordId} {e : StoreError}
    (failed : Database.operations.pending job.registry.order options.pendingCheck db = .error e) :
    runAll (office reply) job options (db, claimed) = (.error e, (db, claimed)) :=
  runAll_of_error failed

/-- A reply that says nothing. -/
def silence : Reply :=
  .output ⟨"", .text "", none⟩

/-- The order names another pass than the one that a record completed. By numbers of passes the other
record is pending, by passes both are, and so say the overview, the store, and a run. -/
theorem overview_pending_of_renamed :
    let new (path : String) : NewRecord := ⟨path, none, "x", "", .null⟩
    let history : List (Timestamp × Request Record RecordId) :=
      [(0, .upsert (new "a.php")), (0, .upsert (new "b.php")),
        (0, .advance (.ofNew 1 (new "a.php") 0) "doc")]
    let db := Request.performAll Database.operations history (Database.migrate {})
    let shown (check : PendingCheck) (n : Nat) : Prop :=
      (∃ o, db.overview ["lint"] check = .ok o ∧ o.pending = n) ∧
        (∃ found, Database.operations.pending ["lint"] check db = .ok found ∧ found.length = n) ∧
        Selects (office silence) (.single "lint") { pendingCheck := check } (db, []) n
    shown .count 1 ∧ shown .set 2 := by
  intro new history db shown
  have readable : ∀ now new, (now, .upsert new) ∈ history → new.parsed.Readable Json.maxDepth := by
    intro now other mem
    simp only [history, List.mem_cons, Prod.mk.injEq, Request.upsert.injEq, reduceCtorEq, and_false,
      List.not_mem_nil, or_false] at mem
    obtain ⟨-, rfl⟩ | ⟨-, rfl⟩ := mem <;> exact .null
  have shows (check : PendingCheck) (n : Nat)
      (there : ((db.overview ["lint"] check).map fun o => o.pending).toOption = some n) :
      shown check n := by
    obtain ⟨records, counts, -, counted, finds, reads, runs⟩ :=
      overview_pending history ["lint"] check
    have counted : counted? (db.overview ["lint"] check) = some counts := counted
    obtain ⟨found, read⟩ := finds.2 (reads readable)
    obtain ⟨length, selects⟩ := runs found read
    cases overview : db.overview ["lint"] check with
    | error fault =>
      rw [overview] at there
      cases there
    | ok o =>
      rw [overview] at there counted
      cases counted
      obtain rfl : o.pending = n := Option.some.inj there
      exact ⟨⟨o, overview, rfl⟩, ⟨found, read, length⟩,
        selects (office silence) (.single "lint") { pendingCheck := check } (db, []) rfl rfl rfl rfl⟩
  exact ⟨shows .count 1 (by decide +kernel), shows .set 2 (by decide +kernel)⟩

/-- The row of a record holds one level more than is read back. The overview shows the record as
pending, and the store finds no pending records but fails, as does a run. -/
theorem overview_pending_of_deep :
    let new : NewRecord := ⟨"a.php", none, "x", "", Json.nest 128⟩
    let db := Request.performAll Database.operations [(0, .upsert new)] (Database.migrate {})
    let e : StoreError := .serialization "recursion limit exceeded at line 1 column 128"
    db.overview ["doc"] .count = .ok ⟨⟨1, 1, 0⟩, [], []⟩ ∧
      Database.operations.pending ["doc"] .count db = .error e ∧
      (runAll (office silence) (.single "doc") {} (db, [])).1 = .error e := by
  intro new db e
  have refused : ((Database.operations.pending ["doc"] .count db).map fun _ => ()) = .error e := by
    decide +kernel
  have failed := eq_error_of_map refused
  refine ⟨by decide +kernel, failed, ?_⟩
  have ran : runAll (office silence) (.single "doc") {} (db, []) = (.error e, (db, [])) :=
    runAll_office failed
  rw [ran]

end Relational

end Multipass
