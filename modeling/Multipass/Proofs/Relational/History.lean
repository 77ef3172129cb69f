import Mathlib.Tactic.Lemma
import Multipass.Proofs.Store.Request
import Multipass.Store.Relational.Operations

/-!
# What statements keep

A statement that only reads leaves the database, and each of the others leaves the tables that it is
not about. A property of databases that each statement keeps is kept by each transaction, whether or
not the transaction is, by each request, and by each history of requests.

The rows of results are those that were inserted: what holds of each result that requests give holds of
each row, if it does not look at the number of the row.

Main statements: `Statement.Kept.performAll` and `Database.ResultRows.performAll`.
-/

namespace Multipass

/-- The result that a request gives, for a record. -/
def Request.given? : Request Record RecordId → Option (Record × PassResult)
  | .recordResult record result => some (record, result)
  | .commit record result => some (record, result)
  | _ => none

namespace Relational

namespace Statement

variable {db : Database}

/-! ### One statement -/

lemma ask_snd {ρ α : Type} (name : String) (table : Option ρ) (f : ρ → α) :
    (ask db name table f).2 = db := by
  simp only [ask]
  split <;> rfl

/-- A part of the database stays if the change would leave it in each case. -/
lemma change_snd {γ ρ : Type} (part : Database → γ) (name : String) (table : Option ρ)
    {f : ρ → Database} (same : ∀ t, part (f t) = part db) :
    part (change db name table f).2 = part db := by
  simp only [change]
  split
  · exact same _
  · rfl

lemma dropUncompleted_snd (db : Database) (id : RecordId) (pass : String) :
    ∃ results, (dropUncompleted db id pass).2 = { db with results } := by
  simp only [dropUncompleted]
  split
  · exact ⟨_, rfl⟩
  · exact ⟨_, rfl⟩
  · split
    · split <;> exact ⟨_, rfl⟩
    · exact ⟨_, rfl⟩

lemma addResult_snd (db : Database) (row : ResultRow) :
    ∃ results, (addResult db row).2 = { db with results } := by
  simp only [addResult]
  split
  · exact ⟨_, rfl⟩
  · exact ⟨_, rfl⟩
  · split
    · exact ⟨_, rfl⟩
    · split <;> exact ⟨_, rfl⟩

lemma addScore_snd (db : Database) (id : RecordId) (metric : String) (value : Number.Double) :
    ∃ scores, (addScore db id metric value).2 = { db with scores } := by
  simp only [addScore]
  split
  · exact ⟨_, rfl⟩
  · exact ⟨_, rfl⟩
  · split
    · exact ⟨_, rfl⟩
    · split <;> exact ⟨_, rfl⟩

end Statement

/-! ### Histories -/

/-- Holds of a property of databases that no statement breaks. -/
def Statement.Kept (P : Database → Prop) : Prop :=
  ∀ (s : Statement) (db : Database), P db → P (s.run db).2

namespace Statement.Kept

variable {α : Type} {P : Database → Prop} {start db : Database}

lemma runFrom (kept : Kept P) (begun : P start) (t : Transaction α) (holds : P db) :
    P (t.runFrom start db).2 := by
  induction t generalizing db with
  | commit a => exact holds
  | rollback answer => exact begun
  | perform s next ih => exact ih (s.run db).1 (kept s db holds)

lemma run (kept : Kept P) (t : Transaction α) (holds : P db) : P (t.run db).2 :=
  kept.runFrom holds t holds

lemma perform (kept : Kept P) (now : Timestamp) (request : Request Record RecordId) (holds : P db) :
    P (request.perform Database.operations now db).2 := by
  cases request with
  | upsert new => exact kept.run (Transaction.upsert new now) holds
  | recordResult record result => exact kept.run (Transaction.recordResult record result) holds
  | advance record pass => exact kept.run (Transaction.advance record pass now) holds
  | commit record result => exact kept.run (Transaction.commitPass record result now) holds
  | saveScores id scores => exact kept.run (Transaction.saveScores id scores) holds
  | delete path => exact kept.run (Transaction.delete path) holds
  | _ => exact holds

/-- Each history of requests keeps what each statement keeps. -/
theorem performAll (kept : Kept P) (history : List (Timestamp × Request Record RecordId))
    (holds : P db) : P (Request.performAll Database.operations history db) := by
  induction history generalizing db with
  | nil => exact holds
  | cons r history ih => exact ih (kept.perform r.1 r.2 holds)

end Statement.Kept

/-! ### Results that were given -/

namespace Transaction

variable {α : Type} {P : ResultRow → Prop}

/-- Holds of a transaction that inserts only results of which something holds. -/
inductive Inserts (P : ResultRow → Prop) : Transaction α → Prop where
  | commit {a} : Inserts P (.commit a)
  | rollback {answer} : Inserts P (.rollback answer)
  | perform {s next} :
    (∀ row, s = .insertResult row → P row) →
    (∀ answer, Inserts P (next answer)) →
    Inserts P (.perform s next)

lemma Inserts.require {s : Statement} {next : s.Answer → Transaction α}
    (given : ∀ row, s = .insertResult row → P row) (goes : ∀ answer, Inserts P (next answer)) :
    Inserts P (Transaction.require s next) := by
  refine .perform given fun answer => ?_
  cases answer with
  | ok a => exact goes a
  | error fault => exact .rollback

lemma Inserts.insertResult {record : Record} {result : PassResult} {next : Transaction α}
    (given : P (.ofResult record.id result)) (goes : Inserts P next) :
    Inserts P (Transaction.insertResult record result next) := by
  refine .perform (fun row eq => ?_) fun answer => ?_
  · cases eq
    exact given
  · cases answer with
    | ok _ => exact goes
    | error fault => cases fault <;> exact .rollback

lemma inserts_upsert (new : NewRecord) (now : Timestamp) : Inserts P (upsert new now) := by
  have put (outcome : UpsertOutcome) : Inserts P (Transaction.require (.putRecord new.path
      new.language new.source new.hash new.parsed.compact now) fun _ => .commit outcome) :=
    .require nofun fun _ => .commit
  refine .require nofun fun content => ?_
  cases content with
  | none => exact put .inserted
  | some content =>
    obtain ⟨hash, old⟩ := content
    simp only
    split
    · exact .rollback
    · exact put .updated

lemma inserts_appendPass (record : Record) (pass : String) (now : Timestamp) :
    Inserts P (appendPass record pass now) := by
  refine .require nofun fun row => ?_
  cases row with
  | none => exact .rollback
  | some row =>
    simp only
    split
    · exact .rollback
    · split
      · exact .rollback
      · exact .require nofun fun _ => .commit

lemma inserts_recordResult {record : Record} {result : PassResult}
    (given : P (.ofResult record.id result)) : Inserts P (recordResult record result) := by
  refine .insertResult given (.require nofun fun completed => ?_)
  cases completed with
  | none => exact .rollback
  | some text =>
    simp only
    split
    · exact .rollback
    · split
      · exact .rollback
      · exact .commit

lemma inserts_saveScores (id : RecordId) (scores : List Score) : Inserts P (saveScores id scores) := by
  induction scores with
  | nil => exact .commit
  | cons score scores ih => exact .require nofun fun _ => ih

lemma inserts_delete (path : String) : Inserts P (delete path) := by
  refine .require nofun fun id => ?_
  cases id with
  | none => exact .rollback
  | some id => exact .require nofun fun _ => .require nofun fun _ => .require nofun fun _ => .commit

end Transaction

/-- Holds of a database whose results are rows of which something holds. -/
def Database.ResultRows (P : ResultRow → Prop) (db : Database) : Prop :=
  ∀ results ∈ db.results, ∀ row ∈ results.rows, P row

section

variable {P : ResultRow → Prop} {db start : Database}

/-- A statement leaves rows of results as they are, and inserts no other than the one that it has. -/
lemma Database.ResultRows.statement (numberless : ∀ row id, P row → P { row with id })
    (holds : db.ResultRows P) {s : Statement} (given : ∀ row, s = .insertResult row → P row) :
    (s.run db).2.ResultRows P := by
  have same {db' : Database} (eq : db'.results = db.results) : db'.ResultRows P := by
    intro results mem
    exact holds results (eq ▸ mem)
  have filtered (p : ResultRow → Bool) :
      ∀ results ∈ db.results, ∀ row ∈ results.rows.filter p, P row :=
    fun results mem row here => holds results mem row (List.mem_filter.1 here).1
  cases s with
  | insertResult row =>
    simp only [Statement.run, Statement.addResult]
    split
    · exact holds
    · exact holds
    · next results _ here _ =>
      split
      · exact holds
      · split
        · exact holds
        · rintro _ ⟨⟩ other mem
          obtain mem | mem := List.mem_append.1 mem
          · exact holds results here other mem
          · rw [List.mem_singleton.1 mem]
            exact numberless row _ (given row rfl)
  | deleteUncompleted id pass =>
    simp only [Statement.run, Statement.dropUncompleted]
    split
    · exact holds
    · exact holds
    · next results _ here _ =>
      split
      · split
        · exact holds
        · exact holds
        · rintro _ ⟨⟩
          exact filtered _ results here
      · exact holds
  | deleteResults id =>
    simp only [Statement.run, Statement.change]
    split
    · next results here =>
      rintro _ ⟨⟩
      exact filtered _ results here
    · exact holds
  | deleteRecord id =>
    simp only [Statement.run, Statement.change]
    split
    · intro results mem
      obtain ⟨before, here, rfl⟩ := Option.map_eq_some_iff.1 mem
      exact filtered _ before here
    · exact holds
  | putScore id metric value =>
    obtain ⟨scores, eq⟩ := Statement.addScore_snd db id metric value
    exact same (by rw [Statement.run, eq])
  | putRecord => exact same (Statement.change_snd Database.results _ _ fun _ => rfl)
  | setCompleted => exact same (Statement.change_snd Database.results _ _ fun _ => rfl)
  | deleteScores => exact same (Statement.change_snd Database.results _ _ fun _ => rfl)
  | _ => exact same (congrArg Database.results (Statement.ask_snd _ _ _))

lemma Database.ResultRows.runFrom {α : Type} {t : Transaction α}
    (numberless : ∀ row id, P row → P { row with id }) (begun : start.ResultRows P)
    (holds : db.ResultRows P) (inserts : t.Inserts P) : (t.runFrom start db).2.ResultRows P := by
  induction inserts generalizing db with
  | commit => exact holds
  | rollback => exact begun
  | @perform s next given _ ih => exact ih (s.run db).1 (holds.statement numberless given)

lemma Database.ResultRows.perform (numberless : ∀ row id, P row → P { row with id })
    (holds : db.ResultRows P) (now : Timestamp) (request : Request Record RecordId)
    (given : ∀ g ∈ request.given?, P (.ofResult g.1.id g.2)) :
    (request.perform Database.operations now db).2.ResultRows P := by
  have run {α : Type} {t : Transaction α} (inserts : t.Inserts P) : (t.run db).2.ResultRows P :=
    holds.runFrom numberless holds inserts
  cases request with
  | upsert new => exact run (Transaction.inserts_upsert new now)
  | recordResult record result => exact run (Transaction.inserts_recordResult (given _ rfl))
  | advance record pass => exact run (Transaction.inserts_appendPass record pass now)
  | commit record result =>
    refine run (.require nofun fun _ => ?_)
    exact .insertResult (given _ rfl) (Transaction.inserts_appendPass record result.pass now)
  | saveScores id scores => exact run (Transaction.inserts_saveScores id scores)
  | delete path => exact run (Transaction.inserts_delete path)
  | _ => exact holds

/-- What holds of each result that was given holds of each that is stored. -/
theorem Database.ResultRows.performAll (numberless : ∀ row id, P row → P { row with id })
    (holds : db.ResultRows P) {history : List (Timestamp × Request Record RecordId)}
    (given : ∀ r ∈ history, ∀ g ∈ r.2.given?, P (.ofResult g.1.id g.2)) :
    (Request.performAll Database.operations history db).ResultRows P := by
  induction history generalizing db with
  | nil => exact holds
  | cons r history ih =>
    refine ih (holds.perform numberless r.1 r.2 (given r List.mem_cons_self)) fun r' mem => ?_
    exact given r' (List.mem_cons_of_mem r mem)

end

end Relational

end Multipass
