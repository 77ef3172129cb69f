import Multipass.Backend.Tool
import Multipass.Proofs.Json.Integral
import Multipass.Proofs.Relational.Change
import Multipass.Proofs.Relational.History

/-!
# Results read back

A result is written to the columns of a row, and the row is read as the result that it was: text
stays text, whatever it looks like, and findings stay findings. So a database answers a result that
it has kept, or committed, with the result itself.

Main statement: `result_kept`.
-/

namespace Multipass

/-- Holds of what a pass may yield: any text, and findings that the output of a tool was read as, if
their numbers are integers. -/
inductive PassOutput.Reported : PassOutput → Prop where
  | text {s} :
    Reported (.text s)
  | findings {stdout j} :
    Tool.readOutput .json stdout = .ok (.findings j) →
    j.Integral →
    Reported (.findings j)

lemma Json.parse_of_parseNamed {text : String} {j : Json} (h : parseNamed text = .ok j) :
    parse text = .ok j := by
  rw [parseNamed, parseAs] at h
  rw [parse, whole]
  cases read : entire first text.toList with
  | ok k =>
    rw [read] at h
    exact congrArg Except.ok (Except.ok.inj h)
  | error fault =>
    rw [read] at h
    cases h

/-- What the output of a tool is read as is read of some text. -/
lemma Tool.exists_parse_of_readOutput {stdout : String} {j : Json}
    (h : readOutput .json stdout = .ok (.findings j)) : ∃ text, Json.parse text = .ok j := by
  simp only [readOutput] at h
  split at h
  · next read =>
    cases h
    exact ⟨_, Json.parse_of_parseNamed read⟩
  · cases h

/-- What a pass yields is what columns can hold. -/
lemma PassOutput.Reported.plain {output : PassOutput} (reported : output.Reported) :
    ∀ j, output = .findings j → j.Plain := by
  rintro j rfl
  cases reported with
  | findings read integral =>
    obtain ⟨text, parsed⟩ := Tool.exists_parse_of_readOutput read
    exact Json.plain_of_parse parsed integral

namespace Relational

variable {α : Type} {record : Record} {result : PassResult} {start db db' : Database} {a : α}

/-- The row that is written for a result is read as the result, under any number. -/
lemma result_ofResult (recordId : RecordId) (number : Int) (plain : result.Plain) :
    ({ ResultRow.ofResult recordId result with id := number } : ResultRow).result = .ok result := by
  have shows : ResultRow.Shows id (recordId, result)
      { ResultRow.ofResult recordId result with id := number } :=
    { columns := by simp only [ResultRow.ofResult, id], plain }
  exact shows.result

/-! ### What operations that succeed leave -/

lemma runFrom_of_require {q : Statement} {next : q.Answer → Transaction α}
    (h : (Transaction.require q next).runFrom start db = (.ok a, db')) :
    ∃ answer, (q.run db).1 = .ok answer ∧
      (next answer).runFrom start (q.run db).2 = (.ok a, db') := by
  simp only [Transaction.require, Transaction.runFrom] at h
  cases run : (q.run db).1 with
  | ok answer =>
    rw [run] at h
    exact ⟨answer, rfl, h⟩
  | error fault =>
    rw [run] at h
    cases h

lemma addResult_cases (db : Database) (record : Record) (result : PassResult) :
    (∃ fault, Statement.addResult db (.ofResult record.id result) = (.error fault, db)) ∨
    ∃ results, Statement.addResult db (.ofResult record.id result) =
      (.ok (), { db with results := some (withResult results record.id result) }) := by
  simp only [Statement.addResult]
  split
  · exact .inl ⟨_, rfl⟩
  · exact .inl ⟨_, rfl⟩
  · next results _ _ _ =>
    split
    · exact .inl ⟨_, rfl⟩
    · split
      · exact .inl ⟨_, rfl⟩
      · exact .inr ⟨results, rfl⟩

/-- A result that was inserted is the last row of its table. -/
lemma runFrom_of_insertResult {next : Transaction α}
    (h : (Transaction.insertResult record result next).runFrom start db = (.ok a, db')) :
    ∃ results, next.runFrom start
      { db with results := some (withResult results record.id result) } = (.ok a, db') := by
  simp only [Transaction.insertResult, Transaction.runFrom, Statement.run] at h
  obtain ⟨fault, added⟩ | ⟨results, added⟩ := addResult_cases db record result
  · rw [added] at h
    cases fault <;> cases h
  · rw [added] at h
    exact ⟨results, h⟩

lemma results_of_appendPass {pass : String} {now : Timestamp} {r : Record}
    (h : (Transaction.appendPass record pass now).runFrom start db = (.ok r, db')) :
    db'.results = db.results := by
  obtain ⟨row, -, h⟩ := runFrom_of_require h
  have same : ((Statement.recordOf record.id).run db).2 = db := Statement.ask_snd ..
  rw [same] at h
  dsimp only at h
  split at h
  · cases h
  · split at h
    · cases h
    · split at h
      · cases h
      · obtain ⟨answer, -, h⟩ := runFrom_of_require h
        cases h
        exact Statement.change_snd Database.results _ _ fun _ => rfl

lemma results_of_recordResult
    (h : (Transaction.recordResult record result).run db = (.ok (), db')) :
    ∃ results, db'.results = some (withResult results record.id result) := by
  obtain ⟨results, h⟩ := runFrom_of_insertResult h
  obtain ⟨completed, -, h⟩ := runFrom_of_require h
  have same (db : Database) : ((Statement.completedOf record.id).run db).2 = db :=
    Statement.ask_snd ..
  rw [same] at h
  split at h
  · cases h
  · split at h
    · cases h
    · split at h <;> cases h
      exact ⟨results, rfl⟩

lemma results_of_commitPass {now : Timestamp} {r : Record}
    (h : (Transaction.commitPass record result now).run db = (.ok r, db')) :
    ∃ results, db'.results = some (withResult results record.id result) := by
  obtain ⟨-, -, h⟩ := runFrom_of_require h
  obtain ⟨results, h⟩ := runFrom_of_insertResult h
  exact ⟨results, results_of_appendPass h⟩

/-- The last row of the table is the latest result of its pass. -/
lemma latest_of_results {results : Table ResultRow} (plain : result.Plain)
    (h : db.results = some (withResult results record.id result)) :
    Database.operations.latest record.id result.pass db = .ok (some result) := by
  have own : Statement.isRowOf record.id result.pass
      { ResultRow.ofResult record.id result with id := results.lastId + 1 } = true := by
    simp [Statement.isRowOf, ResultRow.ofResult]
  simp only [Database.operations, Database.ask, Statement.run, h, Statement.ask, withResult,
    List.reverse_append, List.reverse_singleton, List.singleton_append, List.find?_cons, own,
    readOption, result_ofResult record.id _ plain]

/-! ### Results -/

/-- A result of a pass with an output that passes yield, counts of 64 bits, and a duration below
`2 ^ 63` is read back from its columns. Whatever else is in a database, the result that it has kept
or committed last is the one that it answers. -/
theorem result_kept (result : PassResult) (reported : result.output.Reported)
    (fits : ∀ u ∈ result.usage, u.Fits) (short : result.durationMillis < 2 ^ 63) :
    (∀ recordId number,
      ({ ResultRow.ofResult recordId result with id := number } : ResultRow).result = .ok result) ∧
    (∀ record db db', Database.operations.recordResult record result db = (.ok (), db') →
      Database.operations.latest record.id result.pass db' = .ok (some result)) ∧
    ∀ record now db db' r, Database.operations.commit record result now db = (.ok r, db') →
      Database.operations.latest record.id result.pass db' = .ok (some result) := by
  have plain : result.Plain := ⟨reported.plain, fits, short⟩
  refine ⟨fun recordId number => result_ofResult recordId number plain, ?_, ?_⟩
  · intro record db db' h
    obtain ⟨results, kept⟩ := results_of_recordResult h
    exact latest_of_results plain kept
  · intro record now db db' r h
    obtain ⟨results, kept⟩ := results_of_commitPass h
    exact latest_of_results plain kept

/-- Findings with the greatest count, a sign, and escaped characters, as a tool wrote them. -/
theorem result_kept_of_findings :
    let stdout := " \x7b\"n\":[18446744073709551615,-3],\"e\":\"\\u0001\\\"\"\x7d\n"
    let findings : Json :=
      .obj [("e", .str "\x01\""), ("n", .arr [.int 18446744073709551615, .int (-3)])]
    let usage : Usage := ⟨"m", 1, 2, 18446744073709551615⟩
    let result : PassResult := ⟨"lint", "php -l a.php", .findings findings, some usage, 5, 0⟩
    let new : NewRecord := ⟨"a.php", none, "x", "", .null⟩
    let record := Record.ofNew 1 new 0
    let db := Request.performAll Database.operations [(0, .upsert new)] (Database.migrate {})
    Tool.readOutput .json stdout = .ok (.findings findings) ∧
      ({ ResultRow.ofResult record.id result with id := 1 } : ResultRow).result = .ok result ∧
      ∃ db', Database.operations.recordResult record result db = (.ok (), db') ∧
        Database.operations.latest record.id "lint" db' = .ok (some result) := by
  intro stdout findings usage result new record db
  have read : Tool.readOutput .json stdout = .ok (.findings findings) := by
    simp only [stdout, findings]
    rfl
  have integral : findings.Integral := by
    refine .obj fun f mem => ?_
    simp only [List.mem_cons, List.not_mem_nil, or_false] at mem
    obtain rfl | rfl := mem
    · exact .str
    · refine .arr fun j mem => ?_
      simp only [List.mem_cons, List.not_mem_nil, or_false] at mem
      obtain rfl | rfl := mem <;> exact .int
  have fits : ∀ u ∈ result.usage, u.Fits := by
    rintro u ⟨⟩
    exact ⟨by decide, by decide, by decide⟩
  obtain ⟨columns, recorded, -⟩ := result_kept result (.findings read integral) fits (by decide)
  have done : (Database.operations.recordResult record result db).1 = .ok () := by decide +kernel
  have kept := recorded record db _ (Prod.ext done rfl)
  exact ⟨read, columns record.id 1, _, Prod.ext done rfl, kept⟩

end Relational

end Multipass
