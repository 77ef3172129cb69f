import Multipass.Proofs.Relational.Names
import Multipass.Proofs.Store.Agreement
import Multipass.Store.Relational.Statement

/-!
# Rows that show records

When a row of a table shows what a store in memory holds, under another number, and that such a row
is read back as what it shows.

Main statements: `RecordRow.Shows.record`, `ResultRow.Shows.result` and `ScoreRow.Shows.agrees`.
-/

namespace Multipass.Relational

open Json Number

/-- Holds of a row that shows a record; its times are its own. -/
structure RecordRow.Shows (f : RecordId → RecordId) (r : Record) (row : RecordRow) : Prop where
  id : row.id = f r.id
  path : row.path = r.path
  language : row.language = r.language
  source : row.source = r.source
  hash : row.hash = r.hash
  parsed : row.parsed = r.parsed.compact
  passIndex : row.passIndex = r.passIndex
  completed : row.completed = writeNames r.completed
  plain : r.parsed.Plain

/-- Holds of a row that shows a result of a record; its number is its own. -/
structure ResultRow.Shows (f : RecordId → RecordId) (entry : RecordId × PassResult)
    (row : ResultRow) : Prop where
  columns : { row with id := 0 } = ResultRow.ofResult (f entry.1) entry.2
  plain : entry.2.Plain

/-- Holds of a row that shows a score of a record. -/
structure ScoreRow.Shows (f : RecordId → RecordId) (entry : RecordId × Score) (row : ScoreRow) :
    Prop where
  row : row = ⟨f entry.1, entry.2.metric, Statement.stored entry.2.value⟩
  finite : entry.2.IsFinite

/-! ### Records -/

/-- A row is read as a record that agrees with the one that it shows. -/
theorem RecordRow.Shows.record {f : RecordId → RecordId} {r : Record} {row : RecordRow}
    (shows : row.Shows f r) : ∃ r', row.record = .ok r' ∧ r.Agrees f r' := by
  have parsed := parseNamed_compact shows.plain
  have completed := readNames_writeNames r.completed
  rw [← shows.parsed] at parsed
  rw [← shows.completed] at completed
  simp only [RecordRow.record, parsed, completed]
  refine ⟨_, rfl, ?_⟩
  exact {
    id := shows.id
    path := shows.path
    language := shows.language
    source := shows.source
    hash := shows.hash
    parsed := rfl
    passIndex := shows.passIndex
    completed := rfl }

/-! ### Results -/

lemma signed64_of_lt {n : Nat} (h : n < 0x8000000000000000) : signed64 n = n := by
  have half (m : Nat) (hm : n * 2 < m) : (n : Int).bmod m = n :=
    Int.bmod_eq_of_le_mul_two (by omega) (by omega)
  exact half 0x10000000000000000 (by omega)

/-- The columns of an output are read back. -/
lemma ofColumns_output {output : PassOutput} (plain : ∀ j, output = .findings j → j.Plain) :
    PassOutput.ofColumns output.kind output.body = output := by
  cases output with
  | text s => rfl
  | findings j =>
    have read := parse_compact (plain j rfl)
    simp only [PassOutput.ofColumns, PassOutput.kind, PassOutput.body, if_true, read]

/-- The column of a usage is read back. -/
lemma readUsage_column {usage : Option Usage} (fits : ∀ u ∈ usage, u.Fits) :
    readUsage (usage.map Usage.column) = .ok usage := by
  cases usage with
  | none => rfl
  | some u =>
    simp only [Option.map_some, readUsage, Usage.ofColumn_column (fits u rfl)]

/-- A row is read as the result that it shows. -/
theorem ResultRow.Shows.result {f : RecordId → RecordId} {entry : RecordId × PassResult}
    {row : ResultRow} (shows : row.Shows f entry) : row.result = .ok entry.2 := by
  have same : row.result = ({ row with id := 0 } : ResultRow).result := rfl
  have usage := readUsage_column shows.plain.usage
  have output := ofColumns_output shows.plain.findings
  rw [same, shows.columns]
  simp only [ResultRow.result, ResultRow.ofResult, usage, output,
    signed64_of_lt shows.plain.duration, Int.toNat_natCast]

/-! ### Scores -/

/-- A column keeps a finite number as an equal one. -/
lemma eq_stored {score : Score} (finite : score.IsFinite) :
    score.value.eq (Statement.stored score.value) = true := by
  cases h : score.value with
  | nan => simp [Score.IsFinite, h] at finite
  | infinite s => simp [Score.IsFinite, h] at finite
  | finite s m e =>
    cases m with
    | zero =>
      have stored : Statement.stored (.finite s 0 e) = Binary.zero .double false := rfl
      rw [stored]
      cases s <;> simp [Binary.eq, Binary.lt, Binary.zero, Binary.scaled]
    | succ m =>
      have stored : Statement.stored (.finite s (m + 1) e) = .finite s (m + 1) e := rfl
      rw [stored]
      simp [Binary.eq, Binary.lt]

/-- A row is read as a score that agrees with the one that it shows. -/
theorem ScoreRow.Shows.agrees {f : RecordId → RecordId} {entry : RecordId × Score} {row : ScoreRow}
    (shows : row.Shows f entry) : entry.2.Agrees row.score where
  metric := by rw [shows.row]; rfl
  value := by rw [shows.row]; exact eq_stored shows.finite

end Multipass.Relational
