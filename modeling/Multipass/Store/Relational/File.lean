import Multipass.Json.Parser
import Multipass.Json.Printer
import Multipass.Store.Relational.Table
import Multipass.Text.Utf8

/-!
# The file of a database

A database as bytes: a mark that no text begins with, and the rows of the tables as JSON. A file
without any bytes is a database without tables.
-/

namespace Multipass.Relational

namespace Database

/-! ### Writing -/

/-- A record as an array. -/
def recordCells (r : RecordRow) : Json :=
  .arr [.int r.id, .str r.path, .strOrNull r.language, .str r.source, .str r.hash, .str r.parsed,
    .int r.passIndex, .str r.completed, .int r.createdAt, .int r.updatedAt]

/-- A result as an array. -/
def resultCells (r : ResultRow) : Json :=
  .arr [.int r.id, .int r.recordId, .str r.pass, .str r.input, .str r.kind, .str r.body,
    .strOrNull r.usage, .int r.duration, .int r.createdAt]

/-- A score as an array. -/
def scoreCells (r : ScoreRow) : Json :=
  .arr [.int r.recordId, .str r.metric, .float r.value]

/-- A table as an array of the last number and the rows. -/
def tableCells {ρ : Type} (cells : ρ → Json) : Option (Table ρ) → Json
  | some t => .arr [.int t.lastId, .arr (t.rows.map cells)]
  | none => .null

/-- A database as an array of its tables. -/
def cells (db : Database) : Json :=
  .arr [tableCells recordCells db.records, tableCells resultCells db.results,
    match db.scores with
    | some rows => .arr (rows.map scoreCells)
    | none => .null]

/-- The byte that marks a database. -/
def mark : UInt8 := 0xff

/-- A database as bytes. -/
def toBytes (db : Database) : List UInt8 :=
  mark :: Text.encode db.cells.compact

/-! ### Reading -/

/-- A text or null. -/
def textOrNull? : Json → Option (Option String)
  | .str s => some (some s)
  | .null => some none
  | _ => none

/-- The record of an array. -/
def readRecord? : Json → Option RecordRow
  | .arr [id, path, language, source, hash, parsed, passIndex, completed, created, updated] =>
    return {
      id := ← id.int?
      path := ← path.str?
      language := ← textOrNull? language
      source := ← source.str?
      hash := ← hash.str?
      parsed := ← parsed.str?
      passIndex := ← passIndex.int?
      completed := ← completed.str?
      createdAt := ← created.int?
      updatedAt := ← updated.int? }
  | _ => none

/-- The result of an array. -/
def readResult? : Json → Option ResultRow
  | .arr [id, recordId, pass, input, kind, body, usage, duration, created] =>
    return {
      id := ← id.int?
      recordId := ← recordId.int?
      pass := ← pass.str?
      input := ← input.str?
      kind := ← kind.str?
      body := ← body.str?
      usage := ← textOrNull? usage
      duration := ← duration.int?
      createdAt := ← created.int? }
  | _ => none

/-- The score of an array. -/
def readScore? : Json → Option ScoreRow
  | .arr [recordId, metric, value] =>
    return { recordId := ← recordId.int?, metric := ← metric.str?, value := ← value.number? }
  | _ => none

/-- The table of an array. -/
def readTable? {ρ : Type} (row : Json → Option ρ) : Json → Option (Option (Table ρ))
  | .null => some none
  | .arr [last, .arr rows] => return some { rows := ← rows.mapM row, lastId := ← last.int? }
  | _ => none

/-- The database of an array of tables. -/
def readTables? : Json → Option Database
  | .arr [records, results, scores] => do
    let scores ← match scores with
      | .null => some none
      | .arr rows => (rows.mapM readScore?).map some
      | _ => none
    return {
      records := ← readTable? readRecord? records
      results := ← readTable? readResult? results
      scores }
  | _ => none

/-- The database of some bytes. -/
def ofBytes? : List UInt8 → Option Database
  | [] => some {}
  | b :: rest =>
    if b = mark then do
      let text ← Text.decode? rest
      let j ← (Json.parse text).toOption
      readTables? j
    else none

end Database

end Multipass.Relational
