import Multipass.PassResult
import Multipass.Score.Payload
import Multipass.Store.Relational.Table

/-!
# Rows and what they stand for

Records, results, and scores as rows, and rows read back. Lists and JSON values are written in
compact form. A row whose texts cannot be read is an error, except for findings, which are then
text. Durations are kept in 64 bits with a sign, and a negative one is read as zero.
-/

namespace Multipass.Relational

/-- The names in a JSON array of names, with what is wrong with a text that is none. -/
def readNames (text : String) : Except String (List String) :=
  Json.parseAs (Json.listValue Json.textValue) text

/-- Names as a JSON array. -/
def writeNames (names : List String) : String :=
  (Json.strs names).compact

/-- The record of a row. -/
def RecordRow.record (row : RecordRow) : Except StoreError Record :=
  match Json.parseNamed row.parsed with
  | .error reason => .error (.serialization reason)
  | .ok parsed =>
    match readNames row.completed with
    | .error reason => .error (.serialization reason)
    | .ok completed =>
      .ok {
        id := row.id
        path := row.path
        language := row.language
        source := row.source
        hash := row.hash
        parsed
        passIndex := row.passIndex
        completed
        createdAt := row.createdAt
        updatedAt := row.updatedAt }

/-- A number of 64 bits, read as one with a sign. -/
def signed64 (n : Nat) : Int :=
  (n : Int).bmod 0x10000000000000000

/-- The row of a result, without a number of its own. -/
def ResultRow.ofResult (recordId : RecordId) (r : PassResult) : ResultRow where
  id := 0
  recordId := recordId
  pass := r.pass
  input := r.input
  kind := r.output.kind
  body := r.output.body
  usage := r.usage.map Usage.column
  duration := signed64 r.durationMillis
  createdAt := r.createdAt

/-- The tokens in a column, if there are any. -/
def readUsage : Option String → Except StoreError (Option Usage)
  | none => .ok none
  | some text =>
    match Usage.ofColumn text with
    | .error reason => .error (.serialization reason)
    | .ok usage => .ok (some usage)

/-- The result of a row. -/
def ResultRow.result (row : ResultRow) : Except StoreError PassResult :=
  match readUsage row.usage with
  | .error e => .error e
  | .ok usage =>
    .ok {
      pass := row.pass
      input := row.input
      output := PassOutput.ofColumns row.kind row.body
      usage
      durationMillis := row.duration.toNat
      createdAt := row.createdAt }

/-- The score of a row. -/
def ScoreRow.score (row : ScoreRow) : Score :=
  ⟨row.metric, row.value⟩

/-- Reads rows one after the other; the first error counts. -/
def readAll {ρ α : Type} (read : ρ → Except StoreError α) : List ρ → Except StoreError (List α)
  | [] => .ok []
  | row :: rows =>
    match read row with
    | .error e => .error e
    | .ok a =>
      match readAll read rows with
      | .error e => .error e
      | .ok as => .ok (a :: as)

/-- Reads a row, if there is one. -/
def readOption {ρ α : Type} (read : ρ → Except StoreError α) :
    Option ρ → Except StoreError (Option α)
  | none => .ok none
  | some row =>
    match read row with
    | .error e => .error e
    | .ok a => .ok (some a)

end Multipass.Relational
