import Multipass.Json.Printer
import Multipass.Store.Error
import Multipass.Store.Relational.Table

/-!
# Columns

Changes of whole columns, past the rules that statements keep: what a damaged database is made
with. Tables and columns go by their names, in small letters or capitals.

A column keeps values in its own way: a column of texts keeps a number as the text of it, and a
column of integers keeps a text that spells an integer as that integer. The rules of the tables
hold also here: most columns must have a value, a key is unique, and a result belongs to a record
that is there. A change that breaks a rule changes nothing.

No statement of the program comes to this: it is there to see the program on a database that others
have changed.
-/

namespace Multipass.Relational

open Number

/-- A value that a column is set to. -/
inductive Cell where
  | null
  | int (i : Int)
  | real (x : Number.Double)
  | text (s : String)
  deriving DecidableEq, Repr

namespace Cell

/-- The value of a JSON value; one that holds others is its text. -/
def ofJson : Json → Cell
  | .null => .null
  | .bool b => .int (if b then 1 else 0)
  | .int i => .int i
  | .float x => .real x
  | .str s => .text s
  | j => .text j.compact

/-! ### Columns of texts -/

/-- The significant digits of a number in a column of texts. -/
def textDigits : Nat := 15

/-- The text of a positive number: at most 15 significant digits and a point among them, with an
exponent below `0.0001` and from `10 ^ 15` on. -/
def realChars (num den : Nat) (binary : Int) : List Char :=
  let top := decimalExponent num den 8 (binary * 30103 / 100000 - 2)
  let (n, d) := onGrid num den (top + 1 - textDigits)
  let k := roundQuotient n d
  let top := if k = Nat.pow 10 textDigits then top + 1 else top
  let ds := stripZeros (digitChars k)
  let withPoint (s : List Char) : List Char := if s.contains '.' then s else s ++ ['.', '0']
  if -4 ≤ top ∧ top < textDigits then withPoint (Digits.positional ⟨ds, top + 1⟩)
  else
    let exponent := digitChars top.natAbs
    withPoint (ds.take 1 ++ (if ds.length = 1 then [] else '.' :: ds.drop 1))
      ++ ['e', if top < 0 then '-' else '+']
      ++ (if exponent.length = 1 then ['0'] else []) ++ exponent

/-- The text of a number. -/
def realText : Number.Double → String
  | .nan => ""
  | .infinite s => String.ofList (signed s ['I', 'n', 'f'])
  | .finite s m e =>
    if m = 0 then "0.0"
    else
      let (num, den) := Binary.magnitude m e
      String.ofList (signed s (realChars num den ((Nat.log2 m : Int) + e)))

/-- A value as a column of texts keeps it. -/
def asText? : Cell → Option String
  | .null => none
  | .int i => some (toString i)
  | .real x => some (realText x)
  | .text s => some s

/-! ### Columns of integers -/

/-- The integer that a number is, within 64 bits. -/
def integral? : Number.Double → Option Int
  | .finite s m e =>
    let (num, den) := Binary.magnitude m e
    if num % den = 0 ∧ num / den < 0x8000000000000000 then
      some (if s then -(num / den : Nat) else (num / den : Nat))
    else none
  | _ => none

/-- The digits of a number in front of a text, as a number, and what follows them. -/
def digitsOf (s : List Char) : Nat × Nat × List Char :=
  let ds := s.takeWhile Char.isDigit
  (ds.foldl (fun n c => 10 * n + (c.toNat - 48)) 0, ds.length, s.dropWhile Char.isDigit)

/-- The exponent that is the end of a number, if it is one. -/
def exponent? (s : List Char) : Option Int :=
  let read (s : List Char) : Option Nat :=
    match digitsOf s with
    | (n, count + 1, []) => if count < 5 then some n else some 99999
    | _ => none
  match s with
  | '+' :: s => (read s).map fun n => (n : Int)
  | '-' :: s => (read s).map fun n => -(n : Int)
  | s => (read s).map fun n => (n : Int)

/-- The integer that a number without its sign spells: its digits, or the number that digits with
a point or an exponent stand for if it is an integer. -/
def spelledNatural? (negative : Bool) (s : List Char) : Option Int :=
  let (whole, count, rest) := digitsOf s
  let (fraction, places, rest, plain) :=
    match rest with
    | '.' :: rest =>
      let (f, n, rest) := digitsOf rest
      (f, n, rest, false)
    | rest => (0, 0, rest, true)
  if count + places = 0 then none
  else
    let digits := whole * Nat.pow 10 places + fraction
    let withExponent (e : Int) : Option Int :=
      if e < 400 then integral? (Binary.ofDecimal .double negative digits (max e (-400) - places))
      else if digits = 0 then some 0
      else none
    match rest with
    | [] =>
      let i : Int := if negative then -digits else digits
      if plain ∧ -0x8000000000000000 ≤ i ∧ i < 0x8000000000000000 then some i else withExponent 0
    | 'e' :: rest => (exponent? rest).bind withExponent
    | 'E' :: rest => (exponent? rest).bind withExponent
    | _ => none

/-- The blanks around a number. -/
def isNumberBlank (c : Char) : Bool :=
  c = ' ' || (0x09 ≤ c.toNat && c.toNat ≤ 0x0d)

/-- The integer that a text spells. -/
def spelled? (s : String) : Option Int :=
  match ((s.toList.dropWhile isNumberBlank).reverse.dropWhile isNumberBlank).reverse with
  | '-' :: s => spelledNatural? true s
  | '+' :: s => spelledNatural? false s
  | s => spelledNatural? false s

/-- A value as a column of integers keeps it, if it is an integer there. -/
def asInteger? : Cell → Option Int
  | .null => none
  | .int i => some i
  | .real x => integral? x
  | .text s => spelled? s

/-- A value that must be a text. -/
def requireText (v : Cell) : Except DatabaseFault String :=
  match v.asText? with
  | some s => .ok s
  | none => .error .notNull

/-- A value that must be an integer. -/
def requireInteger (v : Cell) : Except DatabaseFault Int :=
  match v with
  | .null => .error .notNull
  | v =>
    match v.asInteger? with
    | some i => .ok i
    | none => .error .notAnInteger

end Cell

/-- A record with a column set to a value. -/
def RecordRow.setColumn (column : String) (v : Cell) (r : RecordRow) :
    Except DatabaseFault RecordRow :=
  match column with
  | "id" => v.requireInteger.map fun id => { r with id }
  | "artifact_path" => v.requireText.map fun path => { r with path }
  | "language" => .ok { r with language := v.asText? }
  | "raw_source" => v.requireText.map fun source => { r with source }
  | "content_hash" => v.requireText.map fun hash => { r with hash }
  | "parsed_json" => v.requireText.map fun parsed => { r with parsed }
  | "current_pass_index" => v.requireInteger.map fun passIndex => { r with passIndex }
  | "completed_passes" => v.requireText.map fun completed => { r with completed }
  | "created_at" => v.requireInteger.map fun createdAt => { r with createdAt }
  | "updated_at" => v.requireInteger.map fun updatedAt => { r with updatedAt }
  | column => .error (.noSuchColumn column)

/-- A result with a column set to a value. -/
def ResultRow.setColumn (column : String) (v : Cell) (r : ResultRow) :
    Except DatabaseFault ResultRow :=
  match column with
  | "id" => v.requireInteger.map fun id => { r with id }
  | "record_id" => v.requireInteger.map fun recordId => { r with recordId }
  | "pass_name" => v.requireText.map fun pass => { r with pass }
  | "input" => v.requireText.map fun input => { r with input }
  | "output_kind" => v.requireText.map fun kind => { r with kind }
  | "output" => v.requireText.map fun body => { r with body }
  | "usage_json" => .ok { r with usage := v.asText? }
  | "duration_ms" => v.requireInteger.map fun duration => { r with duration }
  | "created_at" => v.requireInteger.map fun createdAt => { r with createdAt }
  | column => .error (.noSuchColumn column)

/-- The names of the columns of records. -/
def recordColumns : List String :=
  ["id", "artifact_path", "language", "raw_source", "content_hash", "parsed_json",
    "current_pass_index", "completed_passes", "created_at", "updated_at"]

/-- The names of the columns of results. -/
def resultColumns : List String :=
  ["id", "record_id", "pass_name", "input", "output_kind", "output", "usage_json", "duration_ms",
    "created_at"]

namespace Database

/-- Holds of rows with different keys. -/
def distinct {κ : Type} [BEq κ] : List κ → Bool
  | [] => true
  | k :: ks => !ks.contains k && distinct ks

/-- The greatest of a number and the numbers of rows. -/
def greatest (last : Int) (ids : List Int) : Int :=
  ids.foldl max last

/-- The database with a column of all its records set. -/
def setRecordColumn (column : String) (v : Cell) (db : Database) :
    Except DatabaseFault Database := do
  match db.records with
  | none => .error (.noSuchTable recordsTable)
  | some t =>
    let rows ← t.rows.mapM (·.setColumn column.toLower v)
    let ids := rows.map RecordRow.id
    let used :=
      ((db.results.map fun t => t.rows.map ResultRow.recordId).getD [])
        ++ ((db.scores.map fun rows => rows.map ScoreRow.recordId).getD [])
    if !recordColumns.contains column.toLower then .error (.noSuchColumn column)
    else if !distinct ids || !distinct (rows.map RecordRow.path) then .error .uniqueKey
    else if !used.all ids.contains then .error .foreignKey
    else .ok { db with records := some ⟨rows, greatest t.lastId ids⟩ }

/-- The database with a column of all its results set. -/
def setResultColumn (column : String) (v : Cell) (db : Database) :
    Except DatabaseFault Database := do
  match db.results with
  | none => .error (.noSuchTable resultsTable)
  | some t =>
    let rows ← t.rows.mapM (·.setColumn column.toLower v)
    let ids := rows.map ResultRow.id
    let records := (db.records.map fun t => t.rows.map RecordRow.id).getD []
    if !resultColumns.contains column.toLower then .error (.noSuchColumn column)
    else if !distinct ids || !distinct (rows.map fun r => (r.recordId, r.pass)) then .error .uniqueKey
    else if !(rows.map ResultRow.recordId).all records.contains then .error .foreignKey
    else .ok { db with results := some ⟨rows, greatest t.lastId ids⟩ }

/-- The database without a table. Rows go with the records that they belong to. -/
def dropTable (name : String) (db : Database) : Except DatabaseFault Database :=
  let table := name.toLower
  if table = recordsTable ∧ db.records.isSome then
    .ok {
      records := none
      results := db.results.map fun t => { t with rows := [] }
      scores := db.scores.map fun _ => [] }
  else if table = resultsTable ∧ db.results.isSome then .ok { db with results := none }
  else if table = scoresTable ∧ db.scores.isSome then .ok { db with scores := none }
  else .error (.noSuchTable name)

end Database

end Multipass.Relational
