import Multipass.Number.Sum
import Multipass.Status.Basic
import Multipass.Store.Relational.Row
import Multipass.Store.Relational.Statement

/-!
# Overviews of a database

The counts and means of a pipeline, computed by the database. Its own reading of JSON counts: the
items of a list of passes whatever they are, and the tokens of whatever object is there.
-/

namespace Multipass.Relational

open Number (RunningSum)

namespace Aggregate

/-- The items of a list of completed passes. -/
def completedCount (row : RecordRow) : Except DatabaseFault Nat :=
  match readJson row.completed with
  | some j => .ok j.arrayLength
  | none => .error .malformedJson

/-- Holds of a record that still needs work. A list that cannot be read has fewer passes than any
order if each pass is looked for, and is a fault if they are counted. -/
def isPending (order : List String) (check : PendingCheck) (row : RecordRow) :
    Except DatabaseFault Bool :=
  match check with
  | .count =>
    match completedCount row with
    | .ok n => .ok (n < order.length)
    | .error fault => .error fault
  | .set =>
    let done := (readNames row.completed).toOption.getD []
    .ok (order.any fun pass => !done.contains pass)

/-- The number of rows of which a condition holds. -/
def countOf {ρ : Type} (condition : ρ → Except DatabaseFault Bool) :
    List ρ → Except DatabaseFault Nat
  | [] => .ok 0
  | row :: rows =>
    match condition row with
    | .error fault => .error fault
    | .ok holds =>
      match countOf condition rows with
      | .error fault => .error fault
      | .ok n => .ok (if holds then n + 1 else n)

/-- The blanks around a number. -/
def isBlank (n : Nat) : Bool :=
  n = 0x20 || (0x09 ≤ n && n ≤ 0x0d)

/-- The integer that code points spell, with or without a sign, and with blanks around it. -/
def spelledInt? (points : List Nat) : Option Int :=
  let natural (digits : List Nat) : Option Int :=
    if digits.isEmpty || !digits.all fun n => 0x30 ≤ n && n ≤ 0x39 then none
    else some (digits.foldl (fun n d => 10 * n + (d - 0x30)) 0 : Nat)
  match ((points.dropWhile isBlank).reverse.dropWhile isBlank).reverse with
  | 0x2d :: digits => (natural digits).map fun n => -n
  | 0x2b :: digits => natural digits
  | digits => natural digits

/-- What the tokens of a result are to a sum. -/
inductive Tokens where
  | absent
  | int (i : Int)
  /-- A number that is no integer of 64 bits. -/
  | real
  deriving DecidableEq, Repr

/-- The tokens that a value stands for; a text stands for the integer that it spells. -/
def Tokens.ofScalar : LooseJson.Scalar → Tokens
  | .null => .absent
  | .int i => .int i
  | .real => .real
  | .text points =>
    match spelledInt? points with
    | some i => if RunningSum.fits i then .int i else .real
    | none => .real

/-- The tokens of a result; one without usage, or whose usage has none, counts for nothing. -/
def tokensOf (row : ResultRow) : Except DatabaseFault Tokens :=
  match row.usage with
  | none => .ok .absent
  | some text =>
    match readJson text with
    | none => .error .malformedJson
    | some j =>
      match j.field? "total_tokens" with
      | none => .ok .absent
      | some value =>
        match value.scalar? with
        | none => .error .malformedJson
        | some scalar => .ok (.ofScalar scalar)

/-- A sum of tokens while it grows. -/
inductive TokenSum where
  | exact (sum : Int)
  /-- Integers alone led beyond 64 bits. -/
  | overflowed
  /-- Some number was no integer of 64 bits. -/
  | rounded
  deriving DecidableEq, Repr

/-- The sum with the tokens of one more result. -/
def TokenSum.add (sum : TokenSum) : Tokens → TokenSum
  | .absent => sum
  | .int i =>
    match sum with
    | .exact n => if RunningSum.fits (n + i) then .exact (n + i) else .overflowed
    | .overflowed => .overflowed
    | .rounded => .rounded
  | .real => .rounded

/-- The sum of the tokens of some results, one after the other. -/
def tokenSum (sum : TokenSum) : List ResultRow → Except DatabaseFault TokenSum
  | [] => .ok sum
  | row :: rows =>
    match tokensOf row with
    | .error fault => .error fault
    | .ok tokens => tokenSum (sum.add tokens) rows

/-- The mean of a sum of some values. -/
def meanOf (sum : RunningSum) (count : Nat) : Number.Double :=
  Number.Double.div sum.toDouble (Number.Double.ofNat count)

/-- The totals of a pass with the results and the sum of the tokens that were found. -/
def totalsOf (pass : String) (own : List ResultRow) (tokens : Int) : PassTotals where
  pass
  results := own.length
  tokens
  meanMillis := meanOf (.ofInts (own.map ResultRow.duration)) own.length
  lastRun := (own.map ResultRow.createdAt).max?

/-- The totals of a pass, if the sum of its tokens is an integer. -/
def passTotals (rows : List ResultRow) (pass : String) : Except DatabaseFault (Option PassTotals) :=
  let own := rows.filter fun row => row.pass == pass
  match tokenSum (.exact 0) own with
  | .error fault => .error fault
  | .ok (.exact tokens) => .ok (some (totalsOf pass own tokens))
  | .ok .overflowed => .error .integerOverflow
  | .ok .rounded => .ok none

/-- The totals of all passes with a result. -/
def allTotals (rows : List ResultRow) :
    List String → Except DatabaseFault (List (Option PassTotals))
  | [] => .ok []
  | pass :: passes =>
    match passTotals rows pass with
    | .error fault => .error fault
    | .ok totals =>
      match allTotals rows passes with
      | .error fault => .error fault
      | .ok others => .ok (totals :: others)

/-- Names in ascending order, each once. -/
def sortedNames (names : List String) : List String :=
  names.eraseDups.mergeSort fun a b => !(b < a)

/-- The mean of a metric. -/
def metricMean (rows : List ScoreRow) (metric : String) : MetricMean :=
  let own := rows.filter fun row => row.metric == metric
  ⟨metric, meanOf (.ofDoubles (own.map ScoreRow.value)) own.length, own.length⟩

end Aggregate

open Aggregate in
/-- How many records there are in a database. -/
def Database.counts (db : Database) (order : List String) (check : PendingCheck) :
    Except DatabaseFault RecordCounts :=
  match db.records with
  | none => .error (.noSuchTable recordsTable)
  | some records =>
    match countOf (isPending order check) records.rows with
    | .error fault => .error fault
    | .ok pending =>
      match db.scores with
      | none => .error (.noSuchTable scoresTable)
      | some scores =>
        .ok ⟨records.rows.length, pending, (scores.map ScoreRow.recordId).eraseDups.length⟩

open Aggregate in
/-- The totals of passes in a database, each of them if the sum of its tokens is an integer. -/
def Database.totals (db : Database) : Except DatabaseFault (List (Option PassTotals)) :=
  match db.results with
  | none => .error (.noSuchTable resultsTable)
  | some results => allTotals results.rows (sortedNames (results.rows.map ResultRow.pass))

open Aggregate in
/-- The means of all metrics in a database. -/
def Database.means (db : Database) : List MetricMean :=
  let scores := db.scores.getD []
  (sortedNames (scores.map ScoreRow.metric)).map (metricMean scores)

open Aggregate in
/-- The overview of a database. The totals of passes are read once all of them are computed, and then
each sum of tokens has to be an integer. A mean is read when it is shown, and has to be defined. -/
def Database.overview (db : Database) (order : List String) (check : PendingCheck) :
    Except OverviewFault Overview :=
  match db.counts order check with
  | .error fault => .error (.uncounted fault)
  | .ok counts =>
    match db.totals with
    | .error fault => .error (.unsummed counts fault)
    | .ok totals =>
      if totals.all Option.isSome then
        let means := db.means
        let shown (metrics : List MetricMean) : Overview :=
          { counts with passes := totals.filterMap id, metrics }
        if means.all MetricMean.isDefined then .ok (shown means)
        else .error (.unaveraged (shown (means.takeWhile MetricMean.isDefined)))
      else .error (.panicked counts)

end Multipass.Relational
