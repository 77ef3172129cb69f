import Multipass.Calendar
import Multipass.Number.Decimal
import Multipass.Store.Error
import Multipass.Text.Pad

/-!
# The state of a pipeline

How many records there are and how many still need work; for each pass how often it was completed,
what it took and when it ran last; and the mean of every metric. The counts are shown before the
passes are looked at, and so also where the rest cannot be found out.
-/

namespace Multipass

open Text

/-- What the results of one pass come to. -/
structure PassTotals where
  pass : String
  results : Nat := 0
  tokens : Int := 0
  meanMillis : Number.Double := Number.Double.ofNat 0
  /-- When the last result was kept. -/
  lastRun : Option Timestamp := none
  deriving DecidableEq, Repr

/-- What the scores of one metric come to. -/
structure MetricMean where
  metric : String
  mean : Number.Double
  records : Nat
  deriving DecidableEq, Repr

/-- Holds of a mean that is there; a database has no value where a number is undefined. -/
def MetricMean.isDefined (m : MetricMean) : Bool :=
  m.mean ≠ .nan

/-- How many records there are. -/
structure RecordCounts where
  records : Nat
  pending : Nat
  /-- The records with a score. -/
  scored : Nat
  deriving DecidableEq, Repr

/-- The state of a pipeline. -/
structure Overview extends RecordCounts where
  /-- The passes with a result. -/
  passes : List PassTotals
  metrics : List MetricMean
  deriving DecidableEq, Repr

/-- Why there is no state to be shown, or only the front of one. -/
inductive OverviewFault where
  /-- The records are not counted. -/
  | uncounted (fault : DatabaseFault)
  /-- The records are counted, and the totals of passes are refused. -/
  | unsummed (counts : RecordCounts) (fault : DatabaseFault)
  /-- The records are counted, and a number among the totals is taken for an integer of 64 bits and
  is none: the program panics. -/
  | panicked (counts : RecordCounts)
  /-- All is there but the mean of a metric behind those that are shown, which is undefined: the
  program panics. -/
  | unaveraged (shown : Overview)
  deriving DecidableEq, Repr

namespace Overview

/-- The totals of an order, a pass that has no result or was named before with none of them, and
then those of the passes that are left, by their names. -/
def rows (order : List String) (totals : List PassTotals) : List PassTotals :=
  match order with
  | [] => totals.mergeSort fun a b => !(b.pass < a.pass)
  | pass :: order =>
    let row := (totals.find? fun t => t.pass == pass).getD { pass }
    row :: rows order (totals.filter fun t => t.pass != pass)

/-! ### Text -/

/-- A count of bytes in the greatest unit that it reaches. -/
def sizeText (bytes : Nat) : String :=
  let inUnits (unit : Nat) : Number.Double :=
    Number.Double.div (Number.Double.ofNat bytes) (Number.Double.ofNat unit)
  if bytes < 1024 then s!"{bytes} B"
  else if bytes < 1024 * 1024 then s!"{Number.fixed 1 (inUnits 1024)} KB"
  else if bytes < 1024 * 1024 * 1024 then s!"{Number.fixed 1 (inUnits (1024 * 1024))} MB"
  else s!"{Number.fixed 2 (inUnits (1024 * 1024 * 1024))} GB"

/-- A line of the table of passes. -/
def tableLine (pass done tokens millis lastRun : String) : String :=
  s!"  {padRight 24 pass} {padLeft 12 done} {padLeft 10 tokens} {padLeft 9 millis}   {lastRun}"

/-- The line of a pass. -/
def passLine (order : List String) (records : Nat) (now : Timestamp) (t : PassTotals) : String :=
  let marker := if order.contains t.pass then "" else " *"
  let lastRun := match t.lastRun with
    | some time => Calendar.relative now time
    | none => "never"
  tableLine (t.pass ++ marker) s!"{t.results} / {records}" (toString t.tokens)
    (Number.fixed 0 t.meanMillis) lastRun

/-- The lines about passes, if there are any. -/
def passLines (o : Overview) (order : List String) (now : Timestamp) : List String :=
  let totals := rows order o.passes
  if totals.isEmpty then []
  else
    ["", "  By pass:", tableLine "PASS" "DONE" "TOKENS" "AVG MS" "LAST RUN",
      "  " ++ String.ofList (List.replicate 76 '-')]
    ++ totals.map (passLine order o.records now)
    ++ if totals.all fun t => order.contains t.pass then []
      else ["  * not in the configured pass order"]

/-- The line of a metric. -/
def metricLine (m : MetricMean) : String :=
  s!"  {padRight 24 m.metric} avg {padLeft 6 (Number.fixed 1 m.mean)}  ({m.records} records)"

/-- The lines about metrics that are shown one after the other. -/
def metricTable (metrics : List MetricMean) : List String :=
  ["", "  Scores:"] ++ metrics.map metricLine

/-- The lines about metrics, if there are any. -/
def metricLines (metrics : List MetricMean) : List String :=
  if metrics.isEmpty then [] else metricTable metrics

/-- The lines about records, with the place and the size of the database. -/
def recordLines (counts : RecordCounts) (database : String) (bytes : Nat) : List String :=
  ["passline: pipeline status",
   "=========================",
   "",
   s!"  Database:    {database}",
   s!"  Size:        {sizeText bytes}",
   "",
   s!"  Records:     {counts.records}",
   s!"  Pending:     {counts.pending}",
   s!"  Scored:      {counts.scored}"]

/-- The state of a pipeline in words, with the place and the size of its database. -/
def text (o : Overview) (database : String) (bytes : Nat) (order : List String)
    (now : Timestamp) : String :=
  lines (recordLines o.toRecordCounts database bytes ++ o.passLines order now
    ++ metricLines o.metrics ++ [""])

end Overview

end Multipass
